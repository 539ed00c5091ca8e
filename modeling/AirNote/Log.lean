import AirNote.Event

/-!
# The event log

The log as the engine's readers see it: the sequence of events in append
order. `appendEventInTx` is the sole insertion path. It propagates the
external taint, assigns the identifier, the time stamp and the link to the
chain tip, seals the event (hash and signature), and refuses an identifier
or a hash the table already holds (both columns are declared `UNIQUE`).

What one append takes from outside the program — the fresh ULID, the clock
and the cryptography — is bundled in a `Mint`. Every result about the log
quantifies over the mints, so it holds whatever identifiers and times the
environment supplies and whichever appends it lets fail.
`AirNote.Rows` gives the same operation on the stored rows, with the seal
computed by the chain hash, and proves that the two agree.

## Main results

* `append_ok`, `appendPair_ok` — what a successful append did: the log grew
  by exactly the stamped events, each under a fresh identifier. A failed
  append carries no new log, so it leaves the log as it was.
* `UniqueIds.stored`, `eventById_of_mem` — identifiers stay unique, and an
  identifier the log resolves keeps its event while the log grows.
-/

namespace AirNote

/-- The stored events in append order. -/
abbrev EventLog := List Event

/-- `GENESIS`: the link of the first event, 64 zeros. -/
def genesis : String := String.ofList (List.replicate 64 '0')

/-- What one append takes from its environment: the minted identifier, the
clock reading, and the seal of the finished event (its hash and signature,
or the error of the canonicalisation, the link or the store). -/
structure Mint where
  id : String
  ts : String
  sealOf : Event → Except BossclawError (String × String)

/-- A mint for concrete runs: the seal succeeds, with the identifier standing
in for the hash. -/
def Mint.plain (id : String) : Mint :=
  { id := id
    ts := "2026-01-01T00:00:00Z"
    sealOf := fun e => .ok (e.id, e.id) }

/-- A Tier-B event must carry real lineage. -/
def rejectEmptyTierB (event : Event) : Except BossclawError Unit :=
  match event.modelMeta with
  | some m =>
      if m.sourceEventIds.isEmpty then
        .error (.chain "Tier-B event requires non-empty source_event_ids")
      else .ok ()
  | none => .ok ()

/-- `event_by_id`. -/
def eventById (log : EventLog) (id : String) : Option Event :=
  log.find? fun e => e.id == id

/-- `events_of_types`. -/
def eventsOfTypes (log : EventLog) (types : List String) : List Event :=
  log.filter fun ev => types.contains ev.eventType

/-- Does the event `id` carry the external stamp? A source that cannot be
read counts as external. -/
def sourceIsExternalInTx (log : EventLog) (id : String) : Bool :=
  match eventById log id with
  | some ev => isExternal ev
  | none => true

/-- Does the direct lineage of `event` touch an external source? -/
def taintedInTx (log : EventLog) (event : Event) : Bool :=
  event.sources.any (sourceIsExternalInTx log)

/-- The content the event is stored with: the external stamp is inserted
into an object whose lineage is tainted. -/
def stampedContent (log : EventLog) (event : Event) : Json :=
  if taintedInTx log event then
    event.content.insertIfObject "origin" (.str externalOrigin)
  else event.content

/-- The `hash` column of a stored event. -/
def hashColumn (event : Event) : String := event.hash.getD genesis

/-- The `hash` column of the chain tip. -/
def tipHash (log : EventLog) : String :=
  match log.getLast? with
  | some e => hashColumn e
  | none => genesis

/-- The event as it enters the seal: stamped, identified, linked. -/
def linkedEvent (m : Mint) (log : EventLog) (event : Event) : Event :=
  { event with
    content := stampedContent log event
    id := m.id
    ts := m.ts
    prevHash := tipHash log
    hash := none
    signature := none }

/-- `append_event_in_tx`: stamp, link, seal and insert. -/
def appendEventInTx (m : Mint) (log : EventLog) (event : Event) :
    Except BossclawError (EventLog × String) :=
  match m.sealOf (linkedEvent m log event) with
  | .error e => .error e
  | .ok (hashHex, sig) =>
      if log.any (fun e => e.id == m.id) then
        .error (.store "UNIQUE constraint failed: events.id")
      else if log.any (fun e => hashColumn e == hashHex) then
        .error (.store "UNIQUE constraint failed: events.hash")
      else
        .ok (log ++ [{ linkedEvent m log event with
                        hash := some hashHex, signature := some sig }],
          m.id)

/-- `append`. -/
def append (m : Mint) (log : EventLog) (event : Event) :
    Except BossclawError (EventLog × String) :=
  match rejectEmptyTierB event with
  | .error e => .error e
  | .ok () => appendEventInTx m log event

/-- `append_pair`: both events in one transaction, or neither. -/
def appendPair (m₁ m₂ : Mint) (log : EventLog) (first second : Event) :
    Except BossclawError (EventLog × String × String) :=
  match rejectEmptyTierB first, rejectEmptyTierB second with
  | .error e, _ => .error e
  | .ok (), .error e => .error e
  | .ok (), .ok () =>
      match appendEventInTx m₁ log first with
      | .error e => .error e
      | .ok (log₁, id₁) =>
          match appendEventInTx m₂ log₁ second with
          | .error e => .error e
          | .ok (log₂, id₂) => .ok (log₂, id₁, id₂)

/-! ## What an append does -/

/-- The event `stored` is what appending `event` to `log` under `m` stores. -/
structure Stored (m : Mint) (log : EventLog) (event stored : Event) :
    Prop where
  id_eq : stored.id = m.id
  ts_eq : stored.ts = m.ts
  fresh : ∀ e ∈ log, e.id ≠ m.id
  content_eq : stored.content = stampedContent log event
  eventType_eq : stored.eventType = event.eventType
  modelMeta_eq : stored.modelMeta = event.modelMeta
  validTime_eq : stored.validTime = event.validTime
  signedBy_eq : stored.signedByDid = event.signedByDid
  prevHash_eq : stored.prevHash = tipHash log

/-- A successful insertion appends the stored event and answers its id. -/
theorem appendEventInTx_ok {m : Mint} {log log' : EventLog} {event : Event}
    {id : String} (h : appendEventInTx m log event = .ok (log', id)) :
    id = m.id ∧ ∃ stored, Stored m log event stored ∧
      log' = log ++ [stored] := by
  unfold appendEventInTx at h
  cases hseal : m.sealOf (linkedEvent m log event) with
  | error e => simp [hseal] at h
  | ok hs =>
      simp only [hseal] at h
      split at h
      · cases h
      · rename_i hid
        split at h
        · cases h
        · cases h
          refine ⟨rfl, _, ?_, rfl⟩
          refine
            { id_eq := rfl, ts_eq := rfl, fresh := ?_, content_eq := rfl,
              eventType_eq := rfl, modelMeta_eq := rfl, validTime_eq := rfl,
              signedBy_eq := rfl, prevHash_eq := rfl }
          intro e he heq
          exact hid (List.any_eq_true.mpr ⟨e, he, by simp [heq]⟩)

/-- A successful `append` appends the stored event and answers its id. -/
theorem append_ok {m : Mint} {log log' : EventLog} {event : Event}
    {id : String} (h : append m log event = .ok (log', id)) :
    id = m.id ∧ ∃ stored, Stored m log event stored ∧
      log' = log ++ [stored] := by
  unfold append at h
  split at h
  · cases h
  · exact appendEventInTx_ok h

/-- A successful `append_pair` is two insertions, one after the other. -/
theorem appendPair_ok {m₁ m₂ : Mint} {log log' : EventLog}
    {first second : Event} {ids : String × String}
    (h : appendPair m₁ m₂ log first second = .ok (log', ids)) :
    ∃ log₁, appendEventInTx m₁ log first = .ok (log₁, ids.1) ∧
      appendEventInTx m₂ log₁ second = .ok (log', ids.2) := by
  unfold appendPair at h
  split at h
  · cases h
  · cases h
  · cases h₁ : appendEventInTx m₁ log first with
    | error e => simp [h₁] at h
    | ok r₁ =>
        obtain ⟨log₁, id₁⟩ := r₁
        simp only [h₁] at h
        cases h₂ : appendEventInTx m₂ log₁ second with
        | error e => simp [h₂] at h
        | ok r₂ =>
            obtain ⟨log₂, id₂⟩ := r₂
            simp only [h₂] at h
            cases h
            exact ⟨log₁, rfl, h₂⟩

/-- A user's own event has no lineage, so it is stored with its content. -/
theorem stampedContent_of_none {log : EventLog} {event : Event}
    (h : event.modelMeta = none) : stampedContent log event = event.content := by
  have huntainted : taintedInTx log event = false := by
    simp [taintedInTx, Event.sources, h]
  rw [stampedContent, huntainted]
  rfl

theorem Stored.content_of_none {m : Mint} {log : EventLog}
    {event stored : Event} (hs : Stored m log event stored)
    (h : event.modelMeta = none) : stored.content = event.content :=
  hs.content_eq.trans (stampedContent_of_none h)

theorem mem_eventsOfTypes {log : EventLog} {types : List String}
    {ev : Event} :
    ev ∈ eventsOfTypes log types ↔ ev ∈ log ∧ ev.eventType ∈ types := by
  rw [eventsOfTypes, List.mem_filter, List.contains_iff_mem]

theorem eventsOfTypes_append (log log' : EventLog) (types : List String) :
    eventsOfTypes (log ++ log') types =
      eventsOfTypes log types ++ eventsOfTypes log' types :=
  List.filter_append ..

/-! ## Accepting environments -/

/-- The environment lets the next append succeed: a fresh identifier, and a
seal with a fresh hash for every event. -/
structure Mint.Accepts (m : Mint) (log : EventLog) : Prop where
  freshId : ∀ e ∈ log, e.id ≠ m.id
  seals : ∀ event, ∃ hashHex sig, m.sealOf event = .ok (hashHex, sig) ∧
    ∀ e ∈ log, hashColumn e ≠ hashHex

theorem append_of_accepts {m : Mint} {log : EventLog} {event : Event}
    (hm : m.Accepts log) (htier : rejectEmptyTierB event = .ok ()) :
    ∃ log', append m log event = .ok (log', m.id) := by
  obtain ⟨hashHex, sig, hseal, hfresh⟩ := hm.seals (linkedEvent m log event)
  have hid : ¬ (log.any fun e => e.id == m.id) = true := by
    simpa using hm.freshId
  have hhash : ¬ (log.any fun e => hashColumn e == hashHex) = true := by
    simpa using hfresh
  rw [append, htier]
  simp only [appendEventInTx, hseal]
  rw [if_neg hid, if_neg hhash]
  exact ⟨_, rfl⟩

/-! ## Identifiers are unique -/

/-- The `UNIQUE` constraint of the `id` column. -/
def UniqueIds (log : EventLog) : Prop := (log.map Event.id).Nodup

theorem uniqueIds_nil : UniqueIds [] := List.nodup_nil

theorem UniqueIds.stored {m : Mint} {log : EventLog} {event stored : Event}
    (hu : UniqueIds log) (hs : Stored m log event stored) :
    UniqueIds (log ++ [stored]) := by
  unfold UniqueIds at *
  rw [List.map_append, List.nodup_append]
  refine ⟨hu, by simp, ?_⟩
  intro a ha b hb
  obtain ⟨e, he, rfl⟩ := List.mem_map.mp ha
  simp only [List.map_cons, List.map_nil, List.mem_singleton] at hb
  subst hb
  rw [hs.id_eq]
  exact hs.fresh e he

/-- With unique identifiers, a member is found under its own identifier. -/
theorem eventById_of_mem {log : EventLog} (hu : UniqueIds log) {e : Event}
    (he : e ∈ log) : eventById log e.id = some e := by
  induction log with
  | nil => cases he
  | cons x xs ih =>
      have hnodup := List.nodup_cons.mp hu
      rcases List.mem_cons.mp he with rfl | hmem
      · simp [eventById]
      · have hne : x.id ≠ e.id := by
          intro heq
          exact hnodup.1 (heq ▸ List.mem_map_of_mem hmem)
        have hfind := ih hnodup.2 hmem
        simpa [eventById, List.find?_cons, hne] using hfind

theorem mem_of_eventById {log : EventLog} {id : String} {e : Event}
    (h : eventById log id = some e) : e ∈ log ∧ e.id = id := by
  refine ⟨List.mem_of_find?_eq_some h, ?_⟩
  simpa using List.find?_some h

theorem eventById_eq_none_iff {log : EventLog} {id : String} :
    eventById log id = none ↔ ∀ e ∈ log, e.id ≠ id := by
  simp [eventById]

/-- An identifier the log resolves keeps its event when the log grows. -/
theorem eventById_append_of_some {log : EventLog} {id : String} {e : Event}
    (h : eventById log id = some e) (suffix : EventLog) :
    eventById (log ++ suffix) id = some e := by
  simp only [eventById] at h ⊢
  rw [List.find?_append, h]
  rfl

/-! ## Calls on the log -/

/-- One call on the log by one of its writers. -/
inductive AppendCall where
  | append (m : Mint) (event : Event)
  | appendPair (m₁ m₂ : Mint) (first second : Event)

/-- The log after a call: a refused call leaves it as it is. -/
def AppendCall.exec (log : EventLog) : AppendCall → EventLog
  | .append m event =>
      match AirNote.append m log event with
      | .ok (log', _) => log'
      | .error _ => log
  | .appendPair m₁ m₂ first second =>
      match AirNote.appendPair m₁ m₂ log first second with
      | .ok (log', _, _) => log'
      | .error _ => log

/-- The events a call is handed. -/
def AppendCall.events : AppendCall → List Event
  | .append _ event => [event]
  | .appendPair _ _ first second => [first, second]

/-- `log'` is `log` with the drafts stored one after the other. -/
inductive Logged : EventLog → List Event → EventLog → Prop where
  | nil {log : EventLog} : Logged log [] log
  | cons {m : Mint} {log log' : EventLog} {draft stored : Event}
      {drafts : List Event} (hs : Stored m log draft stored)
      (rest : Logged (log ++ [stored]) drafts log') :
      Logged log (draft :: drafts) log'

/-- All of the drafts were stored, or none. -/
def Transacts (log : EventLog) (drafts : List Event) (log' : EventLog) :
    Prop := log' = log ∨ Logged log drafts log'

theorem Logged.one {m : Mint} {log : EventLog} {draft stored : Event}
    (hs : Stored m log draft stored) :
    Logged log [draft] (log ++ [stored]) := .cons hs .nil

theorem Logged.two {m₁ m₂ : Mint} {log : EventLog} {d₁ d₂ e₁ e₂ : Event}
    (h₁ : Stored m₁ log d₁ e₁) (h₂ : Stored m₂ (log ++ [e₁]) d₂ e₂) :
    Logged log [d₁, d₂] (log ++ [e₁] ++ [e₂]) := .cons h₁ (.one h₂)

/-- The log only ever grows. -/
theorem Logged.suffix {log log' : EventLog} {drafts : List Event}
    (h : Logged log drafts log') : ∃ suffix, log' = log ++ suffix := by
  induction h with
  | nil => exact ⟨[], by simp⟩
  | cons hs rest ih =>
      obtain ⟨suffix, rfl⟩ := ih
      exact ⟨_, List.append_assoc _ _ _⟩

/-- Identifiers stay unique. -/
theorem Logged.uniqueIds {log log' : EventLog} {drafts : List Event}
    (h : Logged log drafts log') (hu : UniqueIds log) : UniqueIds log' := by
  induction h with
  | nil => exact hu
  | cons hs rest ih => exact ih (hu.stored hs)

theorem AppendCall.exec_transacts (log : EventLog) (call : AppendCall) :
    Transacts log call.events (call.exec log) := by
  cases call with
  | append m event =>
      simp only [AppendCall.exec, AppendCall.events]
      cases h : AirNote.append m log event with
      | error e => exact .inl rfl
      | ok r =>
          obtain ⟨log', id⟩ := r
          obtain ⟨-, stored, hs, rfl⟩ := append_ok h
          exact .inr (.one hs)
  | appendPair m₁ m₂ first second =>
      simp only [AppendCall.exec, AppendCall.events]
      cases h : AirNote.appendPair m₁ m₂ log first second with
      | error e => exact .inl rfl
      | ok r =>
          obtain ⟨log', ids⟩ := r
          obtain ⟨log₁, h₁, h₂⟩ := appendPair_ok h
          obtain ⟨-, stored₁, hs₁, rfl⟩ := appendEventInTx_ok h₁
          obtain ⟨-, stored₂, hs₂, rfl⟩ := appendEventInTx_ok h₂
          exact .inr (.two hs₁ hs₂)

end AirNote
