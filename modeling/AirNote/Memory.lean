import AirNote.Sessions

/-!
# Notes, sessions and passages: the memory operations

The store holds the event log and, beside it, the derived tables the memory
operations read and write: the stored vectors, the session-passage vectors
and the cursor of the conflict sweep. An operation answers the store it
leaves behind together with its result. The two are separate because the
source is not transactional across them: an append commits before the vector
is derived, so an operation may fail and still have grown the log.

The embedding model is a parameter; its vectors are opaque blobs. Appends
take their `Mint` as an argument, one for each event they may store.

## Main results

* The `..._transacts` theorems — whatever its result, an operation stores all
  of the events it drafts, or none.
* `findCurrent_append` — which events leave the current capture of a session
  alone.
-/

namespace AirNote

open Lib

/-! ## The store -/

/-- An embedding model. `embed` gives the blob of the one vector of a text. -/
structure Embedder where
  modelId : String
  dim : Nat
  embed : String → Except BossclawError Bytes

/-- A row of `vectors`; `(event_id, model_id)` is its key. -/
structure VectorRow where
  eventId : String
  modelId : String
  dim : Nat
  embedding : Bytes
  deriving DecidableEq, Repr

/-- A row of `session_passage_vectors`, keyed on capture, ordinal and model. -/
structure PassageRow where
  eventId : String
  passageIx : Nat
  modelId : String
  dim : Nat
  embedding : Bytes
  deriving DecidableEq, Repr

/-- The event log with the tables derived beside it. -/
structure Store where
  log : EventLog
  vectors : List VectorRow
  passages : List PassageRow
  conflictCursor : Option (Nat × Nat)

/-- A new store. -/
def Store.empty : Store := ⟨[], [], [], none⟩

/-- An operation's outcome: the store it leaves and its result. -/
abbrev Outcome (α : Type) := Store × Except BossclawError α

/-- `append` on the store. -/
def Store.append (m : Mint) (st : Store) (event : Event) : Outcome String :=
  match AirNote.append m st.log event with
  | .ok (log', id) => ({ st with log := log' }, .ok id)
  | .error e => (st, .error e)

/-- `append_pair` on the store. -/
def Store.appendPair (m₁ m₂ : Mint) (st : Store) (first second : Event) :
    Outcome (String × String) :=
  match AirNote.appendPair m₁ m₂ st.log first second with
  | .ok (log', ids) => ({ st with log := log' }, .ok ids)
  | .error e => (st, .error e)

/-- `seq_of_event`: the position of an event, counted from one. -/
def seqOfEvent (log : EventLog) (id : String) : Option Nat :=
  (log.findIdx? fun e => e.id == id).map (· + 1)

/-! ## Vectors -/

/-- `EMBEDDABLE_EVENT_TYPES`. -/
def embeddableEventTypes : List String :=
  [memoryEventType, pageEventType, fileIngestedEventType,
    sessionCapturedEventType]

/-- `embeddable_text`. -/
def embeddableText (event : Event) : Option String :=
  if embeddableEventTypes.contains event.eventType then
    event.content.getStr? "text"
  else none

/-- `INSERT OR REPLACE INTO vectors`. -/
def upsertVector (row : VectorRow) (rows : List VectorRow) :
    List VectorRow :=
  rows.filter (fun r => !(r.eventId == row.eventId
    && r.modelId == row.modelId)) ++ [row]

/-- `derive_vector` (and `embed_and_upsert`): embed the event's text and store
the vector; `false` when there is no text. -/
def deriveVector (emb : Embedder) (st : Store) (event : Event) :
    Outcome Bool :=
  match embeddableText event with
  | none => (st, .ok false)
  | some text =>
      match emb.embed text with
      | .error e => (st, .error e)
      | .ok blob =>
          let row : VectorRow :=
            { eventId := event.id, modelId := emb.modelId, dim := emb.dim,
              embedding := blob }
          ({ st with vectors := upsertVector row st.vectors }, .ok true)

/-- `derive_vector_for`. -/
def deriveVectorFor (emb : Embedder) (st : Store) (eventId : String) :
    Outcome Unit :=
  match eventById st.log eventId with
  | none => (st, .ok ())
  | some ev =>
      match deriveVector emb st ev with
      | (st', .ok _) => (st', .ok ())
      | (st', .error e) => (st', .error e)

/-- Run the vector derivation after an append that answered `id`. -/
def derived (emb : Embedder) (r : Outcome String) : Outcome String :=
  match r with
  | (st, .error e) => (st, .error e)
  | (st, .ok id) =>
      match deriveVectorFor emb st id with
      | (st', .error e) => (st', .error e)
      | (st', .ok ()) => (st', .ok id)

/-- `embed_excluded_event_ids`: superseded ids, retired notes, and the
captures of deleted sessions. -/
def embedExcluded (log : EventLog) (id : String) : Bool :=
  let events := sessionEventsOrdered log
  let fold := foldSessions events
  decide (id ∈ fold.superseded) || decide (id ∈ fold.retiredNotes)
    || events.any fun ev =>
        ev.eventType == sessionCapturedEventType && ev.id == id
          && match ev.content.getStr? "session_id" with
            | some sid => decide (sid ∈ fold.deleted)
            | none => false

/-- `collect_pending`: the embeddable events without a vector under the
model, the excluded ones left out. -/
def collectPending (st : Store) (modelId : String) : List Event :=
  st.log.filter fun ev =>
    embeddableEventTypes.contains ev.eventType
      && !(st.vectors.any fun v =>
            v.eventId == ev.id && v.modelId == modelId)
      && !embedExcluded st.log ev.id

/-- The list `reembed_prepare` counts and scans: every embeddable event with
a text, the excluded ones left out. -/
def embeddableEvents (log : EventLog) : List (String × String) :=
  (log.filterMap fun ev => (embeddableText ev).map fun t => (ev.id, t)).filter
    fun p => !embedExcluded log p.1

/-- `rederive_pending`: a failed embedding is skipped. -/
def rederivePending (emb : Embedder) (st : Store) : Store :=
  (collectPending st emb.modelId).foldl
    (fun st ev => (deriveVector emb st ev).1) st

/-- `gc_stale_vectors`, for the recall vectors. -/
def gcStaleVectors (st : Store) (keepModelId : String) : Store :=
  { st with vectors := st.vectors.filter fun v => v.modelId == keepModelId }

/-! ## Notes -/

/-- The Unicode `White_Space` characters `trim` removes. -/
def isUnicodeWhitespace (c : Char) : Bool :=
  (9 ≤ c.toNat && c.toNat ≤ 13)
    || (0x2000 ≤ c.toNat && c.toNat ≤ 0x200a)
    || [0x20, 0x85, 0xa0, 0x1680, 0x2028, 0x2029, 0x202f, 0x205f,
        0x3000].contains c.toNat

/-- `text.trim().is_empty()`. -/
def isBlank (text : String) : Bool := text.toList.all isUnicodeWhitespace

/-- `reject_blank_note_text`. -/
def rejectBlankNoteText (text : String) : Except BossclawError Unit :=
  if isBlank text then
    .error (.invalidInput "cannot remember empty or blank text")
  else .ok ()

/-- `external_note_event`. -/
def externalNoteEvent (text : String) : Event :=
  .draft memoryEventType
    (.obj [("text", .str text), ("origin", .str externalOrigin)]) none

/-- `ground_truth_supersede_event`. -/
def groundTruthSupersedeEvent (priorId : String) : Event :=
  .draft supersedeEventType (.obj [("supersedes", .str priorId)]) none

/-- `remember`. -/
def remember (emb : Embedder) (m : Mint) (st : Store) (text : String) :
    Outcome String :=
  match rejectBlankNoteText text with
  | .error e => (st, .error e)
  | .ok () => derived emb (st.append m (externalNoteEvent text))

/-- `superseded_event_ids`. -/
def supersededEventIds (log : EventLog) : List String :=
  (eventsOfTypes log [supersedeEventType]).filterMap fun e =>
    e.content.getStr? "supersedes"

/-- `supersede_note`. -/
def supersedeNote (emb : Embedder) (m₁ m₂ : Mint) (st : Store)
    (target text : String) : Outcome String :=
  match rejectBlankNoteText text with
  | .error e => (st, .error e)
  | .ok () =>
      match eventById st.log target with
      | none => (st, .error (.invalidInput
          s!"cannot supersede {target}: no such event"))
      | some ev =>
          if ev.eventType ≠ memoryEventType then
            (st, .error (.invalidInput
              s!"cannot supersede {target}: not a remembered note (event_type = {ev.eventType})"))
          else if (supersededEventIds st.log).contains target then
            (st, .error (.invalidInput
              s!"cannot supersede {target}: already superseded (supersede chain heads only)"))
          else
            match st.appendPair m₁ m₂ (groundTruthSupersedeEvent target)
                (externalNoteEvent text) with
            | (st', .error e) => (st', .error e)
            | (st', .ok (_, newId)) => derived emb (st', .ok newId)

/-- The two members a conflict resolution adds to a retire marker. -/
def provenanceMembers : Option String → List (String × Json)
  | some pid => [("via", .str "conflict"), ("proposal_id", .str pid)]
  | none => []

/-- `assert_retirable_note`. -/
def assertRetirableNote (log : EventLog) (target : String) :
    Except BossclawError Unit :=
  match eventById log target with
  | none =>
      .error (.invalidInput s!"cannot retire {target}: no such event")
  | some ev =>
      if ev.eventType ≠ memoryEventType then
        .error (.invalidInput
          s!"cannot retire {target}: not a remembered note (event_type = {ev.eventType})")
      else
        let fold := foldSessions (sessionEventsOrdered log)
        if target ∈ fold.superseded then
          .error (.invalidInput s!"cannot retire {target}: already superseded")
        else if target ∈ fold.retiredNotes then
          .error (.invalidInput s!"cannot retire {target}: already retired")
        else .ok ()

/-- The marker of a retired note. -/
def noteRetiredEvent (target : String) (sourceProposalId : Option String) :
    Event :=
  .draft noteRetiredEventType
    (.obj (("retires", .str target) :: provenanceMembers sourceProposalId))
    none

/-- `retire_memory`. -/
def retireMemory (m : Mint) (st : Store) (target : String)
    (sourceProposalId : Option String) : Outcome String :=
  match assertRetirableNote st.log target with
  | .error e => (st, .error e)
  | .ok () => st.append m (noteRetiredEvent target sourceProposalId)

/-- `rewind_conflict_cursor`: only ever moves the cursor back. -/
def rewindConflictCursor (st : Store) (seq within : Nat) : Store :=
  let current := st.conflictCursor.getD (0, 0)
  if seq < current.1 ∨ (seq = current.1 ∧ within < current.2) then
    { st with conflictCursor := some (seq, within) }
  else st

/-- The marker that restores a note. -/
def unretireEvent (target : String) : Event :=
  .draft unretireEventType (.obj [("unretires", .str target)]) none

/-- `unretire`. -/
def unretire (m : Mint) (st : Store) (target : String) : Outcome String :=
  if target ∈ (foldSessions (sessionEventsOrdered st.log)).retiredNotes then
    match st.append m (unretireEvent target) with
    | (st', .error e) => (st', .error e)
    | (st', .ok markerId) =>
        match seqOfEvent st'.log target with
        | some seq => (rewindConflictCursor st' seq 0, .ok markerId)
        | none => (st', .ok markerId)
  else
    (st, .error (.invalidInput s!"cannot unretire {target}: not retired"))

/-! ## Sessions -/

/-- `current_sessions`. -/
def currentSessions (log : EventLog) : List CurrentSession :=
  (foldSessions (sessionEventsOrdered log)).current

/-- The current capture of a session. -/
def findCurrent (log : EventLog) (sid : String) : Option CurrentSession :=
  (currentSessions log).find? fun cs => cs.sessionId == sid

/-- `session_captured_content`. The date label of `ended_at` is rendered by a
library. -/
def sessionCapturedContent (dateLabel : Int → String) (sm : SessionMeta) :
    Json :=
  .obj [("text", .str s!"{sm.title} — {sm.project} ({dateLabel sm.endedAt})"),
    ("origin", .str externalOrigin), ("session_id", .str sm.sessionId),
    ("title", .str sm.title), ("project", .str sm.project),
    ("tool", .str sm.tool), ("started_at", .num sm.startedAt),
    ("ended_at", .num sm.endedAt), ("path", .str sm.path),
    ("sha256", .str sm.sha256), ("approx_bytes", .num sm.approxBytes)]

/-- `session_captured_event`. -/
def sessionCapturedEvent (dateLabel : Int → String) (sm : SessionMeta) :
    Event :=
  .draft sessionCapturedEventType (sessionCapturedContent dateLabel sm) none

/-- `capture_session`. -/
def captureSession (dateLabel : Int → String) (emb : Embedder)
    (m₁ m₂ : Mint) (st : Store) (sm : SessionMeta) : Outcome String :=
  if sm.sessionId ∈
      (foldSessions (sessionEventsOrdered st.log)).deleted then
    (st, .error (.invalidInput
      s!"session {sm.sessionId} was deleted and cannot be recaptured (I9)"))
  else
    match findCurrent st.log sm.sessionId with
    | some prev =>
        if prev.sha256 = sm.sha256 then (st, .ok prev.eventId)
        else
          match st.appendPair m₁ m₂ (groundTruthSupersedeEvent prev.eventId)
              (sessionCapturedEvent dateLabel sm) with
          | (st', .error e) => (st', .error e)
          | (st', .ok (_, newId)) => derived emb (st', .ok newId)
    | none => derived emb (st.append m₁ (sessionCapturedEvent dateLabel sm))

/-- The tombstone of a session. -/
def sessionDeletedEvent (sid : String) : Event :=
  .draft sessionDeletedEventType (.obj [("session_id", .str sid)]) none

/-- `delete_session`. -/
def deleteSession (m : Mint) (st : Store) (sid : String) : Outcome String :=
  match findCurrent st.log sid with
  | none => (st, .error (.invalidInput
      s!"cannot delete session {sid}: no current captured session with that id"))
  | some _ => st.append m (sessionDeletedEvent sid)

/-! ## Passages -/

/-- `session_passage_count`: rows of the capture, over every model. -/
def sessionPassageCount (st : Store) (eventId : String) : Nat :=
  (st.passages.filter fun r => r.eventId == eventId).length

/-- `INSERT OR REPLACE INTO session_passage_vectors`. -/
def upsertPassage (rows : List PassageRow) (row : PassageRow) :
    List PassageRow :=
  rows.filter (fun r => !(r.eventId == row.eventId
    && r.passageIx == row.passageIx && r.modelId == row.modelId)) ++ [row]

/-- Embed the chunks in order; the first failure is the result. -/
def embedChunks (emb : Embedder) :
    List String → Except BossclawError (List Bytes)
  | [] => .ok []
  | chunk :: rest =>
      match emb.embed chunk with
      | .error e => .error e
      | .ok blob =>
          match embedChunks emb rest with
          | .error e => .error e
          | .ok blobs => .ok (blob :: blobs)

/-- `store_session_passages`: all chunks, or none. -/
def storeSessionPassages (emb : Embedder) (st : Store) (eventId : String)
    (chunks : List String) : Outcome Unit :=
  match embedChunks emb chunks with
  | .error e => (st, .error e)
  | .ok blobs =>
      let rows := blobs.zipIdx.map fun (blob, ix) =>
        { eventId := eventId, passageIx := ix, modelId := emb.modelId,
          dim := emb.dim, embedding := blob : PassageRow }
      ({ st with passages := rows.foldl upsertPassage st.passages }, .ok ())

/-- The marker of a retired passage. -/
def passageRetiredEvent (sid : String) (pid : Nat)
    (sourceProposalId : Option String) : Event :=
  .draft passageRetiredEventType
    (.obj (("session_id", .str sid) :: ("passage_id", .num pid) ::
      provenanceMembers sourceProposalId)) none

/-- `retire_passage`. -/
def retirePassage (m : Mint) (st : Store) (sid : String) (pid : Nat)
    (sourceProposalId : Option String) : Outcome String :=
  match findCurrent st.log sid with
  | none => (st, .error (.invalidInput
      s!"cannot retire passage: no current session {sid}"))
  | some cs =>
      let n := sessionPassageCount st cs.eventId
      if n ≤ pid then
        (st, .error (.invalidInput
          s!"cannot retire passage {pid} of {sid}: out of range ({n})"))
      else if (sid, pid) ∈
          (foldSessions (sessionEventsOrdered st.log)).retiredPassages then
        (st, .error (.invalidInput
          s!"cannot retire passage {pid} of {sid}: already retired"))
      else st.append m (passageRetiredEvent sid pid sourceProposalId)

/-- The marker that restores a passage. -/
def unretirePassageEvent (sid : String) (pid : Nat) : Event :=
  .draft unretireEventType
    (.obj [("session_id", .str sid), ("passage_id", .num pid)]) none

/-- `unretire_passage`. -/
def unretirePassage (m : Mint) (st : Store) (sid : String) (pid : Nat) :
    Outcome String :=
  if (sid, pid) ∈
      (foldSessions (sessionEventsOrdered st.log)).retiredPassages then
    match st.append m (unretirePassageEvent sid pid) with
    | (st', .error e) => (st', .error e)
    | (st', .ok markerId) =>
        match findCurrent st.log sid with
        | none => (st', .ok markerId)
        | some cs =>
            match seqOfEvent st'.log cs.eventId with
            | some seq => (rewindConflictCursor st' seq pid, .ok markerId)
            | none => (st', .ok markerId)
  else
    (st, .error (.invalidInput
      s!"cannot unretire passage {pid} of {sid}: not retired"))

/-! ## What the operations do to the log -/

@[simp] theorem deriveVector_log (emb : Embedder) (st : Store)
    (ev : Event) : (deriveVector emb st ev).1.log = st.log := by
  unfold deriveVector
  split
  · rfl
  · split <;> rfl

@[simp] theorem deriveVectorFor_log (emb : Embedder) (st : Store)
    (id : String) : (deriveVectorFor emb st id).1.log = st.log := by
  unfold deriveVectorFor
  split
  · rfl
  · next ev _ =>
      have hlog := deriveVector_log emb st ev
      split <;> simp_all

@[simp] theorem derived_log (emb : Embedder) (r : Outcome String) :
    (derived emb r).1.log = r.1.log := by
  unfold derived
  split
  · rfl
  · next st id =>
      have hlog := deriveVectorFor_log emb st id
      split <;> simp_all

@[simp] theorem rewindConflictCursor_log (st : Store) (seq within : Nat) :
    (rewindConflictCursor st seq within).log = st.log := by
  unfold rewindConflictCursor
  simp only
  split <;> rfl

@[simp] theorem rederivePending_log (emb : Embedder) (st : Store) :
    (rederivePending emb st).log = st.log := by
  unfold rederivePending
  refine Fold.foldl_inv (fun s : Store => s.log = st.log) rfl ?_
  intro s ev _ hs
  rw [deriveVector_log, hs]

theorem Store.append_log (m : Mint) (st : Store) (event : Event) :
    (st.append m event).1.log = AppendCall.exec st.log (.append m event) := by
  simp only [Store.append, AppendCall.exec]
  cases AirNote.append m st.log event with
  | error e => rfl
  | ok r => rfl

theorem Store.appendPair_log (m₁ m₂ : Mint) (st : Store)
    (first second : Event) :
    (st.appendPair m₁ m₂ first second).1.log =
      AppendCall.exec st.log (.appendPair m₁ m₂ first second) := by
  simp only [Store.appendPair, AppendCall.exec]
  cases AirNote.appendPair m₁ m₂ st.log first second with
  | error e => rfl
  | ok r => rfl

theorem Store.append_transacts (m : Mint) (st : Store) (event : Event) :
    Transacts st.log [event] (st.append m event).1.log := by
  rw [st.append_log m event]
  exact AppendCall.exec_transacts st.log (.append m event)

theorem Store.appendPair_transacts (m₁ m₂ : Mint) (st : Store)
    (first second : Event) :
    Transacts st.log [first, second]
      (st.appendPair m₁ m₂ first second).1.log := by
  rw [st.appendPair_log m₁ m₂ first second]
  exact AppendCall.exec_transacts st.log (.appendPair m₁ m₂ first second)

/-- The store with one more event in its log. -/
def Store.push (st : Store) (ev : Event) : Store :=
  { st with log := st.log ++ [ev] }

@[simp] theorem Store.push_log (st : Store) (ev : Event) :
    (st.push ev).log = st.log ++ [ev] := rfl

/-- An append in full: it is refused and changes nothing, or it stores the
event and answers its identifier. -/
theorem Store.append_cases (m : Mint) (st : Store) (event : Event) :
    (∃ e, st.append m event = (st, .error e)) ∨
      ∃ stored, Stored m st.log event stored ∧
        st.append m event = (st.push stored, .ok m.id) := by
  unfold Store.append
  cases h : AirNote.append m st.log event with
  | error e => exact .inl ⟨e, rfl⟩
  | ok r =>
      obtain ⟨log', id⟩ := r
      obtain ⟨rfl, stored, hs, rfl⟩ := append_ok h
      exact .inr ⟨stored, hs, rfl⟩

/-- A pair of appends in full: it is refused and changes nothing, or it stores
both events and answers their identifiers. -/
theorem Store.appendPair_cases (m₁ m₂ : Mint) (st : Store)
    (first second : Event) :
    (∃ e, st.appendPair m₁ m₂ first second = (st, .error e)) ∨
      ∃ s₁ s₂, Stored m₁ st.log first s₁ ∧
        Stored m₂ (st.log ++ [s₁]) second s₂ ∧
        st.appendPair m₁ m₂ first second =
          ((st.push s₁).push s₂, .ok (m₁.id, m₂.id)) := by
  unfold Store.appendPair
  cases h : AirNote.appendPair m₁ m₂ st.log first second with
  | error e => exact .inl ⟨e, rfl⟩
  | ok r =>
      obtain ⟨log', id₁, id₂⟩ := r
      obtain ⟨log₁, h₁, h₂⟩ := appendPair_ok h
      obtain ⟨rfl, s₁, hs₁, rfl⟩ := appendEventInTx_ok h₁
      obtain ⟨rfl, s₂, hs₂, rfl⟩ := appendEventInTx_ok h₂
      exact .inr ⟨s₁, s₂, hs₁, hs₂, rfl⟩

theorem Store.append_of_accepts {m : Mint} {st : Store} {event : Event}
    (hm : m.Accepts st.log) (htier : rejectEmptyTierB event = .ok ()) :
    ∃ st', st.append m event = (st', .ok m.id) := by
  obtain ⟨log', h⟩ := AirNote.append_of_accepts hm htier
  exact ⟨{ st with log := log' }, by rw [Store.append, h]⟩

theorem remember_transacts (emb : Embedder) (m : Mint) (st : Store)
    (text : String) :
    Transacts st.log [externalNoteEvent text] (remember emb m st text).1.log
    := by
  unfold remember
  split
  · exact .inl rfl
  · rw [derived_log]
    exact st.append_transacts m _

/-- A pair of appends followed by the derivation of a vector. -/
private theorem pair_derived_transacts (emb : Embedder) (m₁ m₂ : Mint)
    (st : Store) (first second : Event) :
    Transacts st.log [first, second]
      (match st.appendPair m₁ m₂ first second with
        | (st', .error e) => (st', .error e)
        | (st', .ok (_, newId)) =>
            derived emb (st', .ok newId) : Outcome String).1.log := by
  have hpair := st.appendPair_transacts m₁ m₂ first second
  split
  · next st' e heq => simpa [heq] using hpair
  · next st' a b heq => simpa [heq] using hpair

/-- An edit supersedes a remembered note. -/
theorem supersedeNote_transacts (emb : Embedder) (m₁ m₂ : Mint)
    (st : Store) (target text : String) :
    (supersedeNote emb m₁ m₂ st target text).1.log = st.log ∨
      (∃ ev, eventById st.log target = some ev ∧
        ev.eventType = memoryEventType) ∧
      Transacts st.log
        [groundTruthSupersedeEvent target, externalNoteEvent text]
        (supersedeNote emb m₁ m₂ st target text).1.log := by
  unfold supersedeNote
  split
  · exact .inl rfl
  · split
    · exact .inl rfl
    · next ev hev =>
        split
        · exact .inl rfl
        · next htype =>
            split
            · exact .inl rfl
            · exact .inr ⟨⟨ev, hev, not_not.mp htype⟩,
                pair_derived_transacts emb m₁ m₂ st _ _⟩

theorem retireMemory_transacts (m : Mint) (st : Store) (target : String)
    (src : Option String) :
    Transacts st.log [noteRetiredEvent target src]
      (retireMemory m st target src).1.log := by
  unfold retireMemory
  split
  · exact .inl rfl
  · exact st.append_transacts m _

theorem unretire_transacts (m : Mint) (st : Store) (target : String) :
    Transacts st.log [unretireEvent target] (unretire m st target).1.log := by
  have happ := st.append_transacts m (unretireEvent target)
  unfold unretire
  split
  · split
    · next st' e heq => simpa [heq] using happ
    · next st' id heq =>
        have hst : Transacts st.log [unretireEvent target] st'.log := by
          simpa [heq] using happ
        split
        · simpa using hst
        · exact hst
  · exact .inl rfl

/-- A capture of a session not deleted; a re-capture with another body
supersedes the capture it replaces. -/
theorem captureSession_transacts (dateLabel : Int → String) (emb : Embedder)
    (m₁ m₂ : Mint) (st : Store) (sm : SessionMeta) :
    (captureSession dateLabel emb m₁ m₂ st sm).1.log = st.log ∨
      (sm.sessionId ∉ (foldSessions (sessionEventsOrdered st.log)).deleted ∧
        findCurrent st.log sm.sessionId = none ∧
        Transacts st.log [sessionCapturedEvent dateLabel sm]
          (captureSession dateLabel emb m₁ m₂ st sm).1.log) ∨
      ∃ prev, findCurrent st.log sm.sessionId = some prev ∧
        prev.sha256 ≠ sm.sha256 ∧
        Transacts st.log [groundTruthSupersedeEvent prev.eventId,
            sessionCapturedEvent dateLabel sm]
          (captureSession dateLabel emb m₁ m₂ st sm).1.log := by
  unfold captureSession
  split
  · exact .inl rfl
  · next hdel =>
      split
      · next prev hprev =>
          split
          · exact .inl rfl
          · next hsha =>
              exact .inr (.inr ⟨prev, hprev, hsha,
                pair_derived_transacts emb m₁ m₂ st _ _⟩)
      · next hnone =>
          rw [derived_log]
          exact .inr (.inl ⟨hdel, hnone, st.append_transacts m₁ _⟩)

theorem deleteSession_transacts (m : Mint) (st : Store) (sid : String) :
    Transacts st.log [sessionDeletedEvent sid]
      (deleteSession m st sid).1.log := by
  unfold deleteSession
  split
  · exact .inl rfl
  · exact st.append_transacts m _

@[simp] theorem storeSessionPassages_log (emb : Embedder) (st : Store)
    (eventId : String) (chunks : List String) :
    (storeSessionPassages emb st eventId chunks).1.log = st.log := by
  unfold storeSessionPassages
  split <;> rfl

theorem retirePassage_transacts (m : Mint) (st : Store) (sid : String)
    (pid : Nat) (src : Option String) :
    Transacts st.log [passageRetiredEvent sid pid src]
      (retirePassage m st sid pid src).1.log := by
  unfold retirePassage
  split
  · exact .inl rfl
  · simp only
    split
    · exact .inl rfl
    · split
      · exact .inl rfl
      · exact st.append_transacts m _

theorem unretirePassage_transacts (m : Mint) (st : Store) (sid : String)
    (pid : Nat) :
    Transacts st.log [unretirePassageEvent sid pid]
      (unretirePassage m st sid pid).1.log := by
  have happ := st.append_transacts m (unretirePassageEvent sid pid)
  unfold unretirePassage
  split
  · split
    · next st' e heq => simpa [heq] using happ
    · next st' id heq =>
        have hst : Transacts st.log [unretirePassageEvent sid pid]
            st'.log := by simpa [heq] using happ
        split
        · exact hst
        · split
          · simpa using hst
          · exact hst
  · exact .inl rfl

/-! ## The current capture of one session -/

theorem findCurrent_eq_getElem? (log : EventLog) (sid : String) :
    findCurrent log sid = (currentMap (sessionEventsOrdered log))[sid]? := by
  have hmem : ∀ cs, cs ∈ currentSessions log ↔
      (currentMap (sessionEventsOrdered log))[cs.sessionId]? = some cs := by
    intro cs
    show cs ∈ (foldSessions (sessionEventsOrdered log)).current ↔ _
    simp only [foldSessions, List.mem_map, Prod.exists,
      Std.TreeMap.mem_toList_iff_getElem?_eq_some]
    constructor
    · rintro ⟨k, cs', hk, rfl⟩
      rw [(exists_of_getElem?_currentMap hk).1]
      exact hk
    · intro h
      exact ⟨cs.sessionId, cs, h, rfl⟩
  cases h : (currentMap (sessionEventsOrdered log))[sid]? with
  | none =>
      rw [findCurrent, List.find?_eq_none]
      intro cs hcs heq
      rw [beq_iff_eq] at heq
      rw [hmem, heq, h] at hcs
      cases hcs
  | some cs =>
      have hsid := (exists_of_getElem?_currentMap h).1
      have hcs : cs ∈ currentSessions log := by
        rw [hmem, hsid]
        exact h
      cases hfind : findCurrent log sid with
      | none =>
          rw [findCurrent, List.find?_eq_none] at hfind
          exact absurd hsid (by simpa using hfind cs hcs)
      | some cs' =>
          have hin := List.mem_of_find?_eq_some hfind
          have hid := List.find?_some hfind
          rw [beq_iff_eq] at hid
          rw [hmem, hid, h] at hin
          exact hin.symm

/-- The current capture is the last event of the log that counts for the
session. -/
theorem findCurrent_eq (log : EventLog) (sid : String) :
    findCurrent log sid = log.reverse.findSome?
      (liveOf (foldMarkers (sessionEventsOrdered log)) sid) := by
  rw [findCurrent_eq_getElem?, currentMap, getElem?_foldl_foldCurrent,
    Std.TreeMap.getElem?_emptyc, Option.or_none, sessionEventsOrdered,
    ← List.filter_reverse]
  refine Fold.findSome?_filter (fun ev hstream => ?_) log.reverse
  refine liveOf_eq_none_of_not_capture fun h => ?_
  rw [isSessionStreamType_of_mem (by simp [h.1])] at hstream
  cases hstream

theorem findCurrent_eq_none_of_deleted {log : EventLog} {sid : String}
    (h : ∃ ev ∈ log, Deletes sid ev) : findCurrent log sid = none := by
  rw [findCurrent, List.find?_eq_none]
  intro cs hcs heq
  obtain ⟨ev, -, hlive⟩ := exists_of_mem_current hcs
  rw [beq_iff_eq] at heq
  exact hlive.notDeleted (heq ▸ mem_deleted_log.2 h)

/-- The current capture, as an event of the log. -/
theorem exists_of_findCurrent {log : EventLog} {sid : String}
    {cs : CurrentSession} (h : findCurrent log sid = some cs) :
    ∃ ev ∈ log, ev.id = cs.eventId ∧ IsCaptureOf sid ev := by
  have hin := List.mem_of_find?_eq_some h
  have hsid := List.find?_some h
  rw [beq_iff_eq] at hsid
  obtain ⟨ev, hev, hlive⟩ := exists_of_mem_current hin
  obtain ⟨hid, hparsed⟩ := parseSessionContent_some hlive.parsed
  exact ⟨ev, (List.mem_filter.mp hev).1, hid.symm, hlive.captured,
    hsid ▸ hparsed⟩

/-- An event that neither captures nor deletes the session, nor supersedes one
of its captures, leaves its current capture alone. -/
theorem findCurrent_append {log : EventLog} {sid : String} {ev : Event}
    (hcap : ¬ IsCaptureOf sid ev) (hdel : ¬ Deletes sid ev)
    (hsup : ∀ id, Supersedes id ev → ∀ e ∈ log, e.id = id →
      ¬ IsCaptureOf sid e) :
    findCurrent (log ++ [ev]) sid = findCurrent log sid := by
  have hlast : liveOf (foldMarkers (sessionEventsOrdered (log ++ [ev]))) sid
      ev = none := liveOf_eq_none_of_not_capture hcap
  rw [findCurrent_eq, findCurrent_eq, List.reverse_append]
  simp only [List.reverse_cons, List.reverse_nil, List.nil_append,
    List.cons_append, List.findSome?_cons, hlast]
  refine Fold.findSome?_congr fun e he => ?_
  have hmem : e ∈ log := List.mem_reverse.mp he
  by_cases hecap : IsCaptureOf sid e
  · -- the marker sets agree on this capture and its session
    have hs : e.id ∈ (foldMarkers
          (sessionEventsOrdered (log ++ [ev]))).superseded ↔
        e.id ∈ (foldMarkers (sessionEventsOrdered log)).superseded := by
      refine (mem_superseded_log).trans (Iff.trans ?_ (mem_superseded_log).symm)
      simp only [List.mem_append, List.mem_singleton, or_and_right,
        exists_or, exists_eq_left]
      refine or_iff_left ?_
      intro h
      exact hsup e.id h e hmem rfl hecap
    have hd : sid ∈ (foldMarkers
          (sessionEventsOrdered (log ++ [ev]))).deleted ↔
        sid ∈ (foldMarkers (sessionEventsOrdered log)).deleted := by
      refine (mem_deleted_log).trans (Iff.trans ?_ (mem_deleted_log).symm)
      simp only [List.mem_append, List.mem_singleton, or_and_right,
        exists_or, exists_eq_left]
      exact or_iff_left hdel
    refine Option.ext fun cs => ?_
    rw [liveOf_eq_some_iff, liveOf_eq_some_iff]
    constructor
    · rintro ⟨hlive, hsid⟩
      refine ⟨⟨hlive.captured, fun h => hlive.notSuperseded (hs.mpr h),
        hlive.parsed, fun h => ?_⟩, hsid⟩
      subst hsid
      exact hlive.notDeleted (hd.mpr h)
    · rintro ⟨hlive, hsid⟩
      refine ⟨⟨hlive.captured, fun h => hlive.notSuperseded (hs.mp h),
        hlive.parsed, fun h => ?_⟩, hsid⟩
      subst hsid
      exact hlive.notDeleted (hd.mp h)
  · rw [liveOf_eq_none_of_not_capture hecap,
      liveOf_eq_none_of_not_capture hecap]

/-- A capture leaves the current captures of the other sessions alone. -/
theorem findCurrent_captured_other {m : Mint} {log : EventLog}
    {dateLabel : Int → String} {sm : SessionMeta} {stored : Event}
    {sid : String}
    (hs : Stored m log (sessionCapturedEvent dateLabel sm) stored)
    (hsid : sm.sessionId ≠ sid) :
    findCurrent (log ++ [stored]) sid = findCurrent log sid := by
  have htype : stored.eventType = sessionCapturedEventType := hs.eventType_eq
  have hsession : stored.content.getStr? "session_id" =
      some sm.sessionId := by
    rw [hs.content_of_none rfl]
    rfl
  refine findCurrent_append ?_ ?_ ?_
  · intro hcap
    have heq := hcap.2
    rw [hsession, Option.some.injEq] at heq
    exact hsid heq
  · intro hdel
    exact absurd (htype.symm.trans hdel.1) (by decide)
  · intro id hsup
    exact absurd (htype.symm.trans hsup.1) (by decide)

/-- A supersede leaves the current captures alone of the sessions whose
captures it does not name. -/
theorem findCurrent_superseded_other {m : Mint} {log : EventLog}
    {prior sid : String} {stored : Event}
    (hs : Stored m log (groundTruthSupersedeEvent prior) stored)
    (hother : ∀ e ∈ log, e.id = prior → ¬ IsCaptureOf sid e) :
    findCurrent (log ++ [stored]) sid = findCurrent log sid := by
  have htype : stored.eventType = supersedeEventType := hs.eventType_eq
  have hprior : stored.content.getStr? "supersedes" = some prior := by
    rw [hs.content_of_none rfl]
    rfl
  refine findCurrent_append ?_ ?_ ?_
  · intro hcap
    exact absurd (htype.symm.trans hcap.1) (by decide)
  · intro hdel
    exact absurd (htype.symm.trans hdel.1) (by decide)
  · intro id hsup e he hid
    have heq := hsup.2
    rw [hprior, Option.some.injEq] at heq
    exact hother e he (hid.trans heq.symm)

/-- The current capture of a session, as its metadata were recorded. -/
def SessionMeta.current (sm : SessionMeta) (eventId : String) :
    CurrentSession :=
  { eventId := eventId
    sessionId := sm.sessionId
    title := sm.title
    project := sm.project
    tool := sm.tool
    startedAt := sm.startedAt
    endedAt := sm.endedAt
    path := sm.path
    sha256 := sm.sha256
    approxBytes := sm.approxBytes }

/-- The numbers of the metadata are the machine integers of the source. -/
structure SessionMeta.InRange (sm : SessionMeta) : Prop where
  startedAt : -2 ^ 63 ≤ sm.startedAt ∧ sm.startedAt < 2 ^ 63
  endedAt : -2 ^ 63 ≤ sm.endedAt ∧ sm.endedAt < 2 ^ 63
  approxBytes : sm.approxBytes < 2 ^ 64

theorem parseSessionContent_captured {m : Mint} {log : EventLog}
    {dateLabel : Int → String} {sm : SessionMeta} {stored : Event}
    (hs : Stored m log (sessionCapturedEvent dateLabel sm) stored)
    (hr : sm.InRange) :
    parseSessionContent stored = some (sm.current m.id) := by
  have hcontent : stored.content = sessionCapturedContent dateLabel sm :=
    hs.content_of_none rfl
  have hnumber : ∀ key v, (sessionCapturedContent dateLabel sm).get? key =
      some v → stored.content.get? key = some v := fun key v h => by
    rw [hcontent, h]
  have hstart : stored.content.getI64? "started_at" = some sm.startedAt := by
    rw [Json.getI64?, hnumber _ (.num sm.startedAt) rfl, Option.bind_some,
      Json.asI64_num hr.startedAt]
  have hend : stored.content.getI64? "ended_at" = some sm.endedAt := by
    rw [Json.getI64?, hnumber _ (.num sm.endedAt) rfl, Option.bind_some,
      Json.asI64_num hr.endedAt]
  have hbytes : stored.content.getU64? "approx_bytes" =
      some sm.approxBytes := by
    rw [Json.getU64?, hnumber _ (.num sm.approxBytes) rfl, Option.bind_some,
      Json.asU64_num hr.approxBytes]
  have hsid : stored.content.getStr? "session_id" = some sm.sessionId := by
    rw [hcontent]
    rfl
  have htitle : stored.content.getStr? "title" = some sm.title := by
    rw [hcontent]
    rfl
  have hproject : stored.content.getStr? "project" = some sm.project := by
    rw [hcontent]
    rfl
  have htool : stored.content.getStr? "tool" = some sm.tool := by
    rw [hcontent]
    rfl
  have hpath : stored.content.getStr? "path" = some sm.path := by
    rw [hcontent]
    rfl
  have hsha : stored.content.getStr? "sha256" = some sm.sha256 := by
    rw [hcontent]
    rfl
  simp only [parseSessionContent, hsid, htitle, hproject, htool, hstart,
    hend, hpath, hsha, hbytes, hs.id_eq, Option.bind_some, Option.map_some]
  rfl

/-- The capture just stored is the current one of its session. -/
theorem findCurrent_captured {m : Mint} {log : EventLog}
    {dateLabel : Int → String} {sm : SessionMeta} {stored : Event}
    (hs : Stored m log (sessionCapturedEvent dateLabel sm) stored)
    (hr : sm.InRange) (hdel : ¬ ∃ ev ∈ log, Deletes sm.sessionId ev)
    (hsup : ∀ ev ∈ log, ¬ Supersedes m.id ev) :
    findCurrent (log ++ [stored]) sm.sessionId =
      some (sm.current m.id) := by
  have htype : stored.eventType = sessionCapturedEventType := hs.eventType_eq
  have hlive : liveOf (foldMarkers (sessionEventsOrdered (log ++ [stored])))
      sm.sessionId stored = some (sm.current m.id) := by
    rw [liveOf_eq_some_iff]
    refine ⟨⟨htype, fun h => ?_, parseSessionContent_captured hs hr,
      fun h => ?_⟩, rfl⟩
    · obtain ⟨ev, hev, hsupersedes⟩ := mem_superseded_log.1 h
      rw [hs.id_eq] at hsupersedes
      rcases List.mem_append.mp hev with hold | hnew
      · exact hsup ev hold hsupersedes
      · rw [List.mem_singleton.mp hnew] at hsupersedes
        exact absurd (htype.symm.trans hsupersedes.1) (by decide)
    · obtain ⟨ev, hev, hdeletes⟩ := mem_deleted_log.1 h
      rcases List.mem_append.mp hev with hold | hnew
      · exact hdel ⟨ev, hold, hdeletes⟩
      · rw [List.mem_singleton.mp hnew] at hdeletes
        exact absurd (htype.symm.trans hdeletes.1) (by decide)
  rw [findCurrent_eq, List.reverse_append, List.reverse_singleton,
    List.singleton_append, List.findSome?_cons, hlive]

end AirNote
