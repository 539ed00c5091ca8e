import AirNote.Lib.Lineage
import AirNote.Lib.Trace
import AirNote.Log

/-!
# External taint along the lineage of Tier-B events

`append_event_in_tx` looks at the direct sources of a Tier-B event only. A
source that is externally stamped, or that the log cannot resolve, makes the
new event inherit the stamp, so the classifier never walks the lineage: that
the mark has arrived wherever the transitive lineage is external is an
invariant of the log, proved here by induction over the appends with
`AirNote.Lib.Lineage`.

The stamp is an insertion into the content *object*. A content of another
shape — a string, an array, `null` — is stored unmarked even when its
lineage is tainted. `taintClosed_append_iff` says precisely which appends
keep the invariant, and `taintClosed_of_stampable` that every run made of
appends that can be stamped keeps it throughout.
-/

namespace AirNote

open Lib

/-! ## The transitive taint -/

/-- The event carries the external mark. -/
def External (e : Event) : Prop := isExternal e = true

/-- The transitive lineage of the event, through `source_event_ids`, arrives
at an externally stamped event or at an identifier that is not in the log. -/
def LineageTainted (log : EventLog) : Event → Prop :=
  Lineage.Reaches Event.sources (eventById log) External

/-- Every Tier-B event with a tainted lineage is itself marked external. -/
def TaintClosed (log : EventLog) : Prop :=
  ∀ e ∈ log, e.tierB = true → LineageTainted log e → External e

/-- The mark can be stored: the content is an object, or the direct sources
are clean. -/
def Stampable (log : EventLog) (event : Event) : Prop :=
  taintedInTx log event = true → event.content.isObject = true

/-- The condition on a call: each event it hands over can be stamped, the
second event of a pair against the log that already holds the first. -/
def AppendCall.Stampable (log : EventLog) : AppendCall → Prop
  | .append _ event => AirNote.Stampable log event
  | .appendPair m₁ _ first second =>
      AirNote.Stampable log first ∧
        ∀ log₁ id₁, appendEventInTx m₁ log first = .ok (log₁, id₁) →
          AirNote.Stampable log₁ second

/-! ## The local invariant -/

/-- An event of the log whose direct sources are tainted carries the mark. -/
def LocallyClosed (log : EventLog) : Prop :=
  ∀ e ∈ log,
    Lineage.ClosedAt Event.sources (eventById log) External e

theorem sourceIsExternalInTx_iff {log : EventLog} {id : String} :
    sourceIsExternalInTx log id = true ↔
      Lineage.TaintedSource (eventById log) External id := by
  unfold sourceIsExternalInTx Lineage.TaintedSource
  cases eventById log id with
  | none => simp
  | some ev => simp [External]

theorem LocallyClosed.taintClosed {log : EventLog}
    (hc : LocallyClosed log) : TaintClosed log := by
  intro e he _ hreach
  refine Lineage.ClosedAt.marked_of_reaches ?_ (hc e he) hreach
  intro i b hb
  exact hc b (mem_of_eventById hb).1

/-- The closure is local: over Tier-B events, direct sources suffice. -/
theorem taintClosed_iff_locallyClosed {log : EventLog} :
    TaintClosed log ↔ LocallyClosed log := by
  refine ⟨?_, LocallyClosed.taintClosed⟩
  intro hc e he i hi htaint
  have htier : e.tierB = true := by
    cases hm : e.modelMeta with
    | none => simp [Event.sources, hm] at hi
    | some m => simp [Event.tierB, hm]
  refine hc e he htier ?_
  cases hres : eventById log i with
  | none => exact .missing hi hres
  | some b => exact .marked hi hres (htaint b hres)

/-! ## One append -/

theorem isExternal_of_stamped {log : EventLog} {event stored : Event}
    {m : Mint} (hs : Stored m log event stored)
    (htaint : taintedInTx log event = true)
    (hobj : event.content.isObject = true) : External stored := by
  rw [External, isExternal_iff, hs.content_eq, stampedContent, if_pos htaint]
  cases hc : event.content with
  | obj fields => simp [Json.getStr?, Json.asStr]
  | _ => simp [hc, Json.isObject] at hobj

/-- The new event resolves only under its own identifier, the old ones as
before. -/
theorem eventById_stored {m : Mint} {log : EventLog} {event stored : Event}
    (hs : Stored m log event stored) (id : String) :
    eventById (log ++ [stored]) id =
      if id = m.id then some stored else eventById log id := by
  by_cases hid : id = m.id
  · have hnone : eventById log id = none := by
      rw [eventById_eq_none_iff]
      intro e he heq
      exact hs.fresh e he (heq.trans hid)
    simp only [eventById] at hnone ⊢
    rw [List.find?_append, hnone]
    simp [hs.id_eq, hid]
  · rw [if_neg hid]
    simp only [eventById]
    rw [List.find?_append]
    have hne : ¬ stored.id = id := fun h => hid (h.symm.trans hs.id_eq)
    simp [hne]

/-- Appending an event keeps the closure exactly when the event can be
stamped or names no tainted source other than itself. -/
theorem taintClosed_append_iff {m : Mint} {log : EventLog}
    {event stored : Event} (hs : Stored m log event stored)
    (hc : TaintClosed log) :
    TaintClosed (log ++ [stored]) ↔
      ((∃ i ∈ event.sources, i ≠ m.id ∧ sourceIsExternalInTx log i = true) →
        External stored) := by
  rw [taintClosed_iff_locallyClosed] at hc ⊢
  have hsrc : stored.sources = event.sources := by
    simp [Event.sources, hs.modelMeta_eq]
  constructor
  · rintro hc' ⟨i, hi, hne, hext⟩
    have hmem : stored ∈ log ++ [stored] := by simp
    refine hc' stored hmem i (hsrc ▸ hi) ?_
    rw [sourceIsExternalInTx_iff] at hext
    intro b hb
    rw [eventById_stored hs, if_neg hne] at hb
    exact hext b hb
  · intro hnew e he i hi htaint
    rcases List.mem_append.mp he with hold | hnewmem
    · -- an old event: its source was tainted before the append as well
      refine hc e hold i hi ?_
      intro b hb
      refine htaint b ?_
      exact eventById_append_of_some hb [stored]
    · rw [List.mem_singleton] at hnewmem
      subst hnewmem
      by_cases hself : i = m.id
      · -- a self reference is tainted only if the event is marked
        refine htaint e ?_
        rw [eventById_stored hs, if_pos hself]
      · refine hnew ⟨i, hsrc ▸ hi, hself, ?_⟩
        rw [sourceIsExternalInTx_iff]
        intro b hb
        refine htaint b ?_
        rw [eventById_stored hs, if_neg hself]
        exact hb

theorem TaintClosed.appendEventInTx {m : Mint} {log log' : EventLog}
    {event : Event} {id : String} (hc : TaintClosed log)
    (hstamp : Stampable log event)
    (h : appendEventInTx m log event = .ok (log', id)) :
    TaintClosed log' := by
  obtain ⟨-, stored, hs, rfl⟩ := appendEventInTx_ok h
  rw [taintClosed_append_iff hs hc]
  rintro ⟨i, hi, -, hext⟩
  have htaint : taintedInTx log event = true :=
    List.any_eq_true.mpr ⟨i, hi, hext⟩
  exact isExternal_of_stamped hs htaint (hstamp htaint)

/-- One call whose events can be stamped keeps the closure. -/
theorem TaintClosed.exec {log : EventLog} (call : AppendCall)
    (hc : TaintClosed log) (hstamp : call.Stampable log) :
    TaintClosed (call.exec log) := by
  cases call with
  | append m event =>
      simp only [AppendCall.exec]
      cases h : AirNote.append m log event with
      | error e => exact hc
      | ok r =>
          unfold AirNote.append at h
          split at h
          · cases h
          · exact TaintClosed.appendEventInTx hc hstamp h
  | appendPair m₁ m₂ first second =>
      simp only [AppendCall.exec]
      cases h : AirNote.appendPair m₁ m₂ log first second with
      | error e => exact hc
      | ok r =>
          obtain ⟨log₁, h₁, h₂⟩ := appendPair_ok h
          have hc₁ := TaintClosed.appendEventInTx hc hstamp.1 h₁
          exact TaintClosed.appendEventInTx hc₁ (hstamp.2 _ _ h₁) h₂

theorem taintClosed_nil : TaintClosed [] := by
  intro e he
  cases he

/-! ## Runs -/

/-- **Taint closure.** In every state a run of calls passes through, a Tier-B
event whose transitive lineage reaches an external event or a missing
identifier is marked external, provided each call handed over an object
content wherever the direct sources were tainted. -/
theorem taintClosed_of_stampable (calls : List AppendCall)
    (hmeets : Trace.Meets AppendCall.exec
      (fun log call => call.Stampable log) [] calls) (n : Nat) :
    TaintClosed (Trace.run AppendCall.exec [] (calls.take n)) := by
  refine Trace.run_take_inv_of_meets TaintClosed ?_ taintClosed_nil hmeets n
  intro log call hc hstamp
  exact hc.exec call hstamp

/-- An ingested file, then a model-derived note citing it. -/
def citingCalls (content : Json) : List AppendCall :=
  [ .append (.plain "file-1")
      (.draft fileIngestedEventType
        (.obj [("text", .str "page"), ("origin", .str externalOrigin)]) none)
  , .append (.plain "note-1")
      (.draft memoryEventType content
        (some { modelId := "reasoner", promptHash := "",
                sourceEventIds := ["file-1"] })) ]

/-- With an object content the citing note is marked. -/
theorem taintClosed_of_stampable_citing :
    TaintClosed (Trace.run AppendCall.exec []
      ((citingCalls (.obj [("text", .str "claim")])).take 2)) := by
  refine taintClosed_of_stampable (citingCalls _) ?_ 2
  simp [citingCalls, AppendCall.Stampable, Stampable, Event.draft,
    Json.isObject]

/-- With a string content the same note is stored unmarked, although its
direct source is the external file. -/
theorem taint_lost_on_string_content :
    ¬ ∀ calls : List AppendCall,
        TaintClosed (Trace.run AppendCall.exec [] calls) := by
  intro hall
  have hclosed := hall (citingCalls (.str "claim"))
  set log := Trace.run AppendCall.exec [] (citingCalls (.str "claim"))
    with hlog
  have hnote : ∃ note ∈ log, note.tierB = true ∧ note.sources = ["file-1"] ∧
      isExternal note = false := by
    rw [hlog]
    exact ⟨_, List.mem_cons_of_mem _ (List.mem_cons_self ..), rfl, rfl, rfl⟩
  obtain ⟨note, hmem, htier, hsrc, hclean⟩ := hnote
  have hfile : ∃ file, eventById log "file-1" = some file ∧
      isExternal file = true := by
    rw [hlog]
    exact ⟨_, rfl, rfl⟩
  obtain ⟨file, hres, hext⟩ := hfile
  have hreach : LineageTainted log note :=
    .marked (hsrc ▸ List.mem_singleton.mpr rfl) hres hext
  have hmarked := hclosed note hmem htier hreach
  rw [External, hclean] at hmarked
  cases hmarked

end AirNote
