import AirNote.Recall

/-!
# Conflict proposals and their resolution

The conflict sweep records a contradiction between two memories as a signed
`conflict_proposal` event that names the two by typed references. Nothing is
ever written back to the event: whether a proposal is still open, and whether
it was resolved, is computed from the log. A proposal is *open* while both of
its references are current, and *pending* while moreover no kept-both and no
live dismissal covers its pair. `resolve_conflict` is guarded by something
else, the terminal marker a completed resolution leaves behind.

This module gives the projections and the four resolutions. A retiring
resolution writes two events, the retire marker and then the terminal marker;
the two appends take separate mints, so that the second may fail where the
first succeeded.

## Main results

* `mem_pending_iff`, `mem_coexistPairs`, `mem_dismissedPairs`,
  `mem_resolutionMarkers` — what the projections answer, stated on the log.
* `resolveConflict_steps` — everything a resolution may come to.
-/

namespace AirNote

open Lib

/-! ## Typed references -/

/-- `ConflictRef`: a note, or a passage of a captured session. -/
inductive ConflictRef where
  | note (eventId : String)
  | passage (sessionId : String) (passageId : Nat)
  deriving DecidableEq, Repr

namespace ConflictRef

/-- `pair_key`. -/
def pairKey : ConflictRef → String
  | note id => s!"N\u001f{id}"
  | passage sid pid => s!"P\u001f{sid}\u001f{pid}"

/-- `unordered_pair_key`. -/
def unorderedPairKey (a b : ConflictRef) : String :=
  if a.pairKey ≤ b.pairKey then s!"{a.pairKey}\u001e{b.pairKey}"
  else s!"{b.pairKey}\u001e{a.pairKey}"

/-- `to_json`. -/
def toJson : ConflictRef → Json
  | note id => .obj [("kind", .str "note"), ("event_id", .str id)]
  | passage sid pid => .obj [("kind", .str "passage"),
      ("session_id", .str sid), ("passage_id", .num pid)]

/-- `from_json`. -/
def fromJson (v : Json) : Option ConflictRef :=
  match v.getStr? "kind" with
  | none => none
  | some kind =>
      if kind = "note" then (v.getStr? "event_id").map note
      else if kind = "passage" then
        (v.getStr? "session_id").bind fun sid =>
          (v.getU64? "passage_id").map fun pid => passage sid pid
      else none

/-- `retired_id_of`. -/
def retiredId : ConflictRef → String
  | note id => id
  | passage sid pid => s!"{sid}#{pid}"

/-- A reference that fits the fields of its markers. -/
def Representable : ConflictRef → Prop
  | note _ => True
  | passage _ pid => pid < 2 ^ 64

end ConflictRef

/-! ## Notes -/

/-- The two sets of the note fold. -/
structure NoteSets where
  superseded : Finset String
  retired : Finset String

/-- One event of the first loop of `fold_notes`. -/
def foldNoteMarker (acc : NoteSets) (ev : Event) : NoteSets :=
  if ev.eventType = supersedeEventType then
    match ev.content.getStr? "supersedes" with
    | some p => { acc with superseded := insert p acc.superseded }
    | none => acc
  else if ev.eventType = noteRetiredEventType then
    match ev.content.getStr? "retires" with
    | some p => { acc with retired := insert p acc.retired }
    | none => acc
  else if ev.eventType = unretireEventType then
    match ev.content.getStr? "unretires" with
    | some p => { acc with retired := acc.retired.erase p }
    | none => acc
  else acc

/-- `fold_notes`, up to the order: its readers here collect the identifiers
into a set. -/
def foldNotes (events : List Event) : List Event :=
  let sets := events.foldl foldNoteMarker ⟨∅, ∅⟩
  events.filter fun ev =>
    ev.eventType == memoryEventType && decide (ev.id ∉ sets.superseded)
      && decide (ev.id ∉ sets.retired)

/-- `current_notes`. -/
def currentNotes (log : EventLog) : List Event :=
  foldNotes (eventsOfTypes log [memoryEventType, supersedeEventType,
    noteRetiredEventType, unretireEventType])

/-! ## Proposals -/

/-- One proposal (`OpenConflictProposal` and `ConflictProposalRow`). -/
structure ConflictProposal where
  id : String
  aRef : ConflictRef
  bRef : ConflictRef
  winnerHint : String
  confidenceBand : String
  why : String
  detectedAt : Int
  deriving DecidableEq, Repr

/-- The pair key of a proposal. -/
def ConflictProposal.key (p : ConflictProposal) : String :=
  p.aRef.unorderedPairKey p.bRef

/-- The two references of a proposal event; `none` when malformed. -/
def proposalRefs (ev : Event) : Option (ConflictRef × ConflictRef) :=
  match (ev.content.get? "a_ref").bind ConflictRef.fromJson,
    (ev.content.get? "b_ref").bind ConflictRef.fromJson with
  | some a, some b => some (a, b)
  | _, _ => none

/-- A proposal event as a row. -/
def proposalOf (ev : Event) : Option ConflictProposal :=
  (proposalRefs ev).map fun (a, b) =>
    { id := ev.id
      aRef := a
      bRef := b
      winnerHint := (ev.content.getStr? "winner_hint").getD ""
      confidenceBand := (ev.content.getStr? "confidence_band").getD ""
      why := (ev.content.getStr? "why").getD ""
      detectedAt := (ev.content.getI64? "detected_at").getD 0 }

/-- `CONFLICT_PROPOSER_PRODUCER`. -/
def conflictProposerProducer : String := "rung3-conflict-detector"

/-- The event of `append_conflict_proposal`. -/
def conflictProposalEvent (a b : ConflictRef)
    (winnerHint confidenceBand why : String) (detectedAt : Int)
    (sources : List String) : Event :=
  .draft conflictProposalEventType
    (.obj [("a_ref", a.toJson), ("b_ref", b.toJson),
      ("winner_hint", .str winnerHint),
      ("confidence_band", .str confidenceBand), ("why", .str why),
      ("detected_at", .num detectedAt)])
    (some { modelId := conflictProposerProducer, promptHash := "",
            sourceEventIds := sources })

/-- `head_of`: the current capture of a session. -/
def headOf (log : EventLog) (sid : String) : Option String :=
  (findCurrent log sid).map CurrentSession.eventId

/-- `ref_is_current` of `open_conflict_proposals`. -/
def refIsCurrent (st : Store) : ConflictRef → Bool
  | .note id => (currentNotes st.log).any fun ev => ev.id == id
  | .passage sid pid =>
      match findCurrent st.log sid with
      | none => false
      | some cs =>
          decide ((sid, pid) ∉
            (foldSessions (sessionEventsOrdered st.log)).retiredPassages)
            && decide (pid < sessionPassageCount st cs.eventId)

/-- `open_conflict_proposals`. -/
def openConflictProposals (st : Store) : List ConflictProposal :=
  ((eventsOfTypes st.log [conflictProposalEventType]).filterMap
    proposalOf).filter fun p =>
      refIsCurrent st p.aRef && refIsCurrent st p.bRef

/-- `conflict_proposal_by_id`. -/
def conflictProposalById (log : EventLog) (pid : String) :
    Option (ConflictRef × ConflictRef) :=
  match eventById log pid with
  | none => none
  | some ev =>
      if ev.eventType ≠ conflictProposalEventType then none
      else proposalRefs ev

/-! ## Exclusions -/

/-- `ResolutionExclusions`. -/
structure ResolutionExclusions where
  coexistPairs : Finset String
  dismissedPairs : Finset String

/-- A dismissal is live while every session head it recorded still stands. -/
def dismissalLive (log : EventLog) (ev : Event) : Bool :=
  match ev.content.get? "session_heads" with
  | some (.obj heads) => heads.all fun (sid, stored) =>
      headOf log sid == stored.asStr
  | _ => true

/-- One event of `resolution_exclusions`. -/
def foldExclusion (log : EventLog) (acc : ResolutionExclusions)
    (ev : Event) : ResolutionExclusions :=
  match ev.content.getStr? "pair_key" with
  | none => acc
  | some pk =>
      if ev.eventType = coexistAllowedEventType then
        { acc with coexistPairs := insert pk acc.coexistPairs }
      else if dismissalLive log ev then
        { acc with dismissedPairs := insert pk acc.dismissedPairs }
      else acc

/-- `resolution_exclusions`. -/
def resolutionExclusions (log : EventLog) : ResolutionExclusions :=
  (eventsOfTypes log [coexistAllowedEventType, dismissedEventType]).foldl
    (foldExclusion log) ⟨∅, ∅⟩

/-- `pending_conflict_proposals`. -/
def pendingConflictProposals (st : Store) : List ConflictProposal :=
  let excluded := resolutionExclusions st.log
  (openConflictProposals st).filter fun p =>
    decide (p.key ∉ excluded.coexistPairs)
      && decide (p.key ∉ excluded.dismissedPairs)

/-- `is_conflict_proposal_suppressed`. -/
def isConflictProposalSuppressed (st : Store) (a b : ConflictRef) : Bool :=
  (openConflictProposals st).any fun p => p.key == a.unorderedPairKey b

/-- `ref_source_event` of the sweep. -/
def refSourceEvent (log : EventLog) : ConflictRef → Option String
  | .note id => some id
  | .passage sid _ => headOf log sid

/-- What `detect_conflicts_once` does with a pair the judge found to
contradict each other; the verdict is the judge's. -/
def recordContradiction (m : Mint) (st : Store) (older newer : ConflictRef)
    (winner band why : String) (detectedAt : Int) :
    Outcome (Option String) :=
  if isConflictProposalSuppressed st older newer then (st, .ok none)
  else
    let sources := [older, newer].filterMap (refSourceEvent st.log)
    match st.append m (conflictProposalEvent older newer winner band why
        detectedAt sources) with
    | (st', .ok id) => (st', .ok (some id))
    | (st', .error e) => (st', .error e)

/-! ## Terminal markers -/

/-- `ResolutionKind`. -/
inductive ResolutionKind where
  | retireOlder
  | retireNewer
  | keepBoth
  | dismiss
  deriving DecidableEq, Repr

/-- `ResolutionRecord`. -/
structure ResolutionRecord where
  kind : ResolutionKind
  retiredEventId : Option String
  deriving DecidableEq, Repr

/-- The kind a terminal marker records; a `conflict_resolved` with another
action is malformed. -/
def recordKind (ev : Event) : Option ResolutionKind :=
  if ev.eventType = conflictResolvedEventType then
    match ev.content.getStr? "action" with
    | some action =>
        if action = "retire_older" then some .retireOlder
        else if action = "retire_newer" then some .retireNewer
        else none
    | none => none
  else if ev.eventType = coexistAllowedEventType then some .keepBoth
  else if ev.eventType = dismissedEventType then some .dismiss
  else none

/-- The proposal a terminal marker settles, with its record. -/
def recordOf (ev : Event) : Option (String × ResolutionRecord) :=
  (ev.content.getStr? "proposal_id").bind fun pid =>
    (recordKind ev).map fun kind =>
      (pid, { kind := kind
              retiredEventId :=
                if ev.eventType = conflictResolvedEventType then
                  ev.content.getStr? "retired_event_id"
                else none })

/-- One event of `resolution_markers`: the earliest marker of a proposal is
kept. -/
def foldResolution (acc : Std.TreeMap String ResolutionRecord) (ev : Event) :
    Std.TreeMap String ResolutionRecord :=
  match recordOf ev with
  | none => acc
  | some (pid, record) =>
      if acc.contains pid then acc else acc.insert pid record

/-- `resolution_markers`. -/
def resolutionMarkers (log : EventLog) :
    Std.TreeMap String ResolutionRecord :=
  (eventsOfTypes log [conflictResolvedEventType, coexistAllowedEventType,
    dismissedEventType]).foldl foldResolution ∅

/-! ## Resolving -/

/-- `ResolveAction`. -/
inductive ResolveAction where
  | retireOlder
  | retireNewer
  | keepBoth
  | dismiss
  deriving DecidableEq, Repr

/-- `ResolveOutcome`. -/
inductive ResolveOutcome where
  | applied (markerId : String)
  | noOp
  deriving DecidableEq, Repr

/-- `action_kind`. -/
def actionKind : ResolveAction → ResolutionKind
  | .retireOlder => .retireOlder
  | .retireNewer => .retireNewer
  | .keepBoth => .keepBoth
  | .dismiss => .dismiss

/-- The `action` text of a `conflict_resolved` event, written only for the
retiring kinds. -/
def ResolutionKind.actionText : ResolutionKind → String
  | .retireNewer => "retire_newer"
  | _ => "retire_older"

/-- The event of `append_conflict_resolved`. -/
def conflictResolvedEvent (pid : String) (kind : ResolutionKind)
    (retiredEventId : String) : Event :=
  .draft conflictResolvedEventType
    (.obj [("proposal_id", .str pid), ("action", .str kind.actionText),
      ("retired_event_id", .str retiredEventId)]) none

/-- The event of `append_pair_terminal`. -/
def pairTerminalEvent (eventType pid : String) (a b : ConflictRef)
    (sessionHeads : Option Json) : Event :=
  .draft eventType
    (.obj ([("proposal_id", .str pid),
      ("pair_key", .str (a.unorderedPairKey b)), ("a_ref", a.toJson),
      ("b_ref", b.toJson)] ++
      match sessionHeads with
      | some h => [("session_heads", h)]
      | none => [])) none

/-- Is the loser in the retired set? -/
def refRetired (log : EventLog) : ConflictRef → Bool
  | .note id =>
      decide (id ∈ (foldSessions (sessionEventsOrdered log)).retiredNotes)
  | .passage sid pid =>
      decide ((sid, pid) ∈
        (foldSessions (sessionEventsOrdered log)).retiredPassages)

/-- Retire the loser of a proposal. -/
def retireRef (m : Mint) (st : Store) (pid : String) :
    ConflictRef → Outcome String
  | .note id => retireMemory m st id (some pid)
  | .passage sid p => retirePassage m st sid p (some pid)

/-- The heads a dismissal records: those of the current sessions among the
two references. -/
def dismissHeads (log : EventLog) (a b : ConflictRef) :
    List (String × Json) :=
  [a, b].foldl (fun heads r =>
    match r with
    | .note _ => heads
    | .passage sid _ =>
        match headOf log sid with
        | some h => Json.insertKey sid (.str h) heads
        | none => heads) []

/-- Append a terminal marker: the resolution is applied. -/
def appendTerminal (m : Mint) (st : Store) (marker : Event) :
    Outcome ResolveOutcome :=
  match st.append m marker with
  | (st', .ok id) => (st', .ok (.applied id))
  | (st', .error e) => (st', .error e)

/-- The retiring arm of `resolve_conflict`: the loser is retired first, then
the terminal marker is written. A loser already retired is rolled forward. -/
def resolveRetire (m₁ m₂ : Mint) (st : Store) (pid : String)
    (kind : ResolutionKind) (loser : ConflictRef) : Outcome ResolveOutcome :=
  if refRetired st.log loser then
    match appendTerminal m₂ st
        (conflictResolvedEvent pid kind loser.retiredId) with
    | (st', .ok _) => (st', .ok .noOp)
    | (st', .error e) => (st', .error e)
  else
    match retireRef m₁ st pid loser with
    | (st', .error e) => (st', .error e)
    | (st', .ok _) => appendTerminal m₂ st'
        (conflictResolvedEvent pid kind loser.retiredId)

/-- `resolve_conflict`; `m₁` mints the retire marker, `m₂` the terminal
marker. -/
def resolveConflict (m₁ m₂ : Mint) (st : Store) (pid : String)
    (action : ResolveAction) : Outcome ResolveOutcome :=
  match conflictProposalById st.log pid with
  | none =>
      (st, .error (.invalidInput s!"unknown conflict proposal {pid}"))
  | some (a, b) =>
      match (resolutionMarkers st.log)[pid]? with
      | some existing =>
          if existing.kind = actionKind action then (st, .ok .noOp)
          else (st, .error (.invalidInput
            s!"conflict proposal {pid} is already resolved"))
      | none =>
          match action with
          | .retireOlder => resolveRetire m₁ m₂ st pid .retireOlder a
          | .retireNewer => resolveRetire m₁ m₂ st pid .retireNewer b
          | .keepBoth => appendTerminal m₂ st
              (pairTerminalEvent coexistAllowedEventType pid a b none)
          | .dismiss => appendTerminal m₂ st
              (pairTerminalEvent dismissedEventType pid a b
                (some (.obj (dismissHeads st.log a b))))

/-! ## What the projections answer -/

section FoldNotes

variable (acc : NoteSets) (ev : Event)

theorem mem_foldNoteMarker_superseded (id : String) :
    id ∈ (foldNoteMarker acc ev).superseded ↔
      id ∈ acc.superseded ∨ Supersedes id ev := by
  by_cases h : ev.eventType = supersedeEventType
  · rw [foldNoteMarker, if_pos h]
    cases hp : ev.content.getStr? "supersedes" with
    | none => simp [Supersedes, hp]
    | some p => simp [Supersedes, h, hp, or_comm, eq_comm]
  · have hsame : (foldNoteMarker acc ev).superseded = acc.superseded := by
      rw [foldNoteMarker, if_neg h]
      repeat' split
      all_goals rfl
    simp [hsame, Supersedes, h]

theorem mem_foldNoteMarker_retired (id : String) :
    id ∈ (foldNoteMarker acc ev).retired ↔
      RetiresNote id ev ∨ (id ∈ acc.retired ∧ ¬ UnretiresNote id ev) := by
  by_cases hr : ev.eventType = noteRetiredEventType
  · have h₁ : ¬ ev.eventType = supersedeEventType := by rw [hr]; decide
    have hnot : ¬ UnretiresNote id ev := by
      rintro ⟨hu, -⟩
      exact absurd (hr.symm.trans hu) (by decide)
    rw [foldNoteMarker, if_neg h₁, if_pos hr]
    cases hp : ev.content.getStr? "retires" with
    | none => simp [RetiresNote, hnot, hp]
    | some p => simp [RetiresNote, hnot, hr, hp, eq_comm]
  · have hnot : ¬ RetiresNote id ev := fun h => hr h.1
    by_cases hu : ev.eventType = unretireEventType
    · have h₁ : ¬ ev.eventType = supersedeEventType := by rw [hu]; decide
      rw [foldNoteMarker, if_neg h₁, if_neg hr, if_pos hu]
      cases hp : ev.content.getStr? "unretires" with
      | none => simp [hnot, UnretiresNote, hp]
      | some p => simp [hnot, UnretiresNote, hu, hp, and_comm, eq_comm]
    · have hsame : (foldNoteMarker acc ev).retired = acc.retired := by
        rw [foldNoteMarker, if_neg hr, if_neg hu]
        repeat' split
        all_goals rfl
      simp [hsame, hnot, UnretiresNote, hu]

end FoldNotes

/-- The current notes: remembered, not superseded, not retired. The two folds
agree on what is retired. -/
theorem mem_currentNotes {log : EventLog} {ev : Event} :
    ev ∈ currentNotes log ↔
      ev ∈ log ∧ ev.eventType = memoryEventType ∧
        (¬ ∃ e ∈ log, Supersedes ev.id e) ∧
        refRetired log (.note ev.id) = false := by
  have hsup := Fold.foldl_iff_exists (fun acc => ev.id ∈ acc.superseded)
    (Supersedes ev.id)
    (fun acc e => mem_foldNoteMarker_superseded acc e ev.id) ⟨∅, ∅⟩
    (eventsOfTypes log [memoryEventType, supersedeEventType,
      noteRetiredEventType, unretireEventType])
  have hret := Fold.foldl_iff_lastSets (fun acc => ev.id ∈ acc.retired)
    (RetiresNote ev.id) (UnretiresNote ev.id)
    (fun acc e => mem_foldNoteMarker_retired acc e ev.id) ⟨∅, ∅⟩
    (eventsOfTypes log [memoryEventType, supersedeEventType,
      noteRetiredEventType, unretireEventType])
  have hlast := Fold.lastSets_filter (RetiresNote ev.id)
    (UnretiresNote ev.id) (p := fun e => [memoryEventType,
      supersedeEventType, noteRetiredEventType,
      unretireEventType].contains e.eventType)
    (fun e h => by simp [h.1]) (fun e h => by simp [h.1]) log
  have hex : (∃ e ∈ eventsOfTypes log [memoryEventType, supersedeEventType,
        noteRetiredEventType, unretireEventType], Supersedes ev.id e) ↔
      ∃ e ∈ log, Supersedes ev.id e := by
    constructor
    · rintro ⟨e, he, hs⟩
      exact ⟨e, (mem_eventsOfTypes.1 he).1, hs⟩
    · rintro ⟨e, he, hs⟩
      exact ⟨e, mem_eventsOfTypes.2 ⟨he, by simp [hs.1]⟩, hs⟩
  simp only [Finset.notMem_empty, false_or, false_and, or_false]
    at hsup hret
  rw [hex] at hsup
  rw [eventsOfTypes, hlast, ← mem_retiredNotes_log] at hret
  rw [currentNotes, foldNotes, List.mem_filter, mem_eventsOfTypes]
  simp only [Bool.and_eq_true, beq_iff_eq, decide_eq_true_iff]
  rw [hsup]
  rw [eventsOfTypes, hret]
  constructor
  · rintro ⟨⟨hmem, -⟩, ⟨htype, hs⟩, hr⟩
    exact ⟨hmem, htype, hs, decide_eq_false hr⟩
  · rintro ⟨hmem, htype, hs, hr⟩
    exact ⟨⟨hmem, by simp [htype]⟩, ⟨htype, hs⟩, of_decide_eq_false hr⟩

/-- A current reference is not retired. -/
theorem refRetired_of_current {st : Store} {r : ConflictRef}
    (h : refIsCurrent st r = true) : refRetired st.log r = false := by
  cases r with
  | note id =>
      simp only [refIsCurrent, List.any_eq_true, beq_iff_eq] at h
      obtain ⟨ev, hev, rfl⟩ := h
      exact (mem_currentNotes.1 hev).2.2.2
  | passage sid pid =>
      simp only [refIsCurrent] at h
      split at h
      · cases h
      · rw [Bool.and_eq_true, decide_eq_true_iff] at h
        exact decide_eq_false h.1

/-- A pending proposal: recorded in the log, both references current, and its
pair excluded by no resolution. -/
theorem mem_pending_iff {st : Store} {p : ConflictProposal} :
    p ∈ pendingConflictProposals st ↔
      (∃ ev ∈ st.log, ev.eventType = conflictProposalEventType ∧
        proposalOf ev = some p) ∧
      refIsCurrent st p.aRef = true ∧ refIsCurrent st p.bRef = true ∧
      p.key ∉ (resolutionExclusions st.log).coexistPairs ∧
      p.key ∉ (resolutionExclusions st.log).dismissedPairs := by
  simp only [pendingConflictProposals, openConflictProposals,
    List.mem_filter, List.mem_filterMap, mem_eventsOfTypes,
    List.mem_singleton, Bool.and_eq_true, decide_eq_true_iff, and_assoc]

theorem mem_coexistPairs {log : EventLog} {pk : String} :
    pk ∈ (resolutionExclusions log).coexistPairs ↔
      ∃ ev ∈ log, ev.eventType = coexistAllowedEventType ∧
        ev.content.getStr? "pair_key" = some pk := by
  have hstep : ∀ acc ev, pk ∈ (foldExclusion log acc ev).coexistPairs ↔
      pk ∈ acc.coexistPairs ∨
        (ev.eventType = coexistAllowedEventType ∧
          ev.content.getStr? "pair_key" = some pk) := by
    intro acc ev
    unfold foldExclusion
    cases hk : ev.content.getStr? "pair_key" with
    | none => simp
    | some k =>
        by_cases ht : ev.eventType = coexistAllowedEventType
        · simp [ht, or_comm, eq_comm]
        · simp only [ht, if_false, false_and, or_false]
          split <;> rfl
  rw [resolutionExclusions, Fold.foldl_iff_exists
    (fun acc : ResolutionExclusions => pk ∈ acc.coexistPairs) _ hstep]
  simp only [Finset.notMem_empty, false_or, mem_eventsOfTypes, and_assoc]
  constructor
  · rintro ⟨ev, hmem, -, ht, hk⟩
    exact ⟨ev, hmem, ht, hk⟩
  · rintro ⟨ev, hmem, ht, hk⟩
    exact ⟨ev, hmem, by simp [ht], ht, hk⟩

theorem mem_dismissedPairs {log : EventLog} {pk : String} :
    pk ∈ (resolutionExclusions log).dismissedPairs ↔
      ∃ ev ∈ log, ev.eventType = dismissedEventType ∧
        ev.content.getStr? "pair_key" = some pk ∧
        dismissalLive log ev = true := by
  have hstep : ∀ acc ev, pk ∈ (foldExclusion log acc ev).dismissedPairs ↔
      pk ∈ acc.dismissedPairs ∨
        (ev.eventType ≠ coexistAllowedEventType ∧
          ev.content.getStr? "pair_key" = some pk ∧
          dismissalLive log ev = true) := by
    intro acc ev
    unfold foldExclusion
    cases hk : ev.content.getStr? "pair_key" with
    | none => simp
    | some k =>
        by_cases ht : ev.eventType = coexistAllowedEventType
        · simp [ht]
        · by_cases hlive : dismissalLive log ev = true
          · simp [ht, hlive, or_comm, eq_comm]
          · simp [ht, hlive]
  rw [resolutionExclusions, Fold.foldl_iff_exists
    (fun acc : ResolutionExclusions => pk ∈ acc.dismissedPairs) _ hstep]
  simp only [Finset.notMem_empty, false_or, mem_eventsOfTypes, and_assoc,
    List.mem_cons, List.not_mem_nil, or_false]
  constructor
  · rintro ⟨ev, hmem, htypes, ht, hk, hlive⟩
    exact ⟨ev, hmem, htypes.resolve_left ht, hk, hlive⟩
  · rintro ⟨ev, hmem, ht, hk, hlive⟩
    refine ⟨ev, hmem, .inr ht, ?_, hk, hlive⟩
    rw [ht]
    decide

/-! ### Terminal markers -/

theorem eventType_of_recordOf {ev : Event} {pid : String}
    {record : ResolutionRecord} (h : recordOf ev = some (pid, record)) :
    ev.eventType ∈ [conflictResolvedEventType, coexistAllowedEventType,
      dismissedEventType] := by
  simp only [recordOf, Option.bind_eq_some_iff, Option.map_eq_some_iff] at h
  obtain ⟨_, -, kind, hkind, -⟩ := h
  unfold recordKind at hkind
  split at hkind
  · next ht => simp [ht]
  · split at hkind
    · next ht => simp [ht]
    · split at hkind
      · next ht => simp [ht]
      · cases hkind

/-- A proposal has a record iff some marker of the log settles it. -/
theorem mem_resolutionMarkers {log : EventLog} {pid : String} :
    pid ∈ resolutionMarkers log ↔
      ∃ ev ∈ log, ∃ record, recordOf ev = some (pid, record) := by
  have hstep : ∀ acc ev, pid ∈ foldResolution acc ev ↔
      pid ∈ acc ∨ ∃ record, recordOf ev = some (pid, record) := by
    intro acc ev
    unfold foldResolution
    cases hrec : recordOf ev with
    | none => simp
    | some r =>
        obtain ⟨pid', record⟩ := r
        by_cases hin : acc.contains pid' = true
        · simp only [if_pos hin]
          constructor
          · exact .inl
          · rintro (h | ⟨record', heq⟩)
            · exact h
            · rw [Option.some.injEq, Prod.mk.injEq] at heq
              rw [← heq.1]
              exact Std.TreeMap.mem_iff_contains.mpr hin
        · simp only [if_neg hin, Std.TreeMap.mem_insert,
            Std.LawfulEqCmp.compare_eq_iff_eq]
          constructor
          · rintro (rfl | h)
            · exact .inr ⟨record, rfl⟩
            · exact .inl h
          · rintro (h | ⟨record', heq⟩)
            · exact .inr h
            · rw [Option.some.injEq, Prod.mk.injEq] at heq
              exact .inl heq.1
  have hfold := Fold.foldl_iff_exists
    (fun acc : Std.TreeMap String ResolutionRecord => pid ∈ acc)
    (fun ev => ∃ record, recordOf ev = some (pid, record)) hstep ∅
    (eventsOfTypes log [conflictResolvedEventType, coexistAllowedEventType,
      dismissedEventType])
  refine hfold.trans ?_
  simp only [Std.TreeMap.not_mem_emptyc, false_or, mem_eventsOfTypes,
    and_assoc]
  constructor
  · rintro ⟨ev, hmem, -, record, hrec⟩
    exact ⟨ev, hmem, record, hrec⟩
  · rintro ⟨ev, hmem, record, hrec⟩
    exact ⟨ev, hmem, eventType_of_recordOf hrec, record, hrec⟩

/-! ## What a resolution does -/

/-- The marker that retires a loser on behalf of a proposal. -/
def retireMarker (pid : String) : ConflictRef → Event
  | .note id => noteRetiredEvent id (some pid)
  | .passage sid p => passageRetiredEvent sid p (some pid)

/-- The event retires the reference. -/
def RetiresRef : ConflictRef → Event → Prop
  | .note id => RetiresNote id
  | .passage sid pid => RetiresPassage (sid, pid)

/-- The event restores the reference. -/
def UnretiresRef : ConflictRef → Event → Prop
  | .note id => UnretiresNote id
  | .passage sid pid => UnretiresPassage (sid, pid)

theorem refRetired_iff {log : EventLog} {r : ConflictRef} :
    refRetired log r = true ↔
      Fold.LastSets (RetiresRef r) (UnretiresRef r) log := by
  cases r with
  | note id => exact decide_eq_true_iff.trans mem_retiredNotes_log
  | passage sid pid => exact decide_eq_true_iff.trans mem_retiredPassages_log

/-- One more event retires a reference, or leaves it retired unless it
restores it. -/
theorem refRetired_append {log : EventLog} {r : ConflictRef} {ev : Event} :
    refRetired (log ++ [ev]) r = true ↔
      RetiresRef r ev ∨ (refRetired log r = true ∧ ¬ UnretiresRef r ev) := by
  have hold : refRetired log r = true ↔
      Fold.LastSets (RetiresRef r) (UnretiresRef r) log := refRetired_iff
  rw [refRetired_iff, Fold.lastSets_append, hold]
  simp [Fold.LastSets]

/-- The marker retires the reference it was drafted for. -/
theorem retiresRef_of_stored {m : Mint} {log : EventLog} {pid : String}
    {r : ConflictRef} {stored : Event} (hr : r.Representable)
    (hs : Stored m log (retireMarker pid r) stored) :
    RetiresRef r stored := by
  have hcontent : stored.content = (retireMarker pid r).content := by
    refine hs.content_of_none ?_
    cases r <;> rfl
  cases r with
  | note id =>
      refine ⟨hs.eventType_eq, ?_⟩
      rw [hcontent]
      rfl
  | passage sid p =>
      refine ⟨hs.eventType_eq, ?_⟩
      have hsid : stored.content.getStr? "session_id" = some sid := by
        rw [hcontent]
        rfl
      have hget : stored.content.get? "passage_id" = some (.num p) := by
        rw [hcontent]
        rfl
      have hpid : stored.content.getU64? "passage_id" = some p := by
        rw [Json.getU64?, hget, Option.bind_some, Json.asU64_num hr]
      simp only [passageOf, hsid, hpid]

theorem representable_of_fromJson {v : Json} {r : ConflictRef}
    (h : ConflictRef.fromJson v = some r) : r.Representable := by
  unfold ConflictRef.fromJson at h
  split at h
  · cases h
  · split at h
    · simp only [Option.map_eq_some_iff] at h
      obtain ⟨id, -, rfl⟩ := h
      trivial
    · split at h
      · simp only [Option.bind_eq_some_iff, Option.map_eq_some_iff] at h
        obtain ⟨sid, -, pid, hpid, rfl⟩ := h
        simp only [Json.getU64?, Option.bind_eq_some_iff] at hpid
        obtain ⟨j, -, hj⟩ := hpid
        exact (Json.asU64_eq_some hj).2
      · cases h

theorem representable_of_proposalRefs {ev : Event} {a b : ConflictRef}
    (h : proposalRefs ev = some (a, b)) :
    a.Representable ∧ b.Representable := by
  unfold proposalRefs at h
  split at h
  · next a' b' ha hb =>
      rw [Option.some.injEq, Prod.mk.injEq] at h
      rw [Option.bind_eq_some_iff] at ha hb
      obtain ⟨va, -, hva⟩ := ha
      obtain ⟨vb, -, hvb⟩ := hb
      rw [← h.1, ← h.2]
      exact ⟨representable_of_fromJson hva, representable_of_fromJson hvb⟩
  · cases h

theorem representable_of_proposalById {log : EventLog} {pid : String}
    {a b : ConflictRef} (h : conflictProposalById log pid = some (a, b)) :
    a.Representable ∧ b.Representable := by
  unfold conflictProposalById at h
  split at h
  · cases h
  · split at h
    · cases h
    · exact representable_of_proposalRefs h

theorem recordContradiction_transacts (m : Mint) (st : Store)
    (older newer : ConflictRef) (winner band why : String)
    (detectedAt : Int) :
    Transacts st.log [conflictProposalEvent older newer winner band why
        detectedAt ([older, newer].filterMap (refSourceEvent st.log))]
      (recordContradiction m st older newer winner band why
        detectedAt).1.log := by
  have happ := st.append_transacts m (conflictProposalEvent older newer
    winner band why detectedAt
    ([older, newer].filterMap (refSourceEvent st.log)))
  unfold recordContradiction
  split
  · exact .inl rfl
  · simp only
    split
    · next st' id heq => simpa [heq] using happ
    · next st' e heq => simpa [heq] using happ

/-- The heads recorded are the current ones, of the proposal's sessions. -/
theorem mem_dismissHeads {log : EventLog} {a b : ConflictRef}
    {q : String × Json} (h : q ∈ dismissHeads log a b) :
    (∃ r ∈ [a, b], ∃ p, r = .passage q.1 p) ∧
      ∃ head, q.2 = .str head ∧ headOf log q.1 = some head := by
  unfold dismissHeads at h
  refine Fold.foldl_inv (fun heads : List (String × Json) => ∀ q ∈ heads,
    (∃ r ∈ [a, b], ∃ p, r = .passage q.1 p) ∧
      ∃ head, q.2 = .str head ∧ headOf log q.1 = some head)
    (by simp) ?_ q h
  intro heads r hr hheads q hq
  cases r with
  | note id => exact hheads q hq
  | passage sid p =>
      cases hhead : headOf log sid with
      | none =>
          simp only [hhead] at hq
          exact hheads q hq
      | some head =>
          simp only [hhead] at hq
          rcases Json.mem_insertKey hq with rfl | hold
          · exact ⟨⟨_, hr, p, rfl⟩, head, rfl, hhead⟩
          · exact hheads q hold

/-- Retiring a loser: refused without effect, or the marker is stored. -/
theorem retireRef_cases (m : Mint) (st : Store) (pid : String)
    (r : ConflictRef) :
    (∃ e, retireRef m st pid r = (st, .error e)) ∨
      ∃ stored, Stored m st.log (retireMarker pid r) stored ∧
        retireRef m st pid r = (st.push stored, .ok m.id) := by
  cases r with
  | note id =>
      simp only [retireRef, retireMemory]
      split
      · next e _ => exact .inl ⟨e, rfl⟩
      · exact st.append_cases m _
  | passage sid p =>
      simp only [retireRef, retirePassage]
      split
      · exact .inl ⟨_, rfl⟩
      · split
        · exact .inl ⟨_, rfl⟩
        · split
          · exact .inl ⟨_, rfl⟩
          · exact st.append_cases m _

theorem appendTerminal_cases (m : Mint) (st : Store) (marker : Event) :
    (∃ e, appendTerminal m st marker = (st, .error e)) ∨
      ∃ stored, Stored m st.log marker stored ∧
        appendTerminal m st marker =
          (st.push stored, .ok (.applied m.id)) := by
  rcases st.append_cases m marker with ⟨e, h⟩ | ⟨stored, hs, h⟩
  · exact .inl ⟨e, by rw [appendTerminal, h]⟩
  · exact .inr ⟨stored, hs, by rw [appendTerminal, h]⟩

/-- What the retiring arm may come to. A call that fails, or stops, between
its two markers is `torn`. -/
inductive RetireSteps (m₁ m₂ : Mint) (st : Store) (pid : String)
    (kind : ResolutionKind) (loser : ConflictRef) :
    Outcome ResolveOutcome → Prop where
  | refused (e : BossclawError) :
      RetireSteps m₁ m₂ st pid kind loser (st, .error e)
  | torn (s₁ : Event) (e : BossclawError)
      (hlive : refRetired st.log loser = false)
      (h₁ : Stored m₁ st.log (retireMarker pid loser) s₁) :
      RetireSteps m₁ m₂ st pid kind loser (st.push s₁, .error e)
  | rolledForward (s₂ : Event) (hret : refRetired st.log loser = true)
      (h₂ : Stored m₂ st.log
        (conflictResolvedEvent pid kind loser.retiredId) s₂) :
      RetireSteps m₁ m₂ st pid kind loser (st.push s₂, .ok .noOp)
  | retired (s₁ s₂ : Event) (hlive : refRetired st.log loser = false)
      (h₁ : Stored m₁ st.log (retireMarker pid loser) s₁)
      (h₂ : Stored m₂ (st.log ++ [s₁])
        (conflictResolvedEvent pid kind loser.retiredId) s₂) :
      RetireSteps m₁ m₂ st pid kind loser
        ((st.push s₁).push s₂, .ok (.applied m₂.id))

theorem resolveRetire_steps (m₁ m₂ : Mint) (st : Store) (pid : String)
    (kind : ResolutionKind) (loser : ConflictRef) :
    RetireSteps m₁ m₂ st pid kind loser
      (resolveRetire m₁ m₂ st pid kind loser) := by
  unfold resolveRetire
  split
  · next hret =>
      rcases appendTerminal_cases m₂ st
        (conflictResolvedEvent pid kind loser.retiredId) with
        ⟨e, h⟩ | ⟨s₂, h₂, h⟩
      · rw [h]
        exact .refused e
      · rw [h]
        exact .rolledForward s₂ hret h₂
  · next hret =>
      have hlive : refRetired st.log loser = false := by simpa using hret
      rcases retireRef_cases m₁ st pid loser with ⟨e, h⟩ | ⟨s₁, h₁, h⟩
      · rw [h]
        exact .refused e
      · rw [h]
        rcases appendTerminal_cases m₂ (st.push s₁)
          (conflictResolvedEvent pid kind loser.retiredId) with
          ⟨e, h'⟩ | ⟨s₂, h₂, h'⟩
        · simp only [h']
          exact .torn s₁ e hlive h₁
        · simp only [h']
          exact .retired s₁ s₂ hlive h₁ h₂

/-- What `resolve_conflict` may come to. -/
inductive ResolveSteps (m₁ m₂ : Mint) (st : Store) (pid : String) :
    ResolveAction → Outcome ResolveOutcome → Prop where
  | refused (action : ResolveAction) (e : BossclawError) :
      ResolveSteps m₁ m₂ st pid action (st, .error e)
  | repeated (action : ResolveAction) (existing : ResolutionRecord)
      (hmarker : (resolutionMarkers st.log)[pid]? = some existing)
      (hkind : existing.kind = actionKind action) :
      ResolveSteps m₁ m₂ st pid action (st, .ok .noOp)
  | retireOlder (a b : ConflictRef) (out : Outcome ResolveOutcome)
      (hrefs : conflictProposalById st.log pid = some (a, b))
      (hmarker : (resolutionMarkers st.log)[pid]? = none)
      (hsteps : RetireSteps m₁ m₂ st pid .retireOlder a out) :
      ResolveSteps m₁ m₂ st pid .retireOlder out
  | retireNewer (a b : ConflictRef) (out : Outcome ResolveOutcome)
      (hrefs : conflictProposalById st.log pid = some (a, b))
      (hmarker : (resolutionMarkers st.log)[pid]? = none)
      (hsteps : RetireSteps m₁ m₂ st pid .retireNewer b out) :
      ResolveSteps m₁ m₂ st pid .retireNewer out
  | keepBoth (a b : ConflictRef) (s : Event)
      (hrefs : conflictProposalById st.log pid = some (a, b))
      (hmarker : (resolutionMarkers st.log)[pid]? = none)
      (hs : Stored m₂ st.log
        (pairTerminalEvent coexistAllowedEventType pid a b none) s) :
      ResolveSteps m₁ m₂ st pid .keepBoth
        (st.push s, .ok (.applied m₂.id))
  | dismiss (a b : ConflictRef) (s : Event)
      (hrefs : conflictProposalById st.log pid = some (a, b))
      (hmarker : (resolutionMarkers st.log)[pid]? = none)
      (hs : Stored m₂ st.log
        (pairTerminalEvent dismissedEventType pid a b
          (some (.obj (dismissHeads st.log a b)))) s) :
      ResolveSteps m₁ m₂ st pid .dismiss (st.push s, .ok (.applied m₂.id))

theorem resolveConflict_steps (m₁ m₂ : Mint) (st : Store) (pid : String)
    (action : ResolveAction) :
    ResolveSteps m₁ m₂ st pid action
      (resolveConflict m₁ m₂ st pid action) := by
  unfold resolveConflict
  split
  · exact .refused action _
  · next a b hrefs =>
      split
      · next existing hmarker =>
          split
          · next hkind => exact .repeated action existing hmarker hkind
          · exact .refused action _
      · next hmarker =>
          cases action with
          | retireOlder =>
              exact .retireOlder a b _ hrefs hmarker
                (resolveRetire_steps m₁ m₂ st pid .retireOlder a)
          | retireNewer =>
              exact .retireNewer a b _ hrefs hmarker
                (resolveRetire_steps m₁ m₂ st pid .retireNewer b)
          | keepBoth =>
              rcases appendTerminal_cases m₂ st
                (pairTerminalEvent coexistAllowedEventType pid a b none) with
                ⟨e, h⟩ | ⟨s, hs, h⟩
              · simp only [h]
                exact .refused .keepBoth e
              · simp only [h]
                exact .keepBoth a b s hrefs hmarker hs
          | dismiss =>
              rcases appendTerminal_cases m₂ st
                (pairTerminalEvent dismissedEventType pid a b
                  (some (.obj (dismissHeads st.log a b)))) with
                ⟨e, h⟩ | ⟨s, hs, h⟩
              · simp only [h]
                exact .refused .dismiss e
              · simp only [h]
                exact .dismiss a b s hrefs hmarker hs

end AirNote
