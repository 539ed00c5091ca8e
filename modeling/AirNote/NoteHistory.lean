import Mathlib.Logic.Relation
import AirNote.Conflicts

/-!
# The history of a note

An edit supersedes a note and appends its corrected text in one transaction,
so every note but the first of a chain follows the supersede event that made
room for it. Between the checks of an edit, a retire or an unretire and its
append no lock is held: the target is read, then the sets of superseded and
retired notes, then the events are appended, each under the lock of its own.

## Main results

* `note_history` — a superseded note is never current again; and the chains
  stay linear, without a current descendant of a retired note, in every run
  whose edits commit on current notes and whose retires commit on notes that
  are not superseded.
* `note_history_broken` — the edit of a retired note, and two edits of one
  note that were checked at the same time.
-/

namespace AirNote

open Lib Lib.Trace

/-! ## Calls and their checks -/

/-- A call of one of the four operations on notes. -/
inductive NoteCall where
  | remember (text : String)
  | supersede (target text : String)
  | retire (target : String) (sourceProposalId : Option String)
  | unretire (target : String)
  deriving DecidableEq

/-- What the call appends once its checks have passed. -/
def NoteCall.appends (m₁ m₂ : Mint) : NoteCall → AppendCall
  | .remember text => .append m₁ (externalNoteEvent text)
  | .supersede target text =>
      .appendPair m₁ m₂ (groundTruthSupersedeEvent target)
        (externalNoteEvent text)
  | .retire target src => .append m₁ (noteRetiredEvent target src)
  | .unretire target => .append m₁ (unretireEvent target)

/-- Where a call is: its target has been read, or all checks have passed. -/
inductive CallPhase where
  | found (call : NoteCall)
  | checked (call : NoteCall)
  deriving DecidableEq

/-- The target exists and is a remembered note. -/
def findsNote (log : EventLog) (target : String) : Bool :=
  match eventById log target with
  | some ev => ev.eventType == memoryEventType
  | none => false

/-- The first read of a call, where it is not refused. -/
def NoteCall.start (log : EventLog) : NoteCall → Option CallPhase
  | .remember text =>
      if isBlank text then none else some (.checked (.remember text))
  | .supersede target text =>
      if isBlank text then none
      else if findsNote log target then some (.found (.supersede target text))
      else none
  | .retire target src =>
      if findsNote log target then some (.found (.retire target src)) else none
  | .unretire target =>
      if target ∈ (foldSessions (sessionEventsOrdered log)).retiredNotes then
        some (.checked (.unretire target))
      else none

/-- The second read: an edit looks at the superseded notes only, a retire at
the retired ones too. -/
def NoteCall.check (log : EventLog) : NoteCall → Option CallPhase
  | .supersede target text =>
      if (supersededEventIds log).contains target then none
      else some (.checked (.supersede target text))
  | .retire target src =>
      let fold := foldSessions (sessionEventsOrdered log)
      if target ∈ fold.superseded then none
      else if target ∈ fold.retiredNotes then none
      else some (.checked (.retire target src))
  | call => some (.checked call)

/-! ## The threads -/

/-- The log, and the call each thread is in. -/
structure NoteState where
  log : EventLog
  calls : Nat → Option CallPhase

def NoteState.empty : NoteState := ⟨[], fun _ => none⟩

/-- A step of a thread; `stop` is a crash. -/
inductive NoteStep where
  | start (thread : Nat) (call : NoteCall)
  | check (thread : Nat)
  | commit (thread : Nat) (m₁ m₂ : Mint)
  | stop (thread : Nat)

/-- The thread goes on to the phase, or its call is over. -/
def NoteState.goto (σ : NoteState) (thread : Nat) (phase : Option CallPhase) :
    NoteState :=
  { σ with calls := fun t => if t = thread then phase else σ.calls t }

def NoteState.exec (σ : NoteState) : NoteStep → NoteState
  | .start thread call =>
      match σ.calls thread with
      | none => σ.goto thread (call.start σ.log)
      | some _ => σ
  | .check thread =>
      match σ.calls thread with
      | some (.found call) => σ.goto thread (call.check σ.log)
      | _ => σ
  | .commit thread m₁ m₂ =>
      match σ.calls thread with
      | some (.checked call) =>
          { σ.goto thread none with
            log := (call.appends m₁ m₂).exec σ.log }
      | _ => σ
  | .stop thread => σ.goto thread none

/-- The operation by itself, as `AirNote.Memory` has it. -/
def NoteCall.alone (emb : Embedder) (m₁ m₂ : Mint) (st : Store) :
    NoteCall → Store
  | .remember text => (AirNote.remember emb m₁ st text).1
  | .supersede target text => (supersedeNote emb m₁ m₂ st target text).1
  | .retire target src => (retireMemory m₁ st target src).1
  | .unretire target => (AirNote.unretire m₁ st target).1

@[simp] theorem NoteState.goto_log (σ : NoteState) (thread : Nat)
    (phase : Option CallPhase) : (σ.goto thread phase).log = σ.log := rfl

@[simp] theorem NoteState.goto_calls (σ : NoteState) (thread : Nat)
    (phase : Option CallPhase) : (σ.goto thread phase).calls thread = phase :=
  if_pos rfl

/-! ## The history in the log -/

/-- The event after the supersede event of `target` is the corrected note
`note`. -/
def Succeeds (log : EventLog) (target note : String) : Prop :=
  ∃ front a b rest, log = front ++ a :: b :: rest ∧ Supersedes target a ∧
    b.eventType = memoryEventType ∧ b.id = note

/-- The note came out of `origin` by edits. -/
def DescendsFrom (log : EventLog) : String → String → Prop :=
  Relation.ReflTransGen (Succeeds log)

/-- A note has at most one current descendant, and none while it is
retired. -/
structure LinearHistory (log : EventLog) : Prop where
  oneHead : ∀ origin, ∀ a ∈ currentNotes log, ∀ b ∈ currentNotes log,
    DescendsFrom log origin a.id → DescendsFrom log origin b.id → a.id = b.id
  retiredGone : ∀ id, refRetired log (.note id) = true →
    ∀ a ∈ currentNotes log, ¬ DescendsFrom log id a.id

/-- The target is still what the call needs: for an edit it is neither
superseded nor retired, for a retire it is not superseded. -/
def NoteCall.Applies (log : EventLog) : NoteCall → Prop
  | .supersede target _ =>
      target ∉ supersededEventIds log ∧ refRetired log (.note target) = false
  | .retire target _ => target ∉ supersededEventIds log
  | _ => True

/-- A call that commits still applies. -/
def StillApplies (σ : NoteState) (step : NoteStep) : Prop :=
  ∀ thread m₁ m₂ call, step = .commit thread m₁ m₂ →
    σ.calls thread = some (.checked call) → call.Applies σ.log

/-! ## Reading the log -/

theorem mem_supersededEventIds {log : EventLog} {id : String} :
    id ∈ supersededEventIds log ↔ ∃ e ∈ log, Supersedes id e := by
  simp only [supersededEventIds, List.mem_filterMap, mem_eventsOfTypes,
    List.mem_singleton, Supersedes, and_assoc]

theorem refRetired_note_iff {log : EventLog} {id : String} :
    refRetired log (.note id) = true ↔
      Fold.LastSets (RetiresNote id) (UnretiresNote id) log := by
  unfold refRetired
  rw [decide_eq_true_iff, mem_retiredNotes_log]

theorem refRetired_append_singleton {log : EventLog} {ev : Event}
    {id : String} :
    refRetired (log ++ [ev]) (.note id) = true ↔
      RetiresNote id ev ∨
        (refRetired log (.note id) = true ∧ ¬ UnretiresNote id ev) := by
  rw [refRetired_note_iff, refRetired_note_iff, Fold.lastSets_append]
  simp [Fold.LastSets]

theorem mem_supersededEventIds_append {log : EventLog} {ev : Event}
    {id : String} :
    id ∈ supersededEventIds (log ++ [ev]) ↔
      id ∈ supersededEventIds log ∨ Supersedes id ev := by
  rw [mem_supersededEventIds, mem_supersededEventIds]
  constructor
  · rintro ⟨e, he, hs⟩
    rcases List.mem_append.mp he with hold | hnew
    · exact .inl ⟨e, hold, hs⟩
    · rw [List.mem_singleton.mp hnew] at hs
      exact .inr hs
  · rintro (⟨e, he, hs⟩ | hs)
    · exact ⟨e, List.mem_append_left [ev] he, hs⟩
    · exact ⟨ev, by simp, hs⟩

/-- What one more event adds to the history. -/
theorem succeeds_append_singleton {log : EventLog} {ev : Event}
    {target note : String} :
    Succeeds (log ++ [ev]) target note ↔
      Succeeds log target note ∨
        ∃ last, log.getLast? = some last ∧ Supersedes target last ∧
          ev.eventType = memoryEventType ∧ ev.id = note := by
  constructor
  · rintro ⟨front, a, b, rest, hlog, ha, hb, hid⟩
    rcases List.eq_nil_or_concat rest with hnil | ⟨rest', last, hrest⟩
    · rw [hnil, List.append_cons front a [b]] at hlog
      obtain ⟨hfront, hlast⟩ := List.append_inj' hlog rfl
      rw [List.cons.injEq] at hlast
      refine .inr ⟨a, ?_, ha, ?_, ?_⟩
      · rw [hfront, List.getLast?_concat]
      · rw [hlast.1]
        exact hb
      · rw [hlast.1]
        exact hid
    · have hsplit : log ++ [ev] = (front ++ a :: b :: rest') ++ [last] := by
        rw [hlog, hrest]
        simp
      obtain ⟨hfront, -⟩ := List.append_inj' hsplit rfl
      exact .inl ⟨front, a, b, rest', hfront, ha, hb, hid⟩
  · rintro (⟨front, a, b, rest, hlog, ha, hb, hid⟩ | ⟨last, hlast, hs, hev, hid⟩)
    · refine ⟨front, a, b, rest ++ [ev], ?_, ha, hb, hid⟩
      rw [hlog, List.append_assoc]
      rfl
    · obtain ⟨front, hfront⟩ := List.getLast?_eq_some_iff.mp hlast
      refine ⟨front, last, ev, [], ?_, hs, hev, hid⟩
      rw [hfront, List.append_assoc]
      rfl

/-- A note that has been edited is superseded. -/
theorem Succeeds.superseded {log : EventLog} {target note : String}
    (h : Succeeds log target note) : target ∈ supersededEventIds log := by
  obtain ⟨front, a, b, rest, hlog, ha, -, -⟩ := h
  refine mem_supersededEventIds.2 ⟨a, ?_, ha⟩
  rw [hlog]
  simp

/-- A current note has not been edited. -/
theorem not_succeeds_of_current {log : EventLog} {ev : Event} {note : String}
    (hev : ev ∈ currentNotes log) : ¬ Succeeds log ev.id note := by
  intro h
  have hsup := mem_supersededEventIds.1 h.superseded
  exact (mem_currentNotes.1 hev).2.2.1 hsup

/-! ## Linear histories -/

/-- A supersede event is followed by its corrected note, a note is edited at
most once, and no retired note has been edited. -/
structure HistoryInv (log : EventLog) : Prop where
  paired : ∀ last, log.getLast? = some last →
    last.eventType ≠ supersedeEventType
  single : Relator.RightUnique (Succeeds log)
  unedited : ∀ id, refRetired log (.note id) = true →
    id ∉ supersededEventIds log

theorem historyInv_nil : HistoryInv [] where
  paired := by
    intro last h
    cases h
  single := by
    rintro target a b ⟨front, x, y, rest, hlog, -⟩
    cases front with
    | nil => cases hlog
    | cons _ _ => cases hlog
  unedited := by
    intro id _ h
    obtain ⟨e, he, -⟩ := mem_supersededEventIds.1 h
    cases he

/-- Each note of the chain is edited once, so of two descendants one came out
of the other; and a current note came out with nothing after it. -/
theorem HistoryInv.linearHistory {log : EventLog} (h : HistoryInv log) :
    LinearHistory log := by
  have hlast : ∀ {a : Event} {id : String}, a ∈ currentNotes log →
      DescendsFrom log a.id id → a.id = id := by
    intro a id ha hdesc
    rcases Relation.ReflTransGen.cases_head hdesc with hsame | ⟨next, hnext, -⟩
    · exact hsame
    · exact absurd hnext (not_succeeds_of_current ha)
  refine { oneHead := ?_, retiredGone := ?_ }
  · intro origin a ha b hb hda hdb
    rcases Relation.ReflTransGen.total_of_right_unique h.single hda hdb with
      hab | hba
    · exact hlast ha hab
    · exact (hlast hb hba).symm
  · intro id hret a ha hdesc
    rcases Relation.ReflTransGen.cases_head hdesc with hsame | ⟨next, hnext, -⟩
    · have hcurrent := (mem_currentNotes.1 ha).2.2.2
      rw [← hsame, hret] at hcurrent
      cases hcurrent
    · exact h.unedited id hret hnext.superseded

theorem HistoryInv.succeeds_append_iff {log : EventLog} (h : HistoryInv log)
    {ev : Event} {target note : String} :
    Succeeds (log ++ [ev]) target note ↔ Succeeds log target note := by
  rw [succeeds_append_singleton]
  refine or_iff_left ?_
  rintro ⟨last, hlast, hs, -⟩
  exact h.paired last hlast hs.1

/-- A remembered note and the markers keep the histories linear, as long as
no edited note is retired. -/
theorem HistoryInv.append_singleton {log : EventLog} (h : HistoryInv log)
    {ev : Event} (htype : ev.eventType ≠ supersedeEventType)
    (hretire : ∀ id, RetiresNote id ev → id ∉ supersededEventIds log) :
    HistoryInv (log ++ [ev]) where
  paired := by
    intro last hlast
    rw [List.getLast?_concat] at hlast
    rw [← Option.some.inj hlast]
    exact htype
  single := by
    intro target a b ha hb
    exact h.single (h.succeeds_append_iff.mp ha) (h.succeeds_append_iff.mp hb)
  unedited := by
    intro id hret hsup
    have hsup' : id ∈ supersededEventIds log := by
      rcases mem_supersededEventIds_append.1 hsup with hold | hnew
      · exact hold
      · exact absurd hnew.1 htype
    rcases refRetired_append_singleton.1 hret with hnew | ⟨hold, -⟩
    · exact hretire id hnew hsup'
    · exact h.unedited id hold hsup'

/-- The edit of a note that is neither superseded nor retired keeps the
histories linear. -/
theorem HistoryInv.append_pair {log : EventLog} (h : HistoryInv log)
    {marker note : Event} {target : String} (hmarker : Supersedes target marker)
    (hnote : note.eventType = memoryEventType)
    (hsup : target ∉ supersededEventIds log)
    (hret : refRetired log (.note target) = false) :
    HistoryInv (log ++ [marker] ++ [note]) := by
  have hother : ∀ id, Supersedes id marker → id = target := by
    rintro id ⟨-, hid⟩
    rw [hmarker.2] at hid
    exact (Option.some.inj hid).symm
  have hsucceeds : ∀ x y, Succeeds (log ++ [marker] ++ [note]) x y →
      Succeeds log x y ∨ (x = target ∧ y = note.id) := by
    intro x y hxy
    rcases succeeds_append_singleton.1 hxy with hold | ⟨last, hlast, hs, -, hid⟩
    · exact .inl (h.succeeds_append_iff.mp hold)
    · rw [List.getLast?_concat] at hlast
      rw [← Option.some.inj hlast] at hs
      exact .inr ⟨hother x hs, hid.symm⟩
  have hnoteType : note.eventType ≠ supersedeEventType := by
    rw [hnote]
    decide
  refine { paired := ?_, single := ?_, unedited := ?_ }
  · intro last hlast
    rw [List.getLast?_concat] at hlast
    rw [← Option.some.inj hlast]
    exact hnoteType
  · intro x a b ha hb
    rcases hsucceeds x a ha with hold | ⟨hx, hnew⟩
    · rcases hsucceeds x b hb with hold' | ⟨hx', -⟩
      · exact h.single hold hold'
      · rw [hx'] at hold
        exact absurd hold.superseded hsup
    · rcases hsucceeds x b hb with hold' | ⟨-, hnew'⟩
      · rw [hx] at hold'
        exact absurd hold'.superseded hsup
      · rw [hnew, hnew']
  · intro id hid hmem
    have hold : refRetired log (.note id) = true := by
      rcases refRetired_append_singleton.1 hid with hnew | ⟨hmid, -⟩
      · exact absurd (hnote.symm.trans hnew.1) (by decide)
      · rcases refRetired_append_singleton.1 hmid with hnew | ⟨hold, -⟩
        · exact absurd (hmarker.1.symm.trans hnew.1) (by decide)
        · exact hold
    rcases mem_supersededEventIds_append.1 hmem with hmem' | hnew
    · rcases mem_supersededEventIds_append.1 hmem' with hmemOld | hmemNew
      · exact h.unedited id hold hmemOld
      · rw [hother id hmemNew, hret] at hold
        cases hold
    · exact absurd hnew.1 hnoteType

/-! ## Runs -/

theorem retiresNote_of_stored {m : Mint} {log : EventLog} {target id : String}
    {src : Option String} {stored : Event}
    (hs : Stored m log (noteRetiredEvent target src) stored)
    (h : RetiresNote id stored) : id = target := by
  have hcontent := hs.content_of_none rfl
  have hid := h.2
  rw [hcontent] at hid
  exact (Option.some.inj hid).symm

/-- A call that still applies keeps the histories linear. -/
theorem HistoryInv.commit {log : EventLog} (h : HistoryInv log)
    (m₁ m₂ : Mint) (call : NoteCall) (happlies : call.Applies log) :
    HistoryInv ((call.appends m₁ m₂).exec log) := by
  rcases AppendCall.exec_transacts log (call.appends m₁ m₂) with hsame | hlogged
  · rw [hsame]
    exact h
  · revert hlogged
    generalize (call.appends m₁ m₂).exec log = log'
    cases call with
    | remember text =>
        intro hlogged
        rcases hlogged with _ | ⟨hs, _ | _⟩
        have htype : _ = memoryEventType := hs.eventType_eq
        refine h.append_singleton ?_ ?_
        · rw [htype]
          decide
        · rintro id ⟨hret, -⟩
          exact absurd (htype.symm.trans hret) (by decide)
    | unretire target =>
        intro hlogged
        rcases hlogged with _ | ⟨hs, _ | _⟩
        have htype : _ = unretireEventType := hs.eventType_eq
        refine h.append_singleton ?_ ?_
        · rw [htype]
          decide
        · rintro id ⟨hret, -⟩
          exact absurd (htype.symm.trans hret) (by decide)
    | retire target src =>
        intro hlogged
        rcases hlogged with _ | ⟨hs, _ | _⟩
        have htype : _ = noteRetiredEventType := hs.eventType_eq
        refine h.append_singleton ?_ ?_
        · rw [htype]
          decide
        · intro id hret
          rw [retiresNote_of_stored hs hret]
          exact happlies
    | supersede target text =>
        intro hlogged
        rcases hlogged with _ | ⟨hs, _ | ⟨hs', _ | _⟩⟩
        refine h.append_pair ⟨hs.eventType_eq, ?_⟩ hs'.eventType_eq happlies.1
          happlies.2
        rw [hs.content_of_none rfl]
        rfl

theorem HistoryInv.exec {σ : NoteState} (h : HistoryInv σ.log)
    (step : NoteStep) (hok : StillApplies σ step) :
    HistoryInv (σ.exec step).log := by
  cases step with
  | start thread call =>
      simp only [NoteState.exec]
      split
      · exact h
      · exact h
  | check thread =>
      simp only [NoteState.exec]
      split
      · exact h
      · exact h
  | stop thread => exact h
  | commit thread m₁ m₂ =>
      simp only [NoteState.exec]
      split
      · next call hcall =>
          exact h.commit m₁ m₂ call (hok thread m₁ m₂ call rfl hcall)
      · exact h

/-- A superseded note stays superseded. -/
theorem superseded_exec {σ : NoteState} (step : NoteStep) {id : String}
    (h : id ∈ supersededEventIds σ.log) :
    id ∈ supersededEventIds (σ.exec step).log := by
  cases step with
  | start thread call =>
      simp only [NoteState.exec]
      split
      · exact h
      · exact h
  | check thread =>
      simp only [NoteState.exec]
      split
      · exact h
      · exact h
  | stop thread => exact h
  | commit thread m₁ m₂ =>
      simp only [NoteState.exec]
      split
      · next call hcall =>
          rcases AppendCall.exec_transacts σ.log (call.appends m₁ m₂) with
            hsame | hlogged
          · show id ∈ supersededEventIds ((call.appends m₁ m₂).exec σ.log)
            rw [hsame]
            exact h
          · obtain ⟨suffix, hsuffix⟩ := hlogged.suffix
            obtain ⟨e, he, hs⟩ := mem_supersededEventIds.1 h
            show id ∈ supersededEventIds ((call.appends m₁ m₂).exec σ.log)
            rw [hsuffix]
            exact mem_supersededEventIds.2
              ⟨e, List.mem_append_left suffix he, hs⟩
      · exact h

/-- Over every interleaving of the four operations, a superseded note is never
current again. Where each edit commits on a note that is neither superseded
nor retired, and each retire on one that is not superseded, the histories are
linear in every state and no retired note has a current descendant. -/
theorem note_history (steps : List NoteStep) :
    (∀ m n, m ≤ n → ∀ id,
      id ∈ supersededEventIds
        (run NoteState.exec .empty (steps.take m)).log →
      ∀ a ∈ currentNotes (run NoteState.exec .empty (steps.take n)).log,
        a.id ≠ id) ∧
    (Meets NoteState.exec StillApplies .empty steps →
      ∀ n, LinearHistory (run NoteState.exec .empty (steps.take n)).log) := by
  constructor
  · intro m n hmn id hsup a ha hid
    have hsplit : steps.take n = steps.take m ++ (steps.take n).drop m := by
      conv_lhs => rw [← List.take_append_drop m (steps.take n)]
      rw [List.take_take, Nat.min_eq_left hmn]
    rw [hsplit, run_append] at ha
    have hlater := run_inv (fun σ : NoteState => id ∈ supersededEventIds σ.log)
      (fun σ step h => superseded_exec step h) hsup ((steps.take n).drop m)
    rw [← hid] at hlater
    exact (mem_currentNotes.1 ha).2.2.1 (mem_supersededEventIds.1 hlater)
  · intro hmeets n
    exact (run_take_inv_of_meets (fun σ => HistoryInv σ.log)
      (fun σ step h hok => h.exec step hok) historyInv_nil hmeets
      n).linearHistory

/-! ## A call by itself -/

/-- The log after the three steps of one call, with nothing in between. -/
theorem run_alone (log : EventLog) (calls : Nat → Option CallPhase)
    (thread : Nat) (call : NoteCall) (m₁ m₂ : Mint)
    (hidle : calls thread = none) :
    (run NoteState.exec ⟨log, calls⟩
      [.start thread call, .check thread, .commit thread m₁ m₂]).log =
      match call.start log with
      | some (.checked c) => (c.appends m₁ m₂).exec log
      | some (.found c) =>
          match c.check log with
          | some (.checked c') => (c'.appends m₁ m₂).exec log
          | _ => log
      | none => log := by
  simp only [run_cons, run_nil, NoteState.exec, hidle]
  cases hstart : call.start log with
  | none => simp
  | some phase =>
      cases phase with
      | checked c => simp
      | found c =>
          cases hcheck : c.check log with
          | none => simp [hcheck]
          | some phase' =>
              cases phase' with
              | checked c' => simp [hcheck]
              | found c' => simp [hcheck]

/-- Alone, a call does to the log what the operation does. -/
theorem uninterrupted_log (emb : Embedder) (m₁ m₂ : Mint) (st : Store)
    (calls : Nat → Option CallPhase) (thread : Nat) (call : NoteCall)
    (hidle : calls thread = none) :
    (run NoteState.exec ⟨st.log, calls⟩
      [.start thread call, .check thread, .commit thread m₁ m₂]).log =
      (call.alone emb m₁ m₂ st).log := by
  rw [run_alone st.log calls thread call m₁ m₂ hidle]
  cases call with
  | remember text =>
      by_cases hblank : isBlank text = true
      · simp [NoteCall.start, NoteCall.alone, AirNote.remember,
          rejectBlankNoteText, hblank]
      · simp [NoteCall.start, NoteCall.alone, AirNote.remember,
          rejectBlankNoteText, hblank, Store.append_log, NoteCall.appends]
  | supersede target text =>
      by_cases hblank : isBlank text = true
      · simp [NoteCall.start, NoteCall.alone, supersedeNote,
          rejectBlankNoteText, hblank]
      · have hok : rejectBlankNoteText text = .ok () := by
          simp [rejectBlankNoteText, hblank]
        cases hev : eventById st.log target with
        | none =>
            have hfind : findsNote st.log target = false := by
              simp [findsNote, hev]
            simp [NoteCall.start, NoteCall.alone, supersedeNote, hok, hev,
              hfind]
        | some ev =>
            by_cases htype : ev.eventType = memoryEventType
            · have hfind : findsNote st.log target = true := by
                simp [findsNote, hev, htype]
              by_cases hsup : target ∈ supersededEventIds st.log
              · simp [NoteCall.start, NoteCall.alone, NoteCall.check,
                  supersedeNote, hok, hev, hfind, hblank, htype, hsup]
              · have halone : (supersedeNote emb m₁ m₂ st target text).1.log =
                    (st.appendPair m₁ m₂ (groundTruthSupersedeEvent target)
                      (externalNoteEvent text)).1.log := by
                  simp only [supersedeNote, hok, hev, htype]
                  rw [if_neg (by simp), if_neg (by simpa using hsup)]
                  split
                  · next st' e heq => rw [heq]
                  · next st' old new heq => rw [heq, derived_log]
                simp [NoteCall.start, NoteCall.alone, NoteCall.check, hfind,
                  hblank, hsup, NoteCall.appends, halone, Store.appendPair_log]
            · have hfind : findsNote st.log target = false := by
                simp [findsNote, hev, htype]
              simp [NoteCall.start, NoteCall.alone, supersedeNote, hok, hev,
                hfind, htype]
  | retire target src =>
      cases hev : eventById st.log target with
      | none =>
          simp [NoteCall.start, NoteCall.alone, retireMemory, findsNote,
            assertRetirableNote, hev]
      | some ev =>
          by_cases htype : ev.eventType = memoryEventType
          · by_cases hsup : target ∈
                (foldSessions (sessionEventsOrdered st.log)).superseded
            · simp [NoteCall.start, NoteCall.alone, retireMemory, findsNote,
                assertRetirableNote, hev, htype, NoteCall.check, hsup]
            · by_cases hret : target ∈
                  (foldSessions (sessionEventsOrdered st.log)).retiredNotes
              · simp [NoteCall.start, NoteCall.alone, retireMemory, findsNote,
                  assertRetirableNote, hev, htype, NoteCall.check, hsup, hret]
              · simp [NoteCall.start, NoteCall.alone, retireMemory, findsNote,
                  assertRetirableNote, hev, htype, NoteCall.check, hsup, hret,
                  Store.append_log, NoteCall.appends]
          · simp [NoteCall.start, NoteCall.alone, retireMemory, findsNote,
              assertRetirableNote, hev, htype]
  | unretire target =>
      by_cases hret : target ∈
          (foldSessions (sessionEventsOrdered st.log)).retiredNotes
      · have halone : (AirNote.unretire m₁ st target).1.log =
            (st.append m₁ (unretireEvent target)).1.log := by
          unfold AirNote.unretire
          rw [if_pos hret]
          split
          · next st' e heq => rw [heq]
          · next st' id heq =>
              split
              · rw [heq, rewindConflictCursor_log]
              · rw [heq]
        simp [NoteCall.start, NoteCall.alone, hret, NoteCall.appends, halone,
          Store.append_log]
      · simp [NoteCall.start, NoteCall.alone, AirNote.unretire, hret]

/-! ## Broken histories -/

theorem stillApplies_commit {σ : NoteState} {thread : Nat} {m₁ m₂ : Mint}
    {call : NoteCall} (hcall : σ.calls thread = some (.checked call))
    (happlies : call.Applies σ.log) :
    StillApplies σ (.commit thread m₁ m₂) := by
  intro t n₁ n₂ call' hstep hcall'
  cases hstep
  rw [hcall] at hcall'
  cases hcall'
  exact happlies

theorem succeeds_of_index {log : EventLog} {target note : String} (i : Nat)
    (hmarker : (log[i]?.any fun a => a.eventType == supersedeEventType
      && a.content.getStr? "supersedes" == some target) = true)
    (hnote : (log[i + 1]?.any fun b => b.eventType == memoryEventType
      && b.id == note) = true) : Succeeds log target note := by
  obtain ⟨a, ha, hmarker'⟩ := (Option.any_eq_true _ _).mp hmarker
  obtain ⟨b, hb, hnote'⟩ := (Option.any_eq_true _ _).mp hnote
  rw [Bool.and_eq_true, beq_iff_eq, beq_iff_eq] at hmarker' hnote'
  obtain ⟨hi, hai⟩ := List.getElem?_eq_some_iff.mp ha
  obtain ⟨hi', hbi⟩ := List.getElem?_eq_some_iff.mp hb
  refine ⟨log.take i, a, b, log.drop (i + 1 + 1), ?_, hmarker', hnote'⟩
  conv_lhs => rw [← List.take_append_drop i log]
  rw [List.drop_eq_getElem_cons hi, List.drop_eq_getElem_cons hi', hai, hbi]

theorem exists_current_of_map {log : EventLog} {ids : List String}
    (h : (currentNotes log).map Event.id = ids) {id : String} (hid : id ∈ ids) :
    ∃ a ∈ currentNotes log, a.id = id := by
  rw [← h] at hid
  exact List.mem_map.mp hid

namespace NoteRuns

def mint (id : String) : Mint := .plain id

/-- A note is remembered as `n1` and edited to `n2`. -/
def edited : List NoteStep :=
  [.start 0 (.remember "draft"), .commit 0 (mint "n1") (mint ""),
    .start 0 (.supersede "n1" "final"), .check 0,
    .commit 0 (mint "s1") (mint "n2")]

/-- The note is retired and then edited. -/
def retiredEdited : List NoteStep :=
  [.start 0 (.remember "draft"), .commit 0 (mint "n1") (mint ""),
    .start 0 (.retire "n1" none), .check 0, .commit 0 (mint "r1") (mint ""),
    .start 0 (.supersede "n1" "final"), .check 0,
    .commit 0 (mint "s1") (mint "n2")]

/-- Two threads edit the note at the same time. -/
def editedTwice : List NoteStep :=
  [.start 0 (.remember "draft"), .commit 0 (mint "n1") (mint ""),
    .start 0 (.supersede "n1" "first"), .start 1 (.supersede "n1" "second"),
    .check 0, .check 1, .commit 0 (mint "s1") (mint "n2"),
    .commit 1 (mint "s2") (mint "n3")]

end NoteRuns

open NoteRuns in
/-- An edit of a current note keeps the history linear. -/
theorem note_history_sample :
    LinearHistory (run NoteState.exec .empty (edited.take 5)).log := by
  refine (note_history edited).2 ?_ 5
  have hidle : ∀ σ step, (∀ t m₁ m₂, step ≠ NoteStep.commit t m₁ m₂) →
      StillApplies σ step := by
    intro σ step hne t m₁ m₂ call hstep
    exact absurd hstep (hne t m₁ m₂)
  have hfirst : (run NoteState.exec .empty (edited.take 1)).calls 0 =
      some (.checked (.remember "draft")) := by
    decide +kernel
  have hsecond : (run NoteState.exec .empty (edited.take 4)).calls 0 =
      some (.checked (.supersede "n1" "final")) := by
    decide +kernel
  refine ⟨hidle _ _ ?_, stillApplies_commit hfirst trivial, hidle _ _ ?_,
    hidle _ _ ?_, stillApplies_commit hsecond ?_, trivial⟩
  · intro t m₁ m₂ h
    cases h
  · intro t m₁ m₂ h
    cases h
  · intro t m₁ m₂ h
    cases h
  · exact ⟨by decide +kernel, by decide +kernel⟩

open NoteRuns in
/-- The edit of a retired note is not refused, and its text is current again;
and of two edits checked at the same time both commit. -/
theorem note_history_broken :
    ¬ LinearHistory (run NoteState.exec .empty retiredEdited).log ∧
      ¬ LinearHistory (run NoteState.exec .empty editedTwice).log := by
  constructor
  · intro h
    have hcurrent : (currentNotes
        (run NoteState.exec .empty retiredEdited).log).map Event.id =
        ["n2"] := by
      decide +kernel
    have hretired : refRetired (run NoteState.exec .empty retiredEdited).log
        (.note "n1") = true := by
      decide +kernel
    have hedit : Succeeds (run NoteState.exec .empty retiredEdited).log
        "n1" "n2" :=
      succeeds_of_index 2 (by decide +kernel) (by decide +kernel)
    obtain ⟨a, ha, hid⟩ := exists_current_of_map hcurrent
      (by simp : "n2" ∈ ["n2"])
    refine h.retiredGone "n1" hretired a ha ?_
    rw [hid]
    exact Relation.ReflTransGen.single hedit
  · intro h
    have hcurrent : (currentNotes
        (run NoteState.exec .empty editedTwice).log).map Event.id =
        ["n2", "n3"] := by
      decide +kernel
    have hfirst : Succeeds (run NoteState.exec .empty editedTwice).log
        "n1" "n2" :=
      succeeds_of_index 1 (by decide +kernel) (by decide +kernel)
    have hsecond : Succeeds (run NoteState.exec .empty editedTwice).log
        "n1" "n3" :=
      succeeds_of_index 3 (by decide +kernel) (by decide +kernel)
    obtain ⟨a, ha, hida⟩ := exists_current_of_map hcurrent
      (by simp : "n2" ∈ ["n2", "n3"])
    obtain ⟨b, hb, hidb⟩ := exists_current_of_map hcurrent
      (by simp : "n3" ∈ ["n2", "n3"])
    have hsame := h.oneHead "n1" a ha b hb
      (by rw [hida]; exact Relation.ReflTransGen.single hfirst)
      (by rw [hidb]; exact Relation.ReflTransGen.single hsecond)
    rw [hida, hidb] at hsame
    exact absurd hsame (by decide)

end AirNote
