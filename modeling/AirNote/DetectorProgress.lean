import AirNote.EditedNote

/-!
# When the conflict sweep is stuck

A scan reads the oldest `CONFLICT_SCAN_BOUND` candidate events from its
cursor on, and lists the subjects among them. It does not move the cursor
past an event that gives none. A sweep therefore sees the next subject as
long as the events before it, stale ones included, fit the bound; and where
they do not, the scan is empty, the cycle ends before it began, and so does
every later one.

## Main results

* `conflict_sweep_progress` — in every state a run reaches, the sweep makes
  progress iff the next subject is in reach; where it is not, no number of
  cycles changes the store.
* `conflict_sweep_stalls` — a note edited sixty-four times is never swept.
-/

namespace AirNote

open Lib

variable {D : Type}

/-- A current subject at or after the cursor. -/
def Waiting (st : Store) (cs : ConflictSubject) : Prop :=
  IsSubject st cs ∧ PosLe (conflictCursor st) cs.position

/-- The subject's event is one of the oldest candidate events from the cursor
on. -/
def InReach (st : Store) (cs : ConflictSubject) : Prop :=
  rowsUpTo st.log (conflictCursor st).1 cs.seq ≤ conflictScanBound

/-- Where a subject waits, one that waits is in reach. -/
def NextInReach (st : Store) : Prop :=
  (∃ cs, Waiting st cs) → ∃ cs, Waiting st cs ∧ InReach st cs

/-- The sweep of the store, between two cycles. -/
def SweepState.rested (s : SweepState) : SweepState :=
  { s with phase := .idle .zero }

/-- Where a subject waits, the scan lists a subject, or some course of the
tick moves the cursor. -/
def MakesProgress (d : Detector D) (s : SweepState) : Prop :=
  (∃ cs, Waiting s.store cs) → nextSubjects s.store ≠ [] ∨
    ∃ tick : List SweepStep, (∀ i ∈ tick, i.OfCycle) ∧
      conflictCursor (Trace.run (SweepState.exec d) s.rested tick).store ≠
        conflictCursor s.store

/-- A scan lists nothing iff nothing in reach waits. -/
theorem nextSubjects_eq_nil_iff {st : Store} :
    nextSubjects st = [] ↔ ∀ cs, Waiting st cs → ¬ InReach st cs := by
  have hmem : ∀ cs, cs ∈ nextSubjects st ↔ Waiting st cs ∧ InReach st cs := by
    intro cs
    rw [nextSubjects, mem_subjects_iff, Waiting, InReach, and_assoc]
  rw [List.eq_nil_iff_forall_not_mem]
  constructor
  · intro h cs hwait hreach
    exact h cs ((hmem cs).mpr ⟨hwait, hreach⟩)
  · intro h cs hcs
    obtain ⟨hwait, hreach⟩ := (hmem cs).mp hcs
    exact h cs hwait hreach

/-- A cycle over an empty scan is over at once. -/
theorem exec_of_nothing_listed (d : Detector D) {s : SweepState}
    (hidle : ∃ report, s.phase = .idle report)
    (hnone : nextSubjects s.store = []) {i : SweepStep} (hi : i.OfCycle) :
    ∃ report, s.exec d i = { s with phase := .idle report } := by
  obtain ⟨report, hphase⟩ := hidle
  have hsame : ∀ s' : SweepState, s' = s →
      ∃ report, s' = { s with phase := .idle report } := by
    rintro _ rfl
    refine ⟨report, ?_⟩
    rw [← hphase]
  cases i with
  | owner op => exact absurd hi id
  | restart => exact absurd hi id
  | scan enabled detectedAt =>
      simp only [SweepState.exec, SweepState.scan, hphase]
      split
      · have hlist : unprocessedConflictSubjectsSince s.store
            (conflictCursor s.store).1 (conflictCursor s.store).2
            conflictScanBound = [] := hnone
        simp only [hlist]
        exact ⟨_, rfl⟩
      · exact ⟨_, rfl⟩
  | rebuild =>
      exact hsame _ (by simp only [SweepState.exec, SweepState.rebuild, hphase])
  | lookup =>
      exact hsame _ (by simp only [SweepState.exec, SweepState.lookup, hphase])
  | take =>
      exact hsame _ (by simp only [SweepState.exec, SweepState.take, hphase])
  | judge passageText reasoner =>
      exact hsame _ (by simp only [SweepState.exec, SweepState.judge, hphase])
  | check =>
      exact hsame _ (by simp only [SweepState.exec, SweepState.check, hphase])
  | append m =>
      exact hsame _ (by simp only [SweepState.exec, SweepState.append, hphase])
  | advance =>
      exact hsame _ (by simp only [SweepState.exec, SweepState.advance, hphase])
  | abort => exact ⟨_, rfl⟩

/-- No number of cycles over an empty scan changes anything. -/
theorem idle_of_nothing_listed (d : Detector D) {s : SweepState}
    (hidle : ∃ report, s.phase = .idle report)
    (hnone : nextSubjects s.store = []) {ticks : List SweepStep}
    (hticks : ∀ i ∈ ticks, i.OfCycle) :
    ∃ report, Trace.run (SweepState.exec d) s ticks =
      { s with phase := .idle report } := by
  induction ticks generalizing s with
  | nil =>
      obtain ⟨report, hphase⟩ := hidle
      refine ⟨report, ?_⟩
      rw [← hphase]
      rfl
  | cons i rest ih =>
      obtain ⟨report, hstep⟩ := exec_of_nothing_listed d hidle hnone
        (hticks i List.mem_cons_self)
      rw [Trace.run_cons, hstep]
      exact ih ⟨report, rfl⟩ hnone
        fun j hj => hticks j (List.mem_cons_of_mem i hj)

theorem stuck_of_nothing_listed (d : Detector D) {s : SweepState}
    (hnone : nextSubjects s.store = []) {ticks : List SweepStep}
    (hticks : ∀ i ∈ ticks, i.OfCycle) :
    (Trace.run (SweepState.exec d) s.rested ticks).store = s.store := by
  obtain ⟨report, hrun⟩ := idle_of_nothing_listed d (s := s.rested)
    ⟨_, rfl⟩ hnone hticks
  rw [hrun]
  rfl

/-- Progress is exactly that the next subject is in reach. -/
theorem makesProgress_iff (d : Detector D) (s : SweepState) :
    MakesProgress d s ↔ NextInReach s.store := by
  constructor
  · intro hprog hwait
    by_contra hfar
    have hnone : nextSubjects s.store = [] := by
      rw [nextSubjects_eq_nil_iff]
      intro cs hcs hreach
      exact hfar ⟨cs, hcs, hreach⟩
    rcases hprog hwait with hlist | ⟨tick, htick, hmoved⟩
    · exact hlist hnone
    · rw [stuck_of_nothing_listed d hnone htick] at hmoved
      exact hmoved rfl
  · intro hreach hwait
    left
    intro hnone
    obtain ⟨cs, hcs, hin⟩ := hreach hwait
    exact nextSubjects_eq_nil_iff.1 hnone cs hcs hin

/-- **Progress of the conflict sweep.** In every state a run reaches, by
steps of the cycle, of the owner and restarts in any order, the sweep makes
progress iff the next subject is in reach; so a run whose states all have it
in reach makes progress in all of them. Where it is out of reach, cycles
alone never change the store again. -/
theorem conflict_sweep_progress (d : Detector D) (steps : List SweepStep) :
    (∀ n, MakesProgress d
        (Trace.run (SweepState.exec d) .start (steps.take n)) ↔
      NextInReach
        (Trace.run (SweepState.exec d) .start (steps.take n)).store) ∧
    ∀ n, ¬ NextInReach
        (Trace.run (SweepState.exec d) .start (steps.take n)).store →
      ∀ ticks : List SweepStep, (∀ i ∈ ticks, i.OfCycle) →
        (Trace.run (SweepState.exec d)
          (Trace.run (SweepState.exec d) .start (steps.take n)).rested
          ticks).store =
          (Trace.run (SweepState.exec d) .start (steps.take n)).store := by
  refine ⟨fun n => makesProgress_iff d _, fun n hfar ticks hticks => ?_⟩
  refine stuck_of_nothing_listed d ?_ hticks
  rw [nextSubjects_eq_nil_iff]
  intro cs hcs hreach
  exact hfar fun _ => ⟨cs, hcs, hreach⟩

/-! ## A sweep that is stuck -/

/-- The steps of a note and `n` edits of it. -/
def editSteps (emb : Embedder) : Nat → List SweepStep
  | 0 => [.owner (.memory (rememberOnce emb) trivial)]
  | n + 1 => editSteps emb n ++ [.owner (.memory (editAgain emb n) trivial)]

theorem run_editSteps (d : Detector D) (emb : Embedder) (n : Nat) :
    (Trace.run (SweepState.exec d) .start (editSteps emb n)).store =
      Trace.run MemoryOp.exec .empty (editsOf emb n) := by
  induction n with
  | zero => rfl
  | succ n ih =>
      rw [editSteps, editsOf, Trace.run_append, Trace.run_append, ← ih]
      rfl

/-- The edited note waits, out of reach. -/
theorem Edited.out_of_reach {n : Nat} {st : Store}
    {olds : List (Nat × Event)} {head : Nat × Event}
    (h : Edited n st olds head) (hn : conflictScanBound ≤ n) :
    ¬ NextInReach st := by
  have hcursor : conflictCursor st = (0, 0) := by
    rw [conflictCursor, h.cursor]
    rfl
  have hwait : Waiting st ⟨head.1, 0, .note head.2.id⟩ := by
    refine ⟨h.subject_iff.mpr rfl, ?_⟩
    rw [hcursor]
    show 0 < head.1 ∨ (0 = head.1 ∧ 0 ≤ 0)
    omega
  intro hreach
  obtain ⟨cs, ⟨hsub, -⟩, hin⟩ := hreach ⟨_, hwait⟩
  rw [h.subject_iff.mp hsub, InReach, hcursor, h.rowsUpTo_head] at hin
  omega

/-- A search that finds nothing. -/
def blindDetector : Detector Nat :=
  { emb := sampleEmbedder
    search := fun _ _ _ => []
    search_sub := fun _ _ _ _ h => by cases h
    atFloor := fun _ => true
    nearer := fun x y => decide (x < y)
    epoch := fun _ => none
    resolutionExcludedRefs := [] }

/-- **Not every sweep makes progress.** A note is remembered and edited
sixty-four times: its current text waits, no scan lists it, and no cycle ever
moves the cursor. -/
theorem conflict_sweep_stalls :
    ∃ steps : List SweepStep,
      ¬ MakesProgress blindDetector
        (Trace.run (SweepState.exec blindDetector) .start steps) := by
  obtain ⟨olds, head, h⟩ := edited_run sampleEmbedder conflictScanBound
  refine ⟨editSteps sampleEmbedder conflictScanBound, ?_⟩
  rw [makesProgress_iff, run_editSteps]
  exact h.out_of_reach (Nat.le_refl _)

end AirNote
