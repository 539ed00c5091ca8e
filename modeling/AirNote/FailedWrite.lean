import AirNote.Execution

/-!
# Writes that fail

The undo row of a write is stored before its file changes and is bound to its
event afterwards. A write that fails before the row is stored leaves nothing
behind. One that fails after its file changed leaves the change. One that
fails in between leaves a row without an event on top of the rows of its
target, and since only the top row of a target can be undone, the writes
below it cannot be taken back any more.

## Main results

* `failed_write_harmless_iff` — a failed write changes nothing exactly when
  its row was not stored, or when its file was not changed and no earlier
  write to the target could be undone.
* `second_creation_buries_first` — two creations of one file: the second fails
  on the file of the first, and the first cannot be undone.
-/

namespace AirNote

open Lib.Paths Lib.FileTree

/-- The write is recorded with a row of this target. -/
def WriteTo (s : BrainState) (target : Place) (id : String) : Prop :=
  ∃ row, s.undo.find? (fun r => r.fileWrittenId == some id) = some row ∧
    row.canonicalTarget = toText target

/-- Some environment without faults undoes the write. -/
def Undoable (digest : Bytes → String) (s : BrainState) (id : String) : Prop :=
  ∃ env : WriteEnv, env.fails = none ∧
    ∃ undoEventId, (undoWrite digest s env id).1 = .ok undoEventId

/-- The failed write that led from `s` to `s'` changed nothing: the file and
the log are as they were, and so is what can be undone. -/
structure Harmless (digest : Bytes → String) (s s' : BrainState)
    (target : Place) : Prop where
  file : s'.tree.node target = s.tree.node target
  log : s'.log = s.log
  undoable : ∀ id, WriteTo s target id → Undoable digest s id →
    Undoable digest s' id

/-- The new file has an inode of its own. -/
def NewInode (s : BrainState) (env : WriteEnv) (target : Place) : Prop :=
  ∀ n, s.tree.node target = some n → ¬ (n.dev = env.dev ∧ n.ino = env.ino)

variable {digest : Bytes → String}

/-- Only the top row of a target is undone. -/
theorem top_of_undone {s : BrainState} {env : WriteEnv} {id written : String}
    (h : (undoWrite digest s env id).1 = .ok written) :
    ∃ row, s.undo.find? (fun r => r.fileWrittenId == some id) = some row ∧
      some row.rowid = topRowid s.undo row.canonicalTarget := by
  unfold undoWrite at h
  cases hrow : s.undo.find? (fun r => r.fileWrittenId == some id) with
  | none =>
      rw [hrow] at h
      cases h
  | some row =>
      refine ⟨row, rfl, ?_⟩
      simp only [hrow] at h
      by_cases htop : some row.rowid = topRowid s.undo row.canonicalTarget
      · exact htop
      · have hframe : ∃ e, checkFrame digest s row = .error e := by
          unfold checkFrame
          rw [if_pos htop]
          exact ⟨_, rfl⟩
        obtain ⟨e, he⟩ := hframe
        rw [he] at h
        cases h

/-- A new row on top of a target buries the earlier writes to it. -/
theorem buried {s : BrainState} {row : UndoRow} {target : Place} {id : String}
    (htarget : row.canonicalTarget = toText target)
    (hrowid : row.rowid = nextRowid s.undo) (hwrite : WriteTo s target id) :
    ¬ Undoable digest { s with undo := s.undo ++ [row] } id := by
  rintro ⟨env, -, written, hok⟩
  obtain ⟨old, hold, holdtarget⟩ := hwrite
  obtain ⟨found, hfound, htop⟩ := top_of_undone hok
  -- the lookup still finds the earlier row
  have hsame : found = old := by
    simp only [List.find?_append, hold, Option.some_or,
      Option.some.injEq] at hfound
    exact hfound.symm
  have hmem : old ∈ s.undo := List.mem_of_find?_eq_some hold
  have hlt : old.rowid < nextRowid s.undo := rowid_lt_nextRowid hmem
  rw [hsame, holdtarget] at htop
  have hmax := (topRowid_eq_some_iff.1 htop.symm).2 row (by simp) htarget
  omega

/-- An executed change is one. -/
theorem node_changed {s : BrainState} {env : WriteEnv} {gated : GatedProposal}
    {ack : Bool} {plan : WritePlan}
    (h : GatePassed digest s env gated ack plan)
    (hinode : NewInode s env plan.target)
    (hdone : ¬ FileRefused s.tree env gated.proposal.op plan.target) :
    resultNode env gated.proposal ≠ s.tree.node plan.target := by
  unfold resultNode
  cases hop : gated.proposal.op with
  | create =>
      have habsent := (not_or.mp hdone).2
      intro heq
      apply habsent
      rw [← heq]
      exact ⟨hop, rfl⟩
  | edit =>
      intro heq
      exact hinode _ heq.symm ⟨rfl, rfl⟩
  | delete =>
      obtain ⟨n, current, hn, -⟩ :=
        baseGuard_ok h.guarded (by rw [hop]; decide)
      rw [hn]
      intro heq
      cases heq

/-- Recording a write does not touch the files. -/
theorem recordWrite_tree (s : BrainState) (env : WriteEnv)
    {gated : GatedProposal} {plan : WritePlan}
    {undoOf resolvesProposal : Option String} {ev : Event}
    (hev : fileWrittenEvent digest gated plan undoOf resolvesProposal =
      .ok ev) :
    (recordWrite digest s env gated plan undoOf resolvesProposal).2.tree =
      s.tree := by
  rcases recordWrite_cases s env hev with
    ⟨e, h⟩ | ⟨log', id, -, ⟨-, h⟩ | ⟨-, e, h⟩ | ⟨-, h⟩⟩
  · rw [h]
  · rw [h]
  · rw [h]
  · rw [h]

/-- A failed write changes nothing exactly when its row was not stored, or
when its file was not changed and no earlier write to the target could be
undone. -/
theorem failed_write_harmless_iff {s s' : BrainState} {env : WriteEnv}
    {gated : GatedProposal} {ack : Bool} {plan : WritePlan}
    {e : BossclawError}
    (hgate : executeGate digest s env gated ack = .ok plan)
    (hfail : executeWrite digest s env gated ack = (.error e, s'))
    (hinode : NewInode s env plan.target) :
    Harmless digest s s' plan.target ↔
      NothingStored s env ∨
        (FileRefused s.tree env gated.proposal.op plan.target ∧
          ∀ id, WriteTo s plan.target id → ¬ Undoable digest s id) := by
  have hpassed := (executeGate_ok_iff digest).mp hgate
  unfold executeWrite at hfail
  rcases executeForward_cases hgate none with
    ⟨hstored, e', hnothing⟩ | ⟨hstored, recordHash, -,
      ⟨hrefused, e', horphan⟩ | ⟨hdone, hrecord⟩⟩
  · -- the row was not stored
    have hsame : s = s' := by
      rw [hnothing] at hfail
      exact (Prod.mk.inj hfail).2
    constructor
    · intro _
      exact .inl hstored
    · intro _
      rw [← hsame]
      exact
        { file := rfl, log := rfl, undoable := fun _ _ hundoable => hundoable }
  · -- the row was stored and the file was not changed
    have hsame : { s with
        undo := s.undo ++ [undoRowOf s env gated plan recordHash] } = s' := by
      rw [horphan] at hfail
      exact (Prod.mk.inj hfail).2
    have hburied : ∀ id, WriteTo s plan.target id →
        ¬ Undoable digest s' id := by
      intro id hwrite
      rw [← hsame]
      exact buried rfl rfl hwrite
    constructor
    · intro h
      refine .inr ⟨hrefused, ?_⟩
      intro id hwrite hundoable
      exact hburied id hwrite (h.undoable id hwrite hundoable)
    · intro h
      have hnone := (h.resolve_left hstored).2
      exact
        { file := by rw [← hsame], log := by rw [← hsame],
          undoable := fun id hwrite hundoable =>
            absurd hundoable (hnone id hwrite) }
  · -- the file was changed
    obtain ⟨ev, hev, -⟩ := fileWrittenEvent_of_passed hpassed none none
    have htree : s'.tree =
        s.tree.put plan.target (resultNode env gated.proposal) := by
      have hrest := recordWrite_tree
        (changedState s env gated plan recordHash) env hev
      rw [← hrecord, hfail] at hrest
      exact hrest
    constructor
    · intro h
      have hfile := h.file
      rw [htree, node_put_self] at hfile
      exact absurd hfile (node_changed hpassed hinode hdone)
    · intro h
      exact absurd (h.resolve_left hstored).1 hdone

/-! ## Two creations of one file -/

namespace TwoCreations

def folder : Name := ⟨"a", isName_a⟩
def file : Name := ⟨"f", isName_f⟩

def start : BrainState :=
  { log := [{ Event.draft memoryEventType (.obj []) none with id := "note" }]
    writeGrants := [⟨"/a", "", false⟩]
    mandates := []
    files := []
    undo := []
    tree :=
      { cwd := []
        node := fun p =>
          if p = [folder] then some ⟨.directory, 1, 1, 0⟩ else none } }

def env (tag : String) (ino : Nat) : WriteEnv :=
  { mint := .plain ("written " ++ tag), undoId := "undo " ++ tag, now := ""
    dev := 1, ino := ino, fails := none }

/-- The write, as it is judged before either execution. -/
def gated : GatedProposal :=
  proposeWrite (fun _ => "") start
    { target := absolute [folder, file], newContent := [], op := .create,
      sourceEventIds := ["note"], rationale := "" }

/-- After the first creation. -/
def created : BrainState :=
  (executeWrite (fun _ => "") start (env "1" 2) gated false).2

/-- After the second. -/
def failed : BrainState :=
  (executeWrite (fun _ => "") created (env "2" 3) gated false).2

end TwoCreations

open TwoCreations in
/-- The second creation fails on the file of the first, and the first cannot
be undone any more. -/
theorem second_creation_buries_first :
    (∃ plan, executeGate (fun _ => "") created (env "2" 3) gated false =
      .ok plan) ∧
    (∃ e, (executeWrite (fun _ => "") created (env "2" 3) gated false).1 =
      .error e) ∧
    WriteTo created [folder, file] "written 1" ∧
    Undoable (fun _ => "") created "written 1" ∧
    ¬ Undoable (fun _ => "") failed "written 1" := by
  have hwrite : WriteTo created [folder, file] "written 1" :=
    ⟨_, rfl, by decide +kernel⟩
  refine ⟨⟨_, rfl⟩, ⟨_, rfl⟩, hwrite, ⟨env "3" 4, rfl, "written 3", ?_⟩, ?_⟩
  · rfl
  · exact buried (by decide +kernel) (by decide +kernel) hwrite

open TwoCreations in
theorem failed_write_harmless_iff_sample :
    ¬ Harmless (fun _ => "") created failed [folder, file] := by
  have hgate : executeGate (fun _ => "") created (env "2" 3) gated false =
      .ok ⟨[folder], file, none, none, ["note"]⟩ := by
    rfl
  have hiff := failed_write_harmless_iff hgate rfl (by
    intro n hn
    cases hn
    decide)
  intro h
  have hfresh : ∀ r ∈ created.undo, r.undoId ≠ "undo 2" := by
    decide +kernel
  rcases hiff.mp h with hstored | ⟨-, hnone⟩
  · rcases hstored with hfail | ⟨r, hr, hid⟩
    · cases hfail
    · exact hfresh r hr hid
  · exact hnone "written 1" ⟨_, rfl, by decide +kernel⟩
      ⟨env "3" 4, rfl, "written 3", rfl⟩

end AirNote
