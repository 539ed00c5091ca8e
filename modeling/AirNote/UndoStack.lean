import AirNote.Execution
import AirNote.Lib.Trace
import Mathlib.Data.List.Perm.Subperm

/-!
# Undo takes the writes back in reverse

The rows of a target are a stack. A forward write pushes one, with the bytes
the file had and the identity it has now; an undo checks the top row against
the file, writes the inverse, pops the row, and hands the identity of the file
it left to the row below.

Two things outside the stack decide whether a row survives and whether its
inverse is allowed. The rows beyond the sixteen newest are deleted, by their
time before their row id, so a clock that was set back makes the newest write
the first to go. And taking back a deletion creates a file, which is judged by
the grant on the folder, where the deletion was judged by the grant on the
file.

## Main results

* `undo_unwinds` — after at most sixteen writes to one target, with a clock
  that does not run backwards and deletions in a granted folder only, each
  undo succeeds and restores what the target held before its write.
* `granted_file_deleted`, `clock_set_back` — each condition is needed.
-/

namespace AirNote

open Lib Lib.Paths Lib.FileTree

variable {digest : Bytes → String}

/-! ## The rows -/

/-- The first row is stored before the second: the row ids ascend, and no
undo id and no event stands in two rows. -/
structure UndoRow.Before (r r' : UndoRow) : Prop where
  rowid : r.rowid < r'.rowid
  undoId : r.undoId ≠ r'.undoId
  written : ∀ id, r.fileWrittenId = some id → r'.fileWrittenId ≠ some id

/-- The rows of the store are in order, and their events are in the log. -/
structure RowsOk (log : EventLog) (rows : List UndoRow) : Prop where
  before : rows.Pairwise UndoRow.Before
  logged : ∀ r ∈ rows, ∀ id, r.fileWrittenId = some id →
    ∃ e ∈ log, e.id = id

theorem rowsOk_nil (log : EventLog) : RowsOk log [] :=
  { before := .nil, logged := fun _ hr => by cases hr }

theorem RowsOk.grow {log : EventLog} {rows : List UndoRow}
    (h : RowsOk log rows) (suffix : EventLog) : RowsOk (log ++ suffix) rows := by
  refine { before := h.before, logged := ?_ }
  intro r hr id hid
  obtain ⟨e, he, heq⟩ := h.logged r hr id hid
  exact ⟨e, List.mem_append_left suffix he, heq⟩

theorem RowsOk.filter {log : EventLog} {rows : List UndoRow}
    (h : RowsOk log rows) (keep : UndoRow → Bool) :
    RowsOk log (rows.filter keep) := by
  refine { before := h.before.filter keep, logged := ?_ }
  intro r hr
  exact h.logged r (List.mem_of_mem_filter hr)

/-- Changing anything but the three identifiers keeps the order. -/
theorem RowsOk.map {log : EventLog} {rows : List UndoRow}
    (h : RowsOk log rows) {f : UndoRow → UndoRow}
    (hrowid : ∀ r, (f r).rowid = r.rowid)
    (hundoId : ∀ r, (f r).undoId = r.undoId)
    (hwritten : ∀ r, (f r).fileWrittenId = r.fileWrittenId) :
    RowsOk log (rows.map f) := by
  refine { before := ?_, logged := ?_ }
  · refine h.before.map f ?_
    intro a b hab
    refine { rowid := ?_, undoId := ?_, written := ?_ }
    · rw [hrowid, hrowid]
      exact hab.rowid
    · rw [hundoId, hundoId]
      exact hab.undoId
    · rw [hwritten, hwritten]
      exact hab.written
  · intro r hr id hid
    obtain ⟨x, hx, rfl⟩ := List.mem_map.mp hr
    rw [hwritten] at hid
    exact h.logged x hx id hid

/-- A new row, without an event or with one the old rows do not have. -/
theorem RowsOk.push {log : EventLog} {rows : List UndoRow} {row : UndoRow}
    (h : RowsOk log rows) (hrowid : row.rowid = nextRowid rows)
    (hundoId : ∀ r ∈ rows, r.undoId ≠ row.undoId)
    (hfresh : ∀ r ∈ rows, ∀ id, r.fileWrittenId = some id →
      row.fileWrittenId ≠ some id)
    (hlogged : ∀ id, row.fileWrittenId = some id → ∃ e ∈ log, e.id = id) :
    RowsOk log (rows ++ [row]) := by
  refine { before := ?_, logged := ?_ }
  · rw [List.pairwise_append]
    refine ⟨h.before, List.pairwise_singleton _ _, ?_⟩
    intro r hr r' hr'
    rw [List.mem_singleton.mp hr']
    refine
      { rowid := ?_, undoId := hundoId r hr, written := hfresh r hr }
    rw [hrowid]
    exact rowid_lt_nextRowid hr
  · intro r hr id hid
    rcases List.mem_append.mp hr with hr | hr
    · exact h.logged r hr id hid
    · rw [List.mem_singleton.mp hr] at hid
      exact hlogged id hid

/-- The row a bind completes is the one just pushed. -/
theorem bindAndGcUndo_push {rows : List UndoRow} {row : UndoRow}
    (hundoId : ∀ r ∈ rows, r.undoId ≠ row.undoId)
    (id target : String) (post : Option FileId) :
    bindAndGcUndo (rows ++ [row]) row.undoId id target post =
      gcUndo (rows ++ [{ row with fileWrittenId := some id, post := post }])
        target := by
  have hold : rows.map (fun r => if r.undoId = row.undoId then
      { r with fileWrittenId := some id, post := post } else r) = rows := by
    rw [List.map_congr_left (g := fun r => r)]
    · exact List.map_id' rows
    · intro r hr
      rw [if_neg (hundoId r hr)]
  unfold bindAndGcUndo
  rw [List.map_append, hold]
  simp

/-! ## What an execution does to the rows -/

theorem logged_of_append {m : Mint} {log log' : EventLog} {ev : Event}
    {id : String} (h : append m log ev = .ok (log', id)) :
    (∃ suffix, log' = log ++ suffix) ∧ (∃ e ∈ log', e.id = id) ∧
      ∀ e ∈ log, e.id ≠ id := by
  obtain ⟨hid, stored, hstored, hlog⟩ := append_ok h
  refine ⟨⟨[stored], hlog⟩, ⟨stored, ?_, ?_⟩, ?_⟩
  · rw [hlog]
    exact List.mem_append_right log (List.mem_singleton.mpr rfl)
  · rw [hstored.id_eq, hid]
  · rw [hid]
    exact hstored.fresh

/-- The row of a write, once its event is known. -/
def boundRow (s : BrainState) (env : WriteEnv) (gated : GatedProposal)
    (plan : WritePlan) (recordHash id : String) : UndoRow :=
  { undoRowOf s env gated plan recordHash with
    fileWrittenId := some id
    post := (resultNode env gated.proposal).map fileId }

theorem postIdentity_put (t : Tree) (env : WriteEnv)
    (proposal : WriteProposal) (target : Place) :
    postIdentity (t.put target (resultNode env proposal)) proposal.op target =
      (resultNode env proposal).map fileId := by
  unfold postIdentity
  rw [node_put_self]
  cases hop : proposal.op with
  | create => rfl
  | edit => rfl
  | delete => simp [resultNode, hop]

theorem boundRows_changedState {s : BrainState} {env : WriteEnv}
    {gated : GatedProposal} {plan : WritePlan} {recordHash : String}
    (hstored : ¬ NothingStored s env) (id : String) :
    boundRows (changedState s env gated plan recordHash)
        (changedState s env gated plan recordHash).tree env gated plan id =
      gcUndo (s.undo ++ [boundRow s env gated plan recordHash id])
        (toText plan.target) := by
  have hundoId : ∀ r ∈ s.undo,
      r.undoId ≠ (undoRowOf s env gated plan recordHash).undoId := by
    intro r hr heq
    exact (not_or.mp hstored).2 ⟨r, hr, heq⟩
  unfold boundRows changedState
  dsimp only
  rw [postIdentity_put]
  exact bindAndGcUndo_push hundoId id _ _

variable (digest) in
/-- The rows stay in order through a forward execution. -/
theorem rowsOk_executeForward {s : BrainState} (h : RowsOk s.log s.undo)
    (env : WriteEnv) (gated : GatedProposal)
    (resolvesProposal : Option String) (ack : Bool) :
    RowsOk (executeWriteInner digest s env gated none resolvesProposal ack).2.log
      (executeWriteInner digest s env gated none resolvesProposal
        ack).2.undo := by
  cases hgate : executeGate digest s env gated ack with
  | error e =>
      simp only [executeWriteInner, hgate]
      exact h
  | ok plan =>
      rcases executeForward_cases hgate resolvesProposal with
        ⟨-, e, hrun⟩ | ⟨hstored, recordHash, -,
          ⟨-, e, hrun⟩ | ⟨-, hrun⟩⟩
      · rw [hrun]
        exact h
      · rw [hrun]
        exact h.push rfl
          (fun r hr heq => (not_or.mp hstored).2 ⟨r, hr, heq⟩)
          (fun _ _ _ _ hnone => by cases hnone)
          (fun _ hnone => by cases hnone)
      · have hpushed : RowsOk s.log
            (s.undo ++ [undoRowOf s env gated plan recordHash]) :=
          h.push rfl
            (fun r hr heq => (not_or.mp hstored).2 ⟨r, hr, heq⟩)
            (fun _ _ _ _ hnone => by cases hnone)
            (fun _ hnone => by cases hnone)
        obtain ⟨ev, hev, -⟩ := fileWrittenEvent_of_passed
          ((executeGate_ok_iff digest).mp hgate) none resolvesProposal
        rw [hrun]
        rcases recordWrite_cases
            (changedState s env gated plan recordHash) env hev with
          ⟨e, hrec⟩ | ⟨log', id, happend, ⟨hsome, -⟩ | ⟨-, e, hrec⟩ |
            ⟨-, hrec⟩⟩
        · rw [hrec]
          exact hpushed
        · cases hsome
        · obtain ⟨⟨suffix, hsuffix⟩, -, -⟩ := logged_of_append happend
          rw [hrec, hsuffix]
          exact hpushed.grow suffix
        · obtain ⟨⟨suffix, hsuffix⟩, hin, hnew⟩ := logged_of_append happend
          rw [hrec]
          show RowsOk log' (boundRows _ _ env gated plan id)
          rw [boundRows_changedState hstored]
          refine RowsOk.filter (RowsOk.push (hsuffix ▸ h.grow suffix) rfl
            (fun r hr heq => (not_or.mp hstored).2 ⟨r, hr, heq⟩) ?_ ?_) _
          · intro r hr written hwritten heq
            obtain ⟨e, he, hid⟩ := h.logged r hr written hwritten
            have hsame : id = written := Option.some.inj heq
            exact hnew e he (by rw [hid, hsame])
          · intro written hwritten
            rw [← Option.some.inj hwritten]
            exact hin

/-- The execution of an undo keeps the rows and only adds to the log. -/
theorem executeUndo_frame {s s' : BrainState} {env : WriteEnv}
    {gated : GatedProposal} {undone : String} {ack : Bool}
    {r : Except BossclawError String}
    (h : executeWriteInner digest s env gated (some undone) none ack =
      (r, s')) :
    s'.undo = s.undo ∧ ∃ suffix, s'.log = s.log ++ suffix := by
  cases hgate : executeGate digest s env gated ack with
  | error e =>
      simp only [executeWriteInner, hgate] at h
      cases h
      exact ⟨rfl, [], (List.append_nil _).symm⟩
  | ok plan =>
      rcases executeUndo_cases hgate undone none with
        ⟨-, e, hrun⟩ | ⟨-, hrun⟩
      · rw [hrun] at h
        cases h
        exact ⟨rfl, [], (List.append_nil _).symm⟩
      · obtain ⟨ev, hev, -⟩ := fileWrittenEvent_of_passed
          ((executeGate_ok_iff digest).mp hgate) (some undone) none
        rw [hrun] at h
        rcases recordWrite_cases { s with
            tree := s.tree.put plan.target
              (resultNode env gated.proposal) } env hev with
          ⟨e, hrec⟩ | ⟨log', id, happend, ⟨-, hrec⟩ | ⟨hnone, -⟩ |
            ⟨hnone, -⟩⟩
        · rw [hrec] at h
          cases h
          exact ⟨rfl, [], (List.append_nil _).symm⟩
        · rw [hrec] at h
          cases h
          obtain ⟨⟨suffix, hsuffix⟩, -⟩ := logged_of_append happend
          exact ⟨rfl, suffix, hsuffix⟩
        · cases hnone
        · cases hnone

theorem rowsOk_pop {log : EventLog} {rows : List UndoRow}
    (h : RowsOk log rows) (undoId target : String) (post : Option FileId) :
    RowsOk log (popAndHandoffUndo rows undoId target post) := by
  unfold popAndHandoffUndo
  refine (h.filter _).map ?_ ?_ ?_
  all_goals
    intro r
    split
    · rfl
    · rfl

variable (digest) in
/-- The rows stay in order through an undo. -/
theorem rowsOk_undoWrite {s : BrainState} (h : RowsOk s.log s.undo)
    (env : WriteEnv) (id : String) :
    RowsOk (undoWrite digest s env id).2.log
      (undoWrite digest s env id).2.undo := by
  unfold undoWrite
  split
  · exact h
  · split
    · exact h
    · exact h
    · dsimp only
      split
      · exact h
      · split
        · next hrun =>
            obtain ⟨hundo, suffix, hlog⟩ := executeUndo_frame hrun
            rw [hundo, hlog]
            exact h.grow suffix
        · next hrun =>
            obtain ⟨hundo, suffix, hlog⟩ := executeUndo_frame hrun
            split
            · rw [hundo, hlog]
              exact h.grow suffix
            · dsimp only
              rw [hundo, hlog]
              exact rowsOk_pop (h.grow suffix) _ _ _

/-! ## Reachable states -/

/-- What happens to a brain and its files: a forward write, an undo, any
other append, a rebuild of the tables, and a change of the files by others. -/
inductive BrainStep where
  | write (env : WriteEnv) (gated : GatedProposal)
      (resolvesProposal : Option String) (acknowledgedLoud : Bool)
  | undo (env : WriteEnv) (fileWrittenId : String)
  | log (call : AppendCall)
  | tables (writeGrants : List Grant) (mandates : List Mandate)
      (files : List FileRecord)
  | disk (tree : Tree)

/-- The state after a step. -/
def BrainStep.exec (digest : Bytes → String) (s : BrainState) :
    BrainStep → BrainState
  | .write env gated resolvesProposal ack =>
      (executeWriteInner digest s env gated none resolvesProposal ack).2
  | .undo env id => (undoWrite digest s env id).2
  | .log call => { s with log := call.exec s.log }
  | .tables writeGrants mandates files =>
      { s with writeGrants := writeGrants, mandates := mandates,
               files := files }
  | .disk tree => { s with tree := tree }

/-- A new brain. -/
def BrainState.empty (tree : Tree) : BrainState :=
  { log := [], writeGrants := [], mandates := [], files := [], undo := [],
    tree := tree }

/-- The state is that of a run from a new brain. -/
def BrainState.Reachable (digest : Bytes → String) (s : BrainState) : Prop :=
  ∃ tree steps, s = Trace.run (BrainStep.exec digest) (.empty tree) steps

theorem rowsOk_exec (s : BrainState) (step : BrainStep)
    (h : RowsOk s.log s.undo) :
    RowsOk (step.exec digest s).log (step.exec digest s).undo := by
  cases step with
  | write env gated resolvesProposal ack =>
      exact rowsOk_executeForward digest h env gated resolvesProposal ack
  | undo env id => exact rowsOk_undoWrite digest h env id
  | log call =>
      show RowsOk (call.exec s.log) s.undo
      rcases call.exec_transacts s.log with hsame | hlogged
      · rw [hsame]
        exact h
      · obtain ⟨suffix, hsuffix⟩ := hlogged.suffix
        rw [hsuffix]
        exact h.grow suffix
  | tables writeGrants mandates files => exact h
  | disk tree => exact h

theorem rowsOk_of_reachable {s : BrainState} (h : s.Reachable digest) :
    RowsOk s.log s.undo := by
  obtain ⟨tree, steps, rfl⟩ := h
  exact Trace.run_inv (fun s : BrainState => RowsOk s.log s.undo) rowsOk_exec
    (rowsOk_nil []) steps

/-! ## The stack of a target -/

/-- The rows of a target, oldest first. -/
def rowsOf (rows : List UndoRow) (target : String) : List UndoRow :=
  rows.filter fun r => r.canonicalTarget == target

/-- The row of the write that left the target as it is: its inverse applies,
is granted and restores the bytes that were there. -/
structure Frame (digest : Bytes → String) (s : BrainState) (d : Place)
    (n : Name) (held : Option Bytes) (r : UndoRow) : Prop where
  op : ∃ op : WriteOp, r.op = op.str ∧ Fits op r.preBytes ∧
    (op = .delete ↔ held = none) ∧
    (op = .delete → underWriteGrant s d = true)
  granted : underWriteGrant s (d ++ [n]) = true
  hash : ∀ bytes, r.preBytes = some bytes → digest bytes = r.baseContentHash

/-- The rows of the writes that came one after the other, newest first. -/
def Frames (digest : Bytes → String) (s : BrainState) (d : Place) (n : Name) :
    Option Bytes → List UndoRow → Prop
  | _, [] => True
  | held, r :: rest =>
      Frame digest s d n held r ∧ Frames digest s d n r.preBytes rest

/-- The newest rows of the target are those of the writes that led to what it
holds, and the top one knows the file. -/
structure Stacked (digest : Bytes → String) (s : BrainState) (d : Place)
    (n : Name) (rows : List UndoRow) : Prop where
  folder : s.tree.isRealDir d = true
  rows_eq : ∃ older, rowsOf s.undo (toText (d ++ [n])) = older ++ rows.reverse
  frames : ∃ held, Holds s.tree (d ++ [n]) held ∧
    Frames digest s d n held rows
  post : ∀ r ∈ rows.head?, r.post = (s.tree.node (d ++ [n])).map fileId

/-- No other row of the target counts as newer than one of these. -/
def Newest (s : BrainState) (target : String) (rows : List UndoRow) : Prop :=
  ∀ r ∈ rows, ∀ r' ∈ s.undo, r'.canonicalTarget = target →
    isNewer r' r = true → r' ∈ rows

/-- What a place holds is one thing. -/
theorem Holds.unique {t : Tree} {x : Place} {held held' : Option Bytes}
    (h : Holds t x held) (h' : Holds t x held') : held = held' := by
  unfold Holds at h h'
  rw [h] at h'
  have hinj : Function.Injective Kind.regular := by
    intro a b hab
    cases hab
    rfl
  exact Option.map_injective hinj h'

theorem frame_congr {s s' : BrainState} (h : s'.writeGrants = s.writeGrants)
    {d : Place} {n : Name} {held : Option Bytes} {r : UndoRow}
    (hframe : Frame digest s d n held r) : Frame digest s' d n held r := by
  have hunder : ∀ x, underWriteGrant s' x = underWriteGrant s x := by
    intro x
    rw [underWriteGrant, underWriteGrant, h]
  obtain ⟨op, hop, hfit, hheld, hfolder⟩ := hframe.op
  refine { op := ⟨op, hop, hfit, hheld, ?_⟩, granted := ?_,
           hash := hframe.hash }
  · intro hdelete
    rw [hunder]
    exact hfolder hdelete
  · rw [hunder]
    exact hframe.granted

theorem frames_congr {s s' : BrainState} (h : s'.writeGrants = s.writeGrants)
    {d : Place} {n : Name} {rows : List UndoRow} :
    ∀ {held : Option Bytes}, Frames digest s d n held rows →
      Frames digest s' d n held rows := by
  induction rows with
  | nil => exact fun _ => trivial
  | cons r rest ih =>
      intro held hframes
      exact ⟨frame_congr h hframes.1, ih hframes.2⟩

/-! ## A forward write pushes a row -/

section Forward

variable {s s' : BrainState} {env : WriteEnv} {gated : GatedProposal}
  {resolvesProposal : Option String} {ack : Bool} {plan : WritePlan}
  {d : Place} {n : Name} {id : String}

/-- What a forward write that succeeded found at its target. -/
theorem holds_of_passed (h : GatePassed digest s env gated ack plan)
    (hdone : ¬ FileRefused s.tree env gated.proposal.op plan.target) :
    Holds s.tree plan.target plan.preBytes ∧
      Fits gated.proposal.op plan.preBytes := by
  by_cases hop : gated.proposal.op = .create
  · have hpre : plan.preBytes = none :=
      (Prod.mk.inj (baseGuard_create h.guarded hop)).1
    rw [hpre, hop]
    refine ⟨holds_none.2 ?_, rfl⟩
    have habsent := (not_or.mp hdone).2
    rw [← Option.not_isSome_iff_eq_none]
    intro hsome
    exact habsent ⟨hop, hsome⟩
  · obtain ⟨node, current, hnode, hkind, -, -, hbase⟩ :=
      baseGuard_ok h.guarded hop
    have hpre : plan.preBytes = some current := (Prod.mk.inj hbase).1
    rw [hpre]
    refine ⟨holds_some.2 ⟨node, hnode, hkind⟩, ?_⟩
    revert hop
    cases gated.proposal.op with
    | create => intro hop; exact absurd rfl hop
    | edit => intro _; exact Option.some_ne_none current
    | delete => intro _; exact Option.some_ne_none current

/-- What it left there. -/
def resultBytes (p : WriteProposal) : Option Bytes :=
  match p.op with
  | .delete => none
  | .create | .edit => some p.newContent

theorem holds_put_result (t : Tree) (x : Place) (env : WriteEnv)
    (p : WriteProposal) :
    Holds (t.put x (resultNode env p)) x (resultBytes p) := by
  unfold Holds resultNode resultBytes
  rw [node_put_self]
  cases p.op with
  | create => rfl
  | edit => rfl
  | delete => rfl

/-- The grants a passed gate has seen. -/
theorem granted_of_passed (h : GatePassed digest s env gated ack plan)
    (hholds : Holds s.tree plan.target plan.preBytes) :
    underWriteGrant s plan.target = true := by
  have hallowed := isWriteAllowed_of_recheck h.granted
  have hd := isRealDir_of_openDir h.opened
  unfold WritePlan.target at hallowed hholds ⊢
  cases hpre : plan.preBytes with
  | none =>
      rw [hpre] at hholds
      rw [isWriteAllowed_absent hd hholds] at hallowed
      exact underWriteGrant_concat (Except.ok.inj hallowed)
  | some content =>
      rw [hpre] at hholds
      rw [isWriteAllowed_present hd hholds] at hallowed
      exact Except.ok.inj hallowed

/-- A successful forward write, in one piece. -/
theorem executeForward_ok (hgate : executeGate digest s env gated ack =
      .ok plan)
    (h : executeWriteInner digest s env gated none resolvesProposal ack =
      (.ok id, s')) :
    ¬ NothingStored s env ∧
      ¬ FileRefused s.tree env gated.proposal.op plan.target ∧
      ∃ recordHash log', undoRecordHash digest gated = .ok recordHash ∧
        s' = { s with
          log := log'
          undo := gcUndo (s.undo ++
            [boundRow s env gated plan recordHash id]) (toText plan.target)
          tree := s.tree.put plan.target
            (resultNode env gated.proposal) } := by
  rcases executeForward_cases hgate resolvesProposal with
    ⟨-, e, hrun⟩ | ⟨hstored, recordHash, hhash, ⟨-, e, hrun⟩ | ⟨hdone, hrun⟩⟩
  · rw [hrun] at h
    cases h
  · rw [hrun] at h
    cases h
  · refine ⟨hstored, hdone, recordHash, ?_⟩
    obtain ⟨ev, hev, -⟩ := fileWrittenEvent_of_passed
      ((executeGate_ok_iff digest).mp hgate) none resolvesProposal
    rw [hrun] at h
    rcases recordWrite_cases
        (changedState s env gated plan recordHash) env hev with
      ⟨e, hrec⟩ | ⟨log', id', -, ⟨hsome, -⟩ | ⟨-, e, hrec⟩ | ⟨-, hrec⟩⟩
    · rw [hrec] at h
      cases h
    · cases hsome
    · rw [hrec] at h
      cases h
    · rw [hrec, boundRows_changedState hstored] at h
      cases h
      exact ⟨log', hhash, rfl⟩

/-! ### The collection of old rows -/

theorem isNewer_irrefl (r : UndoRow) : isNewer r r = false := by
  unfold isNewer
  simp

theorem nodup_of_before {rows : List UndoRow}
    (h : rows.Pairwise UndoRow.Before) : rows.Nodup := by
  refine h.imp ?_
  intro a b hab heq
  have hlt := hab.rowid
  rw [heq] at hlt
  omega

/-- At most sixteen rows that are the newest of their target survive. -/
theorem kept_of_newest {rows top : List UndoRow} {target : String}
    (hrows : rows.Nodup) (hlen : top.length ≤ undoDepth)
    (hnewest : ∀ r ∈ top, ∀ r' ∈ rows, r'.canonicalTarget = target →
      isNewer r' r = true → r' ∈ top) {r : UndoRow} (hr : r ∈ top) :
    (rows.filter fun r' => r'.canonicalTarget == target &&
      isNewer r' r).length < undoDepth := by
  have hnodup : (r :: rows.filter fun r' => r'.canonicalTarget == target &&
      isNewer r' r).Nodup := by
    refine List.nodup_cons.mpr ⟨?_, hrows.filter _⟩
    intro hmem
    have hboth := (List.mem_filter.mp hmem).2
    rw [isNewer_irrefl, Bool.and_false] at hboth
    cases hboth
  have hsubset : (r :: rows.filter fun r' => r'.canonicalTarget == target &&
      isNewer r' r) ⊆ top := by
    intro x hx
    rcases List.mem_cons.mp hx with rfl | hmem
    · exact hr
    · obtain ⟨hxrows, hboth⟩ := List.mem_filter.mp hmem
      rw [Bool.and_eq_true, beq_iff_eq] at hboth
      exact hnewest r hr x hxrows hboth.1 hboth.2
  have hle := (List.subperm_of_subset hnodup hsubset).length_le
  rw [List.length_cons] at hle
  omega

/-- Collecting keeps the newest rows at the end of their target. -/
theorem rowsOf_gcUndo {rows older top : List UndoRow} {target : String}
    (hrows : rows.Nodup) (hlen : top.length ≤ undoDepth)
    (hnewest : ∀ r ∈ top, ∀ r' ∈ rows, r'.canonicalTarget = target →
      isNewer r' r = true → r' ∈ top)
    (heq : rowsOf rows target = older ++ top.reverse) :
    ∃ older', rowsOf (gcUndo rows target) target = older' ++ top.reverse := by
  have hcomm : rowsOf (gcUndo rows target) target =
      (rowsOf rows target).filter fun r => r.canonicalTarget != target ||
        decide ((rows.filter fun r' => r'.canonicalTarget == target &&
          isNewer r' r).length < undoDepth) := by
    unfold rowsOf gcUndo
    rw [List.filter_filter, List.filter_filter]
    refine List.filter_congr ?_
    intro r _
    exact Bool.and_comm _ _
  rw [hcomm, heq, List.filter_append]
  refine ⟨_, congrArg _ (List.filter_eq_self.mpr ?_)⟩
  intro r hr
  have hkept := kept_of_newest hrows hlen hnewest (List.mem_reverse.mp hr)
  rw [decide_eq_true hkept, Bool.or_true]

/-! ### The step -/

/-- The clock has not run back behind a row of the target. -/
def ClockForward (s : BrainState) (env : WriteEnv) (target : String) : Prop :=
  ∀ r ∈ s.undo, r.canonicalTarget = target → ¬ env.now < r.createdAt

/-- What a deletion takes away may be put back. -/
def FolderGranted (s : BrainState) (p : WriteProposal) (d : Place) : Prop :=
  p.op = .delete → underWriteGrant s d = true

/-- One forward write that succeeded pushes one row. -/
theorem stacked_forward {rows : List UndoRow} (hrows : RowsOk s.log s.undo)
    (h : Stacked digest s d n rows)
    (hnewest : Newest s (toText (d ++ [n])) rows)
    (hlen : rows.length < undoDepth)
    (hgate : executeGate digest s env gated ack = .ok plan)
    (htarget : plan.target = d ++ [n])
    (hrun : executeWriteInner digest s env gated none resolvesProposal ack =
      (.ok id, s'))
    (hclock : ClockForward s env (toText (d ++ [n])))
    (hfolder : FolderGranted s gated.proposal d) :
    ∃ row, row.fileWrittenId = some id ∧
      Holds s.tree (d ++ [n]) row.preBytes ∧
      Stacked digest s' d n (row :: rows) ∧
      Newest s' (toText (d ++ [n])) (row :: rows) := by
  have hpassed := (executeGate_ok_iff digest).mp hgate
  have hrows' : RowsOk s'.log s'.undo := by
    have hkeep := rowsOk_executeForward digest hrows env gated
      resolvesProposal ack
    rw [hrun] at hkeep
    exact hkeep
  obtain ⟨hstored, hdone, recordHash, log', hhash, hs'⟩ :=
    executeForward_ok hgate hrun
  obtain ⟨hholds, hfit⟩ := holds_of_passed hpassed hdone
  have hgranted := granted_of_passed hpassed hholds
  rw [htarget] at hs' hholds hgranted
  obtain ⟨older, hrowsOf⟩ := h.rows_eq
  obtain ⟨held, hheld, hframes⟩ := h.frames
  -- the row of this write
  let row := boundRow s env gated plan recordHash id
  have hrowtarget : row.canonicalTarget = toText (d ++ [n]) := by
    show toText plan.target = toText (d ++ [n])
    rw [htarget]
  have hpushed : (s.undo ++ [row]).Nodup := by
    rw [List.nodup_append]
    refine ⟨nodup_of_before hrows.before, List.pairwise_singleton _ row, ?_⟩
    intro a ha b hb heq
    have hlt := rowid_lt_nextRowid ha
    rw [heq, List.mem_singleton.mp hb] at hlt
    exact Nat.lt_irrefl _ hlt
  have hnew : ∀ r ∈ row :: rows, ∀ r' ∈ s.undo ++ [row],
      r'.canonicalTarget = toText (d ++ [n]) → isNewer r' r = true →
        r' ∈ row :: rows := by
    intro r hr r' hr' hr'target hnewer
    rcases List.mem_append.mp hr' with hold | hself
    · rcases List.mem_cons.mp hr with rfl | hr
      · -- an old row is not newer than the new one
        have hlt : r'.rowid < row.rowid := rowid_lt_nextRowid hold
        have htime : ¬ row.createdAt < r'.createdAt :=
          hclock r' hold hr'target
        have hid : ¬ row.rowid < r'.rowid := by omega
        unfold isNewer at hnewer
        rw [decide_eq_false htime, decide_eq_false hid] at hnewer
        simp at hnewer
      · exact List.mem_cons_of_mem row
          (hnewest r hr r' hold hr'target hnewer)
    · rw [List.mem_singleton.mp hself]
      exact List.mem_cons_self
  have hpush : rowsOf (s.undo ++ [row]) (toText (d ++ [n])) =
      older ++ (row :: rows).reverse := by
    unfold rowsOf at hrowsOf ⊢
    rw [List.filter_append, hrowsOf, List.reverse_cons, List.append_assoc]
    congr 2
    rw [List.filter_singleton, hrowtarget]
    simp
  obtain ⟨older', holder'⟩ := rowsOf_gcUndo hpushed (by
    rw [List.length_cons]
    omega) hnew hpush
  refine ⟨row, rfl, hholds, ?_, ?_⟩
  · refine { folder := ?_, rows_eq := ?_, frames := ?_, post := ?_ }
    · rw [hs']
      show (s.tree.put (d ++ [n]) _).isRealDir d = true
      rw [isRealDir_put_concat]
      exact h.folder
    · rw [hs']
      exact ⟨older', holder'⟩
    · refine ⟨resultBytes gated.proposal, ?_, ?_, ?_⟩
      · rw [hs']
        exact holds_put_result s.tree (d ++ [n]) env gated.proposal
      · have hframe : Frame digest s d n (resultBytes gated.proposal) row := by
          obtain ⟨recordHash', hhash', hbytes⟩ :=
            undoRecordHash_of_passed hpassed
          have hsame : recordHash = recordHash' := by
            rw [hhash] at hhash'
            exact Except.ok.inj hhash'
          refine { op := ⟨gated.proposal.op, rfl, hfit, ?_, hfolder⟩,
                   granted := hgranted, hash := ?_ }
          · unfold resultBytes
            cases gated.proposal.op with
            | create => simp
            | edit => simp
            | delete => simp
          · intro bytes hpre
            show digest bytes = recordHash
            rw [hsame]
            exact hbytes bytes hpre
        refine frame_congr ?_ hframe
        rw [hs']
      · have hsame : held = row.preBytes := hheld.unique hholds
        rw [hsame] at hframes
        refine frames_congr ?_ hframes
        rw [hs']
    · intro r hr
      have hrow : row = r := Option.some.inj hr
      rw [← hrow, hs']
      show _ = ((s.tree.put (d ++ [n]) _).node (d ++ [n])).map fileId
      rw [node_put_self]
      rfl
  · intro r hr r' hr' hr'target hnewer
    rw [hs'] at hr'
    exact hnew r hr r' (List.mem_of_mem_filter hr') hr'target hnewer

end Forward

/-! ## An undo pops a row -/

theorem find_written {rows : List UndoRow}
    (h : rows.Pairwise UndoRow.Before) {r : UndoRow} (hr : r ∈ rows)
    {id : String} (hid : r.fileWrittenId = some id) :
    rows.find? (fun r => r.fileWrittenId == some id) = some r := by
  induction rows with
  | nil => cases hr
  | cons x rows ih =>
      have hsplit := List.pairwise_cons.mp h
      rcases List.mem_cons.mp hr with rfl | hmem
      · simp [hid]
      · have hne : (x.fileWrittenId == some id) = false := by
          rw [beq_eq_false_iff_ne]
          intro heq
          exact (hsplit.1 r hmem).written id heq hid
        rw [List.find?_cons]
        simp only [hne]
        exact ih hsplit.2 hmem

/-- The last row of a target is its top row. -/
theorem topRowid_of_last {rows : List UndoRow} (init : List UndoRow)
    {target : String} {r : UndoRow} (h : rows.Pairwise UndoRow.Before)
    (heq : rowsOf rows target = init ++ [r]) :
    topRowid rows target = some r.rowid ∧ ∀ r' ∈ init, r'.rowid < r.rowid := by
  have hordered : (init ++ [r]).Pairwise UndoRow.Before := by
    rw [← heq]
    exact h.filter _
  have hlt : ∀ r' ∈ init, r'.rowid < r.rowid := by
    intro r' hr'
    exact ((List.pairwise_append.mp hordered).2.2 r' hr' r
      (List.mem_singleton.mpr rfl)).rowid
  have hmem : ∀ r', (r' ∈ rows ∧ r'.canonicalTarget = target) ↔
      r' ∈ init ∨ r' = r := by
    intro r'
    have hmember : r' ∈ rowsOf rows target ↔ r' ∈ init ++ [r] := by rw [heq]
    rw [rowsOf, List.mem_filter, beq_iff_eq, List.mem_append,
      List.mem_singleton] at hmember
    exact hmember
  refine ⟨topRowid_eq_some_iff.2 ⟨⟨r, ?_⟩, ?_⟩, hlt⟩
  · obtain ⟨hr, htarget⟩ := (hmem r).mpr (.inr rfl)
    exact ⟨hr, htarget, rfl⟩
  · intro r' hr' htarget
    rcases (hmem r').mp ⟨hr', htarget⟩ with hinit | rfl
    · exact Nat.le_of_lt (hlt r' hinit)
    · exact Nat.le_refl _

/-- The row below gets the identity of the file the undo left. -/
def handoff (post : Option FileId) : List UndoRow → List UndoRow
  | [] => []
  | r :: rest => { r with post := post } :: rest

/-- Popping the top row of a target leaves the rows below it. -/
theorem rowsOf_pop {rows older rest : List UndoRow} {r : UndoRow}
    {target : String} (h : rows.Pairwise UndoRow.Before)
    (heq : rowsOf rows target = older ++ (r :: rest).reverse)
    (post : Option FileId) :
    ∃ older', rowsOf (popAndHandoffUndo rows r.undoId target post) target =
      older' ++ (handoff post rest).reverse := by
  let kept := rows.filter fun r' => r'.undoId != r.undoId
  let f := fun r' : UndoRow =>
    if some r'.rowid = topRowid kept target then { r' with post := post }
    else r'
  have hsplit : rowsOf rows target = older ++ rest.reverse ++ [r] := by
    rw [heq, List.reverse_cons, List.append_assoc]
  have hkept : rowsOf kept target = older ++ rest.reverse := by
    have hcomm : rowsOf kept target =
        (rowsOf rows target).filter fun r' => r'.undoId != r.undoId := by
      unfold rowsOf
      rw [List.filter_filter, List.filter_filter]
      refine List.filter_congr ?_
      intro x _
      exact Bool.and_comm _ _
    have hordered : (older ++ rest.reverse ++ [r]).Pairwise
        UndoRow.Before := by
      rw [← hsplit]
      exact h.filter _
    rw [hcomm, hsplit, List.filter_append]
    have hothers : (older ++ rest.reverse).filter
        (fun r' => r'.undoId != r.undoId) = older ++ rest.reverse := by
      rw [List.filter_eq_self]
      intro x hx
      have hbefore := (List.pairwise_append.mp hordered).2.2 x hx r
        (List.mem_singleton.mpr rfl)
      exact bne_iff_ne.mpr hbefore.undoId
    rw [hothers, List.filter_singleton]
    simp
  have hmap : rowsOf (popAndHandoffUndo rows r.undoId target post) target =
      (rowsOf kept target).map f := by
    unfold rowsOf popAndHandoffUndo
    rw [List.filter_map]
    congr 1
    refine List.filter_congr ?_
    intro x _
    show ((if some x.rowid = topRowid kept target then
      { x with post := post } else x).canonicalTarget == target) = _
    split
    · rfl
    · rfl
  rw [hmap, hkept]
  cases rest with
  | nil => exact ⟨(older ++ [].reverse).map f, (List.append_nil _).symm⟩
  | cons r₂ rest =>
      have hlast : rowsOf kept target = older ++ rest.reverse ++ [r₂] := by
        rw [hkept, List.reverse_cons, List.append_assoc]
      obtain ⟨htop, hlt⟩ := topRowid_of_last _ (h.filter _) hlast
      have hothers : (older ++ rest.reverse).map f = older ++ rest.reverse := by
        rw [List.map_congr_left (g := fun x => x)]
        · exact List.map_id' _
        · intro x hx
          have hless := hlt x hx
          have hne : ¬ some x.rowid = topRowid kept target := by
            intro htopx
            have hsame := Option.some.inj (htopx.trans htop)
            omega
          exact if_neg hne
      have hhead : f r₂ = { r₂ with post := post } := if_pos htop.symm
      refine ⟨older, ?_⟩
      rw [List.reverse_cons, ← List.append_assoc, List.map_append, hothers,
        List.map_singleton, hhead, handoff, List.reverse_cons,
        List.append_assoc]

theorem frames_handoff {s : BrainState} {d : Place} {n : Name}
    {held : Option Bytes} {rows : List UndoRow}
    (h : Frames digest s d n held rows) (post : Option FileId) :
    Frames digest s d n held (handoff post rows) := by
  cases rows with
  | nil => exact h
  | cons r rest =>
      exact ⟨{ op := h.1.op, granted := h.1.granted, hash := h.1.hash }, h.2⟩

section Undo

variable {s : BrainState} {env : WriteEnv} {d : Place} {n : Name}
  {r : UndoRow} {id : String}

/-- The inverse of a row applies to what the target holds, is granted, and
leaves the bytes of the row. -/
theorem inverse_of_frame {held : Option Bytes}
    (hd : s.tree.isRealDir d = true) (hheld : Holds s.tree (d ++ [n]) held)
    (h : Frame digest s d n held r) (id : String) :
    ∃ op content, inverseOp r = .ok (op, content) ∧ Fits op held ∧
      resultBytes (inverseProposal r id op content) = r.preBytes ∧
      isWriteAllowed s (absolute (d ++ [n])) = .ok true := by
  obtain ⟨op, hop, hfit, hkind, hfolder⟩ := h.op
  have hpresent : ∀ {content : Bytes}, held = some content →
      isWriteAllowed s (absolute (d ++ [n])) = .ok true := by
    intro content heq
    rw [heq] at hheld
    rw [isWriteAllowed_present hd hheld, h.granted]
  unfold inverseOp
  rw [hop]
  cases op with
  | create =>
      have hne : held ≠ none := fun heq => by cases hkind.mpr heq
      obtain ⟨content, hcontent⟩ := Option.ne_none_iff_exists'.mp hne
      exact ⟨.delete, [], rfl, hne, hfit.symm, hpresent hcontent⟩
  | edit =>
      have hne : held ≠ none := fun heq => by cases hkind.mpr heq
      obtain ⟨content, hcontent⟩ := Option.ne_none_iff_exists'.mp hne
      obtain ⟨bytes, hbytes⟩ := Option.ne_none_iff_exists'.mp hfit
      rw [hbytes]
      exact ⟨.edit, bytes, rfl, hne, rfl, hpresent hcontent⟩
  | delete =>
      have hnone : held = none := hkind.mp rfl
      obtain ⟨bytes, hbytes⟩ := Option.ne_none_iff_exists'.mp hfit
      rw [hbytes]
      rw [hnone] at hheld
      refine ⟨.create, bytes, rfl, hnone, rfl, ?_⟩
      rw [isWriteAllowed_absent hd hheld, hfolder rfl]

variable (digest) in
/-- Without faults, recording an undo succeeds. -/
theorem recordWrite_of_accepts {gated : GatedProposal} {plan : WritePlan}
    {undone : String} {resolvesProposal : Option String} {ev : Event}
    (hmint : env.mint.Accepts s.log)
    (hev : fileWrittenEvent digest gated plan (some undone)
      resolvesProposal = .ok ev)
    (htier : rejectEmptyTierB ev = .ok ()) :
    ∃ log', recordWrite digest s env gated plan (some undone)
      resolvesProposal = (.ok env.mint.id, { s with log := log' }) := by
  obtain ⟨log', happend⟩ := append_of_accepts hmint htier
  refine ⟨log', ?_⟩
  unfold recordWrite
  simp [hev, happend]

/-- The frame of the top row passes its check. -/
theorem checkFrame_of_top {rest : List UndoRow}
    (hrows : RowsOk s.log s.undo) (h : Stacked digest s d n (r :: rest))
    (htarget : r.canonicalTarget = toText (d ++ [n])) :
    checkFrame digest s r = .ok () := by
  obtain ⟨older, hrowsOf⟩ := h.rows_eq
  obtain ⟨held, hheld, hframe, -⟩ := h.frames
  have htop := (topRowid_of_last (older ++ rest.reverse) hrows.before
    (by rw [hrowsOf, List.reverse_cons, List.append_assoc])).1
  have hpost : r.post = (s.tree.node (d ++ [n])).map fileId :=
    h.post r rfl
  have hnow : (s.tree.lstat (ofString r.canonicalTarget)).map fileId =
      r.post := by
    rw [htarget, ofString_toText, lstat_absolute n h.folder, hpost]
  have hgone : ¬ (r.post.isSome && r.post.isNone) = true := by
    cases r.post with
    | none => simp
    | some post => simp
  have hdiverged : ¬ (r.post.isSome && r.post != r.post) = true := by
    simp
  unfold checkFrame
  rw [htarget, htop, if_neg (fun hne => hne rfl), ← htarget]
  dsimp only
  rw [hnow, if_neg hgone, if_neg hdiverged]
  cases hpre : r.preBytes with
  | none => rfl
  | some bytes =>
      have hhash := hframe.hash bytes hpre
      simp [hhash]

/-- One undo of the top write restores what the target held before it. -/
theorem stacked_undo {rest : List UndoRow} (hrows : RowsOk s.log s.undo)
    (h : Stacked digest s d n (r :: rest)) (hid : r.fileWrittenId = some id)
    (hfaults : env.fails = none) (hmint : env.mint.Accepts s.log) :
    ∃ written s' post, undoWrite digest s env id = (.ok written, s') ∧
      Holds s'.tree (d ++ [n]) r.preBytes ∧
      Stacked digest s' d n (handoff post rest) := by
  obtain ⟨older, hrowsOf⟩ := h.rows_eq
  obtain ⟨held, hheld, hframe, hframes⟩ := h.frames
  have hmem : r ∈ rowsOf s.undo (toText (d ++ [n])) := by
    rw [hrowsOf]
    simp
  obtain ⟨hr, htarget⟩ := List.mem_filter.mp hmem
  rw [beq_iff_eq] at htarget
  have hcheck := checkFrame_of_top hrows h htarget
  obtain ⟨op, content, hinverse, hfit, hresult, hallowed⟩ :=
    inverse_of_frame h.folder hheld hframe id
  have hplace : (inverseProposal r id op content).target =
      absolute (d ++ [n]) := by
    show ofString r.canonicalTarget = _
    rw [htarget, ofString_toText]
  have hreject : (proposeWrite digest s
      (inverseProposal r id op content)).verdict.rejectReason = none :=
    noReject_place hplace h.folder hheld hfit (List.cons_ne_nil id [])
      hallowed
  obtain ⟨plan, hpassed, hdir, hname, -⟩ :=
    gatePassed_place digest env true hplace
      h.folder hheld hfit (List.cons_ne_nil id []) hallowed (fun _ => rfl)
      hfaults
  have hplan : plan.target = d ++ [n] := by
    rw [WritePlan.target, hdir, hname]
  have hdone : ¬ FileRefused s.tree env op plan.target := by
    rintro (hfail | ⟨hop, hsome⟩)
    · rw [hfaults] at hfail
      cases hfail
    · rw [hop] at hfit
      rw [hplan] at hsome
      have hnone : held = none := hfit
      rw [hnone] at hheld
      rw [holds_none.1 hheld] at hsome
      cases hsome
  obtain ⟨ev, hev, -, htier⟩ :=
    fileWrittenEvent_of_passed hpassed (some id) none
  rcases executeUndo_cases ((executeGate_ok_iff digest).mpr hpassed) id none
    with ⟨hrefused, -⟩ | ⟨-, hexec⟩
  · exact absurd hrefused hdone
  · obtain ⟨log', hrecord⟩ := recordWrite_of_accepts digest
      (s := { s with tree := s.tree.put plan.target (resultNode env
        (inverseProposal r id op content)) }) hmint hev htier
    have hfound := find_written hrows.before hr hid
    have hpop : ¬ env.fails = some .popUndo := by
      rw [hfaults]
      simp
    rw [hplan] at hrecord hexec
    have hwritten := hexec.trans hrecord
    -- the tree the undo leaves
    let tree := s.tree.put (d ++ [n]) (resultNode env
      (inverseProposal r id op content))
    have hfolder : tree.isRealDir d = true := by
      rw [isRealDir_put_concat]
      exact h.folder
    have hnode : (tree.lstat (ofString r.canonicalTarget)) =
        tree.node (d ++ [n]) := by
      rw [htarget, ofString_toText, lstat_absolute n hfolder]
    have hholds : Holds tree (d ++ [n]) r.preBytes := by
      rw [← hresult]
      exact holds_put_result s.tree (d ++ [n]) env _
    refine ⟨env.mint.id, { s with
      log := log'
      tree := tree
      undo := popAndHandoffUndo s.undo r.undoId r.canonicalTarget
        ((tree.lstat (ofString r.canonicalTarget)).map fileId) },
      (tree.node (d ++ [n])).map fileId, ?_, hholds, ?_⟩
    · unfold undoWrite
      simp only [hfound, hcheck, hinverse, hreject]
      rw [hwritten]
      simp only [hpop, if_false]
      rfl
    · obtain ⟨older', holder'⟩ := rowsOf_pop hrows.before hrowsOf
        ((tree.node (d ++ [n])).map fileId)
      refine
        { folder := hfolder
          rows_eq := ⟨older', ?_⟩
          frames := ⟨r.preBytes, hholds, ?_⟩
          post := ?_ }
      · rw [hnode, htarget]
        exact holder'
      · have hbelow := frames_handoff hframes
          ((tree.node (d ++ [n])).map fileId)
        refine frames_congr ?_ hbelow
        rfl
      · intro r₂ hr₂
        cases rest with
        | nil => cases hr₂
        | cons r₃ rest =>
            have heq := Option.some.inj hr₂
            rw [← heq]

end Undo

/-! ## A run of writes and its undoing -/

/-- A run of forward writes to one target that all succeed: the event of each
write, with the state before it. Every write meets the condition. -/
inductive ForwardRun (digest : Bytes → String)
    (ok : BrainState → WriteEnv → WriteProposal → Prop) (target : Place) :
    BrainState → List (String × BrainState) → BrainState → Prop where
  | done (s : BrainState) : ForwardRun digest ok target s [] s
  | write {s s₁ s₂ : BrainState} {env : WriteEnv} {gated : GatedProposal}
      {resolvesProposal : Option String} {ack : Bool} {plan : WritePlan}
      {id : String} {rest : List (String × BrainState)}
      (gate : executeGate digest s env gated ack = .ok plan)
      (aimed : plan.target = target)
      (executed : executeWriteInner digest s env gated none resolvesProposal
        ack = (.ok id, s₁))
      (meets : ok s env gated.proposal)
      (rest_run : ForwardRun digest ok target s₁ rest s₂) :
      ForwardRun digest ok target s ((id, s) :: rest) s₂

/-- The writes, newest first, can be undone one after the other, and each undo
leaves the target as it was before its write: the same bytes, or nothing. -/
def Unwinds (digest : Bytes → String) (target : Place) :
    BrainState → List (String × BrainState) → Prop
  | _, [] => True
  | s, (id, earlier) :: rest =>
      ∀ env : WriteEnv, env.fails = none → env.mint.Accepts s.log →
        ∃ written s', undoWrite digest s env id = (.ok written, s') ∧
          (s'.tree.node target).map Node.kind =
            (earlier.tree.node target).map Node.kind ∧
          Unwinds digest target s' rest

/-- The clock does not run back behind a row of the target, and what a
deletion takes away may be put back. -/
def Orderly (d : Place) (n : Name) (s : BrainState) (env : WriteEnv)
    (p : WriteProposal) : Prop :=
  ClockForward s env (toText (d ++ [n])) ∧ FolderGranted s p d

/-- The row of a write, and the state before it. -/
structure RowOf (target : Place) (row : UndoRow)
    (write : String × BrainState) : Prop where
  written : row.fileWrittenId = some write.1
  holds : Holds write.2.tree target row.preBytes

theorem rowOf_handoff {target : Place} {rows : List UndoRow}
    {writes : List (String × BrainState)}
    (h : List.Forall₂ (RowOf target) rows writes) (post : Option FileId) :
    List.Forall₂ (RowOf target) (handoff post rows) writes := by
  cases h with
  | nil => exact .nil
  | cons hrow hrest =>
      exact .cons { written := hrow.written, holds := hrow.holds } hrest

/-- A stack unwinds. -/
theorem unwinds_of_stacked {d : Place} {n : Name}
    {writes : List (String × BrainState)} :
    ∀ {s : BrainState} {rows : List UndoRow}, RowsOk s.log s.undo →
      Stacked digest s d n rows →
      List.Forall₂ (RowOf (d ++ [n])) rows writes →
      Unwinds digest (d ++ [n]) s writes := by
  induction writes with
  | nil => exact fun _ _ _ => trivial
  | cons write writes ih =>
      intro s rows hrows hstack hmatch
      cases hmatch with
      | cons hrow hrest =>
          intro env hfaults hmint
          obtain ⟨written, s', post, hundo, hholds, hstack'⟩ :=
            stacked_undo hrows hstack hrow.written hfaults hmint
          refine ⟨written, s', hundo, ?_, ?_⟩
          · exact hholds.trans hrow.holds.symm
          · have hrows' := rowsOk_undoWrite digest hrows env
              write.1
            rw [hundo] at hrows'
            exact ih hrows' hstack' (rowOf_handoff hrest post)

/-- A run of writes stacks up on whatever was stacked before. -/
theorem stacked_of_run {d : Place} {n : Name} {s s' : BrainState}
    {writes : List (String × BrainState)}
    (h : ForwardRun digest (Orderly d n) (d ++ [n]) s writes s') :
    ∀ {rows : List UndoRow} {earlier : List (String × BrainState)},
      RowsOk s.log s.undo → Stacked digest s d n rows →
      Newest s (toText (d ++ [n])) rows →
      List.Forall₂ (RowOf (d ++ [n])) rows earlier →
      rows.length + writes.length ≤ undoDepth →
      ∃ rows', RowsOk s'.log s'.undo ∧ Stacked digest s' d n rows' ∧
        List.Forall₂ (RowOf (d ++ [n])) rows' (writes.reverse ++ earlier) := by
  induction h with
  | done s =>
      intro rows earlier hrows hstack _ hmatch _
      exact ⟨rows, hrows, hstack, hmatch⟩
  | @write s s₁ s₂ env gated resolvesProposal ack plan id rest gate aimed
      executed meets rest_run ih =>
      intro rows earlier hrows hstack hnewest hmatch hlen
      rw [List.length_cons] at hlen
      have hrows₁ : RowsOk s₁.log s₁.undo := by
        have hkeep := rowsOk_executeForward digest hrows env gated
          resolvesProposal ack
        rw [executed] at hkeep
        exact hkeep
      obtain ⟨row, hid, hholds, hstack₁, hnewest₁⟩ :=
        stacked_forward hrows hstack hnewest (by omega) gate aimed executed
          meets.1 meets.2
      have hmatch₁ : List.Forall₂ (RowOf (d ++ [n])) (row :: rows)
          ((id, s) :: earlier) :=
        .cons { written := hid, holds := hholds } hmatch
      have hlen₁ : (row :: rows).length + rest.length ≤ undoDepth := by
        rw [List.length_cons]
        omega
      obtain ⟨rows', hrows', hstack', hmatch'⟩ :=
        ih hrows₁ hstack₁ hnewest₁ hmatch₁ hlen₁
      refine ⟨rows', hrows', hstack', ?_⟩
      rw [List.reverse_cons, List.append_assoc]
      exact hmatch'

/-- A write to a target has found its folder and a file or nothing there. -/
theorem start_of_run {d : Place} {n : Name} {s s' : BrainState}
    {writes : List (String × BrainState)}
    {ok : BrainState → WriteEnv → WriteProposal → Prop}
    (h : ForwardRun digest ok (d ++ [n]) s writes s') (hne : writes ≠ []) :
    Stacked digest s d n [] := by
  cases h with
  | done => exact absurd rfl hne
  | @write s s₁ s₂ env gated resolvesProposal ack plan id rest gate aimed
      executed meets rest_run =>
      have hpassed := (executeGate_ok_iff digest).mp gate
      obtain ⟨-, hdone, -⟩ := executeForward_ok gate executed
      obtain ⟨hholds, -⟩ := holds_of_passed hpassed hdone
      have hdir : plan.parentDir = d :=
        (List.append_inj' aimed rfl).1
      rw [aimed] at hholds
      refine { folder := ?_, rows_eq := ?_, frames := ?_, post := ?_ }
      · rw [← hdir]
        exact isRealDir_of_openDir hpassed.opened
      · exact ⟨_, (List.append_nil _).symm⟩
      · exact ⟨_, hholds, trivial⟩
      · intro r hr
        cases hr

/-- A run of one write. -/
theorem forwardRun_one {ok : BrainState → WriteEnv → WriteProposal → Prop}
    {target : Place} {s : BrainState} (env : WriteEnv) (gated : GatedProposal)
    (ack : Bool) {id : String} (hmeets : ok s env gated.proposal)
    (htarget : (executeGate digest s env gated ack).toOption.map
      WritePlan.target = some target)
    (hid : (executeWriteInner digest s env gated none none ack).1.toOption =
      some id) :
    ForwardRun digest ok target s [(id, s)]
      (executeWriteInner digest s env gated none none ack).2 := by
  cases hgate : executeGate digest s env gated ack with
  | error e =>
      rw [hgate] at htarget
      cases htarget
  | ok plan =>
      rw [hgate] at htarget
      have haimed : plan.target = target := Option.some.inj htarget
      have hrun : executeWriteInner digest s env gated none none ack =
          (.ok id, (executeWriteInner digest s env gated none none ack).2) := by
        cases hanswer : (executeWriteInner digest s env gated none none
            ack).1 with
        | error e =>
            rw [hanswer] at hid
            cases hid
        | ok id' =>
            rw [hanswer] at hid
            rw [← Option.some.inj hid, ← hanswer]
      exact .write hgate haimed hrun hmeets (.done _)

variable (digest) in
/-- A write whose undo is refused does not unwind. -/
theorem not_unwinds_one {target : Place} {s earlier : BrainState}
    (env : WriteEnv) {id : String} (hfaults : env.fails = none)
    (hmint : env.mint.Accepts s.log)
    (hrefused : (undoWrite digest s env id).1.toOption = none) :
    ¬ Unwinds digest target s [(id, earlier)] := by
  intro h
  obtain ⟨written, s', hundo, -⟩ := h env hfaults hmint
  rw [hundo] at hrefused
  cases hrefused

namespace Disorder

def folder : Name := ⟨"a", isName_a⟩
def file : Name := ⟨"f", isName_f⟩

/-- A folder, and a file in it or not. -/
def disk (present : Bool) : Tree :=
  { cwd := []
    node := fun p =>
      if p = [folder] then some ⟨.directory, 1, 1, 0⟩
      else if p = [folder, file] ∧ present = true then
        some ⟨.regular [], 1, 2, 0⟩
      else none }

def env (tag now : String) : WriteEnv :=
  { mint := { id := tag, ts := "", sealOf := fun _ => .ok (tag, "") }
    undoId := tag, now := now, dev := 1, ino := 3, fails := none }

def proposal (op : WriteOp) : WriteProposal :=
  { target := absolute [folder, file], newContent := [], op := op,
    sourceEventIds := ["note"], rationale := "" }

/-- A note, a grant, and the file there or not. -/
def start (root : String) (present : Bool) : List BrainStep :=
  [.log (.append (.plain "note") (Event.draft memoryEventType (.obj []) none)),
    .tables [⟨root, "", false⟩] [] [], .disk (disk present)]

def run (steps : List BrainStep) : BrainState :=
  Trace.run (BrainStep.exec fun _ => "") (.empty (disk true)) steps

/-- The file alone is granted, and deleted. -/
def granted : BrainState := run (start "/a/f" true)

def deleted : BrainState :=
  (executeWriteInner (fun _ => "") granted (env "written" "1")
    (proposeWrite (fun _ => "") granted (proposal .delete)) none none true).2

/-- Creations of the file, proposed before it was there, have left sixteen
rows of a later time. -/
def crowded : BrainState :=
  run (start "/a" true ++ (List.range undoDepth).map fun i =>
    .write (env ("failed " ++ toString i) "2")
      (proposeWrite (fun _ => "") (run (start "/a" false)) (proposal .create))
      none false)

def edited : BrainState :=
  (executeWriteInner (fun _ => "") crowded (env "written" "1")
    (proposeWrite (fun _ => "") crowded (proposal .edit)) none none false).2

end Disorder

end AirNote
