import AirNote.Actuator

/-!
# What a proposal and an execution do

One lemma for each stage of a write: what a proposal that is not refused says
of its target, what each passed check of an execution has seen, when the undo
row is stored and the file changed, and the state a successful execution
leaves. The later modules argue from these.

## Main results

* `executeForward_cases`, `executeUndo_cases`, `recordWrite_cases` — what an
  execution that passed its gate leaves, stage by stage.
-/

namespace AirNote

open Lib.Paths Lib.FileTree

variable {digest : Bytes → String}

/-! ## A proposal that is not refused -/

theorem locateTarget_isSome_of_noReject {s : BrainState} {p : WriteProposal}
    (h : proposalRejectReason s p = none) :
    ∃ real, locateTarget s p = some real := by
  have hall := List.findSome?_eq_none_iff.mp h
  have hlocate := hall
    (if (locateTarget s p).isNone then
      some "write target path is not resolvable" else none) (by simp)
  cases hreal : locateTarget s p with
  | none => simp [hreal] at hlocate
  | some real => exact ⟨real, rfl⟩

/-- The operation agrees with the entry at the end of the path. -/
theorem opExistence_of_noReject {s : BrainState} {p : WriteProposal}
    (h : proposalRejectReason s p = none) :
    classifyOpExistence p.op (s.tree.lstat p.target).isSome
      ((s.tree.lstat p.target).any Node.isSymlink) = .ok := by
  have hall := List.findSome?_eq_none_iff.mp h
  have hop : (classifyOpExistence p.op (s.tree.lstat p.target).isSome
      ((s.tree.lstat p.target).any Node.isSymlink)).rejectReason = none :=
    hall (classifyOpExistence p.op (s.tree.lstat p.target).isSome
      ((s.tree.lstat p.target).any Node.isSymlink)).rejectReason
      (by simp only [List.mem_cons, true_or, or_true])
  revert hop
  cases classifyOpExistence p.op (s.tree.lstat p.target).isSome
      ((s.tree.lstat p.target).any Node.isSymlink) with
  | ok => intro _; rfl
  | createExisting => intro hop; cases hop
  | missingTarget => intro hop; cases hop
  | finalComponentSymlink => intro hop; cases hop

/-- A path that is not refused does not end in a link. -/
theorem noSymlink_of_noReject {s : BrainState} {p : WriteProposal} {n : Node}
    (h : proposalRejectReason s p = none)
    (hn : s.tree.lstat p.target = some n) : n.isSymlink = false := by
  have hop := opExistence_of_noReject h
  rw [hn] at hop
  cases hlink : n.isSymlink with
  | false => rfl
  | true => simp [classifyOpExistence, hlink] at hop

/-! ## The checks of an execution -/

theorem checkVerdict_ok {verdict : WriteVerdict} {ack : Bool}
    (h : checkVerdict verdict ack = .ok ()) :
    verdict.rejectReason = none ∧ verdict.allowed = true ∧
      (verdict.requiresLoudModal = true → ack = true) := by
  unfold checkVerdict at h
  split at h
  · cases h
  · next hreject =>
      split at h
      · cases h
      · next hallowed =>
          split at h
          · cases h
          · next hloud =>
              refine ⟨hreject, by simpa using hallowed, ?_⟩
              intro hneeds
              simpa [hneeds] using hloud

/-- A passed guard of an `Edit` or a `Delete` has seen the base. -/
theorem baseGuard_ok {s : BrainState} {env : WriteEnv} {gated : GatedProposal}
    {target : Place} {base : Option Bytes × Option FileId}
    (h : baseGuard digest s env gated target = .ok base)
    (hop : gated.proposal.op ≠ .create) :
    ∃ n current, s.tree.node target = some n ∧ n.kind = .regular current ∧
      gated.verdict.baseIdentity = some (fileId n) ∧
      gated.verdict.baseContentHash = some (digest current) ∧
      base = (some current, some (fileId n)) := by
  unfold baseGuard at h
  have hcase : ∀ op, op = gated.proposal.op → op ≠ .create := by
    intro op heq
    rw [heq]
    exact hop
  split at h
  · next heq => exact absurd heq hop
  all_goals
    split at h
    · cases h
    · cases h
    · next wantIdentity wantHash hident hhash =>
        split at h
        · cases h
        · split at h
          · cases h
          · next n hn =>
              split at h
              · cases h
              · cases h
              · cases h
              · next current hkind =>
                  split at h
                  · cases h
                  · next hsame =>
                      split at h
                      · cases h
                      · next hdigest =>
                          rw [not_not] at hsame hdigest
                          refine ⟨n, current, hn, hkind, ?_, ?_, ?_⟩
                          · rw [hident, hsame]
                          · rw [hhash, hdigest]
                          · exact (Except.ok.inj h).symm

/-- An `Edit` or a `Delete` resolves to the canonical path of its target. -/
theorem resolveTarget_ok {s : BrainState} {p : WriteProposal} {d : Place}
    {n : Name} (h : resolveTarget s p = .ok (d, n)) (hop : p.op ≠ .create) :
    s.tree.canonicalize p.target = some (d ++ [n]) := by
  unfold resolveTarget at h
  split at h
  · next heq => exact absurd heq hop
  all_goals
    split at h
    · cases h
    · next real hreal =>
        split at h
        · cases h
        · next name hlast =>
            have hconcat := List.dropLast_append_getLast? name hlast
            cases h
            rw [hreal, hconcat]


/-- A `Create` has no base. -/
theorem baseGuard_create {s : BrainState} {env : WriteEnv}
    {gated : GatedProposal} {target : Place}
    {base : Option Bytes × Option FileId}
    (h : baseGuard digest s env gated target = .ok base)
    (hop : gated.proposal.op = .create) : base = (none, none) := by
  unfold baseGuard at h
  rw [hop] at h
  exact (Except.ok.inj h).symm

theorem isRealDir_of_openDir {s : BrainState} {env : WriteEnv} {d : Place}
    (h : openDirForWrite s env d = .ok ()) : s.tree.isRealDir d = true := by
  unfold openDirForWrite at h
  split at h
  · cases h
  · next hreal =>
      have hboth : ¬ env.fails = some .openDir ∧ s.tree.isRealDir d = true := by
        simpa using hreal
      exact hboth.2

theorem isWriteAllowed_of_recheck {s : BrainState} {target : Place}
    (h : recheckGrant s target = .ok ()) :
    isWriteAllowed s (absolute target) = .ok true := by
  unfold recheckGrant at h
  split at h
  · cases h
  · cases h
  · next hallowed => exact hallowed

theorem recheckGrant_of_allowed {s : BrainState} {target : Place}
    (h : isWriteAllowed s (absolute target) = .ok true) :
    recheckGrant s target = .ok () := by
  rw [recheckGrant, h]

variable (digest) in
/-- The verdict's `allowed` is the answer of the grants. -/
theorem proposeWrite_allowed {s : BrainState} {p : WriteProposal} {b : Bool}
    (h : isWriteAllowed s p.target = .ok b) :
    (proposeWrite digest s p).verdict.allowed = b := by
  unfold proposeWrite
  dsimp only
  rw [h]

/-! ## The undo row and the change of the file -/

/-- The undo row is not stored. -/
def NothingStored (s : BrainState) (env : WriteEnv) : Prop :=
  env.fails = some .captureUndo ∨ ∃ r ∈ s.undo, r.undoId = env.undoId

/-- The file step fails: the file system does not do it, or a `Create` meets
an entry. -/
def FileRefused (t : Tree) (env : WriteEnv) (op : WriteOp) (target : Place) :
    Prop :=
  env.fails = some .mutate ∨ (op = .create ∧ (t.node target).isSome = true)

/-- What the write leaves at its target. -/
def resultNode (env : WriteEnv) (proposal : WriteProposal) : Option Node :=
  match proposal.op with
  | .delete => none
  | .create | .edit => some (writtenNode env proposal.newContent)

/-- The hash of the row is that of the bytes it keeps. -/
theorem undoRecordHash_of_passed {s : BrainState} {env : WriteEnv}
    {gated : GatedProposal} {ack : Bool} {plan : WritePlan}
    (h : GatePassed digest s env gated ack plan) :
    ∃ recordHash, undoRecordHash digest gated = .ok recordHash ∧
      ∀ bytes, plan.preBytes = some bytes → digest bytes = recordHash := by
  unfold undoRecordHash
  by_cases hop : gated.proposal.op = .create
  · have hpre : plan.preBytes = none :=
      (Prod.mk.inj (baseGuard_create h.guarded hop)).1
    rw [hop, hpre]
    cases gated.verdict.baseContentHash with
    | none => exact ⟨_, rfl, fun _ hnone => by cases hnone⟩
    | some hash => exact ⟨hash, rfl, fun _ hnone => by cases hnone⟩
  · obtain ⟨n, current, -, -, -, hhash, hbase⟩ := baseGuard_ok h.guarded hop
    have hpre : plan.preBytes = some current := (Prod.mk.inj hbase).1
    rw [hhash, hpre]
    refine ⟨digest current, rfl, ?_⟩
    intro bytes hbytes
    rw [Option.some.inj hbytes]

variable (digest) in
theorem captureUndo_error {s : BrainState} {env : WriteEnv}
    (gated : GatedProposal) (plan : WritePlan) (h : NothingStored s env) :
    ∃ e, captureUndo digest s env gated plan = .error e := by
  unfold captureUndo
  cases hhash : undoRecordHash digest gated with
  | error e => exact ⟨e, rfl⟩
  | ok recordHash =>
      by_cases hfail : env.fails = some .captureUndo
      · exact ⟨_, if_pos hfail⟩
      · have hdup := h.resolve_left hfail
        have hany : (s.undo.any fun r => r.undoId == env.undoId) = true := by
          simpa using hdup
        simp only [if_neg hfail, hany, if_true]
        exact ⟨_, rfl⟩

theorem captureUndo_ok {s : BrainState} {env : WriteEnv}
    {gated : GatedProposal} {plan : WritePlan} {recordHash : String}
    (hhash : undoRecordHash digest gated = .ok recordHash)
    (h : ¬ NothingStored s env) :
    captureUndo digest s env gated plan = .ok { s with
      undo := s.undo ++ [undoRowOf s env gated plan recordHash] } := by
  obtain ⟨hfail, hdup⟩ := not_or.mp h
  have hany : (s.undo.any fun r => r.undoId == env.undoId) = false := by
    simpa using hdup
  simp only [captureUndo, hhash, if_neg hfail, hany, Bool.false_eq_true,
    if_false]

/-- Right after the guard the file is still the one the guard saw. -/
theorem restat_of_passed {s : BrainState} {env : WriteEnv}
    {gated : GatedProposal} {ack : Bool} {plan : WritePlan}
    (h : GatePassed digest s env gated ack plan) :
    restatIdentityMatches s.tree plan.target plan.guardIdentity = true := by
  by_cases hop : gated.proposal.op = .create
  · have hident : plan.guardIdentity = none :=
      (Prod.mk.inj (baseGuard_create h.guarded hop)).2
    rw [hident]
    rfl
  · obtain ⟨n, current, hn, -, -, -, hbase⟩ := baseGuard_ok h.guarded hop
    have hident : plan.guardIdentity = some (fileId n) :=
      (Prod.mk.inj hbase).2
    rw [hident, restatIdentityMatches, hn]
    simp [fileId]

theorem mutate_error {s : BrainState} {env : WriteEnv}
    {gated : GatedProposal} {ack : Bool} {plan : WritePlan}
    (h : GatePassed digest s env gated ack plan)
    (hrefused : FileRefused s.tree env gated.proposal.op plan.target) :
    ∃ e, mutate s.tree env gated.proposal plan = .error e := by
  have hrestat := restat_of_passed h
  unfold mutate atomicWrite
  by_cases hfail : env.fails = some .mutate
  · cases gated.proposal.op with
    | create => simp [hfail]
    | edit => simp [hfail]
    | delete => simp [hfail, hrestat]
  · obtain ⟨hop, hsome⟩ := hrefused.resolve_left hfail
    rw [hop]
    simp [hfail, hsome]

theorem mutate_ok {s : BrainState} {env : WriteEnv}
    {gated : GatedProposal} {ack : Bool} {plan : WritePlan}
    (h : GatePassed digest s env gated ack plan)
    (hrefused : ¬ FileRefused s.tree env gated.proposal.op plan.target) :
    mutate s.tree env gated.proposal plan =
      .ok (s.tree.put plan.target (resultNode env gated.proposal)) := by
  have hrestat := restat_of_passed h
  obtain ⟨hfail, hclear⟩ := not_or.mp hrefused
  unfold mutate atomicWrite resultNode
  cases hop : gated.proposal.op with
  | create =>
      have habsent : (s.tree.node plan.target).isSome = false := by
        simpa [hop] using hclear
      simp [hfail, habsent]
  | edit => simp [hfail, hrestat]
  | delete => simp [hfail, hrestat]

/-! ## The event and the row of the write -/

theorem fileWrittenEvent_of_passed {s : BrainState} {env : WriteEnv}
    {gated : GatedProposal} {ack : Bool} {plan : WritePlan}
    (h : GatePassed digest s env gated ack plan)
    (undoOf resolvesProposal : Option String) :
    ∃ ev, fileWrittenEvent digest gated plan undoOf resolvesProposal =
        .ok ev ∧ ev.eventType = fileWrittenEventType ∧
      rejectEmptyTierB ev = .ok () := by
  have hhashes : ∃ hashes, recordedHashes digest gated = .ok hashes := by
    unfold recordedHashes
    dsimp only
    cases hop : gated.proposal.op with
    | create => exact ⟨_, rfl⟩
    | edit => exact ⟨_, rfl⟩
    | delete =>
        obtain ⟨n, current, -, -, -, hhash, -⟩ :=
          baseGuard_ok h.guarded (by rw [hop]; decide)
        rw [hhash]
        exact ⟨_, rfl⟩
  obtain ⟨hashes, hhashes⟩ := hhashes
  have hsources : plan.sources.isEmpty = false := by
    rw [List.isEmpty_eq_false_iff]
    exact h.sources_ne
  unfold fileWrittenEvent
  rw [hhashes]
  refine ⟨_, rfl, rfl, ?_⟩
  simp only [rejectEmptyTierB, Event.draft, hsources, Bool.false_eq_true,
    if_false]

/-- The undo rows once the event of a write is known. -/
def boundRows (s : BrainState) (tree : Tree) (env : WriteEnv)
    (gated : GatedProposal) (plan : WritePlan) (fileWrittenId : String) :
    List UndoRow :=
  bindAndGcUndo s.undo env.undoId fileWrittenId (toText plan.target)
    (postIdentity tree gated.proposal.op plan.target)

/-- What the recording leaves: nothing more, the event alone, or the event and
its row. -/
theorem recordWrite_cases (s : BrainState) (env : WriteEnv)
    {gated : GatedProposal} {plan : WritePlan}
    {undoOf resolvesProposal : Option String} {ev : Event}
    (hev : fileWrittenEvent digest gated plan undoOf resolvesProposal =
      .ok ev) :
    (∃ e, recordWrite digest s env gated plan undoOf resolvesProposal =
      (.error e, s)) ∨
    ∃ log' id, append env.mint s.log ev = .ok (log', id) ∧
      ((undoOf.isSome = true ∧
          recordWrite digest s env gated plan undoOf resolvesProposal =
            (.ok id, { s with log := log' })) ∨
        (undoOf = none ∧ ∃ e,
          recordWrite digest s env gated plan undoOf resolvesProposal =
            (.error e, { s with log := log' })) ∨
        (undoOf = none ∧
          recordWrite digest s env gated plan undoOf resolvesProposal =
            (.ok id, { s with
              log := log'
              undo := boundRows s s.tree env gated plan id }))) := by
  unfold recordWrite
  split
  · exact .inl ⟨_, rfl⟩
  · cases happend : append env.mint s.log ev with
    | error e => exact .inl ⟨e, by simp only [hev, happend]⟩
    | ok r =>
        obtain ⟨log', id⟩ := r
        refine .inr ⟨log', id, rfl, ?_⟩
        cases undoOf with
        | some u => exact .inl ⟨rfl, by simp [hev, happend]⟩
        | none =>
            by_cases hfail : env.fails = some .bindUndo
            · exact .inr (.inl ⟨rfl, .store "", by simp [hev, happend, hfail]⟩)
            · refine .inr (.inr ⟨rfl, ?_⟩)
              simp [hev, happend, hfail, boundRows]

/-! ## A whole execution -/

/-- The state once the row is stored and the file changed. -/
def changedState (s : BrainState) (env : WriteEnv) (gated : GatedProposal)
    (plan : WritePlan) (recordHash : String) : BrainState :=
  { s with
    undo := s.undo ++ [undoRowOf s env gated plan recordHash]
    tree := s.tree.put plan.target (resultNode env gated.proposal) }

/-- A forward execution that passed its gate stores no row, or stores it and
does not change the file, or changes the file and goes on to record it. -/
theorem executeForward_cases {s : BrainState} {env : WriteEnv}
    {gated : GatedProposal} {ack : Bool} {plan : WritePlan}
    (hgate : executeGate digest s env gated ack = .ok plan)
    (resolvesProposal : Option String) :
    (NothingStored s env ∧ ∃ e, executeWriteInner digest s env gated none
      resolvesProposal ack = (.error e, s)) ∨
    (¬ NothingStored s env ∧ ∃ recordHash,
      undoRecordHash digest gated = .ok recordHash ∧
      ((FileRefused s.tree env gated.proposal.op plan.target ∧ ∃ e,
          executeWriteInner digest s env gated none resolvesProposal ack =
            (.error e, { s with
              undo := s.undo ++ [undoRowOf s env gated plan recordHash] })) ∨
        (¬ FileRefused s.tree env gated.proposal.op plan.target ∧
          executeWriteInner digest s env gated none resolvesProposal ack =
            recordWrite digest (changedState s env gated plan recordHash) env
              gated plan none resolvesProposal))) := by
  have hpassed := (executeGate_ok_iff digest).mp hgate
  unfold executeWriteInner
  simp only [hgate, Option.isNone_none, if_true]
  by_cases hstored : NothingStored s env
  · obtain ⟨e, he⟩ := captureUndo_error digest gated plan hstored
    exact .inl ⟨hstored, e, by rw [he]⟩
  · obtain ⟨recordHash, hhash, -⟩ := undoRecordHash_of_passed hpassed
    refine .inr ⟨hstored, recordHash, hhash, ?_⟩
    rw [captureUndo_ok hhash hstored]
    by_cases hrefused : FileRefused s.tree env gated.proposal.op plan.target
    · obtain ⟨e, he⟩ := mutate_error hpassed hrefused
      exact .inl ⟨hrefused, e, by simp only [he]⟩
    · refine .inr ⟨hrefused, ?_⟩
      simp only [mutate_ok hpassed hrefused]
      rfl

/-- The same of the execution of an undo, which stores no row. -/
theorem executeUndo_cases {s : BrainState} {env : WriteEnv}
    {gated : GatedProposal} {ack : Bool} {plan : WritePlan}
    (hgate : executeGate digest s env gated ack = .ok plan)
    (undone : String) (resolvesProposal : Option String) :
    (FileRefused s.tree env gated.proposal.op plan.target ∧ ∃ e,
      executeWriteInner digest s env gated (some undone) resolvesProposal
        ack = (.error e, s)) ∨
    (¬ FileRefused s.tree env gated.proposal.op plan.target ∧
      executeWriteInner digest s env gated (some undone) resolvesProposal
        ack =
        recordWrite digest { s with
          tree := s.tree.put plan.target (resultNode env gated.proposal) }
          env gated plan (some undone) resolvesProposal) := by
  have hpassed := (executeGate_ok_iff digest).mp hgate
  unfold executeWriteInner
  simp only [hgate, Option.isNone_some, Bool.false_eq_true, if_false]
  by_cases hrefused : FileRefused s.tree env gated.proposal.op plan.target
  · obtain ⟨e, he⟩ := mutate_error hpassed hrefused
    exact .inl ⟨hrefused, e, by rw [he]⟩
  · exact .inr ⟨hrefused, by rw [mutate_ok hpassed hrefused]⟩

/-! ## Row ids -/

theorem rowid_lt_nextRowid {rows : List UndoRow} {r : UndoRow}
    (h : r ∈ rows) : r.rowid < nextRowid rows := by
  have hfold : ∀ (rows : List UndoRow) (acc : Nat),
      acc ≤ rows.foldl (fun acc r => max acc r.rowid) acc ∧
        ∀ r ∈ rows, r.rowid ≤
          rows.foldl (fun acc r => max acc r.rowid) acc := by
    intro rows
    induction rows with
    | nil =>
        intro acc
        exact ⟨Nat.le_refl acc, by simp⟩
    | cons x rows ih =>
        intro acc
        obtain ⟨hacc, hrows⟩ := ih (max acc x.rowid)
        rw [List.foldl_cons]
        refine ⟨by omega, ?_⟩
        intro r hr
        rcases List.mem_cons.mp hr with rfl | hr
        · omega
        · exact hrows r hr
  have hle := (hfold rows 0).2 r h
  unfold nextRowid
  omega

/-- The top row id of a target is that of one of its rows, and the largest. -/
theorem topRowid_eq_some_iff {rows : List UndoRow} {target : String}
    {k : Nat} :
    topRowid rows target = some k ↔
      (∃ r ∈ rows, r.canonicalTarget = target ∧ r.rowid = k) ∧
        ∀ r ∈ rows, r.canonicalTarget = target → r.rowid ≤ k := by
  unfold topRowid
  rw [List.max?_eq_some_iff]
  simp only [List.mem_map, List.mem_filter, beq_iff_eq]
  constructor
  · rintro ⟨⟨r, ⟨hr, htarget⟩, hk⟩, hmax⟩
    refine ⟨⟨r, hr, htarget, hk⟩, ?_⟩
    intro x hx hxtarget
    exact hmax x.rowid ⟨x, ⟨hx, hxtarget⟩, rfl⟩
  · rintro ⟨⟨r, hr, htarget, hk⟩, hmax⟩
    refine ⟨⟨r, ⟨hr, htarget⟩, hk⟩, ?_⟩
    rintro b ⟨x, ⟨hx, hxtarget⟩, rfl⟩
    exact hmax x hx hxtarget

/-! ## A write to a place -/

/-- The place holds a regular file with these bytes, or nothing. -/
def Holds (t : Tree) (x : Place) (held : Option Bytes) : Prop :=
  (t.node x).map Node.kind = held.map .regular

theorem holds_none {t : Tree} {x : Place} : Holds t x none ↔
    t.node x = none := by
  unfold Holds
  rw [Option.map_none, Option.map_eq_none_iff]

theorem holds_some {t : Tree} {x : Place} {content : Bytes} :
    Holds t x (some content) ↔
      ∃ n, t.node x = some n ∧ n.kind = .regular content := by
  unfold Holds
  rw [Option.map_some, Option.map_eq_some_iff]

theorem not_symlink_of_regular {n : Node} {content : Bytes}
    (h : n.kind = .regular content) : n.isSymlink = false := by
  rw [Node.isSymlink, h]

/-- The operation applies to a file with these bytes, or to none. -/
def Fits : WriteOp → Option Bytes → Prop
  | .create, held => held = none
  | .edit, held => held ≠ none
  | .delete, held => held ≠ none

section Place

variable {s : BrainState} {d : Place} {n : Name} {held : Option Bytes}

theorem isWriteAllowed_absent (hd : s.tree.isRealDir d = true)
    (hx : Holds s.tree (d ++ [n]) none) :
    isWriteAllowed s (absolute (d ++ [n])) = .ok (underWriteGrant s d) := by
  unfold isWriteAllowed
  rw [canonicalize_absolute_absent hd (holds_none.1 hx), parent_absolute]
  simp only [canonicalize_absolute_dir hd]

theorem isWriteAllowed_present {content : Bytes}
    (hd : s.tree.isRealDir d = true)
    (hx : Holds s.tree (d ++ [n]) (some content)) :
    isWriteAllowed s (absolute (d ++ [n])) =
      .ok (underWriteGrant s (d ++ [n])) := by
  obtain ⟨node, hnode, hkind⟩ := holds_some.1 hx
  unfold isWriteAllowed
  rw [canonicalize_absolute hd hnode (not_symlink_of_regular hkind)]

/-- What is under a grant is under it with its folder. -/
theorem underWriteGrant_concat (h : underWriteGrant s d = true) :
    underWriteGrant s (d ++ [n]) = true := by
  unfold underWriteGrant at h ⊢
  rw [List.any_eq_true] at h ⊢
  obtain ⟨g, hg, hunder⟩ := h
  rw [Bool.and_eq_true] at hunder
  refine ⟨g, hg, ?_⟩
  rw [hunder.1, Bool.true_and]
  exact startsWith_append n hunder.2

variable {p : WriteProposal}

theorem locateTarget_place (htarget : p.target = absolute (d ++ [n]))
    (hd : s.tree.isRealDir d = true) (hx : Holds s.tree (d ++ [n]) held)
    (hfit : Fits p.op held) : locateTarget s p = some (d ++ [n]) := by
  unfold locateTarget
  cases hop : p.op with
  | create =>
      simp only [canonicalizeTargetOrParent, htarget, parent_absolute,
        fileName_absolute, canonicalize_absolute_dir hd, Option.bind_some,
        Option.map_some]
  | edit =>
      rw [hop] at hfit
      obtain ⟨content, rfl⟩ := Option.ne_none_iff_exists'.mp hfit
      obtain ⟨node, hnode, hkind⟩ := holds_some.1 hx
      simp only [htarget]
      exact canonicalize_absolute hd hnode (not_symlink_of_regular hkind)
  | delete =>
      rw [hop] at hfit
      obtain ⟨content, rfl⟩ := Option.ne_none_iff_exists'.mp hfit
      obtain ⟨node, hnode, hkind⟩ := holds_some.1 hx
      simp only [htarget]
      exact canonicalize_absolute hd hnode (not_symlink_of_regular hkind)

/-- A proposal for a place is not refused where its operation fits what is
there and the place may be looked up in the grants. -/
theorem noReject_place (htarget : p.target = absolute (d ++ [n]))
    (hd : s.tree.isRealDir d = true) (hx : Holds s.tree (d ++ [n]) held)
    (hfit : Fits p.op held) (hsources : p.sourceEventIds ≠ [])
    {allowed : Bool}
    (hallowed : isWriteAllowed s (absolute (d ++ [n])) = .ok allowed) :
    proposalRejectReason s p = none := by
  have hempty : p.sourceEventIds.isEmpty = false := by
    rw [List.isEmpty_eq_false_iff]
    exact hsources
  have hlstat : s.tree.lstat p.target = s.tree.node (d ++ [n]) := by
    rw [htarget]
    exact lstat_absolute n hd
  have hop : classifyOpExistence p.op (s.tree.lstat p.target).isSome
      ((s.tree.lstat p.target).any Node.isSymlink) = .ok := by
    rw [hlstat]
    cases held with
    | none =>
        rw [holds_none.1 hx]
        cases hop : p.op with
        | create => rfl
        | edit =>
            rw [hop] at hfit
            exact absurd rfl hfit
        | delete =>
            rw [hop] at hfit
            exact absurd rfl hfit
    | some content =>
        obtain ⟨node, hnode, hkind⟩ := holds_some.1 hx
        rw [hnode, Option.any_some, not_symlink_of_regular hkind]
        cases hop : p.op with
        | create =>
            rw [hop] at hfit
            cases hfit
        | edit => rfl
        | delete => rfl
  unfold proposalRejectReason
  dsimp only
  rw [hempty, locateTarget_place htarget hd hx hfit, hop, htarget, hallowed]
  rfl

theorem deriveSources_ne {s : BrainState} {gated : GatedProposal}
    {target : Place} (h : gated.proposal.sourceEventIds ≠ []) :
    deriveSources s gated target ≠ [] := by
  unfold deriveSources
  dsimp only
  split
  · split
    · exact h
    · simp
  · exact h

theorem resolveTarget_place (htarget : p.target = absolute (d ++ [n]))
    (hd : s.tree.isRealDir d = true) (hx : Holds s.tree (d ++ [n]) held)
    (hfit : Fits p.op held) : resolveTarget s p = .ok (d, n) := by
  have hlocate := locateTarget_place htarget hd hx hfit
  unfold resolveTarget
  unfold locateTarget at hlocate
  cases hop : p.op with
  | create =>
      simp only [htarget, parent_absolute, canonicalize_absolute_dir hd,
        fileName_absolute]
  | edit =>
      simp only [hop] at hlocate
      simp only [hlocate, List.getLast?_concat, List.dropLast_concat]
  | delete =>
      simp only [hop] at hlocate
      simp only [hlocate, List.getLast?_concat, List.dropLast_concat]

variable (digest) in
/-- The guard passes on the base the proposal saw in the same state. -/
theorem baseGuard_place {env : WriteEnv}
    (htarget : p.target = absolute (d ++ [n]))
    (hd : s.tree.isRealDir d = true) (hx : Holds s.tree (d ++ [n]) held)
    (hfit : Fits p.op held) (hfaults : env.fails = none) :
    ∃ identity, baseGuard digest s env (proposeWrite digest s p)
      (d ++ [n]) = .ok (held, identity) := by
  by_cases hop : p.op = .create
  · rw [hop] at hfit
    refine ⟨none, ?_⟩
    have hproposed : (proposeWrite digest s p).proposal.op = .create := hop
    have hheld : held = none := hfit
    unfold baseGuard
    rw [hproposed, hheld]
  · have hne : held ≠ none := by
      revert hfit hop
      cases p.op with
      | create => intro _ hop; exact absurd rfl hop
      | edit => intro h _; exact h
      | delete => intro h _; exact h
    obtain ⟨content, rfl⟩ := Option.ne_none_iff_exists'.mp hne
    obtain ⟨node, hnode, hkind⟩ := holds_some.1 hx
    have hlink := not_symlink_of_regular hkind
    have hident : (proposeWrite digest s p).verdict.baseIdentity =
        some (fileId node) := by
      have hlstat : s.tree.lstat p.target = some node := by
        rw [htarget, lstat_absolute n hd]
        exact hnode
      unfold proposeWrite
      dsimp only
      split
      · next hcreate => exact absurd hcreate hop
      all_goals rw [hlstat, Option.map_some]
    have hhash : (proposeWrite digest s p).verdict.baseContentHash =
        some (digest content) := by
      have hread : s.tree.read p.target = some content := by
        rw [htarget, Tree.read, canonicalize_absolute hd hnode hlink,
          Option.bind_some, hnode, Option.bind_some, Node.content?, hkind]
      unfold proposeWrite
      dsimp only
      split
      · next hcreate => exact absurd hcreate hop
      all_goals rw [hread, Option.map_some]
    refine ⟨some (fileId node), ?_⟩
    have hpropop : (proposeWrite digest s p).proposal.op = p.op := rfl
    unfold baseGuard
    rw [hident, hhash, hpropop]
    split
    · next hcreate => exact absurd hcreate hop
    all_goals simp [hfaults, hnode, hkind]

variable (digest) in
/-- Proposed and executed in one state, a write to a place passes the gate. -/
theorem gatePassed_place (env : WriteEnv) (ack : Bool)
    (htarget : p.target = absolute (d ++ [n]))
    (hd : s.tree.isRealDir d = true) (hx : Holds s.tree (d ++ [n]) held)
    (hfit : Fits p.op held) (hsources : p.sourceEventIds ≠ [])
    (hallowed : isWriteAllowed s (absolute (d ++ [n])) = .ok true)
    (hloud : (proposeWrite digest s p).verdict.requiresLoudModal = true →
      ack = true) (hfaults : env.fails = none) :
    ∃ plan, GatePassed digest s env (proposeWrite digest s p) ack plan ∧
      plan.parentDir = d ∧ plan.finalName = n ∧ plan.preBytes = held := by
  obtain ⟨identity, hguard⟩ :=
    baseGuard_place digest htarget hd hx hfit hfaults
  have hreject : (proposeWrite digest s p).verdict.rejectReason = none :=
    noReject_place htarget hd hx hfit hsources hallowed
  have hverdict : (proposeWrite digest s p).verdict.allowed = true :=
    proposeWrite_allowed digest (htarget ▸ hallowed)
  refine ⟨⟨d, n, held, identity,
    deriveSources s (proposeWrite digest s p) (d ++ [n])⟩, ?_, rfl, rfl, rfl⟩
  refine
    { verdict := ?_
      resolved := resolveTarget_place htarget hd hx hfit
      granted := recheckGrant_of_allowed hallowed
      opened := ?_
      guarded := hguard
      sources_eq := rfl
      sources_ne := deriveSources_ne hsources }
  · unfold checkVerdict
    rw [hreject]
    simp only [hverdict, Bool.not_true, Bool.false_eq_true, if_false]
    by_cases hneeds : (proposeWrite digest s p).verdict.requiresLoudModal =
        true
    · rw [hneeds, hloud hneeds]
      rfl
    · rw [Bool.not_eq_true] at hneeds
      rw [hneeds]
      rfl
  · unfold openDirForWrite
    simp [hfaults, hd]

end Place

end AirNote
