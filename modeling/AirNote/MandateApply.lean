import AirNote.Execution
import AirNote.Emissions
import Mathlib.Data.List.Nodup

/-!
# Whether the proposals of a mandate are applied

A mandate proposes to create a file or to edit one. The summary of its
proposal does not carry the fingerprint of the file, which the summary of a
reconciliation does; an apply demands it of every proposal that is no
creation, so the edits of a mandate are stale from the start. They stay
pending, and since a sweep considers the eight oldest proposals of mandates
only, they keep the later ones from being considered.

## Main results

* `applied_iff_creation` — what an apply of such a proposal answers.
* `mandate_proposal_applied_iff` — a sweep applies it, and an apply by hand is
  not stale, exactly for a creation whose bytes are stored and whose folder is
  there, among the eight oldest, while mandates are enabled.
* `mandate_edit_stale` — an edit, unchanged since it was proposed, is stale.
-/

namespace AirNote

open Lib.Paths Lib.FileTree

variable {digest : Bytes → String} {render : Json → String}

/-! ## What a mandate emits -/

/-- `run_mandate` has appended the proposal in this state. -/
def EmittedIn (digest : Bytes → String) (s₀ : ReviewState)
    (p : PendingProposal) : Prop :=
  ∃ mint stores m answer emitted r s₁ ev,
    runMandate digest mint stores s₀ m answer emitted = (r, s₁) ∧
    s₁.brain.log = s₀.brain.log ++ [ev] ∧
    ev.eventType = writeProposalEventType ∧ p = pendingOf ev

/-- The shape of a mandate's proposal, and what its gate saw. -/
structure MandateShape (digest : Bytes → String) (s₀ : ReviewState)
    (p : PendingProposal) (op : WriteOp) : Prop where
  op_eq : parseOp p.op = some op
  noDelete : op ≠ .delete
  noBase : p.baseContentHash = none
  sources : p.sourceEventIds ≠ []
  gate : ∃ content, (proposeWrite digest s₀.brain
    (writeProposalOf p op content)).verdict.rejectReason = none

/-- What a mandate has proposed has the shape of a mandate's proposal. -/
theorem shape_of_emitted {s₀ : ReviewState} {p : PendingProposal}
    (h : EmittedIn digest s₀ p) : ∃ op, MandateShape digest s₀ p op := by
  obtain ⟨mint, stores, m, answer, emitted, r, s₁, ev, hrun, hlog, htype,
    rfl⟩ := h
  have hbrain := (decideMandate_kept digest s₀ m answer emitted).1
  have hgrown : s₁.brain.log ≠ s₀.brain.log := by
    rw [hlog]
    simp
  unfold runMandate at hrun
  cases hdecide : decideMandate digest s₀ m answer emitted with
  | mk decided s' =>
      rw [hdecide] at hrun hbrain
      cases decided with
      | error e =>
          cases hrun
          exact absurd (congrArg BrainState.log hbrain) hgrown
      | ok e =>
          dsimp only at hrun hbrain
          unfold recordEmission at hrun
          rcases appendEmission_cases mint s' e with
            ⟨err, happend⟩ | ⟨-, happend⟩ | ⟨draft, stored, hdraft, hs,
              happend⟩
          · rw [happend] at hrun
            cases hrun
            exact absurd (congrArg BrainState.log hbrain) hgrown
          · rw [happend] at hrun
            cases hrun
            exact absurd (congrArg BrainState.log hbrain) hgrown
          · have hs₁ : s₁.brain.log = s'.brain.log ++ [stored] := by
              rw [happend] at hrun
              cases hproposal : e.proposal with
              | none =>
                  rw [hproposal] at hrun
                  cases hrun
                  rfl
              | some d =>
                  rw [hproposal] at hrun
                  dsimp only [Option.map_some] at hrun
                  split at hrun
                  · cases hrun
                    rfl
                  · cases hrun
                    rfl
            have hev : stored = ev := by
              rw [hlog, hbrain] at hs₁
              have hlast := List.append_cancel_left hs₁
              exact (List.cons.inj hlast).1.symm
            rw [hev] at hs
            have hdrafttype : draft.eventType = writeProposalEventType := by
              rw [← hs.eventType_eq]
              exact htype
            cases e with
            | nothing => cases hdraft
            | elidedByCap => cases hdraft
            | rejected r =>
                cases hdraft
                have hne : writeRejectedEventType ≠ writeProposalEventType := by
                  decide
                exact absurd hdrafttype hne
            | proposed d =>
                cases hdraft
                obtain ⟨-, hop, hlineage, hsummary, hgate⟩ :=
                  decideMandate_proposed hdecide
                refine ⟨d.op, ?_⟩
                rw [pendingOf_stored hs]
                exact
                  { op_eq := by cases d.op <;> rfl
                    noDelete := hop
                    noBase := by
                      simp only [Json.getStr?, hsummary]
                      rfl
                    sources := hlineage
                    gate := ⟨d.content, hgate⟩ }

/-! ## The premises -/

/-- Since the proposal was emitted its target has not changed; it is under an
active write grant, and the fresh verdict is not loud. -/
structure Ready (digest : Bytes → String) (s₀ s : ReviewState)
    (p : PendingProposal) : Prop where
  sameEntry : (s.brain.tree.lstat (ofString p.target)).isSome =
    (s₀.brain.tree.lstat (ofString p.target)).isSome
  sameBytes : s.brain.tree.read (ofString p.target) =
    s₀.brain.tree.read (ofString p.target)
  granted : isWriteAllowed s.brain (ofString p.target) = .ok true
  calm : ∀ op content, parseOp p.op = some op →
    getProposalBytesChecked digest s p.id p.newContentHash = .ok content →
      (proposeWrite digest s.brain
        (writeProposalOf p op content)).verdict.requiresLoudModal = false

/-- Nothing outside fails: the steps of the write succeed, its event is taken
and its undo row is new. -/
structure Works (env : WriteEnv) (s : ReviewState) : Prop where
  noFault : env.fails = none
  accepts : env.mint.Accepts s.brain.log
  freshRow : ∀ r ∈ s.brain.undo, r.undoId ≠ env.undoId

/-- The proposed bytes are stored. -/
def BytesStored (digest : Bytes → String) (s : ReviewState)
    (p : PendingProposal) : Prop :=
  ∃ content, getProposalBytesChecked digest s p.id p.newContentHash =
    .ok content

/-- The folder of the target is there. -/
def FolderThere (s : ReviewState) (p : PendingProposal) : Prop :=
  ∃ folder d, parent (ofString p.target) = some folder ∧
    s.brain.tree.canonicalize folder = some d ∧
    s.brain.tree.isRealDir d = true

/-- The apply answers that the proposal is stale. -/
def Stale (r : Except EngineOpError String) : Prop :=
  ∃ msg, r = .error (.stale msg)

/-- The log has a write that resolves the proposal. -/
def Applied (s : ReviewState) (p : PendingProposal) : Prop :=
  ∃ ev ∈ s.brain.log, ev.eventType = fileWrittenEventType ∧
    ev.content.getStr? "resolves_proposal" = some p.id

/-! ## An apply in one state -/

section Apply

variable {s₀ s : ReviewState} {p : PendingProposal} {render : Json → String}

/-- The target of a creation: a name in a folder, and no entry. -/
theorem creation_absent {op : WriteOp} (hshape : MandateShape digest s₀ p op)
    (hop : op = .create) :
    ∃ name folder, fileName (ofString p.target) = some name ∧
      parent (ofString p.target) = some folder ∧
      s₀.brain.tree.lstat (ofString p.target) = none := by
  obtain ⟨content, hreject⟩ := hshape.gate
  rw [hop] at hreject
  have hnone : proposalRejectReason s₀.brain
      (writeProposalOf p .create content) = none := hreject
  obtain ⟨real, hreal⟩ := locateTarget_isSome_of_noReject hnone
  have hlocate : canonicalizeTargetOrParent s₀.brain.tree
      (ofString p.target) = some real := hreal
  unfold canonicalizeTargetOrParent at hlocate
  obtain ⟨folder, hfolder, hlocate⟩ := Option.bind_eq_some_iff.mp hlocate
  obtain ⟨d, -, hname⟩ := Option.bind_eq_some_iff.mp hlocate
  obtain ⟨name, hname, -⟩ := Option.map_eq_some_iff.mp hname
  refine ⟨name, folder, hname, hfolder, ?_⟩
  have hexists := opExistence_of_noReject hnone
  cases hentry : s₀.brain.tree.lstat (ofString p.target) with
  | none => rfl
  | some n =>
      have htarget : s₀.brain.tree.lstat
          (writeProposalOf p .create content).target = some n := hentry
      rw [htarget] at hexists
      cases hlink : n.isSymlink with
      | true => simp [classifyOpExistence, hlink] at hexists
      | false => simp [writeProposalOf, classifyOpExistence, hlink] at hexists

/-- The place a creation writes to. -/
structure CreationPlace (s : ReviewState) (p : PendingProposal)
    (folder : Path) (d : Place) (n : Name) : Prop where
  name : fileName (ofString p.target) = some n
  parent : parent (ofString p.target) = some folder
  canonical : s.brain.tree.canonicalize folder = some d
  granted : underWriteGrant s.brain d = true
  absent : s.brain.tree.lstat (ofString p.target) = none
  isFree : s.brain.tree.isRealDir d = true →
    s.brain.tree.node (d ++ [n]) = none

theorem creationPlace_of_ready {op : WriteOp}
    (hshape : MandateShape digest s₀ p op) (hop : op = .create)
    (h : Ready digest s₀ s p) : ∃ folder d n, CreationPlace s p folder d n := by
  obtain ⟨n, folder, hname, hparent, habsent₀⟩ := creation_absent hshape hop
  have habsent : s.brain.tree.lstat (ofString p.target) = none := by
    have hsame := h.sameEntry
    rw [habsent₀, Option.isSome_none, Option.isSome_eq_false_iff,
      Option.isNone_iff_eq_none] at hsame
    exact hsame
  have hcanon : s.brain.tree.canonicalize (ofString p.target) = none := by
    cases hq : s.brain.tree.canonicalize (ofString p.target) with
    | none => rfl
    | some q =>
        have hsome := lstat_isSome_of_fileName hname hq
        rw [habsent] at hsome
        cases hsome
  have hgranted := h.granted
  unfold isWriteAllowed at hgranted
  rw [hcanon, hparent] at hgranted
  dsimp only at hgranted
  cases hd : s.brain.tree.canonicalize folder with
  | none =>
      rw [hd] at hgranted
      cases hgranted
  | some d =>
      rw [hd] at hgranted
      refine ⟨folder, d, n, ?_⟩
      refine
        { name := hname, parent := hparent, canonical := hd,
          granted := Except.ok.inj hgranted, absent := habsent, isFree := ?_ }
      intro hreal
      have hne : folder ≠ [] := by
        rintro rfl
        cases hd
      have hlstat := lstat_of_parent hname hparent hne hd
      rw [habsent, hreal, if_pos rfl] at hlstat
      exact hlstat.symm

theorem folderThere_iff {folder : Path} {d : Place} {n : Name}
    (h : CreationPlace s p folder d n) :
    FolderThere s p ↔ s.brain.tree.isRealDir d = true := by
  constructor
  · rintro ⟨folder', d', hparent, hcanon, hreal⟩
    have hfolder : folder' = folder := by
      rw [h.parent] at hparent
      exact (Option.some.inj hparent).symm
    rw [hfolder, h.canonical] at hcanon
    rw [Option.some.inj hcanon]
    exact hreal
  · intro hreal
    exact ⟨folder, d, h.parent, h.canonical, hreal⟩

/-- A creation of these bytes is not refused. -/
theorem creation_noReject {folder : Path} {d : Place} {n : Name}
    (h : CreationPlace s p folder d n) (hsources : p.sourceEventIds ≠ [])
    (hgranted : isWriteAllowed s.brain (ofString p.target) = .ok true)
    (content : Bytes) :
    proposalRejectReason s.brain (writeProposalOf p .create content) = none := by
  have hempty : p.sourceEventIds.isEmpty = false := by
    rw [List.isEmpty_eq_false_iff]
    exact hsources
  have hlocate : locateTarget s.brain (writeProposalOf p .create content) =
      some (d ++ [n]) := by
    show canonicalizeTargetOrParent s.brain.tree (ofString p.target) = _
    unfold canonicalizeTargetOrParent
    rw [h.parent, Option.bind_some, h.canonical, Option.bind_some, h.name,
      Option.map_some]
  unfold proposalRejectReason
  rw [hlocate]
  unfold writeProposalOf
  simp only [hempty, hgranted, h.absent]
  rfl

/-! ### While nothing else changes the files -/

theorem executeGateAmid_still (s : BrainState) (env : WriteEnv)
    (gated : GatedProposal) (ack : Bool) :
    executeGateAmid digest s (fun _ => s.tree) env gated ack =
      executeGate digest s env gated ack := rfl

theorem proposeWriteAmid_still (s : BrainState) (w : WriteProposal) :
    proposeWriteAmid digest s (fun _ => s.tree) w = proposeWrite digest s w :=
  rfl

theorem captureUndo_tree {s s₁ : BrainState} {env : WriteEnv}
    {gated : GatedProposal} {plan : WritePlan}
    (h : captureUndo digest s env gated plan = .ok s₁) :
    s₁.tree = s.tree ∧ s₁.log = s.log := by
  unfold captureUndo at h
  split at h
  · cases h
  · split at h
    · cases h
    · split at h
      · cases h
      · cases h
        exact ⟨rfl, rfl⟩

theorem executeWriteAmid_still (s : BrainState) (env : WriteEnv)
    (gated : GatedProposal) (resolves : String) (ack : Bool) :
    executeWriteAmid digest s (fun _ => s.tree) env gated resolves ack =
      executeWriteResolving digest s env gated resolves ack := by
  have hseen : s.seen (fun _ => s.tree) .guard = s := rfl
  unfold executeWriteAmid executeWriteResolving executeWriteInner
  rw [executeGateAmid_still, hseen]
  cases executeGate digest s env gated ack with
  | error e => rfl
  | ok plan =>
      dsimp only
      cases hundo : captureUndo digest s env gated plan with
      | error e => simp only [Option.isNone_none, if_true]
      | ok s₁ =>
          have htree : s₁.tree = s.tree := (captureUndo_tree hundo).1
          simp only [Option.isNone_none, if_true]
          rw [htree]
          cases mutate s.tree env gated.proposal plan with
          | error e =>
              rw [← htree]
          | ok tree => rfl

/-! ### What an apply answers -/

/-- An edit of a mandate is stale, and nothing is done. -/
theorem apply_edit {op : WriteOp} (hshape : MandateShape digest s₀ p op)
    (hfind : (pendingProposals render s.brain.log).find?
      (fun q => q.id == p.id) = some p) (hop : op ≠ .create) (env : WriteEnv)
    (ack : Bool) :
    ∃ msg, applyProposal digest render s env p.id ack =
      (.error (.stale msg), s) := by
  have hfresh : ∃ msg, checkFresh digest s.brain.tree p op =
      .error (.stale msg) := by
    unfold checkFresh
    cases op with
    | create => exact absurd rfl hop
    | delete => exact absurd rfl hshape.noDelete
    | edit =>
        cases s.brain.tree.read (ofString p.target) with
        | none => exact ⟨_, rfl⟩
        | some live =>
            rw [hshape.noBase]
            exact ⟨_, rfl⟩
  obtain ⟨msg, hmsg⟩ := hfresh
  refine ⟨msg, ?_⟩
  unfold applyProposal applyProposalAmid
  simp only [hfind, hshape.op_eq, hmsg]

/-- A creation whose bytes are not stored is not applied, and not stale. -/
theorem apply_without_bytes {op : WriteOp}
    (hshape : MandateShape digest s₀ p op)
    (hfind : (pendingProposals render s.brain.log).find?
      (fun q => q.id == p.id) = some p) (hop : op = .create)
    (hbytes : ¬ BytesStored digest s p) (env : WriteEnv) (ack : Bool) :
    ∃ msg, applyProposal digest render s env p.id ack =
      (.error (.core msg), s) := by
  have hparse := hshape.op_eq
  rw [hop] at hparse
  cases hget : getProposalBytesChecked digest s p.id p.newContentHash with
  | ok content => exact absurd ⟨content, hget⟩ hbytes
  | error e =>
      refine ⟨e.text, ?_⟩
      unfold applyProposal applyProposalAmid
      simp only [hfind, hparse, checkFresh, hget]

theorem checkFreshVerdict_of {v : WriteVerdict} (ack : Bool)
    (hreject : v.rejectReason = none) (hallowed : v.allowed = true)
    (hcalm : v.requiresLoudModal = false) :
    checkFreshVerdict v ack = .ok () ∧ checkVerdict v ack = .ok () := by
  unfold checkFreshVerdict checkVerdict
  rw [hreject, hallowed, hcalm]
  exact ⟨rfl, rfl⟩

/-- Otherwise the answer is that of the execution. -/
theorem apply_creation {op : WriteOp} (hshape : MandateShape digest s₀ p op)
    (hfind : (pendingProposals render s.brain.log).find?
      (fun q => q.id == p.id) = some p) (hop : op = .create)
    (h : Ready digest s₀ s p) {content : Bytes}
    (hget : getProposalBytesChecked digest s p.id p.newContentHash =
      .ok content) (env : WriteEnv) (ack : Bool) :
    applyProposal digest render s env p.id ack =
      match executeWriteInner digest s.brain env
          (proposeWrite digest s.brain (writeProposalOf p .create content))
          none (some p.id) ack with
      | (.error e, brain) => (.error (executeErrorToEngineOpError e.text),
          { s with brain := brain })
      | (.ok fileWrittenId, brain) =>
          (.ok fileWrittenId, { s with brain := brain }) := by
  obtain ⟨folder, d, n, hplace⟩ := creationPlace_of_ready hshape hop h
  have hparse := hshape.op_eq
  rw [hop] at hparse
  have hreject : (proposeWrite digest s.brain
      (writeProposalOf p .create content)).verdict.rejectReason = none :=
    creation_noReject hplace hshape.sources h.granted content
  have hallowed : (proposeWrite digest s.brain
      (writeProposalOf p .create content)).verdict.allowed = true :=
    proposeWrite_allowed digest h.granted
  have hverdict := (checkFreshVerdict_of ack hreject hallowed
    (h.calm .create content hparse hget)).1
  unfold applyProposal applyProposalAmid
  cases hwrite : executeWriteInner digest s.brain env (proposeWrite digest
      s.brain (writeProposalOf p .create content)) none (some p.id) ack with
  | mk r brain =>
      cases r with
      | error e =>
          simp only [hfind, hparse, checkFresh, hget, proposeWriteAmid_still,
            hverdict, executeWriteAmid_still, executeWriteResolving, hwrite]
      | ok written =>
          simp only [hfind, hparse, checkFresh, hget, proposeWriteAmid_still,
            hverdict, executeWriteAmid_still, executeWriteResolving, hwrite]

/-! ### The execution of a creation -/

theorem resolve_creation {folder : Path} {d : Place} {n : Name}
    (hplace : CreationPlace s p folder d n) (content : Bytes) :
    resolveTarget s.brain (writeProposalOf p .create content) =
      .ok (d, n) := by
  unfold resolveTarget writeProposalOf
  simp only [hplace.parent, hplace.canonical, hplace.name]

/-- Without the folder the execution fails, and nothing is done. -/
theorem execute_without_folder {folder : Path} {d : Place} {n : Name}
    (hplace : CreationPlace s p folder d n) (content : Bytes)
    (hmissing : s.brain.tree.isRealDir d = false) (env : WriteEnv)
    (ack : Bool) :
    ∃ e, executeWriteInner digest s.brain env
      (proposeWrite digest s.brain (writeProposalOf p .create content)) none
      (some p.id) ack = (.error e, s.brain) := by
  have hgate : ∃ e, executeGate digest s.brain env
      (proposeWrite digest s.brain (writeProposalOf p .create content)) ack =
        .error e := by
    cases hrun : executeGate digest s.brain env (proposeWrite digest s.brain
        (writeProposalOf p .create content)) ack with
    | error e => exact ⟨e, rfl⟩
    | ok plan =>
        have hpassed := (executeGate_ok_iff digest).mp hrun
        have hresolved : resolveTarget s.brain
            (writeProposalOf p .create content) =
              .ok (plan.parentDir, plan.finalName) := hpassed.resolved
        rw [resolve_creation hplace content] at hresolved
        cases hresolved
        have hreal := isRealDir_of_openDir hpassed.opened
        rw [hmissing] at hreal
        cases hreal
  obtain ⟨e, he⟩ := hgate
  refine ⟨e, ?_⟩
  unfold executeWriteInner
  rw [he]

/-- The event of a write that resolves a proposal. -/
theorem fileWrittenEvent_resolves {gated : GatedProposal} {plan : WritePlan}
    {resolved : String} {ev : Event}
    (h : fileWrittenEvent digest gated plan none (some resolved) = .ok ev) :
    ev.eventType = fileWrittenEventType ∧
      ev.content.getStr? "resolves_proposal" = some resolved := by
  unfold fileWrittenEvent at h
  split at h
  · cases h
  · next contentHash prevContentHash byteSize hhashes =>
      cases h
      refine ⟨rfl, ?_⟩
      cases prevContentHash with
      | none => rfl
      | some prev => rfl

/-- What the log gains when the event of such a write is stored. -/
theorem resolves_of_append {m : Mint} {log log' : EventLog}
    {gated : GatedProposal} {plan : WritePlan} {resolved id : String}
    {ev : Event}
    (hev : fileWrittenEvent digest gated plan none (some resolved) = .ok ev)
    (happend : append m log ev = .ok (log', id)) :
    ∃ stored, log' = log ++ [stored] ∧
      stored.eventType = fileWrittenEventType ∧
      stored.content.getStr? "resolves_proposal" = some resolved := by
  obtain ⟨htype, hresolves⟩ := fileWrittenEvent_resolves hev
  obtain ⟨-, stored, hs, hlog⟩ := append_ok happend
  refine ⟨stored, hlog, ?_, ?_⟩
  · rw [hs.eventType_eq, htype]
  · rw [Json.getStr?, hs.content_eq, get?_stampedContent (by decide)]
    exact hresolves

/-- With the folder the execution succeeds, and its event is in the log. -/
theorem execute_with_folder {folder : Path} {d : Place} {n : Name}
    (hplace : CreationPlace s p folder d n) (hsources : p.sourceEventIds ≠ [])
    (hgranted : isWriteAllowed s.brain (ofString p.target) = .ok true)
    {content : Bytes}
    (hcalm : (proposeWrite digest s.brain
      (writeProposalOf p .create content)).verdict.requiresLoudModal = false)
    (hreal : s.brain.tree.isRealDir d = true) {env : WriteEnv}
    (hworks : Works env s) (ack : Bool) :
    ∃ written brain ev, executeWriteInner digest s.brain env
        (proposeWrite digest s.brain (writeProposalOf p .create content)) none
        (some p.id) ack = (.ok written, brain) ∧
      brain.log = s.brain.log ++ [ev] ∧
      ev.eventType = fileWrittenEventType ∧
      ev.content.getStr? "resolves_proposal" = some p.id := by
  let gated := proposeWrite digest s.brain (writeProposalOf p .create content)
  let plan : WritePlan := ⟨d, n, none, none,
    deriveSources s.brain gated (d ++ [n])⟩
  have hfree : Holds s.brain.tree (d ++ [n]) none :=
    holds_none.2 (hplace.isFree hreal)
  have hallowed : gated.verdict.allowed = true :=
    proposeWrite_allowed digest hgranted
  have hpassed : GatePassed digest s.brain env gated ack plan :=
    { verdict := (checkFreshVerdict_of ack
        (creation_noReject hplace hsources hgranted content) hallowed hcalm).2
      resolved := resolve_creation hplace content
      granted := by
        show recheckGrant s.brain (d ++ [n]) = .ok ()
        apply recheckGrant_of_allowed
        rw [isWriteAllowed_absent hreal hfree, hplace.granted]
      opened := by
        show openDirForWrite s.brain env d = .ok ()
        unfold openDirForWrite
        simp [hworks.noFault, hreal]
      guarded := rfl
      sources_eq := rfl
      sources_ne := by
        show deriveSources s.brain gated (d ++ [n]) ≠ []
        exact deriveSources_ne hsources }
  have hstored : ¬ NothingStored s.brain env := by
    rintro (hfails | ⟨r, hr, hid⟩)
    · rw [hworks.noFault] at hfails
      cases hfails
    · exact hworks.freshRow r hr hid
  have hclear : ¬ FileRefused s.brain.tree env gated.proposal.op
      plan.target := by
    rintro (hfails | ⟨-, hsome⟩)
    · rw [hworks.noFault] at hfails
      cases hfails
    · have hnone : s.brain.tree.node plan.target = none :=
        hplace.isFree hreal
      rw [hnone] at hsome
      cases hsome
  rcases executeForward_cases ((executeGate_ok_iff digest).mpr hpassed)
      (some p.id) with
    ⟨hno, -⟩ | ⟨-, recordHash, -, ⟨hrefused, -⟩ | ⟨-, hrun⟩⟩
  · exact absurd hno hstored
  · exact absurd hrefused hclear
  · obtain ⟨ev, hev, -, htier⟩ :=
      fileWrittenEvent_of_passed hpassed none (some p.id)
    have hmint : env.mint.Accepts s.brain.log := hworks.accepts
    obtain ⟨log', happend⟩ := append_of_accepts hmint htier
    obtain ⟨stored, hlog, htype, hresolves⟩ :=
      resolves_of_append hev happend
    rw [hrun]
    unfold recordWrite
    have happend' : append env.mint
        (changedState s.brain env gated plan recordHash).log ev =
          .ok (log', env.mint.id) := happend
    simp only [Option.isNone_none, hworks.noFault, hev, happend',
      Option.isSome_none, Bool.false_eq_true, if_false]
    exact ⟨_, _, stored, rfl, hlog, htype, hresolves⟩

/-- Where the premises hold, an apply answers that an edit is stale and never
that a creation is; the creation is applied exactly when its bytes are stored
and its folder is there, and otherwise nothing is done. -/
theorem applied_iff_creation (hemitted : EmittedIn digest s₀ p)
    (hfind : (pendingProposals render s.brain.log).find?
      (fun q => q.id == p.id) = some p)
    (h : Ready digest s₀ s p) {env : WriteEnv} (hworks : Works env s)
    (ack : Bool) :
    (Stale (applyProposal digest render s env p.id ack).1 ↔
      p.op ≠ "create") ∧
    ((p.op = "create" ∧ BytesStored digest s p ∧ FolderThere s p ∧
        ∃ ev, (applyProposal digest render s env p.id ack).2.brain.log =
            s.brain.log ++ [ev] ∧ ev.eventType = fileWrittenEventType ∧
          ev.content.getStr? "resolves_proposal" = some p.id) ∨
      (¬ (p.op = "create" ∧ BytesStored digest s p ∧ FolderThere s p) ∧
        (applyProposal digest render s env p.id ack).2.brain.log =
          s.brain.log)) := by
  obtain ⟨op, hshape⟩ := shape_of_emitted hemitted
  have hcreate : p.op = "create" ↔ op = .create := by
    have hparse := hshape.op_eq
    constructor
    · intro heq
      rw [heq] at hparse
      exact (Option.some.inj hparse).symm
    · intro heq
      rw [heq] at hparse
      unfold parseOp at hparse
      by_cases hname : p.op = "create"
      · exact hname
      · rw [if_neg hname] at hparse
        split at hparse
        · cases hparse
        · split at hparse
          · cases hparse
          · cases hparse
  by_cases hop : op = .create
  · obtain ⟨folder, d, n, hplace⟩ := creationPlace_of_ready hshape hop h
    by_cases hbytes : BytesStored digest s p
    · obtain ⟨content, hget⟩ := hbytes
      have hparse := hshape.op_eq
      rw [hop] at hparse
      have hcalm := h.calm .create content hparse hget
      rw [apply_creation hshape hfind hop h hget env ack]
      by_cases hreal : s.brain.tree.isRealDir d = true
      · obtain ⟨written, brain, ev, hrun, hlog, htype, hresolves⟩ :=
          execute_with_folder hplace hshape.sources h.granted hcalm hreal
            hworks ack
        rw [hrun]
        refine ⟨⟨?_, fun hne => absurd (hcreate.mpr hop) hne⟩, .inl
          ⟨hcreate.mpr hop, ⟨content, hget⟩, (folderThere_iff hplace).mpr hreal,
            ev, hlog, htype, hresolves⟩⟩
        rintro ⟨msg, hmsg⟩
        cases hmsg
      · rw [Bool.not_eq_true] at hreal
        obtain ⟨e, hrun⟩ :=
          execute_without_folder hplace content hreal env ack
        rw [hrun]
        refine ⟨⟨?_, fun hne => absurd (hcreate.mpr hop) hne⟩,
          .inr ⟨?_, rfl⟩⟩
        · rintro ⟨msg, hmsg⟩
          have hnever : executeErrorToEngineOpError e.text ≠ .stale msg := by
            unfold executeErrorToEngineOpError
            split
            · intro heq
              cases heq
            · intro heq
              cases heq
          exact absurd (Except.error.inj hmsg) hnever
        · rintro ⟨-, -, hthere⟩
          rw [folderThere_iff hplace, hreal] at hthere
          cases hthere
    · obtain ⟨msg, hrun⟩ :=
        apply_without_bytes hshape hfind hop hbytes env ack
      rw [hrun]
      refine ⟨⟨?_, fun hne => absurd (hcreate.mpr hop) hne⟩,
        .inr ⟨fun hall => hbytes hall.2.1, rfl⟩⟩
      rintro ⟨msg', hmsg⟩
      cases hmsg
  · obtain ⟨msg, hrun⟩ := apply_edit hshape hfind hop env ack
    rw [hrun]
    refine ⟨⟨fun _ hname => hop (hcreate.mp hname), fun _ => ⟨msg, rfl⟩⟩,
      .inr ⟨fun hall => hop (hcreate.mp hall.1), rfl⟩⟩

end Apply

/-! ## The sweep -/

section Sweep

variable {render : Json → String}

/-- The log grew by writes that resolve the proposal. -/
def GrownBy (id : String) (log log' : EventLog) : Prop :=
  ∃ added, log' = log ++ added ∧ ∀ ev ∈ added,
    ev.eventType = fileWrittenEventType ∧
      ev.content.getStr? "resolves_proposal" = some id

theorem GrownBy.refl (id : String) (log : EventLog) : GrownBy id log log :=
  ⟨[], (List.append_nil log).symm, by simp⟩

theorem executeResolving_log {s brain : BrainState} {env : WriteEnv}
    {gated : GatedProposal} {id : String} {ack : Bool}
    {r : Except BossclawError String}
    (h : executeWriteResolving digest s env gated id ack = (r, brain)) :
    GrownBy id s.log brain.log := by
  have hbrain : brain =
      (executeWriteInner digest s env gated none (some id) ack).2 := by
    unfold executeWriteResolving at h
    rw [h]
  rw [hbrain]
  cases hgate : executeGate digest s env gated ack with
  | error e =>
      unfold executeWriteInner
      rw [hgate]
      exact GrownBy.refl id s.log
  | ok plan =>
      rcases executeForward_cases hgate (some id) with
        ⟨-, e, hrun⟩ | ⟨-, recordHash, -, ⟨-, e, hrun⟩ | ⟨-, hrun⟩⟩
      · rw [hrun]
        exact GrownBy.refl id s.log
      · rw [hrun]
        exact GrownBy.refl id s.log
      · obtain ⟨ev, hev, -, -⟩ := fileWrittenEvent_of_passed
          ((executeGate_ok_iff digest).mp hgate) none (some id)
        rw [hrun]
        rcases recordWrite_cases (changedState s env gated plan recordHash)
            env hev with
          ⟨e, hrec⟩ | ⟨log', written, happend, hrest⟩
        · rw [hrec]
          exact GrownBy.refl id s.log
        · obtain ⟨stored, hlog, htype, hresolves⟩ :=
            resolves_of_append hev happend
          have hgrown : GrownBy id s.log log' := by
            refine ⟨[stored], hlog, ?_⟩
            intro x hx
            rw [List.mem_singleton.mp hx]
            exact ⟨htype, hresolves⟩
          rcases hrest with ⟨hsome, -⟩ | ⟨-, e, hrec⟩ | ⟨-, hrec⟩
          · cases hsome
          · rw [hrec]
            exact hgrown
          · rw [hrec]
            exact hgrown

variable (digest render) in
/-- Whatever an apply answers, the log grows by writes that resolve its
proposal only. -/
theorem applyProposal_log (s : ReviewState) (env : WriteEnv) (id : String)
    (ack : Bool) :
    GrownBy id s.brain.log
      (applyProposal digest render s env id ack).2.brain.log := by
  unfold applyProposal applyProposalAmid
  split
  · exact GrownBy.refl id _
  · next p hp =>
      have hid : p.id = id := by
        simpa using List.find?_some hp
      split
      · exact GrownBy.refl id _
      · split
        · exact GrownBy.refl id _
        · split
          · exact GrownBy.refl id _
          · dsimp only
            split
            · exact GrownBy.refl id _
            · rw [executeWriteAmid_still, hid]
              split
              · next e brain hrun => exact executeResolving_log hrun
              · next written brain hrun => exact executeResolving_log hrun

/-! ### The log of a sweep -/

/-- The writes of a sweep leave the events of the other types alone. -/
theorem eventsOfTypes_grown {id : String} {log log' : EventLog}
    {types : List String} (h : GrownBy id log log')
    (htypes : fileWrittenEventType ∉ types) :
    eventsOfTypes log' types = eventsOfTypes log types := by
  obtain ⟨added, hlog, hadded⟩ := h
  have hnone : eventsOfTypes added types = [] := by
    rw [eventsOfTypes, List.filter_eq_nil_iff]
    intro ev hev hmem
    rw [List.contains_iff_mem, (hadded ev hev).1] at hmem
    exact htypes hmem
  rw [hlog, eventsOfTypes_append, hnone, List.append_nil]

theorem mandatesEnabled_grown {id : String} {log log' : EventLog}
    (h : GrownBy id log log') : mandatesEnabled log' = mandatesEnabled log := by
  unfold mandatesEnabled
  rw [eventsOfTypes_grown h (by decide)]

/-- What the sweep makes of these items, one after the other. -/
def sweepStates (digest : Bytes → String) (render : Json → String)
    (envs : String → WriteEnv) (s : ReviewState) (ids : List String) :
    ReviewState :=
  ids.foldl (fun s id => (applyProposal digest render s (envs id) id false).2)
    s

/-- An enabled sweep comes to every item. -/
theorem sweepItems_enabled (envs : String → WriteEnv) (ids : List String) :
    ∀ s : ReviewState, mandatesEnabled s.brain.log = true →
      (sweepItems digest render envs s ids).2 =
        sweepStates digest render envs s ids := by
  induction ids with
  | nil =>
      intro s _
      rfl
  | cons id rest ih =>
      intro s henabled
      have hnext := mandatesEnabled_grown (applyProposal_log digest render s
        (envs id) id false)
      rw [henabled] at hnext
      have hrest := ih _ hnext
      unfold sweepItems
      rw [henabled]
      simp only [Bool.not_true, Bool.false_eq_true, if_false]
      show _ = sweepStates digest render envs
        (applyProposal digest render s (envs id) id false).2 rest
      rw [← hrest]
      cases applyProposal digest render s (envs id) id false with
      | mk r s' =>
          cases r with
          | ok written => rfl
          | error e => rfl

theorem sweepItems_disabled (envs : String → WriteEnv) (s : ReviewState)
    (ids : List String) (hdisabled : mandatesEnabled s.brain.log = false) :
    (sweepItems digest render envs s ids).2 = s := by
  cases ids with
  | nil => rfl
  | cons id rest =>
      unfold sweepItems
      rw [hdisabled]
      rfl

/-- The items of other proposals do not apply this one. -/
theorem applied_sweepStates {p : PendingProposal} (envs : String → WriteEnv)
    (ids : List String) :
    ∀ s : ReviewState, p.id ∉ ids →
      (Applied (sweepStates digest render envs s ids) p ↔ Applied s p) := by
  induction ids with
  | nil =>
      intro s _
      exact Iff.rfl
  | cons id rest ih =>
      intro s hnot
      have hne : p.id ≠ id := fun heq => hnot (heq ▸ List.mem_cons_self)
      have hrest := ih (applyProposal digest render s (envs id) id false).2
        (fun hmem => hnot (List.mem_cons_of_mem id hmem))
      refine hrest.trans ?_
      obtain ⟨added, hlog, hadded⟩ := applyProposal_log digest render s
        (envs id) id false
      unfold Applied
      rw [hlog]
      constructor
      · rintro ⟨ev, hev, htype, hresolves⟩
        rcases List.mem_append.mp hev with hold | hnew
        · exact ⟨ev, hold, htype, hresolves⟩
        · rw [(hadded ev hnew).2] at hresolves
          exact absurd (Option.some.inj hresolves).symm hne
      · rintro ⟨ev, hev, hrest⟩
        exact ⟨ev, List.mem_append_left added hev, hrest⟩

/-! ### The pending proposals of a sweep -/

theorem notApplied_of_pending {s : ReviewState} {p : PendingProposal}
    (h : p ∈ pendingProposals render s.brain.log) : ¬ Applied s p := by
  rintro ⟨ev, hev, htype, hresolves⟩
  exact (mem_pendingProposals.1 h).2.1
    (mem_resolvedProposals.2 ⟨ev, hev, .inr htype, hresolves⟩)

/-- The proposals of a log have identifiers of their own. -/
def DistinctProposals (log : EventLog) : Prop :=
  ((eventsOfTypes log [writeProposalEventType]).map Event.id).Nodup

theorem distinctProposals_of_unique {log : EventLog} (h : UniqueIds log) :
    DistinctProposals log :=
  h.sublist (List.filter_sublist.map Event.id)

theorem nodup_pending {log : EventLog} (h : DistinctProposals log) :
    ((pendingProposals render log).map PendingProposal.id).Nodup := by
  have hids : (((eventsOfTypes log [writeProposalEventType]).map
      pendingOf).map PendingProposal.id).Nodup := by
    rw [List.map_map]
    exact h
  exact hids.sublist (List.filter_sublist.map PendingProposal.id)

/-- A pending proposal is found under its identifier. -/
theorem find?_pending {log : EventLog} {p : PendingProposal}
    (hdistinct : DistinctProposals log)
    (h : p ∈ pendingProposals render log) :
    (pendingProposals render log).find? (fun q => q.id == p.id) = some p := by
  cases hfind : (pendingProposals render log).find?
      (fun q => q.id == p.id) with
  | none =>
      have hnone := List.find?_eq_none.mp hfind p h
      simp at hnone
  | some q =>
      have hid : q.id = p.id := by
        simpa using List.find?_some hfind
      have hsame := List.inj_on_of_nodup_map (nodup_pending hdistinct)
        (List.mem_of_find?_eq_some hfind) h hid
      rw [hsame]

theorem pending_grown {log log' : EventLog} {id : String}
    {p : PendingProposal} (hgrown : GrownBy id log log') (hne : p.id ≠ id)
    (h : p ∈ pendingProposals render log) :
    p ∈ pendingProposals render log' := by
  have hproposals : eventsOfTypes log' [writeProposalEventType] =
      eventsOfTypes log [writeProposalEventType] :=
    eventsOfTypes_grown hgrown (by decide)
  have hrejected : rejectedKeys render log' = rejectedKeys render log := by
    unfold rejectedKeys
    rw [eventsOfTypes_grown hgrown (by decide)]
  rw [mem_pendingProposals] at h ⊢
  obtain ⟨hproposal, hresolved, hkey⟩ := h
  rw [hproposals, hrejected]
  refine ⟨hproposal, ?_, hkey⟩
  intro hmem
  obtain ⟨added, hlog, hadded⟩ := hgrown
  obtain ⟨ev, hev, htype, hresolves⟩ := mem_resolvedProposals.1 hmem
  rw [hlog] at hev
  rcases List.mem_append.mp hev with hold | hnew
  · exact hresolved (mem_resolvedProposals.2 ⟨ev, hold, htype, hresolves⟩)
  · rw [(hadded ev hnew).2] at hresolves
    exact absurd (Option.some.inj hresolves).symm hne

/-- Before its turn a proposal stays pending. -/
theorem pending_sweepStates {p : PendingProposal} (envs : String → WriteEnv)
    (ids : List String) :
    ∀ s : ReviewState, p.id ∉ ids → DistinctProposals s.brain.log →
      p ∈ pendingProposals render s.brain.log →
        p ∈ pendingProposals render
          (sweepStates digest render envs s ids).brain.log ∧
        DistinctProposals
          (sweepStates digest render envs s ids).brain.log := by
  induction ids with
  | nil =>
      intro s _ hdistinct h
      exact ⟨h, hdistinct⟩
  | cons id rest ih =>
      intro s hnot hdistinct h
      have hne : p.id ≠ id := fun heq => hnot (heq ▸ List.mem_cons_self)
      have hgrown := applyProposal_log digest render s
        (envs id) id false
      refine ih _ (fun hmem => hnot (List.mem_cons_of_mem id hmem)) ?_
        (pending_grown hgrown hne h)
      unfold DistinctProposals
      rw [eventsOfTypes_grown hgrown (by decide)]
      exact hdistinct

/-! ### A proposal in a sweep -/

/-- The state of the sweep when it comes to the item at this position. -/
def stateAtTurn (digest : Bytes → String) (render : Json → String)
    (envs : String → WriteEnv) (s : ReviewState) (i : Nat) : ReviewState :=
  sweepStates digest render envs s
    (((mandateProposals render s.brain.log).take i).map PendingProposal.id)

/-- The items of a sweep around one of them. -/
theorem sweepCandidates_split {log : EventLog} {i : Nat} {p : PendingProposal}
    (hi : (mandateProposals render log)[i]? = some p)
    (hcap : i < mandateAutoapplyPerSweep) :
    ∃ rest, sweepCandidates render log =
      ((mandateProposals render log).take i).map PendingProposal.id ++
        p.id :: rest := by
  have hcandidate : ((mandateProposals render log).take
      mandateAutoapplyPerSweep)[i]? = some p := by
    rw [List.getElem?_take_of_lt hcap]
    exact hi
  have hsplit := List.take_append_drop i
    ((mandateProposals render log).take mandateAutoapplyPerSweep)
  rw [List.drop_eq_getElem?_toList_append, hcandidate, List.take_take,
    Nat.min_eq_left (Nat.le_of_lt hcap)] at hsplit
  refine ⟨(((mandateProposals render log).take
    mandateAutoapplyPerSweep).drop (i + 1)).map PendingProposal.id, ?_⟩
  have hmapped := congrArg (List.map PendingProposal.id) hsplit
  rw [List.map_append] at hmapped
  exact hmapped.symm

theorem nodup_mandateProposals {log : EventLog}
    (h : DistinctProposals log) :
    ((mandateProposals render log).map PendingProposal.id).Nodup :=
  (nodup_pending h).sublist (List.filter_sublist.map PendingProposal.id)

/-- What a sweep applies is among the first of the mandates' proposals. -/
theorem not_mem_candidates {log : EventLog} {i : Nat} {p : PendingProposal}
    (hdistinct : DistinctProposals log)
    (hi : (mandateProposals render log)[i]? = some p)
    (hcap : ¬ i < mandateAutoapplyPerSweep) :
    p.id ∉ sweepCandidates render log := by
  intro hmem
  obtain ⟨q, hq, hid⟩ := List.mem_map.mp hmem
  obtain ⟨j, hj, hget⟩ := List.mem_iff_getElem.mp hq
  rw [List.length_take] at hj
  rw [List.getElem_take] at hget
  obtain ⟨hlt, hp⟩ := List.getElem?_eq_some_iff.mp hi
  have hnodup : ((mandateProposals render log).map
      PendingProposal.id).Nodup := nodup_mandateProposals hdistinct
  have hjlt : j < ((mandateProposals render log).map
      PendingProposal.id).length := by
    rw [List.length_map]
    omega
  have hilt : i < ((mandateProposals render log).map
      PendingProposal.id).length := by
    rw [List.length_map]
    exact hlt
  have hsame : ((mandateProposals render log).map PendingProposal.id)[j] =
      ((mandateProposals render log).map PendingProposal.id)[i] := by
    rw [List.getElem_map, List.getElem_map, hget, hp, hid]
  have hindex : j = i := hnodup.getElem_inj_iff.mp hsame
  omega

section Turn

variable {s₀ s : ReviewState} {p : PendingProposal} {i : Nat}

/-- The items before and after a proposal's turn are others. -/
theorem turn_apart {rest : List String}
    (hdistinct : DistinctProposals s.brain.log)
    (hsplit : sweepCandidates render s.brain.log =
      ((mandateProposals render s.brain.log).take i).map PendingProposal.id ++
        p.id :: rest) :
    p.id ∉ ((mandateProposals render s.brain.log).take i).map
      PendingProposal.id ∧ p.id ∉ rest := by
  have hnodup : (sweepCandidates render s.brain.log).Nodup :=
    (nodup_mandateProposals hdistinct).sublist
      ((List.take_sublist _ _).map PendingProposal.id)
  rw [hsplit] at hnodup
  obtain ⟨-, htail, hapart⟩ := List.nodup_append.mp hnodup
  exact ⟨fun hmem => hapart p.id hmem p.id List.mem_cons_self rfl,
    (List.nodup_cons.mp htail).1⟩

variable (digest) in
/-- An enabled sweep applies a proposal among the oldest at its turn, where
it is still pending. -/
theorem applied_at_turn (envs : String → WriteEnv)
    (hdistinct : DistinctProposals s.brain.log)
    (hi : (mandateProposals render s.brain.log)[i]? = some p)
    (hcap : i < mandateAutoapplyPerSweep)
    (henabled : mandatesEnabled s.brain.log = true) :
    (p ∈ pendingProposals render
        (stateAtTurn digest render envs s i).brain.log ∧
      DistinctProposals (stateAtTurn digest render envs s i).brain.log) ∧
    (Applied (mandateAutoapplySweep digest render envs s).2 p ↔
      Applied (applyProposal digest render
        (stateAtTurn digest render envs s i) (envs p.id) p.id false).2 p) := by
  obtain ⟨rest, hsplit⟩ := sweepCandidates_split hi hcap
  obtain ⟨hbefore, hafter⟩ := turn_apart hdistinct hsplit
  have hpending : p ∈ pendingProposals render s.brain.log :=
    (List.mem_filter.mp (List.mem_of_getElem? hi)).1
  refine ⟨pending_sweepStates envs _ s hbefore hdistinct hpending, ?_⟩
  unfold mandateAutoapplySweep
  rw [sweepItems_enabled envs _ s henabled, hsplit]
  unfold sweepStates
  rw [List.foldl_append, List.foldl_cons]
  exact applied_sweepStates envs rest _ hafter

/-- When a sweep applies a proposal. -/
theorem sweep_applies_iff {envs : String → WriteEnv}
    (hemitted : EmittedIn digest s₀ p)
    (hdistinct : DistinctProposals s.brain.log)
    (hi : (mandateProposals render s.brain.log)[i]? = some p)
    (hturn : Ready digest s₀ (stateAtTurn digest render envs s i) p)
    (hworks : Works (envs p.id) (stateAtTurn digest render envs s i)) :
    Applied (mandateAutoapplySweep digest render envs s).2 p ↔
      (p.op = "create" ∧
          BytesStored digest (stateAtTurn digest render envs s i) p ∧
          FolderThere (stateAtTurn digest render envs s i) p) ∧
        i < mandateAutoapplyPerSweep ∧
        mandatesEnabled s.brain.log = true := by
  have hfresh := notApplied_of_pending
    (List.mem_filter.mp (List.mem_of_getElem? hi)).1
  by_cases henabled : mandatesEnabled s.brain.log = true
  · by_cases hcap : i < mandateAutoapplyPerSweep
    · obtain ⟨⟨hpending, hdistinctTurn⟩, happlied⟩ :=
        applied_at_turn digest envs hdistinct hi hcap henabled
      rw [happlied]
      rcases (applied_iff_creation hemitted
          (find?_pending hdistinctTurn hpending) hturn hworks false).2 with
        ⟨hop, hbytes, hfolder, ev, hlog, htype, hresolves⟩ | ⟨hnot, hlog⟩
      · constructor
        · intro _
          exact ⟨⟨hop, hbytes, hfolder⟩, hcap, henabled⟩
        · intro _
          refine ⟨ev, ?_, htype, hresolves⟩
          rw [hlog]
          exact List.mem_append_right _ (List.mem_singleton_self ev)
      · constructor
        · rintro ⟨ev, hev, hwritten⟩
          rw [hlog] at hev
          exact absurd ⟨ev, hev, hwritten⟩ (notApplied_of_pending hpending)
        · rintro ⟨hall, -⟩
          exact absurd hall hnot
    · -- it is not among the items, so nothing applies it
      have hnone : Applied (mandateAutoapplySweep digest render envs s).2 p ↔
          Applied s p := by
        unfold mandateAutoapplySweep
        rw [sweepItems_enabled envs _ s henabled]
        exact applied_sweepStates envs _ s
          (not_mem_candidates hdistinct hi hcap)
      rw [hnone]
      exact ⟨fun happlied => absurd happlied hfresh,
        fun hall => absurd hall.2.1 hcap⟩
  · have hnone : (mandateAutoapplySweep digest render envs s).2 = s :=
      sweepItems_disabled envs s _ (Bool.not_eq_true _ ▸ henabled)
    rw [hnone]
    exact ⟨fun happlied => absurd happlied hfresh,
      fun hall => absurd hall.2.2 henabled⟩

/-- A proposal of a mandate is applied by a sweep, and an apply of it by hand
is not stale, exactly when it is a creation whose bytes are stored and whose
folder is there, among the eight oldest, while mandates are enabled. -/
theorem mandate_proposal_applied_iff {envs : String → WriteEnv}
    {env : WriteEnv} (hemitted : EmittedIn digest s₀ p)
    (hids : UniqueIds s.brain.log)
    (hi : (mandateProposals render s.brain.log)[i]? = some p)
    (hready : Ready digest s₀ s p)
    (hturn : Ready digest s₀ (stateAtTurn digest render envs s i) p)
    (hworks : Works env s)
    (hworksTurn : Works (envs p.id) (stateAtTurn digest render envs s i))
    (ack : Bool) :
    (Applied (mandateAutoapplySweep digest render envs s).2 p ∧
        ¬ Stale (applyProposal digest render s env p.id ack).1) ↔
      (p.op = "create" ∧
        BytesStored digest (stateAtTurn digest render envs s i) p ∧
        FolderThere (stateAtTurn digest render envs s i) p ∧
        i < mandateAutoapplyPerSweep ∧
        mandatesEnabled s.brain.log = true) := by
  have hdistinct := distinctProposals_of_unique hids
  have hpending : p ∈ pendingProposals render s.brain.log :=
    (List.mem_filter.mp (List.mem_of_getElem? hi)).1
  have hmanual := (applied_iff_creation hemitted
    (find?_pending hdistinct hpending) hready hworks ack).1
  rw [sweep_applies_iff hemitted hdistinct hi hturn hworksTurn, hmanual]
  constructor
  · rintro ⟨⟨⟨hop, hbytes, hfolder⟩, hcap, henabled⟩, -⟩
    exact ⟨hop, hbytes, hfolder, hcap, henabled⟩
  · rintro ⟨hop, hbytes, hfolder, hcap, henabled⟩
    exact ⟨⟨⟨hop, hbytes, hfolder⟩, hcap, henabled⟩, fun hne => hne hop⟩

end Turn

end Sweep

/-! ## An edit and a creation of a mandate -/

namespace MandateRun

def folder : Name := ⟨"a", isName_a⟩
def file : Name := ⟨"g", by decide⟩
def sourceFolder : Name := ⟨"s", isName_s⟩
def sourceFile : Name := ⟨"f", isName_f⟩

/-- The source, and the target where it has bytes. -/
def disk (target : Option Bytes) : Tree :=
  { cwd := []
    node := fun p =>
      if p = [folder] then some ⟨.directory, 1, 1, 0⟩
      else if p = [sourceFolder] then some ⟨.directory, 1, 2, 0⟩
      else if p = [sourceFolder, sourceFile] then
        some ⟨.regular [], 1, 3, 0⟩
      else if p = [folder, file] then
        target.map fun content => ⟨.regular content, 1, 4, 0⟩
      else none }

/-- A hash that tells these files apart. -/
def size (bytes : Bytes) : String := toString bytes.length

def noText : Json → String := fun _ => ""

def sources : List FileRecord := [⟨"/s/f", "note", "0", "/s"⟩]

/-- Keep `/a/g` in step with what is below `/s`. -/
def mandate : Mandate := ⟨"m", "/a/g", "/s", "", "", false⟩

/-- The sources have been synthesised before. -/
def start (target : Option Bytes) : ReviewState :=
  { brain :=
      { log :=
          [{ Event.draft memoryEventType (.obj []) none with id := "note" },
            { Event.draft memoryEventType (.obj []) none with id := "m" }]
        writeGrants := [⟨"/a", "", false⟩]
        mandates := [mandate]
        files := sources
        undo := []
        tree := disk target }
    proposalBytes := []
    synthesis := [⟨"m", sourcesHash size sources, [], ["note"]⟩] }

/-- The tick of the mandate. -/
def tick (target : Option Bytes) : Except BossclawError Unit × ReviewState :=
  runMandate size (.plain "p") true (start target) mandate (.error (.store ""))
    0

/-- The proposal of the tick. -/
def proposal (op : WriteOp) : PendingProposal :=
  { id := "p"
    target := "/a/g"
    op := op.str
    newContentHash := "0"
    rationale := ""
    inducingKey := mandateKey mandate (sourcesHash size sources)
    sourceEventIds := ["m", "note"]
    producer := m6cProposerProducer
    verdictSummary := .obj [("requires_loud_modal", .bool false),
      ("taint", .str "Clean"), ("allowed", .bool true)]
    baseContentHash := none }

def env : WriteEnv :=
  { mint := { id := "written", ts := "", sealOf := fun _ => .ok ("w", "w") }
    undoId := "undo", now := "", dev := 1, ino := 5, fails := none }

end MandateRun

section Runs

open MandateRun

theorem emitted_edit : EmittedIn size (start (some [0])) (proposal .edit) :=
  ⟨.plain "p", true, mandate, .error (.store ""), 0, (tick (some [0])).1,
    (tick (some [0])).2, _, rfl, rfl, rfl, rfl⟩

theorem emitted_create : EmittedIn size (start none) (proposal .create) :=
  ⟨.plain "p", true, mandate, .error (.store ""), 0, (tick none).1,
    (tick none).2, _, rfl, rfl, rfl, rfl⟩

theorem ready_tick {target : Option Bytes} {op : WriteOp}
    (hparse : parseOp (proposal op).op = some op)
    (hgranted : isWriteAllowed (tick target).2.brain (ofString "/a/g") =
      .ok true)
    (htree : (tick target).2.brain.tree = (start target).brain.tree)
    (hbytes : getProposalBytesChecked size (tick target).2 "p" "0" = .ok [])
    (hcalm : (proposeWrite size (tick target).2.brain
      (writeProposalOf (proposal op) op [])).verdict.requiresLoudModal =
        false) :
    Ready size (start target) (tick target).2 (proposal op) := by
  refine
    { sameEntry := by rw [htree]
      sameBytes := by rw [htree]
      granted := hgranted
      calm := ?_ }
  intro op' content hop hget
  rw [hparse] at hop
  have hcontent : content = [] := by
    have hsame := hget.symm.trans hbytes
    exact Except.ok.inj hsame
  rw [← Option.some.inj hop, hcontent]
  exact hcalm

theorem ready_edit :
    Ready size (start (some [0])) (tick (some [0])).2 (proposal .edit) :=
  ready_tick rfl rfl rfl rfl (by decide +kernel)

theorem ready_create :
    Ready size (start none) (tick none).2 (proposal .create) :=
  ready_tick rfl rfl rfl rfl (by decide +kernel)

/-- The edit of a mandate, of a file nobody has changed, is stale and not
applied by a sweep. -/
theorem mandate_edit_stale :
    EmittedIn size (start (some [0])) (proposal .edit) ∧
      (mandateProposals noText (tick (some [0])).2.brain.log)[0]? =
        some (proposal .edit) ∧
      Ready size (start (some [0])) (tick (some [0])).2 (proposal .edit) ∧
      Stale (applyProposal size noText (tick (some [0])).2 env "p" true).1 ∧
      ¬ Applied (mandateAutoapplySweep size noText (fun _ => env)
        (tick (some [0])).2).2 (proposal .edit) := by
  refine ⟨emitted_edit, rfl, ready_edit, ⟨_, rfl⟩, ?_⟩
  unfold Applied
  decide +kernel

theorem works_create : Works env (tick none).2 := by
  refine ⟨rfl, ⟨by decide +kernel, ?_⟩, ?_⟩
  · intro event
    exact ⟨"w", "w", rfl, by decide +kernel⟩
  · intro r hr
    cases hr

theorem mandate_proposal_applied_iff_sample :
    Applied (mandateAutoapplySweep size noText (fun _ => env) (tick none).2).2
        (proposal .create) ∧
      ¬ Stale (applyProposal size noText (tick none).2 env "p" true).1 := by
  have hturn : Ready size (start none) (stateAtTurn size noText
      (fun _ => env) (tick none).2 0) (proposal .create) := ready_create
  have hids : UniqueIds (tick none).2.brain.log := by
    unfold UniqueIds
    decide +kernel
  refine (mandate_proposal_applied_iff emitted_create hids rfl ready_create
    hturn works_create works_create true).mpr ?_
  exact ⟨rfl, ⟨[], rfl⟩, ⟨absolute [folder], [folder], rfl, rfl, rfl⟩,
    by decide, rfl⟩

end Runs

end AirNote
