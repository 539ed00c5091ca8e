import AirNote.Execution
import AirNote.Proposals

/-!
# Applying a proposal while others write the file

An apply compares the file with the fingerprint of the proposal, then has the
write judged anew, and the new verdict takes its base from the file as it is
then. The execution compares the file with that base, and before the change
it looks at the inode once more. So a change of the file is noticed between
the read of the base and the guard; it goes unnoticed between the comparison
and the read of the base, and between the guard and the change where it keeps
the inode.

## Main results

* `applied_unclobbered_iff` — the bytes a successful apply replaces are those
  of the fingerprint exactly when neither window is used, or the second puts
  back what the first took away.
* `rebased_apply_clobbers` — a change in the first window is overwritten.
-/

namespace AirNote

open Lib.Paths Lib.FileTree

variable (digest : Bytes → String)

/-- The hash of the file a path leads to. -/
def hashRead (t : Tree) (target : String) : Option String :=
  (t.read (ofString target)).map digest

/-- The hash of the file in a place. -/
def hashAt (t : Tree) (q : Place) : Option String :=
  ((t.node q).bind Node.content?).map digest

/-- The bytes the change replaces hash to the fingerprint. -/
def Unclobbered (view : Access → Tree) (p : PendingProposal) (q : Place) :
    Prop :=
  hashAt digest (view .change) q = p.baseContentHash

/-- Nobody has changed the file between the comparison with the fingerprint
and the read of the base. -/
def BaseKept (view : Access → Tree) (p : PendingProposal) : Prop :=
  hashRead digest (view .base) p.target =
    hashRead digest (view .fresh) p.target

/-- Nobody has changed the file between the guard and the change. -/
def GuardKept (view : Access → Tree) (q : Place) : Prop :=
  hashAt digest (view .change) q = hashAt digest (view .guard) q

/-- Both windows were used, and the second put back what the first took
away. -/
def PutBack (view : Access → Tree) (p : PendingProposal) (q : Place) : Prop :=
  ¬ BaseKept digest view p ∧ ¬ GuardKept digest view q ∧
    hashAt digest (view .change) q = hashRead digest (view .fresh) p.target

variable {digest}

/-- A passed comparison has seen the fingerprint. -/
theorem checkFresh_ok {t : Tree} {p : PendingProposal} {op : WriteOp}
    (h : checkFresh digest t p op = .ok ()) (hop : op ≠ .create) :
    p.baseContentHash = hashRead digest t p.target ∧
      p.baseContentHash ≠ none := by
  unfold checkFresh at h
  split at h
  · exact absurd rfl hop
  all_goals
    split at h
    · cases h
    · next live hlive =>
        split at h
        · cases h
        · next base hbase =>
            split at h
            · cases h
            · next hsame =>
                rw [not_not] at hsame
                refine ⟨?_, ?_⟩
                · rw [hbase, hashRead, hlive, hsame]
                  rfl
                · rw [hbase]
                  exact Option.some_ne_none base

/-- What the gate of an interleaved execution has resolved and guarded. -/
theorem executeGateAmid_ok {s : BrainState} {view : Access → Tree}
    {env : WriteEnv} {gated : GatedProposal} {ack : Bool} {plan : WritePlan}
    (h : executeGateAmid digest s view env gated ack = .ok plan) :
    resolveTarget (s.seen view .resolve) gated.proposal =
        .ok (plan.parentDir, plan.finalName) ∧
      baseGuard digest (s.seen view .guard) env gated plan.target =
        .ok (plan.preBytes, plan.guardIdentity) := by
  unfold executeGateAmid at h
  cases hv : checkVerdict gated.verdict ack with
  | error e => simp [hv, bind, Except.bind] at h
  | ok u =>
      cases hr : resolveTarget (s.seen view .resolve) gated.proposal with
      | error e => simp [hv, hr, bind, Except.bind] at h
      | ok loc =>
          obtain ⟨parentDir, finalName⟩ := loc
          cases hg : recheckGrant (s.seen view .resolve)
              (parentDir ++ [finalName]) with
          | error e => simp [hv, hr, hg, bind, Except.bind] at h
          | ok u =>
              cases ho : openDirForWrite (s.seen view .resolve) env
                  parentDir with
              | error e => simp [hv, hr, hg, ho, bind, Except.bind] at h
              | ok u =>
                  cases hb : baseGuard digest (s.seen view .guard) env gated
                      (parentDir ++ [finalName]) with
                  | error e =>
                      simp [hv, hr, hg, ho, hb, bind, Except.bind] at h
                  | ok base =>
                      simp only [hv, hr, hg, ho, hb, bind, Except.bind] at h
                      split at h
                      · cases h
                      · cases h
                        exact ⟨rfl, hb⟩

/-- A successful execution passed its gate. -/
theorem gate_of_executeWriteAmid {s : BrainState} {view : Access → Tree}
    {env : WriteEnv} {gated : GatedProposal} {resolves : String} {ack : Bool}
    {written : String} {s' : BrainState}
    (h : executeWriteAmid digest s view env gated resolves ack =
      (.ok written, s')) :
    ∃ plan, executeGateAmid digest s view env gated ack = .ok plan := by
  unfold executeWriteAmid at h
  cases hgate : executeGateAmid digest s view env gated ack with
  | error e =>
      rw [hgate] at h
      cases h
  | ok plan => exact ⟨plan, rfl⟩

/-- The base of the new verdict is the file as its last access saw it. -/
theorem base_of_proposeWriteAmid (s : BrainState) (view : Access → Tree)
    (p : PendingProposal) {op : WriteOp} (content : Bytes)
    (hop : op ≠ .create) :
    (proposeWriteAmid digest s view
      (writeProposalOf p op content)).verdict.baseContentHash =
      hashRead digest (view .base) p.target := by
  unfold proposeWriteAmid
  dsimp only
  cases op with
  | create => exact absurd rfl hop
  | edit => rfl
  | delete => rfl

/-- The steps of a successful apply. -/
theorem applyProposalAmid_ok {render : Json → String} {s s' : ReviewState}
    {view : Access → Tree} {env : WriteEnv} {id written : String} {ack : Bool}
    (h : applyProposalAmid digest render s view env id ack =
      (.ok written, s')) :
    ∃ p op content brain,
      (pendingProposals render s.brain.log).find? (fun p => p.id == id) =
        some p ∧ parseOp p.op = some op ∧
      checkFresh digest (view .fresh) p op = .ok () ∧
      executeWriteAmid digest s.brain view env
        (proposeWriteAmid digest s.brain view (writeProposalOf p op content))
        p.id ack = (.ok written, brain) := by
  unfold applyProposalAmid at h
  split at h
  · cases h
  · next p hp =>
      split at h
      · cases h
      · next op hop =>
          split at h
          · cases h
          · next hfresh =>
              split at h
              · cases h
              · next content hcontent =>
                  dsimp only at h
                  split at h
                  · cases h
                  · split at h
                    · cases h
                    · next fileWrittenId brain hexec =>
                        cases h
                        exact ⟨p, op, content, brain, hp, hop, hfresh, hexec⟩

/-- The bytes a successful apply of an `Edit` or a `Delete` replaces are those
of the fingerprint exactly when neither window is used, or the second puts
back what the first took away. -/
theorem applied_unclobbered_iff {render : Json → String} {s s' : ReviewState}
    {view : Access → Tree} {env : WriteEnv} {id written : String} {ack : Bool}
    {p : PendingProposal}
    (hp : (pendingProposals render s.brain.log).find?
      (fun p => p.id == id) = some p)
    (hop : parseOp p.op ≠ some .create)
    (happly : applyProposalAmid digest render s view env id ack =
      (.ok written, s')) :
    ∃ q, (view .resolve).canonicalize (ofString p.target) = some q ∧
      (Unclobbered digest view p q ↔
        (BaseKept digest view p ∧ GuardKept digest view q) ∨
          PutBack digest view p q) := by
  obtain ⟨p', op, content, brain, hp', hparse, hfresh, hexec⟩ :=
    applyProposalAmid_ok happly
  have hsame : p' = p := by
    rw [hp] at hp'
    exact (Option.some.inj hp').symm
  rw [hsame] at hparse hfresh hexec
  have hne : op ≠ .create := by
    rintro rfl
    exact hop hparse
  obtain ⟨plan, hgate⟩ := gate_of_executeWriteAmid hexec
  obtain ⟨hresolved, hguard⟩ := executeGateAmid_ok hgate
  have hcanon : (view .resolve).canonicalize (ofString p.target) =
      some plan.target := resolveTarget_ok hresolved hne
  obtain ⟨n, current, hn, hkind, -, hhash, -⟩ := baseGuard_ok hguard hne
  -- the guard saw the base of the new verdict
  have hguarded : hashAt digest (view .guard) plan.target =
      hashRead digest (view .base) p.target := by
    rw [base_of_proposeWriteAmid s.brain view p content hne] at hhash
    have hnode : (view .guard).node plan.target = some n := hn
    rw [hhash, hashAt, hnode, Option.bind_some, Node.content?, hkind]
    rfl
  have hfinger := (checkFresh_ok hfresh hne).1
  refine ⟨plan.target, hcanon, ?_⟩
  unfold Unclobbered PutBack BaseKept GuardKept
  rw [hguarded, hfinger]
  constructor
  · intro h
    by_cases hkept : hashRead digest (view .base) p.target =
        hashRead digest (view .fresh) p.target
    · exact .inl ⟨hkept, h.trans hkept.symm⟩
    · refine .inr ⟨hkept, ?_, h⟩
      intro hlast
      exact hkept (hlast.symm.trans h)
  · rintro (⟨hkept, hlast⟩ | ⟨-, -, h⟩)
    · exact hlast.trans hkept
    · exact h

/-! ## A change in the first window -/

namespace Rebased

def folder : Name := ⟨"a", isName_a⟩
def file : Name := ⟨"f", isName_f⟩

/-- The file with these bytes. -/
def disk (content : Bytes) : Tree :=
  { cwd := []
    node := fun p =>
      if p = [folder] then some ⟨.directory, 1, 1, 0⟩
      else if p = [folder, file] then some ⟨.regular content, 1, 2, 0⟩
      else none }

def draft : ProposalDraft :=
  { target := "/a/f", op := .edit, content := [], contentHash := "0",
    rationale := "", inducingKey := .null,
    verdictSummary := .obj [("base_content_hash", .str "1")],
    lineage := ["note"], producer := m6bProposerProducer }

/-- The proposal, drafted when the file had one byte. -/
def state : ReviewState :=
  { brain :=
      { log := [{ Event.draft memoryEventType (.obj []) none with id := "note" },
          { writeProposalEvent draft with id := "p" }]
        writeGrants := [⟨"/a", "", false⟩]
        mandates := []
        files := []
        undo := []
        tree := disk [1] }
    proposalBytes := [⟨"p", [], "0"⟩]
    synthesis := [] }

/-- Another byte is written right after the comparison. -/
def view : Access → Tree
  | .fresh => disk [1]
  | _ => disk [1, 2]

def env : WriteEnv :=
  { mint := .plain "written", undoId := "undo", now := "", dev := 1, ino := 3,
    fails := none }

/-- A hash that tells these files apart. -/
def size (bytes : Bytes) : String := toString bytes.length

def render : Json → String := fun _ => ""

end Rebased

open Rebased in
/-- An apply overwrites a change made after the comparison. -/
theorem rebased_apply_clobbers :
    ∃ p, (pendingProposals render state.brain.log).find?
        (fun p => p.id == "p") = some p ∧ p.op = "edit" ∧
      (applyProposalAmid size render state view env "p" true).1 =
        .ok "written" ∧
      ¬ Unclobbered size view p [folder, file] := by
  refine ⟨pendingOf { writeProposalEvent draft with id := "p" },
    rfl, rfl, ?_, ?_⟩
  · rfl
  · unfold Unclobbered
    decide +kernel

open Rebased in
theorem applied_unclobbered_iff_sample :
    Unclobbered size (fun _ => disk [1])
      (pendingOf { writeProposalEvent draft with id := "p" })
      [folder, file] := by
  have happly : applyProposalAmid size render state (fun _ => disk [1]) env
      "p" true = (.ok "written", (applyProposalAmid size render state
        (fun _ => disk [1]) env "p" true).2) := Prod.ext rfl rfl
  have hfind : (pendingProposals render state.brain.log).find?
      (fun p => p.id == "p") =
      some (pendingOf { writeProposalEvent draft with id := "p" }) := rfl
  obtain ⟨q, hq, hiff⟩ := applied_unclobbered_iff hfind (by decide) happly
  have hplace : [folder, file] = q := by
    have hcanon : (disk [1]).canonicalize (ofString "/a/f") =
        some [folder, file] := by decide +kernel
    exact Option.some.inj (hcanon.symm.trans hq)
  rw [hplace]
  exact hiff.mpr (.inl ⟨rfl, by rw [← hplace]; rfl⟩)

end AirNote
