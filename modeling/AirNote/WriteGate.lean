import AirNote.Execution

/-!
# What the write gate lets through

The verdict on a proposal joins the cited events, the mandates, the tables of
tracked files and the tree; the execution checks the verdict and the tree
again before it changes a file.

A target that is itself a symbolic link is identified by the link and not by
the file behind it, so a link to another name of a tracked file goes
unnoticed; such a proposal is refused for the link, and the verdict says so.

## Main results

* `clean_verdict_cleared` — a clean verdict has every source cleared, and its
  target is untracked or the proposal is refused.
* `write_gate` — this, and what holds of every write that comes to the change
  of the file; a write that does not leaves everything as it was.
* `linked_alias_reads_clean` — the refused link that reads clean.
-/

namespace AirNote

open Lib.Paths Lib.FileTree

variable (digest : Bytes → String)

/-! ## The proposal -/

/-- An active mandate on the target of the proposal whose folder holds the
file the event was ingested from. -/
def MandateCovers (s : BrainState) (p : WriteProposal) (ev : Event) : Prop :=
  ∃ real src m, locateTarget s p = some real ∧
    (provenanceFromEvent ev).originPath = some src ∧ m ∈ s.mandates ∧
    m.revoked = false ∧ m.target = toText real ∧
    startsWith (ofString src) (ofString m.sourceScope) = true

/-- The cited identifier names an event that is not external, or whose use
for this target an active mandate authorises. -/
def SourceCleared (s : BrainState) (p : WriteProposal) (id : String) : Prop :=
  ∃ ev, eventById s.log id = some ev ∧
    (isExternal ev = false ∨ MandateCovers s p ev)

/-- The target is a file the engine tracks, under its path or another name of
the same file. -/
def TargetTracked (s : BrainState) (p : WriteProposal) : Prop :=
  ∃ rec ∈ s.files,
    (∃ real, locateTarget s p = some real ∧
      rec.canonicalPath = toText real) ∨
    (∃ q n, s.tree.canonicalize p.target = some q ∧ s.tree.node q = some n ∧
      hasIdentity s.tree n.dev n.ino rec = true)

variable {digest}

theorem mandateAuthorizes_iff {mandates : List Mandate}
    {canonicalTarget : String} {sourcePath : Option String} :
    mandateAuthorizes mandates canonicalTarget sourcePath = true ↔
      ∃ src m, sourcePath = some src ∧ m ∈ mandates ∧
        m.target = canonicalTarget ∧
        startsWith (ofString src) (ofString m.sourceScope) = true := by
  cases sourcePath with
  | none => simp [mandateAuthorizes]
  | some src => simp [mandateAuthorizes]

theorem mem_activeMandates {s : BrainState} {m : Mandate} :
    m ∈ activeMandates s ↔ m ∈ s.mandates ∧ m.revoked = false := by
  simp [activeMandates]

/-- The three reasons for which a verdict is not clean. -/
theorem taint_clean_iff {s : BrainState} {p : WriteProposal} :
    (proposeWrite digest s p).verdict.taint = .clean ↔
      citesUnresolvable s p = false ∧
        externalUnauthorized s (locateTarget s p) (citedProvenance s p) =
          false ∧
        ((locateTarget s p).bind fun real => anchoredRecord s (toText real)
          ((s.tree.lstat p.target).map fileId)) = none := by
  unfold proposeWrite
  simp only [ite_eq_right_iff, reduceCtorEq, imp_false, Bool.not_eq_true,
    Bool.or_eq_false_iff, Option.isSome_eq_false_iff, Option.isNone_iff_eq_none,
    and_assoc]

theorem mem_citedProvenance {s : BrainState} {p : WriteProposal} {id : String}
    {ev : Event} (hid : id ∈ p.sourceEventIds)
    (hev : eventById s.log id = some ev) :
    provenanceFromEvent ev ∈ citedProvenance s p := by
  rw [citedProvenance, List.mem_filterMap]
  exact ⟨id, hid, by rw [hev]; rfl⟩

/-- Where every external source is authorised, the target resolves and a
mandate authorises each. -/
theorem mandateAuthorizes_of_mem {s : BrainState} {canonical : Option Place}
    {provenance : List Provenance} {pr : Provenance}
    (h : externalUnauthorized s canonical provenance = false)
    (hmem : pr ∈ provenance) (hext : pr.isExternal = true) :
    ∃ real, canonical = some real ∧
      mandateAuthorizes (activeMandates s) (toText real) pr.originPath =
        true := by
  have hnot := List.any_eq_false.mp h pr (List.mem_filter.mpr ⟨hmem, hext⟩)
  cases canonical with
  | none => exact absurd rfl hnot
  | some real =>
      dsimp only at hnot
      rw [Bool.not_eq_true', Bool.not_eq_false] at hnot
      exact ⟨real, rfl, hnot⟩

/-- Every source of a clean verdict is cleared. -/
theorem sourceCleared_of_clean {s : BrainState} {p : WriteProposal}
    (h : (proposeWrite digest s p).verdict.taint = .clean) {id : String}
    (hid : id ∈ p.sourceEventIds) : SourceCleared s p id := by
  obtain ⟨hresolves, hauthorized, -⟩ := taint_clean_iff.1 h
  have hsome : eventById s.log id ≠ none := by
    intro hnone
    have hany : citesUnresolvable s p = true :=
      List.any_eq_true.mpr ⟨id, hid, by rw [hnone]; rfl⟩
    rw [hresolves] at hany
    cases hany
  obtain ⟨ev, hev⟩ := Option.ne_none_iff_exists'.mp hsome
  refine ⟨ev, hev, ?_⟩
  by_cases hext : isExternal ev = true
  · right
    obtain ⟨real, hreal, hmandate⟩ := mandateAuthorizes_of_mem hauthorized
      (mem_citedProvenance hid hev) hext
    obtain ⟨src, m, hsrc, hm, htarget, hscope⟩ :=
      mandateAuthorizes_iff.1 hmandate
    obtain ⟨hmem, hactive⟩ := mem_activeMandates.1 hm
    exact ⟨real, src, m, hreal, hsrc, hmem, hactive, htarget, hscope⟩
  · left
    rw [Bool.not_eq_true] at hext
    exact hext

/-! ### The target -/

/-- A tracked target is noticed, unless the proposal is refused. -/
theorem anchored_of_tracked {s : BrainState} {p : WriteProposal}
    (hreject : proposalRejectReason s p = none) (h : TargetTracked s p) :
    ((locateTarget s p).bind fun real => anchoredRecord s (toText real)
      ((s.tree.lstat p.target).map fileId)) ≠ none := by
  obtain ⟨real, hreal⟩ := locateTarget_isSome_of_noReject hreject
  rw [hreal, Option.bind_some]
  unfold anchoredRecord
  cases hpath : currentFileForPath s (toText real) with
  | some rec => simp
  | none =>
      obtain ⟨rec, hrec, hcase⟩ := h
      rcases hcase with ⟨real', hreal', heq⟩ | ⟨q, n, hq, hn, hident⟩
      · -- the path of the target is in the table
        have hsame : real' = real := by
          rw [hreal] at hreal'
          exact (Option.some.inj hreal').symm
        have hnone := List.find?_eq_none.mp hpath rec hrec
        rw [heq, hsame] at hnone
        simp at hnone
      · -- another name of the target is in the table
        obtain ⟨node, hlstat⟩ := Option.isSome_iff_exists.mp
          (lstat_isSome_of_canonicalize hq hn)
        obtain ⟨q', hq', hnode⟩ :=
          node_eq_lstat hlstat (noSymlink_of_noReject hreject hlstat)
        have hsame : node = n := by
          rw [hq] at hq'
          rw [← Option.some.inj hq', hn] at hnode
          exact (Option.some.inj hnode).symm
        rw [hlstat, hsame]
        show trackedFileWithIdentity s n.dev n.ino ≠ none
        intro hnone
        have habsent := List.find?_eq_none.mp hnone rec hrec
        exact habsent hident

/-- A clean verdict has every source cleared, and its target is untracked or
the proposal is refused. -/
theorem clean_verdict_cleared {s : BrainState} {p : WriteProposal}
    (h : (proposeWrite digest s p).verdict.taint = .clean) :
    (∀ id ∈ p.sourceEventIds, SourceCleared s p id) ∧
      ((proposeWrite digest s p).verdict.rejectReason = none →
        ¬ TargetTracked s p) := by
  refine ⟨fun id hid => sourceCleared_of_clean h hid, ?_⟩
  intro hreject htracked
  exact anchored_of_tracked hreject htracked (taint_clean_iff.1 h).2.2

/-! ## The execution -/

variable (digest) in
/-- The execution comes to the change of the file. -/
def ReachesMutate (s : BrainState) (env : WriteEnv) (gated : GatedProposal)
    (acknowledgedLoud : Bool) : Prop :=
  ∃ plan s₁, executeGate digest s env gated acknowledgedLoud = .ok plan ∧
    captureUndo digest s env gated plan = .ok s₁

variable (digest) in
/-- The file is the regular file the verdict saw: same device, inode and size,
and the same hash of its bytes. -/
def BaseUnchanged (s : BrainState) (gated : GatedProposal) : Prop :=
  ∃ q n current, s.tree.canonicalize gated.proposal.target = some q ∧
    s.tree.node q = some n ∧ n.kind = .regular current ∧
    gated.verdict.baseIdentity = some (fileId n) ∧
    gated.verdict.baseContentHash = some (digest current)

/-- What the verdict and the tree say of a write that comes to the change of
the file. -/
structure Cleared (digest : Bytes → String) (s : BrainState)
    (gated : GatedProposal) (acknowledgedLoud : Bool) : Prop where
  noReject : gated.verdict.rejectReason = none
  allowed : gated.verdict.allowed = true
  acknowledged : gated.verdict.requiresLoudModal = true →
    acknowledgedLoud = true
  base : gated.proposal.op ≠ .create → BaseUnchanged digest s gated

theorem cleared_of_reachesMutate {s : BrainState} {env : WriteEnv}
    {gated : GatedProposal} {ack : Bool}
    (h : ReachesMutate digest s env gated ack) :
    Cleared digest s gated ack := by
  obtain ⟨plan, s₁, hgate, -⟩ := h
  have hpassed := (executeGate_ok_iff digest).mp hgate
  obtain ⟨hreject, hallowed, hloud⟩ := checkVerdict_ok hpassed.verdict
  refine
    { noReject := hreject, allowed := hallowed, acknowledged := hloud,
      base := ?_ }
  intro hop
  have hcanon := resolveTarget_ok hpassed.resolved hop
  obtain ⟨n, current, hn, hkind, hident, hhash, -⟩ :=
    baseGuard_ok hpassed.guarded hop
  exact ⟨plan.target, n, current, hcanon, hn, hkind, hident, hhash⟩

/-- A write that does not come to the change of the file is refused and leaves
everything as it was. -/
theorem executeWrite_of_not_reaches {s : BrainState} {env : WriteEnv}
    {gated : GatedProposal} {ack : Bool}
    (h : ¬ ReachesMutate digest s env gated ack) :
    (∃ e, (executeWrite digest s env gated ack).1 = .error e) ∧
      (executeWrite digest s env gated ack).2 = s := by
  unfold executeWrite executeWriteInner
  cases hgate : executeGate digest s env gated ack with
  | error e => exact ⟨⟨e, rfl⟩, rfl⟩
  | ok plan =>
      cases hcapture : captureUndo digest s env gated plan with
      | error e => simp [hcapture]
      | ok s₁ => exact absurd ⟨plan, s₁, hgate, hcapture⟩ h

variable (digest) in
/-- The write gate. -/
theorem write_gate (s : BrainState) (p : WriteProposal) (env : WriteEnv)
    (gated : GatedProposal) (acknowledgedLoud : Bool) :
    ((proposeWrite digest s p).verdict.taint = .clean →
      (∀ id ∈ p.sourceEventIds, SourceCleared s p id) ∧
      ((proposeWrite digest s p).verdict.rejectReason = none →
        ¬ TargetTracked s p)) ∧
    (ReachesMutate digest s env gated acknowledgedLoud →
      Cleared digest s gated acknowledgedLoud) ∧
    (¬ ReachesMutate digest s env gated acknowledgedLoud →
      (executeWrite digest s env gated acknowledgedLoud).2 = s) :=
  ⟨clean_verdict_cleared, cleared_of_reachesMutate,
    fun h => (executeWrite_of_not_reaches h).2⟩

/-! ## A link to another name of a tracked file -/

namespace LinkedAlias

def folder : Name := ⟨"a", isName_a⟩
def tracked : Name := ⟨"tracked", by decide⟩
def second : Name := ⟨"second", by decide⟩
def link : Name := ⟨"link", by decide⟩

/-- One file under two names, and a link to the second. -/
def tree : Tree :=
  { cwd := []
    node := fun p =>
      if p = [folder] then some ⟨.directory, 1, 1, 0⟩
      else if p = [folder, tracked] ∨ p = [folder, second] then
        some ⟨.regular [], 1, 2, 0⟩
      else if p = [folder, link] then
        some ⟨.symlink [.normal second], 1, 3, 0⟩
      else none }

/-- The user's own note. -/
def note : Event :=
  { Event.draft memoryEventType (.obj []) none with id := "note" }

def state : BrainState :=
  { log := [note]
    writeGrants := [⟨"/a", "", false⟩]
    mandates := []
    files := [⟨"/a/tracked", "file", "", "/a"⟩]
    undo := []
    tree := tree }

def proposal : WriteProposal :=
  { target := absolute [folder, link], newContent := [], op := .edit,
    sourceEventIds := ["note"], rationale := "" }

/-- A file that is not there yet. -/
def creation : WriteProposal :=
  { target := absolute [folder, ⟨"fresh", by decide⟩], newContent := [],
    op := .create, sourceEventIds := ["note"], rationale := "" }

def env : WriteEnv :=
  { mint := .plain "written", undoId := "undo", now := "", dev := 1, ino := 4,
    fails := none }

end LinkedAlias

open LinkedAlias in
theorem write_gate_creation :
    (SourceCleared state creation "note" ∧ ¬ TargetTracked state creation) ∧
      Cleared (fun _ => "") state (proposeWrite (fun _ => "") state creation)
        false ∧
      (executeWrite (fun _ => "") state { env with fails := some .openDir }
        (proposeWrite (fun _ => "") state creation) false).2 = state := by
  have hgate := write_gate (fun _ => "") state creation env
    (proposeWrite (fun _ => "") state creation) false
  have hrefused := write_gate (fun _ => "") state creation
    { env with fails := some .openDir }
    (proposeWrite (fun _ => "") state creation) false
  have hclean := hgate.1 (by decide +kernel)
  refine ⟨⟨hclean.1 "note" (by decide), hclean.2 (by decide +kernel)⟩,
    hgate.2.1 ⟨_, _, rfl, rfl⟩, hrefused.2.2 ?_⟩
  rintro ⟨plan, s₁, hopen, -⟩
  cases hopen

open LinkedAlias in
/-- The claim without its exception: the target of a clean verdict is not a
tracked file. -/
theorem linked_alias_reads_clean :
    (proposeWrite (fun _ => "") state proposal).verdict.taint = .clean ∧
      TargetTracked state proposal ∧
      (proposeWrite (fun _ => "") state proposal).verdict.rejectReason =
        some "final path component is a symlink" := by
  refine ⟨by decide +kernel, ?_, by decide +kernel⟩
  refine ⟨⟨"/a/tracked", "file", "", "/a"⟩, by simp [state], ?_⟩
  right
  refine ⟨[folder, second], ⟨.regular [], 1, 2, 0⟩, ?_, ?_, ?_⟩
  · decide +kernel
  · decide +kernel
  · decide +kernel

end AirNote
