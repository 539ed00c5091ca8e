import AirNote.Lib.Fold
import AirNote.Lib.Ranked
import Mathlib.Data.String.Basic

/-!
# The capture sweep

A sweep scans the transcripts, leaves out those that are captured as they are,
takes the oldest of the rest up to a cap, and renders and stores each of them.
A transcript that fails to render is counted and left as it was, so that the
next sweep takes it again.

A capture is modelled by what the sweep reads of it: the hash the log has for
the session, and whether its `.md` file is there, is a recovery stub, and when
it was written. The files without an event, which the sweep does not see, are
left out.

## Main results

* `backfill_not_starved_iff` — a transcript is captured by some sweep exactly
  where fewer transcripts than the cap stand before it and keep failing.
* `backfill_starved` — a full batch of failures stops the backfill.
-/

namespace AirNote

open Lib.Ranked

/-! ## Transcripts -/

/-- One character of a session identifier. -/
def sessionIdChar (c : Char) : Bool :=
  c.isAlphanum || c == '-' || c == '_'

/-- `valid_session_id`. -/
def validSessionId (id : String) : Bool :=
  !id.isEmpty && id.utf8ByteSize ≤ 128 && id.toList.all sessionIdChar

/-- `RenderError`. -/
inductive RenderError where
  | tooLarge (limit actual : Nat)
  | io (message : String)
  | wallClock
  deriving DecidableEq, Repr

/-- A `.jsonl` file under the projects root, with what opening and rendering it
gives: the hash of the rendered bytes, or an error. -/
structure Transcript where
  sessionId : String
  project : String
  mtime : Int
  rendered : Except RenderError String
  valid : validSessionId sessionId = true

/-- `TranscriptCandidate`; its path is that of its session in its project. -/
structure TranscriptCandidate where
  sessionId : String
  project : String
  mtime : Int
  shaIfKnown : Option String
  deriving DecidableEq, Repr

/-- `CurrentCapture`. -/
structure CurrentCapture where
  sha256 : String
  mdExists : Bool
  mdIsStub : Bool
  deriving DecidableEq, Repr

/-! ## The decision -/

/-- `QUIET_SECS`. -/
def quietSecs : Int := 600

/-- `CAPTURE_PER_SWEEP`. -/
def capturePerSweep : Nat := 8

/-- `SweepDecisionInput`. -/
structure SweepDecisionInput where
  onboarded : Bool
  captureEnabled : Bool
  backfillConsented : Bool
  captureEnabledAt : Int
  now : Int
  candidates : List TranscriptCandidate
  alreadyCurrent : List (String × CurrentCapture)
  tombstoned : List String
  cap : Nat

/-- `include_candidate`. -/
def includeCandidate (c : TranscriptCandidate) (input : SweepDecisionInput) :
    Bool :=
  if input.tombstoned.contains c.sessionId then false
  else if input.now - c.mtime < quietSecs then false
  else
    match input.alreadyCurrent.lookup c.sessionId with
    | some cur =>
        let sameSha := c.shaIfKnown == some cur.sha256
        !(cur.mdExists && !cur.mdIsStub && sameSha)
    | none => c.mtime ≥ input.captureEnabledAt || input.backfillConsented

/-- Oldest transcript first, the session identifier as tiebreak. -/
def OlderFirst (a b : TranscriptCandidate) : Prop :=
  a.mtime < b.mtime ∨ (a.mtime = b.mtime ∧ a.sessionId ≤ b.sessionId)

instance : DecidableRel OlderFirst := fun a b =>
  inferInstanceAs (Decidable (a.mtime < b.mtime ∨ _))

/-- `decide_sweep`. -/
def decideSweep (input : SweepDecisionInput) : List TranscriptCandidate :=
  if !input.onboarded || !input.captureEnabled then []
  else
    ((input.candidates.filter fun c =>
      includeCandidate c input).insertionSort OlderFirst).take input.cap

/-! ## The sweep -/

/-- The `.md` file of a capture. -/
structure CaptureFile where
  stub : Bool
  mtime : Int
  deriving DecidableEq, Repr

/-- The current capture of a session. -/
structure HeldCapture where
  sha256 : String
  file : Option CaptureFile
  deriving DecidableEq, Repr

/-- The captures the log holds, the newest of a session first, and the sessions
the owner deleted. -/
structure CaptureStore where
  current : List (String × HeldCapture)
  deleted : List String

/-- The flags a sweep reads. -/
structure SweepSettings where
  onboarded : Bool
  captureEnabled : Bool
  backfillConsented : Bool
  captureEnabledAt : Int

/-- One sweep: the clock as it begins and as it writes, and the transcripts in
the order the scan finds them. -/
structure SweepCall where
  now : Int
  wrote : Int
  scan : List Transcript

/-- `scan_candidates`. -/
def scanCandidates (scan : List Transcript) : List TranscriptCandidate :=
  scan.map fun f =>
    { sessionId := f.sessionId, project := f.project, mtime := f.mtime
      shaIfKnown := none }

/-- A capture as `build_current_map` shows it. -/
def HeldCapture.shown (held : HeldCapture) : CurrentCapture :=
  { sha256 := held.sha256
    mdExists := held.file.isSome
    mdIsStub := held.file.any CaptureFile.stub }

def CaptureStore.currentMap (store : CaptureStore) :
    List (String × CurrentCapture) :=
  store.current.map fun p => (p.1, p.2.shown)

/-- The hash `build_current_map` adopts: that of the capture whose file is no
older than the transcript. -/
def CaptureStore.adopt (store : CaptureStore) (c : TranscriptCandidate) :
    TranscriptCandidate :=
  match store.current.lookup c.sessionId with
  | some ⟨sha256, some file⟩ =>
      if c.mtime ≤ file.mtime then { c with shaIfKnown := some sha256 } else c
  | _ => c

def SweepCall.input (call : SweepCall) (settings : SweepSettings)
    (store : CaptureStore) : SweepDecisionInput where
  onboarded := settings.onboarded
  captureEnabled := settings.captureEnabled
  backfillConsented := settings.backfillConsented
  captureEnabledAt := settings.captureEnabledAt
  now := call.now
  candidates := (scanCandidates call.scan).map store.adopt
  alreadyCurrent := store.currentMap
  tombstoned := store.deleted
  cap := capturePerSweep

/-- `store_capture`: the file, then the event. -/
def CaptureStore.storeCapture (store : CaptureStore) (wrote : Int)
    (sessionId sha256 : String) : CaptureStore :=
  if store.deleted.contains sessionId then store
  else
    { store with
      current := (sessionId, ⟨sha256, some ⟨false, wrote⟩⟩) :: store.current }

/-- One candidate: open, render, store; an error is counted. -/
def CaptureStore.captureOne (call : SweepCall) (store : CaptureStore)
    (c : TranscriptCandidate) : CaptureStore :=
  match call.scan.find? fun f =>
      f.sessionId == c.sessionId && f.project == c.project with
  | none => store
  | some f =>
      match f.rendered with
      | .error _ => store
      | .ok sha256 => store.storeCapture call.wrote c.sessionId sha256

/-- A missing file comes back as a stub. -/
def HeldCapture.healed (wrote : Int) (held : HeldCapture) : HeldCapture :=
  { held with file := some (held.file.getD ⟨true, wrote⟩) }

/-- `heal_orphans`, on the sessions of the log. -/
def CaptureStore.healOrphans (store : CaptureStore) (wrote : Int) :
    CaptureStore :=
  { store with
    current := store.current.map fun p => (p.1, p.2.healed wrote) }

/-- `run_sweep_once`. -/
def runSweepOnce (settings : SweepSettings) (store : CaptureStore)
    (call : SweepCall) : CaptureStore :=
  if !settings.onboarded || !settings.captureEnabled then store
  else
    ((decideSweep (call.input settings store)).foldl
      (CaptureStore.captureOne call) store).healOrphans call.wrote

/-- The store after the first `n` sweeps. -/
def afterSweeps (settings : SweepSettings) (store : CaptureStore)
    (calls : Nat → SweepCall) : Nat → CaptureStore
  | 0 => store
  | n + 1 => runSweepOnce settings (afterSweeps settings store calls n) (calls n)

/-! ## What a sweep wants -/

/-- The candidate of a transcript, before `build_current_map`. -/
def Transcript.candidate (f : Transcript) : TranscriptCandidate :=
  { sessionId := f.sessionId, project := f.project, mtime := f.mtime
    shaIfKnown := none }

/-- The sweep would take the transcript once it is quiet. -/
def CaptureStore.wants (store : CaptureStore) (settings : SweepSettings)
    (f : Transcript) : Bool :=
  !store.deleted.contains f.sessionId &&
    match store.current.lookup f.sessionId with
    | some ⟨_, some file⟩ => file.stub || decide (file.mtime < f.mtime)
    | some ⟨_, none⟩ => true
    | none =>
        decide (f.mtime ≥ settings.captureEnabledAt) ||
          settings.backfillConsented

/-- The transcript is quiet when the sweep begins. -/
def SweepCall.quiet (call : SweepCall) (f : Transcript) : Bool :=
  decide (quietSecs ≤ call.now - f.mtime)

/-- The transcripts the sweep would take, were there no cap. -/
def SweepCall.wanted (call : SweepCall) (settings : SweepSettings)
    (store : CaptureStore) : List Transcript :=
  call.scan.filter fun f => store.wants settings f && call.quiet f

variable {settings : SweepSettings} {store store' : CaptureStore}
  {call : SweepCall} {f g t : Transcript}

@[simp] theorem adopt_sessionId (store : CaptureStore)
    (c : TranscriptCandidate) : (store.adopt c).sessionId = c.sessionId := by
  unfold CaptureStore.adopt
  split
  · split <;> rfl
  · rfl

@[simp] theorem adopt_mtime (store : CaptureStore) (c : TranscriptCandidate) :
    (store.adopt c).mtime = c.mtime := by
  unfold CaptureStore.adopt
  split
  · split <;> rfl
  · rfl

@[simp] theorem adopt_project (store : CaptureStore) (c : TranscriptCandidate) :
    (store.adopt c).project = c.project := by
  unfold CaptureStore.adopt
  split
  · split <;> rfl
  · rfl

/-- The sweep takes what it wants, once it is quiet. -/
theorem includeCandidate_eq (settings : SweepSettings) (store : CaptureStore)
    (call : SweepCall) (f : Transcript) :
    includeCandidate (store.adopt f.candidate) (call.input settings store) =
      (store.wants settings f && call.quiet f) := by
  have hlookup : (call.input settings store).alreadyCurrent.lookup
      f.sessionId = (store.current.lookup f.sessionId).map
        HeldCapture.shown :=
    Lib.Fold.lookup_map_snd HeldCapture.shown store.current f.sessionId
  have hid : f.candidate.sessionId = f.sessionId := rfl
  have htime : f.candidate.mtime = f.mtime := rfl
  unfold includeCandidate CaptureStore.wants SweepCall.quiet
  rw [adopt_sessionId, adopt_mtime, hid, htime, hlookup]
  simp only [SweepCall.input, List.contains_eq_mem, decide_eq_true_eq]
  by_cases hdeleted : f.sessionId ∈ store.deleted
  · simp [hdeleted]
  · simp only [hdeleted, decide_false, if_false]
    by_cases hquiet : call.now - f.mtime < quietSecs
    · simp [hquiet, Int.not_le.mpr hquiet]
    · simp only [hquiet, Bool.not_false, Bool.true_and, Int.not_lt.mp hquiet,
        decide_true, Bool.and_true, if_false]
      cases hheld : store.current.lookup f.sessionId with
      | none => rfl
      | some held =>
          obtain ⟨sha256, file⟩ := held
          cases file with
          | none => rfl
          | some file =>
              have hadopt : store.adopt f.candidate =
                  if f.mtime ≤ file.mtime then
                    { f.candidate with shaIfKnown := some sha256 }
                  else f.candidate := by
                unfold CaptureStore.adopt
                rw [hid, hheld]
                rfl
              rw [hadopt]
              by_cases hle : f.mtime ≤ file.mtime
              · rw [if_pos hle]
                simp [Int.not_lt.mpr hle, HeldCapture.shown]
              · rw [if_neg hle]
                simp [Int.not_le.mp hle, Transcript.candidate]

/-- The candidates that are sorted are those of the transcripts wanted. -/
theorem filter_candidates (settings : SweepSettings) (store : CaptureStore)
    (call : SweepCall) :
    ((call.input settings store).candidates.filter fun c =>
      includeCandidate c (call.input settings store)) =
      (call.wanted settings store).map fun f => store.adopt f.candidate := by
  have hcandidates : (call.input settings store).candidates =
      call.scan.map fun f => store.adopt f.candidate := by
    simp only [SweepCall.input, scanCandidates, List.map_map]
    rfl
  rw [hcandidates, List.filter_map, SweepCall.wanted]
  congr 1
  refine List.filter_congr ?_
  intro f _
  exact includeCandidate_eq settings store call f

/-! ## What a sweep stores -/

@[simp] theorem storeCapture_deleted (store : CaptureStore) (wrote : Int)
    (sessionId sha256 : String) :
    (store.storeCapture wrote sessionId sha256).deleted = store.deleted := by
  unfold CaptureStore.storeCapture
  split <;> rfl

@[simp] theorem captureOne_deleted (call : SweepCall) (store : CaptureStore)
    (c : TranscriptCandidate) :
    (store.captureOne call c).deleted = store.deleted := by
  unfold CaptureStore.captureOne
  split
  · rfl
  · split
    · rfl
    · exact storeCapture_deleted store _ _ _

theorem foldl_captureOne_deleted (call : SweepCall)
    (cs : List TranscriptCandidate) (store : CaptureStore) :
    (cs.foldl (CaptureStore.captureOne call) store).deleted =
      store.deleted := by
  induction cs generalizing store with
  | nil => rfl
  | cons c cs ih =>
      rw [List.foldl_cons, ih, captureOne_deleted]

/-- Sessions have one transcript each. -/
def DistinctSessions (files : List Transcript) : Prop :=
  (files.map Transcript.sessionId).Nodup

theorem DistinctSessions.eq_of_id {files : List Transcript}
    (h : DistinctSessions files) (hf : f ∈ files) (hg : g ∈ files)
    (hid : f.sessionId = g.sessionId) : f = g :=
  List.inj_on_of_nodup_map h hf hg hid

/-- The candidate of a transcript opens that transcript. -/
theorem find_candidate (hids : DistinctSessions call.scan)
    (hf : f ∈ call.scan) :
    (call.scan.find? fun g => g.sessionId ==
        (store.adopt f.candidate).sessionId &&
      g.project == (store.adopt f.candidate).project) = some f := by
  rw [adopt_sessionId, adopt_project]
  have hself : (f.sessionId == f.candidate.sessionId &&
      f.project == f.candidate.project) = true := by
    simp [Transcript.candidate]
  cases hfind : call.scan.find? fun g => g.sessionId == f.candidate.sessionId &&
      g.project == f.candidate.project with
  | none =>
      rw [List.find?_eq_none] at hfind
      exact absurd hself (hfind f hf)
  | some g =>
      have hg := List.mem_of_find?_eq_some hfind
      have hsame := List.find?_some hfind
      simp only [Bool.and_eq_true, beq_iff_eq] at hsame
      rw [hids.eq_of_id hg hf hsame.1]

theorem captureOne_of_error (hids : DistinctSessions call.scan)
    (hf : f ∈ call.scan) {e : RenderError} (herror : f.rendered = .error e)
    (store₀ : CaptureStore) :
    store.captureOne call (store₀.adopt f.candidate) = store := by
  unfold CaptureStore.captureOne
  rw [find_candidate hids hf]
  simp only [herror]

theorem captureOne_of_ok (hids : DistinctSessions call.scan)
    (hf : f ∈ call.scan) {sha256 : String} (hok : f.rendered = .ok sha256)
    (store₀ : CaptureStore) :
    store.captureOne call (store₀.adopt f.candidate) =
      store.storeCapture call.wrote f.sessionId sha256 := by
  unfold CaptureStore.captureOne
  rw [find_candidate hids hf]
  simp only [hok, adopt_sessionId]
  rfl

theorem lookup_storeCapture_ne {x sessionId : String} (hx : x ≠ sessionId)
    (store : CaptureStore) (wrote : Int) (sha256 : String) :
    (store.storeCapture wrote sessionId sha256).current.lookup x =
      store.current.lookup x := by
  unfold CaptureStore.storeCapture
  split
  · rfl
  · rw [List.lookup_cons, beq_eq_false_iff_ne.mpr hx]

theorem lookup_storeCapture_self {sessionId : String}
    (hdeleted : store.deleted.contains sessionId = false) (wrote : Int)
    (sha256 : String) :
    (store.storeCapture wrote sessionId sha256).current.lookup sessionId =
      some ⟨sha256, some ⟨false, wrote⟩⟩ := by
  unfold CaptureStore.storeCapture
  rw [hdeleted, if_neg (by simp), List.lookup_cons_self]

/-- A session none of whose transcripts is stored is left alone. -/
theorem lookup_foldl_of_none {fs : List Transcript} {x : String}
    (hids : DistinctSessions call.scan) (hfs : ∀ f ∈ fs, f ∈ call.scan)
    (hnone : ∀ f ∈ fs, f.sessionId = x → ∃ e, f.rendered = .error e)
    (store₀ store : CaptureStore) :
    ((fs.map fun f => store₀.adopt f.candidate).foldl
      (CaptureStore.captureOne call) store).current.lookup x =
      store.current.lookup x := by
  induction fs generalizing store with
  | nil => rfl
  | cons f fs ih =>
      have hf : f ∈ call.scan := hfs f List.mem_cons_self
      rw [List.map_cons, List.foldl_cons,
        ih (fun g hg => hfs g (List.mem_cons_of_mem f hg))
          (fun g hg => hnone g (List.mem_cons_of_mem f hg))]
      cases hrendered : f.rendered with
      | error e => rw [captureOne_of_error hids hf hrendered]
      | ok sha256 =>
          rw [captureOne_of_ok hids hf hrendered]
          refine lookup_storeCapture_ne ?_ store call.wrote sha256
          rintro rfl
          obtain ⟨e, he⟩ := hnone f List.mem_cons_self rfl
          rw [hrendered] at he
          cases he

/-- A session one of whose transcripts renders is captured. -/
theorem lookup_foldl_of_ok {fs : List Transcript} {sha256 : String}
    (hids : DistinctSessions call.scan) (hfs : ∀ f ∈ fs, f ∈ call.scan)
    (hf : f ∈ fs) (hok : f.rendered = .ok sha256)
    (hdeleted : store.deleted.contains f.sessionId = false)
    (store₀ : CaptureStore) :
    ((fs.map fun f => store₀.adopt f.candidate).foldl
      (CaptureStore.captureOne call) store).current.lookup f.sessionId =
      some ⟨sha256, some ⟨false, call.wrote⟩⟩ := by
  induction fs generalizing store with
  | nil => cases hf
  | cons g fs ih =>
      have hg : g ∈ call.scan := hfs g List.mem_cons_self
      have hrest : ∀ f ∈ fs, f ∈ call.scan := fun f hf =>
        hfs f (List.mem_cons_of_mem g hf)
      rw [List.map_cons, List.foldl_cons]
      by_cases hin : f ∈ fs
      · refine ih hrest hin ?_
        rw [captureOne_deleted]
        exact hdeleted
      · have hfg : f = g := (List.mem_cons.mp hf).resolve_right hin
        subst hfg
        rw [lookup_foldl_of_none hids hrest ?_ store₀,
          captureOne_of_ok hids hg hok, lookup_storeCapture_self hdeleted]
        intro f' hf' hid
        exact absurd (hids.eq_of_id (hrest f' hf') hg hid ▸ hf') hin

/-! ## One sweep -/

/-- Capture is on. -/
def SweepSettings.On (settings : SweepSettings) : Prop :=
  settings.onboarded = true ∧ settings.captureEnabled = true

/-- A transcript stands before another in the order of a sweep. -/
def Transcript.Before (f g : Transcript) : Prop :=
  OlderFirst f.candidate g.candidate

instance : DecidableRel Transcript.Before := fun f g =>
  inferInstanceAs (Decidable (OlderFirst f.candidate g.candidate))

theorem before_iff : f.Before g ↔
    f.mtime < g.mtime ∨ (f.mtime = g.mtime ∧ f.sessionId ≤ g.sessionId) :=
  Iff.rfl

theorem olderFirst_adopt (store store' : CaptureStore) :
    OlderFirst (store.adopt f.candidate) (store'.adopt g.candidate) ↔
      f.Before g := by
  unfold OlderFirst
  rw [adopt_mtime, adopt_mtime, adopt_sessionId, adopt_sessionId]
  rfl

instance : Std.Total Transcript.Before where
  total f g := by
    rw [before_iff, before_iff]
    rcases lt_trichotomy f.mtime g.mtime with h | h | h
    · exact .inl (.inl h)
    · rcases le_total f.sessionId g.sessionId with hle | hle
      · exact .inl (.inr ⟨h, hle⟩)
      · exact .inr (.inr ⟨h.symm, hle⟩)
    · exact .inr (.inl h)

instance : IsTrans Transcript Transcript.Before where
  trans f g h := by
    rw [before_iff, before_iff, before_iff]
    rintro (hfg | ⟨hfg, hle⟩) (hgh | ⟨hgh, hle'⟩)
    · exact .inl (hfg.trans hgh)
    · exact .inl (hgh ▸ hfg)
    · exact .inl (hfg ▸ hgh)
    · exact .inr ⟨hfg.trans hgh, hle.trans hle'⟩

/-- The transcripts a sweep takes. -/
def SweepCall.taken (call : SweepCall) (settings : SweepSettings)
    (store : CaptureStore) : List Transcript :=
  ((call.wanted settings store).insertionSort Transcript.Before).take
    capturePerSweep

theorem decideSweep_eq (hon : settings.On) (store : CaptureStore)
    (call : SweepCall) :
    decideSweep (call.input settings store) =
      (call.taken settings store).map fun f => store.adopt f.candidate := by
  have hgate : (!(call.input settings store).onboarded ||
      !(call.input settings store).captureEnabled) = false := by
    simp [SweepCall.input, hon.1, hon.2]
  unfold decideSweep SweepCall.taken
  rw [hgate, if_neg (by simp), filter_candidates, List.map_take]
  congr 1
  refine (List.map_insertionSort (r := Transcript.Before) (s := OlderFirst)
    _ _ ?_).symm
  exact fun f _ g _ => (olderFirst_adopt store store).symm

theorem DistinctSessions.nodup {files : List Transcript}
    (h : DistinctSessions files) : files.Nodup :=
  List.Nodup.of_map _ h

theorem mem_wanted : f ∈ call.wanted settings store ↔
    f ∈ call.scan ∧ store.wants settings f = true ∧ call.quiet f = true := by
  rw [SweepCall.wanted, List.mem_filter, Bool.and_eq_true]

theorem mem_wanted_of_taken (h : f ∈ call.taken settings store) :
    f ∈ call.wanted settings store :=
  (List.mem_insertionSort _).mp (List.mem_of_mem_take h)

theorem wanted_antisymm (hids : DistinctSessions call.scan) :
    ∀ f ∈ call.wanted settings store, ∀ g ∈ call.wanted settings store,
      f.Before g → g.Before f → f = g := by
  intro f hf g hg hfg hgf
  rw [before_iff] at hfg hgf
  refine hids.eq_of_id (mem_wanted.1 hf).1 (mem_wanted.1 hg).1 ?_
  rcases hfg with hlt | ⟨heq, hle⟩
  · rcases hgf with hlt' | ⟨heq, -⟩
    · omega
    · omega
  · rcases hgf with hlt' | ⟨-, hle'⟩
    · omega
    · exact le_antisymm hle hle'

theorem nodup_wanted (hids : DistinctSessions call.scan) :
    (call.wanted settings store).Nodup := hids.nodup.filter _

theorem not_deleted_of_wants (h : store.wants settings f = true) :
    store.deleted.contains f.sessionId = false := by
  unfold CaptureStore.wants at h
  cases hdeleted : store.deleted.contains f.sessionId with
  | true =>
      rw [hdeleted] at h
      cases h
  | false => rfl

@[simp] theorem runSweepOnce_deleted (settings : SweepSettings)
    (store : CaptureStore) (call : SweepCall) :
    (runSweepOnce settings store call).deleted = store.deleted := by
  unfold runSweepOnce
  split
  · rfl
  · exact foldl_captureOne_deleted call _ store

theorem lookup_healOrphans (store : CaptureStore) (wrote : Int) (x : String) :
    (store.healOrphans wrote).current.lookup x =
      (store.current.lookup x).map (HeldCapture.healed wrote) :=
  Lib.Fold.lookup_map_snd (HeldCapture.healed wrote) store.current x

/-- A transcript that is taken and renders is captured as it is. -/
theorem lookup_of_taken (hon : settings.On)
    (hids : DistinctSessions call.scan) {sha256 : String}
    (htaken : f ∈ call.taken settings store) (hok : f.rendered = .ok sha256) :
    (runSweepOnce settings store call).current.lookup f.sessionId =
      some ⟨sha256, some ⟨false, call.wrote⟩⟩ := by
  have hall : ∀ g ∈ call.taken settings store, g ∈ call.scan := fun g hg =>
    (mem_wanted.1 (mem_wanted_of_taken hg)).1
  have hwants := (mem_wanted.1 (mem_wanted_of_taken htaken)).2.1
  unfold runSweepOnce
  rw [hon.1, hon.2, if_neg (by simp), lookup_healOrphans,
    decideSweep_eq hon, lookup_foldl_of_ok hids hall htaken hok
      (not_deleted_of_wants hwants)]
  rfl

/-- A transcript that is not taken, or fails, is left as it was, but for a
missing file. -/
theorem lookup_of_not_taken (hon : settings.On)
    (hids : DistinctSessions call.scan) (hf : f ∈ call.scan)
    (hnot : f ∈ call.taken settings store → ∃ e, f.rendered = .error e) :
    (runSweepOnce settings store call).current.lookup f.sessionId =
      (store.current.lookup f.sessionId).map
        (HeldCapture.healed call.wrote) := by
  have hall : ∀ g ∈ call.taken settings store, g ∈ call.scan := fun g hg =>
    (mem_wanted.1 (mem_wanted_of_taken hg)).1
  unfold runSweepOnce
  rw [hon.1, hon.2, if_neg (by simp), lookup_healOrphans,
    decideSweep_eq hon, lookup_foldl_of_none hids hall ?_]
  intro g hg hid
  have hgf : g = f := hids.eq_of_id (hall g hg) hf hid
  subst hgf
  exact hnot hg

/-- Such a transcript is wanted as it was. -/
theorem wants_of_not_taken (hon : settings.On)
    (hids : DistinctSessions call.scan) (hf : f ∈ call.scan)
    (hnot : f ∈ call.taken settings store → ∃ e, f.rendered = .error e) :
    (runSweepOnce settings store call).wants settings f =
      store.wants settings f := by
  unfold CaptureStore.wants
  rw [runSweepOnce_deleted, lookup_of_not_taken hon hids hf hnot]
  cases store.current.lookup f.sessionId with
  | none => rfl
  | some held =>
      obtain ⟨sha256, file⟩ := held
      cases file <;> rfl

/-- Once captured, a transcript is not wanted. -/
theorem wants_of_taken (hon : settings.On) (hids : DistinctSessions call.scan)
    (hclock : call.now ≤ call.wrote) {sha256 : String}
    (htaken : f ∈ call.taken settings store) (hok : f.rendered = .ok sha256) :
    (runSweepOnce settings store call).wants settings f = false := by
  have hquiet := (mem_wanted.1 (mem_wanted_of_taken htaken)).2.2
  have hlater : ¬ call.wrote < f.mtime := by
    have hage : quietSecs ≤ call.now - f.mtime := of_decide_eq_true hquiet
    have hsecs : quietSecs = 600 := rfl
    omega
  unfold CaptureStore.wants
  rw [lookup_of_taken hon hids htaken hok]
  simp [hlater]

/-! ## The backfill -/

/-- The sweeps go over the transcripts as they are, whatever the order of the
scan. -/
structure SweepCall.Over (call : SweepCall) (files : List Transcript) :
    Prop where
  scan : call.scan.Perm files
  clock : call.now ≤ call.wrote

/-- The clock goes on. -/
def ClockRuns (calls : Nat → SweepCall) : Prop :=
  ∀ time, ∃ n, ∀ m, n ≤ m → time ≤ (calls m).now

/-- The transcript fails to render, and the sweep wants it. -/
def CaptureStore.stuck (store : CaptureStore) (settings : SweepSettings)
    (f : Transcript) : Bool :=
  store.wants settings f && !f.rendered.isOk

/-- The transcripts that keep failing and stand before one. -/
def CaptureStore.ahead (store : CaptureStore) (settings : SweepSettings)
    (files : List Transcript) (t : Transcript) : List Transcript :=
  files.filter fun f => store.stuck settings f && decide (f.Before t)

/-- The transcript is taken by some sweep, and captured. -/
def CapturedBy (settings : SweepSettings) (store : CaptureStore)
    (calls : Nat → SweepCall) (t : Transcript) (sha256 : String) : Prop :=
  ∃ n, t ∈ (calls n).taken settings (afterSweeps settings store calls n) ∧
    ∃ held, (afterSweeps settings store calls (n + 1)).current.lookup
      t.sessionId = some held ∧ held.sha256 = sha256

variable {files : List Transcript} {calls : Nat → SweepCall}

theorem SweepCall.Over.distinct (h : call.Over files)
    (hids : DistinctSessions files) : DistinctSessions call.scan :=
  ((h.scan.map Transcript.sessionId).nodup_iff).mpr hids

theorem SweepCall.Over.mem (h : call.Over files) :
    f ∈ call.scan ↔ f ∈ files := h.scan.mem_iff

theorem isOk_eq_false {e : Except RenderError String} :
    e.isOk = false ↔ ∃ error, e = .error error := by
  cases e with
  | error e => simp [Except.isOk, Except.toBool]
  | ok a => simp [Except.isOk, Except.toBool]

/-- What fails stays stuck, and what is not stuck does not get stuck. -/
theorem stuck_runSweepOnce (hon : settings.On) (hids : DistinctSessions files)
    (hover : call.Over files) (hf : f ∈ files) :
    (runSweepOnce settings store call).stuck settings f =
      store.stuck settings f := by
  unfold CaptureStore.stuck
  cases hok : f.rendered.isOk with
  | true => simp
  | false =>
      rw [wants_of_not_taken hon (hover.distinct hids) (hover.mem.mpr hf)
        fun _ => isOk_eq_false.1 hok]

theorem stuck_afterSweeps (hon : settings.On) (hids : DistinctSessions files)
    (hover : ∀ n, (calls n).Over files) (hf : f ∈ files) (n : Nat) :
    (afterSweeps settings store calls n).stuck settings f =
      store.stuck settings f := by
  induction n with
  | zero => rfl
  | succ n ih =>
      rw [afterSweeps, stuck_runSweepOnce hon hids (hover n) hf]
      exact ih

theorem ahead_afterSweeps (hon : settings.On) (hids : DistinctSessions files)
    (hover : ∀ n, (calls n).Over files) (t : Transcript) (n : Nat) :
    (afterSweeps settings store calls n).ahead settings files t =
      store.ahead settings files t := by
  unfold CaptureStore.ahead
  refine List.filter_congr ?_
  intro f hf
  rw [stuck_afterSweeps hon hids hover hf n]

/-- A transcript that renders goes on being wanted until it is taken. -/
theorem wants_afterSweeps (hon : settings.On) (hids : DistinctSessions files)
    (hover : ∀ n, (calls n).Over files) (hf : f ∈ files) (n : Nat)
    (hnot : ∀ m, m < n → f ∉ (calls m).taken settings
      (afterSweeps settings store calls m)) :
    (afterSweeps settings store calls n).wants settings f =
      store.wants settings f := by
  induction n with
  | zero => rfl
  | succ n ih =>
      rw [afterSweeps, wants_of_not_taken hon ((hover n).distinct hids)
        ((hover n).mem.mpr hf) fun htaken =>
          absurd htaken (hnot n (Nat.lt_succ_self n))]
      exact ih fun m hm => hnot m (Nat.lt_succ_of_lt hm)

/-! ## Progress -/

/-- The transcripts before one that are still to be captured. -/
def CaptureStore.backlog (store : CaptureStore) (settings : SweepSettings)
    (files : List Transcript) (t : Transcript) : List Transcript :=
  files.filter fun f =>
    store.wants settings f && f.rendered.isOk && decide (f.Before t)

/-- Of a full batch before a transcript, at most so many fail as stand before
it. -/
theorem exists_taken_ok (hids : DistinctSessions files)
    (hover : call.Over files)
    (hfew : (store.ahead settings files t).length < capturePerSweep)
    (hfull : (call.taken settings store).length = capturePerSweep)
    (hbefore : ∀ f ∈ call.taken settings store, f.Before t) :
    ∃ f ∈ call.taken settings store, f.rendered.isOk = true := by
  by_contra hnone
  push Not at hnone
  have hnodup : (call.taken settings store).Nodup := by
    have hperm := List.perm_insertionSort Transcript.Before
      (call.wanted settings store)
    exact (hperm.nodup_iff.mpr (nodup_wanted (hover.distinct hids))).sublist
      (List.take_sublist _ _)
  have hsub : call.taken settings store ⊆ store.ahead settings files t := by
    intro f hf
    obtain ⟨hscan, hwants, -⟩ := mem_wanted.1 (mem_wanted_of_taken hf)
    have hfails : f.rendered.isOk = false := by simpa using hnone f hf
    refine List.mem_filter.mpr ⟨hover.mem.mp hscan, ?_⟩
    simp [CaptureStore.stuck, hwants, hfails, hbefore f hf]
  have hle := (List.subperm_of_subset hnodup hsub).length_le
  omega

/-- A sweep that passes over a quiet transcript shortens the backlog before it.
-/
theorem backlog_shrinks (hon : settings.On) (hids : DistinctSessions files)
    (hover : call.Over files) (ht : t ∈ files)
    (hwants : store.wants settings t = true) (hquiet : call.quiet t = true)
    (hfew : (store.ahead settings files t).length < capturePerSweep)
    (hpassed : t ∉ call.taken settings store) :
    ((runSweepOnce settings store call).backlog settings files t).length <
      (store.backlog settings files t).length := by
  have hdistinct := hover.distinct hids
  have hwanted : t ∈ call.wanted settings store :=
    mem_wanted.2 ⟨hover.mem.mpr ht, hwants, hquiet⟩
  obtain ⟨hfull, hbefore⟩ := mem_of_full_batch (nodup_wanted hdistinct)
    (wanted_antisymm hdistinct) hwanted hpassed
  obtain ⟨f, htaken, hok⟩ := exists_taken_ok hids hover hfew hfull hbefore
  obtain ⟨hscan, hfwants, -⟩ := mem_wanted.1 (mem_wanted_of_taken htaken)
  have hstays : ∀ g ∈ files,
      (runSweepOnce settings store call).wants settings g = true →
      store.wants settings g = true := by
    intro g hg hafter
    by_cases htakes : g ∈ call.taken settings store ∧ g.rendered.isOk = true
    · exact (mem_wanted.1 (mem_wanted_of_taken htakes.1)).2.1
    · rw [← wants_of_not_taken hon hdistinct (hover.mem.mpr hg) ?_]
      · exact hafter
      · intro hin
        refine isOk_eq_false.1 ?_
        simpa [hin] using htakes
  have hdone : (runSweepOnce settings store call).wants settings f = false := by
    obtain ⟨sha256, hsha⟩ : ∃ sha256, f.rendered = .ok sha256 := by
      cases hrendered : f.rendered with
      | error e =>
          rw [hrendered] at hok
          cases hok
      | ok sha256 => exact ⟨sha256, rfl⟩
    exact wants_of_taken hon hdistinct hover.clock htaken hsha
  unfold CaptureStore.backlog
  rw [← List.countP_eq_length_filter, ← List.countP_eq_length_filter]
  refine countP_lt_of_exists ?_ ⟨f, hover.mem.mp hscan, ?_, ?_⟩
  · intro g hg hafter
    simp only [Bool.and_eq_true] at hafter ⊢
    exact ⟨⟨hstays g hg hafter.1.1, hafter.1.2⟩, hafter.2⟩
  · simp [hfwants, hok, hbefore f htaken]
  · simp [hdone]

/-- With fewer failures ahead than the cap, a transcript is taken before long.
-/
theorem exists_taken (hon : settings.On) (hids : DistinctSessions files)
    (hover : ∀ n, (calls n).Over files) (ht : t ∈ files)
    (hwants : store.wants settings t = true)
    (hfew : (store.ahead settings files t).length < capturePerSweep)
    (hclock : ClockRuns calls) :
    ∃ n, t ∈ (calls n).taken settings (afterSweeps settings store calls n) := by
  by_contra hnever
  push Not at hnever
  obtain ⟨start, hquiet⟩ := hclock (t.mtime + quietSecs)
  have hbound : ∀ k, ((afterSweeps settings store calls
      (start + k)).backlog settings files t).length + k ≤
      ((afterSweeps settings store calls start).backlog settings files
        t).length := by
    intro k
    induction k with
    | zero => exact Nat.le_refl _
    | succ k ih =>
        have hstill : (afterSweeps settings store calls (start + k)).wants
            settings t = true := by
          rw [wants_afterSweeps hon hids hover ht (start + k)
            fun m _ => hnever m]
          exact hwants
        have hnow : (calls (start + k)).quiet t = true := by
          have htime := hquiet (start + k) (Nat.le_add_right start k)
          refine decide_eq_true ?_
          omega
        have hahead : ((afterSweeps settings store calls
            (start + k)).ahead settings files t).length < capturePerSweep := by
          rw [ahead_afterSweeps hon hids hover t (start + k)]
          exact hfew
        have hless := backlog_shrinks hon hids (hover (start + k)) ht hstill
          hnow hahead (hnever (start + k))
        have hnext : afterSweeps settings store calls (start + (k + 1)) =
            runSweepOnce settings (afterSweeps settings store calls (start + k))
              (calls (start + k)) := rfl
        rw [hnext]
        omega
  have hall := hbound (((afterSweeps settings store calls start).backlog
    settings files t).length + 1)
  omega

/-- With a full batch of failures ahead, it never is. -/
theorem not_taken_of_full (hon : settings.On) (hids : DistinctSessions files)
    (hover : ∀ n, (calls n).Over files) (ht : t ∈ files)
    (hok : t.rendered.isOk = true)
    (hfull : capturePerSweep ≤ (store.ahead settings files t).length) (n : Nat) :
    t ∉ (calls n).taken settings (afterSweeps settings store calls n) := by
  intro htaken
  have hdistinct := (hover n).distinct hids
  have hwanted := mem_wanted_of_taken htaken
  obtain ⟨-, -, hquiet⟩ := mem_wanted.1 hwanted
  have hrank := ((mem_take_insertionSort (nodup_wanted hdistinct)
    (wanted_antisymm hdistinct)).mp htaken).2
  rw [← ahead_afterSweeps hon hids hover t n] at hfull
  have hsub : t :: (afterSweeps settings store calls n).ahead settings files t ⊆
      ((calls n).wanted settings (afterSweeps settings store calls n)).filter
        fun f => decide (f.Before t) := by
    intro f hf
    rcases List.mem_cons.mp hf with rfl | hahead
    · exact List.mem_filter.mpr ⟨hwanted, decide_eq_true (refl_of _ f)⟩
    · obtain ⟨hin, hboth⟩ := List.mem_filter.mp hahead
      simp only [CaptureStore.stuck, Bool.and_eq_true] at hboth
      refine List.mem_filter.mpr ⟨mem_wanted.2
        ⟨(hover n).mem.mpr hin, hboth.1.1, ?_⟩, hboth.2⟩
      have hage : quietSecs ≤ (calls n).now - t.mtime :=
        of_decide_eq_true hquiet
      have hbefore := before_iff.1 (of_decide_eq_true hboth.2)
      refine decide_eq_true ?_
      omega
  have hnodup : (t :: (afterSweeps settings store calls n).ahead settings files
      t).Nodup := by
    refine List.nodup_cons.mpr ⟨?_, hids.nodup.filter _⟩
    intro hself
    have hstuck := (List.mem_filter.mp hself).2
    simp [CaptureStore.stuck, hok] at hstuck
  have hle := (List.subperm_of_subset hnodup hsub).length_le
  rw [List.length_cons, ← List.countP_eq_length_filter] at hle
  change capturePerSweep ≤ _ at hfull
  unfold rank at hrank
  omega

/-- A transcript that renders, that is new, not deleted and in the window of
the import is captured by some sweep, however the sweeps fall, if and only if
fewer transcripts than the cap stand before it and keep failing. -/
theorem backfill_not_starved_iff {settings : SweepSettings}
    {files : List Transcript} {store : CaptureStore} {t : Transcript}
    {sha256 : String} (hon : settings.On) (hids : DistinctSessions files)
    (ht : t ∈ files) (hrendered : t.rendered = .ok sha256)
    (hnew : store.current.lookup t.sessionId = none)
    (hdeleted : t.sessionId ∉ store.deleted)
    (hwindow : settings.backfillConsented = true ∨
      settings.captureEnabledAt ≤ t.mtime) :
    (∀ calls : Nat → SweepCall, (∀ n, (calls n).Over files) →
      ClockRuns calls → CapturedBy settings store calls t sha256) ↔
      (store.ahead settings files t).length < capturePerSweep := by
  have hok : t.rendered.isOk = true := by
    rw [hrendered]
    rfl
  have hwants : store.wants settings t = true := by
    unfold CaptureStore.wants
    rw [hnew]
    rcases hwindow with hconsent | hforward
    · simp [hdeleted, hconsent]
    · simp [hdeleted, hforward]
  constructor
  · intro hall
    by_contra hfull
    have hover : ∀ n : Nat, (SweepCall.mk n n files).Over files := fun n =>
      ⟨List.Perm.refl files, le_refl _⟩
    obtain ⟨n, htaken, -⟩ := hall (fun n => ⟨n, n, files⟩) hover (by
      intro time
      refine ⟨time.toNat, ?_⟩
      intro m hm
      show time ≤ (m : Int)
      omega)
    exact not_taken_of_full hon hids hover ht hok (by omega) n htaken
  · intro hfew calls hover hclock
    obtain ⟨n, htaken⟩ := exists_taken hon hids hover ht hwants hfew hclock
    exact ⟨n, htaken, _, lookup_of_taken hon ((hover n).distinct hids) htaken
      hrendered, rfl⟩

/-! ## Runs -/

def backfillOn : SweepSettings :=
  { onboarded := true, captureEnabled := true, backfillConsented := true
    captureEnabledAt := 100 }

/-- A transcript of 65 MiB. -/
def tooLargeTranscript (id : String) (h : validSessionId id = true) :
    Transcript :=
  { sessionId := id, project := "p", mtime := 0
    rendered := .error (.tooLarge 67108864 68157440), valid := h }

def lateTranscript : Transcript :=
  { sessionId := "z", project := "p", mtime := 1, rendered := .ok "d1"
    valid := by decide +kernel }

/-- One failure, and a full batch of them. -/
def someTooLarge : List Transcript :=
  [tooLargeTranscript "a" (by decide +kernel), lateTranscript]

def batchTooLarge : List Transcript :=
  [tooLargeTranscript "a" (by decide +kernel),
    tooLargeTranscript "b" (by decide +kernel),
    tooLargeTranscript "c" (by decide +kernel),
    tooLargeTranscript "d" (by decide +kernel),
    tooLargeTranscript "e" (by decide +kernel),
    tooLargeTranscript "f" (by decide +kernel),
    tooLargeTranscript "g" (by decide +kernel),
    tooLargeTranscript "h" (by decide +kernel), lateTranscript]

theorem backfill_not_starved_iff_sample :
    (∀ calls : Nat → SweepCall, (∀ n, (calls n).Over someTooLarge) →
      ClockRuns calls →
      CapturedBy backfillOn ⟨[], []⟩ calls lateTranscript "d1") ∧
    ((⟨[], []⟩ : CaptureStore).ahead backfillOn someTooLarge
      lateTranscript).length < capturePerSweep := by
  refine (and_iff_left ?_).mpr ((backfill_not_starved_iff ⟨rfl, rfl⟩ ?_ ?_ rfl
    rfl ?_ (.inl rfl)).mpr ?_)
  · decide +kernel
  · unfold DistinctSessions
    decide +kernel
  · simp [someTooLarge]
  · simp
  · decide +kernel

/-- Eight transcripts over the size limit that are older than another keep it
from being captured. -/
theorem backfill_starved :
    lateTranscript ∈ batchTooLarge ∧
      ∀ calls : Nat → SweepCall, (∀ n, (calls n).Over batchTooLarge) →
        ¬ CapturedBy backfillOn ⟨[], []⟩ calls lateTranscript "d1" := by
  refine ⟨by simp [batchTooLarge], ?_⟩
  rintro calls hover ⟨n, htaken, -⟩
  refine not_taken_of_full ⟨rfl, rfl⟩ ?_ hover ?_ rfl ?_ n htaken
  · unfold DistinctSessions
    decide +kernel
  · simp [batchTooLarge]
  · decide +kernel

end AirNote
