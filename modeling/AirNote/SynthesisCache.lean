import AirNote.Emissions
import AirNote.Lib.Hex
import AirNote.Lib.Lines
import AirNote.Lib.Trace

/-!
# The synthesis cache

A mandate is synthesised from the files below its scope. The key of the cache
is the digest of their paths and content hashes, which are those of the
projection; the texts that are sent to the reasoner are read from the disk.
Between a change of a file and its ingestion the two are not the same.

A run takes ticks of mandates, changes of the brain of any kind (edits,
ingestions, appends) and revocations. The calls of the reasoner that were
answered are kept with what was read for them.

## Main results

* `sourcesHash_inj` — a key names the paths and content hashes.
* `synthesis_cache_faithful` — what a hit was synthesised from, where every
  call read what the projection names.
* `edited_before_tick` — a hit synthesised from something else.
-/

namespace AirNote.SynthesisCache

open Lib Lib.Paths Lib.FileTree

/-! ## The key names what it was computed from -/

/-- The bytes of a text. -/
def textOf (s : String) : Bytes := s.toUTF8.data.toList

theorem textOf_injective : Function.Injective textOf := by
  intro s t h
  have hdata : s.toUTF8.data = t.toUTF8.data := Array.toList_inj.mp h
  exact String.toByteArray_inj.mp (ByteArray.ext hdata)

theorem zero_not_mem_utf8EncodeChar {c : Char} (h : c ≠ '\x00') :
    (0 : UInt8) ∉ String.utf8EncodeChar c := by
  have hor : ∀ x k : UInt8, 0 < k.toNat → 0 ≠ x ||| k := by
    intro x k hk heq
    have hnat := congrArg UInt8.toNat heq
    rw [UInt8.toNat_or] at hnat
    have hle : k.toNat ≤ x.toNat ||| k.toNat := Nat.right_le_or
    have hzero : (0 : UInt8).toNat = 0 := rfl
    omega
  rw [String.utf8EncodeChar_eq_utf8EncodeCharFast]
  unfold String.utf8EncodeCharFast
  dsimp only
  split
  next hsmall =>
    intro hmem
    have hzero := congrArg UInt8.toNat (List.mem_singleton.mp hmem)
    have hval : c.val.toNat ≤ 127 := hsmall
    rw [UInt32.toNat_toUInt8, Nat.mod_eq_of_lt (by omega)] at hzero
    exact h (Char.ext (UInt32.toNat_inj.mp hzero.symm))
  · split
    · simp [hor]
    · split
      · simp [hor]
      · simp [hor]

theorem zero_not_mem_textOf {s : String} (h : '\x00' ∉ s.toList) :
    (0 : UInt8) ∉ textOf s := by
  have hbytes : textOf s = s.toList.flatMap String.utf8EncodeChar := by
    rw [textOf, String.toUTF8_eq_toByteArray, ← String.utf8Encode_toList,
      List.utf8Encode, List.data_toByteArray]
  rw [hbytes, List.mem_flatMap]
  rintro ⟨c, hc, hzero⟩
  exact zero_not_mem_utf8EncodeChar (fun heq => h (heq ▸ hc)) hzero

/-- A path has no NUL, and a content hash is a hexadecimal number. -/
def Plain (files : List FileRecord) : Prop :=
  ∀ rec ∈ files, '\x00' ∉ rec.canonicalPath.toList ∧
    '\x00' ∉ rec.contentHash.toList

/-- The path and the content hash of a source. -/
def sourcePair (rec : FileRecord) : String × String :=
  (rec.canonicalPath, rec.contentHash)

variable {digest : Bytes → String}

/-- The bytes a key is the digest of are fields, each before a NUL. -/
theorem encode_pairs (pairs : List (String × String)) :
    (pairs.flatMap fun p =>
      p.1.toUTF8.data.toList ++ [0] ++ p.2.toUTF8.data.toList ++ [0]) =
      (pairs.flatMap fun p => [textOf p.1, textOf p.2]).flatMap
        fun field => field ++ [0] := by
  rw [List.flatMap_assoc]
  simp [textOf]

theorem fields_inj {a b : List (String × String)}
    (h : (a.flatMap fun p => [textOf p.1, textOf p.2]) =
      b.flatMap fun p => [textOf p.1, textOf p.2]) : a = b := by
  induction a generalizing b with
  | nil =>
      cases b with
      | nil => rfl
      | cons p b => simp at h
  | cons p a ih =>
      cases b with
      | nil => simp at h
      | cons q b =>
          simp only [List.flatMap_cons, List.cons_append, List.nil_append,
            List.cons.injEq] at h
          rw [ih h.2.2, Prod.ext (textOf_injective h.1)
            (textOf_injective h.2.1)]

/-- A key names the paths and content hashes it was computed from. -/
theorem sourcesHash_inj (hdigest : Function.Injective digest)
    {a b : List FileRecord} (ha : Plain a) (hb : Plain b)
    (h : sourcesHash digest a = sourcesHash digest b) :
    (a.map sourcePair).Perm (b.map sourcePair) := by
  have hplain {files : List FileRecord} (hfiles : Plain files)
      {pairs : List (String × String)}
      (hperm : pairs.Perm (files.map sourcePair)) :
      ∀ field ∈ pairs.flatMap fun p => [textOf p.1, textOf p.2],
        (0 : UInt8) ∉ field := by
    intro field hfield
    obtain ⟨p, hp, hmem⟩ := List.mem_flatMap.mp hfield
    obtain ⟨rec, hrec, rfl⟩ := List.mem_map.mp (hperm.mem_iff.mp hp)
    obtain ⟨hpath, hhash⟩ := hfiles rec hrec
    simp only [List.mem_cons, List.not_mem_nil, or_false] at hmem
    rcases hmem with rfl | rfl
    · exact zero_not_mem_textOf hpath
    · exact zero_not_mem_textOf hhash
  have hbytes := hdigest h
  rw [encode_pairs, encode_pairs] at hbytes
  have hpa := List.perm_insertionSort
    (fun a b : String × String => a.1 < b.1 ∨ (a.1 = b.1 ∧ a.2 ≤ b.2))
    (a.map sourcePair)
  have hpb := List.perm_insertionSort
    (fun a b : String × String => a.1 < b.1 ∨ (a.1 = b.1 ∧ a.2 ≤ b.2))
    (b.map sourcePair)
  have hsorted := fields_inj (Lines.flatMap_lines_inj (hplain ha hpa)
    (hplain hb hpb) hbytes)
  exact hpa.symm.trans (hsorted ▸ hpb)

/-! ## Runs -/

/-- The bytes found at the paths of the sources, if all can be read. -/
def readSources (t : Tree) (sources : List FileRecord) :
    Option (List (FileRecord × Bytes)) :=
  sources.mapM fun rec =>
    (t.read (ofString rec.canonicalPath)).map fun bytes => (rec, bytes)

/-- The fenced text of what was read, if all of it is text. -/
def fenceContents (contents : List (FileRecord × Bytes)) : Option String :=
  contents.foldlM (fun fenced c =>
    (String.fromUTF8? ⟨c.2.toArray⟩).map (pushFencedSource fenced)) ""

/-- A call of the reasoner for a mandate that was answered: what was read, the
text that was sent and what the answer says. -/
structure SynthCall where
  mandateGrantId : String
  contents : List (FileRecord × Bytes)
  fenced : String
  synced : String

/-- The sources that were read. -/
def SynthCall.sources (call : SynthCall) : List FileRecord :=
  call.contents.map Prod.fst

/-- The row the answer is stored in. -/
def SynthCall.row (digest : Bytes → String) (call : SynthCall) :
    SynthesisRow :=
  ⟨call.mandateGrantId, sourcesHash digest call.sources,
    call.synced.toUTF8.data.toList, call.sources.map FileRecord.fileEventId⟩

/-- The call a tick makes of the reasoner, where it is answered. -/
def synthCall (digest : Bytes → String) (s : ReviewState) (m : Mandate)
    (answer : Except BossclawError Json) : Option SynthCall :=
  let sources := mandateSources s m
  if maxSourcesPerMandate < sources.length ∨ sources = [] then none
  else
    match getSynthesisCache s m.mandateGrantId (sourcesHash digest sources),
      readSources s.brain.tree sources, fencedSources s.brain.tree sources,
      answer with
    | none, some contents, some fenced, .ok out =>
        if maxInputTextBytes < fenced.utf8ByteSize then none
        else
          some ⟨m.mandateGrantId, contents, fenced,
            (out.getStr? "synced_content").getD ""⟩
    | _, _, _, _ => none

/-- The tables, and the calls so far. -/
structure CacheState where
  review : ReviewState
  calls : List SynthCall

/-- Nothing is cached. -/
def CacheState.start (brain : BrainState) : CacheState :=
  ⟨⟨brain, [], []⟩, []⟩

/-- A change of anything but the cache, a tick of a mandate, or its
revocation, which purges its rows. -/
inductive CacheStep where
  | world (brain : BrainState)
  | tick (m : Mandate) (answer : Except BossclawError Json)
  | revoke (mandateGrantId : String)

/-- One step. -/
def CacheState.exec (digest : Bytes → String) (s : CacheState) :
    CacheStep → CacheState
  | .world brain => { s with review := { s.review with brain := brain } }
  | .tick m answer =>
      ⟨(mandatePhaseFor digest s.review m answer).2,
        s.calls ++ (synthCall digest s.review m answer).toList⟩
  | .revoke mandateGrantId =>
      { s with
        review :=
          { s.review with
            synthesis := s.review.synthesis.filter fun row =>
              row.mandateGrantId != mandateGrantId } }

/-- Every row is of a call. -/
def CacheState.FromCalls (digest : Bytes → String) (s : CacheState) : Prop :=
  ∀ row ∈ s.review.synthesis, ∃ call ∈ s.calls, call.row digest = row

/-! ## What a tick reads and stores -/

theorem foldlM_sources {t : Tree} {fenced : String} :
    ∀ {sources : List FileRecord} {before : String},
      (sources.foldlM (fun fenced rec =>
        (t.read (ofString rec.canonicalPath)).bind fun bytes =>
          (String.fromUTF8? ⟨bytes.toArray⟩).map (pushFencedSource fenced))
        before) = some fenced →
      ∃ contents, readSources t sources = some contents ∧
        contents.map Prod.fst = sources ∧
        (∀ c ∈ contents, t.read (ofString c.1.canonicalPath) = some c.2) ∧
        (contents.foldlM (fun fenced c =>
          (String.fromUTF8? ⟨c.2.toArray⟩).map (pushFencedSource fenced))
          before) = some fenced
  | [], before, h => ⟨[], rfl, rfl, by simp, h⟩
  | rec :: sources, before, h => by
      rw [List.foldlM_cons] at h
      obtain ⟨next, hnext, hrest⟩ := Option.bind_eq_some_iff.mp h
      obtain ⟨bytes, hread, htext⟩ := Option.bind_eq_some_iff.mp hnext
      obtain ⟨contents, hcontents, hfst, hall, hfold⟩ := foldlM_sources hrest
      refine ⟨(rec, bytes) :: contents, ?_, by simp [hfst], ?_, ?_⟩
      · unfold readSources at hcontents ⊢
        rw [List.mapM_cons, hread, hcontents]
        rfl
      · intro c hc
        rcases List.mem_cons.mp hc with rfl | hc
        · exact hread
        · exact hall c hc
      · rw [List.foldlM_cons, htext]
        exact hfold

/-- What is sent is what was read. -/
theorem fencedSources_some {t : Tree} {sources : List FileRecord}
    {fenced : String} (h : fencedSources t sources = some fenced) :
    ∃ contents, readSources t sources = some contents ∧
      contents.map Prod.fst = sources ∧
      (∀ c ∈ contents, t.read (ofString c.1.canonicalPath) = some c.2) ∧
      fenceContents contents = some fenced :=
  foldlM_sources h

theorem synthCall_spec {s : ReviewState} {m : Mandate}
    {answer : Except BossclawError Json} {call : SynthCall}
    (h : synthCall digest s m answer = some call) :
    getSynthesisCache s m.mandateGrantId
        (sourcesHash digest (mandateSources s m)) = none ∧
      call.mandateGrantId = m.mandateGrantId ∧
      call.sources = mandateSources s m ∧
      (∀ c ∈ call.contents,
        s.brain.tree.read (ofString c.1.canonicalPath) = some c.2) ∧
      fenceContents call.contents = some call.fenced := by
  unfold synthCall at h
  dsimp only at h
  split at h
  · cases h
  split at h
  next contents fenced out hget hread hfenced =>
    split at h
    · cases h
    · obtain ⟨contents', hread', hfst, hall, hfold⟩ :=
        fencedSources_some hfenced
      rw [hread, Option.some.injEq] at hread'
      obtain rfl := hread'
      cases h
      exact ⟨hget, rfl, hfst, hall, hfold⟩
  · cases h

/-- What the synthesis finds or stores: the row of a hit, the row of the
answer to its call, or none. -/
theorem synthesize_cases {s : ReviewState} {m : Mandate}
    {answer : Except BossclawError Json} {sources : List FileRecord}
    (hcap : ¬ (maxSourcesPerMandate < sources.length ∨ sources = []))
    (hsources : mandateSources s m = sources) :
    let r := synthesize s m answer sources (sourcesHash digest sources)
    (∃ row ∈ s.synthesis,
        r = (.ok (.inr (row.expectedBytes, row.sourceEventIdsAtSynth)), s)) ∨
      (∃ call, synthCall digest s m answer = some call ∧
        r = (.ok (.inr ((call.row digest).expectedBytes,
            (call.row digest).sourceEventIdsAtSynth)),
          putSynthesisCache s (call.row digest))) ∨
      (r.2 = s ∧ ∀ found, r.1 ≠ .ok (.inr found)) := by
  subst hsources
  intro r
  have hcall : synthCall digest s m answer =
      match getSynthesisCache s m.mandateGrantId
          (sourcesHash digest (mandateSources s m)),
        readSources s.brain.tree (mandateSources s m),
        fencedSources s.brain.tree (mandateSources s m), answer with
      | none, some contents, some fenced, .ok out =>
          if maxInputTextBytes < fenced.utf8ByteSize then none
          else
            some ⟨m.mandateGrantId, contents, fenced,
              (out.getStr? "synced_content").getD ""⟩
      | _, _, _, _ => none := by
    unfold synthCall
    dsimp only
    rw [if_neg hcap]
  simp only [r, synthesize]
  cases hget : getSynthesisCache s m.mandateGrantId
      (sourcesHash digest (mandateSources s m)) with
  | some row => exact Or.inl ⟨row, List.mem_of_find?_eq_some hget, rfl⟩
  | none =>
      cases hfenced : fencedSources s.brain.tree (mandateSources s m) with
      | none => exact Or.inr (Or.inr ⟨rfl, fun _ h => by cases h⟩)
      | some fenced =>
          obtain ⟨contents, hread, hfst, -, -⟩ := fencedSources_some hfenced
          dsimp only
          split
          · exact Or.inr (Or.inr ⟨rfl, fun _ h => by cases h⟩)
          next hsize =>
            cases answer with
            | error e => exact Or.inr (Or.inr ⟨rfl, fun _ h => by cases h⟩)
            | ok out =>
                rw [hget, hread, hfenced] at hcall
                simp only [if_neg hsize] at hcall
                dsimp only
                split
                · exact Or.inr (Or.inr ⟨rfl, fun _ h => by cases h⟩)
                split
                · exact Or.inr (Or.inr ⟨rfl, fun _ h => by cases h⟩)
                · refine Or.inr (Or.inl ⟨_, hcall, ?_⟩)
                  simp only [SynthCall.row, SynthCall.sources, hfst]

/-- A tick leaves the cache alone, or stores the answer to its call. -/
theorem mandatePhaseFor_cache (s : ReviewState) (m : Mandate)
    (answer : Except BossclawError Json) :
    (mandatePhaseFor digest s m answer).2 = s ∨
      ∃ call, synthCall digest s m answer = some call ∧
        (mandatePhaseFor digest s m answer).2 =
          putSynthesisCache s (call.row digest) := by
  unfold mandatePhaseFor
  dsimp only
  split
  · exact Or.inl rfl
  next hcap =>
    have hcases := @synthesize_cases digest s m answer (mandateSources s m)
      hcap rfl
    generalize synthesize s m answer (mandateSources s m)
      (sourcesHash digest (mandateSources s m)) = r at hcases
    obtain ⟨result, s'⟩ := r
    have hstate : s' = s ∨ ∃ call, synthCall digest s m answer = some call ∧
        s' = putSynthesisCache s (call.row digest) := by
      rcases hcases with ⟨row, -, heq⟩ | ⟨call, hcall, heq⟩ | ⟨heq, -⟩
      · exact Or.inl (Prod.mk.inj heq).2
      · exact Or.inr ⟨call, hcall, (Prod.mk.inj heq).2⟩
      · exact Or.inl heq
    cases result with
    | error e => exact hstate
    | ok found =>
        cases found with
        | inl action => exact hstate
        | inr found =>
            dsimp only
            split <;> exact hstate

/-- What a tick proposes is the text of a row the cache then has, and the
sources of the row are in its lineage. -/
theorem mandatePhaseFor_propose {s : ReviewState} {m : Mandate}
    {answer : Except BossclawError Json} {expected : Bytes}
    {lineage : List String} {op : WriteOp} {hash : String}
    (h : (mandatePhaseFor digest s m answer).1 =
      .ok (.propose expected lineage op hash)) :
    ∃ row ∈ (mandatePhaseFor digest s m answer).2.synthesis,
      row.expectedBytes = expected ∧
        ∀ id ∈ row.sourceEventIdsAtSynth, id ∈ lineage := by
  unfold mandatePhaseFor at h ⊢
  dsimp only at h ⊢
  split at h
  · cases h
  next hcap =>
    rw [if_neg hcap]
    have hcases := @synthesize_cases digest s m answer (mandateSources s m)
      hcap rfl
    generalize hr : synthesize s m answer (mandateSources s m)
      (sourcesHash digest (mandateSources s m)) = r at hcases h ⊢
    obtain ⟨result, s'⟩ := r
    have hshape := (synthesize_spec hr).2 expected lineage op hash
    cases result with
    | error e => cases h
    | ok found =>
        cases found with
        | inl action =>
            simp only [Except.ok.injEq] at h
            exact absurd (congrArg (fun a => Except.ok (Sum.inl a)) h) hshape
        | inr found =>
            obtain ⟨bytes, ids⟩ := found
            have hrow : ∃ row ∈ s'.synthesis, row.expectedBytes = bytes ∧
                row.sourceEventIdsAtSynth = ids := by
              rcases hcases with ⟨row, hrow, heq⟩ | ⟨call, -, heq⟩ | ⟨-, hno⟩
              · cases heq
                exact ⟨row, hrow, rfl, rfl⟩
              · cases heq
                exact ⟨_, List.mem_append_right _ List.mem_cons_self, rfl,
                  rfl⟩
              · exact absurd rfl (hno (bytes, ids))
            obtain ⟨row, hmem, rfl, rfl⟩ := hrow
            dsimp only at h ⊢
            split at h
            · cases h
            next htarget =>
              rw [if_neg htarget]
              simp only [Except.ok.injEq, MandateAction.propose.injEq] at h
              obtain ⟨rfl, rfl, -, -⟩ := h
              refine ⟨row, hmem, rfl, fun id hid => ?_⟩
              rw [mem_sortDedup, List.mem_cons, mem_sortDedup,
                List.mem_append]
              exact Or.inr (Or.inl hid)

/-! ## Every run -/

theorem fromCalls_exec (s : CacheState) (step : CacheStep)
    (h : s.FromCalls digest) : (s.exec digest step).FromCalls digest := by
  cases step with
  | world brain => exact h
  | revoke mandateGrantId =>
      exact fun row hrow => h row (List.mem_of_mem_filter hrow)
  | tick m answer =>
      intro row hrow
      have hold (hrow : row ∈ s.review.synthesis) :
          ∃ call ∈ (s.exec digest (.tick m answer)).calls,
            call.row digest = row := by
        obtain ⟨call, hcall, heq⟩ := h row hrow
        exact ⟨call, List.mem_append_left _ hcall, heq⟩
      have hcache := @mandatePhaseFor_cache digest s.review m answer
      rcases hcache with heq | ⟨call, hcall, heq⟩
      · exact hold (heq ▸ hrow)
      · have hrow : row ∈ (putSynthesisCache s.review
            (call.row digest)).synthesis := heq ▸ hrow
        rcases List.mem_append.mp hrow with hrow | hrow
        · exact hold (List.mem_of_mem_filter hrow)
        · refine ⟨call, List.mem_append_right _ ?_,
            (List.mem_singleton.mp hrow).symm⟩
          rw [hcall]
          exact List.mem_cons_self

/-- The files of a brain are tracked under plain paths and hashes. -/
def CacheStep.Lawful : CacheState → CacheStep → Prop
  | _, .world brain => Plain brain.files
  | _, _ => True

/-- A tick that finds no row reads what the projection names: no source was
changed on the disk since it was ingested. -/
def CacheStep.AsIngested (digest : Bytes → String) :
    CacheState → CacheStep → Prop
  | s, .tick m _ =>
      getSynthesisCache s.review m.mandateGrantId
          (sourcesHash digest (mandateSources s.review m)) = none →
        ∀ rec ∈ mandateSources s.review m, ∀ bytes,
          s.review.brain.tree.read (ofString rec.canonicalPath) =
              some bytes →
            digest bytes = rec.contentHash
  | _, _ => True

/-- What was read for every call is what the projection named. -/
structure CacheState.Named (digest : Bytes → String) (s : CacheState) :
    Prop where
  plain : Plain s.review.brain.files
  calls : ∀ call ∈ s.calls, Plain call.sources ∧
    fenceContents call.contents = some call.fenced ∧
    ∀ c ∈ call.contents, digest c.2 = c.1.contentHash

theorem plain_mandateSources {s : ReviewState} (h : Plain s.brain.files)
    (m : Mandate) : Plain (mandateSources s m) :=
  fun rec hrec => h rec (List.mem_of_mem_filter hrec)

theorem named_exec (s : CacheState) (step : CacheStep)
    (h : s.Named digest)
    (hstep : step.Lawful s ∧ step.AsIngested digest s) :
    (s.exec digest step).Named digest := by
  obtain ⟨hlawful, hcurrent⟩ := hstep
  cases step with
  | world brain => exact ⟨hlawful, h.calls⟩
  | revoke mandateGrantId => exact ⟨h.plain, h.calls⟩
  | tick m answer =>
      refine ⟨?_, fun call hcall => ?_⟩
      · show Plain (mandatePhaseFor digest s.review m answer).2.brain.files
        rw [(mandatePhaseFor_kept digest s.review m answer).1]
        exact h.plain
      · rcases List.mem_append.mp hcall with hcall | hcall
        · exact h.calls call hcall
        · obtain ⟨hmiss, -, hsources, hread, hfenced⟩ :=
            synthCall_spec (Option.mem_toList.mp hcall)
          refine ⟨hsources ▸ plain_mandateSources h.plain m, hfenced,
            fun c hc => ?_⟩
          have hmem : c.1 ∈ mandateSources s.review m :=
            hsources ▸ List.mem_map_of_mem hc
          exact hcurrent hmiss c.1 hmem c.2 (hread c hc)

/-- The row was synthesised from the contents the projection names: a call was
sent these, at the paths and with the content hashes of the sources. -/
def Faithful (digest : Bytes → String) (s : CacheState) (m : Mandate)
    (row : SynthesisRow) : Prop :=
  ∃ call ∈ s.calls, call.row digest = row ∧
    fenceContents call.contents = some call.fenced ∧
    (call.contents.map fun c => (c.1.canonicalPath, digest c.2)).Perm
      ((mandateSources s.review m).map sourcePair)

theorem faithful_of_named (hdigest : Function.Injective digest)
    {s : CacheState} (hcalls : s.FromCalls digest) (hnamed : s.Named digest)
    {m : Mandate} {row : SynthesisRow}
    (hhit : getSynthesisCache s.review m.mandateGrantId
      (sourcesHash digest (mandateSources s.review m)) = some row) :
    Faithful digest s m row := by
  obtain ⟨call, hcall, rfl⟩ := hcalls row (List.mem_of_find?_eq_some hhit)
  obtain ⟨hplain, hfenced, hcontents⟩ := hnamed.calls call hcall
  have hkey := List.find?_some hhit
  rw [Bool.and_eq_true, beq_iff_eq, beq_iff_eq] at hkey
  have hpairs : (call.contents.map fun c => (c.1.canonicalPath, digest c.2)) =
      call.sources.map sourcePair := by
    rw [SynthCall.sources, List.map_map]
    refine List.map_congr_left fun c hc => ?_
    rw [hcontents c hc]
    rfl
  refine ⟨call, hcall, rfl, hfenced, ?_⟩
  rw [hpairs]
  exact sourcesHash_inj hdigest hplain (plain_mandateSources hnamed.plain m)
    hkey.2

/-- **The synthesis cache is faithful where every call read what was
ingested.** In a run each of whose ticks that find no row reads sources that
were not changed since they were ingested, the row a tick finds was
synthesised from the contents its key names. In every run the sources sent for
what is proposed are in its lineage. -/
theorem synthesis_cache_faithful (hdigest : Function.Injective digest)
    (brain : BrainState) (hbrain : Plain brain.files)
    (steps : List CacheStep)
    (hlawful : Trace.Meets (CacheState.exec digest)
      (fun s step => step.Lawful s) (.start brain) steps)
    (n : Nat) (m : Mandate) (answer : Except BossclawError Json) :
    let s := Trace.run (CacheState.exec digest) (.start brain) (steps.take n)
    (Trace.Meets (CacheState.exec digest)
        (fun s step => step.AsIngested digest s) (.start brain) steps →
      ∀ row, getSynthesisCache s.review m.mandateGrantId
          (sourcesHash digest (mandateSources s.review m)) = some row →
        Faithful digest s m row) ∧
      ∀ expected lineage op hash,
        (mandatePhaseFor digest s.review m answer).1 =
            .ok (.propose expected lineage op hash) →
          ∃ call ∈ (s.exec digest (.tick m answer)).calls,
            (call.row digest).expectedBytes = expected ∧
              ∀ c ∈ call.contents, c.1.fileEventId ∈ lineage := by
  intro s
  have hcalls : s.FromCalls digest :=
    Trace.run_inv _ fromCalls_exec (fun row hrow => by cases hrow) _
  constructor
  · intro hcurrent row hhit
    have hnamed : s.Named digest := by
      refine Trace.run_take_inv_of_meets _ named_exec
        ⟨hbrain, fun call hcall => by cases hcall⟩ ?_ n
      exact hlawful.and hcurrent
    exact faithful_of_named hdigest hcalls hnamed hhit
  · intro expected lineage op hash hpropose
    obtain ⟨row, hrow, rfl, hids⟩ := mandatePhaseFor_propose hpropose
    obtain ⟨call, hcall, rfl⟩ :=
      fromCalls_exec s (.tick m answer) hcalls row hrow
    refine ⟨call, hcall, rfl, fun c hc => hids _ ?_⟩
    exact List.mem_map_of_mem (List.mem_map_of_mem hc)

/-! ### A file edited before the tick -/

/-- A note below the scope of a mandate. -/
def noteDisk (content : Bytes) : Tree :=
  { cwd := []
    node := fun p =>
      if p = [⟨"s", isName_s⟩] then some ⟨.directory, 1, 1, 0⟩
      else if p = [⟨"s", isName_s⟩, ⟨"f", isName_f⟩] then
        some ⟨.regular content, 1, 2, 0⟩
      else none }

/-- The note was ingested when it was `v`. -/
def noteRecord : FileRecord := ⟨"/s/f", "note", "76", "/s"⟩

def noteMandate : Mandate := ⟨"m", "/t", "/s", "", "", false⟩

/-- The note, with what the disk has of it. -/
def noteBrain (content : Bytes) : BrainState :=
  { log := [], writeGrants := [], mandates := [noteMandate],
    files := [noteRecord], undo := [], tree := noteDisk content }

/-- A tick that is answered. -/
def noteTick : CacheStep :=
  .tick noteMandate (.ok (.obj [("synced_content", .str "x")]))

/-- The state after the tick. -/
def afterTick (content : Bytes) : CacheState :=
  Trace.run (CacheState.exec Hex.encode) (.start (noteBrain content))
    [noteTick]

/-- The next tick finds a row that was synthesised from `w`, where the
projection names `v`. -/
theorem edited_before_tick : ∃ row,
    getSynthesisCache (afterTick [119]).review "m" (sourcesHash Hex.encode
        (mandateSources (afterTick [119]).review noteMandate)) = some row ∧
      ¬ Faithful Hex.encode (afterTick [119]) noteMandate row := by
  refine ⟨_, rfl, ?_⟩
  rintro ⟨call, hcall, -, -, hperm⟩
  have hcalls : (afterTick [119]).calls =
      [⟨"m", [(noteRecord, [119])],
        "<<<SOURCE_BEGIN>>>\nw\n<<<SOURCE_END>>>\n", "x"⟩] := by
    rfl
  have hsources : mandateSources (afterTick [119]).review noteMandate =
      [noteRecord] := by
    rfl
  rw [hcalls, List.mem_singleton] at hcall
  rw [hcall, hsources] at hperm
  revert hperm
  decide

theorem plain_note : Plain [noteRecord] := by
  unfold Plain
  decide

/-- Where the note was not edited, what the next tick finds was synthesised
from it. -/
theorem synthesis_cache_faithful_note : ∃ row,
    getSynthesisCache (afterTick [118]).review "m" (sourcesHash Hex.encode
        (mandateSources (afterTick [118]).review noteMandate)) = some row ∧
      Faithful Hex.encode (afterTick [118]) noteMandate row := by
  refine ⟨_, rfl, ?_⟩
  refine (synthesis_cache_faithful (fun _ _ => Hex.encode_injective)
    (noteBrain [118]) plain_note [noteTick] ⟨trivial, trivial⟩ 1 noteMandate
    (.error (.store ""))).1 ⟨?_, trivial⟩ _ rfl
  intro _ rec hrec bytes hread
  have hsources : mandateSources (CacheState.start (noteBrain [118])).review
      noteMandate = [noteRecord] := by
    rfl
  rw [hsources, List.mem_singleton] at hrec
  have hbytes : (noteDisk [118]).read (ofString "/s/f") = some [118] := by
    rfl
  subst hrec
  cases hbytes.symm.trans hread
  rfl

end AirNote.SynthesisCache
