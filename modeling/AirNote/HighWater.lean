import AirNote.AppendCalls

/-!
# The high-water mark

A cut-off tail still links and verifies, so the number of events and the hash
of the tip are recorded beside the log. On open, a log with fewer events than
the mark is refused as truncated. The recorded hash is never compared with
anything: a log that was rolled back and has grown past the mark again opens
and verifies.

## Main results

* `rollback_detected_iff` — the event the mark was taken at is in its place
  in every log that opens and verifies, exactly when the substituted table has
  that event there, does not verify, or has not grown back to the mark.
* `regrown_log_undetected` — an emptied log with one new event passes for the
  log it replaces.
-/

namespace AirNote

open Lib

/-! ## The mark -/

/-- `Mark`. -/
structure Mark where
  count : Nat
  tipHash : String
  deriving DecidableEq, Repr

/-- `checkpoint_highwater`: the mark it saves. A tip that cannot be read
counts as the origin. -/
def checkpointHighwater (tipFails : Bool) (table : List Row) : Mark :=
  { count := table.length
    tipHash := if tipFails then genesis else tipRowHash table }

/-- `open_with_highwater`, on what the store of the mark loads. -/
def openWithHighwater (load : Except BossclawError (Option Mark))
    (table : List Row) : Except BossclawError Unit :=
  match load with
  | .error err => .error err
  | .ok none => .ok ()
  | .ok (some mark) =>
      if table.length < mark.count then
        .error (.truncation
          s!"live count {table.length} < high-water {mark.count} (tail deleted)")
      else .ok ()

/-- Where the log opens against the mark and verifies, the event the mark was
taken at is in its place, with the recorded hash. -/
def Detects (P : Primitives) (mark : Mark) (table : List Row) : Prop :=
  openWithHighwater (.ok (some mark)) table = .ok () →
    verifyChain P table = .ok () →
    ∀ pos, pos + 1 = mark.count →
      ∃ row, table[pos]? = some row ∧ row.hash = mark.tipHash

theorem openWithHighwater_ok_iff {mark : Mark} {table : List Row} :
    openWithHighwater (.ok (some mark)) table = .ok () ↔
      mark.count ≤ table.length := by
  simp only [openWithHighwater]
  by_cases hlt : table.length < mark.count
  · rw [if_pos hlt]
    constructor
    · intro h
      cases h
    · intro hle
      omega
  · rw [if_neg hlt]
    exact ⟨fun _ => Nat.le_of_not_lt hlt, fun _ => rfl⟩

/-! ## What honest appends add -/

variable {P : Primitives}

/-- The table after honest appends: linked and sealed rows follow. -/
def Extends (P : Primitives) (table table' : List Row) : Prop :=
  ∃ rows, table' = table ++ rows ∧
    HashChain.Linked Row.prevHash Row.hash (tipRowHash table) rows ∧
    ∀ row ∈ rows, Sealed P row

theorem Extends.refl (table : List Row) : Extends P table table :=
  ⟨[], (List.append_nil table).symm, trivial, fun row hrow => by cases hrow⟩

theorem Extends.trans {first second third : List Row}
    (h : Extends P first second) (h' : Extends P second third) :
    Extends P first third := by
  obtain ⟨rows, rfl, hlinked, hsealed⟩ := h
  obtain ⟨more, rfl, hlinked', hsealed'⟩ := h'
  refine ⟨rows ++ more, List.append_assoc first rows more, ?_, ?_⟩
  · rw [HashChain.linked_append]
    refine ⟨hlinked, ?_⟩
    rw [tipRowHash_eq_tip, HashChain.tip_append] at hlinked'
    rw [tipRowHash_eq_tip]
    exact hlinked'
  · intro row hrow
    rcases List.mem_append.mp hrow with hold | hnew
    · exact hsealed row hold
    · exact hsealed' row hnew

theorem Extends.appendRowInTx {st : Stamp} {table table' : List Row}
    {event : Event} {id : String}
    (h : appendRowInTx P st table event = .ok (table', id)) :
    Extends P table table' := by
  rw [appendRowInTx_eq_insertRow] at h
  cases hinsert : insertRow P st ⟨false, fun _ => false, false⟩ table event with
  | error err =>
      rw [hinsert] at h
      cases h
  | ok row =>
      rw [hinsert] at h
      cases h
      have hrow := insertRow_ok hinsert
      refine ⟨[row], rfl, ⟨hrow.prev_eq, trivial⟩, ?_⟩
      intro r hr
      rw [List.mem_singleton.mp hr]
      exact hrow.isSealed

theorem Extends.exec (table : List Row) (call : RowCall) :
    Extends P table (call.exec P table) := by
  cases call with
  | append st event =>
      simp only [RowCall.exec]
      cases h : appendRow P st table event with
      | error err => exact Extends.refl table
      | ok r =>
          unfold appendRow at h
          split at h
          · cases h
          · exact Extends.appendRowInTx h
  | appendPair st₁ st₂ first second =>
      simp only [RowCall.exec]
      cases h : appendRowPair P st₁ st₂ table first second with
      | error err => exact Extends.refl table
      | ok r =>
          unfold appendRowPair at h
          split at h
          · cases h
          · cases h
          · cases h₁ : AirNote.appendRowInTx P st₁ table first with
            | error err => simp [h₁] at h
            | ok r₁ =>
                simp only [h₁] at h
                cases h₂ : AirNote.appendRowInTx P st₂ r₁.1 second with
                | error err => simp [h₂] at h
                | ok r₂ =>
                    simp only [h₂, Except.ok.injEq] at h
                    subst h
                    exact (Extends.appendRowInTx h₁).trans
                      (Extends.appendRowInTx h₂)

theorem Extends.run (table : List Row) (calls : List RowCall) :
    Extends P table (Trace.run (RowCall.exec P) table calls) :=
  Trace.run_inv (Extends P table)
    (fun t call h => h.trans (Extends.exec t call)) (Extends.refl table) calls

/-- Honest appends neither break nor mend the chain they continue. -/
theorem Extends.verifyChain_iff {table table' : List Row}
    (h : Extends P table table') (hread : ReadsBack P table') :
    verifyChain P table' = .ok () ↔ verifyChain P table = .ok () := by
  obtain ⟨rows, rfl, hlinked, hsealed⟩ := h
  have hrows : verifyRows P rows (HashChain.tip Row.hash genesis table) =
      .ok () := by
    rw [← tipRowHash_eq_tip]
    refine verifyRows_of_linked hlinked ?_
    intro row hrow
    exact hsealed row hrow (hread row (List.mem_append_right table hrow))
  unfold verifyChain
  rw [verifyRows_append]
  exact and_iff_left hrows

/-! ## The row at the mark -/

theorem exists_verifies {rows : List Row} {d : String}
    (h : verifyRows P rows d = .ok ()) {row : Row} (hrow : row ∈ rows) :
    ∃ a, Verifies P row a := by
  induction rows generalizing d with
  | nil => cases hrow
  | cons first rest ih =>
      obtain ⟨-, hfirst, hrest⟩ := verifyRows_cons_ok.1 h
      rcases List.mem_cons.mp hrow with hsame | hmem
      · rw [hsame]
        exact hfirst
      · exact ih hrest hmem

/-- Two verified rows have one hash exactly when they have one signed
payload. -/
theorem hash_eq_iff_signedPayload {L L' : List Row} (hsec : Unbroken P L L')
    {row₀ row : Row} {a₀ a : Entry} (hrow₀ : row₀ ∈ L) (hrow : row ∈ L')
    (hv₀ : Verifies P row₀ a₀) (hv : Verifies P row a) :
    row.hash = row₀.hash ↔ signedPayload P row = signedPayload P row₀ := by
  rw [signedPayload_of_entry hv₀.entry, signedPayload_of_entry hv.entry,
    hv₀.hash_eq, hv.hash_eq]
  constructor
  · intro h
    have hbytes := hsec.noCollision row₀ hrow₀ row hrow a₀ a hv₀.entry hv.entry
      (Hex.encode_injective h).symm
    have hwidths : a₀.1.length = a.1.length := by rw [hv₀.width, hv.width]
    rw [(List.append_inj hbytes hwidths).2]
  · intro h
    have hcanon : a.2 = a₀.2 := Option.some.inj h
    obtain ⟨e₀, -, hdec₀, hcanon₀⟩ := exists_event_of_entry hv₀.entry
    obtain ⟨e, -, hdec, hcanon'⟩ := exists_event_of_entry hv.entry
    rw [hcanon] at hcanon'
    have hlink : e.prevHash = e₀.prevHash :=
      prevHash_eq_of_canonicalBytes hcanon' hcanon₀ hdec hdec₀
    rw [hlink, hdec₀] at hdec
    have haa : a = a₀ := Prod.ext (Option.some.inj hdec).symm hcanon
    rw [haa]

/-- A verified row of the substituted table does not have the hash of the
origin. -/
theorem hash_ne_genesis {L L' : List Row} (hsec : Unbroken P L L') {row : Row}
    {a : Entry} (hrow : row ∈ L') (hv : Verifies P row a) :
    row.hash ≠ genesis := by
  obtain ⟨e, sig, hof, hsig, hver⟩ := hv.signed
  obtain ⟨row₀, hrow₀, a₀, hentry₀, hdigest⟩ :=
    hsec.noForgery row hrow a e sig hv.entry hof hsig hver
  intro h
  have hzero : Hex.decode row.hash = some (List.replicate 32 0) := by
    rw [h, decode_genesis]
  rw [hv.hash_eq, Hex.decode_encode, ← hdigest] at hzero
  exact hsec.noOrigin row₀ hrow₀ a₀ hentry₀ (Option.some.inj hzero)

/-- The position before the count of a mark holds the tip of the log. -/
theorem tipRowHash_of_pos {table : List Row} {pos : Nat} {row : Row}
    (hpos : pos + 1 = table.length) (hrow : table[pos]? = some row) :
    tipRowHash table = row.hash := by
  unfold tipRowHash
  rw [List.getLast?_eq_getElem?, ← hpos, Nat.add_sub_cancel, hrow]

/-- No row appended after the substitution has a hash of the log, or of the
origin. -/
def FreshHashes (log found table : List Row) : Prop :=
  ∀ row ∈ table.drop found.length,
    row.hash ≠ genesis ∧ ∀ row₀ ∈ log, row.hash ≠ row₀.hash

/-- The substituted table has the signed payload of the log at the position
the mark was taken at, and the mark recorded its hash. -/
def MarkKept (P : Primitives) (tipFails : Bool) (marked found : List Row)
    (pos : Nat) : Prop :=
  tipFails = false ∧
    (found.map (signedPayload P))[pos]? = (marked.map (signedPayload P))[pos]?

/-- In a regrown table that verifies, the row at the mark has the recorded
hash exactly when the substituted table kept the payload there. -/
theorem mark_hash_iff_kept {tipFails : Bool} {marked later found new : List Row}
    {pos : Nat} (hinv : ChainInv P (marked ++ later))
    (hsec : Unbroken P (marked ++ later) found)
    (hfresh : FreshHashes (marked ++ later) found (found ++ new))
    (hok : verifyChain P found = .ok ()) (hpos : pos + 1 = marked.length) :
    (∃ row, (found ++ new)[pos]? = some row ∧
        row.hash = (checkpointHighwater tipFails marked).tipHash) ↔
      MarkKept P tipFails marked found pos := by
  have hlt : pos < marked.length := by omega
  have hmark : marked[pos]? = some marked[pos] := List.getElem?_eq_getElem hlt
  have hmem : marked[pos] ∈ marked ++ later :=
    List.mem_append_left later (List.getElem_mem hlt)
  obtain ⟨a₀, hv₀⟩ := exists_verifies hinv.verified hmem
  have htip : tipRowHash marked = marked[pos].hash :=
    tipRowHash_of_pos hpos hmark
  unfold MarkKept checkpointHighwater
  rw [List.getElem?_map, List.getElem?_map, hmark, Option.map_some, htip]
  by_cases hfound : pos < found.length
  · -- the row is one of the substituted table
    have hrow : found[pos]? = some found[pos] := List.getElem?_eq_getElem hfound
    have hrowMem : found[pos] ∈ found := List.getElem_mem hfound
    obtain ⟨a, hv⟩ := exists_verifies hok hrowMem
    rw [List.getElem?_append_left hfound, hrow, Option.map_some]
    simp only [Option.some.injEq, exists_eq_left']
    cases tipFails with
    | true =>
        simp only [if_true, Bool.true_eq_false, false_and, iff_false]
        exact hash_ne_genesis hsec hrowMem hv
    | false =>
        simp only [Bool.false_eq_true, if_false, true_and]
        exact hash_eq_iff_signedPayload hsec hmem hrowMem hv₀ hv
  · -- the row was appended after the substitution
    have hge : found.length ≤ pos := Nat.le_of_not_lt hfound
    rw [List.getElem?_eq_none hge, Option.map_none]
    constructor
    · rintro ⟨row, hrow, hhash⟩
      rw [List.getElem?_append_right hge] at hrow
      have hnew : row ∈ (found ++ new).drop found.length := by
        rw [List.drop_left]
        exact List.mem_of_getElem? hrow
      obtain ⟨horigin, hother⟩ := hfresh row hnew
      exfalso
      dsimp only at hhash
      split at hhash
      · exact horigin hhash
      · exact hother _ hmem hhash
    · rintro ⟨-, h⟩
      cases h

/-- With bound columns, the payload is kept exactly when the position is. -/
theorem markKept_iff_of_bound {tipFails : Bool} {marked later found : List Row}
    {pos : Nat} (hinv : ChainInv P (marked ++ later))
    (hsec : Unbroken P (marked ++ later) found)
    (hok : verifyChain P found = .ok ())
    (hbound : ∀ row ∈ found, LinkBound P row)
    (hpos : pos + 1 = marked.length) :
    MarkKept P tipFails marked found pos ↔
      tipFails = false ∧ marked.length ≤ found.length := by
  have hpre := signedPrefix_of_bound hinv hsec hok hbound
  unfold SignedPrefix at hpre
  obtain ⟨rest, hrest⟩ := hpre
  unfold MarkKept
  by_cases hfound : pos < found.length
  · have hlt : pos < marked.length := by omega
    have hsame : (found.map (signedPayload P))[pos]? =
        (marked.map (signedPayload P))[pos]? := by
      have hget : (found.map (signedPayload P) ++ rest)[pos]? =
          ((marked ++ later).map (signedPayload P))[pos]? := by
        rw [hrest]
      rw [List.map_append, List.getElem?_append_left (by simpa using hfound),
        List.getElem?_append_left (by simpa using hlt)] at hget
      exact hget
    have hle : marked.length ≤ found.length := by omega
    simp only [hsame, hle]
  · have hnot : ¬ marked.length ≤ found.length := by omega
    have hne : (found.map (signedPayload P))[pos]? ≠
        (marked.map (signedPayload P))[pos]? := by
      rw [List.getElem?_map, List.getElem?_map,
        List.getElem?_eq_none (Nat.le_of_not_lt hfound),
        List.getElem?_eq_getElem (by omega : pos < marked.length)]
      intro h
      cases h
    simp only [hne, hnot]

/-! ## Rollbacks -/

/-- A log was marked and grew; a table was substituted for it, and grew. What
the mark detects: the event it was taken at is in its place wherever the log
opens and verifies, exactly when the substituted table does not verify, has
not grown back to the mark, or has the signed payload of that event in its
place; for a table with bound columns, when it is not shorter than the mark
either. -/
theorem rollback_detected_iff (P : Primitives) (tipFails : Bool)
    {marked found : List Row} (later regrown : List RowCall)
    (hmarked : HonestTable P marked)
    (hread : ReadsBack P (Trace.run (RowCall.exec P) marked later))
    (hsec : Unbroken P (Trace.run (RowCall.exec P) marked later) found)
    (hreadNew : ReadsBack P (Trace.run (RowCall.exec P) found regrown))
    (hfresh : FreshHashes (Trace.run (RowCall.exec P) marked later) found
      (Trace.run (RowCall.exec P) found regrown)) :
    (Detects P (checkpointHighwater tipFails marked)
        (Trace.run (RowCall.exec P) found regrown) ↔
      (verifyChain P found = .ok () →
        marked.length ≤ (Trace.run (RowCall.exec P) found regrown).length →
        ∀ pos, pos + 1 = marked.length →
          MarkKept P tipFails marked found pos)) ∧
    ((∀ row ∈ found, LinkBound P row) →
      (Detects P (checkpointHighwater tipFails marked)
          (Trace.run (RowCall.exec P) found regrown) ↔
        (verifyChain P found = .ok () →
          marked.length ≤ (Trace.run (RowCall.exec P) found regrown).length →
          marked ≠ [] →
            tipFails = false ∧ marked.length ≤ found.length))) := by
  have hhonest : HonestTable P (Trace.run (RowCall.exec P) marked later) := by
    obtain ⟨calls, hcalls⟩ := hmarked
    exact ⟨calls ++ later, by rw [Trace.run_append, hcalls]⟩
  have hinv := honest_chain hhonest hread
  obtain ⟨more, hmore, -⟩ := Extends.run (P := P) marked later
  have hext := Extends.run (P := P) found regrown
  have hverify := hext.verifyChain_iff hreadNew
  obtain ⟨new, hnew, -⟩ := hext
  rw [hmore] at hsec hfresh hinv
  rw [hnew] at hfresh hverify ⊢
  have hdetects : Detects P (checkpointHighwater tipFails marked)
      (found ++ new) ↔
      (verifyChain P found = .ok () →
        marked.length ≤ (found ++ new).length →
        ∀ pos, pos + 1 = marked.length →
          MarkKept P tipFails marked found pos) := by
    unfold Detects
    rw [openWithHighwater_ok_iff, hverify]
    constructor
    · intro h hok hlen pos hpos
      exact (mark_hash_iff_kept hinv hsec hfresh hok hpos).mp
        (h hlen hok pos hpos)
    · intro h hlen hok pos hpos
      exact (mark_hash_iff_kept hinv hsec hfresh hok hpos).mpr
        (h hok hlen pos hpos)
  refine ⟨hdetects, ?_⟩
  intro hbound
  rw [hdetects]
  constructor
  · intro h hok hlen hne
    have hpos : marked.length - 1 + 1 = marked.length :=
      Nat.succ_pred_eq_of_pos (List.length_pos_iff.mpr hne)
    exact (markKept_iff_of_bound hinv hsec hok hbound hpos).mp
      (h hok hlen _ hpos)
  · intro h hok hlen pos hpos
    have hne : marked ≠ [] := by
      intro hnil
      rw [hnil] at hpos
      cases hpos
    exact (markKept_iff_of_bound hinv hsec hok hbound hpos).mpr
      (h hok hlen hne)

/-! ## A regrown log -/

namespace Regrown

/-- A note as it is stored on an empty log. -/
def stored (id : String) (byte : UInt8) : Event :=
  { Misread.note id with
    hash := some (Hex.encode (List.replicate 32 byte))
    signature := some "" }

/-- The library functions, with the texts of the two notes. -/
def primitives : Primitives :=
  { Misread.primitives with
    toText := knownAt (stored "a" 1) (stored "b" 2) "a" "b" ""
    ofText := knownAt "a" "b" (.ok (stored "a" 1)) (.ok (stored "b" 2))
      (.error (.serde "unknown text")) }

/-- The append of a note. -/
def call (id : String) : RowCall :=
  .append ⟨id, ""⟩ (.draft memoryEventType (.obj []) none)

/-- The log after its first note. -/
def after (id : String) : List Row :=
  Trace.run (RowCall.exec primitives) [] [call id]

theorem after_columns :
    (after "a").map (fun row => (row.payload, row.hash)) =
        [("a", Hex.encode (List.replicate 32 1))] ∧
      (after "b").map (fun row => (row.payload, row.hash)) =
        [("b", Hex.encode (List.replicate 32 2))] := by
  decide +kernel

theorem after_verified :
    verifyChain primitives (after "a") = .ok () ∧
      verifyChain primitives (after "b") = .ok () := by
  decide +kernel

theorem toText_eq {id : String} {e : Event} (hid : id ≠ "")
    (h : id = primitives.toText e) :
    primitives.ofText id = .ok e := by
  have htext : id = knownAt (stored "a" 1) (stored "b" 2) "a" "b" "" e := h
  unfold knownAt at htext
  split_ifs at htext with h₁ h₂
  · rw [htext, h₁]
    rfl
  · rw [htext, h₂]
    rfl
  · exact absurd htext hid

theorem after_single {id : String} {byte : UInt8}
    (h : (after id).map (fun row => (row.payload, row.hash)) =
      [(id, Hex.encode (List.replicate 32 byte))]) {row : Row}
    (hrow : row ∈ after id) :
    row.payload = id ∧ row.hash = Hex.encode (List.replicate 32 byte) := by
  have hmem := List.mem_map_of_mem (f := fun row => (row.payload, row.hash)) hrow
  rw [h, List.mem_singleton] at hmem
  exact Prod.mk.inj hmem

theorem after_readsBack {id : String} {byte : UInt8} (hid : id ≠ "")
    (h : (after id).map (fun row => (row.payload, row.hash)) =
      [(id, Hex.encode (List.replicate 32 byte))]) :
    ReadsBack primitives (after id) := by
  intro row hrow e he
  have hpayload := (after_single h hrow).1
  rw [hpayload] at he ⊢
  exact toText_eq hid he

/-- An empty table breaks no primitive. -/
theorem after_unbroken : Unbroken primitives (after "a") [] :=
  { noForgery := fun row hrow => by cases hrow
    noCollision := fun _ _ row hrow => by cases hrow
    noOrigin := by
      intro row hrow a ha hzero
      obtain ⟨b, hv⟩ := exists_verifies after_verified.1 hrow
      have hab : b = a := by
        rw [hv.entry] at ha
        exact Option.some.inj ha
      have hhash := (after_single after_columns.1 hrow).2
      rw [hv.hash_eq, hab, hzero] at hhash
      exact absurd (Hex.encode_injective hhash) (by decide) }

theorem after_fresh : FreshHashes (after "a") [] (after "b") := by
  intro row hrow
  have hhash := (after_single after_columns.2 hrow).2
  constructor
  · rw [hhash]
    decide
  · intro row₀ hrow₀
    rw [hhash, (after_single after_columns.1 hrow₀).2]
    intro h
    exact absurd (Hex.encode_injective h) (by decide)

end Regrown

open Regrown in
/-- For the emptied log with one new note, the mark detects the rollback
exactly when the empty table kept the first note, which it did not. -/
theorem rollback_detected_iff_sample :
    (Detects primitives (checkpointHighwater false (after "a")) (after "b") ↔
      (verifyChain primitives [] = .ok () →
        (after "a").length ≤ (after "b").length →
        ∀ pos, pos + 1 = (after "a").length →
          MarkKept primitives false (after "a") [] pos)) ∧
    ((∀ row ∈ ([] : List Row), LinkBound primitives row) →
      (Detects primitives (checkpointHighwater false (after "a")) (after "b") ↔
        (verifyChain primitives [] = .ok () →
          (after "a").length ≤ (after "b").length →
          after "a" ≠ [] →
            false = false ∧ (after "a").length ≤ ([] : List Row).length))) :=
  rollback_detected_iff primitives false [] [call "b"] ⟨[call "a"], rfl⟩
    (after_readsBack (by decide) after_columns.1) after_unbroken
    (after_readsBack (by decide) after_columns.2) after_fresh

open Regrown in
/-- The log is marked after its first note, emptied, and appended to: it opens
and verifies, with another event where the mark was taken. -/
theorem regrown_log_undetected :
    ¬ Detects primitives (checkpointHighwater false (after "a"))
      (after "b") := by
  intro h
  obtain ⟨row, hrow, hhash⟩ := h (by decide +kernel) after_verified.2 0
    (by decide +kernel)
  rw [(after_single after_columns.2 (List.mem_of_getElem? hrow)).2] at hhash
  exact absurd hhash (by decide +kernel)

end AirNote
