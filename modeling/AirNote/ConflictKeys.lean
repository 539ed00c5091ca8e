import AirNote.CaptureDocument
import AirNote.Detector

/-!
# The keys of conflict references

A reference to a note or to a passage is written as a string three times: as a
key of the conflict index, as its own key, and joined with a second one as the
key of a pair. The strings are put together with two separators that no
generated identifier holds, and read back by them. What a foreign identifier
may do is the question here: the key of a reference is injective whatever the
identifiers hold, the key of a pair is where those of one of the two pairs hold
no record separator, and a passage reads back from its index key just where
its session neither holds a unit separator nor begins with a record separator.

## Main results

* `pairKey_injective` — the key of a reference.
* `unorderedPairKey_eq_iff` — when pairs have one key.
* `decodeKey_encodeChunkKey_iff` — when an index key reads back.
-/

namespace AirNote

open Lib.Infix CaptureFiles

/-! ## The keys of the index -/

/-- `CHUNK_KEY_SEP`. -/
def chunkKeySep : Char := '\x1f'

/-- `NOTE_KEY_SENTINEL`. -/
def noteKeySentinel : Char := '\x1e'

/-- `encode_chunk_key`. -/
def encodeChunkKey (eventId : String) (chunkIx : Nat) : String :=
  s!"{eventId}{chunkKeySep}{chunkIx}"

/-- `decode_chunk_key`. -/
def decodeChunkKey (key : String) : Option (String × Nat) :=
  (key.toList.dropInfix? [chunkKeySep]).bind fun (id, ix) =>
    (parseU64 (String.ofList ix)).map fun chunkIx =>
      (String.ofList id, chunkIx)

/-- `encode_note_key`. -/
def encodeNoteKey (eventId : String) : String :=
  s!"{noteKeySentinel}{eventId}"

/-- `decode_note_key`. -/
def decodeNoteKey (key : String) : Option String :=
  (key.toList.dropPrefix? [noteKeySentinel]).map String.ofList

namespace ConflictRef

/-- `decode_key`. -/
def decodeKey (key : String) : Option ConflictRef :=
  match decodeNoteKey key with
  | some id => some (note id)
  | none => (decodeChunkKey key).map fun (sid, pid) => passage sid pid

/-- The identifier of the reference holds no record separator. -/
def RecordFree : ConflictRef → Prop
  | note id => noteKeySentinel ∉ id.toList
  | passage sid _ => noteKeySentinel ∉ sid.toList

instance (r : ConflictRef) : Decidable r.RecordFree := by
  cases r <;> exact inferInstanceAs (Decidable (_ ∉ _))

/-! ## The key of a reference -/

theorem isDigit_of_mem_toString {n : Nat} {c : Char}
    (h : c ∈ (toString n).toList) : c.isDigit = true := by
  rw [Nat.toString_eq_repr, Nat.toList_repr] at h
  exact Nat.isDigit_of_mem_toDigits (by decide) (by decide) h

theorem notMem_toString {c : Char} (hc : c.isDigit = false) (n : Nat) :
    c ∉ (toString n).toList := fun h => by
  rw [isDigit_of_mem_toString h] at hc
  cases hc

theorem toString_injective {m n : Nat}
    (h : (toString m).toList = (toString n).toList) : m = n := by
  rw [Nat.toString_eq_repr, Nat.toString_eq_repr, Nat.toList_repr,
    Nat.toList_repr] at h
  have hparse := parseDigits_toDigits m
  rw [h, parseDigits_toDigits] at hparse
  exact (Option.some.inj hparse).symm

theorem toList_pairKey_note (id : String) :
    (note id).pairKey.toList = 'N' :: chunkKeySep :: id.toList := by
  show ("N\x1f" ++ id).toList = _
  rw [String.toList_append]
  rfl

theorem toList_pairKey_passage (sid : String) (pid : Nat) :
    (passage sid pid).pairKey.toList =
      'P' :: chunkKeySep ::
        (sid.toList ++ chunkKeySep :: (toString pid).toList) := by
  show ("P\x1f" ++ sid ++ "\x1f" ++ toString pid).toList = _
  rw [String.toList_append, String.toList_append, String.toList_append,
    List.append_assoc, List.append_assoc]
  rfl

theorem append_sep_length {α : Type*} {sep : α} {l l' d d' : List α}
    (hd : sep ∉ d) (h : l ++ sep :: d = l' ++ sep :: d') :
    l'.length ≤ l.length := by
  rcases List.append_eq_append_iff.mp h with ⟨c, rfl, hc⟩ | ⟨c, rfl, -⟩
  · cases c with
    | nil => simp
    | cons x c =>
        obtain ⟨-, rfl⟩ := List.cons.inj hc
        exact absurd (List.mem_append_right c List.mem_cons_self) hd
  · simp

/-- A list is cut at its last separator in one way. -/
theorem append_sep_inj {α : Type*} {sep : α} {l l' d d' : List α}
    (hd : sep ∉ d) (hd' : sep ∉ d') (h : l ++ sep :: d = l' ++ sep :: d') :
    l = l' ∧ d = d' := by
  have hlength : l.length = l'.length :=
    le_antisymm (append_sep_length hd' h.symm) (append_sep_length hd h)
  obtain ⟨hl, htail⟩ := List.append_inj h hlength
  exact ⟨hl, (List.cons.inj htail).2⟩

/-- **The key of a reference names it**, whatever its identifier holds. -/
theorem pairKey_injective {a b : ConflictRef} (h : a.pairKey = b.pairKey) :
    a = b := by
  have hlist := congrArg String.toList h
  cases a with
  | note id =>
      cases b with
      | note id' =>
          rw [toList_pairKey_note, toList_pairKey_note, List.cons.injEq,
            List.cons.injEq] at hlist
          rw [String.toList_injective hlist.2.2]
      | passage sid pid =>
          rw [toList_pairKey_note, toList_pairKey_passage] at hlist
          exact absurd (List.cons.inj hlist).1 (by decide)
  | passage sid pid =>
      cases b with
      | note id =>
          rw [toList_pairKey_note, toList_pairKey_passage] at hlist
          exact absurd (List.cons.inj hlist).1 (by decide)
      | passage sid' pid' =>
          rw [toList_pairKey_passage, toList_pairKey_passage, List.cons.injEq,
            List.cons.injEq] at hlist
          obtain ⟨hsid, hpid⟩ := append_sep_inj
            (notMem_toString (by decide) pid) (notMem_toString (by decide) pid')
            hlist.2.2
          rw [String.toList_injective hsid, toString_injective hpid]

/-! ## The key of a pair -/

theorem RecordFree.pairKey {r : ConflictRef} (h : r.RecordFree) :
    noteKeySentinel ∉ r.pairKey.toList := by
  cases r with
  | note id =>
      have hid : noteKeySentinel ∉ id.toList := h
      rw [toList_pairKey_note]
      simp only [List.mem_cons, not_or]
      exact ⟨by decide, by decide, hid⟩
  | passage sid pid =>
      have hsid : noteKeySentinel ∉ sid.toList := h
      rw [toList_pairKey_passage]
      simp only [List.mem_cons, List.mem_append, not_or]
      exact ⟨by decide, by decide, hsid, by decide,
        notMem_toString (by decide) pid⟩

/-- The key of a pair is that of its references in one of the two orders. -/
theorem unorderedPairKey_cases (a b : ConflictRef) :
    ∃ x y, (x = a ∧ y = b ∨ x = b ∧ y = a) ∧
      (a.unorderedPairKey b).toList =
        x.pairKey.toList ++ noteKeySentinel :: y.pairKey.toList := by
  have hjoin : ∀ x y : ConflictRef,
      (x.pairKey ++ "\x1e" ++ y.pairKey).toList =
        x.pairKey.toList ++ noteKeySentinel :: y.pairKey.toList := by
    intro x y
    rw [String.toList_append, String.toList_append, List.append_assoc]
    rfl
  unfold unorderedPairKey
  split
  · exact ⟨a, b, Or.inl ⟨rfl, rfl⟩, hjoin a b⟩
  · exact ⟨b, a, Or.inr ⟨rfl, rfl⟩, hjoin b a⟩

/-- **Pairs have one key iff they are the same**, where the identifiers of one
of them hold no record separator. -/
theorem unorderedPairKey_eq_iff {a b : ConflictRef} (ha : a.RecordFree)
    (hb : b.RecordFree) (c d : ConflictRef) :
    a.unorderedPairKey b = c.unorderedPairKey d ↔
      a = c ∧ b = d ∨ a = d ∧ b = c := by
  constructor
  · intro h
    obtain ⟨x, y, hxy, hkey⟩ := unorderedPairKey_cases a b
    obtain ⟨z, w, hzw, hkey'⟩ := unorderedPairKey_cases c d
    have hfree : noteKeySentinel ∉ x.pairKey.toList ∧
        noteKeySentinel ∉ y.pairKey.toList := by
      rcases hxy with ⟨rfl, rfl⟩ | ⟨rfl, rfl⟩
      · exact ⟨ha.pairKey, hb.pairKey⟩
      · exact ⟨hb.pairKey, ha.pairKey⟩
    rw [h, hkey'] at hkey
    obtain ⟨hzx, -, hwy⟩ :=
      (List.append_cons_inj_of_notMem hfree.1 hfree.2).mp hkey.symm
    have hx : x = z := pairKey_injective (String.toList_injective hzx)
    have hy : y = w := pairKey_injective (String.toList_injective hwy)
    subst hx hy
    rcases hxy with ⟨rfl, rfl⟩ | ⟨rfl, rfl⟩ <;>
      rcases hzw with ⟨rfl, rfl⟩ | ⟨rfl, rfl⟩ <;> simp
  · rintro (⟨rfl, rfl⟩ | ⟨rfl, rfl⟩)
    · rfl
    · exact unorderedPairKey_comm _ _

/-! ## Reading the keys of the index -/

theorem decodeKey_encodeNoteKey (id : String) :
    decodeKey (encodeNoteKey id) = some (note id) := by
  have hlist : (encodeNoteKey id).toList = [noteKeySentinel] ++ id.toList := by
    show (toString noteKeySentinel ++ id).toList = _
    rw [String.toList_append]
    rfl
  rw [decodeKey, decodeNoteKey, hlist, dropPrefix?_iff.2 rfl,
    Option.map_some, String.ofList_toList]

theorem toList_encodeChunkKey (sid : String) (pid : Nat) :
    (encodeChunkKey sid pid).toList =
      sid.toList ++ [chunkKeySep] ++ (toString pid).toList := by
  show (sid ++ toString chunkKeySep ++ toString pid).toList = _
  rw [String.toList_append, String.toList_append]
  rfl

/-- A key that does not begin with the sentinel is no key of a note. -/
theorem decodeNoteKey_eq_none {key : String}
    (h : key.toList.head? ≠ some noteKeySentinel) :
    decodeNoteKey key = none := by
  cases hdrop : key.toList.dropPrefix? [noteKeySentinel] with
  | none => rw [decodeNoteKey, hdrop, Option.map_none]
  | some rest =>
      rw [dropPrefix?_iff.1 hdrop] at h
      exact absurd rfl h

/-- **A passage reads back iff** its session holds no unit separator and does
not begin with a record separator. -/
theorem decodeKey_encodeChunkKey_iff (sid : String) {pid : Nat}
    (hpid : pid < 2 ^ 64) :
    decodeKey (encodeChunkKey sid pid) = some (passage sid pid) ↔
      chunkKeySep ∉ sid.toList ∧ sid.toList.head? ≠ some noteKeySentinel := by
  have hlist := toList_encodeChunkKey sid pid
  constructor
  · intro h
    unfold decodeKey at h
    split at h
    · cases h
    next hnote =>
      obtain ⟨⟨id, ix⟩, hchunk, heq⟩ := Option.map_eq_some_iff.mp h
      cases heq
      unfold decodeChunkKey at hchunk
      obtain ⟨⟨before, after⟩, hdrop, hparse⟩ :=
        Option.bind_eq_some_iff.mp hchunk
      obtain ⟨_, -, heq⟩ := Option.map_eq_some_iff.mp hparse
      have hbefore : before = sid.toList := by
        rw [← (Prod.mk.inj heq).1, String.toList_ofList]
      refine ⟨fun hmem => ?_, fun hhead => ?_⟩
      · -- the key is split at its first separator, which stands in `sid`
        obtain ⟨pre, post, hsid⟩ := List.append_of_mem hmem
        have hle := (dropInfix?_iff.1 hdrop).2 pre
          (post ++ [chunkKeySep] ++ (toString pid).toList)
          (by rw [hlist, hsid]; simp)
        rw [hbefore, hsid, List.length_append, List.length_cons] at hle
        omega
      · obtain ⟨rest, hsid⟩ := List.head?_eq_some_iff.mp hhead
        have hsome : (encodeChunkKey sid pid).toList.dropPrefix?
            [noteKeySentinel] =
              some (rest ++ [chunkKeySep] ++ (toString pid).toList) :=
          dropPrefix?_iff.2 (by rw [hlist, hsid]; simp)
        rw [decodeNoteKey, hsome] at hnote
        cases hnote
  · rintro ⟨hsep, hhead⟩
    have hnote : decodeNoteKey (encodeChunkKey sid pid) = none := by
      refine decodeNoteKey_eq_none fun hkey => ?_
      rw [hlist] at hkey
      cases hsid : sid.toList with
      | nil =>
          rw [hsid] at hkey
          exact absurd (Option.some.inj hkey) (by decide)
      | cons c rest =>
          rw [hsid] at hkey hhead
          exact hhead hkey
    have hdrop : (encodeChunkKey sid pid).toList.dropInfix? [chunkKeySep] =
        some (sid.toList, (toString pid).toList) := by
      rw [hlist, List.append_assoc, dropInfix?_of_not_mem hsep
        (dropInfix?_self [chunkKeySep] _), List.append_nil]
    rw [decodeKey, hnote, decodeChunkKey, hdrop]
    simp only [Option.bind_some, String.ofList_toList]
    rw [parseU64_toString hpid]
    rfl

/-- A session identifier that was validated holds neither separator. -/
theorem validSessionId_separators {sid : String}
    (h : validSessionId sid = true) :
    chunkKeySep ∉ sid.toList ∧ noteKeySentinel ∉ sid.toList := by
  rw [validSessionId, Bool.and_eq_true] at h
  have hall := List.all_eq_true.mp h.2
  exact ⟨fun hmem => absurd (hall _ hmem) (by decide),
    fun hmem => absurd (hall _ hmem) (by decide)⟩

/-- **The keys of conflict references.** The key of a pair does not depend on
the order, and names the pair where the identifiers of one of the two hold no
record separator; a note reads back from its index key, and a passage just
where its session neither holds a unit separator nor begins with a record
separator. Validated sessions are of this kind. -/
theorem conflictRef_keys :
    (∀ a b : ConflictRef, a.unorderedPairKey b = b.unorderedPairKey a) ∧
      (∀ a b : ConflictRef, a.RecordFree → b.RecordFree → ∀ c d,
        (a.unorderedPairKey b = c.unorderedPairKey d ↔
          a = c ∧ b = d ∨ a = d ∧ b = c)) ∧
      (∀ id, decodeKey (encodeNoteKey id) = some (note id)) ∧
      (∀ sid pid, pid < 2 ^ 64 →
        (decodeKey (encodeChunkKey sid pid) = some (passage sid pid) ↔
          chunkKeySep ∉ sid.toList ∧
            sid.toList.head? ≠ some noteKeySentinel)) ∧
      ∀ sid, validSessionId sid = true →
        (∀ pid, (passage sid pid).RecordFree) ∧
          ∀ pid < 2 ^ 64,
            decodeKey (encodeChunkKey sid pid) = some (passage sid pid) := by
  refine ⟨unorderedPairKey_comm, fun a b ha hb c d =>
    unorderedPairKey_eq_iff ha hb c d, decodeKey_encodeNoteKey,
    fun sid pid hpid => decodeKey_encodeChunkKey_iff sid hpid,
    fun sid hsid => ?_⟩
  obtain ⟨hchunk, hnote⟩ := validSessionId_separators hsid
  refine ⟨fun _ => hnote, fun pid hpid =>
    (decodeKey_encodeChunkKey_iff sid hpid).mpr ⟨hchunk, fun hhead => ?_⟩⟩
  exact hnote (List.mem_of_head? hhead)

/-- Identifiers with separators give two pairs one key, and a passage that does
not read back. -/
theorem foreign_identifiers_alias :
    let a := note "a\x1eN\x1fb"
    let c := note "c"
    (¬ ∀ x y, a.unorderedPairKey c = x.unorderedPairKey y →
      a = x ∧ c = y ∨ a = y ∧ c = x) ∧
    decodeKey (encodeChunkKey "s\x1f1" 2) ≠ some (passage "s\x1f1" 2) := by
  refine ⟨fun hall => ?_, by decide +kernel⟩
  have hsame := hall (note "a") (note "b\x1eN\x1fc") (by decide +kernel)
  exact absurd hsame (by decide)

end ConflictRef

end AirNote
