import Mathlib.Algebra.Order.Ring.Int
import Mathlib.Data.List.Basic
import Mathlib.Tactic.Common

/-!
# UTF-8 with replacement

A text as bytes, and bytes as a text where whatever is no UTF-8 is replaced:
the decoder works byte by byte and gives one replacement character for each
longest piece that could still have become a character. A byte is a natural
number; one that is no byte is replaced like any other that is out of place.

## Main results

* `decode_append` — a line feed is decoded by itself, whatever surrounds it.
* `encode_decode` — what is decoded without replacement is decoded without
  loss.
* `encodeText_injective` — texts with the same bytes are the same.
-/

namespace AirNote.Lib.Utf8

/-- U+FFFD. -/
def replacement : Char := Char.ofNat 0xFFFD

/-- The bytes of a character. -/
def encode (c : Char) : List Nat :=
  let v := c.toNat
  if v < 0x80 then [v]
  else if v < 0x800 then [0xC0 + v / 64, 0x80 + v % 64]
  else if v < 0x10000 then
    [0xE0 + v / 4096, 0x80 + v / 64 % 64, 0x80 + v % 64]
  else [0xF0 + v / 262144, 0x80 + v / 4096 % 64, 0x80 + v / 64 % 64,
    0x80 + v % 64]

/-- The bytes of a text. -/
def encodeText (text : List Char) : List Nat := text.flatMap encode

/-- A character begun: the bytes still needed, the range of the next, and
the code point so far. -/
structure Pending where
  needed : Nat
  lower : Nat
  upper : Nat
  point : Nat

/-- A first byte: a character, the beginning of one, or neither. -/
inductive Lead where
  | whole
  | more (p : Pending)
  | bad

/-- What a first byte is; the ranges leave out what is too long, the
surrogates and what is no code point. -/
def lead (b : Nat) : Lead :=
  if b < 0x80 then .whole
  else if b < 0xC2 then .bad
  else if b < 0xE0 then .more ⟨1, 0x80, 0xBF, b - 0xC0⟩
  else if b < 0xF0 then
    .more ⟨2, if b = 0xE0 then 0xA0 else 0x80,
      if b = 0xED then 0x9F else 0xBF, b - 0xE0⟩
  else if b < 0xF5 then
    .more ⟨3, if b = 0xF0 then 0x90 else 0x80,
      if b = 0xF4 then 0x8F else 0xBF, b - 0xF0⟩
  else .bad

/-- The decoder, from between characters or from within one. -/
def decodeFrom : Option Pending → List Nat → List Char
  | none, [] => []
  | some _, [] => [replacement]
  | none, b :: rest =>
      match lead b with
      | .whole => Char.ofNat b :: decodeFrom none rest
      | .more p => decodeFrom (some p) rest
      | .bad => replacement :: decodeFrom none rest
  | some p, b :: rest =>
      if p.lower ≤ b ∧ b ≤ p.upper then
        let point := p.point * 64 + (b - 0x80)
        if p.needed = 1 then Char.ofNat point :: decodeFrom none rest
        else decodeFrom (some ⟨p.needed - 1, 0x80, 0xBF, point⟩) rest
      else
        replacement :: match lead b with
          | .whole => Char.ofNat b :: decodeFrom none rest
          | .more q => decodeFrom (some q) rest
          | .bad => replacement :: decodeFrom none rest

/-- Bytes as a text. -/
def decode (bytes : List Nat) : List Char := decodeFrom none bytes

example : decode [0x61, 0xC3, 0xA9, 0xC3, 0xE2, 0x82, 0x62] =
    ['a', 'é', replacement, replacement, 'b'] := by decide

/-! ## One byte -/

@[simp] theorem decode_nil : decode [] = [] := rfl

theorem decode_cons (b : Nat) (rest : List Nat) :
    decode (b :: rest) =
      match lead b with
      | .whole => Char.ofNat b :: decode rest
      | .more p => decodeFrom (some p) rest
      | .bad => replacement :: decode rest := rfl

theorem lead_of_lt {b : Nat} (h : b < 128) : lead b = .whole := by
  rw [lead, if_pos h]

/-- A byte out of range ends the character begun and is read anew. -/
theorem decodeFrom_out {p : Pending} {b : Nat}
    (h : ¬ (p.lower ≤ b ∧ b ≤ p.upper)) (rest : List Nat) :
    decodeFrom (some p) (b :: rest) = replacement :: decode (b :: rest) := by
  rw [decodeFrom, if_neg h]
  rfl

/-- The last byte of a character. -/
theorem decodeFrom_last {p : Pending} {b : Nat}
    (h : p.lower ≤ b ∧ b ≤ p.upper) (hneeded : p.needed = 1)
    (rest : List Nat) :
    decodeFrom (some p) (b :: rest) =
      Char.ofNat (p.point * 64 + (b - 0x80)) :: decode rest := by
  rw [decodeFrom, if_pos h]
  dsimp only
  rw [if_pos hneeded]
  rfl

/-- A byte of a character that is not its last. -/
theorem decodeFrom_next {p : Pending} {b : Nat}
    (h : p.lower ≤ b ∧ b ≤ p.upper) (hneeded : p.needed ≠ 1)
    (rest : List Nat) :
    decodeFrom (some p) (b :: rest) =
      decodeFrom (some ⟨p.needed - 1, 0x80, 0xBF,
        p.point * 64 + (b - 0x80)⟩) rest := by
  rw [decodeFrom, if_pos h]
  dsimp only
  rw [if_neg hneeded]

/-- The next byte of a character begun is in range, or a replacement stands
for what there was of it. -/
theorem decodeFrom_cases (p : Pending) (bytes : List Nat) :
    (∃ b rest, bytes = b :: rest ∧ p.lower ≤ b ∧ b ≤ p.upper) ∨
      decodeFrom (some p) bytes = replacement :: decode bytes := by
  cases bytes with
  | nil => exact .inr rfl
  | cons b rest =>
      by_cases h : p.lower ≤ b ∧ b ≤ p.upper
      · exact .inl ⟨b, rest, rfl, h⟩
      · exact .inr (decodeFrom_out h rest)

/-! ## One character -/

theorem toNat_ofNat {n : Nat} (h : n.isValidChar) :
    (Char.ofNat n).toNat = n := by
  rw [Char.ofNat, dif_pos h]
  rfl

/-- What the decoder makes of the bytes after a first one: a character of
more than a byte, or a replacement. -/
inductive Read (b : Nat) (rest : List Nat) (text : List Char) : Prop where
  | char (c : Char) (tail rest' : List Nat) (hrest : rest = tail ++ rest')
      (hbytes : encode c = b :: tail) (hpoint : 128 ≤ c.toNat)
      (htext : text = c :: decode rest')
  | replaced (tail rest' : List Nat) (hrest : rest = tail ++ rest')
      (htext : text = replacement :: decode rest')

theorem encode_two {v : Nat} (hlo : 0x80 ≤ v) (hhi : v < 0x800) :
    encode (Char.ofNat v) = [0xC0 + v / 64, 0x80 + v % 64] := by
  have hvalid : v.isValidChar := Or.inl (by omega)
  unfold encode
  rw [toNat_ofNat hvalid]
  dsimp only
  rw [if_neg (by omega), if_pos hhi]

theorem encode_three {v : Nat} (hlo : 0x800 ≤ v) (hhi : v < 0x10000)
    (hvalid : v.isValidChar) :
    encode (Char.ofNat v) =
      [0xE0 + v / 4096, 0x80 + v / 64 % 64, 0x80 + v % 64] := by
  unfold encode
  rw [toNat_ofNat hvalid]
  dsimp only
  rw [if_neg (by omega), if_neg (by omega), if_pos hhi]

theorem encode_four {v : Nat} (hlo : 0x10000 ≤ v) (hhi : v < 0x110000) :
    encode (Char.ofNat v) =
      [0xF0 + v / 262144, 0x80 + v / 4096 % 64, 0x80 + v / 64 % 64,
        0x80 + v % 64] := by
  have hvalid : v.isValidChar := Or.inr ⟨by omega, hhi⟩
  unfold encode
  rw [toNat_ofNat hvalid]
  dsimp only
  rw [if_neg (by omega), if_neg (by omega), if_neg (by omega)]

theorem read_two {b : Nat} (hlo : 0xC2 ≤ b) (hhi : b < 0xE0)
    (rest : List Nat) :
    Read b rest (decodeFrom (some ⟨1, 0x80, 0xBF, b - 0xC0⟩) rest) := by
  rcases decodeFrom_cases ⟨1, 0x80, 0xBF, b - 0xC0⟩ rest with
    ⟨x, rest', rfl, hx, hx'⟩ | hbad
  · rw [decodeFrom_last ⟨hx, hx'⟩ rfl]
    dsimp only at hx hx' ⊢
    generalize hv : (b - 0xC0) * 64 + (x - 0x80) = v
    have hfirst : 0xC0 + v / 64 = b := by omega
    have hsecond : 0x80 + v % 64 = x := by omega
    refine .char (Char.ofNat v) [x] rest' rfl ?_ ?_ rfl
    · rw [encode_two (by omega) (by omega), hfirst, hsecond]
    · rw [toNat_ofNat (Or.inl (by omega))]
      omega
  · exact .replaced [] rest rfl hbad

theorem read_three {b lower upper : Nat} (hlo : 0xE0 ≤ b) (hhi : b < 0xF0)
    (hlower : lower = if b = 0xE0 then 0xA0 else 0x80)
    (hupper : upper = if b = 0xED then 0x9F else 0xBF) (rest : List Nat) :
    Read b rest (decodeFrom (some ⟨2, lower, upper, b - 0xE0⟩) rest) := by
  rcases decodeFrom_cases ⟨2, lower, upper, b - 0xE0⟩ rest with
    ⟨x, rest', rfl, hx, hx'⟩ | hbad
  · rw [decodeFrom_next ⟨hx, hx'⟩ (show 2 ≠ 1 by decide)]
    dsimp only at hx hx' ⊢
    rcases decodeFrom_cases
        ⟨2 - 1, 0x80, 0xBF, (b - 0xE0) * 64 + (x - 0x80)⟩ rest' with
      ⟨y, rest'', rfl, hy, hy'⟩ | hbad
    · rw [decodeFrom_last ⟨hy, hy'⟩ rfl]
      dsimp only at hy hy' ⊢
      generalize hv : ((b - 0xE0) * 64 + (x - 0x80)) * 64 + (y - 0x80) = v
      have hrange : 0x80 ≤ lower ∧ upper ≤ 0xBF := by
        rw [hlower, hupper]
        constructor
        · split <;> omega
        · split <;> omega
      have hvalid : v.isValidChar := by
        by_cases hED : b = 0xED
        · rw [if_pos hED] at hupper
          exact Or.inl (by omega)
        · by_cases hbelow : b < 0xED
          · exact Or.inl (by omega)
          · exact Or.inr ⟨by omega, by omega⟩
      have hlow : 0x800 ≤ v := by
        by_cases hE0 : b = 0xE0
        · rw [if_pos hE0] at hlower
          omega
        · omega
      have hfirst : 0xE0 + v / 4096 = b := by omega
      have hsecond : 0x80 + v / 64 % 64 = x := by omega
      have hthird : 0x80 + v % 64 = y := by omega
      refine .char (Char.ofNat v) [x, y] rest'' rfl ?_ ?_ rfl
      · rw [encode_three hlow (by omega) hvalid, hfirst, hsecond, hthird]
      · rw [toNat_ofNat hvalid]
        omega
    · exact .replaced [x] rest' rfl hbad
  · exact .replaced [] rest rfl hbad

theorem read_four {b lower upper : Nat} (hlo : 0xF0 ≤ b) (hhi : b < 0xF5)
    (hlower : lower = if b = 0xF0 then 0x90 else 0x80)
    (hupper : upper = if b = 0xF4 then 0x8F else 0xBF) (rest : List Nat) :
    Read b rest (decodeFrom (some ⟨3, lower, upper, b - 0xF0⟩) rest) := by
  rcases decodeFrom_cases ⟨3, lower, upper, b - 0xF0⟩ rest with
    ⟨x, rest', rfl, hx, hx'⟩ | hbad
  · rw [decodeFrom_next ⟨hx, hx'⟩ (show 3 ≠ 1 by decide)]
    dsimp only at hx hx' ⊢
    rcases decodeFrom_cases
        ⟨3 - 1, 0x80, 0xBF, (b - 0xF0) * 64 + (x - 0x80)⟩ rest' with
      ⟨y, rest'', rfl, hy, hy'⟩ | hbad
    · rw [decodeFrom_next ⟨hy, hy'⟩ (show 3 - 1 ≠ 1 by decide)]
      dsimp only at hy hy' ⊢
      rcases decodeFrom_cases ⟨3 - 1 - 1, 0x80, 0xBF,
          ((b - 0xF0) * 64 + (x - 0x80)) * 64 + (y - 0x80)⟩ rest'' with
        ⟨z, rest₃, rfl, hz, hz'⟩ | hbad
      · rw [decodeFrom_last ⟨hz, hz'⟩ rfl]
        dsimp only at hz hz' ⊢
        generalize hv : (((b - 0xF0) * 64 + (x - 0x80)) * 64 + (y - 0x80)) *
          64 + (z - 0x80) = v
        have hrange : 0x80 ≤ lower ∧ upper ≤ 0xBF := by
          rw [hlower, hupper]
          constructor
          · split <;> omega
          · split <;> omega
        have hlow : 0x10000 ≤ v := by
          by_cases hF0 : b = 0xF0
          · rw [if_pos hF0] at hlower
            omega
          · omega
        have hhigh : v < 0x110000 := by
          by_cases hF4 : b = 0xF4
          · rw [if_pos hF4] at hupper
            omega
          · omega
        have hfirst : 0xF0 + v / 262144 = b := by omega
        have hsecond : 0x80 + v / 4096 % 64 = x := by omega
        have hthird : 0x80 + v / 64 % 64 = y := by omega
        have hfourth : 0x80 + v % 64 = z := by omega
        refine .char (Char.ofNat v) [x, y, z] rest₃ rfl ?_ ?_ rfl
        · rw [encode_four hlow hhigh, hfirst, hsecond, hthird, hfourth]
        · rw [toNat_ofNat (Or.inr ⟨by omega, hhigh⟩)]
          omega
      · exact .replaced [x, y] rest'' rfl hbad
    · exact .replaced [x] rest' rfl hbad
  · exact .replaced [] rest rfl hbad

/-- What the decoder makes of bytes that are not at an end. -/
theorem decode_read (b : Nat) (rest : List Nat) :
    (b < 128 ∧ decode (b :: rest) = Char.ofNat b :: decode rest) ∨
      Read b rest (decode (b :: rest)) := by
  rw [decode_cons]
  by_cases h1 : b < 0x80
  · rw [lead_of_lt h1]
    exact .inl ⟨h1, rfl⟩
  · refine .inr ?_
    unfold lead
    rw [if_neg h1]
    by_cases h2 : b < 0xC2
    · rw [if_pos h2]
      exact .replaced [] rest rfl rfl
    · rw [if_neg h2]
      by_cases h3 : b < 0xE0
      · rw [if_pos h3]
        exact read_two (by omega) h3 rest
      · rw [if_neg h3]
        by_cases h4 : b < 0xF0
        · rw [if_pos h4]
          exact read_three (by omega) h4 rfl rfl rest
        · rw [if_neg h4]
          by_cases h5 : b < 0xF5
          · rw [if_pos h5]
            exact read_four (by omega) h5 rfl rfl rest
          · rw [if_neg h5]
            exact .replaced [] rest rfl rfl

/-! ## Without loss -/

theorem encode_of_lt {b : Nat} (h : b < 128) : encode (Char.ofNat b) = [b] := by
  have hvalid : b.isValidChar := Or.inl (by omega)
  unfold encode
  rw [toNat_ofNat hvalid]
  dsimp only
  rw [if_pos h]

/-- Bytes decoded without a replacement are the bytes of the text. -/
theorem encode_decode : ∀ (n : Nat) (bytes : List Nat), bytes.length ≤ n →
    replacement ∉ decode bytes → encodeText (decode bytes) = bytes := by
  intro n
  induction n with
  | zero =>
      intro bytes hlen _
      rw [List.length_eq_zero_iff.mp (Nat.le_zero.mp hlen)]
      rfl
  | succ n ih =>
      intro bytes hlen hclean
      cases bytes with
      | nil => rfl
      | cons b rest =>
          rw [List.length_cons] at hlen
          rcases decode_read b rest with ⟨hb, hdecode⟩ | hread
          · rw [hdecode] at hclean ⊢
            have hrest := ih rest (by omega)
              fun hmem => hclean (List.mem_cons_of_mem _ hmem)
            show encode (Char.ofNat b) ++ encodeText (decode rest) = _
            rw [hrest, encode_of_lt hb]
            rfl
          · cases hread with
            | char c tail rest' hrest hbytes hpoint htext =>
                rw [htext] at hclean ⊢
                rw [hrest, List.length_append] at hlen
                have hrest' := ih rest' (by omega)
                  fun hmem => hclean (List.mem_cons_of_mem _ hmem)
                show encode c ++ encodeText (decode rest') = _
                rw [hrest', hbytes, hrest]
                rfl
            | replaced tail rest' hrest htext =>
                rw [htext] at hclean
                exact absurd List.mem_cons_self hclean

/-! ## The bytes of a text -/

theorem toNat_valid (c : Char) : c.toNat.isValidChar := by
  have hvalid := c.valid
  exact hvalid

/-- The bytes of a character are decoded as it. -/
theorem decode_encode (c : Char) (rest : List Nat) :
    decode (encode c ++ rest) = c :: decode rest := by
  have hc : Char.ofNat c.toNat = c := Char.ofNat_toNat c
  have hvalid := toNat_valid c
  unfold encode
  generalize c.toNat = v at hc hvalid
  dsimp only
  by_cases h1 : v < 0x80
  · rw [if_pos h1, List.singleton_append, decode_cons, lead_of_lt h1, ← hc]
  · rw [if_neg h1]
    by_cases h2 : v < 0x800
    · rw [if_pos h2, List.cons_append, decode_cons]
      have hlead : lead (0xC0 + v / 64) =
          .more ⟨1, 0x80, 0xBF, 0xC0 + v / 64 - 0xC0⟩ := by
        unfold lead
        rw [if_neg (by omega), if_neg (by omega), if_pos (by omega)]
      have hpoint : (0xC0 + v / 64 - 0xC0) * 64 + (0x80 + v % 64 - 0x80) =
          v := by omega
      rw [hlead]
      dsimp only
      rw [List.singleton_append, decodeFrom_last ⟨by dsimp only; omega,
        by dsimp only; omega⟩ rfl]
      dsimp only
      rw [hpoint, hc]
    · rw [if_neg h2]
      by_cases h3 : v < 0x10000
      · rw [if_pos h3, List.cons_append, decode_cons]
        generalize hb : 0xE0 + v / 4096 = b
        have hlead : lead b =
            .more ⟨2, if b = 0xE0 then 0xA0 else 0x80,
              if b = 0xED then 0x9F else 0xBF, b - 0xE0⟩ := by
          unfold lead
          rw [if_neg (by omega), if_neg (by omega), if_neg (by omega),
            if_pos (by omega)]
        have hlower : (if b = 0xE0 then 0xA0 else 0x80) ≤
            0x80 + v / 64 % 64 := by
          split <;> omega
        have hupper : 0x80 + v / 64 % 64 ≤
            if b = 0xED then 0x9F else 0xBF := by
          rcases hvalid with hsmall | hlarge
          · split <;> omega
          · split <;> omega
        have hpoint : ((b - 0xE0) * 64 + (0x80 + v / 64 % 64 - 0x80)) * 64 +
            (0x80 + v % 64 - 0x80) = v := by omega
        rw [hlead]
        dsimp only
        rw [List.cons_append, decodeFrom_next ⟨hlower, hupper⟩
          (show 2 ≠ 1 by decide), List.singleton_append,
          decodeFrom_last ⟨by dsimp only; omega, by dsimp only; omega⟩ rfl]
        dsimp only
        rw [hpoint, hc]
      · rw [if_neg h3, List.cons_append, decode_cons]
        have hhigh : v < 0x110000 := by
          rcases hvalid with hsmall | hlarge
          · omega
          · exact hlarge.2
        generalize hb : 0xF0 + v / 262144 = b
        have hlead : lead b =
            .more ⟨3, if b = 0xF0 then 0x90 else 0x80,
              if b = 0xF4 then 0x8F else 0xBF, b - 0xF0⟩ := by
          unfold lead
          rw [if_neg (by omega), if_neg (by omega), if_neg (by omega),
            if_neg (by omega), if_pos (by omega)]
        have hlower : (if b = 0xF0 then 0x90 else 0x80) ≤
            0x80 + v / 4096 % 64 := by
          split <;> omega
        have hupper : 0x80 + v / 4096 % 64 ≤
            if b = 0xF4 then 0x8F else 0xBF := by
          split <;> omega
        have hpoint : (((b - 0xF0) * 64 + (0x80 + v / 4096 % 64 - 0x80)) *
            64 + (0x80 + v / 64 % 64 - 0x80)) * 64 +
              (0x80 + v % 64 - 0x80) = v := by omega
        rw [hlead]
        dsimp only
        rw [List.cons_append, decodeFrom_next ⟨hlower, hupper⟩
          (show 3 ≠ 1 by decide), List.cons_append,
          decodeFrom_next ⟨by dsimp only; omega, by dsimp only; omega⟩
            (show 3 - 1 ≠ 1 by decide), List.singleton_append,
          decodeFrom_last ⟨by dsimp only; omega, by dsimp only; omega⟩ rfl]
        dsimp only
        rw [hpoint, hc]

theorem encodeText_append (text text' : List Char) :
    encodeText (text ++ text') = encodeText text ++ encodeText text' :=
  List.flatMap_append

theorem length_le_encodeText (text : List Char) :
    text.length ≤ (encodeText text).length := by
  induction text with
  | nil => exact Nat.le_refl 0
  | cons c rest ih =>
      have hc : 1 ≤ (encode c).length := by
        unfold encode
        dsimp only
        split_ifs <;> simp
      rw [encodeText, List.flatMap_cons, List.length_append,
        List.length_cons]
      rw [encodeText] at ih
      omega

/-- The bytes of a text are decoded as it, whatever follows. -/
theorem decode_encodeText_append (text : List Char) (bytes : List Nat) :
    decode (encodeText text ++ bytes) = text ++ decode bytes := by
  induction text with
  | nil => rfl
  | cons c rest ih =>
      rw [encodeText, List.flatMap_cons, List.append_assoc, decode_encode]
      exact congrArg (c :: ·) ih

theorem decode_encodeText (text : List Char) :
    decode (encodeText text) = text := by
  have h := decode_encodeText_append text []
  rwa [List.append_nil, decode_nil, List.append_nil] at h

theorem encodeText_injective {text text' : List Char}
    (h : encodeText text = encodeText text') : text = text' := by
  rw [← decode_encodeText text, h, decode_encodeText]

theorem encode_lt (c : Char) : ∀ b ∈ encode c, b < 256 := by
  have hvalid := toNat_valid c
  have hlt : c.toNat < 0x110000 := by
    rcases hvalid with h | h <;> omega
  unfold encode
  generalize c.toNat = v at hlt
  dsimp only
  split_ifs <;>
    simp only [List.forall_mem_cons, List.not_mem_nil, IsEmpty.forall_iff,
      implies_true, and_true] <;> omega

theorem encodeText_lt (text : List Char) :
    ∀ b ∈ encodeText text, b < 256 := by
  intro b hb
  obtain ⟨c, -, hc⟩ := List.mem_flatMap.mp hb
  exact encode_lt c b hc

/-- Only the character of an ASCII byte has that byte. -/
theorem toNat_of_mem_encode {n : Nat} (hn : n < 128) {c : Char}
    (h : n ∈ encode c) : c.toNat = n := by
  unfold encode at h
  generalize c.toNat = v at h
  dsimp only at h
  split_ifs at h <;>
    simp only [List.mem_cons, List.not_mem_nil, or_false] at h <;> omega

/-- Only the line feed has the byte of a line feed. -/
theorem newline_not_mem_encode {c : Char} (h : c ≠ '\n') :
    10 ∉ encode c := by
  have hc : Char.ofNat c.toNat = c := Char.ofNat_toNat c
  have hne : c.toNat ≠ 10 := by
    intro heq
    rw [heq] at hc
    exact h hc.symm
  unfold encode
  generalize c.toNat = v at hne
  dsimp only
  split
  · simp only [List.mem_singleton]
    omega
  · split
    · simp only [List.mem_cons, List.not_mem_nil, or_false]
      omega
    · split
      · simp only [List.mem_cons, List.not_mem_nil, or_false]
        omega
      · simp only [List.mem_cons, List.not_mem_nil, or_false]
        omega

/-! ## Line feeds -/

theorem ofNat_eq_newline {n : Nat} (h : Char.ofNat n = '\n') : n = 10 := by
  by_cases hvalid : n.isValidChar
  · have htoNat := congrArg Char.toNat h
    rw [toNat_ofNat hvalid] at htoNat
    exact htoNat
  · rw [Char.ofNat, dif_neg hvalid] at h
    exact absurd h (by decide)

/-- No line feed is decoded where there was none. -/
theorem newline_not_mem_decode : ∀ (n : Nat) (bytes : List Nat),
    bytes.length ≤ n → 10 ∉ bytes → '\n' ∉ decode bytes := by
  intro n
  induction n with
  | zero =>
      intro bytes hlen _
      rw [List.length_eq_zero_iff.mp (Nat.le_zero.mp hlen)]
      exact List.not_mem_nil
  | succ n ih =>
      intro bytes hlen hnone
      cases bytes with
      | nil => exact List.not_mem_nil
      | cons b rest =>
          rw [List.length_cons] at hlen
          have hb : 10 ≠ b := fun heq => hnone (by rw [heq]; simp)
          have hrestNone : 10 ∉ rest := fun hmem =>
            hnone (List.mem_cons_of_mem b hmem)
          rcases decode_read b rest with ⟨-, hdecode⟩ | hread
          · rw [hdecode, List.mem_cons, not_or]
            refine ⟨fun heq => hb (ofNat_eq_newline heq.symm).symm, ?_⟩
            exact ih rest (by omega) hrestNone
          · cases hread with
            | char c tail rest' hrest hbytes hpoint htext =>
                rw [hrest, List.length_append] at hlen
                rw [hrest] at hrestNone
                rw [htext, List.mem_cons, not_or]
                refine ⟨fun heq => ?_, ih rest' (by omega) fun hmem =>
                  hrestNone (List.mem_append_right tail hmem)⟩
                rw [← heq] at hpoint
                exact absurd hpoint (by decide)
            | replaced tail rest' hrest htext =>
                rw [hrest, List.length_append] at hlen
                rw [hrest] at hrestNone
                rw [htext, List.mem_cons, not_or]
                exact ⟨by decide, ih rest' (by omega) fun hmem =>
                  hrestNone (List.mem_append_right tail hmem)⟩

/-- The range of the next byte holds no byte below 128. -/
def FromTails (st : Option Pending) : Prop :=
  ∀ p, st = some p → 0x80 ≤ p.lower

theorem fromTails_lead {b : Nat} {p : Pending} (h : lead b = .more p) :
    FromTails (some p) := by
  intro q hq
  cases hq
  unfold lead at h
  split at h
  · cases h
  · split at h
    · cases h
    · split at h
      · cases h
        exact Nat.le_refl _
      · split at h
        · cases h
          dsimp only
          split <;> omega
        · split at h
          · cases h
            dsimp only
            split <;> omega
          · cases h

/-- A line feed ends what was begun and is decoded by itself. -/
theorem decodeFrom_append (after : List Nat) : ∀ (before : List Nat)
    (st : Option Pending), FromTails st →
    decodeFrom st (before ++ 10 :: after) =
      decodeFrom st before ++ '\n' :: decode after := by
  intro before
  induction before with
  | nil =>
      intro st htails
      cases st with
      | none => rfl
      | some p =>
          have hlower := htails p rfl
          rw [List.nil_append, decodeFrom_out (by omega)]
          rfl
  | cons b rest ih =>
      have hclear : decode (b :: rest ++ 10 :: after) =
          decode (b :: rest) ++ '\n' :: decode after := by
        rw [List.cons_append, decode_cons, decode_cons]
        cases hlead : lead b with
        | whole =>
            dsimp only
            rw [List.cons_append]
            exact congrArg _ (ih none fun _ hp => by cases hp)
        | more p => exact ih (some p) (fromTails_lead hlead)
        | bad =>
            dsimp only
            rw [List.cons_append]
            exact congrArg _ (ih none fun _ hp => by cases hp)
      intro st htails
      cases st with
      | none => exact hclear
      | some p =>
          by_cases hin : p.lower ≤ b ∧ b ≤ p.upper
          · by_cases hneeded : p.needed = 1
            · rw [List.cons_append, decodeFrom_last hin hneeded,
                decodeFrom_last hin hneeded, List.cons_append]
              exact congrArg _ (ih none fun _ hp => by cases hp)
            · rw [List.cons_append, decodeFrom_next hin hneeded,
                decodeFrom_next hin hneeded]
              refine ih _ fun q hq => ?_
              cases hq
              exact Nat.le_refl _
          · rw [List.cons_append, decodeFrom_out hin, decodeFrom_out hin,
              List.cons_append]
            exact congrArg _ hclear

theorem decode_append (before after : List Nat) :
    decode (before ++ 10 :: after) =
      decode before ++ '\n' :: decode after :=
  decodeFrom_append after before none fun _ hp => by cases hp

/-- `short` is `text` up to some character, with at most one replacement
after it. -/
def CutShort (text short : List Char) : Prop :=
  ∃ k, short = text.take k ∨ short = text.take k ++ [replacement]

theorem CutShort.cons {text short : List Char} (h : CutShort text short)
    (c : Char) : CutShort (c :: text) (c :: short) := by
  obtain ⟨k, rfl | rfl⟩ := h
  · exact ⟨k + 1, .inl rfl⟩
  · exact ⟨k + 1, .inr rfl⟩

/-- The bytes that came first, decoded without the ones after them. -/
theorem decodeFrom_cutShort (after : List Nat) : ∀ (before : List Nat)
    (st : Option Pending),
    CutShort (decodeFrom st (before ++ after)) (decodeFrom st before) := by
  intro before
  induction before with
  | nil =>
      intro st
      cases st with
      | none => exact ⟨0, .inl rfl⟩
      | some p => exact ⟨0, .inr rfl⟩
  | cons b rest ih =>
      have hclear : CutShort (decode (b :: rest ++ after))
          (decode (b :: rest)) := by
        rw [List.cons_append, decode_cons, decode_cons]
        cases lead b with
        | whole => exact (ih none).cons _
        | more p => exact ih (some p)
        | bad => exact (ih none).cons _
      intro st
      cases st with
      | none => exact hclear
      | some p =>
          by_cases hin : p.lower ≤ b ∧ b ≤ p.upper
          · by_cases hneeded : p.needed = 1
            · rw [List.cons_append, decodeFrom_last hin hneeded,
                decodeFrom_last hin hneeded]
              exact (ih none).cons _
            · rw [List.cons_append, decodeFrom_next hin hneeded,
                decodeFrom_next hin hneeded]
              exact ih _
          · rw [List.cons_append, decodeFrom_out hin, decodeFrom_out hin]
            exact hclear.cons _

/-- The first bytes of a text, decoded. -/
theorem decode_take_encodeText (text : List Char) (n : Nat) :
    CutShort text (decode ((encodeText text).take n)) := by
  have h := decodeFrom_cutShort ((encodeText text).drop n)
    ((encodeText text).take n) none
  rw [List.take_append_drop] at h
  rwa [show decodeFrom none (encodeText text) = text from
    decode_encodeText text] at h

end AirNote.Lib.Utf8
