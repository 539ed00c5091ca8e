import AirNote.Lib.Utf8

/-!
# UTF-16

A text as the code units a program sees that stores it in UTF-16: one for a
character of the basic plane, a pair of surrogates for any other. A unit is a
natural number. Units read as a text again give a replacement character for
each surrogate that has no partner.

## Main results

* `decode_encode` — the units of a text are read as that text.
* `encode_injective` — texts with the same units are the same.
* `zero_mem_of_decode` — a text has a zero only where its units had one.
-/

namespace AirNote.Lib.Utf16

/-- The units of a character. -/
def units (c : Char) : List Nat :=
  let v := c.toNat
  if v < 0x10000 then [v]
  else [0xD800 + (v - 0x10000) / 0x400, 0xDC00 + (v - 0x10000) % 0x400]

/-- The units of a text. -/
def encode (text : List Char) : List Nat := text.flatMap units

/-- The first of a pair of surrogates. -/
def High (u : Nat) : Prop := 0xD800 ≤ u ∧ u < 0xDC00

/-- The second of a pair of surrogates. -/
def Low (u : Nat) : Prop := 0xDC00 ≤ u ∧ u < 0xE000

instance (u : Nat) : Decidable (High u) :=
  inferInstanceAs (Decidable (_ ∧ _))

instance (u : Nat) : Decidable (Low u) :=
  inferInstanceAs (Decidable (_ ∧ _))

/-- The character of a unit without a partner. -/
def single (u : Nat) : Char :=
  if High u ∨ Low u then Utf8.replacement else Char.ofNat u

/-- The character of a pair. -/
def pair (u v : Nat) : Char :=
  Char.ofNat (0x10000 + (u - 0xD800) * 0x400 + (v - 0xDC00))

/-- Units as a text. -/
def decode : List Nat → List Char
  | [] => []
  | [u] => [single u]
  | u :: v :: rest =>
      if High u ∧ Low v then pair u v :: decode rest
      else single u :: decode (v :: rest)

example : decode [0x61, 0xD83D, 0xDE00, 0xD83D, 0x62] =
    ['a', '😀', Utf8.replacement, 'b'] := by decide

/-! ## The units of a text -/

theorem decode_cons {u : Nat} (hu : ¬ High u) (rest : List Nat) :
    decode (u :: rest) = single u :: decode rest := by
  cases rest with
  | nil => rfl
  | cons v rest => rw [decode, if_neg fun h => hu h.1]

theorem single_toNat {c : Char} :
    ¬ High c.toNat ∧ single c.toNat = c := by
  have hvalid : ¬ (High c.toNat ∨ Low c.toNat) := by
    rcases Utf8.toNat_valid c with h | h <;>
      simp only [High, Low] <;> omega
  rw [single, if_neg hvalid]
  exact ⟨fun h => hvalid (Or.inl h), Char.ofNat_toNat c⟩

theorem pair_units {c : Char} (hc : 0x10000 ≤ c.toNat) :
    High (0xD800 + (c.toNat - 0x10000) / 0x400) ∧
      Low (0xDC00 + (c.toNat - 0x10000) % 0x400) ∧
      pair (0xD800 + (c.toNat - 0x10000) / 0x400)
        (0xDC00 + (c.toNat - 0x10000) % 0x400) = c := by
  have hlt : c.toNat < 0x110000 := by
    rcases Utf8.toNat_valid c with h | h <;> omega
  have hpoint : 0x10000 + (0xD800 + (c.toNat - 0x10000) / 0x400 - 0xD800) *
      0x400 + (0xDC00 + (c.toNat - 0x10000) % 0x400 - 0xDC00) = c.toNat := by
    omega
  refine ⟨?_, ?_, ?_⟩
  · simp only [High]
    omega
  · simp only [Low]
    omega
  · rw [pair, hpoint, Char.ofNat_toNat]

theorem decode_units_append (c : Char) (rest : List Nat) :
    decode (units c ++ rest) = c :: decode rest := by
  by_cases hc : c.toNat < 0x10000
  · obtain ⟨hhigh, hsingle⟩ := @single_toNat c
    simp only [units, if_pos hc, List.singleton_append]
    rw [decode_cons hhigh, hsingle]
  · obtain ⟨hhigh, hlow, hpair⟩ := pair_units (Nat.le_of_not_lt hc)
    simp only [units, if_neg hc, List.cons_append, List.nil_append]
    rw [decode, if_pos ⟨hhigh, hlow⟩, hpair]

/-- **The units of a text are read as that text.** -/
theorem decode_encode (text : List Char) : decode (encode text) = text := by
  induction text with
  | nil => rfl
  | cons c text ih =>
      rw [encode, List.flatMap_cons, decode_units_append]
      exact congrArg (c :: ·) ih

/-- Texts with the same units are the same. -/
theorem encode_injective {text text' : List Char}
    (h : encode text = encode text') : text = text' := by
  rw [← decode_encode text, h, decode_encode]

/-! ## Zeros -/

theorem units_lt (c : Char) : ∀ u ∈ units c, u < 0x10000 := by
  have hvalid := Utf8.toNat_valid c
  have hlt : c.toNat < 0x110000 := by
    rcases hvalid with h | h <;> omega
  unfold units
  dsimp only
  split_ifs <;>
    simp only [List.forall_mem_cons, List.not_mem_nil, IsEmpty.forall_iff,
      implies_true, and_true] <;> omega

theorem encode_lt (text : List Char) : ∀ u ∈ encode text, u < 0x10000 := by
  intro u hu
  obtain ⟨c, -, hc⟩ := List.mem_flatMap.mp hu
  exact units_lt c u hc

theorem single_toNat_eq_zero {u : Nat} (hu : u < 0x10000)
    (h : (single u).toNat = 0) : u = 0 := by
  unfold single at h
  split_ifs at h with hpair
  · exact absurd h (by decide)
  · have hvalid : u.isValidChar := by
      simp only [High, Low, not_or, not_and, not_lt] at hpair
      simp only [Nat.isValidChar]
      omega
    rwa [Utf8.toNat_ofNat hvalid] at h

theorem pair_toNat_ne_zero {u v : Nat} (hu : High u) (hv : Low v) :
    (pair u v).toNat ≠ 0 := by
  have hvalid :
      (0x10000 + (u - 0xD800) * 0x400 + (v - 0xDC00)).isValidChar := by
    simp only [High, Low] at hu hv
    simp only [Nat.isValidChar]
    omega
  intro h
  rw [pair, Utf8.toNat_ofNat hvalid] at h
  omega

/-- A text has a zero only where its units had one. -/
theorem zero_mem_of_decode (held : List Nat) (hlt : ∀ u ∈ held, u < 0x10000)
    {c : Char} (hc : c ∈ decode held) (hzero : c.toNat = 0) : 0 ∈ held := by
  induction held using decode.induct with
  | case1 => exact absurd hc List.not_mem_nil
  | case2 u =>
      obtain rfl := List.mem_singleton.mp hc
      rw [single_toNat_eq_zero (hlt u List.mem_cons_self) hzero]
      exact List.mem_cons_self
  | case3 u v rest hpair ih =>
      rw [decode, if_pos hpair] at hc
      rcases List.mem_cons.mp hc with hhead | hrest
      · rw [hhead] at hzero
        exact (pair_toNat_ne_zero hpair.1 hpair.2 hzero).elim
      · have hmem := ih (fun w hw => hlt w (by simp [hw])) hrest
        exact List.mem_cons_of_mem u (List.mem_cons_of_mem v hmem)
  | case4 u v rest hpair ih =>
      rw [decode, if_neg hpair] at hc
      rcases List.mem_cons.mp hc with rfl | hrest
      · rw [single_toNat_eq_zero (hlt u List.mem_cons_self) hzero]
        exact List.mem_cons_self
      · have hmem := ih (fun w hw => hlt w (List.mem_cons_of_mem u hw)) hrest
        exact List.mem_cons_of_mem u hmem

end AirNote.Lib.Utf16
