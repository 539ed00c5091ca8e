import Mathlib.Algebra.Order.Ring.Int
import Mathlib.Data.List.Lex
import Mathlib.Data.Char
import Mathlib.Order.Lex
import Mathlib.Tactic.Common

/-!
# Fixed-width fields

Numbers written with a fixed number of decimal digits compare as texts as they
compare as numbers, and a text of such fields, each after a separator, compares
as the list of its numbers does. This is what makes the order of a record the
order of its text.

## Main results

* `digits_lt_iff` — one number.
* `render_lt_iff` — a list of fields.
-/

namespace AirNote.Lib.FixedWidth

/-- The last `k` decimal digits of a number. -/
def digits : Nat → Nat → List Char
  | 0, _ => []
  | k + 1, n => Nat.digitChar (n / 10 ^ k % 10) :: digits k n

@[simp] theorem length_digits (k n : Nat) : (digits k n).length = k := by
  induction k with
  | zero => rfl
  | succ k ih => rw [digits, List.length_cons, ih]

theorem digitChar_lt_iff {a b : Nat} (ha : a < 10) (hb : b < 10) :
    Nat.digitChar a < Nat.digitChar b ↔ a < b := by
  have hall : ∀ a : Fin 10, ∀ b : Fin 10,
      Nat.digitChar a < Nat.digitChar b ↔ a.val < b.val := by decide
  exact hall ⟨a, ha⟩ ⟨b, hb⟩

theorem digitChar_inj {a b : Nat} (ha : a < 10) (hb : b < 10)
    (h : Nat.digitChar a = Nat.digitChar b) : a = b := by
  rcases lt_trichotomy a b with hlt | heq | hlt
  · exact absurd ((digitChar_lt_iff ha hb).mpr hlt) (h ▸ lt_irrefl _)
  · exact heq
  · exact absurd ((digitChar_lt_iff hb ha).mpr hlt) (h ▸ lt_irrefl _)

/-- The digits before the last `k` play no part. -/
theorem digits_mod (k n : Nat) : digits k (n % 10 ^ k) = digits k n := by
  have hall : ∀ j ≤ k, digits j (n % 10 ^ k) = digits j n := by
    intro j
    induction j with
    | zero => exact fun _ => rfl
    | succ j ih =>
        intro hj
        have hdigit : n % 10 ^ k / 10 ^ j % 10 = n / 10 ^ j % 10 := by
          obtain ⟨i, rfl⟩ := Nat.exists_eq_add_of_le hj
          have hpow : 10 ^ (j + 1 + i) = 10 ^ j * (10 * 10 ^ i) := by
            rw [Nat.pow_add, Nat.pow_succ, Nat.mul_assoc]
          rw [hpow, Nat.mod_mul_right_div_self, Nat.mod_mul_right_mod]
        rw [digits, digits, hdigit, ih (Nat.le_of_succ_le hj)]
  exact hall k le_rfl

/-- **Texts of one width compare as their numbers.** -/
theorem digits_lt_iff {k m n : Nat} (hm : m < 10 ^ k) (hn : n < 10 ^ k) :
    digits k m < digits k n ↔ m < n := by
  induction k generalizing m n with
  | zero =>
      have hnone : ¬ m < n := by omega
      exact iff_of_false (lt_irrefl _) hnone
  | succ k ih =>
      have hpos : 0 < 10 ^ k := Nat.pow_pos (by decide)
      rw [Nat.pow_succ] at hm hn
      have hmk : m / 10 ^ k < 10 := (Nat.div_lt_iff_lt_mul hpos).mpr (by omega)
      have hnk : n / 10 ^ k < 10 := (Nat.div_lt_iff_lt_mul hpos).mpr (by omega)
      rw [digits, digits, List.cons_lt_cons_iff, Nat.mod_eq_of_lt hmk,
        Nat.mod_eq_of_lt hnk, digitChar_lt_iff hmk hnk, ← digits_mod k m,
        ← digits_mod k n, ih (Nat.mod_lt m hpos) (Nat.mod_lt n hpos)]
      have hm' := Nat.div_add_mod m (10 ^ k)
      have hn' := Nat.div_add_mod n (10 ^ k)
      constructor
      · rintro (hlt | ⟨heq, hlt⟩)
        · by_contra hle
          exact absurd (Nat.div_le_div_right (Nat.le_of_not_lt hle))
            (Nat.not_le_of_lt hlt)
        · rw [← hm', ← hn', digitChar_inj hmk hnk heq]
          omega
      · intro hlt
        rcases lt_or_eq_of_le (Nat.div_le_div_right (c := 10 ^ k) hlt.le) with
          hdiv | hdiv
        · exact Or.inl hdiv
        · rw [hdiv] at hm'
          exact Or.inr ⟨congrArg _ hdiv, by omega⟩

/-! ## Texts one after the other -/

/-- Texts that begin with parts of one length. -/
theorem append_lt_append_iff {a b x y : List Char} (h : a.length = b.length) :
    a ++ x < b ++ y ↔ a < b ∨ a = b ∧ x < y := by
  induction a generalizing b with
  | nil =>
      cases b with
      | nil => simp
      | cons d b => cases h
  | cons c a ih =>
      cases b with
      | nil => cases h
      | cons d b =>
          have htail : a.length = b.length := Nat.succ.inj h
          rw [List.cons_append, List.cons_append, List.cons_lt_cons_iff,
            List.cons_lt_cons_iff, ih htail, List.cons.injEq]
          constructor
          · rintro (hlt | ⟨rfl, hlt | ⟨rfl, hlt⟩⟩)
            · exact Or.inl (Or.inl hlt)
            · exact Or.inl (Or.inr ⟨rfl, hlt⟩)
            · exact Or.inr ⟨⟨rfl, rfl⟩, hlt⟩
          · rintro ((hlt | ⟨rfl, hlt⟩) | ⟨⟨rfl, rfl⟩, hlt⟩)
            · exact Or.inl hlt
            · exact Or.inr ⟨rfl, Or.inl hlt⟩
            · exact Or.inr ⟨rfl, Or.inr ⟨rfl, hlt⟩⟩

/-- A field: what stands before it, its width and its number. -/
structure Field where
  sep : Char
  width : Nat
  value : Nat
  fits : value < 10 ^ width

def Field.render (f : Field) : List Char := f.sep :: digits f.width f.value

/-- The fields of a text. -/
def render (fields : List Field) : List Char := fields.flatMap Field.render

/-- The fields are laid out alike. -/
def SameLayout (fs gs : List Field) : Prop :=
  fs.map (fun f => (f.sep, f.width)) = gs.map fun g => (g.sep, g.width)

/-- **Texts laid out alike compare as the lists of their numbers.** -/
theorem render_lt_iff {fs gs : List Field} (h : SameLayout fs gs) :
    render fs < render gs ↔
      fs.map Field.value < gs.map Field.value := by
  induction fs generalizing gs with
  | nil =>
      have hgs : gs = [] := List.map_eq_nil_iff.mp h.symm
      subst hgs
      exact iff_of_false (lt_irrefl _) (lt_irrefl _)
  | cons f fs ih =>
      cases gs with
      | nil => cases h
      | cons g gs =>
          obtain ⟨hlayout, htail⟩ := List.cons.inj h
          obtain ⟨hsep, hwidth⟩ := Prod.mk.inj hlayout
          have hfits : g.value < 10 ^ f.width := hwidth ▸ g.fits
          have hone : f.render < g.render ↔ f.value < g.value := by
            rw [Field.render, Field.render, ← hsep, ← hwidth,
              List.cons_lt_cons_iff, digits_lt_iff f.fits hfits]
            simp
          have hone' : g.render < f.render ↔ g.value < f.value := by
            rw [Field.render, Field.render, ← hsep, ← hwidth,
              List.cons_lt_cons_iff, digits_lt_iff hfits f.fits]
            simp
          have heq : f.render = g.render ↔ f.value = g.value := by
            rw [eq_iff_le_not_lt, eq_iff_le_not_lt, ← not_lt, ← not_lt, hone,
              hone']
          have hlength : f.render.length = g.render.length := by
            simp [Field.render, hwidth]
          rw [render, render, List.flatMap_cons, List.flatMap_cons,
            append_lt_append_iff hlength, List.map_cons, List.map_cons,
            List.cons_lt_cons_iff, hone, heq]
          exact or_congr_right (and_congr_right fun _ => ih htail)

end AirNote.Lib.FixedWidth
