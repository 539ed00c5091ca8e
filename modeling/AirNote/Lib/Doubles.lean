import Mathlib.Algebra.Order.Ring.Int
import Mathlib.Data.Nat.Log
import Mathlib.Tactic.Common

/-!
# Integers in a double

A program whose only numbers are doubles reads an integer as the nearest one
with 53 significant bits, and writes it with as few significant digits as are
read as the same number again. Up to 2⁵³ an integer survives both; above, it
may come back as another one.

## Main results

* `through_of_le` — integers up to 2⁵³ survive.
-/

namespace AirNote.Lib.Doubles

/-- The multiple of `step` nearest to `n`; halfway, the even one. -/
def roundTo (step n : Nat) : Nat :=
  if 2 * (n % step) < step ∨ 2 * (n % step) = step ∧ n / step % 2 = 0 then
    n / step * step
  else (n / step + 1) * step

/-- The distance between the doubles around `n`. -/
def spacing (n : Nat) : Nat := 2 ^ (Nat.log 2 n - 52)

/-- The double nearest to `n`. -/
def nearest (n : Nat) : Nat := roundTo (spacing n) n

/-- The other multiple of `step` beside `d`. -/
def farther (step d : Nat) : Nat :=
  if roundTo step d ≤ d then roundTo step d + step else roundTo step d - step

/-- A multiple of `10 ^ j` that is read as the double `d`. -/
def shorter? (d j : Nat) : Option Nat :=
  if nearest (roundTo (10 ^ j) d) = d then some (roundTo (10 ^ j) d)
  else if nearest (farther (10 ^ j) d) = d then some (farther (10 ^ j) d)
  else none

/-- The digits a double is written with: as many zeros at the end as can
be. -/
def shortest (d : Nat) : Nat :=
  ((List.range 22).reverse.findSome? (shorter? d)).getD d

/-- What is written of an integer that was read into a double. -/
def through (n : Nat) : Nat := shortest (nearest n)

example : through (2 ^ 53 + 1) = 2 ^ 53 := by decide +kernel

example : through (2 ^ 60) = 1152921504606847000 := by decide +kernel

/-! ## Rounding -/

theorem roundTo_one (n : Nat) : roundTo 1 n = n := by
  simp [roundTo, Nat.mod_one]

theorem le_roundTo (step n : Nat) : n / step * step ≤ roundTo step n := by
  unfold roundTo
  split
  · exact Nat.le_refl _
  · exact Nat.mul_le_mul_right step (Nat.le_succ _)

theorem dvd_roundTo (step n : Nat) : step ∣ roundTo step n := by
  unfold roundTo
  split <;> exact Nat.dvd_mul_left step _

theorem dvd_farther (step d : Nat) : step ∣ farther step d := by
  unfold farther
  split
  · exact (Nat.dvd_add_self_right).mpr (dvd_roundTo step d)
  · exact Nat.dvd_sub (dvd_roundTo step d) (Nat.dvd_refl step)

/-! ## The integers that survive -/

theorem nearest_of_le {n : Nat} (h : n ≤ 2 ^ 53) : nearest n = n := by
  by_cases heq : n = 2 ^ 53
  · subst heq
    decide +kernel
  · have hlog : Nat.log 2 n < 53 :=
      Nat.log_lt_of_lt_pow' (by decide) (Nat.lt_of_le_of_ne h heq)
    have hspacing : spacing n = 1 := by
      rw [spacing, Nat.sub_eq_zero_of_le (by omega), Nat.pow_zero]
    rw [nearest, hspacing, roundTo_one]

/-- Two above 2⁵³, an integer is not read as one below. -/
theorem lt_nearest {c : Nat} (h : 2 ^ 53 + 2 ≤ c) : 2 ^ 53 < nearest c := by
  have hfloor := le_roundTo (spacing c) c
  have hpow : 2 ^ Nat.log 2 c ≤ c := Nat.pow_log_le_self 2 (by omega)
  have hlog : 53 ≤ Nat.log 2 c :=
    Nat.le_log_of_pow_le (by decide) (Nat.le_trans (by decide) h)
  rcases Nat.eq_or_lt_of_le hlog with heq | hlt
  · have hspacing : spacing c = 2 :=
      (congrArg (fun e => 2 ^ (e - 52)) heq).symm
    rw [hspacing] at hfloor
    rw [nearest, hspacing]
    omega
  · -- the spacing goes `2 ^ 52` times into the power of two below `c`
    have hdiv : 2 ^ 52 * spacing c ≤ c / spacing c * spacing c := by
      refine Nat.mul_le_mul_right _ ((Nat.le_div_iff_mul_le ?_).mpr ?_)
      · exact Nat.pow_pos (by decide)
      · rw [spacing, ← Nat.pow_add]
        exact Nat.le_trans (Nat.pow_le_pow_right (by decide) (by omega)) hpow
    have hfour : 4 ≤ spacing c := by
      have hexp : 2 ≤ Nat.log 2 c - 52 := by omega
      exact Nat.pow_le_pow_right (by decide : 0 < 2) hexp
    rw [nearest]
    omega

/-- A multiple of ten is read as an integer up to 2⁵³ only when it is that
integer. -/
theorem eq_of_nearest {c d : Nat} (hd : d ≤ 2 ^ 53) (hten : 10 ∣ c)
    (h : nearest c = d) : c = d := by
  by_cases hc : c ≤ 2 ^ 53
  · rw [← h, nearest_of_le hc]
  · by_cases hc' : 2 ^ 53 + 2 ≤ c
    · have hlt := lt_nearest hc'
      omega
    · omega

theorem shorter?_eq {d j m : Nat} (hd : d ≤ 2 ^ 53)
    (h : shorter? d j = some m) : m = d := by
  have hread : nearest m = d := by
    unfold shorter? at h
    split at h
    · exact Option.some.inj h ▸ ‹_›
    · split at h
      · exact Option.some.inj h ▸ ‹_›
      · cases h
  have hdvd : 10 ^ j ∣ m := by
    unfold shorter? at h
    split at h
    · exact Option.some.inj h ▸ dvd_roundTo _ _
    · split at h
      · exact Option.some.inj h ▸ dvd_farther _ _
      · cases h
  cases j with
  | zero =>
      simp only [shorter?, Nat.pow_zero, roundTo_one, nearest_of_le hd,
        if_true, Option.some.injEq] at h
      exact h.symm
  | succ j =>
      rw [Nat.pow_succ] at hdvd
      exact eq_of_nearest hd (Nat.dvd_trans (Nat.dvd_mul_left 10 _) hdvd)
        hread

/-- **Integers up to 2⁵³ survive.** -/
theorem through_of_le {n : Nat} (h : n ≤ 2 ^ 53) : through n = n := by
  rw [through, nearest_of_le h, shortest]
  cases hfind : (List.range 22).reverse.findSome? (shorter? n) with
  | none => rfl
  | some m =>
      obtain ⟨j, -, hj⟩ := List.exists_of_findSome?_eq_some hfind
      exact shorter?_eq h hj

end AirNote.Lib.Doubles
