import Mathlib.Data.List.Basic
import Mathlib.Data.List.TakeWhile
import Mathlib.Data.Nat.Digits.Lemmas
import Mathlib.Tactic.Common

/-!
# Base 58

A list of digits, the highest first, is written in another base: its leading
zeros stay as many zeros, and the rest is one number. Written back it is the
list again, so that bytes survive their base-58 text whatever zeros they begin
with.

## Main results

* `toBase_toBase` — a list of digits, written in another base and back.
* `decode_encode` — the bytes of the text of some bytes.
-/

namespace AirNote.Lib.Base58

/-! ## Between bases -/

/-- Some digits in base `a`, written in base `b`. -/
def toBase (a b : Nat) (digits : List Nat) : List Nat :=
  digits.takeWhile (· = 0) ++
    (Nat.digits b (Nat.ofDigits a (digits.dropWhile (· = 0)).reverse)).reverse

/-- Zeros before digits that begin with none. -/
theorem zeros_append {zeros rest : List Nat} (hzeros : ∀ d ∈ zeros, d = 0)
    (hrest : ∀ d ∈ rest.head?, d ≠ 0) :
    (zeros ++ rest).takeWhile (· = 0) = zeros ∧
      (zeros ++ rest).dropWhile (· = 0) = rest := by
  induction zeros with
  | nil =>
      cases rest with
      | nil => exact ⟨rfl, rfl⟩
      | cons d rest =>
          have hd : d ≠ 0 := hrest d rfl
          simp [hd]
  | cons z zeros ih =>
      have hz : z = 0 := hzeros z List.mem_cons_self
      have hih := ih fun d hd => hzeros d (List.mem_cons_of_mem z hd)
      subst hz
      simp [hih.1, hih.2]

theorem head_digits_ne_zero (b n : Nat) :
    ∀ d ∈ (Nat.digits b n).reverse.head?, d ≠ 0 := by
  intro d hd
  rw [List.head?_reverse] at hd
  by_cases hn : n = 0
  · subst hn
    simp at hd
  · have hne := Nat.digits_ne_nil_iff_ne_zero (b := b).mpr hn
    rw [List.getLast?_eq_getLast_of_ne_nil hne, Option.mem_some_iff] at hd
    exact hd ▸ Nat.getLast_digit_ne_zero b hn

/-- **Written in another base and back.** -/
theorem toBase_toBase {a : Nat} (b : Nat) (ha : 1 < a) {digits : List Nat}
    (h : ∀ d ∈ digits, d < a) :
    toBase b a (toBase a b digits) = digits := by
  have hzeros : ∀ d ∈ digits.takeWhile (· = 0), d = 0 := by
    intro d hd
    simpa using List.mem_takeWhile_imp hd
  obtain ⟨htake, hdrop⟩ := zeros_append hzeros (head_digits_ne_zero b
    (Nat.ofDigits a (digits.dropWhile (· = 0)).reverse))
  have hback : Nat.digits a
      (Nat.ofDigits a (digits.dropWhile (· = 0)).reverse) =
        (digits.dropWhile (· = 0)).reverse := by
    refine Nat.digits_ofDigits a ha _ (fun d hd => ?_) fun hne => ?_
    · exact h d (List.dropWhile_suffix _ |>.mem (List.mem_reverse.mp hd))
    · have hhead : digits.dropWhile (· = 0) ≠ [] := fun hnil =>
        hne (by rw [hnil, List.reverse_nil])
      rw [List.getLast_reverse]
      have hfirst := List.head_dropWhile_not (fun d => decide (d = 0)) hhead
      simpa only [decide_eq_false_iff_not] using hfirst
  rw [toBase, toBase, htake, hdrop, List.reverse_reverse,
    Nat.ofDigits_digits, hback, List.reverse_reverse,
    List.takeWhile_append_dropWhile]

theorem toBase_lt {a b : Nat} (hb : 1 < b) {digits : List Nat} :
    ∀ d ∈ toBase a b digits, d < b := by
  intro d hd
  rcases List.mem_append.mp hd with hz | hd
  · have h0 : d = 0 := by simpa using List.mem_takeWhile_imp hz
    omega
  · exact Nat.digits_lt_base hb (List.mem_reverse.mp hd)

/-! ## The text -/

/-- The digits of base 58, without the ones that look alike. -/
def alphabet : List Char :=
  "123456789ABCDEFGHJKLMNPQRSTUVWXYZabcdefghijkmnopqrstuvwxyz".toList

/-- The character of a digit. -/
def digitChar (d : Nat) : Char := alphabet.getD d '1'

/-- The digit of a character. -/
def digitVal (c : Char) : Option Nat := alphabet.findIdx? (· == c)

/-- The base-58 text of some bytes. -/
def encode (bytes : List UInt8) : List Char :=
  (toBase 256 58 (bytes.map UInt8.toNat)).map digitChar

/-- The bytes of a base-58 text. -/
def decode (text : List Char) : Option (List UInt8) :=
  (text.mapM digitVal).map fun digits =>
    (toBase 58 256 digits).map UInt8.ofNat

theorem digitVal_digitChar {d : Nat} (h : d < 58) :
    digitVal (digitChar d) = some d := by
  have hall : ∀ d : Fin 58, digitVal (digitChar d) = some d.val := by
    decide +kernel
  exact hall ⟨d, h⟩

theorem mapM_digitVal {digits : List Nat} (h : ∀ d ∈ digits, d < 58) :
    (digits.map digitChar).mapM digitVal = some digits := by
  induction digits with
  | nil => rfl
  | cons d digits ih =>
      rw [List.map_cons, List.mapM_cons,
        digitVal_digitChar (h d List.mem_cons_self),
        ih fun e he => h e (List.mem_cons_of_mem d he)]
      rfl

/-- **The bytes of the text of some bytes.** -/
theorem decode_encode (bytes : List UInt8) :
    decode (encode bytes) = some bytes := by
  have hdigits := mapM_digitVal
    (@toBase_lt 256 58 (by decide) (bytes.map UInt8.toNat))
  have hback : toBase 58 256 (toBase 256 58 (bytes.map UInt8.toNat)) =
      bytes.map UInt8.toNat := by
    refine toBase_toBase 58 (by decide) fun d hd => ?_
    obtain ⟨b, -, rfl⟩ := List.mem_map.mp hd
    exact b.toNat_lt
  have hbytes : (bytes.map UInt8.toNat).map UInt8.ofNat = bytes := by
    rw [List.map_map]
    exact (List.map_congr_left fun b _ => UInt8.ofNat_toNat).trans
      (List.map_id bytes)
  rw [decode, encode, hdigits, Option.map_some, hback, hbytes]

end AirNote.Lib.Base58
