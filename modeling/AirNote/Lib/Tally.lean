import Mathlib.Data.List.Basic
import Mathlib.Data.List.Nodup
import Mathlib.Data.List.Perm.Basic
import Mathlib.Tactic.Common

/-!
# A map that accumulates

Items come one after another, each with a key and an amount, and a map holds
for every key what its amounts add up to. The addition need be neither
associative nor commutative, so what counts for a key is the sequence of its
amounts; the order in which the keys first come decides nothing but the order
in which the map lists them.

## Main results

* `lookup_tally` — a key holds its amounts, added in their order.
* `nodup_keys_tally`, `mem_keys_tally` — every key that came is listed once.
* `tally_perm` — two sequences of items that give each key the same amounts
  make rearrangements of one map.
-/

namespace AirNote.Lib.Tally

variable {κ ω : Type*} [DecidableEq κ]

/-- Add to what a key holds, from `zero` where it holds nothing. -/
def bump (add : ω → ω → ω) (zero : ω) (k : κ) (c : ω) :
    List (κ × ω) → List (κ × ω)
  | [] => [(k, add zero c)]
  | (k', w) :: rest =>
      if k' = k then (k', add w c) :: rest
      else (k', w) :: bump add zero k c rest

/-- Add a sequence of items. -/
def tally (add : ω → ω → ω) (zero : ω) (items : List (κ × ω))
    (m : List (κ × ω)) : List (κ × ω) :=
  items.foldl (fun m item => bump add zero item.1 item.2 m) m

/-- The amounts of a key. -/
def amounts (k : κ) (items : List (κ × ω)) : List ω :=
  (items.filter fun item => item.1 = k).map Prod.snd

variable {add : ω → ω → ω} {zero : ω}

theorem lookup_bump (k k' : κ) (c : ω) (m : List (κ × ω)) :
    (bump add zero k c m).lookup k' =
      if k' = k then some (add ((m.lookup k).getD zero) c)
      else m.lookup k' := by
  induction m with
  | nil =>
      by_cases h : k' = k
      · simp [bump, h]
      · simp [bump, h, List.lookup_cons, beq_false_of_ne h]
  | cons item rest ih =>
      obtain ⟨l, w⟩ := item
      by_cases hl : l = k
      · subst hl
        by_cases h : k' = l
        · simp [bump, h]
        · simp [bump, h, List.lookup_cons, beq_false_of_ne h]
      · have hlk : (k == l) = false := beq_false_of_ne (Ne.symm hl)
        rw [bump, if_neg hl, List.lookup_cons, ih, List.lookup_cons,
          List.lookup_cons, hlk]
        by_cases h : k' = k
        · subst h
          simp [hlk]
        · simp [h]

/-- A key holds its amounts, added in their order. -/
theorem lookup_tally (k : κ) (items m : List (κ × ω)) :
    (tally add zero items m).lookup k =
      (amounts k items).foldl (fun acc c => some (add (acc.getD zero) c))
        (m.lookup k) := by
  induction items generalizing m with
  | nil => rfl
  | cons item rest ih =>
      have hstep : tally add zero (item :: rest) m =
          tally add zero rest (bump add zero item.1 item.2 m) := rfl
      rw [hstep, ih, lookup_bump]
      by_cases h : item.1 = k
      · simp [amounts, h]
      · simp [amounts, h, Ne.symm h]

theorem keys_bump (k : κ) (c : ω) (m : List (κ × ω)) :
    (bump add zero k c m).map Prod.fst =
      if k ∈ m.map Prod.fst then m.map Prod.fst
      else m.map Prod.fst ++ [k] := by
  induction m with
  | nil => simp [bump]
  | cons item rest ih =>
      obtain ⟨l, w⟩ := item
      by_cases hl : l = k
      · simp [bump, hl]
      · rw [bump, if_neg hl, List.map_cons, ih, List.map_cons]
        simp only [List.mem_cons, Ne.symm hl, false_or]
        split <;> rfl

theorem mem_keys_tally (k : κ) (items m : List (κ × ω)) :
    k ∈ (tally add zero items m).map Prod.fst ↔
      k ∈ m.map Prod.fst ∨ k ∈ items.map Prod.fst := by
  induction items generalizing m with
  | nil => simp [tally]
  | cons item rest ih =>
      have hstep : tally add zero (item :: rest) m =
          tally add zero rest (bump add zero item.1 item.2 m) := rfl
      have hbump : k ∈ (bump add zero item.1 item.2 m).map Prod.fst ↔
          k ∈ m.map Prod.fst ∨ k = item.1 := by
        rw [keys_bump]
        split
        next hmem =>
          constructor
          · exact Or.inl
          · rintro (h | rfl)
            · exact h
            · exact hmem
        · rw [List.mem_append, List.mem_singleton]
      rw [hstep, ih, hbump, List.map_cons, List.mem_cons, or_assoc]

theorem nodup_keys_tally {items m : List (κ × ω)}
    (h : (m.map Prod.fst).Nodup) :
    ((tally add zero items m).map Prod.fst).Nodup := by
  induction items generalizing m with
  | nil => exact h
  | cons item rest ih =>
      apply ih
      rw [keys_bump]
      split
      · exact h
      next hnew =>
        exact List.nodup_append.mpr ⟨h, List.nodup_singleton _, fun a ha b hb =>
          fun heq => hnew (List.mem_singleton.mp hb ▸ heq ▸ ha)⟩

/-- Where every key is listed once, a pair is listed iff it is found. -/
theorem mem_iff_lookup {m : List (κ × ω)} (h : (m.map Prod.fst).Nodup)
    {k : κ} {w : ω} : (k, w) ∈ m ↔ m.lookup k = some w := by
  induction m with
  | nil => simp
  | cons item rest ih =>
      obtain ⟨l, v⟩ := item
      obtain ⟨hnew, hrest⟩ := List.nodup_cons.mp h
      rw [List.mem_cons, List.lookup_cons, ih hrest]
      by_cases hkl : k = l
      · subst hkl
        have hnone : (k, w) ∉ rest := fun hw =>
          hnew (List.mem_map.mpr ⟨(k, w), hw, rfl⟩)
        rw [ih hrest] at hnone
        simp [hnone, eq_comm]
      · simp [hkl, beq_false_of_ne hkl]

/-- Two sequences of items that give each key the same amounts make
rearrangements of one map. -/
theorem tally_perm {items items' : List (κ × ω)}
    (h : ∀ k, amounts k items = amounts k items') :
    (tally add zero items []).Perm (tally add zero items' []) := by
  have hnodup : ∀ items : List (κ × ω),
      ((tally add zero items []).map Prod.fst).Nodup :=
    fun items => nodup_keys_tally List.nodup_nil
  refine (List.perm_ext_iff_of_nodup (hnodup items).of_map
    (hnodup items').of_map).mpr ?_
  rintro ⟨k, w⟩
  rw [mem_iff_lookup (hnodup items), mem_iff_lookup (hnodup items'),
    lookup_tally, lookup_tally, h k]

end AirNote.Lib.Tally
