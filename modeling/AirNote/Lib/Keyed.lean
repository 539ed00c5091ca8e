import Mathlib.Algebra.Order.Ring.Int
import Mathlib.Data.List.Nodup
import Mathlib.Tactic.Common

/-!
# Tables with a key

A table is a list of rows, no two under one key. A statement rewrites the row
under a key and leaves the others as they are.

## Main results

* `mem_update` — the rows after a rewrite.
* `sum_update` — what a rewrite adds to a sum over the rows.
-/

namespace AirNote.Lib.Keyed

variable {α κ : Type*} [DecidableEq κ] {key : α → κ}

/-- The rows, the one under the key rewritten. -/
def update (key : α → κ) (k : κ) (f : α → α) (rows : List α) : List α :=
  rows.map fun row => if key row = k then f row else row

theorem update_id (k : κ) (rows : List α) : update key k id rows = rows := by
  simp [update]

theorem map_key_update {f : α → α} (hf : ∀ row, key (f row) = key row) (k : κ)
    (rows : List α) : (update key k f rows).map key = rows.map key := by
  rw [update, List.map_map]
  refine List.map_congr_left fun row _ => ?_
  by_cases h : key row = k
  · simp [h, hf]
  · simp [h]

/-- Two rewrites under one key. -/
theorem update_update {f g : α → α} (hf : ∀ row, key (f row) = key row) (k : κ)
    (rows : List α) :
    update key k g (update key k f rows) =
      update key k (fun row => g (f row)) rows := by
  rw [update, update, List.map_map]
  refine List.map_congr_left fun row _ => ?_
  by_cases h : key row = k
  · simp [h, hf]
  · simp [h]

/-- Under a key the search finds the one row. -/
theorem find?_key {rows : List α} (hkeys : (rows.map key).Nodup) {row : α}
    (hrow : row ∈ rows) :
    rows.find? (fun r => decide (key r = key row)) = some row := by
  cases hfind : rows.find? fun r => decide (key r = key row) with
  | none => simpa using List.find?_eq_none.mp hfind row hrow
  | some r =>
      have hkey : key r = key row := by simpa using List.find?_some hfind
      rw [List.inj_on_of_nodup_map hkeys (List.mem_of_find?_eq_some hfind)
        hrow hkey]

/-- After a rewrite the table has the new row and the rows under the other
keys. -/
theorem mem_update {rows : List α} (hkeys : (rows.map key).Nodup) {row : α}
    (hrow : row ∈ rows) {f : α → α} {r : α} :
    r ∈ update key (key row) f rows ↔
      r = f row ∨ r ∈ rows ∧ key r ≠ key row := by
  rw [update, List.mem_map]
  constructor
  · rintro ⟨old, hold, rfl⟩
    by_cases h : key old = key row
    · rw [if_pos h, List.inj_on_of_nodup_map hkeys hold hrow h]
      exact Or.inl rfl
    · rw [if_neg h]
      exact Or.inr ⟨hold, h⟩
  · rintro (rfl | ⟨hr, hne⟩)
    · exact ⟨row, hrow, if_pos rfl⟩
    · exact ⟨r, hr, if_neg hne⟩

/-- Where no row is under the key a rewrite does nothing. -/
theorem update_of_forall_ne {rows : List α} {k : κ} (f : α → α)
    (h : ∀ row ∈ rows, key row ≠ k) : update key k f rows = rows := by
  rw [update]
  conv_rhs => rw [← List.map_id rows]
  exact List.map_congr_left fun row hrow => if_neg (h row hrow)

/-- A rewrite replaces the share of one row in a sum over the rows. -/
theorem sum_update (weight : α → Nat) {rows : List α}
    (hkeys : (rows.map key).Nodup) {row : α} (hrow : row ∈ rows) (f : α → α) :
    ((update key (key row) f rows).map weight).sum + weight row =
      (rows.map weight).sum + weight (f row) := by
  induction rows with
  | nil => cases hrow
  | cons head tail ih =>
      obtain ⟨hhead, htail⟩ := List.nodup_cons.mp hkeys
      rcases List.mem_cons.mp hrow with rfl | hmem
      · have hrest : update key (key row) f tail = tail :=
          update_of_forall_ne f fun r hr heq =>
            hhead (heq ▸ List.mem_map_of_mem hr)
        have hcons : update key (key row) f (row :: tail) = f row :: tail := by
          conv_rhs => rw [← hrest]
          simp [update]
        rw [hcons, List.map_cons, List.map_cons, List.sum_cons, List.sum_cons]
        omega
      · have hne : key head ≠ key row := fun heq =>
          hhead (heq ▸ List.mem_map_of_mem hmem)
        have hcons : update key (key row) f (head :: tail) =
            head :: update key (key row) f tail := by
          simp [update, hne]
        have hsum := ih htail hmem
        rw [hcons, List.map_cons, List.map_cons, List.sum_cons, List.sum_cons]
        omega

end AirNote.Lib.Keyed
