import Mathlib.Data.List.Induction
import Mathlib.Data.List.Nodup
import Mathlib.Tactic.Common

/-!
# The first of every key

Streams that tell of the same things are merged by a key: of what comes under
one key the first is kept, so that a stream put before another prevails where
they clash.

## Main results

* `nodup_firsts` — no key twice.
* `exists_mem_firsts` — no key is left out.
-/

namespace AirNote.Lib.Firsts

variable {α κ : Type*} [DecidableEq κ] {key : α → κ}

/-- A list without the elements whose key an earlier one has. -/
def firsts (key : α → κ) (xs : List α) : List α :=
  xs.foldl (fun seen x => if key x ∈ seen.map key then seen else seen ++ [x]) []

/-- One more element is kept if its key is new. -/
theorem firsts_concat (xs : List α) (x : α) :
    firsts key (xs ++ [x]) =
      if key x ∈ (firsts key xs).map key then firsts key xs
      else firsts key xs ++ [x] := by
  rw [firsts, List.foldl_append]
  rfl

theorem nodup_firsts (xs : List α) : ((firsts key xs).map key).Nodup := by
  induction xs using List.reverseRecOn with
  | nil => exact List.nodup_nil
  | append_singleton xs x ih =>
      rw [firsts_concat]
      split
      · exact ih
      · next hnew =>
          rw [List.map_append, List.map_singleton]
          refine ih.append (List.nodup_singleton _) fun k hk hx => hnew ?_
          rw [← List.mem_singleton.mp hx]
          exact hk

theorem mem_of_mem_firsts {xs : List α} {x : α} (h : x ∈ firsts key xs) :
    x ∈ xs := by
  induction xs using List.reverseRecOn with
  | nil => cases h
  | append_singleton xs y ih =>
      rw [firsts_concat] at h
      split at h
      · exact List.mem_append_left [y] (ih h)
      · rcases List.mem_append.mp h with h | h
        · exact List.mem_append_left [y] (ih h)
        · exact List.mem_append_right xs h

/-- Every key is kept, with the first that has it. -/
theorem exists_mem_firsts {xs : List α} {x : α} (h : x ∈ xs) :
    ∃ y ∈ firsts key xs, key y = key x := by
  induction xs using List.reverseRecOn with
  | nil => cases h
  | append_singleton xs z ih =>
      rw [firsts_concat]
      split
      · next hold =>
          rcases List.mem_append.mp h with h | h
          · exact ih h
          · rw [List.mem_singleton.mp h]
            exact List.mem_map.mp hold
      · rcases List.mem_append.mp h with h | h
        · obtain ⟨y, hy, hkey⟩ := ih h
          exact ⟨y, List.mem_append_left [z] hy, hkey⟩
        · exact ⟨z, List.mem_append_right _ (List.mem_singleton_self z),
            by rw [List.mem_singleton.mp h]⟩

theorem mem_map_firsts {xs : List α} {k : κ} :
    k ∈ (firsts key xs).map key ↔ k ∈ xs.map key := by
  simp only [List.mem_map]
  constructor
  · rintro ⟨x, hx, rfl⟩
    exact ⟨x, mem_of_mem_firsts hx, rfl⟩
  · rintro ⟨x, hx, rfl⟩
    exact exists_mem_firsts hx

/-- As many of the kept have a key of a list as the list is long, where each
of its keys is there. -/
theorem countP_firsts {xs : List α} {keys : List κ} (hnodup : keys.Nodup)
    (hsub : ∀ k ∈ keys, k ∈ xs.map key) :
    (firsts key xs).countP (fun x => decide (key x ∈ keys)) = keys.length := by
  have hfilter : (((firsts key xs).map key).filter
      fun k => decide (k ∈ keys)).Perm keys := by
    refine (List.perm_ext_iff_of_nodup ((nodup_firsts xs).filter _)
      hnodup).mpr fun k => ?_
    rw [List.mem_filter, decide_eq_true_eq, mem_map_firsts]
    exact ⟨fun h => h.2, fun h => ⟨hsub k h, h⟩⟩
  rw [← hfilter.length_eq, ← List.countP_eq_length_filter, List.countP_map]
  rfl

end AirNote.Lib.Firsts
