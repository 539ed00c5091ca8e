import Mathlib.Data.List.Sort

/-!
# The first so many of a sorted list

An element is among the first `k` of a list that is sorted if at most `k`
elements, itself included, stand no later in the order. Every batch that is
taken from a sorted queue is one of this kind, so that a batch passes over an
element only where it is full of elements before it.

## Main results

* `mem_take_insertionSort` — which elements a batch takes.
* `mem_of_full_batch` — a batch that passes over an element has `k` elements
  before it.
* `rel_of_notMem_take`, `mem_take_of_rel` — the same for a list that is sorted
  already.
-/

namespace AirNote.Lib.Ranked

variable {α : Type*} {r : α → α → Prop} [DecidableRel r]

/-- The elements that stand no later than `x`. -/
def rank (r : α → α → Prop) [DecidableRel r] (xs : List α) (x : α) : Nat :=
  xs.countP fun y => decide (r y x)

theorem rank_cons (a : α) (xs : List α) (x : α) :
    rank r (a :: xs) x = rank r xs x + if r a x then 1 else 0 := by
  unfold rank
  rw [List.countP_cons]
  simp

theorem rank_perm {xs ys : List α} (h : xs.Perm ys) (x : α) :
    rank r xs x = rank r ys x := h.countP_eq _

/-- In a sorted list without repetitions the position of an element is its
rank. -/
theorem mem_take_of_sorted {xs : List α} {x : α} {k : Nat}
    (hrefl : ∀ y ∈ xs, r y y) (hsorted : xs.Pairwise r) (hnodup : xs.Nodup)
    (hanti : ∀ y ∈ xs, ∀ z ∈ xs, r y z → r z y → y = z) (hx : x ∈ xs) :
    x ∈ xs.take k ↔ rank r xs x ≤ k := by
  induction xs generalizing k with
  | nil => cases hx
  | cons a xs ih =>
      have hbefore : ∀ b ∈ xs, r a b :=
        fun b hb => List.rel_of_pairwise_cons hsorted hb
      have hnotin : a ∉ xs := (List.nodup_cons.mp hnodup).1
      rw [rank_cons]
      by_cases hxa : x = a
      · subst hxa
        have hnone : rank r xs x = 0 := by
          unfold rank
          rw [List.countP_eq_zero]
          intro b hb hbx
          have heq := hanti b (List.mem_cons_of_mem x hb) x
            List.mem_cons_self (of_decide_eq_true hbx) (hbefore b hb)
          exact hnotin (heq ▸ hb)
        rw [hnone, if_pos (hrefl x List.mem_cons_self)]
        cases k with
        | zero => simp
        | succ k => simp
      · have hmem : x ∈ xs := (List.mem_cons.mp hx).resolve_left hxa
        rw [if_pos (hbefore x hmem)]
        cases k with
        | zero => simp
        | succ k =>
            rw [List.take_succ_cons, List.mem_cons, or_iff_right hxa,
              ih (fun y hy => hrefl y (List.mem_cons_of_mem a hy))
                hsorted.of_cons (List.nodup_cons.mp hnodup).2
                (fun y hy z hz => hanti y (List.mem_cons_of_mem a hy) z
                  (List.mem_cons_of_mem a hz)) hmem]
            omega

/-- What the first so many of a sorted list pass over stands after them, and
they are as many as they can be. -/
theorem rel_of_notMem_take {α : Type*} {r : α → α → Prop} {xs : List α} {x : α}
    {k : Nat} (hsorted : xs.Pairwise r) (hx : x ∈ xs) (hover : x ∉ xs.take k) :
    (xs.take k).length = k ∧ ∀ y ∈ xs.take k, r y x := by
  rw [← List.take_append_drop k xs] at hsorted hx
  have hdrop := (List.mem_append.mp hx).resolve_left hover
  refine ⟨List.length_take_of_le ?_, fun y hy =>
    (List.pairwise_append.mp hsorted).2.2 y hy x hdrop⟩
  have hpos := List.length_pos_of_mem hdrop
  rw [List.length_drop] at hpos
  omega

/-- Before an element that the first so many take, they take all. -/
theorem mem_take_of_rel {α : Type*} {r : α → α → Prop} {xs : List α} {x y : α}
    {k : Nat} (hsorted : xs.Pairwise r) (hasymm : ¬ r x y)
    (hx : x ∈ xs.take k) (hy : y ∈ xs) : y ∈ xs.take k := by
  rw [← List.take_append_drop k xs] at hsorted hy
  refine (List.mem_append.mp hy).resolve_right fun hdrop => hasymm ?_
  exact (List.pairwise_append.mp hsorted).2.2 x hx y hdrop

/-- A predicate that holds of fewer elements is counted fewer times. -/
theorem countP_lt_of_exists {p q : α → Bool} {xs : List α}
    (himp : ∀ x ∈ xs, p x = true → q x = true)
    (hmore : ∃ x ∈ xs, q x = true ∧ p x = false) : xs.countP p < xs.countP q := by
  induction xs with
  | nil =>
      obtain ⟨x, hx, -⟩ := hmore
      cases hx
  | cons a xs ih =>
      have hrest : ∀ x ∈ xs, p x = true → q x = true := fun x hx =>
        himp x (List.mem_cons_of_mem a hx)
      have hle : xs.countP p ≤ xs.countP q := List.countP_mono_left hrest
      rw [List.countP_cons, List.countP_cons]
      obtain ⟨x, hx, hq, hp⟩ := hmore
      rcases List.mem_cons.mp hx with rfl | hin
      · rw [hp, hq]
        simp
        omega
      · have hlt := ih hrest ⟨x, hin, hq, hp⟩
        have hhead := himp a List.mem_cons_self
        cases hpa : p a with
        | true =>
            rw [hhead hpa]
            simp
            omega
        | false =>
            simp
            omega

variable [Std.Total r] [IsTrans α r]

/-- A batch takes the elements of rank at most its size. -/
theorem mem_take_insertionSort {xs : List α} {x : α} {k : Nat}
    (hnodup : xs.Nodup)
    (hanti : ∀ y ∈ xs, ∀ z ∈ xs, r y z → r z y → y = z) :
    x ∈ (xs.insertionSort r).take k ↔ x ∈ xs ∧ rank r xs x ≤ k := by
  have hperm := List.perm_insertionSort r xs
  have hmem : ∀ y, y ∈ xs.insertionSort r ↔ y ∈ xs := fun y => hperm.mem_iff
  constructor
  · intro h
    have hx : x ∈ xs.insertionSort r := List.mem_of_mem_take h
    refine ⟨(hmem x).mp hx, ?_⟩
    rw [← rank_perm hperm]
    refine (mem_take_of_sorted ?_ (List.pairwise_insertionSort r xs)
      (hperm.nodup_iff.mpr hnodup) ?_ hx).mp h
    · exact fun y _ => refl_of r y
    · intro y hy z hz
      exact hanti y ((hmem y).mp hy) z ((hmem z).mp hz)
  · rintro ⟨hx, hrank⟩
    rw [← rank_perm hperm] at hrank
    refine (mem_take_of_sorted ?_ (List.pairwise_insertionSort r xs)
      (hperm.nodup_iff.mpr hnodup) ?_ ((hmem x).mpr hx)).mpr hrank
    · exact fun y _ => refl_of r y
    · intro y hy z hz
      exact hanti y ((hmem y).mp hy) z ((hmem z).mp hz)

/-- A batch that passes over an element is full, and every element it takes is
before that one. -/
theorem mem_of_full_batch {xs : List α} {x : α} {k : Nat}
    (hnodup : xs.Nodup)
    (hanti : ∀ y ∈ xs, ∀ z ∈ xs, r y z → r z y → y = z) (hx : x ∈ xs)
    (hover : x ∉ (xs.insertionSort r).take k) :
    ((xs.insertionSort r).take k).length = k ∧
      ∀ y ∈ (xs.insertionSort r).take k, r y x := by
  have hperm := List.perm_insertionSort r xs
  have hrank : k < rank r xs x := by
    by_contra hle
    exact hover ((mem_take_insertionSort hnodup hanti).mpr ⟨hx, by omega⟩)
  have hlength : k ≤ xs.length :=
    Nat.le_of_lt (Nat.lt_of_lt_of_le hrank List.countP_le_length)
  refine ⟨?_, ?_⟩
  · rw [List.length_take, hperm.length_eq]
    omega
  · intro y hy
    have hdrop : x ∈ (xs.insertionSort r).drop k := by
      have hall : x ∈ xs.insertionSort r := hperm.mem_iff.mpr hx
      rw [← List.take_append_drop k (xs.insertionSort r)] at hall
      exact (List.mem_append.mp hall).resolve_left hover
    have hsorted := List.pairwise_insertionSort r xs
    rw [← List.take_append_drop k (xs.insertionSort r),
      List.pairwise_append] at hsorted
    exact hsorted.2.2 y hy x hdrop

end AirNote.Lib.Ranked
