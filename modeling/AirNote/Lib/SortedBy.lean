import Mathlib.Data.List.Sort

/-!
# Sorting elements of a set that a relation orders

A comparator need not order everything it can be asked about; here it orders
the elements of a set, and the lists that are sorted draw their elements from
it. What is read off such a sorted list — the last element with a property,
the order of first occurrences — depends on which elements the list has and
neither on their order before the sort nor on their repetitions.

## Main results

* `getLast?_congr` — the last element of a sorted list.
* `eraseDups_congr` — its elements, without repetitions.
* `insertionSort_congr` — the sorts of two rearrangements.
-/

namespace AirNote.Lib.SortedBy

variable {α β : Type*} {r : α → α → Prop}

/-- The relation orders the elements of the set. -/
structure Orders (r : α → α → Prop) (S : Set α) : Prop where
  total : ∀ a ∈ S, ∀ b ∈ S, r a b ∨ r b a
  trans : ∀ a ∈ S, ∀ b ∈ S, ∀ c ∈ S, r a b → r b c → r a c
  antisymm : ∀ a ∈ S, ∀ b ∈ S, r a b → r b a → a = b

theorem Orders.refl {S : Set α} (h : Orders r S) {a : α} (ha : a ∈ S) :
    r a a := (h.total a ha a ha).elim id id

/-- A comparison through a function. -/
theorem transCmp_comap {cmp : β → β → Ordering} (hcmp : Std.TransCmp cmp)
    (f : α → β) : Std.TransCmp fun a b => cmp (f a) (f b) where
  eq_swap := hcmp.eq_swap
  isLE_trans := hcmp.isLE_trans

/-- A comparison orders the elements that it tells apart. -/
theorem orders_of_cmp {cmp : α → α → Ordering} (hcmp : Std.TransCmp cmp)
    {S : Set α} (hapart : ∀ a ∈ S, ∀ b ∈ S, cmp a b = .eq → a = b) :
    Orders (fun a b => cmp a b ≠ .gt) S where
  total := by
    intro a _ b _
    rw [Ne, Ne, Ordering.ne_gt_iff_isLE, Ordering.ne_gt_iff_isLE]
    by_cases hab : (cmp a b).isLE
    · exact Or.inl hab
    · have hlt := Std.OrientedCmp.lt_of_not_isLE hab
      rw [hlt]
      exact Or.inr rfl
  trans := by
    intro a _ b _ c _ hab hbc
    rw [Ne, Ordering.ne_gt_iff_isLE] at hab hbc ⊢
    exact hcmp.isLE_trans hab hbc
  antisymm := by
    intro a ha b hb hab hba
    rw [Ne, Ordering.ne_gt_iff_isLE] at hab hba
    exact hapart a ha b hb (Std.OrientedCmp.isLE_antisymm hab hba)

/-- Two relations that agree on the set order it alike. -/
theorem Orders.congr {r' : α → α → Prop} {S : Set α} (h : Orders r S)
    (hagree : ∀ a ∈ S, ∀ b ∈ S, r' a b ↔ r a b) : Orders r' S where
  total := by
    intro a ha b hb
    rw [hagree a ha b hb, hagree b hb a ha]
    exact h.total a ha b hb
  trans := by
    intro a ha b hb c hc
    rw [hagree a ha b hb, hagree b hb c hc, hagree a ha c hc]
    exact h.trans a ha b hb c hc
  antisymm := by
    intro a ha b hb
    rw [hagree a ha b hb, hagree b hb a ha]
    exact h.antisymm a ha b hb

section Sorting

variable [DecidableRel r]

/-- A sort of elements of the set is sorted. -/
theorem pairwise_sort {S : Set α} (h : Orders r S) {l : List α}
    (hl : ∀ a ∈ l, a ∈ S) : (l.insertionSort r).Pairwise r := by
  let r' : S → S → Prop := fun a b => r a.1 b.1
  have htotal : Std.Total r' :=
    ⟨fun a b => h.total a.1 a.2 b.1 b.2⟩
  have htrans : IsTrans S r' :=
    ⟨fun a b c => h.trans a.1 a.2 b.1 b.2 c.1 c.2⟩
  have hmap : l.insertionSort r =
      ((l.attachWith (· ∈ S) hl).insertionSort r').map Subtype.val := by
    rw [List.map_insertionSort r' r Subtype.val _ fun a _ b _ => Iff.rfl,
      List.attachWith_map_subtype_val]
  rw [hmap, List.pairwise_map]
  exact List.pairwise_insertionSort r' (l.attachWith (· ∈ S) hl)

/-- Two rearrangements of each other have one sort. -/
theorem insertionSort_congr {S : Set α} (h : Orders r S) {l l' : List α}
    (hl : ∀ a ∈ l, a ∈ S) (hperm : l.Perm l') :
    l.insertionSort r = l'.insertionSort r := by
  have hl' : ∀ a ∈ l', a ∈ S := fun a ha => hl a (hperm.mem_iff.mpr ha)
  apply List.Perm.eq_of_pairwise ?_ (pairwise_sort h hl) (pairwise_sort h hl')
  · exact (List.perm_insertionSort r l).trans
      (hperm.trans (List.perm_insertionSort r l').symm)
  · intro a b ha hb hab hba
    rw [List.mem_insertionSort] at ha hb
    exact h.antisymm a (hl a ha) b (hl' b hb) hab hba

end Sorting

/-! ## The last element -/

/-- The last element of a sorted list is above every element. -/
theorem rel_getLast? {l : List α} (hrefl : ∀ a ∈ l, r a a)
    (hsorted : l.Pairwise r) {x : α} (hx : l.getLast? = some x) :
    ∀ y ∈ l, r y x := by
  induction l with
  | nil => cases hx
  | cons a l ih =>
      intro y hy
      cases l with
      | nil =>
          simp only [List.getLast?_singleton, Option.some.injEq] at hx
          rw [List.mem_singleton] at hy
          rw [hy, ← hx]
          exact hrefl a List.mem_cons_self
      | cons b l =>
          rw [List.getLast?_cons_cons] at hx
          have hmem : x ∈ b :: l := List.mem_of_getLast? hx
          rcases List.mem_cons.mp hy with rfl | hy
          · exact List.rel_of_pairwise_cons hsorted hmem
          · exact ih (fun c hc => hrefl c (List.mem_cons_of_mem a hc))
              hsorted.of_cons hx y hy

/-- Sorted lists with the same elements end with the same one. -/
theorem getLast?_congr {S : Set α} (h : Orders r S) {l l' : List α}
    (hl : ∀ a ∈ l, a ∈ S) (hsorted : l.Pairwise r)
    (hsorted' : l'.Pairwise r) (hmem : ∀ a, a ∈ l ↔ a ∈ l') :
    l.getLast? = l'.getLast? := by
  have hl' : ∀ a ∈ l', a ∈ S := fun a ha => hl a ((hmem a).mpr ha)
  cases hx : l.getLast? with
  | none =>
      rw [List.getLast?_eq_none_iff] at hx
      subst hx
      have hnone : l' = [] := List.eq_nil_iff_forall_not_mem.mpr
        fun a ha => by simpa using (hmem a).mpr ha
      rw [hnone]
      rfl
  | some x =>
      have hxl : x ∈ l := List.mem_of_getLast? hx
      cases hx' : l'.getLast? with
      | none =>
          rw [List.getLast?_eq_none_iff] at hx'
          subst hx'
          simpa using (hmem x).mp hxl
      | some x' =>
          have hxl' : x' ∈ l' := List.mem_of_getLast? hx'
          have hbelow : r x' x := rel_getLast?
            (fun a ha => h.refl (hl a ha)) hsorted hx x' ((hmem x').mpr hxl')
          have habove : r x x' := rel_getLast?
            (fun a ha => h.refl (hl' a ha)) hsorted' hx' x ((hmem x).mp hxl)
          rw [h.antisymm x (hl x hxl) x' (hl' x' hxl') habove hbelow]

/-! ## Without repetitions -/

section Dups

variable [BEq α] [LawfulBEq α] [BEq β] [LawfulBEq β]

omit [LawfulBEq α] in
/-- The induction that follows `eraseDups`. -/
theorem eraseDups_induction {motive : List α → Prop} (nil : motive [])
    (cons : ∀ a l, motive (l.filter fun b => !b == a) → motive (a :: l)) :
    ∀ l, motive l
  | [] => nil
  | a :: l => cons a l (eraseDups_induction nil cons _)
termination_by l => l.length
decreasing_by
  exact Nat.lt_succ_of_le (List.length_filter_le _ l)

theorem nodup_eraseDups (l : List α) : l.eraseDups.Nodup := by
  induction l using eraseDups_induction with
  | nil => simp
  | cons a l ih =>
      rw [List.eraseDups_cons, List.nodup_cons]
      constructor
      · rw [List.mem_eraseDups, List.mem_filter]
        simp
      · exact ih

theorem pairwise_eraseDups {l : List α} (hsorted : l.Pairwise r) :
    l.eraseDups.Pairwise r := by
  induction l using eraseDups_induction with
  | nil => simp
  | cons a l ih =>
      rw [List.eraseDups_cons, List.pairwise_cons]
      constructor
      · intro b hb
        rw [List.mem_eraseDups] at hb
        exact List.rel_of_pairwise_cons hsorted (List.mem_of_mem_filter hb)
      · exact ih (hsorted.of_cons.filter _)

/-- Sorted lists with the same elements are the same without repetitions. -/
theorem eraseDups_congr {S : Set α} (h : Orders r S) {l l' : List α}
    (hl : ∀ a ∈ l, a ∈ S) (hsorted : l.Pairwise r)
    (hsorted' : l'.Pairwise r) (hmem : ∀ a, a ∈ l ↔ a ∈ l') :
    l.eraseDups = l'.eraseDups := by
  apply List.Perm.eq_of_pairwise ?_ (pairwise_eraseDups hsorted)
    (pairwise_eraseDups hsorted')
  · rw [List.perm_ext_iff_of_nodup (nodup_eraseDups l) (nodup_eraseDups l')]
    intro a
    rw [List.mem_eraseDups, List.mem_eraseDups]
    exact hmem a
  · intro a b ha hb hab hba
    rw [List.mem_eraseDups] at ha hb
    exact h.antisymm a (hl a ha) b (hl b ((hmem b).mpr hb)) hab hba

theorem eraseDups_filter (p : α → Bool) (l : List α) :
    (l.filter p).eraseDups = l.eraseDups.filter p := by
  induction l using eraseDups_induction with
  | nil => simp
  | cons a l ih =>
      rw [List.eraseDups_cons, List.filter_cons, List.filter_cons, ← ih,
        List.filter_filter]
      split
      · rw [List.eraseDups_cons, List.filter_filter]
        simp only [Bool.and_comm]
      · rename_i hp
        congr 1
        apply List.filter_congr
        intro b _
        by_cases hba : b = a
        · subst hba
          simp [hp]
        · simp [hba]

/-- The first occurrences of the images are those of the images of the first
occurrences. -/
theorem eraseDups_map_eraseDups (f : α → β) (l : List α) :
    (l.eraseDups.map f).eraseDups = (l.map f).eraseDups := by
  induction l using eraseDups_induction with
  | nil => simp
  | cons a l ih =>
      rw [List.eraseDups_cons, List.map_cons, List.map_cons,
        List.eraseDups_cons, List.eraseDups_cons, eraseDups_filter, ih,
        ← eraseDups_filter, List.filter_map, List.filter_map,
        List.filter_filter]
      congr 3
      apply List.filter_congr
      intro b _
      by_cases hba : b = a
      · subst hba
        simp
      · simp [hba]

end Dups

end AirNote.Lib.SortedBy
