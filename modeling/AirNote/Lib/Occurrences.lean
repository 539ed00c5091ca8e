import AirNote.Lib.Fence

/-!
# How often a text stands in another

`occurrences m text` counts the places of `text` at which `m` starts. Texts
that are put together keep their counts where no `m` can start in the first
and end in the second.

## Main results

* `occurrences_append` — the count of two texts, where no part of `m` that
  ends it starts the second.
* `occurrences_append_of_clear` — the count after a text that `m` neither
  starts in nor ends with.
* `occurrences_intercalate` — the count of lines joined by a separator that is
  not in `m`.
-/

namespace AirNote.Lib.Fence

variable {α : Type*} [DecidableEq α] {m : List α}

def occurrences (m text : List α) : Nat :=
  text.tails.countP fun v => decide (m <+: v)

theorem occurrences_nil (hm : m ≠ []) : occurrences m [] = 0 := by
  simp [occurrences, hm]

theorem occurrences_cons (m : List α) (c : α) (cs : List α) :
    occurrences m (c :: cs) =
      occurrences m cs + if m <+: c :: cs then 1 else 0 := by
  simp [occurrences, List.countP_cons]

theorem occurrences_eq_zero_iff {text : List α} :
    occurrences m text = 0 ↔ ¬ m <:+: text := by
  simp only [occurrences, List.countP_eq_zero, List.mem_tails,
    decide_eq_true_eq]
  rw [List.infix_iff_prefix_suffix]
  simp only [not_exists, not_and]
  constructor
  · intro h v hpre hsuf
    exact h v hsuf hpre
  · intro h v hsuf hpre
    exact h v hpre hsuf

/-- A text that `m` does not start in. -/
theorem occurrences_append_of_free {z : α} {m a b : List α} (h : z ∉ a) :
    occurrences (z :: m) (a ++ b) = occurrences (z :: m) b := by
  induction a with
  | nil => rfl
  | cons c a ih =>
      obtain ⟨hc, ha⟩ := not_or.mp (mt List.mem_cons.mpr h)
      have hno : ¬ z :: m <+: c :: (a ++ b) := fun hpre =>
        hc (List.cons_prefix_cons.mp hpre).1
      rw [List.cons_append, occurrences_cons, ih ha, if_neg hno, Nat.add_zero]

omit [DecidableEq α] in
theorem Clear.tail {a m : List α} {c : α} (h : Clear (c :: a) m) :
    Clear a m :=
  fun v hv => h v (by rw [List.tails_cons]; exact List.mem_cons_of_mem _ hv)

/-- A text that `m` neither starts in nor ends with. -/
theorem occurrences_append_of_clear {a m : List α} (h : Clear a m)
    (b : List α) : occurrences m (a ++ b) = occurrences m b := by
  induction a with
  | nil => rfl
  | cons c a ih =>
      have hno : ¬ m <+: c :: (a ++ b) := fun hpre => by
        obtain ⟨hapart, hmore⟩ :=
          h.apart List.suffix_rfl (List.cons_ne_nil c a)
        rcases List.prefix_or_prefix_of_prefix hpre
          (List.prefix_append (c :: a) b) with hin | hin
        · exact hmore hin
        · exact hapart hin
      rw [List.cons_append, occurrences_cons, ih h.tail, if_neg hno,
        Nat.add_zero]

/-- Many texts of that kind. -/
theorem occurrences_flatMap_of_clear {β : Type*} {m : List α}
    {f : β → List α} {parts : List β}
    (h : ∀ part ∈ parts, Clear (f part) m) (b : List α) :
    occurrences m (parts.flatMap f ++ b) = occurrences m b := by
  induction parts with
  | nil => rfl
  | cons part parts ih =>
      rw [List.flatMap_cons, List.append_assoc,
        occurrences_append_of_clear (h part List.mem_cons_self),
        ih fun p hp => h p (List.mem_cons_of_mem _ hp)]

/-- `m` itself, where none starts later in it. -/
theorem occurrences_self {z : α} {m sep : List α}
    (h : Clear (m ++ sep) (z :: m)) (b : List α) :
    occurrences (z :: m) (z :: m ++ sep ++ b) =
      1 + occurrences (z :: m) b := by
  have hself : z :: m <+: z :: (m ++ sep ++ b) := by
    rw [List.append_assoc]
    exact List.prefix_append (z :: m) _
  rw [List.cons_append, List.cons_append, occurrences_cons,
    occurrences_append_of_clear h, if_pos hself, Nat.add_comm]

/-- Where the second text cannot continue an `m` that the first begins. -/
theorem occurrences_append {a b : List α} (hm : m ≠ []) (h : Clear m b) :
    occurrences m (a ++ b) = occurrences m a + occurrences m b := by
  induction a with
  | nil => rw [List.nil_append, occurrences_nil hm, Nat.zero_add]
  | cons c a ih =>
      have hiff : m <+: c :: (a ++ b) ↔ m <+: c :: a := by
        rw [← List.cons_append]
        constructor
        · intro hpre
          rcases List.prefix_or_prefix_of_prefix hpre
              (List.prefix_append (c :: a) b) with hin | ⟨w, rfl⟩
          · exact hin
          · have hw : w <+: b := (List.prefix_append_right_inj (c :: a)).mp hpre
            by_cases hnil : w = []
            · rw [hnil, List.append_nil]
            · have hapart := h.apart (List.suffix_append (c :: a) w) hnil
              exact absurd hw hapart.1
        · intro hpre
          exact hpre.trans (List.prefix_append _ _)
      rw [List.cons_append, occurrences_cons, occurrences_cons, ih]
      simp only [hiff]
      omega

/-- Lines with a separator between them. -/
theorem occurrences_intercalate {z : α} (hm : m ≠ []) (hz : z ∉ m)
    (lines : List (List α)) :
    occurrences m ([z].intercalate lines) =
      (lines.map (occurrences m)).sum := by
  have hclear : ∀ rest, Clear m (z :: rest) := by
    intro rest v hv
    cases v with
    | nil => exact Or.inl rfl
    | cons c v =>
        have hc : c ≠ z := by
          rintro rfl
          exact hz (((List.mem_tails _ _).mp hv).subset List.mem_cons_self)
        refine Or.inr ⟨?_, ?_⟩
        · intro hpre
          exact hc (List.cons_prefix_cons.mp hpre).1
        · intro hpre
          exact hc (List.cons_prefix_cons.mp hpre).1.symm
  have hstart : ∀ rest, ¬ m <+: z :: rest := by
    intro rest hpre
    obtain ⟨c, m', rfl⟩ := List.exists_cons_of_ne_nil hm
    obtain ⟨rfl, -⟩ := List.cons_prefix_cons.mp hpre
    exact hz List.mem_cons_self
  induction lines with
  | nil => exact occurrences_nil hm
  | cons line rest ih =>
      cases rest with
      | nil => simp
      | cons next rest =>
          rw [List.intercalate_cons_cons, List.append_assoc,
            List.singleton_append, occurrences_append hm (hclear _),
            occurrences_cons, if_neg (hstart _), ih, List.map_cons,
            List.sum_cons]
          rfl

end AirNote.Lib.Fence
