import Mathlib.Algebra.Order.Ring.Int
import Mathlib.Data.List.Induction
import Mathlib.Tactic.Common

/-!
# Lines that arrive in pieces

A list cut at a separator, and the same list arriving in pieces. A line that
arrived is kept as the pieces saw it: what came of it with the separator
before it, the pieces that lie inside it whole, and what came with its own
separator. Joined again, the lines that arrived are the lines of the list,
however it was cut into pieces.

## Main results

* `cut_append` — cutting two lists one after the other.
* `arrive_text` — the lines that arrived are the lines of the joined pieces.
-/

namespace AirNote.Lib.Lines

variable {α β : Type*} [DecidableEq α]

/-- The lines of a list, and what stands after its last separator. -/
def cut (sep : α) : List α → List (List α) × List α
  | [] => ([], [])
  | a :: rest =>
      let r := cut sep rest
      if a = sep then ([] :: r.1, r.2)
      else match r.1 with
        | [] => ([], a :: r.2)
        | line :: lines => ((a :: line) :: lines, r.2)

/-- The first of some lines continues what stood before it. -/
def join (tail : List α) (r : List (List α) × List α) :
    List (List α) × List α :=
  match r.1 with
  | [] => ([], tail ++ r.2)
  | line :: lines => ((tail ++ line) :: lines, r.2)

omit [DecidableEq α] in
@[simp] theorem join_nil (r : List (List α) × List α) : join [] r = r := by
  obtain ⟨lines, tail⟩ := r
  cases lines with
  | nil => rfl
  | cons line lines => rfl

theorem cut_cons_sep (sep : α) (rest : List α) :
    cut sep (sep :: rest) = ([] :: (cut sep rest).1, (cut sep rest).2) := by
  rw [cut, if_pos rfl]

theorem cut_cons_ne {sep a : α} (h : a ≠ sep) (rest : List α) :
    cut sep (a :: rest) = join [a] (cut sep rest) := by
  rw [cut, if_neg h]
  rfl

theorem cut_of_not_mem {sep : α} {l : List α} (h : sep ∉ l) :
    cut sep l = ([], l) := by
  induction l with
  | nil => rfl
  | cons a rest ih =>
      rw [List.mem_cons, not_or] at h
      rw [cut_cons_ne (fun heq => h.1 heq.symm), ih h.2]
      rfl

omit [DecidableEq α] in
theorem join_join (a b : List α) (r : List (List α) × List α) :
    join a (join b r) = join (a ++ b) r := by
  obtain ⟨lines, tail⟩ := r
  cases lines with
  | nil => simp [join]
  | cons line lines => simp [join]

/-- What follows continues the open line. -/
theorem cut_append (sep : α) (l l' : List α) :
    cut sep (l ++ l') =
      ((cut sep l).1 ++ (join (cut sep l).2 (cut sep l')).1,
        (join (cut sep l).2 (cut sep l')).2) := by
  induction l with
  | nil => simp [cut]
  | cons a rest ih =>
      by_cases h : a = sep
      · subst h
        rw [List.cons_append, cut_cons_sep, cut_cons_sep, ih]
        rfl
      · rw [List.cons_append, cut_cons_ne h, cut_cons_ne h, ih]
        obtain ⟨lines, tail⟩ := cut sep rest
        cases lines with
        | nil =>
            show join [a] (([] : List (List α)) ++ _, _) = _
            rw [List.nil_append]
            show join [a] (join tail (cut sep l')) = _
            rw [join_join]
            rfl
        | cons line lines => rfl

/-- A line before its separator. -/
theorem cut_line {sep : α} {line : List α} (h : sep ∉ line)
    (rest : List α) :
    cut sep (line ++ sep :: rest) =
      (line :: (cut sep rest).1, (cut sep rest).2) := by
  rw [cut_append, cut_of_not_mem h, cut_cons_sep]
  simp [join]

/-- Lines that each end with their separator. -/
theorem cut_flatMap {sep : α} {lines : List (List α)}
    (h : ∀ line ∈ lines, sep ∉ line) :
    cut sep (lines.flatMap fun line => line ++ [sep]) = (lines, []) := by
  induction lines with
  | nil => rfl
  | cons line lines ih =>
      rw [List.flatMap_cons, List.append_assoc, List.singleton_append,
        cut_line (h line List.mem_cons_self),
        ih fun l hl => h l (List.mem_cons_of_mem _ hl)]

/-- Two texts of such lines are the same only where the lines are. -/
theorem flatMap_lines_inj {sep : α} {lines lines' : List (List α)}
    (h : ∀ line ∈ lines, sep ∉ line) (h' : ∀ line ∈ lines', sep ∉ line)
    (heq : (lines.flatMap fun line => line ++ [sep]) =
      lines'.flatMap fun line => line ++ [sep]) : lines = lines' := by
  have hcut := cut_flatMap h
  rw [heq, cut_flatMap h'] at hcut
  exact (Prod.mk.inj hcut).1.symm

theorem sep_not_mem_cut (sep : α) (l : List α) :
    (∀ line ∈ (cut sep l).1, sep ∉ line) ∧ sep ∉ (cut sep l).2 := by
  induction l with
  | nil => exact ⟨fun _ h => (by cases h), List.not_mem_nil⟩
  | cons a rest ih =>
      by_cases h : a = sep
      · subst h
        rw [cut_cons_sep]
        refine ⟨fun line hline => ?_, ih.2⟩
        rcases List.mem_cons.mp hline with rfl | hrest
        · exact List.not_mem_nil
        · exact ih.1 line hrest
      · have hne : ¬ sep = a := fun heq => h heq.symm
        rw [cut_cons_ne h]
        generalize cut sep rest = r at ih
        obtain ⟨lines, tail⟩ := r
        cases lines with
        | nil =>
            refine ⟨fun _ hline => (by cases hline), ?_⟩
            simpa [join, hne] using ih.2
        | cons line lines =>
            refine ⟨fun line' hline => ?_, ih.2⟩
            rcases List.mem_cons.mp hline with rfl | hrest
            · simpa [hne] using ih.1 line List.mem_cons_self
            · exact ih.1 line' (List.mem_cons_of_mem line hrest)

/-- Without a line there is no separator. -/
theorem cut_eq_nil {sep : α} {l : List α} (h : (cut sep l).1 = []) :
    (cut sep l).2 = l ∧ sep ∉ l := by
  by_cases hmem : sep ∈ l
  · obtain ⟨line, rest, rfl, hline⟩ := List.eq_append_cons_of_mem hmem
    rw [cut_line hline] at h
    cases h
  · rw [cut_of_not_mem hmem]
    exact ⟨rfl, hmem⟩

theorem sep_mem_of_cut {sep : α} {l line : List α} {lines : List (List α)}
    (h : (cut sep l).1 = line :: lines) : sep ∈ l := by
  by_cases hmem : sep ∈ l
  · exact hmem
  · rw [cut_of_not_mem hmem] at h
    cases h

/-! ## Pieces -/

/-- A line that arrived. -/
structure Arrived (α : Type*) where
  first : List α
  inside : List (List α)
  last : List α

/-- The line that is arriving. -/
structure Arriving (α : Type*) where
  first : List α
  inside : List (List α)

/-- The line, joined. -/
def Arrived.text {α : Type*} (l : Arrived α) : List α :=
  l.first ++ l.inside.flatten ++ l.last

/-- What is there of the line, joined. -/
def Arriving.text {α : Type*} (o : Arriving α) : List α :=
  o.first ++ o.inside.flatten

/-- The line with its pieces rewritten. -/
def Arrived.map {α β : Type*} (f : List α → List β) (l : Arrived α) :
    Arrived β :=
  ⟨f l.first, l.inside.map f, f l.last⟩

/-- The open line with its pieces rewritten. -/
def Arriving.map {α β : Type*} (f : List α → List β) (o : Arriving α) :
    Arriving β :=
  ⟨f o.first, o.inside.map f⟩

/-- One more piece: it lies inside the open line, or it ends it. -/
def Arriving.next (sep : α) (o : Arriving α) (piece : List α) :
    List (Arrived α) × Arriving α :=
  match cut sep piece with
  | ([], tail) => ([], ⟨o.first, o.inside ++ [tail]⟩)
  | (line :: lines, tail) =>
      (⟨o.first, o.inside, line⟩ :: lines.map fun l => ⟨l, [], []⟩,
        ⟨tail, []⟩)

theorem next_inside {sep : α} {piece : List α} (h : sep ∉ piece)
    (o : Arriving α) :
    o.next sep piece = ([], ⟨o.first, o.inside ++ [piece]⟩) := by
  rw [Arriving.next, cut_of_not_mem h]

theorem next_lines {sep : α} {piece line tail : List α}
    {lines : List (List α)} (h : cut sep piece = (line :: lines, tail))
    (o : Arriving α) :
    o.next sep piece =
      (⟨o.first, o.inside, line⟩ :: lines.map fun l => ⟨l, [], []⟩,
        ⟨tail, []⟩) := by
  rw [Arriving.next, h]

/-- The lines that arrived with some pieces, and the open one. -/
def arrive (sep : α) (pieces : List (List α)) :
    List (Arrived α) × Arriving α :=
  pieces.foldl (fun r piece =>
    (r.1 ++ (r.2.next sep piece).1, (r.2.next sep piece).2)) ([], ⟨[], []⟩)

theorem arrive_append (sep : α) (pieces : List (List α)) (piece : List α) :
    arrive sep (pieces ++ [piece]) =
      ((arrive sep pieces).1 ++ ((arrive sep pieces).2.next sep piece).1,
        ((arrive sep pieces).2.next sep piece).2) := by
  rw [arrive, List.foldl_append]
  rfl

/-- A piece continues the open line as it continues its text. -/
theorem next_text (sep : α) (o : Arriving α) (piece : List α) :
    (o.next sep piece).1.map Arrived.text =
        (join o.text (cut sep piece)).1 ∧
      (o.next sep piece).2.text = (join o.text (cut sep piece)).2 := by
  unfold Arriving.next
  generalize cut sep piece = r
  obtain ⟨lines, tail⟩ := r
  cases lines with
  | nil => simp [join, Arriving.text]
  | cons line lines =>
      have hmap : (lines.map fun l => (⟨l, [], []⟩ : Arrived α)).map
          Arrived.text = lines := by
        rw [List.map_map]
        refine (List.map_congr_left fun l _ => ?_).trans (List.map_id lines)
        simp [Arrived.text]
      refine ⟨?_, ?_⟩
      · show _ :: (lines.map fun l => (⟨l, [], []⟩ : Arrived α)).map
          Arrived.text = _
        rw [hmap]
        rfl
      · simp [join, Arriving.text]

theorem arrive_text (sep : α) (pieces : List (List α)) :
    (arrive sep pieces).1.map Arrived.text = (cut sep pieces.flatten).1 ∧
      (arrive sep pieces).2.text = (cut sep pieces.flatten).2 := by
  induction pieces using List.reverseRecOn with
  | nil => exact ⟨rfl, rfl⟩
  | append_singleton pieces piece ih =>
      have hnext := next_text sep (arrive sep pieces).2 piece
      rw [arrive_append, List.flatten_append, List.flatten_singleton,
        cut_append, List.map_append, hnext.1, hnext.2, ih.1, ih.2]
      exact ⟨rfl, rfl⟩

end AirNote.Lib.Lines
