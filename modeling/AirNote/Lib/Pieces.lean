import Mathlib.Data.List.Chain
import Mathlib.Data.List.DropRight
import Mathlib.Data.List.Infix
import Mathlib.Tactic.Common

/-!
# A list read in pieces

A list is split at a pattern; it reads a list of blocks when it is the blocks
in order, with nothing but blanks before, between and after them. A list of
chunks tiles what is new in each, where a chunk is a tail of the chunk before
it followed by what is new.

## Main results

* `intercalate_splitOn` — joined again the pieces are the list.
* `reads_splitOn` — a list split at blanks reads the blocks of its pieces.
-/

namespace AirNote.Lib.Pieces

/-! ## Splitting at a pattern -/

section Split

variable {α : Type*} [BEq α]

/-- The pieces between the matches of a pattern, found from the left; the
first `skip` elements are passed over. -/
def splitOn (pat : List α) : Nat → List α → List (List α)
  | _, [] => [[]]
  | skip + 1, _ :: rest => splitOn pat skip rest
  | 0, a :: rest =>
      if pat.isPrefixOf (a :: rest) then
        [] :: splitOn pat (pat.length - 1) rest
      else
        match splitOn pat 0 rest with
        | [] => [[a]]
        | piece :: pieces => (a :: piece) :: pieces

theorem splitOn_ne_nil (pat : List α) (skip : Nat) (l : List α) :
    splitOn pat skip l ≠ [] := by
  induction l generalizing skip with
  | nil => simp [splitOn]
  | cons a rest ih =>
      cases skip with
      | succ skip => exact ih skip
      | zero =>
          rw [splitOn]
          split
          · exact List.cons_ne_nil _ _
          · split <;> exact List.cons_ne_nil _ _

theorem splitOn_skip (pat : List α) (skip : Nat) (l : List α) :
    splitOn pat skip l = splitOn pat 0 (l.drop skip) := by
  induction l generalizing skip with
  | nil => cases skip <;> rfl
  | cons a rest ih =>
      cases skip with
      | zero => rfl
      | succ skip => exact ih skip

/-- Joined again the pieces are the list. -/
theorem intercalate_splitOn [LawfulBEq α] {pat : List α} (hpat : pat ≠ [])
    (l : List α) : pat.intercalate (splitOn pat 0 l) = l := by
  induction hlen : l.length using Nat.strong_induction_on generalizing l with
  | _ n ih =>
  cases l with
  | nil => simp [splitOn]
  | cons a rest =>
      rw [List.length_cons] at hlen
      rw [splitOn]
      split
      next hprefix =>
        obtain ⟨after, hafter⟩ := List.isPrefixOf_iff_prefix.mp hprefix
        obtain ⟨p, ps, rfl⟩ := List.exists_cons_of_ne_nil hpat
        simp only [List.cons_append, List.cons.injEq] at hafter
        obtain ⟨rfl, rfl⟩ := hafter
        rw [splitOn_skip, List.length_cons, Nat.add_sub_cancel,
          List.drop_left]
        have hrest := ih after.length
          (by rw [List.length_append] at hlen; omega) after rfl
        obtain ⟨piece, pieces, hpieces⟩ :=
          List.exists_cons_of_ne_nil (splitOn_ne_nil (p :: ps) 0 after)
        rw [hpieces] at hrest ⊢
        simp [hrest]
      · have hrest := ih rest.length (by omega) rest rfl
        obtain ⟨piece, pieces, hpieces⟩ :=
          List.exists_cons_of_ne_nil (splitOn_ne_nil pat 0 rest)
        rw [hpieces] at hrest ⊢
        cases pieces with
        | nil => simpa using hrest
        | cons next pieces => simpa using hrest

end Split

/-! ## Blocks between blanks -/

section Reads

variable {α : Type*} {blank : α → Bool}

/-- The list is the blocks in order, and blanks. -/
inductive Reads (blank : α → Bool) : List (List α) → List α → Prop
  | nil {ws : List α} (h : ws.all blank) : Reads blank [] ws
  | cons {ws block rest : List α} {blocks : List (List α)}
      (h : ws.all blank) (hrest : Reads blank blocks rest) :
      Reads blank (block :: blocks) (ws ++ block ++ rest)

theorem Reads.blank_append {blocks : List (List α)} {ws l : List α}
    (h : ws.all blank) (hreads : Reads blank blocks l) :
    Reads blank blocks (ws ++ l) := by
  cases hreads with
  | nil h' => exact .nil (by rw [List.all_append, h, h', Bool.and_self])
  | cons h' hrest =>
      rw [← List.append_assoc, ← List.append_assoc]
      exact .cons (by rw [List.all_append, h, h', Bool.and_self]) hrest

theorem Reads.append {blocks blocks' : List (List α)} {l l' : List α}
    (h : Reads blank blocks l) (h' : Reads blank blocks' l') :
    Reads blank (blocks ++ blocks') (l ++ l') := by
  induction h with
  | nil hws => exact h'.blank_append hws
  | cons hws _ ih =>
      rw [List.cons_append, List.append_assoc]
      exact .cons hws ih

theorem Reads.block (block : List α) : Reads blank [block] block := by
  have h : Reads blank [block] ([] ++ block ++ []) :=
    .cons (by simp) (.nil (by simp))
  simpa using h

/-- A list without anything but blanks reads blank blocks only. -/
theorem Reads.of_blank {blocks : List (List α)} {l : List α}
    (h : Reads blank blocks l) (hl : l.all blank) :
    ∀ block ∈ blocks, block.all blank := by
  induction h with
  | nil => intro block hmem; cases hmem
  | cons _ _ ih =>
      rw [List.all_append, List.all_append, Bool.and_eq_true,
        Bool.and_eq_true] at hl
      intro block hmem
      rcases List.mem_cons.mp hmem with rfl | hmem
      · exact hl.1.2
      · exact ih hl.2 block hmem

/-- A list whose pieces read blocks reads all of them. -/
theorem reads_intercalate {sep : List α} (hsep : sep.all blank)
    (f : List α → List (List α)) {pieces : List (List α)}
    (h : ∀ piece ∈ pieces, Reads blank (f piece) piece) :
    Reads blank (pieces.flatMap f) (sep.intercalate pieces) := by
  induction pieces with
  | nil =>
      have hnone : Reads blank [] ([] : List α) := .nil (by simp)
      simpa using hnone
  | cons piece pieces ih =>
      have hfirst := h piece List.mem_cons_self
      have hrest := ih fun p hp => h p (List.mem_cons_of_mem _ hp)
      cases pieces with
      | nil => simpa using hfirst
      | cons next pieces =>
          rw [List.flatMap_cons, List.intercalate_cons_cons,
            List.append_assoc]
          exact hfirst.append (hrest.blank_append hsep)

/-- Split at blanks, a list reads the blocks of its pieces. -/
theorem reads_splitOn [BEq α] [LawfulBEq α] {pat : List α} (hpat : pat ≠ [])
    (hblank : pat.all blank) {f : List α → List (List α)}
    (h : ∀ piece, Reads blank (f piece) piece) (l : List α) :
    Reads blank ((splitOn pat 0 l).flatMap f) l := by
  have hreads := reads_intercalate hblank f
    fun piece (_ : piece ∈ splitOn pat 0 l) => h piece
  rwa [intercalate_splitOn hpat] at hreads

end Reads

/-! ## Chunks that overlap -/

section Tiles

variable {α : Type*}

/-- Each chunk is a tail of the chunk before it, then what is new. -/
inductive Tiles : List (List α) → List (List α) → Prop
  | nil : Tiles [] []
  | push {chunks news : List (List α)} {lead new : List α}
      (h : Tiles chunks news) (hlead : lead <:+ chunks.getLast?.getD []) :
      Tiles (chunks ++ [lead ++ new]) (news ++ [new])

/-- A chunk that is new throughout. -/
theorem Tiles.push_new {chunks news : List (List α)} (h : Tiles chunks news)
    (c : List α) : Tiles (chunks ++ [c]) (news ++ [c]) := by
  have hpush : Tiles (chunks ++ [[] ++ c]) (news ++ [c]) :=
    h.push (List.nil_suffix ..)
  exact hpush

/-- The end of a list is that of its own end and what follows. -/
theorem rtake_rtake_append (n : Nat) (l l' : List α) :
    (l.rtake n ++ l').rtake n = (l ++ l').rtake n := by
  unfold List.rtake
  rw [List.length_append, List.length_append, List.length_drop,
    List.drop_append, List.drop_append, List.drop_drop, List.length_drop]
  congr 2 <;> omega

end Tiles

end AirNote.Lib.Pieces
