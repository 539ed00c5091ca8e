import Mathlib.Data.List.Basic
import Mathlib.Data.List.Infix
import Mathlib.Tactic.Common

/-!
# The first occurrence of a pattern

A list is split at the first occurrence of a pattern. The split is described
by where the occurrence stands: it is one, and there is none further left.
Text after the occurrence does not move it, and neither does text before it
that starts none.

## Main results

* `dropInfix?_iff` — the split, by its position.
* `dropInfix?_append_left` — text before the occurrence.
* `dropInfix?_of_append` — text after the occurrence, taken away.
* `dropInfix?_lines` — a pattern that closes some lines.
* `append_cons_iff` — a pattern and an element it does not have.
-/

namespace AirNote.Lib.Infix

variable {α : Type*} [BEq α] [LawfulBEq α]

theorem dropPrefix?_iff {l pat rest : List α} :
    l.dropPrefix? pat = some rest ↔ l = pat ++ rest := by
  rw [List.dropPrefix?_eq_some_iff]
  constructor
  · rintro ⟨pat', rfl, heq⟩
    rw [beq_iff_eq] at heq
    rw [heq]
  · rintro rfl
    exact ⟨pat, rfl, BEq.rfl⟩

/-- The pattern stands after `before`, and nowhere further left. -/
theorem dropInfix?_iff {l pat before after : List α} :
    l.dropInfix? pat = some (before, after) ↔
      l = before ++ pat ++ after ∧
        ∀ b a, l = b ++ pat ++ a → before.length ≤ b.length := by
  rw [List.dropInfix?_eq_some_iff]
  constructor
  · rintro ⟨⟨pat', hl, heq⟩, hfirst⟩
    rw [beq_iff_eq] at heq
    subst heq
    exact ⟨hl, fun b a hb => hfirst b pat' a hb BEq.rfl⟩
  · rintro ⟨hl, hfirst⟩
    refine ⟨⟨pat, hl, BEq.rfl⟩, fun b pat' a hb heq => ?_⟩
    rw [beq_iff_eq] at heq
    exact hfirst b a (heq ▸ hb)

theorem dropInfix?_self (pat after : List α) :
    (pat ++ after).dropInfix? pat = some ([], after) :=
  dropInfix?_iff.2 ⟨rfl, fun b _ _ => Nat.zero_le b.length⟩

/-- Text after the occurrence. -/
theorem dropInfix?_append_right {l pat before after : List α}
    (h : l.dropInfix? pat = some (before, after)) (more : List α) :
    (l ++ more).dropInfix? pat = some (before, after ++ more) := by
  obtain ⟨hl, hfirst⟩ := dropInfix?_iff.1 h
  refine dropInfix?_iff.2 ⟨by rw [hl, List.append_assoc], fun b a hb => ?_⟩
  by_contra hlt
  -- an occurrence further left lies inside `l` whole
  have hlen : (b ++ pat).length ≤ l.length := by
    rw [hl]
    simp only [List.length_append]
    omega
  obtain ⟨a', ha'⟩ := List.prefix_of_prefix_length_le
    (show b ++ pat <+: l ++ more from ⟨a, hb.symm⟩)
    (List.prefix_append l more) hlen
  exact hlt (hfirst b a' ha'.symm)

/-- Text before the occurrence that starts none itself. -/
theorem dropInfix?_append_left {l pat before after pre : List α}
    (hpre : ∀ x y, pre = x ++ y → y ≠ [] → ¬ pat <+: y ++ l)
    (h : l.dropInfix? pat = some (before, after)) :
    (pre ++ l).dropInfix? pat = some (pre ++ before, after) := by
  obtain ⟨hl, hfirst⟩ := dropInfix?_iff.1 h
  refine dropInfix?_iff.2 ⟨by simp [hl], fun b a hb => ?_⟩
  rw [List.append_assoc] at hb
  rcases List.append_eq_append_iff.mp hb with ⟨b', hb', hl'⟩ |
      ⟨y, hpre', hy⟩
  · -- the occurrence starts after `pre`
    have hle := hfirst b' a (by rw [hl', List.append_assoc])
    simp only [hb', List.length_append]
    omega
  · by_cases hne : y = []
    · subst hne
      have hle := hfirst [] a (by simpa using hy.symm)
      rw [List.append_nil] at hpre'
      simp only [List.length_nil, Nat.le_zero] at hle
      rw [hpre', List.length_append, hle]
      omega
    · exact absurd ⟨a, hy⟩ (hpre b y hpre' hne)

/-- Text before the occurrence without the first element of the pattern. -/
theorem dropInfix?_of_not_mem {l before after pre pat : List α} {a : α}
    (hpre : a ∉ pre)
    (h : l.dropInfix? (a :: pat) = some (before, after)) :
    (pre ++ l).dropInfix? (a :: pat) = some (pre ++ before, after) := by
  refine dropInfix?_append_left (fun x y hxy hne hfirst => ?_) h
  cases y with
  | nil => exact hne rfl
  | cons c y =>
      rw [List.cons_append, List.cons_prefix_cons] at hfirst
      exact hpre (by rw [hxy, hfirst.1]; simp)

/-- Other text after the occurrence. -/
theorem dropInfix?_congr_after {pat before after : List α}
    (h : (before ++ pat ++ after).dropInfix? pat = some (before, after))
    (after' : List α) :
    (before ++ pat ++ after').dropInfix? pat = some (before, after') := by
  obtain ⟨-, hfirst⟩ := dropInfix?_iff.1 h
  refine dropInfix?_iff.2 ⟨rfl, fun b a hb => ?_⟩
  by_contra hlt
  -- an occurrence further left ends before `after'` begins
  have hlen : (b ++ pat).length ≤ (before ++ pat).length := by
    rw [List.length_append, List.length_append]
    omega
  obtain ⟨c, hc⟩ := List.prefix_of_prefix_length_le
    (List.prefix_append (b ++ pat) a)
    (hb ▸ List.prefix_append (before ++ pat) after') hlen
  exact hlt (hfirst b (c ++ after) (by rw [← hc, List.append_assoc]))

/-- Text after the occurrence, taken away: it does not hold the last element
of the pattern, so no occurrence ends in it. -/
theorem dropInfix?_of_append {l more pat before after : List α} {a : α}
    (hmore : a ∉ more)
    (h : (l ++ more).dropInfix? (pat ++ [a]) = some (before, after)) :
    ∃ after', l.dropInfix? (pat ++ [a]) = some (before, after') := by
  obtain ⟨hl, hfirst⟩ := dropInfix?_iff.1 h
  rcases List.append_eq_append_iff.mp hl with ⟨y, hy, hmore'⟩ |
      ⟨after', hl', -⟩
  · by_cases hne : y = []
    · subst hne
      rw [List.append_nil] at hy
      refine ⟨[], dropInfix?_iff.2 ⟨by simp [hy], fun b c hb => ?_⟩⟩
      exact hfirst b (c ++ more) (by rw [hb]; simp)
    · -- the occurrence would end in `more`
      obtain ⟨z, e, rfl⟩ := List.eq_nil_or_concat y |>.resolve_left hne
      have he : e = a := by
        have hlast := congrArg List.getLast? hy
        simp only [← List.append_assoc, List.getLast?_concat,
          List.concat_eq_append] at hlast
        exact (Option.some.inj hlast).symm
      subst he
      exact absurd (by rw [hmore']; simp) hmore
  · refine ⟨after', dropInfix?_iff.2 ⟨hl', fun b c hb => ?_⟩⟩
    exact hfirst b (c ++ more) (by rw [hb]; simp)

/-- The pattern after some lines, where it starts with the separator of the
lines and goes on as none of them does. -/
theorem dropInfix?_lines {sep c : α} {pat : List α} {lines : List (List α)}
    {last : List α}
    (hlines : ∀ line ∈ lines ++ [last], sep ∉ line ∧
      ∃ d line', line = d :: line' ∧ d ≠ c) (after : List α) :
    (lines.flatMap (· ++ [sep]) ++ last ++
        (sep :: c :: pat) ++ after).dropInfix? (sep :: c :: pat) =
      some (lines.flatMap (· ++ [sep]) ++ last, after) := by
  induction lines with
  | nil =>
      have h := dropInfix?_of_not_mem (hlines last (by simp)).1
        (dropInfix?_self (sep :: c :: pat) after)
      simpa using h
  | cons line lines ih =>
      have hrest := ih fun l hl => hlines l (List.mem_cons_of_mem line hl)
      have hline := (hlines line (by simp)).1
      -- what follows the separator of this line is no pattern's second element
      obtain ⟨d, next, hnext, hd⟩ : ∃ d next,
          lines.flatMap (· ++ [sep]) ++ last ++ (sep :: c :: pat) ++ after =
            d :: next ∧ d ≠ c := by
        cases lines with
        | nil =>
            obtain ⟨-, d, line', rfl, hd⟩ := hlines last (by simp)
            exact ⟨d, line' ++ (sep :: c :: pat) ++ after, by simp, hd⟩
        | cons second lines =>
            obtain ⟨-, d, line', rfl, hd⟩ := hlines second (by simp)
            exact ⟨d, line' ++ [sep] ++ lines.flatMap (· ++ [sep]) ++ last ++
              (sep :: c :: pat) ++ after, by simp, hd⟩
      have hpre : ∀ x y, line ++ [sep] = x ++ y → y ≠ [] →
          ¬ sep :: c :: pat <+: y ++ (lines.flatMap (· ++ [sep]) ++ last ++
            (sep :: c :: pat) ++ after) := by
        intro x y hxy hne hfirst
        cases y with
        | nil => exact hne rfl
        | cons e y =>
            rw [List.cons_append, List.cons_prefix_cons] at hfirst
            cases y with
            | nil =>
                rw [List.nil_append, hnext, List.cons_prefix_cons]
                  at hfirst
                exact hd hfirst.2.1.symm
            | cons f y =>
                -- `e` stands in the line, before its separator
                obtain ⟨z, hz⟩ : ∃ z, line = x ++ e :: z := by
                  rcases List.eq_nil_or_concat (f :: y) with h | ⟨z, g, hz⟩
                  · cases h
                  · refine ⟨z, ?_⟩
                    rw [hz, List.concat_eq_append, ← List.cons_append,
                      ← List.append_assoc] at hxy
                    exact (List.append_inj' hxy rfl).1
                refine hline ?_
                rw [hz, hfirst.1]
                simp
      simpa using dropInfix?_append_left hpre hrest

omit [BEq α] [LawfulBEq α] in
theorem prefix_append_cons_iff {m a b : List α} {z : α} (hz : z ∉ m) :
    m <+: a ++ z :: b ↔ m <+: a := by
  constructor
  · intro h
    rcases List.prefix_or_prefix_of_prefix h (List.prefix_append a (z :: b)) with
      hma | ⟨t, rfl⟩
    · exact hma
    · rw [List.prefix_append_right_inj] at h
      cases t with
      | nil => rw [List.append_nil]
      | cons c t =>
          have hc := (List.cons_prefix_cons.mp h).1
          exact absurd (by simp [hc]) hz
  · exact fun h => h.trans (List.prefix_append a _)

omit [BEq α] [LawfulBEq α] in
/-- A pattern does not reach over an element it does not have. -/
theorem append_cons_iff {m a b : List α} {z : α} (hm : m ≠ []) (hz : z ∉ m) :
    m <:+: a ++ z :: b ↔ m <:+: a ∨ m <:+: b := by
  induction a with
  | nil =>
      have hfirst : ¬ m <+: z :: b := by
        intro h
        have hnil := (prefix_append_cons_iff (a := []) (b := b) hz).mp h
        exact hm (List.prefix_nil.mp hnil)
      rw [List.nil_append, List.infix_cons_iff, List.infix_nil]
      simp only [hfirst, hm, false_or]
  | cons x a ih =>
      rw [List.cons_append, List.infix_cons_iff, List.infix_cons_iff, ih,
        ← List.cons_append, prefix_append_cons_iff hz, or_assoc]

end AirNote.Lib.Infix
