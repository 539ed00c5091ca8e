import Mathlib.Data.List.Basic
import Mathlib.Data.List.Nodup
import Mathlib.Tactic.Common

/-!
# Linked chains

A chain is a sequence of entries, each of which records the digest of its
predecessor, the first one a fixed origin. What makes such a chain tamper
evident is a counting fact and no cryptography: where the origin and the
digests of a chain are pairwise distinct, the link of an entry determines
its position. Hence a second chain over the same origin whose entries all
occur in the first one is a prefix of it (`prefix_of_subset`). Entries
cannot be dropped, reordered or repeated, only cut off at the end.
-/

namespace AirNote.Lib.HashChain

variable {α D : Type*} (prev digest : α → D)

/-- Each entry records the digest of its predecessor, the first one `d`. -/
def Linked : D → List α → Prop
  | _, [] => True
  | d, a :: rest => prev a = d ∧ Linked (digest a) rest

/-- The digest the next entry of the chain has to record. -/
def tip (d : D) (chain : List α) : D :=
  match chain.getLast? with
  | some a => digest a
  | none => d

variable {prev digest}

@[simp] theorem tip_nil (d : D) : tip digest d ([] : List α) = d := rfl

@[simp] theorem tip_append_singleton (d : D) (xs : List α) (a : α) :
    tip digest d (xs ++ [a]) = digest a := by
  simp [tip]

theorem tip_cons (d : D) (a : α) (rest : List α) :
    tip digest d (a :: rest) = tip digest (digest a) rest := by
  cases hrest : rest.getLast? with
  | none =>
      have : rest = [] := List.getLast?_eq_none_iff.mp hrest
      subst this
      rfl
  | some b => simp [tip, List.getLast?_cons, hrest]

theorem tip_append (d : D) (xs ys : List α) :
    tip digest d (xs ++ ys) = tip digest (tip digest d xs) ys := by
  induction xs generalizing d with
  | nil => rfl
  | cons a rest ih => rw [List.cons_append, tip_cons, tip_cons, ih]

theorem linked_append {d : D} {xs ys : List α} :
    Linked prev digest d (xs ++ ys) ↔
      Linked prev digest d xs ∧
        Linked prev digest (tip digest d xs) ys := by
  induction xs generalizing d with
  | nil => simp [Linked]
  | cons a rest ih => simp [Linked, ih, tip_cons, and_assoc]

/-- The link a chain is extended with is the digest at that position of the
origin followed by the digests. -/
theorem getElem?_digests (d : D) (xs ys : List α) :
    (d :: (xs ++ ys).map digest)[xs.length]? = some (tip digest d xs) := by
  induction xs generalizing d with
  | nil => simp
  | cons a rest ih =>
      have hstep := ih (digest a)
      rw [tip_cons]
      simpa using hstep

/-- Distinct digests: a link determines the prefix it stands behind. -/
theorem prefix_eq_of_tip_eq {d : D} {chain xs xs' ys ys' : List α}
    (hnodup : (d :: chain.map digest).Nodup)
    (hx : chain = xs ++ ys) (hx' : chain = xs' ++ ys')
    (htip : tip digest d xs = tip digest d xs') : xs = xs' := by
  have hget : (d :: (xs ++ ys).map digest)[xs.length]? =
      some (tip digest d xs) := getElem?_digests d xs ys
  have hget' : (d :: (xs' ++ ys').map digest)[xs'.length]? =
      some (tip digest d xs') := getElem?_digests d xs' ys'
  rw [← hx] at hget
  rw [← hx'] at hget'
  have hlt : xs.length < (d :: chain.map digest).length := by
    simp only [hx, List.length_cons, List.length_map, List.length_append]
    omega
  have hlen : xs.length = xs'.length := by
    refine (List.getElem?_inj hlt hnodup).mp ?_
    rw [hget, hget', htip]
  have happ : xs ++ ys = xs' ++ ys' := hx.symm.trans hx'
  exact (List.append_inj happ hlen).1

/-- **A linked selection is a prefix.** A chain over the origin `d` whose
entries all occur in `chain` is a prefix of `chain`. The induction is on the
selection; what it carries is the part of `chain` already matched. -/
theorem prefix_of_subset {d : D} {chain : List α}
    (hchain : Linked prev digest d chain)
    (hnodup : (d :: chain.map digest).Nodup) :
    ∀ {matched rest sel : List α}, chain = matched ++ rest →
      Linked prev digest (tip digest d matched) sel →
      (∀ a ∈ sel, a ∈ chain) → sel <+: rest := by
  intro matched rest sel
  induction sel generalizing matched rest with
  | nil =>
      intro _ _ _
      exact List.nil_prefix
  | cons a sel ih =>
      intro hsplit hlinked hmem
      obtain ⟨xs, ys, hpos⟩ := List.append_of_mem (hmem a (by simp))
      have hlink : prev a = tip digest d xs := by
        have h := hchain
        rw [hpos, linked_append] at h
        exact h.2.1
      have htip : tip digest d xs = tip digest d matched :=
        hlink.symm.trans hlinked.1
      have hxs : xs = matched :=
        prefix_eq_of_tip_eq hnodup hpos hsplit htip
      subst hxs
      have hrest : rest = a :: ys := by
        have h := hsplit.symm.trans hpos
        exact List.append_cancel_left h
      subst hrest
      have hnext : chain = (xs ++ [a]) ++ ys := by simpa using hpos
      have htail : sel <+: ys := by
        refine ih hnext ?_ (fun b hb => hmem b (List.mem_cons_of_mem a hb))
        rw [tip_append_singleton]
        exact hlinked.2
      exact (List.prefix_cons_inj a).mpr htail

end AirNote.Lib.HashChain
