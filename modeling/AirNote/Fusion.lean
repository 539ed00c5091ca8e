import AirNote.Lib.SortedBy
import AirNote.Lib.Tally
import Mathlib.Data.List.TakeDrop
import Mathlib.Data.List.TakeWhile
import Mathlib.Data.Prod.Lex
import Mathlib.Data.String.Basic

/-!
# Reciprocal-rank fusion with ties

Recall asks two indexes, each answers ids with scores, and the two answers
are fused: an id takes from every arm the reciprocal of its rank there.
Production gives ids of the same score the same rank, the number of those
that are strictly better and one; the reference `rrf_fuse` takes the position
in a list that is already ranked.

Scores are compared by `total_cmp` and grouped by their bits, which is one
linear order. What is done with the weights is the arithmetic of `f32`,
which is left open: no law of addition is used, so the sums are the same bit
for bit.

## Main results

* `rankWithTies_eq` — the rank of an entry is one more than the number of
  strictly better ones.
* `fuseScoredArms_perm` — rearranging an arm rearranges the map.
* `fuseScoredArms_of_nodup` — without ties it is the plain fusion.
* `fuseScoredArms_tie_aware` — the four together.
-/

namespace AirNote.Fusion

open Lib.Tally Lib.SortedBy

variable {S W : Type} [LinearOrder S]

/-! ## The arithmetic of the weights -/

/-- What the fusion does with `f32`. -/
structure Weights (W : Type) where
  ofNat : Nat → W
  add : W → W → W
  div : W → W → W

/-- `RRF_K`. -/
def Weights.rrfK (F : Weights W) : W := F.ofNat 60

/-- `rrf_contribution`. -/
def rrfContribution (F : Weights W) (rank : Nat) : W :=
  F.div (F.ofNat 1) (F.add F.rrfK (F.ofNat rank))

/-- `scores.entry(id).or_insert(0.0) += rrf_contribution(rank)`. -/
def contribute (F : Weights W) (scores : List (String × W))
    (id : String) (rank : Nat) : List (String × W) :=
  bump F.add (F.ofNat 0) id (rrfContribution F rank) scores

/-- `rrf_fuse`. -/
def rrfFuse (F : Weights W) (rankedArms : List (List String)) :
    List (String × W) :=
  rankedArms.foldl (fun scores arm =>
    arm.zipIdx.foldl (fun scores e => contribute F scores e.1 (e.2 + 1))
      scores) []

/-! ## Ranks -/

/-- The order of the sort: the one may stand before the other. -/
def NoWorse (lowerIsBetter : Bool) (a b : S) : Prop :=
  if lowerIsBetter then a ≤ b else b ≤ a

instance (lowerIsBetter : Bool) :
    DecidableRel (NoWorse lowerIsBetter (S := S)) :=
  fun a b => by unfold NoWorse; cases lowerIsBetter <;> infer_instance

/-- `sort_by` of `rank_with_ties`. -/
def sortScored (scored : List (String × S)) (lowerIsBetter : Bool) :
    List (String × S) :=
  scored.insertionSort fun a b => NoWorse lowerIsBetter a.2 b.2

/-- The loop of `rank_with_ties`: the entries of the score at the head take
the rank the group starts at. -/
def rankGroups (groupStartRank : Nat) :
    List (String × S) → List (String × Nat)
  | [] => []
  | e :: rest =>
      let group := rest.takeWhile fun x => x.2 = e.2
      ((e :: group).map fun x => (x.1, groupStartRank)) ++
        rankGroups (groupStartRank + (e :: group).length)
          (rest.dropWhile fun x => x.2 = e.2)
termination_by l => l.length
decreasing_by
  have := (List.dropWhile_sublist (l := rest)
    fun x => decide (x.2 = e.2)).length_le
  simp only [List.length_cons]
  omega

/-- `rank_with_ties`. -/
def rankWithTies (scored : List (String × S)) (lowerIsBetter : Bool) :
    List (String × Nat) :=
  rankGroups 1 (sortScored scored lowerIsBetter)

/-- `fuse_scored_arms`. -/
def fuseScoredArms (F : Weights W)
    (arms : List (List (String × S) × Bool)) : List (String × W) :=
  arms.foldl (fun scores arm =>
    (rankWithTies arm.1 arm.2).foldl
      (fun scores e => contribute F scores e.1 e.2) scores) []

/-- `hits.sort_by` of recall, on the fused entries: the better score first,
whatever the boosts made of it, then the newer one, then the greater id. The
seeds are taken from the same order without the times. -/
def sortHits {K T : Type} [LinearOrder K] [LinearOrder T]
    (score : String × W → K) (ts : String → T) (fused : List (String × W)) :
    List (String × W) :=
  fused.insertionSort fun a b =>
    toLex (score b, toLex (ts b.1, b.1)) ≤ toLex (score a, toLex (ts a.1, a.1))

/-- The rank of a score among those of an arm: one more than the number of
strictly better entries. -/
def competitionRank (lowerIsBetter : Bool) (scored : List (String × S))
    (score : S) : Nat :=
  1 + scored.countP fun e => !decide (NoWorse lowerIsBetter score e.2)

/-! ## The order of the scores -/

section NoWorse

variable {lower : Bool}

theorem NoWorse.refl (a : S) : NoWorse lower a a := by
  cases lower <;> exact le_refl a

theorem NoWorse.total (a b : S) : NoWorse lower a b ∨ NoWorse lower b a := by
  cases lower
  · exact le_total b a
  · exact le_total a b

theorem NoWorse.trans {a b c : S} (hab : NoWorse lower a b)
    (hbc : NoWorse lower b c) : NoWorse lower a c := by
  cases lower
  · exact le_trans hbc hab
  · exact le_trans hab hbc

theorem NoWorse.antisymm {a b : S} (hab : NoWorse lower a b)
    (hba : NoWorse lower b a) : a = b := by
  cases lower
  · exact le_antisymm hba hab
  · exact le_antisymm hab hba

end NoWorse

theorem sortScored_perm (scored : List (String × S)) (lower : Bool) :
    (sortScored scored lower).Perm scored :=
  List.perm_insertionSort _ scored

theorem sortScored_sorted (scored : List (String × S)) (lower : Bool) :
    (sortScored scored lower).Pairwise fun a b => NoWorse lower a.2 b.2 := by
  have htotal : Std.Total fun a b : String × S => NoWorse lower a.2 b.2 :=
    ⟨fun a b => NoWorse.total a.2 b.2⟩
  have htrans : IsTrans (String × S) fun a b => NoWorse lower a.2 b.2 :=
    ⟨fun _ _ _ => NoWorse.trans⟩
  exact List.pairwise_insertionSort _ scored

/-! ## What the ranks are -/

theorem competitionRank_perm {lower : Bool} {scored scored' : List (String × S)}
    (h : scored.Perm scored') (score : S) :
    competitionRank lower scored score = competitionRank lower scored' score := by
  rw [competitionRank, competitionRank, h.countP_eq]

/-- The entries that stand before a group are those strictly better. -/
theorem competitionRank_group {lower : Bool} {pre group after : List (String × S)}
    {score : S} (hpre : ∀ e ∈ pre, ¬ NoWorse lower score e.2)
    (hgroup : ∀ e ∈ group, e.2 = score)
    (hafter : ∀ e ∈ after, NoWorse lower score e.2) :
    competitionRank lower (pre ++ (group ++ after)) score = pre.length + 1 := by
  have h1 : pre.countP (fun e => !decide (NoWorse lower score e.2)) =
      pre.length := by
    rw [List.countP_eq_length]
    intro e he
    simp [hpre e he]
  have h2 : group.countP (fun e => !decide (NoWorse lower score e.2)) = 0 := by
    rw [List.countP_eq_zero]
    intro e he
    simp [hgroup e he, NoWorse.refl]
  have h3 : after.countP (fun e => !decide (NoWorse lower score e.2)) = 0 := by
    rw [List.countP_eq_zero]
    intro e he
    simp [hafter e he]
  rw [competitionRank, List.countP_append, List.countP_append, h1, h2, h3]
  omega

theorem mem_tieGroup {e x : String × S} {rest : List (String × S)}
    (hx : x ∈ e :: rest.takeWhile fun x => x.2 = e.2) : x.2 = e.2 := by
  rcases List.mem_cons.mp hx with rfl | hx
  · rfl
  · simpa using List.mem_takeWhile_imp hx

/-- The entry after a group does not have its score, and what follows is no
better. -/
theorem mem_afterGroup {lower : Bool} {e x : String × S}
    {rest : List (String × S)}
    (hsorted : (e :: rest).Pairwise fun a b => NoWorse lower a.2 b.2)
    (hx : x ∈ rest.dropWhile fun x => x.2 = e.2) :
    ¬ NoWorse lower x.2 e.2 := by
  intro hle
  have hsub : (rest.dropWhile fun x => decide (x.2 = e.2)).Sublist rest :=
    List.dropWhile_sublist _
  have hne : (rest.dropWhile fun x => decide (x.2 = e.2)) ≠ [] :=
    List.ne_nil_of_mem hx
  have hfirst := List.head_dropWhile_not _ hne
  have hafterSorted := hsorted.of_cons.sublist hsub
  cases hcases : rest.dropWhile fun x => decide (x.2 = e.2) with
  | nil => exact hne hcases
  | cons y ys =>
      simp only [hcases, List.head_cons, decide_eq_false_iff_not] at hfirst
      rw [hcases] at hx hafterSorted hsub
      have hey : NoWorse lower e.2 y.2 := List.rel_of_pairwise_cons hsorted
        (hsub.subset List.mem_cons_self)
      have hyx : NoWorse lower y.2 x.2 := by
        rcases List.mem_cons.mp hx with rfl | hx
        · exact NoWorse.refl _
        · exact List.rel_of_pairwise_cons hafterSorted hx
      exact hfirst (NoWorse.antisymm (hyx.trans hle) hey)

/-- The loop, from a group on: the entries before it are all strictly
better. -/
theorem rankGroups_eq {lower : Bool} (pre l : List (String × S))
    (hsorted : l.Pairwise fun a b => NoWorse lower a.2 b.2)
    (hpre : ∀ p ∈ pre, ∀ x ∈ l, ¬ NoWorse lower x.2 p.2) :
    rankGroups (pre.length + 1) l =
      l.map fun e => (e.1, competitionRank lower (pre ++ l) e.2) := by
  induction hn : l.length using Nat.strong_induction_on generalizing pre l with
  | _ n ih =>
  cases l with
  | nil => rw [rankGroups, List.map_nil]
  | cons e rest =>
      have hgroup : ∀ x ∈ e :: rest.takeWhile (fun x => x.2 = e.2),
          x.2 = e.2 := fun x hx => mem_tieGroup hx
      have hafter : ∀ x ∈ rest.dropWhile (fun x => x.2 = e.2),
          ¬ NoWorse lower x.2 e.2 := fun x hx => mem_afterGroup hsorted hx
      have hsub : (rest.dropWhile fun x => decide (x.2 = e.2)).Sublist rest :=
        List.dropWhile_sublist _
      have hsplit := (List.takeWhile_append_dropWhile
        (p := fun x : String × S => decide (x.2 = e.2)) (l := rest)).symm
      rw [rankGroups]
      generalize rest.takeWhile (fun x => decide (x.2 = e.2)) = group at *
      generalize rest.dropWhile (fun x => decide (x.2 = e.2)) = after at *
      have hwhole : (pre ++ e :: group) ++ after = pre ++ e :: rest := by
        rw [hsplit, List.append_assoc, List.cons_append]
      have hrest := ih after.length
        (by have := hsub.length_le; rw [← hn, List.length_cons]; omega)
        (pre ++ e :: group) after (hsorted.of_cons.sublist hsub)
        (by
          intro p hp x hx
          rcases List.mem_append.mp hp with hp | hp
          · exact hpre p hp x (List.mem_cons_of_mem e (hsub.subset hx))
          · rw [hgroup p hp]
            exact hafter x hx) rfl
      have hranks : ∀ x ∈ e :: group,
          competitionRank lower (pre ++ e :: rest) x.2 = pre.length + 1 := by
        intro x hx
        rw [hgroup x hx, ← hwhole, List.append_assoc]
        exact competitionRank_group
          (fun p hp => hpre p hp e List.mem_cons_self) hgroup
          (fun y hy => List.rel_of_pairwise_cons hsorted (hsub.subset hy))
      rw [hwhole, List.length_append,
        show pre.length + (e :: group).length + 1 =
          pre.length + 1 + (e :: group).length by omega] at hrest
      simp only [hrest]
      rw [show e :: rest = (e :: group) ++ after by
        rw [hsplit, List.cons_append], List.map_append]
      congr 1
      refine List.map_congr_left fun x hx => ?_
      rw [show (e :: group) ++ after = e :: rest by
        rw [hsplit, List.cons_append], hranks x hx]

/-- The entries in the order of the sort, each with its competition rank. -/
theorem rankWithTies_eq (scored : List (String × S)) (lower : Bool) :
    rankWithTies scored lower =
      (sortScored scored lower).map fun e =>
        (e.1, competitionRank lower scored e.2) := by
  have h := rankGroups_eq [] (sortScored scored lower)
    (sortScored_sorted scored lower) (fun p hp => by cases hp)
  rw [List.length_nil, Nat.zero_add, List.nil_append] at h
  rw [rankWithTies, h]
  refine List.map_congr_left fun e _ => ?_
  rw [competitionRank_perm (sortScored_perm scored lower)]

/-- Where no two scores are equal the groups are single entries, and their
ranks the positions. -/
theorem rankGroups_of_nodup {start : Nat} {l : List (String × S)}
    (h : (l.map Prod.snd).Nodup) :
    rankGroups start l = (l.map Prod.fst).zipIdx start := by
  induction l generalizing start with
  | nil => rw [rankGroups]; rfl
  | cons e rest ih =>
      obtain ⟨hnew, hrest⟩ := List.nodup_cons.mp h
      have hne : ∀ x ∈ rest, ¬ x.2 = e.2 := fun x hx heq =>
        hnew (heq ▸ List.mem_map_of_mem hx)
      have htake : rest.takeWhile (fun x => decide (x.2 = e.2)) = [] := by
        cases rest with
        | nil => rfl
        | cons y ys => simp [hne y List.mem_cons_self]
      have hdrop : rest.dropWhile (fun x => decide (x.2 = e.2)) = rest := by
        cases rest with
        | nil => rfl
        | cons y ys => simp [hne y List.mem_cons_self]
      rw [rankGroups]
      simp only [htake, hdrop, ih hrest, List.map_cons, List.map_nil,
        List.zipIdx_cons, List.length_singleton, List.singleton_append]

/-! ## The fused map -/

section Fuse

variable (F : Weights W)

/-- What an arm contributes, in the order in which it does. -/
def armItems (arm : List (String × S) × Bool) : List (String × W) :=
  (rankWithTies arm.1 arm.2).map fun e => (e.1, rrfContribution F e.2)

/-- The fusion adds up what the arms contribute, one arm after the other. -/
theorem fuseScoredArms_eq (arms : List (List (String × S) × Bool)) :
    fuseScoredArms F arms =
      tally F.add (F.ofNat 0) (arms.flatMap (armItems F)) [] := by
  rw [tally, List.foldl_flatMap, fuseScoredArms]
  simp only [armItems, List.foldl_map]
  rfl

/-- What an id takes from an arm: the contributions of its scores, the
better ones first. -/
theorem amounts_armItems (id : String) (arm : List (String × S) × Bool) :
    amounts id (armItems F arm) =
      (((sortScored arm.1 arm.2).filter fun e => e.1 = id).map Prod.snd).map
        fun score => rrfContribution F (competitionRank arm.2 arm.1 score) := by
  rw [amounts, armItems, rankWithTies_eq, List.map_map, List.filter_map,
    List.map_map, List.map_map]
  rfl

/-- The scores of an id, in the order of the sort, do not depend on the order
of the arm. -/
theorem scoresOf_perm {scored scored' : List (String × S)}
    (h : scored.Perm scored') (lower : Bool) (id : String) :
    ((sortScored scored lower).filter fun e => e.1 = id).map Prod.snd =
      ((sortScored scored' lower).filter fun e => e.1 = id).map Prod.snd := by
  have hsorted : ∀ scored : List (String × S),
      (((sortScored scored lower).filter fun e => e.1 = id).map
        Prod.snd).Pairwise (NoWorse lower) := fun scored =>
    List.pairwise_map.mpr
      ((sortScored_sorted scored lower).sublist List.filter_sublist)
  have hperm : (sortScored scored lower).Perm (sortScored scored' lower) :=
    (sortScored_perm scored lower).trans
      (h.trans (sortScored_perm scored' lower).symm)
  exact ((hperm.filter _).map _).eq_of_pairwise
    (fun _ _ _ _ hab hba => NoWorse.antisymm hab hba)
    (hsorted scored) (hsorted scored')

/-- Two arms with the same entries and the same direction. -/
def SameArm (arm arm' : List (String × S) × Bool) : Prop :=
  arm.1.Perm arm'.1 ∧ arm.2 = arm'.2

theorem amounts_armItems_perm {arm arm' : List (String × S) × Bool}
    (h : SameArm arm arm') (id : String) :
    amounts id (armItems F arm) = amounts id (armItems F arm') := by
  obtain ⟨scored, lower⟩ := arm
  obtain ⟨scored', lower'⟩ := arm'
  obtain ⟨hperm, rfl⟩ : scored.Perm scored' ∧ lower = lower' := h
  rw [amounts_armItems, amounts_armItems, scoresOf_perm hperm]
  refine List.map_congr_left fun score _ => ?_
  rw [competitionRank_perm hperm]

/-- Rearranging the arms' entries rearranges the map. -/
theorem fuseScoredArms_perm {arms arms' : List (List (String × S) × Bool)}
    (h : List.Forall₂ SameArm arms arms') :
    (fuseScoredArms F arms).Perm (fuseScoredArms F arms') := by
  rw [fuseScoredArms_eq, fuseScoredArms_eq]
  refine tally_perm fun id => ?_
  induction h with
  | nil => rfl
  | cons harm _ ih =>
      have happend : ∀ xs ys : List (String × W),
          amounts id (xs ++ ys) = amounts id xs ++ amounts id ys := by
        intro xs ys
        rw [amounts, List.filter_append, List.map_append]
        rfl
      rw [List.flatMap_cons, List.flatMap_cons, happend, happend, ih,
        amounts_armItems_perm F harm]

/-- Every id of an arm is in the map once, and no other. -/
theorem keys_fuseScoredArms (arms : List (List (String × S) × Bool)) :
    ((fuseScoredArms F arms).map Prod.fst).Nodup ∧
      ∀ id, id ∈ (fuseScoredArms F arms).map Prod.fst ↔
        ∃ arm ∈ arms, id ∈ arm.1.map Prod.fst := by
  rw [fuseScoredArms_eq]
  refine ⟨nodup_keys_tally List.nodup_nil, fun id => ?_⟩
  have harm : ∀ arm : List (String × S) × Bool,
      (armItems F arm).map Prod.fst =
        (sortScored arm.1 arm.2).map Prod.fst := by
    intro arm
    rw [armItems, rankWithTies_eq, List.map_map, List.map_map]
    rfl
  rw [mem_keys_tally, List.map_flatMap]
  simp only [List.map_nil, List.not_mem_nil, false_or, List.mem_flatMap, harm,
    ((sortScored_perm _ _).map _).mem_iff]

/-- Without ties the fusion is the plain one, of the ids in the order of their
scores. -/
theorem fuseScoredArms_of_nodup {arms : List (List (String × S) × Bool)}
    (h : ∀ arm ∈ arms, (arm.1.map Prod.snd).Nodup) :
    fuseScoredArms F arms =
      rrfFuse F (arms.map fun arm => (sortScored arm.1 arm.2).map Prod.fst) := by
  have harm : ∀ arm ∈ arms, rankWithTies arm.1 arm.2 =
      ((sortScored arm.1 arm.2).map Prod.fst).zipIdx.map
        fun e => (e.1, e.2 + 1) := by
    intro arm hmem
    have hnodup : ((sortScored arm.1 arm.2).map Prod.snd).Nodup :=
      ((sortScored_perm arm.1 arm.2).map _).nodup_iff.mpr (h arm hmem)
    rw [rankWithTies, rankGroups_of_nodup hnodup, List.zipIdx_succ]
  rw [fuseScoredArms, rrfFuse, List.foldl_map]
  refine List.foldl_ext _ _ _ fun scores arm hmem => ?_
  rw [harm arm hmem, List.foldl_map]

end Fuse

/-! ## The order of what is fused -/

/-- Two rearrangements of a map have one order: the ids tell any two entries
apart. -/
theorem sortHits_perm {K T : Type} [LinearOrder K] [LinearOrder T]
    (score : String × W → K) (ts : String → T)
    {fused fused' : List (String × W)}
    (hnodup : (fused.map Prod.fst).Nodup) (h : fused.Perm fused') :
    sortHits score ts fused = sortHits score ts fused' := by
  have horders : Orders (fun a b : String × W =>
      toLex (score b, toLex (ts b.1, b.1)) ≤
        toLex (score a, toLex (ts a.1, a.1))) {e | e ∈ fused} := by
    refine ⟨fun a _ b _ => le_total _ _,
      fun a _ b _ c _ hab hbc => hbc.trans hab, fun a ha b hb hab hba => ?_⟩
    have hkey := congrArg ofLex (le_antisymm hab hba)
    have hlex : toLex (ts b.1, b.1) = toLex (ts a.1, a.1) :=
      (Prod.ext_iff.mp hkey).2
    have hid : b.1 = a.1 := (Prod.ext_iff.mp (congrArg ofLex hlex)).2
    exact List.inj_on_of_nodup_map hnodup ha hb hid.symm
  exact insertionSort_congr horders (fun a ha => ha) h

/-- **Fusion minds ties.** Rearranging the entries of an arm changes neither
the map nor its order; the rank of an entry is a function of its score, one
more than the number of strictly better entries; every id of the arms is in
the map once, and every entry of an arm is ranked once; and where no two
scores of an arm are equal the result is the plain fusion of the ranked
ids. -/
theorem fuseScoredArms_tie_aware (F : Weights W)
    (arms : List (List (String × S) × Bool)) :
    (∀ arms', List.Forall₂ SameArm arms arms' →
        (fuseScoredArms F arms).Perm (fuseScoredArms F arms') ∧
          ∀ (K T : Type) [LinearOrder K] [LinearOrder T]
            (score : String × W → K) (ts : String → T),
            sortHits score ts (fuseScoredArms F arms) =
              sortHits score ts (fuseScoredArms F arms')) ∧
      (∀ arm ∈ arms, ∃ sorted : List (String × S), sorted.Perm arm.1 ∧
        rankWithTies arm.1 arm.2 = sorted.map fun e =>
          (e.1, competitionRank arm.2 arm.1 e.2)) ∧
      (((fuseScoredArms F arms).map Prod.fst).Nodup ∧
        ∀ id, id ∈ (fuseScoredArms F arms).map Prod.fst ↔
          ∃ arm ∈ arms, id ∈ arm.1.map Prod.fst) ∧
      ((∀ arm ∈ arms, (arm.1.map Prod.snd).Nodup) →
        fuseScoredArms F arms = rrfFuse F
          (arms.map fun arm => (sortScored arm.1 arm.2).map Prod.fst)) := by
  refine ⟨fun arms' h => ?_, fun arm _ => ?_, keys_fuseScoredArms F arms,
    fuseScoredArms_of_nodup F⟩
  · have hperm := fuseScoredArms_perm F h
    exact ⟨hperm, fun K T _ _ score ts =>
      sortHits_perm score ts (keys_fuseScoredArms F arms).1 hperm⟩
  · exact ⟨sortScored arm.1 arm.2, sortScored_perm arm.1 arm.2,
      rankWithTies_eq arm.1 arm.2⟩

/-- Two tied ids, handed over in either order. -/
theorem fuseScoredArms_tied (F : Weights W) :
    ((fuseScoredArms F [([("a", 3), ("b", 3)], true)]).Perm
        (fuseScoredArms F [([("b", 3), ("a", 3)], true)]) ∧
      ∀ (K T : Type) [LinearOrder K] [LinearOrder T]
        (score : String × W → K) (ts : String → T),
        sortHits score ts (fuseScoredArms F [([("a", 3), ("b", 3)], true)]) =
          sortHits score ts
            (fuseScoredArms F [([("b", 3), ("a", 3)], true)])) ∧
      fuseScoredArms F [([("a", 3), ("b", 4)], true)] =
        rrfFuse F [["a", "b"]] :=
  ⟨(fuseScoredArms_tie_aware F [([("a", 3), ("b", 3)], true)]).1
      [([("b", 3), ("a", 3)], true)]
      (.cons ⟨List.Perm.swap _ _ _, rfl⟩ .nil),
    (fuseScoredArms_tie_aware F [([("a", 3), ("b", 4)], true)]).2.2.2
      (by decide)⟩

end AirNote.Fusion
