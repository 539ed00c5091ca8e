import Mathlib.Data.List.Basic
import Mathlib.Data.List.Induction
import Mathlib.Tactic.Common

/-!
# Left folds read one fact at a time

A projection is a left fold of events into a record of sets. What a reader
asks of it is a single fact about the final accumulator — is this key in
that set? — and each event either establishes the fact, destroys it or
leaves it alone. The rules below turn such a step description into a
description of the whole fold: for facts that are only ever established, and
for facts that a later event may destroy again, where the last relevant
event decides.
-/

namespace AirNote.Lib.Fold

variable {σ ι : Type*} {f : σ → ι → σ}

/-- A fact only ever established: it holds in the end iff it held in the
beginning or some event establishes it. -/
theorem foldl_iff_exists (P : σ → Prop) (Q : ι → Prop)
    (hstep : ∀ s i, P (f s i) ↔ P s ∨ Q i)
    (s : σ) (l : List ι) : P (l.foldl f s) ↔ P s ∨ ∃ i ∈ l, Q i := by
  induction l generalizing s with
  | nil => simp
  | cons i rest ih =>
      rw [List.foldl_cons, ih (f s i), hstep s i]
      simp only [List.mem_cons, exists_eq_or_imp, or_assoc]

/-- The last event among those establishing or destroying a fact establishes
it. -/
def LastSets (Q R : ι → Prop) : List ι → Prop
  | [] => False
  | i :: rest =>
      LastSets Q R rest ∨ (Q i ∧ ∀ j ∈ rest, ¬ R j)

/-- A fact established by `Q` and destroyed by `R`: it holds in the end iff
the last relevant event establishes it, or it held in the beginning and no
event destroys it. -/
theorem foldl_iff_lastSets (P : σ → Prop) (Q R : ι → Prop)
    (hstep : ∀ s i, P (f s i) ↔ Q i ∨ (P s ∧ ¬ R i)) (s : σ)
    (l : List ι) :
    P (l.foldl f s) ↔ LastSets Q R l ∨ (P s ∧ ∀ i ∈ l, ¬ R i) := by
  induction l generalizing s with
  | nil => simp [LastSets]
  | cons i rest ih =>
      rw [List.foldl_cons, ih (f s i), hstep s i]
      simp only [LastSets, List.mem_cons, forall_eq_or_imp]
      constructor
      · rintro (h | ⟨hq | ⟨hp, hr⟩, hrest⟩)
        · exact .inl (.inl h)
        · exact .inl (.inr ⟨hq, hrest⟩)
        · exact .inr ⟨hp, hr, hrest⟩
      · rintro ((h | ⟨hq, hrest⟩) | ⟨hp, hr, hrest⟩)
        · exact .inl h
        · exact .inr ⟨.inl hq, hrest⟩
        · exact .inr ⟨.inr ⟨hp, hr⟩, hrest⟩

/-- Later events decide first. -/
theorem lastSets_append (Q R : ι → Prop) (l l' : List ι) :
    LastSets Q R (l ++ l') ↔
      LastSets Q R l' ∨ (LastSets Q R l ∧ ∀ j ∈ l', ¬ R j) := by
  induction l with
  | nil => simp [LastSets]
  | cons i rest ih =>
      simp only [List.cons_append, LastSets, ih, List.mem_append]
      constructor
      · rintro ((h | ⟨h, hl'⟩) | ⟨hq, hr⟩)
        · exact .inl h
        · exact .inr ⟨.inl h, hl'⟩
        · exact .inr ⟨.inr ⟨hq, fun j hj => hr j (.inl hj)⟩,
            fun j hj => hr j (.inr hj)⟩
      · rintro (h | ⟨h | ⟨hq, hrest⟩, hl'⟩)
        · exact .inl (.inl h)
        · exact .inl (.inr ⟨h, hl'⟩)
        · refine .inr ⟨hq, ?_⟩
          rintro j (hj | hj)
          · exact hrest j hj
          · exact hl' j hj

/-- Some event establishes the fact. -/
theorem exists_of_lastSets {Q R : ι → Prop} {l : List ι}
    (h : LastSets Q R l) : ∃ i ∈ l, Q i := by
  induction l with
  | nil => cases h
  | cons i rest ih =>
      rcases h with hrest | ⟨hq, -⟩
      · obtain ⟨j, hj, hqj⟩ := ih hrest
        exact ⟨j, List.mem_cons_of_mem i hj, hqj⟩
      · exact ⟨i, List.mem_cons_self, hq⟩

/-- Events that neither establish nor destroy the fact may be dropped. -/
theorem lastSets_filter (Q R : ι → Prop) {p : ι → Bool}
    (hq : ∀ i, Q i → p i = true) (hr : ∀ i, R i → p i = true)
    (l : List ι) : LastSets Q R (l.filter p) ↔ LastSets Q R l := by
  induction l with
  | nil => rfl
  | cons i rest ih =>
      have hall : (∀ j ∈ rest.filter p, ¬ R j) ↔ ∀ j ∈ rest, ¬ R j := by
        constructor
        · intro h j hj hrj
          exact h j (List.mem_filter.mpr ⟨hj, hr j hrj⟩) hrj
        · intro h j hj
          exact h j (List.mem_filter.mp hj).1
      by_cases hp : p i = true
      · rw [List.filter_cons_of_pos hp]
        simp only [LastSets, ih, hall]
      · rw [List.filter_cons_of_neg hp, ih]
        have hnq : ¬ Q i := fun h => hp (hq i h)
        simp only [LastSets, hnq, false_and, or_false]

/-- An invariant of the steps over the events of the list is an invariant of
the fold. -/
theorem foldl_inv (Inv : σ → Prop) {l : List ι} {s : σ} (hs : Inv s)
    (hstep : ∀ s, ∀ i ∈ l, Inv s → Inv (f s i)) : Inv (l.foldl f s) := by
  induction l generalizing s with
  | nil => exact hs
  | cons i rest ih =>
      have hfirst : Inv (f s i) := hstep s i (by simp) hs
      exact ih hfirst fun s j hj => hstep s j (List.mem_cons_of_mem i hj)

/-! ## The last event that answers

A projection that keeps the last answer is `findSome?` over the reversed
list. -/

section FindSome

variable {β : Type*}

theorem findSome?_congr {g h : ι → Option β} {l : List ι}
    (heq : ∀ i ∈ l, g i = h i) : l.findSome? g = l.findSome? h := by
  induction l with
  | nil => rfl
  | cons i rest ih =>
      have hhead : g i = h i := heq i (by simp)
      have htail := ih fun j hj => heq j (List.mem_cons_of_mem i hj)
      rw [List.findSome?_cons, List.findSome?_cons, hhead, htail]

/-- Events without an answer may be dropped. -/
theorem findSome?_filter {g : ι → Option β} {p : ι → Bool}
    (hp : ∀ i, p i = false → g i = none) (l : List ι) :
    (l.filter p).findSome? g = l.findSome? g := by
  induction l with
  | nil => rfl
  | cons i rest ih =>
      cases hi : p i with
      | true => rw [List.filter_cons_of_pos hi, List.findSome?_cons,
          List.findSome?_cons, ih]
      | false =>
          have hneg : ¬ p i = true := by simp [hi]
          rw [List.filter_cons_of_neg hneg, List.findSome?_cons, hp i hi, ih]

end FindSome

/-! ## Lists of keys and values -/

/-- Looking up a key in the mapped values maps what is found under it. -/
theorem lookup_map_snd {α β κ : Type*} [BEq κ] (f : α → β)
    (l : List (κ × α)) (k : κ) :
    (l.map fun x => (x.1, f x.2)).lookup k = (l.lookup k).map f := by
  induction l with
  | nil => rfl
  | cons x rest ih =>
      rw [List.map_cons, List.lookup_cons, List.lookup_cons, ih]
      cases k == x.1 with
      | true => rfl
      | false => rfl

/-! ## Maps that hold each value under its own key -/

section Keyed

variable {α : Type*} {key : α → String}

/-- Every value stands under its own key. -/
def KeyedBy (key : α → String) (acc : Std.TreeMap String α) : Prop :=
  ∀ (k : String) (v : α), acc[k]? = some v → key v = k

theorem keyedBy_empty : KeyedBy key (∅ : Std.TreeMap String α) := by
  intro k v h
  rw [Std.TreeMap.getElem?_emptyc] at h
  cases h

theorem KeyedBy.insert {acc : Std.TreeMap String α} (h : KeyedBy key acc)
    {k : String} {v : α} (hv : key v = k) : KeyedBy key (acc.insert k v) := by
  intro k' v' hget
  rw [Std.TreeMap.getElem?_insert] at hget
  split at hget
  · next hcmp =>
      rw [← Option.some.inj hget, hv]
      exact Std.LawfulEqCmp.eq_of_compare hcmp
  · exact h k' v' hget

/-- Reading the values of such a map is looking their keys up. -/
theorem KeyedBy.exists_value_iff {acc : Std.TreeMap String α}
    (h : KeyedBy key acc) (p : α → Prop) (k : String) :
    (∃ v ∈ acc.toList.map Prod.snd, key v = k ∧ p v) ↔
      ∃ v, acc[k]? = some v ∧ p v := by
  constructor
  · rintro ⟨v, hmem, hkey, hp⟩
    obtain ⟨⟨k', v'⟩, hpair, rfl⟩ := List.mem_map.mp hmem
    have hget : acc[k']? = some v' :=
      Std.TreeMap.mem_toList_iff_getElem?_eq_some.mp hpair
    have hk : k' = k := (h k' v' hget).symm.trans hkey
    rw [hk] at hget
    exact ⟨v', hget, hp⟩
  · rintro ⟨v, hget, hp⟩
    have hpair : (k, v) ∈ acc.toList :=
      Std.TreeMap.mem_toList_iff_getElem?_eq_some.mpr hget
    exact ⟨v, List.mem_map.mpr ⟨(k, v), hpair, rfl⟩, h k v hget, hp⟩

end Keyed

/-! ## The last row of each key -/

section Latest

variable {ε α : Type*}

/-- The value an event writes under `k`. -/
def rowAt (row : ε → Option (String × α)) (k : String) (i : ε) : Option α :=
  (row i).bind fun p => if p.1 = k then some p.2 else none

theorem rowAt_eq_some {row : ε → Option (String × α)} {k : String} {i : ε}
    {v : α} : rowAt row k i = some v ↔ row i = some (k, v) := by
  unfold rowAt
  cases hrow : row i with
  | none => simp
  | some p =>
      obtain ⟨k', v'⟩ := p
      simp [and_comm]

/-- Each event that writes a row replaces the one held under its key. -/
def latestMap (row : ε → Option (String × α)) (l : List ε) :
    Std.TreeMap String α :=
  l.foldl (fun acc i =>
    match row i with
    | some (k, v) => acc.insert k v
    | none => acc) ∅

/-- The rows held in the end, in the order of their keys. -/
def latest (row : ε → Option (String × α)) (l : List ε) : List α :=
  (latestMap row l).toList.map Prod.snd

/-- What is held under a key is what the last event wrote there. -/
theorem getElem?_latestMap (row : ε → Option (String × α)) (l : List ε)
    (k : String) :
    (latestMap row l)[k]? = l.reverse.findSome? (rowAt row k) := by
  induction l using List.reverseRecOn with
  | nil => simp [latestMap]
  | append_singleton l i ih =>
      rw [List.reverse_append, List.reverse_singleton, List.singleton_append,
        List.findSome?_cons, ← ih, latestMap, List.foldl_append,
        List.foldl_cons, List.foldl_nil]
      change (match row i with
        | some (k, v) => (latestMap row l).insert k v
        | none => latestMap row l)[k]? = _
      cases hrow : row i with
      | none => simp [rowAt, hrow]
      | some p =>
          obtain ⟨k', v⟩ := p
          dsimp only
          rw [Std.TreeMap.getElem?_insert]
          by_cases hk : k' = k
          · simp [rowAt, hrow, hk]
          · have hcmp : ¬ compare k' k = .eq := fun h =>
              hk (Std.LawfulEqCmp.eq_of_compare h)
            simp [rowAt, hrow, hk, hcmp]

/-- A row that is held was written by some event. -/
theorem exists_of_mem_latest {row : ε → Option (String × α)} {l : List ε}
    {v : α} (h : v ∈ latest row l) :
    ∃ k, (latestMap row l)[k]? = some v ∧ ∃ i ∈ l, row i = some (k, v) := by
  obtain ⟨⟨k, v'⟩, hpair, rfl⟩ := List.mem_map.mp h
  have hget : (latestMap row l)[k]? = some v' :=
    Std.TreeMap.mem_toList_iff_getElem?_eq_some.mp hpair
  refine ⟨k, hget, ?_⟩
  rw [getElem?_latestMap] at hget
  obtain ⟨i, hi, hrow⟩ := List.exists_of_findSome?_eq_some hget
  exact ⟨i, List.mem_reverse.mp hi, rowAt_eq_some.1 hrow⟩

section Keys

variable {row : ε → Option (String × α)} {key : α → String}
  (hkey : ∀ i k v, row i = some (k, v) → key v = k)
include hkey

theorem key_of_getElem?_latestMap {l : List ε} {k : String} {v : α}
    (h : (latestMap row l)[k]? = some v) : key v = k := by
  rw [getElem?_latestMap] at h
  obtain ⟨i, -, hrow⟩ := List.exists_of_findSome?_eq_some h
  exact hkey i k v (rowAt_eq_some.1 hrow)

/-- Where a row knows its key, the list finds under a key what the map holds
there. -/
theorem find?_latest (l : List ε) (k : String) :
    (latest row l).find? (fun v => key v == k) = (latestMap row l)[k]? := by
  cases hfind : (latest row l).find? fun v => key v == k with
  | none =>
      cases hmap : (latestMap row l)[k]? with
      | none => rfl
      | some v =>
          have hmem := Std.TreeMap.mem_toList_iff_getElem?_eq_some.mpr hmap
          have hnot := List.find?_eq_none.mp hfind v
            (List.mem_map.mpr ⟨_, hmem, rfl⟩)
          exact absurd (beq_iff_eq.mpr (key_of_getElem?_latestMap hkey hmap))
            hnot
  | some v =>
      obtain ⟨k', hget, -⟩ :=
        exists_of_mem_latest (List.mem_of_find?_eq_some hfind)
      have hk : key v = k := by simpa using List.find?_some hfind
      rw [← hk, key_of_getElem?_latestMap hkey hget, hget]

/-- No two rows of the list have one key. -/
theorem nodup_latest (l : List ε) : ((latest row l).map key).Nodup := by
  have hkeys : (latest row l).map key =
      (latestMap row l).toList.map Prod.fst := by
    rw [latest, List.map_map]
    refine List.map_congr_left ?_
    rintro ⟨k, v⟩ hmem
    rw [Std.TreeMap.mem_toList_iff_getElem?_eq_some] at hmem
    exact key_of_getElem?_latestMap hkey hmem
  rw [hkeys, List.Nodup, List.pairwise_map]
  refine Std.TreeMap.distinct_keys_toList.imp ?_
  intro a b hne heq
  exact hne (by rw [heq]; exact Std.ReflCmp.compare_self)

end Keys

end Latest

end AirNote.Lib.Fold
