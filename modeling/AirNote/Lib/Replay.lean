import Mathlib.Data.List.Basic
import Mathlib.Tactic.Common

/-!
# Replaying assignments from a checkpoint

A cell is assigned the values of a queue in order. A pass over the queue keeps
a copy of the cell and writes a value only where the copy differs, or writes it
anyway. It may be cut off after any value; the next pass starts again from the
last checkpoint, with the copy it started from before or with the cell as it
is. A pass that ends by itself moves the checkpoint up to where it ended, and
takes a new copy if it has written anything.

Whatever was cut off, once the queue is empty the cell holds what assigning
every value in order leaves there. A pass does not write every value, and the
writes of a pass cut off may come again; what is sure is that a flag which the
values of the queue lower is lowered by some pass.

## Main results

* `Passing.skip`, `Passing.write`, `Passing.abort`, `Passing.finish` — what one
  value, a cut and the end of a pass preserve.
* `Settles.done` — an empty queue leaves the cell as the values say.
-/

namespace AirNote.Lib.Replay

variable {α : Type*}

/-- What assigning the values in order leaves in a cell. -/
def final (vs : List α) (s : α) : α := vs.foldl (fun _ v => v) s

@[simp] theorem final_nil (s : α) : final [] s = s := rfl

@[simp] theorem final_cons (v : α) (vs : List α) (s : α) :
    final (v :: vs) s = final vs v := rfl

theorem final_append (xs ys : List α) (s : α) :
    final (xs ++ ys) s = final ys (final xs s) := List.foldl_append

theorem final_concat (vs : List α) (v s : α) : final (vs ++ [v]) s = v := by
  rw [final_append, final_cons, final_nil]

/-- Where every value is the same, that value is left, unless there is none. -/
theorem final_of_forall_eq {vs : List α} {p : α} (h : ∀ v ∈ vs, v = p)
    (hne : vs ≠ []) (s : α) : final vs s = p := by
  induction vs generalizing s with
  | nil => exact absurd rfl hne
  | cons v rest ih =>
      rw [final_cons]
      have hv : v = p := h v List.mem_cons_self
      by_cases hrest : rest = []
      · rw [hrest, final_nil, hv]
      · exact ih (fun w hw => h w (List.mem_cons_of_mem v hw)) hrest v

/-! ## Between the passes -/

/-- Between two passes: the values still queued, what the values before the
checkpoint leave, the cell and the copy. If the next pass wrote nothing, the
cell would be right as it is. -/
def Settles (vs : List α) (s a p : α) : Prop :=
  (∀ v ∈ vs, v = p) → a = final vs s

theorem settles_start (vs : List α) (s : α) : Settles vs s s s := by
  intro h
  by_cases hne : vs = []
  · rw [hne, final_nil]
  · rw [final_of_forall_eq h hne]

theorem Settles.done {s a p : α} (h : Settles [] s a p) : a = s :=
  h (by simp)

/-- The copy is taken anew. -/
theorem Settles.refresh {vs : List α} {s a p : α} (h : Settles vs s a p) :
    Settles vs s a a := by
  intro hall
  by_cases hne : vs = []
  · rw [hne] at h ⊢
    exact h.done
  · rw [final_of_forall_eq hall hne]

/-! ## Within a pass -/

/-- Within a pass that has gone through `done`: its copy is `t`, and `wrote`
tells whether it has written a value, to this cell or to another. -/
def Tracks (done rest : List α) (s a p t : α) (wrote : Bool) : Prop :=
  (t = p ∧ (∀ v ∈ done, v = p) ∧ Settles (done ++ rest) s a p) ∨
  (wrote = true ∧ done ≠ [] ∧ a = t ∧ t = final done s)

theorem Settles.tracks {vs : List α} {s a p : α} (h : Settles vs s a p) :
    Tracks [] vs s a p p false :=
  .inl ⟨rfl, by simp, h⟩

/-- Another cell is written. -/
theorem Tracks.other {done rest : List α} {s a p t : α} {wrote : Bool}
    (h : Tracks done rest s a p t wrote) : Tracks done rest s a p t true := by
  rcases h with hleft | ⟨-, hright⟩
  · exact .inl hleft
  · exact .inr ⟨rfl, hright⟩

/-- The copy has the value already, and nothing is written. -/
theorem Tracks.skip {done rest : List α} {s a p t : α} {wrote : Bool}
    (h : Tracks done (t :: rest) s a p t wrote) :
    Tracks (done ++ [t]) rest s a p t wrote := by
  rcases h with ⟨htp, hall, hsettles⟩ | ⟨hwrote, hne, hat, -⟩
  · refine .inl ⟨htp, ?_, ?_⟩
    · intro v hv
      rcases List.mem_append.mp hv with hold | hnew
      · exact hall v hold
      · rw [List.mem_singleton.mp hnew, htp]
    · rw [List.append_assoc]
      exact hsettles
  · refine .inr ⟨hwrote, by simp, hat, ?_⟩
    rw [final_concat]

/-- The value is written. -/
theorem Tracks.write {done rest : List α} {s a p t : α} (v : α) {wrote : Bool}
    (_ : Tracks done (v :: rest) s a p t wrote) :
    Tracks (done ++ [v]) rest s v p v true :=
  .inr ⟨rfl, by simp, rfl, (final_concat done v s).symm⟩

/-- The pass is cut off. -/
theorem Tracks.abort {done rest : List α} {s a p t : α} {wrote : Bool}
    (h : Tracks done rest s a p t wrote) : Settles (done ++ rest) s a p := by
  rcases h with ⟨-, -, hsettles⟩ | ⟨-, hne, hat, ht⟩
  · exact hsettles
  · intro hall
    have hdone : final done s = p :=
      final_of_forall_eq (fun v hv => hall v (List.mem_append_left rest hv))
        hne s
    have hboth : done ++ rest ≠ [] := by simp [hne]
    rw [final_of_forall_eq hall hboth, hat, ht, hdone]

/-- The pass ends; the new copy is the cell, unless nothing was written. -/
theorem Tracks.finish {done rest : List α} {s a p t p' : α} {wrote : Bool}
    (h : Tracks done rest s a p t wrote)
    (hcopy : p' = a ∨ (wrote = false ∧ p' = p)) :
    Settles rest (final done s) a p' := by
  have hsettles : Settles rest (final done s) a a := by
    rcases h with ⟨-, hall, hsettles⟩ | ⟨-, -, hat, ht⟩
    · intro hrest
      by_cases hne : rest = []
      · rw [hne, List.append_nil] at hsettles
        rw [hne, final_nil]
        exact hsettles hall
      · rw [final_of_forall_eq hrest hne]
    · rw [← ht, ← hat]
      exact settles_start rest a
  rcases hcopy with rfl | ⟨hwrote, rfl⟩
  · exact hsettles
  · rcases h with ⟨-, hall, hboth⟩ | ⟨htrue, -⟩
    · intro hrest
      rw [← final_append]
      refine hboth ?_
      intro v hv
      rcases List.mem_append.mp hv with hold | hnew
      · exact hall v hold
      · exact hrest v hnew
    · rw [hwrote] at htrue
      cases htrue

/-! ## Flags that are lowered -/

/-- The values lower a flag: one of them is `false` where those before it leave
`true`. -/
def Drops : List Bool → Bool → Prop
  | [], _ => False
  | v :: vs, s => (v = false ∧ s = true) ∨ Drops vs v

theorem drops_append {xs ys : List Bool} {s : Bool} :
    Drops (xs ++ ys) s ↔ Drops xs s ∨ Drops ys (final xs s) := by
  induction xs generalizing s with
  | nil => simp [Drops]
  | cons x xs ih =>
      rw [List.cons_append, Drops, Drops, ih, final_cons, or_assoc]

theorem drops_concat {vs : List Bool} {v s : Bool} :
    Drops (vs ++ [v]) s ↔ Drops vs s ∨ (v = false ∧ final vs s = true) := by
  rw [drops_append]
  simp [Drops]

/-- Within a pass, with `r` telling whether any pass has lowered the flag: a
flag that should be raised, or was raised in the copy, is raised in the cell
unless it was lowered. -/
structure Lowers (done : List Bool) (s a p t : Bool) (r : Prop) : Prop where
  start : s = true → p = true ∨ r
  copy : p = true → a = true ∨ r
  due : final done s = true → t = true ∨ r
  kept : t = true → a = true ∨ r
  drops : Drops done s → r

theorem Lowers.skip {done : List Bool} {s a p t : Bool} {r : Prop}
    (h : Lowers done s a p t r) : Lowers (done ++ [t]) s a p t r where
  start := h.start
  copy := h.copy
  due := by
    rw [final_concat]
    exact .inl
  kept := h.kept
  drops := by
    rw [drops_concat]
    rintro (hdone | ⟨hfalse, hdue⟩)
    · exact h.drops hdone
    · rcases h.due hdue with htrue | hr
      · rw [hfalse] at htrue
        cases htrue
      · exact hr

theorem Lowers.write {done : List Bool} {s a p t : Bool} {r : Prop} (v : Bool)
    (h : Lowers done s a p t r) :
    Lowers (done ++ [v]) s v p v (r ∨ v = false) where
  start := by
    intro hs
    rcases h.start hs with hp | hr
    · exact .inl hp
    · exact .inr (.inl hr)
  copy := by
    intro _
    cases v <;> simp
  due := by
    rw [final_concat]
    exact .inl
  kept := .inl
  drops := by
    rw [drops_concat]
    rintro (hdone | ⟨hfalse, -⟩)
    · exact .inl (h.drops hdone)
    · exact .inr hfalse

/-- No pass was cut off: the cell and the copy are what the values leave, and
the flag was lowered only where the values lower it. -/
structure Follows (done : List Bool) (s a t : Bool) (r : Prop) : Prop where
  cell : a = t
  copy : t = final done s
  drops : r → Drops done s

theorem Follows.skip {done : List Bool} {s a t : Bool} {r : Prop}
    (h : Follows done s a t r) : Follows (done ++ [t]) s a t r where
  cell := h.cell
  copy := (final_concat done t s).symm
  drops := fun hr => drops_concat.2 (.inl (h.drops hr))

theorem Follows.write {done : List Bool} {s a t : Bool} {r : Prop} (v : Bool)
    (h : Follows done s a t r) (hv : v = false → t = true ∨ r) :
    Follows (done ++ [v]) s v v (r ∨ v = false) where
  cell := rfl
  copy := (final_concat done v s).symm
  drops := by
    rw [drops_concat]
    rintro (hr | hfalse)
    · exact .inl (h.drops hr)
    · rcases hv hfalse with ht | hr
      · exact .inr ⟨hfalse, h.copy.symm.trans ht⟩
      · exact .inl (h.drops hr)

/-! ## A flag over the whole run -/

/-- Between two passes, `before` the checkpoint and `rest` behind it; `whole`
says that no pass was cut off. -/
structure Resting (whole : Prop) (before rest : List Bool) (s a p : Bool)
    (r : Prop) : Prop where
  settles : Settles rest (final before s) a p
  start : final before s = true → p = true ∨ r
  copy : p = true → a = true ∨ r
  drops : Drops before s → r
  follows : whole → Follows before s a p r

/-- Within a pass that has gone through `done`. -/
structure Passing (whole : Prop) (before done rest : List Bool)
    (s a p t : Bool) (wrote : Bool) (r : Prop) : Prop where
  tracks : Tracks done rest (final before s) a p t wrote
  lowers : Lowers done (final before s) a p t r
  drops : Drops before s → r
  follows : whole → Follows (before ++ done) s a t r

variable {whole r r' : Prop} {before done rest vs : List Bool}
  {s a p p' t : Bool} {wrote : Bool}

theorem resting_start (whole : Prop) (rest : List Bool) (s : Bool) :
    Resting whole [] rest s s s False where
  settles := settles_start rest s
  start := .inl
  copy := .inl
  drops := id
  follows := fun _ => ⟨rfl, rfl, False.elim⟩

/-- The copy is taken anew. -/
theorem Resting.refresh (h : Resting whole before rest s a p r) :
    Resting whole before rest s a a r where
  settles := h.settles.refresh
  start := by
    intro hs
    rcases h.start hs with hp | hr
    · exact h.copy hp
    · exact .inr hr
  copy := .inl
  drops := h.drops
  follows := by
    intro hwhole
    have hfollows := h.follows hwhole
    exact ⟨rfl, hfollows.cell.trans hfollows.copy, hfollows.drops⟩

theorem Resting.begin (h : Resting whole before rest s a p r) :
    Passing whole before [] rest s a p p false r where
  tracks := h.settles.tracks
  lowers :=
    { start := h.start
      copy := h.copy
      due := h.start
      kept := h.copy
      drops := False.elim }
  drops := h.drops
  follows := by
    rw [List.append_nil]
    exact h.follows

theorem Passing.other (h : Passing whole before done rest s a p t wrote r) :
    Passing whole before done rest s a p t true r :=
  { h with tracks := h.tracks.other }

theorem Passing.skip
    (h : Passing whole before done (t :: rest) s a p t wrote r) :
    Passing whole before (done ++ [t]) rest s a p t wrote r where
  tracks := h.tracks.skip
  lowers := h.lowers.skip
  drops := h.drops
  follows := by
    intro hwhole
    rw [← List.append_assoc]
    exact (h.follows hwhole).skip

/-- Values that the copy has already are passed over. -/
theorem Passing.skips (hvs : ∀ v ∈ vs, v = t)
    (h : Passing whole before done (vs ++ rest) s a p t wrote r) :
    Passing whole before (done ++ vs) rest s a p t wrote r := by
  induction vs generalizing done with
  | nil =>
      rw [List.append_nil]
      exact h
  | cons v vs ih =>
      have hv : v = t := hvs v List.mem_cons_self
      rw [hv, List.cons_append] at h
      have hrest := ih (fun w hw => hvs w (List.mem_cons_of_mem v hw)) h.skip
      rw [hv]
      rwa [List.append_assoc, List.singleton_append] at hrest

theorem Passing.write (v : Bool)
    (h : Passing whole before done (v :: rest) s a p t wrote r)
    (hv : v = false → t = true ∨ r) :
    Passing whole before (done ++ [v]) rest s v p v true (r ∨ v = false) where
  tracks := h.tracks.write v
  lowers := h.lowers.write v
  drops := fun hdrops => .inl (h.drops hdrops)
  follows := by
    intro hwhole
    rw [← List.append_assoc]
    exact (h.follows hwhole).write v hv

theorem Passing.abort (hwhole : ¬ whole)
    (h : Passing whole before done rest s a p t wrote r) :
    Resting whole before (done ++ rest) s a p r where
  settles := h.tracks.abort
  start := h.lowers.start
  copy := h.lowers.copy
  drops := h.drops
  follows := fun hw => absurd hw hwhole

theorem Passing.finish
    (h : Passing whole before done rest s a p t wrote r)
    (hcopy : p' = a ∨ (wrote = false ∧ p' = p)) :
    Resting whole (before ++ done) rest s a p' r where
  settles := by
    rw [final_append]
    exact h.tracks.finish hcopy
  start := by
    rw [final_append]
    intro hs
    rcases hcopy with rfl | ⟨hwrote, rfl⟩
    · rcases h.lowers.due hs with ht | hr
      · exact h.lowers.kept ht
      · exact .inr hr
    · rcases h.tracks with ⟨htp, -⟩ | ⟨htrue, -⟩
      · rw [← htp]
        exact h.lowers.due hs
      · rw [hwrote] at htrue
        cases htrue
  copy := by
    intro hp
    rcases hcopy with rfl | ⟨-, rfl⟩
    · exact .inl hp
    · exact h.lowers.copy hp
  drops := by
    rw [drops_append]
    rintro (hdrops | hdrops)
    · exact h.drops hdrops
    · exact h.lowers.drops hdrops
  follows := by
    intro hwhole
    have hfollows := h.follows hwhole
    have hcell : a = p' := by
      rcases hcopy with rfl | ⟨hwrote, rfl⟩
      · rfl
      · rcases h.tracks with ⟨htp, -⟩ | ⟨htrue, -⟩
        · exact hfollows.cell.trans htp
        · rw [hwrote] at htrue
          cases htrue
    refine ⟨hcell, ?_, hfollows.drops⟩
    rw [← hcell, hfollows.cell]
    exact hfollows.copy

end AirNote.Lib.Replay
