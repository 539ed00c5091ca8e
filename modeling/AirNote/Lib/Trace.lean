import Mathlib.Data.List.Basic
import Mathlib.Tactic.Common

/-!
# Runs of a deterministic labelled system

A system is a total function `step : σ → ι → σ`: a state and a label give
the next state. Nondeterminism — which call comes next, what the
environment answers, how two parties interleave — is carried by the labels,
so that a statement quantifying over label sequences quantifies over every
behaviour. A refused step leaves the state as it is.

`run` folds a sequence of labels. `Meets` says that every step of a run
satisfies a condition on the state it starts from and its label; the
invariant rules come in two forms, for all runs and for the runs whose steps
meet such a condition.

## Main results

* `run_inv`, `run_inv_of_meets` — an invariant of the steps is an invariant
  of the runs.
* `run_take_inv_of_meets` — and holds in every state the run passes through.
-/

namespace AirNote.Lib.Trace

variable {σ ι : Type*}

/-- The state a sequence of labels leads to. -/
def run (step : σ → ι → σ) (s : σ) (labels : List ι) : σ :=
  labels.foldl step s

/-- Every step of the run satisfies `ok`, a condition on the state before the
step and on its label. -/
def Meets (step : σ → ι → σ) (ok : σ → ι → Prop) : σ → List ι → Prop
  | _, [] => True
  | s, i :: rest => ok s i ∧ Meets step ok (step s i) rest

variable {step : σ → ι → σ} {ok : σ → ι → Prop}

@[simp] theorem run_nil (s : σ) : run step s [] = s := rfl

@[simp] theorem run_cons (s : σ) (i : ι) (rest : List ι) :
    run step s (i :: rest) = run step (step s i) rest := rfl

theorem run_append (s : σ) (xs ys : List ι) :
    run step s (xs ++ ys) = run step (run step s xs) ys :=
  List.foldl_append

@[simp] theorem meets_nil (s : σ) : Meets step ok s [] := trivial

@[simp] theorem meets_cons (s : σ) (i : ι) (rest : List ι) :
    Meets step ok s (i :: rest) ↔
      ok s i ∧ Meets step ok (step s i) rest := Iff.rfl

theorem meets_append {s : σ} {xs ys : List ι} :
    Meets step ok s (xs ++ ys) ↔
      Meets step ok s xs ∧ Meets step ok (run step s xs) ys := by
  induction xs generalizing s with
  | nil => simp
  | cons i rest ih => simp [ih, and_assoc]

/-- A weaker condition is met wherever a stronger one is. -/
theorem Meets.mono {ok' : σ → ι → Prop} (himp : ∀ s i, ok s i → ok' s i) :
    ∀ {s : σ} {labels : List ι},
      Meets step ok s labels → Meets step ok' s labels := by
  intro s labels
  induction labels generalizing s with
  | nil => intro _; trivial
  | cons i rest ih =>
      intro h
      exact ⟨himp s i h.1, ih h.2⟩

/-- Two conditions are met together where each is met. -/
theorem Meets.and {ok' : σ → ι → Prop} {s : σ} {labels : List ι}
    (h : Meets step ok s labels) (h' : Meets step ok' s labels) :
    Meets step (fun s i => ok s i ∧ ok' s i) s labels := by
  induction labels generalizing s with
  | nil => trivial
  | cons i rest ih => exact ⟨⟨h.1, h'.1⟩, ih h.2 h'.2⟩

/-- What the steps preserve, the runs preserve. -/
theorem run_inv (Inv : σ → Prop)
    (hstep : ∀ s i, Inv s → Inv (step s i)) {s : σ} (hs : Inv s)
    (labels : List ι) : Inv (run step s labels) := by
  induction labels generalizing s with
  | nil => exact hs
  | cons i rest ih => exact ih (hstep s i hs)

/-- What the steps meeting `ok` preserve, the runs meeting `ok` preserve. -/
theorem run_inv_of_meets (Inv : σ → Prop)
    (hstep : ∀ s i, Inv s → ok s i → Inv (step s i))
    {s : σ} (hs : Inv s) {labels : List ι}
    (hmeets : Meets step ok s labels) : Inv (run step s labels) := by
  induction labels generalizing s with
  | nil => exact hs
  | cons i rest ih => exact ih (hstep s i hs hmeets.1) hmeets.2

/-- A run that meets the condition meets it in each of its prefixes. -/
theorem Meets.take {s : σ} {labels : List ι} (h : Meets step ok s labels)
    (n : Nat) : Meets step ok s (labels.take n) := by
  have hsplit : labels = labels.take n ++ labels.drop n :=
    (List.take_append_drop n labels).symm
  rw [hsplit] at h
  exact (meets_append.1 h).1

/-- The invariant holds in every state the run passes through. -/
theorem run_take_inv_of_meets (Inv : σ → Prop)
    (hstep : ∀ s i, Inv s → ok s i → Inv (step s i)) {s : σ} (hs : Inv s)
    {labels : List ι} (hmeets : Meets step ok s labels) (n : Nat) :
    Inv (run step s (labels.take n)) :=
  run_inv_of_meets Inv hstep hs (hmeets.take n)

/-- The run of an image is the image of the run. -/
theorem run_map_of_meets {τ : Type*} {step' : τ → ι → τ} (f : σ → τ)
    (hstep : ∀ s i, ok s i → step' (f s) i = f (step s i)) {s : σ}
    {labels : List ι} (h : Meets step ok s labels) :
    run step' (f s) labels = f (run step s labels) := by
  induction labels generalizing s with
  | nil => rfl
  | cons i rest ih => rw [run_cons, hstep s i h.1, ih h.2, run_cons]

/-- A condition that, where an invariant holds, follows from another. -/
theorem Meets.of_inv (Inv : σ → Prop) {ok' : σ → ι → Prop}
    (hstep : ∀ s i, Inv s → ok s i → Inv (step s i))
    (himp : ∀ s i, Inv s → ok s i → ok' s i) {s : σ} (hs : Inv s)
    {labels : List ι} (h : Meets step ok s labels) :
    Meets step ok' s labels := by
  induction labels generalizing s with
  | nil => trivial
  | cons i rest ih => exact ⟨himp s i hs h.1, ih (hstep s i hs h.1) h.2⟩

/-- Where `ok` says exactly which steps keep `P`, the runs whose steps are all
`ok` are exactly the runs that keep `P` in every state. -/
theorem forall_take_iff_meets (P : σ → Prop)
    (hstep : ∀ s i, P s → (P (step s i) ↔ ok s i)) {s : σ} (hs : P s)
    (labels : List ι) :
    (∀ n, P (run step s (labels.take n))) ↔ Meets step ok s labels := by
  induction labels generalizing s with
  | nil => simp [hs]
  | cons i rest ih =>
      constructor
      · intro h
        have hfirst : P (step s i) := h 1
        exact ⟨(hstep s i hs).mp hfirst, (ih hfirst).mp fun n => h (n + 1)⟩
      · rintro ⟨hok, hrest⟩ n
        have hfirst : P (step s i) := (hstep s i hs).mpr hok
        cases n with
        | zero => exact hs
        | succ n => exact (ih hfirst).mpr hrest n

/-- Every step of a run relates the states before and after it exactly where
each step meets that as a condition. -/
theorem forall_step_iff_meets (R : σ → σ → Prop) (hrefl : ∀ s, R s s) {s : σ}
    (labels : List ι) :
    (∀ n, R (run step s (labels.take n)) (run step s (labels.take (n + 1)))) ↔
      Meets step (fun s i => R s (step s i)) s labels := by
  induction labels generalizing s with
  | nil => simp [hrefl]
  | cons i rest ih =>
      constructor
      · intro h
        have hfirst : R s (step s i) := h 0
        exact ⟨hfirst, ih.mp fun n => h (n + 1)⟩
      · rintro ⟨hfirst, hrest⟩ n
        cases n with
        | zero => exact hfirst
        | succ n => exact ih.mpr hrest n

/-- An entry of a log stays where it is when the log grows. -/
theorem getElem?_append_of_eq_some {α : Type*} {log : List α} {n : Nat}
    {entry : α} (h : log[n]? = some entry) (more : List α) :
    (log ++ more)[n]? = some entry := by
  rw [List.getElem?_append_left (List.getElem?_eq_some_iff.mp h).1]
  exact h

/-- One more entry is read at its own place only. -/
theorem getElem?_concat_cases {α : Type*} (log : List α) (entry : α)
    (n : Nat) :
    (log ++ [entry])[n]? = log[n]? ∨
      (n = log.length ∧ (log ++ [entry])[n]? = some entry) := by
  rcases Nat.lt_trichotomy n log.length with hlt | heq | hgt
  · exact .inl (List.getElem?_append_left hlt)
  · exact .inr ⟨heq, heq ▸ List.getElem?_concat_length⟩
  · left
    rw [List.getElem?_eq_none (by simp; omega),
      List.getElem?_eq_none (Nat.le_of_lt hgt)]

end AirNote.Lib.Trace
