import AirNote.Lib.Trace
import Mathlib.Logic.Function.Basic

/-!
# A file that processes read, change and write back

Each call of a process reads the whole file, computes what is to be written
and what it returns, and writes the whole file. Nothing locks the file between
the two, so that calls of other processes may write in between; what they
wrote is then overwritten.

`perform` is what a call does to the content it read: `none` where it fails
and writes nothing. A call is *undisturbed* when the file still has the
content the call read at the moment it is written. A run of undisturbed calls
is a sequence of calls made one at a time, in the order of their writes.

## Main results

* `exec_undisturbed` — what an undisturbed step does, as a call on its own.
* `run_inv_of_serial` — what calls made one at a time preserve, a run of
  undisturbed calls preserves.
-/

namespace AirNote.Lib

variable {σ κ ρ : Type*}

/-- The file, the calls that have read it and not written yet, and what calls
have returned. -/
structure SharedFile (σ κ ρ : Type*) where
  content : σ
  reading : Nat → Option (κ × σ)
  returned : List ρ

/-- A process begins a call by reading the file, and ends it. -/
inductive FileStep (κ : Type*) where
  | load (pid : Nat) (call : κ)
  | save (pid : Nat)

namespace SharedFile

/-- No process has read the file yet. -/
def opened (content : σ) : SharedFile σ κ ρ := ⟨content, fun _ => none, []⟩

/-- A process has one call at a time. -/
def load (w : SharedFile σ κ ρ) (pid : Nat) (call : κ) : SharedFile σ κ ρ :=
  match w.reading pid with
  | some _ => w
  | none =>
      { w with reading :=
          Function.update w.reading pid (some (call, w.content)) }

/-- The call ends: with an error, or with the file written. -/
def save (perform : κ → σ → Option (σ × ρ)) (w : SharedFile σ κ ρ)
    (pid : Nat) : SharedFile σ κ ρ :=
  match w.reading pid with
  | none => w
  | some (call, read) =>
      match perform call read with
      | none => { w with reading := Function.update w.reading pid none }
      | some (written, result) =>
          { content := written
            reading := Function.update w.reading pid none
            returned := w.returned ++ [result] }

def exec (perform : κ → σ → Option (σ × ρ)) (w : SharedFile σ κ ρ) :
    FileStep κ → SharedFile σ κ ρ
  | .load pid call => w.load pid call
  | .save pid => w.save perform pid

/-- The call that ends finds the file as it read it, and satisfies `ok`
there. -/
def Undisturbed (ok : κ → σ → Prop) (w : SharedFile σ κ ρ) :
    FileStep κ → Prop
  | .load _ _ => True
  | .save pid => ∀ call read, w.reading pid = some (call, read) →
      w.content = read ∧ ok call read

variable {perform : κ → σ → Option (σ × ρ)} {ok : κ → σ → Prop}
  {w : SharedFile σ κ ρ}

theorem load_content (pid : Nat) (call : κ) :
    (w.load pid call).content = w.content ∧
      (w.load pid call).returned = w.returned := by
  unfold load
  split <;> exact ⟨rfl, rfl⟩

/-- A call that finds the file as it read it has done its work to the file as
it is. -/
theorem save_undisturbed {pid : Nat}
    (h : Undisturbed ok w (.save pid)) :
    ((w.save perform pid).content = w.content ∧
        (w.save perform pid).returned = w.returned) ∨
      ∃ call result, ok call w.content ∧
        perform call w.content =
          some ((w.save perform pid).content, result) ∧
        (w.save perform pid).returned = w.returned ++ [result] := by
  unfold save
  cases hread : w.reading pid with
  | none => exact Or.inl ⟨rfl, rfl⟩
  | some pair =>
      obtain ⟨call, read⟩ := pair
      obtain ⟨hsame, hok⟩ := h call read hread
      subst hsame
      cases hperform : perform call w.content with
      | none =>
          simp only [hperform]
          exact Or.inl ⟨trivial, trivial⟩
      | some written =>
          simp only [hperform]
          exact Or.inr ⟨call, written.2, hok, hperform, rfl⟩

/-- An undisturbed step leaves the file and the results as they are, or does
one call to the file as it is. -/
theorem exec_undisturbed (perform : κ → σ → Option (σ × ρ))
    {step : FileStep κ} (h : Undisturbed ok w step) :
    ((w.exec perform step).content = w.content ∧
        (w.exec perform step).returned = w.returned) ∨
      ∃ call result, ok call w.content ∧
        perform call w.content =
          some ((w.exec perform step).content, result) ∧
        (w.exec perform step).returned = w.returned ++ [result] := by
  cases step with
  | load pid call => exact Or.inl (load_content pid call)
  | save pid => exact save_undisturbed h

/-- A call of a process that nobody writes in between is undisturbed. -/
theorem meets_turn {pid : Nat} {call : κ} (hidle : w.reading pid = none)
    (hok : ok call w.content) :
    Trace.Meets (exec perform) (Undisturbed ok) w
      [.load pid call, .save pid] := by
  refine ⟨trivial, ?_, trivial⟩
  intro call' read hread
  change (w.load pid call).reading pid = _ at hread
  change (w.load pid call).content = _ ∧ _
  simp only [load, hidle, Function.update_self, Option.some.injEq,
    Prod.mk.injEq] at hread ⊢
  obtain ⟨rfl, rfl⟩ := hread
  exact ⟨rfl, hok⟩

/-- A step preserves what a call made on its own preserves. -/
theorem exec_inv (Inv : σ → List ρ → Prop)
    (hcall : ∀ call s s' result log, Inv s log → ok call s →
      perform call s = some (s', result) → Inv s' (log ++ [result]))
    {step : FileStep κ} (hw : Inv w.content w.returned)
    (h : Undisturbed ok w step) :
    Inv (w.exec perform step).content (w.exec perform step).returned := by
  rcases exec_undisturbed perform h with
    ⟨hcontent, hreturned⟩ | ⟨call, result, hok, hperform, hreturned⟩
  · rw [hcontent, hreturned]
    exact hw
  · rw [hreturned]
    exact hcall call _ _ result _ hw hok hperform

/-- What calls made one at a time preserve holds in every state of a run
whose calls are undisturbed. -/
theorem run_inv_of_serial (Inv : σ → List ρ → Prop)
    (hcall : ∀ call s s' result log, Inv s log → ok call s →
      perform call s = some (s', result) → Inv s' (log ++ [result]))
    {steps : List (FileStep κ)} (hw : Inv w.content w.returned)
    (h : Trace.Meets (exec perform) (Undisturbed ok) w steps) (n : Nat) :
    Inv (Trace.run (exec perform) w (steps.take n)).content
      (Trace.run (exec perform) w (steps.take n)).returned :=
  Trace.run_take_inv_of_meets
    (fun w : SharedFile σ κ ρ => Inv w.content w.returned)
    (fun _ _ hw h => exec_inv Inv hcall hw h) hw h n

end SharedFile

end AirNote.Lib
