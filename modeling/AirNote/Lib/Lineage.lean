import Mathlib.Tactic.Common

/-!
# Marks along a derivation lineage

Entries name the entries they were derived from. Some identifiers resolve to
an entry, the others are missing; some entries carry a mark. `Reaches` is
the transitive question — does the lineage of an entry arrive at a marked
entry or at a missing identifier? — and `Closed` the local one, which looks
at direct sources only.

The point of an eager mark is that the local property answers the transitive
question: `Closed.marked_of_reaches`. A system that checks direct sources
when an entry is made never has to walk the lineage again.
-/

namespace AirNote.Lib.Lineage

variable {ι α : Type*} (sources : α → List ι) (resolve : ι → Option α)
  (marked : α → Prop)

/-- The lineage of an entry arrives at a missing identifier or at a marked
entry. -/
inductive Reaches : α → Prop where
  | missing {a : α} {i : ι} :
      i ∈ sources a → resolve i = none → Reaches a
  | marked {a b : α} {i : ι} :
      i ∈ sources a → resolve i = some b → marked b → Reaches a
  | through {a b : α} {i : ι} :
      i ∈ sources a → resolve i = some b → Reaches b → Reaches a

/-- The direct source `i` is missing or marked. -/
def TaintedSource (i : ι) : Prop :=
  ∀ b, resolve i = some b → marked b

/-- An entry with a missing or marked direct source is itself marked. -/
def ClosedAt (a : α) : Prop :=
  ∀ i ∈ sources a, TaintedSource resolve marked i → marked a

variable {sources resolve marked}

/-- Where every resolvable entry is closed, a mark anywhere in the lineage of
an entry has arrived at the entry. The induction is on the lineage. -/
theorem ClosedAt.marked_of_reaches
    (hall : ∀ i b, resolve i = some b → ClosedAt sources resolve marked b)
    {a : α} (ha : ClosedAt sources resolve marked a)
    (h : Reaches sources resolve marked a) : marked a := by
  induction h with
  | missing hi hnone =>
      refine ha _ hi ?_
      intro b hb
      rw [hnone] at hb
      cases hb
  | marked hi hsome hmark =>
      refine ha _ hi ?_
      intro c hc
      have hbc := Option.some.inj (hsome.symm.trans hc)
      exact hbc ▸ hmark
  | through hi hsome _ ih =>
      refine ha _ hi ?_
      intro c hc
      have hbc := Option.some.inj (hsome.symm.trans hc)
      exact hbc ▸ ih (hall _ _ hsome)

end AirNote.Lib.Lineage
