import Mathlib.Algebra.Order.Ring.Int
import Mathlib.Data.List.Infix
import Mathlib.Tactic.Common

/-!
# Texts between markers

A document sets text apart by writing it between an opening and a closing
marker. A reader finds the markers from the left, so that a text that holds a
marker of its own moves the borders. Texts without markers do not: a document
made of them reads back as it was made.

## Main results

* `not_infix_replaceAll` — replacing the marker takes it out of a text, and
  brings no other one in, where the replacement shares no border with them.
* `markerFree_replaceEach` — replacing every marker leaves none.
* `readFences_render` — a document whose texts hold no marker reads back.
-/

namespace AirNote.Lib.Fence

variable {α : Type*} [DecidableEq α]

/-! ## Borders -/

/-- Neither text starts with the other. -/
def Apart (a b : List α) : Prop := ¬ a <+: b ∧ ¬ b <+: a

instance (a b : List α) : Decidable (Apart a b) := instDecidableAnd

/-- No part of `b` starts inside `a` and runs to its end or beyond. -/
def Clear (a b : List α) : Prop := ∀ v ∈ a.tails, v = [] ∨ Apart v b

instance (a b : List α) : Decidable (Clear a b) :=
  inferInstanceAs (Decidable (∀ v ∈ a.tails, v = [] ∨ Apart v b))

omit [DecidableEq α] in
theorem Clear.apart {a b v : List α} (h : Clear a b) (hv : v <:+ a)
    (hne : v ≠ []) : Apart v b :=
  (h v ((List.mem_tails v a).mpr hv)).resolve_left hne

omit [DecidableEq α] in
theorem Apart.not_prefix_append {a b rest : List α} (h : Apart a b) :
    ¬ a <+: b ++ rest := by
  intro hpre
  rcases List.prefix_or_prefix_of_prefix hpre (List.prefix_append b rest) with
    hab | hba
  · exact h.1 hab
  · exact h.2 hba

omit [DecidableEq α] in
/-- A text `m` that no end of `a` can start stands in `a ++ rest` only where
it stands in the rest. -/
theorem not_infix_append_of_clear {a m rest : List α} (h : Clear a m)
    (hrest : ¬ m <:+: rest) : ¬ m <:+: a ++ rest := by
  induction a with
  | nil => exact hrest
  | cons c a ih =>
      have htail : Clear a m := fun v hv =>
        h v ((List.mem_tails v (c :: a)).mpr
          (((List.mem_tails v a).mp hv).trans (List.suffix_cons c a)))
      have hhead : Apart m (c :: a) :=
        (h.apart (List.suffix_refl _) (List.cons_ne_nil c a)).symm
      rw [List.cons_append, List.infix_cons_iff, not_or]
      exact ⟨hhead.not_prefix_append, ih htail⟩

/-! ## Replacing -/

/-- `str::replace` from the left, with `skip` elements of a match to pass. -/
def replaceFrom (pat sub : List α) : Nat → List α → List α
  | _, [] => []
  | skip + 1, _ :: cs => replaceFrom pat sub skip cs
  | 0, c :: cs =>
      if pat <+: c :: cs then sub ++ replaceFrom pat sub (pat.length - 1) cs
      else c :: replaceFrom pat sub 0 cs

/-- `str::replace`. -/
def replaceAll (pat sub text : List α) : List α := replaceFrom pat sub 0 text

/-- What a replaced text starts with, it started with before. -/
theorem prefix_of_prefix_replaceFrom {pat sub m : List α} (hsub : Clear m sub)
    (text : List α) : ∀ v, v <:+ m → v <+: replaceFrom pat sub 0 text →
      v <+: text := by
  induction text with
  | nil => exact fun v _ hv => hv
  | cons c cs ih =>
      intro v hvm hv
      rw [replaceFrom] at hv
      by_cases hne : v = []
      · rw [hne]
        exact List.nil_prefix
      by_cases hpat : pat <+: c :: cs
      · rw [if_pos hpat] at hv
        exact absurd hv (hsub.apart hvm hne).not_prefix_append
      · rw [if_neg hpat] at hv
        cases v with
        | nil => exact absurd rfl hne
        | cons d v =>
            obtain ⟨rfl, hrest⟩ := List.cons_prefix_cons.mp hv
            have hsuffix : v <:+ m := (List.suffix_cons d v).trans hvm
            exact List.cons_prefix_cons.mpr ⟨rfl, ih v hsuffix hrest⟩

theorem not_infix_replaceFrom {pat sub m : List α} (hm : m ≠ [])
    (hsub : Clear m sub) (hfrom : Clear sub m) (text : List α)
    (hstart : ∀ v, v <:+ text → m <+: v → pat <+: v) :
    ∀ skip, ¬ m <:+: replaceFrom pat sub skip text := by
  have hempty : ¬ m <:+: [] := fun h => hm (List.infix_nil.mp h)
  induction text with
  | nil => exact fun skip => by simpa [replaceFrom] using hm
  | cons c cs ih =>
      have hcs := ih fun v hv => hstart v (hv.trans (List.suffix_cons c cs))
      intro skip
      cases skip with
      | succ skip => exact hcs skip
      | zero =>
          rw [replaceFrom]
          by_cases hpat : pat <+: c :: cs
          · rw [if_pos hpat]
            exact not_infix_append_of_clear hfrom (hcs _)
          · rw [if_neg hpat, List.infix_cons_iff, not_or]
            refine ⟨fun hpre => ?_, hcs 0⟩
            have hout : m <+: replaceFrom pat sub 0 (c :: cs) := by
              rw [replaceFrom, if_neg hpat]
              exact hpre
            have hbefore := prefix_of_prefix_replaceFrom hsub (c :: cs) m
              (List.suffix_refl m) hout
            exact hpat (hstart _ (List.suffix_refl _) hbefore)

/-- A replacement leaves no marker that was not in the text, and leaves none
of the marker it replaces. -/
theorem not_infix_replaceAll {pat sub m : List α} (hm : m ≠ [])
    (hsub : Clear m sub) (hfrom : Clear sub m) {text : List α}
    (h : m = pat ∨ ¬ m <:+: text) : ¬ m <:+: replaceAll pat sub text := by
  apply not_infix_replaceFrom hm hsub hfrom
  intro v hv hpre
  rcases h with rfl | hnot
  · exact hpre
  · exact absurd (hpre.isInfix.trans hv.isInfix) hnot

/-! ## Texts without markers -/

/-- None of the markers stands in the text. -/
def MarkerFree (ms : List (List α)) (text : List α) : Prop :=
  ∀ m ∈ ms, ¬ m <:+: text

instance (ms : List (List α)) (text : List α) :
    Decidable (MarkerFree ms text) :=
  inferInstanceAs (Decidable (∀ m ∈ ms, ¬ m <:+: text))

/-- A text without markers at whose end no marker can begin. -/
def Closed (ms : List (List α)) (text : List α) : Prop :=
  MarkerFree ms text ∧ ∀ z ∈ text.getLast?, ∀ m ∈ ms, z ∉ m

instance (ms : List (List α)) (text : List α) : Decidable (Closed ms text) :=
  inferInstanceAs (Decidable (_ ∧ ∀ z ∈ text.getLast?, ∀ m ∈ ms, z ∉ m))

/-- A text without markers that can stand after any other. -/
def Bridge (ms : List (List α)) (text : List α) : Prop :=
  Closed ms text ∧ text ≠ [] ∧ ∀ z ∈ text.head?, ∀ m ∈ ms, z ∉ m

instance (ms : List (List α)) (text : List α) : Decidable (Bridge ms text) :=
  inferInstanceAs (Decidable (_ ∧ text ≠ [] ∧
    ∀ z ∈ text.head?, ∀ m ∈ ms, z ∉ m))

variable {ms : List (List α)}

/-- A list of replacements, one after the other. -/
def replaceEach (steps : List (List α × List α)) (text : List α) : List α :=
  steps.foldl (fun t step => replaceAll step.1 step.2 t) text

/-- The replacements bring no marker into a text, and each marker is replaced
by one of them. -/
def Defuses (ms : List (List α)) (steps : List (List α × List α)) : Prop :=
  ∀ m ∈ ms, m ≠ [] ∧
    (∀ step ∈ steps, Clear m step.2 ∧ Clear step.2 m) ∧
    ∃ step ∈ steps, step.1 = m

instance (ms : List (List α)) (steps : List (List α × List α)) :
    Decidable (Defuses ms steps) :=
  inferInstanceAs (Decidable (∀ m ∈ ms, _ ∧ _ ∧ ∃ step ∈ steps, step.1 = m))

theorem not_infix_replaceEach {m : List α}
    {steps : List (List α × List α)} (hm : m ≠ [])
    (hclear : ∀ step ∈ steps, Clear m step.2 ∧ Clear step.2 m) :
    ∀ {text : List α}, ((∃ step ∈ steps, step.1 = m) ∨ ¬ m <:+: text) →
      ¬ m <:+: replaceEach steps text := by
  induction steps with
  | nil =>
      intro text h
      exact h.resolve_left (by simp)
  | cons step steps ih =>
      intro text h
      obtain ⟨⟨hsub, hfrom⟩, hothers⟩ := List.forall_mem_cons.mp hclear
      show ¬ m <:+: replaceEach steps (replaceAll step.1 step.2 text)
      apply ih hothers
      by_cases hpat : m = step.1
      · exact Or.inr (not_infix_replaceAll hm hsub hfrom (Or.inl hpat))
      rcases h with ⟨step', hstep', heq⟩ | hnot
      · left
        rcases List.mem_cons.mp hstep' with rfl | hin
        · exact absurd heq.symm hpat
        · exact ⟨step', hin, heq⟩
      · exact Or.inr (not_infix_replaceAll hm hsub hfrom (Or.inr hnot))

theorem markerFree_replaceEach {steps : List (List α × List α)}
    (h : Defuses ms steps) (text : List α) :
    MarkerFree ms (replaceEach steps text) := by
  intro m hm
  obtain ⟨hne, hclear, hstep⟩ := h m hm
  exact not_infix_replaceEach hne hclear (Or.inl hstep)

omit [DecidableEq α] in
theorem MarkerFree.mono {text part : List α} (h : MarkerFree ms text)
    (hpart : part <:+: text) : MarkerFree ms part :=
  fun m hm hinf => h m hm (hinf.trans hpart)

omit [DecidableEq α] in
theorem markerFree_of_not_mem {z : α} {text : List α}
    (hms : ∀ m ∈ ms, z ∈ m) (hz : z ∉ text) : MarkerFree ms text := by
  rintro m hm ⟨s, t, rfl⟩
  apply hz
  simp [hms m hm]

omit [DecidableEq α] in
theorem MarkerFree.append_cons {a b : List α} {z : α} (ha : MarkerFree ms a)
    (hb : MarkerFree ms b) (hz : ∀ m ∈ ms, z ∉ m) :
    MarkerFree ms (a ++ z :: b) := by
  intro m hm hinf
  rcases List.infix_append_iff_ne_nil.mp hinf with h | h | h
  · exact ha m hm h
  · rcases List.infix_cons_iff.mp h with h | h
    · cases m with
      | nil => exact hb [] hm (List.nil_infix)
      | cons d m =>
          obtain ⟨rfl, -⟩ := List.cons_prefix_cons.mp h
          exact hz _ hm List.mem_cons_self
    · exact hb m hm h
  · obtain ⟨l₁, l₂, -, hne, rfl, -, hpre⟩ := h
    cases l₂ with
    | nil => exact hne rfl
    | cons d l₂ =>
        obtain ⟨rfl, -⟩ := List.cons_prefix_cons.mp hpre
        exact hz _ hm (by simp)

omit [DecidableEq α] in
theorem Closed.append_markerFree {a b : List α} (ha : Closed ms a)
    (hb : MarkerFree ms b) : MarkerFree ms (a ++ b) := by
  rcases List.eq_nil_or_concat a with rfl | ⟨init, z, rfl⟩
  · exact hb
  · have hz := ha.2 z (by simp)
    have hinit : MarkerFree ms init := ha.1.mono (by
      rw [List.concat_eq_append]
      exact (List.prefix_append init [z]).isInfix)
    simpa using hinit.append_cons hb hz

omit [DecidableEq α] in
theorem Closed.append {a b : List α} (ha : Closed ms a) (hb : Closed ms b) :
    Closed ms (a ++ b) := by
  refine ⟨ha.append_markerFree hb.1, fun z hz => ?_⟩
  cases b with
  | nil =>
      rw [List.append_nil] at hz
      exact ha.2 z hz
  | cons c b =>
      rw [List.getLast?_append_cons] at hz
      exact hb.2 z hz

omit [DecidableEq α] in
theorem closed_nil (h : ∀ m ∈ ms, m ≠ []) : Closed ms [] := by
  refine ⟨fun m hm hinf => h m hm (List.infix_nil.mp hinf), ?_⟩
  intro z hz
  cases hz

omit [DecidableEq α] in
/-- A field and the text after it. -/
theorem MarkerFree.append_bridge {a c : List α} (ha : MarkerFree ms a)
    (hc : Bridge ms c) : Closed ms (a ++ c) := by
  obtain ⟨hclosed, hne, hhead⟩ := hc
  obtain ⟨z, rest, rfl⟩ := List.exists_cons_of_ne_nil hne
  have hz : ∀ m ∈ ms, z ∉ m := hhead z (by simp)
  have hrest : MarkerFree ms rest :=
    hclosed.1.mono (List.suffix_cons z rest).isInfix
  refine ⟨ha.append_cons hrest hz, fun y hy => ?_⟩
  rw [List.getLast?_append_cons] at hy
  exact hclosed.2 y hy

/-! ## Reading -/

/-- A pair of markers. -/
structure Kind (α : Type*) where
  opening : List α
  closing : List α
  deriving DecidableEq, Repr

/-- A fenced text and the text before its fence. -/
structure Fenced (α : Type*) where
  frame : List α
  kind : Kind α
  body : List α
  deriving DecidableEq, Repr

/-- Both markers of every kind. -/
def markers (kinds : List (Kind α)) : List (List α) :=
  kinds.flatMap fun kind => [kind.opening, kind.closing]

/-- The text before the first marker, that marker and the text after it. -/
def cutAtMarker (ms : List (List α)) :
    List α → Option (List α × List α × List α)
  | [] => none
  | c :: cs =>
      match ms.find? fun m => m.isPrefixOf (c :: cs) with
      | some m => some ([], m, (c :: cs).drop m.length)
      | none => (cutAtMarker ms cs).map fun cut => (c :: cut.1, cut.2)

/-- The fences of a document from the left, and the text after the last. A
document reads only if every marker in it opens a fence or closes the fence
that is open. -/
def readFencesWithin (kinds : List (Kind α)) :
    Nat → List α → Option (List (Fenced α) × List α)
  | 0, _ => none
  | fuel + 1, text =>
      match cutAtMarker (markers kinds) text with
      | none => some ([], text)
      | some (frame, m, inside) =>
          match kinds.find? fun kind => kind.opening = m with
          | none => none
          | some kind =>
              match cutAtMarker (markers kinds) inside with
              | none => none
              | some (body, m', rest) =>
                  if m' = kind.closing then
                    (readFencesWithin kinds fuel rest).map fun read =>
                      (⟨frame, kind, body⟩ :: read.1, read.2)
                  else none

def readFences (kinds : List (Kind α)) (text : List α) :
    Option (List (Fenced α) × List α) :=
  readFencesWithin kinds (text.length + 1) text

def Fenced.render (s : Fenced α) : List α :=
  s.frame ++ (s.kind.opening ++ (s.body ++ s.kind.closing))

/-- A document of fences and a text after the last. -/
def render (fences : List (Fenced α)) (rest : List α) : List α :=
  fences.flatMap Fenced.render ++ rest

/-- No marker begins inside another or is the start of another, and a marker
opens one kind of fence. -/
def Separated (kinds : List (Kind α)) : Prop :=
  (∀ m ∈ markers kinds, m ≠ [] ∧ ∀ m' ∈ markers kinds, ∀ v ∈ m.tails,
    v = [] ∨ Apart v m' ∨ (v = m ∧ m = m')) ∧
  ∀ kind ∈ kinds,
    kinds.find? (fun k => k.opening = kind.opening) = some kind

instance (kinds : List (Kind α)) : Decidable (Separated kinds) :=
  inferInstanceAs (Decidable (_ ∧ ∀ kind ∈ kinds,
    kinds.find? (fun k => k.opening = kind.opening) = some kind))

variable {kinds : List (Kind α)}

theorem cutAtMarker_of_markerFree {text : List α}
    (htext : MarkerFree (markers kinds) text) :
    cutAtMarker (markers kinds) text = none := by
  induction text with
  | nil => rfl
  | cons c cs ih =>
      have hnone : (markers kinds).find?
          (fun m => m.isPrefixOf (c :: cs)) = none := by
        rw [List.find?_eq_none]
        intro m hm hpre
        exact htext m hm (List.isPrefixOf_iff_prefix.mp hpre).isInfix
      rw [cutAtMarker, hnone,
        ih (htext.mono (List.suffix_cons c cs).isInfix)]
      rfl

/-- A text without markers is cut at the marker after it. -/
theorem cutAtMarker_append (h : Separated kinds) {text m rest : List α}
    (htext : MarkerFree (markers kinds) text) (hm : m ∈ markers kinds) :
    cutAtMarker (markers kinds) (text ++ (m ++ rest)) =
      some (text, m, rest) := by
  induction text with
  | nil =>
      obtain ⟨hne, hsep⟩ := h.1 m hm
      obtain ⟨c, cs, rfl⟩ := List.exists_cons_of_ne_nil hne
      have hfind : (markers kinds).find?
          (fun m' => m'.isPrefixOf (c :: cs ++ rest)) = some (c :: cs) := by
        have hpre : c :: cs <+: c :: cs ++ rest := List.prefix_append _ _
        cases hf : (markers kinds).find?
            (fun m' => m'.isPrefixOf (c :: cs ++ rest)) with
        | none =>
            have hnot := List.find?_eq_none.mp hf (c :: cs) hm
            exact absurd (List.isPrefixOf_iff_prefix.mpr hpre) hnot
        | some m' =>
            have hm' := List.mem_of_find?_eq_some hf
            have hpre' : m' <+: c :: cs ++ rest := by
              have hfound := List.find?_some hf
              exact List.isPrefixOf_iff_prefix.mp hfound
            have hself : m' ∈ m'.tails :=
              (List.mem_tails m' m').mpr (List.suffix_refl m')
            rcases (h.1 m' hm').2 _ hm m' hself with hnil | hapart | heq
            · exact absurd hnil (h.1 m' hm').1
            · exact absurd hpre' hapart.not_prefix_append
            · rw [heq.2]
      rw [List.nil_append, List.cons_append, cutAtMarker]
      rw [List.cons_append] at hfind
      rw [hfind]
      simp
  | cons c cs ih =>
      have hnone : (markers kinds).find?
          (fun m' => m'.isPrefixOf (c :: (cs ++ (m ++ rest)))) = none := by
        rw [List.find?_eq_none]
        intro m' hm' hpre
        have hpre : m' <+: (c :: cs) ++ (m ++ rest) :=
          List.isPrefixOf_iff_prefix.mp hpre
        rcases List.prefix_or_prefix_of_prefix hpre
          (List.prefix_append (c :: cs) (m ++ rest)) with hin | ⟨v, rfl⟩
        · exact htext m' hm' hin.isInfix
        · -- an end of the marker would begin the next one
          have hv : v <+: m ++ rest := (List.prefix_append_right_inj _).mp hpre
          have htail : v ∈ ((c :: cs) ++ v).tails :=
            (List.mem_tails _ _).mpr (List.suffix_append (c :: cs) v)
          rcases (h.1 _ hm').2 m hm v htail with hnil | hapart | heq
          · rw [hnil, List.append_nil] at hm'
            exact htext _ hm' (List.infix_refl _)
          · exact hapart.not_prefix_append hv
          · have hlen := congrArg List.length heq.1
            rw [List.length_append, List.length_cons] at hlen
            omega
      rw [List.cons_append, cutAtMarker, hnone,
        ih (htext.mono (List.suffix_cons c cs).isInfix)]
      rfl

theorem readFencesWithin_render (h : Separated kinds) {rest : List α}
    (hrest : MarkerFree (markers kinds) rest) :
    ∀ {fences : List (Fenced α)} {fuel : Nat}, fences.length < fuel →
      (∀ s ∈ fences, s.kind ∈ kinds ∧ MarkerFree (markers kinds) s.frame ∧
        MarkerFree (markers kinds) s.body) →
      readFencesWithin kinds fuel (render fences rest) =
        some (fences, rest) := by
  intro fences
  induction fences with
  | nil =>
      intro fuel hfuel hfences
      obtain ⟨fuel, rfl⟩ :=
        Nat.exists_eq_add_one_of_ne_zero (by omega : fuel ≠ 0)
      rw [readFencesWithin, render, List.flatMap_nil, List.nil_append,
        cutAtMarker_of_markerFree hrest]
  | cons s fences ih =>
      intro fuel hfuel hfences
      obtain ⟨fuel, rfl⟩ :=
        Nat.exists_eq_add_one_of_ne_zero (by omega : fuel ≠ 0)
      rw [List.forall_mem_cons] at hfences
      obtain ⟨⟨hkind, hframe, hbody⟩, hothers⟩ := hfences
      have hopening : s.kind.opening ∈ markers kinds :=
        List.mem_flatMap.mpr ⟨s.kind, hkind, by simp⟩
      have hclosing : s.kind.closing ∈ markers kinds :=
        List.mem_flatMap.mpr ⟨s.kind, hkind, by simp⟩
      have hrender : render (s :: fences) rest =
          s.frame ++ (s.kind.opening ++
            (s.body ++ (s.kind.closing ++ render fences rest))) := by
        simp [render, Fenced.render]
      rw [hrender, readFencesWithin, cutAtMarker_append h hframe hopening]
      simp only [h.2 s.kind hkind, cutAtMarker_append h hbody hclosing]
      rw [if_pos trivial, ih (by simpa using hfuel) hothers]
      rfl

theorem length_render (h : Separated kinds) (rest : List α) :
    ∀ {fences : List (Fenced α)}, (∀ s ∈ fences, s.kind ∈ kinds) →
      fences.length ≤ (render fences rest).length := by
  intro fences
  induction fences with
  | nil => exact fun _ => Nat.zero_le _
  | cons s fences ih =>
      intro hfences
      rw [List.forall_mem_cons] at hfences
      have hopening : s.kind.opening ∈ markers kinds :=
        List.mem_flatMap.mpr ⟨s.kind, hfences.1, by simp⟩
      have hpos := List.length_pos_iff.mpr (h.1 _ hopening).1
      have hothers := ih hfences.2
      simp only [render, Fenced.render, List.flatMap_cons, List.length_append,
        List.length_cons] at hothers ⊢
      omega

/-- A document whose texts hold no marker reads back as it was made. -/
theorem readFences_render (h : Separated kinds) {fences : List (Fenced α)}
    {rest : List α}
    (hfences : ∀ s ∈ fences, s.kind ∈ kinds ∧
      MarkerFree (markers kinds) s.frame ∧ MarkerFree (markers kinds) s.body)
    (hrest : MarkerFree (markers kinds) rest) :
    readFences kinds (render fences rest) = some (fences, rest) := by
  have hlength := length_render h rest fun s hs => (hfences s hs).1
  exact readFencesWithin_render h hrest (by omega) hfences

/-- A closing marker outside the fences does not read. -/
theorem readFences_of_closing (h : Separated kinds) {text m rest : List α}
    (htext : MarkerFree (markers kinds) text) (hm : m ∈ markers kinds)
    (hclosing : ∀ kind ∈ kinds, kind.opening ≠ m) :
    readFences kinds (text ++ (m ++ rest)) = none := by
  have hnone : kinds.find? (fun kind => kind.opening = m) = none := by
    rw [List.find?_eq_none]
    intro kind hkind
    simpa using hclosing kind hkind
  rw [readFences, readFencesWithin, cutAtMarker_append h htext hm]
  simp only [hnone]

end AirNote.Lib.Fence
