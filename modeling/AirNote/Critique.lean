import Mathlib
import AirNote.Evolve

/-!
# The critique pass

Pass A proposes entities, relations and retractions; each relation brings the
span of the source that supports it. Pass B drops the relations whose span is
not in the source, shows the rest to the reasoner and keeps what the reasoner
repeats, at the lower of the two confidences. Both replies are read by
`parse_proposals`, which skips whatever does not have the shape it wants.

`AirNote.Evolve` has the second half of this with confidences in thousandths.
Here they are the `f32` of the source: a type with an order, since a number
read from a reply is never `NaN`, and nothing but comparisons is done with
them. The two are connected by any monotone rounding.

## Main results

* `critiqueWithReasoner_only_subtracts` — a survivor was proposed, its span
  is in the source and its confidence has not grown.
* `survivors_sublist` — the survivors, in their order, are some of what was
  proposed, lowered.
* `intersectKeepFloor_milli` — the critique of the evolve loop is this one in
  thousandths.
-/

namespace AirNote.Extract

variable {C : Type}

/-! ## Proposals -/

/-- `ProposedEntity`. -/
structure ProposedEntity (C : Type) where
  mention : String
  entityType : String
  confidence : C
  deriving DecidableEq, Repr

/-- `ProposedRelation`. -/
structure ProposedRelation (C : Type) where
  src : String
  relation : String
  dst : String
  confidence : C
  supportedBy : String
  deriving DecidableEq, Repr

/-- `ProposedRetraction`. -/
structure ProposedRetraction (C : Type) where
  src : String
  relation : String
  dst : String
  reason : String
  confidence : C
  deriving DecidableEq, Repr

/-- `Proposals`. -/
structure Proposals (C : Type) where
  entities : List (ProposedEntity C)
  relations : List (ProposedRelation C)
  retractions : List (ProposedRetraction C)
  deriving DecidableEq, Repr

def ProposedRelation.mentions (r : ProposedRelation C) : EdgeKey :=
  ⟨r.src, r.relation, r.dst⟩

def ProposedRetraction.mentions (r : ProposedRetraction C) : EdgeKey :=
  ⟨r.src, r.relation, r.dst⟩

/-! ## Reading a reply -/

/-- The confidences: `0.0`, `1.0`, and `as f32` of an integral and of a
fractional number of the reply. -/
structure Confidences (C : Type) where
  zero : C
  one : C
  ofInt : Int → C
  ofText : String → C

/-- `as_f64`, and `as f32` of it. -/
def Confidences.asF32 (K : Confidences C) : Json → Option C
  | .num n => some (K.ofInt n)
  | .float text => some (K.ofText text)
  | _ => none

/-- `clamp`. -/
def Confidences.clamp [LinearOrder C] (K : Confidences C) (x : C) : C :=
  let x := if x < K.zero then K.zero else x
  if K.one < x then K.one else x

/-- `arr` of `parse_proposals`. -/
def items (raw : Json) (key : String) : List Json :=
  ((raw.get? key).bind Json.asArray).getD []

/-- `f` of `parse_proposals`. -/
def confidenceOf [LinearOrder C] (K : Confidences C) (v : Json) : C :=
  K.clamp (((v.get? "confidence").bind K.asF32).getD K.zero)

/-- `trim().is_empty()`. -/
def isBlank (text : String) : Bool := text.toList.all isWhitespace

/-- An item of `entities`. -/
def parseEntity [LinearOrder C] (K : Confidences C) (e : Json) :
    Option (ProposedEntity C) := do
  let mention ← e.getStr? "mention"
  let entityType ← e.getStr? "entity_type"
  return { mention, entityType, confidence := confidenceOf K e }

/-- An item of `relations`: without a span it is dropped. -/
def parseRelation [LinearOrder C] (K : Confidences C) (r : Json) :
    Option (ProposedRelation C) :=
  let supportedBy := (r.getStr? "supported_by").getD ""
  if isBlank supportedBy then none
  else do
    let src ← r.getStr? "src"
    let relation ← r.getStr? "relation"
    let dst ← r.getStr? "dst"
    return { src, relation, dst, confidence := confidenceOf K r, supportedBy }

/-- An item of `retractions`. -/
def parseRetraction [LinearOrder C] (K : Confidences C) (r : Json) :
    Option (ProposedRetraction C) := do
  let src ← r.getStr? "src"
  let relation ← r.getStr? "relation"
  let dst ← r.getStr? "dst"
  return { src, relation, dst, reason := (r.getStr? "reason").getD ""
           confidence := confidenceOf K r }

/-- `parse_proposals`. -/
def parseProposals [LinearOrder C] (K : Confidences C) (raw : Json) :
    Proposals C where
  entities := (items raw "entities").filterMap (parseEntity K)
  relations := (items raw "relations").filterMap (parseRelation K)
  retractions := (items raw "retractions").filterMap (parseRetraction K)

/-! ## The two passes -/

/-- `propose`; the reasoner answers a source and what was recalled. -/
def propose {ε : Type} [LinearOrder C] (K : Confidences C)
    (reasoner : String → List String → Except ε Json)
    (source : String) (recalled : List String) : Except ε (Proposals C) :=
  (reasoner source recalled).map (parseProposals K)

/-- `verify_floor`. -/
def verifyFloor (proposals : Proposals C) (source : String) : Proposals C :=
  { proposals with
    relations := proposals.relations.filter fun r =>
      containsText r.supportedBy source.toList }

/-- What the map of the critique holds under a key: the last item that has
it. -/
def critiqueConf (critique : List (EdgeKey × C)) (key : EdgeKey) : Option C :=
  ((critique.filter fun item => item.1 == key).getLast?).map Prod.snd

/-- The items of the floor that the critique has too, each at the lower
confidence. -/
def keepFloor [LinearOrder C] {α : Type} (key : α → EdgeKey) (conf : α → C)
    (lower : α → C → α) (floor critique : List α) : List α :=
  floor.filterMap fun r =>
    (critiqueConf (critique.map fun c => (key c, conf c)) (key r)).map
      fun c => lower r (min (conf r) c)

def ProposedRelation.lower (r : ProposedRelation C) (c : C) :
    ProposedRelation C :=
  { r with confidence := c }

def ProposedRetraction.lower (r : ProposedRetraction C) (c : C) :
    ProposedRetraction C :=
  { r with confidence := c }

/-- `intersect_keep_floor`. -/
def intersectKeepFloor [LinearOrder C] (floor critique : Proposals C) :
    Proposals C where
  entities := floor.entities
  relations := keepFloor ProposedRelation.mentions
    ProposedRelation.confidence ProposedRelation.lower
    floor.relations critique.relations
  retractions := keepFloor ProposedRetraction.mentions
    ProposedRetraction.confidence ProposedRetraction.lower
    floor.retractions critique.retractions

/-- `critique_with_reasoner`; the reasoner answers a source, the floor and
the neighbourhood. -/
def critiqueWithReasoner {ε : Type} [LinearOrder C] (K : Confidences C)
    (reasoner : String → Proposals C → List String → Except ε Json)
    (source : String) (proposals : Proposals C)
    (neighborhood : List String) : Except ε (Proposals C) := do
  let floor := verifyFloor proposals source
  let raw ← reasoner source floor neighborhood
  return intersectKeepFloor floor (parseProposals K raw)

/-! ## The floor -/

/-- The search for a text finds it where it stands. -/
theorem containsText_iff {needle : String} {cs : List Char} :
    containsText needle cs = true ↔ needle.toList <:+: cs := by
  rw [containsText, List.any_eq_true]
  constructor
  · rintro ⟨tail, htail, hpre⟩
    exact (List.isPrefixOf_iff_prefix.mp hpre).isInfix.trans
      ((List.mem_tails tail cs).mp htail).isInfix
  · intro h
    obtain ⟨tail, hpre, hsuf⟩ := List.infix_iff_prefix_suffix.mp h
    exact ⟨tail, (List.mem_tails tail cs).mpr hsuf,
      List.isPrefixOf_iff_prefix.mpr hpre⟩

theorem mem_verifyFloor {proposals : Proposals C} {source : String}
    {r : ProposedRelation C} :
    r ∈ (verifyFloor proposals source).relations ↔
      r ∈ proposals.relations ∧ r.supportedBy.toList <:+: source.toList := by
  simp only [verifyFloor, List.mem_filter, containsText_iff]

/-- Pass A proposes no relation with a blank span. -/
theorem parseRelation_supportedBy [LinearOrder C] {K : Confidences C}
    {v : Json} {r : ProposedRelation C} (h : parseRelation K v = some r) :
    isBlank r.supportedBy = false := by
  unfold parseRelation at h
  simp only at h
  split at h
  · cases h
  next hspan =>
    simp only [Option.bind_eq_bind, Option.bind_eq_some_iff,
      Option.pure_def, Option.some.injEq] at h
    obtain ⟨src, -, relation, -, dst, -, rfl⟩ := h
    exact Bool.not_eq_true _ ▸ hspan

theorem propose_supportedBy {ε : Type} [LinearOrder C] {K : Confidences C}
    {reasoner : String → List String → Except ε Json} {source : String}
    {recalled : List String} {proposals : Proposals C}
    (h : propose K reasoner source recalled = .ok proposals)
    {r : ProposedRelation C} (hr : r ∈ proposals.relations) :
    isBlank r.supportedBy = false := by
  unfold propose at h
  cases hraw : reasoner source recalled with
  | error e => simp [hraw, Except.map] at h
  | ok raw =>
      simp only [hraw, Except.map, Except.ok.injEq] at h
      subst h
      obtain ⟨v, -, hv⟩ := List.mem_filterMap.mp hr
      exact parseRelation_supportedBy hv

/-! ## What survives -/

section KeepFloor

variable [LinearOrder C] {α : Type} {key : α → EdgeKey} {conf : α → C}
  {lower : α → C → α} {floor critique : List α}

/-- A survivor is an item of the floor whose key the critique has. -/
theorem mem_keepFloor {r : α}
    (h : r ∈ keepFloor key conf lower floor critique) :
    ∃ p ∈ floor, ∃ c, critiqueConf (critique.map fun c => (key c, conf c))
      (key p) = some c ∧ r = lower p (min (conf p) c) := by
  obtain ⟨p, hp, hmap⟩ := List.mem_filterMap.mp h
  obtain ⟨c, hc, rfl⟩ := Option.map_eq_some_iff.mp hmap
  exact ⟨p, hp, c, hc, rfl⟩

/-- The survivors are, in their order, some of the items of the floor, each
once and lowered. -/
theorem keepFloor_sublist (key : α → EdgeKey) (conf : α → C)
    (lower : α → C → α) (floor critique : List α) :
    ∃ kept : List α, kept.Sublist floor ∧
      List.Forall₂ (fun p r => ∃ c, c ≤ conf p ∧ r = lower p c) kept
        (keepFloor key conf lower floor critique) := by
  induction floor with
  | nil => exact ⟨[], List.Sublist.slnil, List.Forall₂.nil⟩
  | cons p rest ih =>
      obtain ⟨kept, hsub, hall⟩ := ih
      cases hc : critiqueConf (critique.map fun c => (key c, conf c))
          (key p) with
      | none =>
          refine ⟨kept, hsub.cons p, ?_⟩
          simpa only [keepFloor, List.filterMap_cons, hc, Option.map_none]
            using hall
      | some c =>
          refine ⟨p :: kept, hsub.cons_cons p, ?_⟩
          simp only [keepFloor, List.filterMap_cons, hc, Option.map_some]
          exact List.Forall₂.cons ⟨_, min_le_left _ _, rfl⟩ hall

end KeepFloor

/-- The item is the one proposed, at a confidence that has not grown. -/
def Lowered [LinearOrder C] (p r : ProposedRelation C) : Prop :=
  r = { p with confidence := r.confidence } ∧ r.confidence ≤ p.confidence

/-- A survivor stood on the floor. -/
theorem mem_intersectKeepFloor [LinearOrder C] {floor critique : Proposals C}
    {r : ProposedRelation C}
    (h : r ∈ (intersectKeepFloor floor critique).relations) :
    ∃ p ∈ floor.relations, Lowered p r := by
  obtain ⟨p, hp, c, -, rfl⟩ := mem_keepFloor h
  exact ⟨p, hp, rfl, min_le_left _ _⟩

theorem critiqueWithReasoner_ok {ε : Type} [LinearOrder C]
    {K : Confidences C}
    {reasoner : String → Proposals C → List String → Except ε Json}
    {source : String} {proposals refined : Proposals C}
    {neighborhood : List String}
    (h : critiqueWithReasoner K reasoner source proposals neighborhood =
      .ok refined) :
    ∃ raw, reasoner source (verifyFloor proposals source) neighborhood =
        .ok raw ∧
      refined = intersectKeepFloor (verifyFloor proposals source)
        (parseProposals K raw) := by
  unfold critiqueWithReasoner at h
  cases hraw : reasoner source (verifyFloor proposals source) neighborhood with
  | error e => simp [hraw, Bind.bind, Except.bind] at h
  | ok raw =>
      simp only [hraw, Bind.bind, Except.bind, pure, Except.pure,
        Except.ok.injEq] at h
      exact ⟨raw, rfl, h.symm⟩

/-- **The critique only subtracts.** Whatever list it is given and whatever
the reasoner replies, a relation that survives is one of the list with a
confidence that has not grown, and its span stands in the source; where the
list is what Pass A proposed, on any reply, the span is not blank. -/
theorem critiqueWithReasoner_only_subtracts {ε : Type} [LinearOrder C]
    (K : Confidences C)
    (reasoner : String → Proposals C → List String → Except ε Json)
    (source : String) (proposals : Proposals C)
    (neighborhood : List String) {refined : Proposals C}
    (h : critiqueWithReasoner K reasoner source proposals neighborhood =
      .ok refined)
    {r : ProposedRelation C} (hr : r ∈ refined.relations) :
    (∃ p ∈ proposals.relations,
        r = { p with confidence := r.confidence } ∧
          r.confidence ≤ p.confidence) ∧
      r.supportedBy.toList <:+: source.toList ∧
      ∀ passA recalled, propose (ε := ε) K passA source recalled =
          .ok proposals →
        ∃ c ∈ r.supportedBy.toList, isWhitespace c = false := by
  obtain ⟨reply, -, rfl⟩ := critiqueWithReasoner_ok h
  obtain ⟨p, hfloor, hsame, hle⟩ := mem_intersectKeepFloor hr
  obtain ⟨hp, hspan⟩ := mem_verifyFloor.1 hfloor
  have hspanEq : r.supportedBy = p.supportedBy := by rw [hsame]
  refine ⟨⟨p, hp, hsame, hle⟩, hspanEq ▸ hspan, fun passA recalled hA => ?_⟩
  have hblank : isBlank p.supportedBy = false := propose_supportedBy hA hp
  rw [hspanEq]
  simpa [isBlank] using hblank

/-- Thousandths, capped at one thousand. -/
def thousandths : Confidences Nat := ⟨0, 1000, Int.toNat, fun _ => 0⟩

/-- A relation supported by the whole source. -/
def likes (confidence : Int) (src : String) : Json :=
  .obj [("src", .str src), ("relation", .str "likes"), ("dst", .str "tea"),
    ("confidence", .num confidence), ("supported_by", .str "a")]

/-- Pass A proposes one relation, the critique answers with another besides
and with more confidence: the first survives as it was. -/
theorem critiqueWithReasoner_inflated :
    ∃ r ∈ (intersectKeepFloor
        (verifyFloor ⟨[], [⟨"a", "likes", "tea", 400, "a"⟩], []⟩ "a")
        (parseProposals thousandths (.obj [("relations",
          .arr [likes 900 "a", likes 900 "b"])]))).relations,
      (∃ p ∈ [(⟨"a", "likes", "tea", 400, "a"⟩ : ProposedRelation Nat)],
          r = { p with confidence := r.confidence } ∧
            r.confidence ≤ p.confidence) ∧
        r.supportedBy.toList <:+: "a".toList ∧
        ∀ passA recalled, propose (ε := Empty) thousandths passA "a"
            recalled = .ok ⟨[], [⟨"a", "likes", "tea", 400, "a"⟩], []⟩ →
          ∃ c ∈ r.supportedBy.toList, isWhitespace c = false :=
  ⟨⟨"a", "likes", "tea", 400, "a"⟩, by decide,
    critiqueWithReasoner_only_subtracts thousandths
      (fun _ _ _ => .ok (.obj [("relations",
        .arr [likes 900 "a", likes 900 "b"])])) "a"
      ⟨[], [⟨"a", "likes", "tea", 400, "a"⟩], []⟩ [] rfl (by decide)⟩

section Milli

variable (round : C → Int)

def ProposedRelation.milli (r : ProposedRelation C) :
    AirNote.ProposedRelation :=
  ⟨r.src, r.relation, r.dst, round r.confidence, r.supportedBy⟩

def ProposedRetraction.milli (r : ProposedRetraction C) :
    MentionRetraction :=
  ⟨r.src, r.relation, r.dst, r.reason, round r.confidence⟩

/-- What the evolve loop sees of the proposals. -/
def Proposals.milli (p : Proposals C) : ExtractProposals where
  entities := p.entities.map fun e => ⟨e.mention, e.entityType⟩
  relations := p.relations.map (ProposedRelation.milli round)
  retractions := p.retractions.map (ProposedRetraction.milli round)

theorem critiqueConf_milli (critique : List (EdgeKey × C)) (key : EdgeKey) :
    critiqueConfidence (critique.map fun c => (c.1, round c.2)) key =
      (critiqueConf critique key).map round := by
  rw [critiqueConfidence, critiqueConf, List.filter_map, List.getLast?_map,
    Option.map_map, Option.map_map]
  rfl

/-- Keeping what the critique has commutes with a monotone rounding. -/
theorem keepFloor_milli [LinearOrder C] {α β : Type} (hmono : Monotone round)
    {key : α → EdgeKey} {conf : α → C} {lower : α → C → α}
    (key' : β → EdgeKey) (conf' : β → Int) (lower' : β → Int → β)
    (f : α → β) (hkey : ∀ a, key' (f a) = key a)
    (hconf : ∀ a, conf' (f a) = round (conf a))
    (hlower : ∀ a c, f (lower a c) = lower' (f a) (round c))
    (floor critique : List α) :
    (keepFloor key conf lower floor critique).map f =
      (floor.map f).filterMap fun r =>
        (critiqueConfidence
          ((critique.map f).map fun c => (key' c, conf' c)) (key' r)).map
          fun c => lower' r (min (conf' r) c) := by
  have hcritique : ((critique.map f).map fun c => (key' c, conf' c)) =
      (critique.map fun c => (key c, conf c)).map
        fun c => (c.1, round c.2) := by
    simp only [List.map_map, Function.comp_def, hkey, hconf]
  rw [hcritique, keepFloor, List.map_filterMap, List.filterMap_map]
  refine List.filterMap_congr fun r _ => ?_
  simp only [Function.comp_apply, critiqueConf_milli, hkey, hconf,
    Option.map_map]
  refine Option.map_congr fun c _ => ?_
  simp only [Function.comp_apply, hlower, hmono.map_min]

/-- What the evolve loop does with the thousandths is what the critique does
with the confidences. -/
theorem intersectKeepFloor_milli [LinearOrder C] (hmono : Monotone round)
    (proposals critique : Proposals C) (source : String) :
    AirNote.critiqueWithReasoner source (proposals.milli round)
        (critique.milli round) =
      (intersectKeepFloor (verifyFloor proposals source) critique).milli
        round := by
  have hfloor : (AirNote.verifyFloor (proposals.milli round) source) =
      (verifyFloor proposals source).milli round := by
    simp only [AirNote.verifyFloor, verifyFloor, Proposals.milli,
      List.filter_map, Function.comp_def, ProposedRelation.milli]
  rw [AirNote.critiqueWithReasoner, hfloor]
  refine congrArg₂ (ExtractProposals.mk _) ?_ ?_
  · exact (keepFloor_milli round hmono AirNote.ProposedRelation.mentions
      AirNote.ProposedRelation.confidence
      (fun r c => { r with confidence := c }) (ProposedRelation.milli round)
      (fun _ => rfl) (fun _ => rfl) (fun _ _ => rfl) _ _).symm
  · exact (keepFloor_milli round hmono MentionRetraction.mentions
      MentionRetraction.confidence
      (fun r c => { r with confidence := c }) (ProposedRetraction.milli round)
      (fun _ => rfl) (fun _ => rfl) (fun _ _ => rfl) _ _).symm

end Milli

end AirNote.Extract
