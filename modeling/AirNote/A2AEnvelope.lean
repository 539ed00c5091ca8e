import AirNote.Jcs

/-!
# The typed envelope

An A2A envelope as the Rust crate types it, read from JSON and written to it
the way a derived serializer does: members by name in any order, unknown ones
ignored, an optional one absent or null, and written null when it is unset; a
body and a value carry the name of their variant in `type`. A struct is also
read from an array of exactly its members.

## Main results

* `Envelope.text_eq` — an envelope that spells out every member and no
  other has the canonical text of the envelope read from it.
-/

namespace AirNote.A2A

open Lib

/-! ## Data -/

/-- `Value`. -/
inductive Value where
  | cash (amountCents : UInt64) (currency : String)
  | item (itemId : String) (quantity : UInt32)
  deriving DecidableEq

/-- `Offer`. -/
structure Offer where
  itemId : String
  offeredValue : Value
  note : Option String
  deriving DecidableEq

/-- `Counter`. -/
structure Counter where
  itemId : String
  counterValue : Value
  note : Option String
  deriving DecidableEq

/-- `Accept`. -/
structure Accept where
  itemId : String
  note : Option String
  deriving DecidableEq

/-- `Decline`. -/
structure Decline where
  itemId : String
  reason : Option String
  deriving DecidableEq

/-- `Withdraw`. -/
structure Withdraw where
  itemId : String
  reason : Option String
  deriving DecidableEq

/-- `MessageBody`. -/
inductive MessageBody where
  | offer (o : Offer)
  | counter (c : Counter)
  | accept (a : Accept)
  | decline (d : Decline)
  | withdraw (w : Withdraw)
  deriving DecidableEq

/-- `Envelope`. -/
structure Envelope where
  id : String
  fromDid : String
  toDid : String
  timestamp : String
  inReplyTo : Option String
  threadId : String
  nonce : String
  body : MessageBody
  signature : Option String
  deriving DecidableEq

/-! ## Writing -/

/-- A member that is null when unset. -/
def nullable (s : Option String) : Json := s.elim .null .str

def Value.toFields : Value → List (String × Json)
  | .cash amountCents currency =>
      [("type", .str "cash"), ("amount_cents", .num amountCents.toNat),
        ("currency", .str currency)]
  | .item itemId quantity =>
      [("type", .str "item"), ("item_id", .str itemId),
        ("quantity", .num quantity.toNat)]

def MessageBody.toFields : MessageBody → List (String × Json)
  | .offer o =>
      [("type", .str "offer"), ("item_id", .str o.itemId),
        ("offered_value", .obj o.offeredValue.toFields),
        ("note", nullable o.note)]
  | .counter c =>
      [("type", .str "counter"), ("item_id", .str c.itemId),
        ("counter_value", .obj c.counterValue.toFields),
        ("note", nullable c.note)]
  | .accept a =>
      [("type", .str "accept"), ("item_id", .str a.itemId),
        ("note", nullable a.note)]
  | .decline d =>
      [("type", .str "decline"), ("item_id", .str d.itemId),
        ("reason", nullable d.reason)]
  | .withdraw w =>
      [("type", .str "withdraw"), ("item_id", .str w.itemId),
        ("reason", nullable w.reason)]

def Envelope.toFields (e : Envelope) : List (String × Json) :=
  [("id", .str e.id), ("from", .str e.fromDid), ("to", .str e.toDid),
    ("timestamp", .str e.timestamp), ("in_reply_to", nullable e.inReplyTo),
    ("thread_id", .str e.threadId), ("nonce", .str e.nonce),
    ("body", .obj e.body.toFields), ("signature", nullable e.signature)]

/-! ## Reading -/

/-- The members of a struct: of an object by name, none of its own names
twice; of an array by position. -/
def structMembers (names : List String) : Json → Option (String → Option Json)
  | .obj fields =>
      if ((fields.filter fun f => f.1 ∈ names).map Prod.fst).Nodup then
        some fun k => Json.lookup k fields
      else none
  | .arr items =>
      if items.length = names.length then
        some fun k => Json.lookup k (names.zip items)
      else none
  | _ => none

/-- The variant that `type` names, and the members beside it. -/
def tagged : Json → Option (String × Json)
  | .obj fields =>
      match fields.filter fun f => f.1 = "type" with
      | [(_, .str tag)] => some (tag, .obj (Json.removeKey "type" fields))
      | _ => none
  | .arr (.str tag :: rest) => some (tag, .arr rest)
  | _ => none

/-- A `String`. -/
def readText (m : Option Json) : Option String := m.bind Json.asStr

/-- An `Option<String>`. -/
def readNullable : Option Json → Option (Option String)
  | none => some none
  | some .null => some none
  | some (.str s) => some (some s)
  | some _ => none

/-- A `u64`. -/
def readU64 (m : Option Json) : Option UInt64 :=
  (m.bind Json.asU64).map UInt64.ofNat

/-- A `u32`. -/
def readU32 (m : Option Json) : Option UInt32 :=
  ((m.bind Json.asU64).filter (· < 2 ^ 32)).map UInt32.ofNat

def Value.ofJson (j : Json) : Option Value := do
  let (tag, rest) ← tagged j
  if tag = "cash" then do
    let m ← structMembers ["amount_cents", "currency"] rest
    return .cash (← readU64 (m "amount_cents")) (← readText (m "currency"))
  else if tag = "item" then do
    let m ← structMembers ["item_id", "quantity"] rest
    return .item (← readText (m "item_id")) (← readU32 (m "quantity"))
  else none

def MessageBody.ofJson (j : Json) : Option MessageBody := do
  let (tag, rest) ← tagged j
  if tag = "offer" then do
    let m ← structMembers ["item_id", "offered_value", "note"] rest
    return .offer ⟨← readText (m "item_id"),
      ← (m "offered_value").bind Value.ofJson, ← readNullable (m "note")⟩
  else if tag = "counter" then do
    let m ← structMembers ["item_id", "counter_value", "note"] rest
    return .counter ⟨← readText (m "item_id"),
      ← (m "counter_value").bind Value.ofJson, ← readNullable (m "note")⟩
  else if tag = "accept" then do
    let m ← structMembers ["item_id", "note"] rest
    return .accept ⟨← readText (m "item_id"), ← readNullable (m "note")⟩
  else if tag = "decline" then do
    let m ← structMembers ["item_id", "reason"] rest
    return .decline ⟨← readText (m "item_id"), ← readNullable (m "reason")⟩
  else if tag = "withdraw" then do
    let m ← structMembers ["item_id", "reason"] rest
    return .withdraw ⟨← readText (m "item_id"), ← readNullable (m "reason")⟩
  else none

/-- The names of an envelope. -/
def Envelope.names : List String :=
  ["id", "from", "to", "timestamp", "in_reply_to", "thread_id", "nonce",
    "body", "signature"]

/-- The envelope with these members. -/
def Envelope.ofMembers (m : String → Option Json) : Option Envelope := do
  let id ← readText (m "id")
  let fromDid ← readText (m "from")
  let toDid ← readText (m "to")
  let timestamp ← readText (m "timestamp")
  let inReplyTo ← readNullable (m "in_reply_to")
  let threadId ← readText (m "thread_id")
  let nonce ← readText (m "nonce")
  let body ← (m "body").bind MessageBody.ofJson
  let signature ← readNullable (m "signature")
  return ⟨id, fromDid, toDid, timestamp, inReplyTo, threadId, nonce, body,
    signature⟩

def Envelope.ofJson (j : Json) : Option Envelope :=
  (structMembers Envelope.names j).bind Envelope.ofMembers

/-! ## Envelopes that are spelled out -/

mutual

/-- The value has the members that are written at every level, and no
other. -/
def Spelled : Json → Json → Prop
  | .obj written, j => ∃ fields, j = .obj fields ∧
      (∀ k, k ∈ fields.map Prod.fst ↔ k ∈ written.map Prod.fst) ∧
        SpelledMembers written fields
  | _, _ => True

def SpelledMembers : List (String × Json) → List (String × Json) → Prop
  | [], _ => True
  | (k, w) :: written, fields =>
      (∀ v, Json.lookup k fields = some v → Spelled w v) ∧
        SpelledMembers written fields

end

theorem SpelledMembers.of_mem {written fields : List (String × Json)}
    (h : SpelledMembers written fields) {k : String} {w v : Json}
    (hw : (k, w) ∈ written) (hv : Json.lookup k fields = some v) :
    Spelled w v := by
  induction written with
  | nil => cases hw
  | cons f written ih =>
      rcases List.mem_cons.mp hw with rfl | hw
      · exact h.1 v hv
      · exact ih h.2 hw

theorem spelledMembers_self {fields : List (String × Json)}
    (hnodup : (fields.map Prod.fst).Nodup)
    (h : ∀ f ∈ fields, Spelled f.2 f.2) :
    ∀ written : List (String × Json), written ⊆ fields →
      SpelledMembers written fields := by
  intro written
  induction written with
  | nil => exact fun _ => trivial
  | cons f written ih =>
      intro hsub
      have hf : f ∈ fields := hsub List.mem_cons_self
      refine ⟨fun v hv => ?_, ih (List.subset_of_cons_subset hsub)⟩
      rw [Json.lookup_of_mem hnodup hf, Option.some.injEq] at hv
      exact hv ▸ h f hf

/-- An object spells out its own members. -/
theorem spelled_self {fields : List (String × Json)}
    (hnodup : (fields.map Prod.fst).Nodup)
    (h : ∀ f ∈ fields, Spelled f.2 f.2) :
    Spelled (.obj fields) (.obj fields) :=
  ⟨fields, rfl, fun _ => Iff.rfl,
    spelledMembers_self hnodup h fields (List.Subset.refl fields)⟩

/-! ## The canonical text -/

/-- The name of the member through which JavaScript sets a prototype. -/
def protoName : String := "__proto__"

/-- The text of an object with names that are written, the prototype not
among them, depends on the texts of its members. -/
def ByMembers (T : Json → List Char) : Prop :=
  ∀ fields written : List (String × Json),
    (fields.map Prod.fst).Nodup → (written.map Prod.fst).Nodup →
    protoName ∉ written.map Prod.fst →
    (∀ k, k ∈ fields.map Prod.fst ↔ k ∈ written.map Prod.fst) →
    (∀ f ∈ written, ∃ v, Json.lookup f.1 fields = some v ∧ T v = T f.2) →
    T (.obj fields) = T (.obj written)

/-- The canonical text of a value, its strings normalised. -/
def normalText (nfc fraction : String → String) (j : Json) : List Char :=
  Jcs.text fraction (nfcNormalize nfc j)

/-- A normalisation that works member by member. -/
theorem byMembers_of {norm : Json → Json}
    {onFields : List (String × Json) → List (String × Json)}
    (fraction : String → String)
    (hobj : ∀ fields, norm (.obj fields) = .obj (onFields fields))
    (honNames : ∀ fields, protoName ∉ fields.map Prod.fst →
      (onFields fields).map Prod.fst = fields.map Prod.fst)
    (honLookup : ∀ k fields, protoName ∉ fields.map Prod.fst →
      Json.lookup k (onFields fields) = (Json.lookup k fields).map norm) :
    ByMembers fun j => Jcs.text fraction (norm j) := by
  intro fields written hfields hwritten hproto hnames h
  have hproto' : protoName ∉ fields.map Prod.fst := mt (hnames _).mp hproto
  change Jcs.text fraction (norm (.obj fields)) =
    Jcs.text fraction (norm (.obj written))
  rw [hobj, hobj]
  refine Jcs.text_obj_congr ?_ ?_ fun k => ?_
  · rwa [honNames fields hproto']
  · rwa [honNames written hproto]
  · rw [honLookup k fields hproto', honLookup k written hproto]
    by_cases hk : k ∈ written.map Prod.fst
    · obtain ⟨w, hw⟩ := Json.mem_names_iff.1 hk
      obtain ⟨v, hv, htext⟩ := h (k, w) (Json.mem_of_lookup hw)
      rw [hw, hv]
      exact congrArg some htext
    · rw [Json.lookup_eq_none.2 hk,
        Json.lookup_eq_none.2 (mt (hnames k).mp hk)]

section Text

variable {T : Json → List Char}

/-- What is read of a variant whose object has no other name. -/
theorem tagged_members {fields : List (String × Json)} {names : List String}
    {tag : String} {rest : Json} {m : String → Option Json}
    (htag : tagged (.obj fields) = some (tag, rest))
    (hm : structMembers names rest = some m)
    (hnames : ∀ k ∈ fields.map Prod.fst, k ∈ "type" :: names) :
    (fields.map Prod.fst).Nodup ∧
      Json.lookup "type" fields = some (.str tag) ∧
      ∀ k, k ≠ "type" → m k = Json.lookup k fields := by
  rw [tagged] at htag
  split at htag
  next k tag' htype =>
    obtain ⟨rfl, rfl⟩ := Prod.mk.inj (Option.some.inj htag)
    have hmem : (k, Json.str tag') ∈ fields ∧ k = "type" := by
      have hself : (k, Json.str tag') ∈
          fields.filter fun f => f.1 = "type" := htype ▸ List.mem_singleton_self _
      simpa using hself
    rw [structMembers] at hm
    split at hm
    next hnodup =>
      have hperm := (List.filter_append_perm (fun f => f.1 = "type")
        fields).map Prod.fst
      have hrest : (Json.removeKey "type" fields).filter
          (fun f => f.1 ∈ names) = Json.removeKey "type" fields := by
        refine List.filter_eq_self.mpr fun f hf => ?_
        have hf := List.mem_filter.mp hf
        have hname := hnames f.1 (List.mem_map_of_mem hf.1)
        simpa [of_decide_eq_true hf.2] using hname
      have hall : (fields.map Prod.fst).Nodup := by
        rw [← hperm.nodup_iff, List.map_append, htype]
        refine List.nodup_append.mpr ⟨List.nodup_singleton _, ?_, ?_⟩
        · have hremove : fields.filter (fun f => !decide (f.1 = "type")) =
              Json.removeKey "type" fields := by
            simp [Json.removeKey]
          rw [hremove, ← hrest]
          exact hnodup
        · intro a ha b hb hab
          obtain ⟨g, hg, rfl⟩ := List.mem_map.mp hb
          have hne := (List.mem_filter.mp hg).2
          have ha : a = "type" := (List.mem_singleton.mp ha).trans hmem.2
          simp [← hab, ha] at hne
      refine ⟨hall, ?_, ?_⟩
      · exact Json.lookup_of_mem hall (hmem.2 ▸ hmem.1)
      · intro k hk
        rw [← Option.some.inj hm]
        exact Json.lookup_removeKey_ne hk fields
    next => cases hm
  next => cases htag

theorem readText_eq {m : Option Json} {s : String}
    (h : readText m = some s) : m = some (.str s) := by
  rcases m with _ | (_ | _ | _ | _ | t | _ | _) <;>
    simp_all [readText, Json.asStr]

theorem readU64_eq {m : Option Json} {a : UInt64}
    (h : readU64 m = some a) : m = some (.num a.toNat) := by
  obtain ⟨p, hp, rfl⟩ := Option.map_eq_some_iff.mp h
  obtain ⟨j, rfl, hj⟩ := Option.bind_eq_some_iff.mp hp
  obtain ⟨rfl, hlt⟩ := Json.asU64_eq_some hj
  rw [UInt64.toNat_ofNat_of_lt' hlt]

theorem readU32_eq {m : Option Json} {a : UInt32}
    (h : readU32 m = some a) : m = some (.num a.toNat) := by
  obtain ⟨p, hp, rfl⟩ := Option.map_eq_some_iff.mp h
  obtain ⟨hp, hlt⟩ := Option.filter_eq_some_iff.mp hp
  obtain ⟨j, rfl, hj⟩ := Option.bind_eq_some_iff.mp hp
  obtain ⟨rfl, -⟩ := Json.asU64_eq_some hj
  rw [UInt32.toNat_ofNat_of_lt' (of_decide_eq_true hlt)]

/-- A member that may be null, when it is there. -/
theorem readNullable_eq {m : Option Json} {s : Option String}
    (h : readNullable m = some s) (hm : m ≠ none) :
    m = some (nullable s) := by
  rcases m with _ | (_ | _ | _ | _ | t | _ | _) <;>
    simp_all [readNullable, nullable] <;> subst h <;> rfl

theorem Value.names_nodup (v : Value) :
    (v.toFields.map Prod.fst).Nodup ∧
      protoName ∉ v.toFields.map Prod.fst := by
  cases v <;> simp [Value.toFields, protoName]

/-- A value that spells out every member has the text of what is read. -/
theorem Value.text_eq (hT : ByMembers T) {j : Json} {v : Value}
    (h : Value.ofJson j = some v) (hspelled : Spelled (.obj v.toFields) j) :
    T j = T (.obj v.toFields) := by
  obtain ⟨fields, rfl, hnames, -⟩ := hspelled
  obtain ⟨⟨tag, rest⟩, htag, h⟩ := Option.bind_eq_some_iff.mp h
  by_cases hcash : tag = "cash"
  · simp only [if_pos hcash] at h
    obtain ⟨m, hm, h⟩ := Option.bind_eq_some_iff.mp h
    obtain ⟨amount, hamount, h⟩ := Option.bind_eq_some_iff.mp h
    obtain ⟨currency, hcurrency, h⟩ := Option.bind_eq_some_iff.mp h
    obtain rfl := Option.some.inj h
    obtain ⟨hnodup, htype, hlookup⟩ := tagged_members htag hm fun k hk => by
      simpa [Value.toFields] using (hnames k).mp hk
    rw [hlookup _ (by decide)] at hamount hcurrency
    refine hT fields _ hnodup (Value.names_nodup _).1
      (Value.names_nodup _).2 hnames ?_
    simp [Value.toFields, htype, readU64_eq hamount, readText_eq hcurrency,
      hcash]
  · by_cases hitem : tag = "item"
    · simp only [if_neg hcash, if_pos hitem] at h
      obtain ⟨m, hm, h⟩ := Option.bind_eq_some_iff.mp h
      obtain ⟨itemId, hitemId, h⟩ := Option.bind_eq_some_iff.mp h
      obtain ⟨quantity, hquantity, h⟩ := Option.bind_eq_some_iff.mp h
      obtain rfl := Option.some.inj h
      obtain ⟨hnodup, htype, hlookup⟩ := tagged_members htag hm fun k hk => by
        simpa [Value.toFields] using (hnames k).mp hk
      rw [hlookup _ (by decide)] at hitemId hquantity
      refine hT fields _ hnodup (Value.names_nodup _).1
        (Value.names_nodup _).2 hnames ?_
      simp [Value.toFields, htype, readText_eq hitemId, readU32_eq hquantity,
        hitem]
    · simp only [if_neg hcash, if_neg hitem] at h
      cases h

/-- A body with a value and a note beside the item. -/
theorem valued_text_eq (hT : ByMembers T) {fields : List (String × Json)}
    {tag valueName : String} {rest : Json} {m : String → Option Json}
    {itemId : String} {value : Value} {note : Option String}
    (hvalue : valueName ≠ "type" ∧ valueName ≠ "item_id" ∧
      valueName ≠ "note" ∧ valueName ≠ protoName)
    (htag : tagged (.obj fields) = some (tag, rest))
    (hm : structMembers ["item_id", valueName, "note"] rest = some m)
    (hitemId : readText (m "item_id") = some itemId)
    (hread : (m valueName).bind Value.ofJson = some value)
    (hnote : readNullable (m "note") = some note)
    (hspelled : Spelled (.obj [("type", .str tag), ("item_id", .str itemId),
      (valueName, .obj value.toFields), ("note", nullable note)])
      (.obj fields)) :
    T (.obj fields) =
      T (.obj [("type", .str tag),
        ("item_id", .str itemId), (valueName, .obj value.toFields),
        ("note", nullable note)]) := by
  obtain ⟨fields', hobj, hnames, hmembers⟩ := hspelled
  obtain rfl := Json.obj.inj hobj
  obtain ⟨hnodup, htype, hlookup⟩ := tagged_members htag hm fun k hk => by
    simpa using (hnames k).mp hk
  rw [hlookup _ (by decide)] at hitemId hnote
  rw [hlookup _ hvalue.1] at hread
  obtain ⟨v, hv, hofJson⟩ := Option.bind_eq_some_iff.mp hread
  have hnull := readNullable_eq hnote fun hnone =>
    Json.lookup_eq_none.1 hnone ((hnames _).mpr (by simp))
  have htext : T v =
      T (.obj value.toFields) :=
    Value.text_eq hT hofJson (hmembers.of_mem (by simp) hv)
  refine hT fields _ hnodup ?_ ?_ hnames ?_
  · simp [hvalue.1.symm, hvalue.2.1.symm, hvalue.2.2.1]
  · simpa [protoName, eq_comm] using hvalue.2.2.2
  · simp [htype, readText_eq hitemId, hv, htext, hnull]

/-- A body with a text beside the item. -/
theorem plain_text_eq (hT : ByMembers T) {fields : List (String × Json)}
    {tag textName : String} {rest : Json} {m : String → Option Json}
    {itemId : String} {note : Option String}
    (hname : textName ≠ "type" ∧ textName ≠ "item_id" ∧
      textName ≠ protoName)
    (htag : tagged (.obj fields) = some (tag, rest))
    (hm : structMembers ["item_id", textName] rest = some m)
    (hitemId : readText (m "item_id") = some itemId)
    (hnote : readNullable (m textName) = some note)
    (hspelled : Spelled (.obj [("type", .str tag), ("item_id", .str itemId),
      (textName, nullable note)]) (.obj fields)) :
    T (.obj fields) =
      T (.obj [("type", .str tag),
        ("item_id", .str itemId), (textName, nullable note)]) := by
  obtain ⟨fields', hobj, hnames, -⟩ := hspelled
  obtain rfl := Json.obj.inj hobj
  obtain ⟨hnodup, htype, hlookup⟩ := tagged_members htag hm fun k hk => by
    simpa using (hnames k).mp hk
  rw [hlookup _ (by decide)] at hitemId
  rw [hlookup _ hname.1] at hnote
  have hnull := readNullable_eq hnote fun hnone =>
    Json.lookup_eq_none.1 hnone ((hnames _).mpr (by simp))
  refine hT fields _ hnodup ?_ ?_ hnames ?_
  · simp [hname.1.symm, hname.2.1.symm]
  · simpa [protoName, eq_comm] using hname.2.2
  · simp [htype, readText_eq hitemId, hnull]

/-- A body that spells out every member has the text of what is read. -/
theorem MessageBody.text_eq (hT : ByMembers T) {j : Json} {b : MessageBody}
    (h : MessageBody.ofJson j = some b)
    (hspelled : Spelled (.obj b.toFields) j) :
    T j =
      T (.obj b.toFields) := by
  have hobj : ∃ fields, j = .obj fields := by
    obtain ⟨fields, rfl, -⟩ := hspelled
    exact ⟨fields, rfl⟩
  obtain ⟨fields, rfl⟩ := hobj
  obtain ⟨⟨tag, rest⟩, htag, h⟩ := Option.bind_eq_some_iff.mp h
  dsimp only at h
  split_ifs at h with hoffer hcounter haccept hdecline hwithdraw
  · obtain ⟨m, hm, h⟩ := Option.bind_eq_some_iff.mp h
    obtain ⟨itemId, hitemId, h⟩ := Option.bind_eq_some_iff.mp h
    obtain ⟨value, hvalue, h⟩ := Option.bind_eq_some_iff.mp h
    obtain ⟨note, hnote, h⟩ := Option.bind_eq_some_iff.mp h
    obtain rfl := Option.some.inj h
    subst hoffer
    exact valued_text_eq hT (by decide) htag hm hitemId hvalue hnote
      hspelled
  · obtain ⟨m, hm, h⟩ := Option.bind_eq_some_iff.mp h
    obtain ⟨itemId, hitemId, h⟩ := Option.bind_eq_some_iff.mp h
    obtain ⟨value, hvalue, h⟩ := Option.bind_eq_some_iff.mp h
    obtain ⟨note, hnote, h⟩ := Option.bind_eq_some_iff.mp h
    obtain rfl := Option.some.inj h
    subst hcounter
    exact valued_text_eq hT (by decide) htag hm hitemId hvalue hnote
      hspelled
  · obtain ⟨m, hm, h⟩ := Option.bind_eq_some_iff.mp h
    obtain ⟨itemId, hitemId, h⟩ := Option.bind_eq_some_iff.mp h
    obtain ⟨note, hnote, h⟩ := Option.bind_eq_some_iff.mp h
    obtain rfl := Option.some.inj h
    subst haccept
    exact plain_text_eq hT (by decide) htag hm hitemId hnote hspelled
  · obtain ⟨m, hm, h⟩ := Option.bind_eq_some_iff.mp h
    obtain ⟨itemId, hitemId, h⟩ := Option.bind_eq_some_iff.mp h
    obtain ⟨reason, hreason, h⟩ := Option.bind_eq_some_iff.mp h
    obtain rfl := Option.some.inj h
    subst hdecline
    exact plain_text_eq hT (by decide) htag hm hitemId hreason hspelled
  · obtain ⟨m, hm, h⟩ := Option.bind_eq_some_iff.mp h
    obtain ⟨itemId, hitemId, h⟩ := Option.bind_eq_some_iff.mp h
    obtain ⟨reason, hreason, h⟩ := Option.bind_eq_some_iff.mp h
    obtain rfl := Option.some.inj h
    subst hwithdraw
    exact plain_text_eq hT (by decide) htag hm hitemId hreason hspelled

/-- The members of an envelope without its signature. -/
theorem Envelope.removeKey_signature (e : Envelope) :
    Json.removeKey "signature" e.toFields =
      [("id", .str e.id), ("from", .str e.fromDid), ("to", .str e.toDid),
        ("timestamp", .str e.timestamp),
        ("in_reply_to", nullable e.inReplyTo),
        ("thread_id", .str e.threadId), ("nonce", .str e.nonce),
        ("body", .obj e.body.toFields)] := by
  simp [Envelope.toFields, Json.removeKey]

/-- The names of a struct that has no other names occur once. -/
theorem structMembers_obj {fields : List (String × Json)}
    {names : List String} {m : String → Option Json}
    (h : structMembers names (.obj fields) = some m) :
    ((fields.filter fun f => f.1 ∈ names).map Prod.fst).Nodup ∧
      m = fun k => Json.lookup k fields := by
  rw [structMembers] at h
  split at h
  next hnodup => exact ⟨hnodup, (Option.some.inj h).symm⟩
  next => cases h

theorem spelled_str (s : String) (j : Json) : Spelled (.str s) j := trivial

theorem spelled_nullable (s : Option String) (j : Json) :
    Spelled (nullable s) j := by
  cases s <;> trivial

/-- An envelope is written with every member spelled out. -/
theorem Envelope.spelled_unsigned (e : Envelope) :
    Spelled (.obj (Json.removeKey "signature" e.toFields))
      (.obj (Json.removeKey "signature" e.toFields)) := by
  have hvalue : ∀ v : Value, Spelled (.obj v.toFields) (.obj v.toFields) :=
    fun v => spelled_self v.names_nodup.1 fun f hf => by
      cases v <;> simp only [Value.toFields, List.mem_cons,
        List.not_mem_nil, or_false] at hf <;>
        rcases hf with rfl | rfl | rfl <;> trivial
  have hbody : Spelled (.obj e.body.toFields) (.obj e.body.toFields) := by
    refine spelled_self ?_ ?_
    · cases e.body <;> simp [MessageBody.toFields]
    · cases e.body <;>
        simp [MessageBody.toFields, spelled_str, spelled_nullable, hvalue]
  rw [Envelope.removeKey_signature]
  refine spelled_self (by simp) ?_
  simp [spelled_str, spelled_nullable, hbody]

theorem Envelope.ofMembers_eq_some {m : String → Option Json}
    {e : Envelope} :
    Envelope.ofMembers m = some e ↔
      readText (m "id") = some e.id ∧
        readText (m "from") = some e.fromDid ∧
        readText (m "to") = some e.toDid ∧
        readText (m "timestamp") = some e.timestamp ∧
        readNullable (m "in_reply_to") = some e.inReplyTo ∧
        readText (m "thread_id") = some e.threadId ∧
        readText (m "nonce") = some e.nonce ∧
        (m "body").bind MessageBody.ofJson = some e.body ∧
        readNullable (m "signature") = some e.signature := by
  constructor
  · intro h
    obtain ⟨id, hid, h⟩ := Option.bind_eq_some_iff.mp h
    obtain ⟨fromDid, hfrom, h⟩ := Option.bind_eq_some_iff.mp h
    obtain ⟨toDid, hto, h⟩ := Option.bind_eq_some_iff.mp h
    obtain ⟨timestamp, htimestamp, h⟩ := Option.bind_eq_some_iff.mp h
    obtain ⟨inReplyTo, hinReplyTo, h⟩ := Option.bind_eq_some_iff.mp h
    obtain ⟨threadId, hthreadId, h⟩ := Option.bind_eq_some_iff.mp h
    obtain ⟨nonce, hnonce, h⟩ := Option.bind_eq_some_iff.mp h
    obtain ⟨body, hbody, h⟩ := Option.bind_eq_some_iff.mp h
    obtain ⟨signature, hsignature, h⟩ := Option.bind_eq_some_iff.mp h
    obtain rfl := Option.some.inj h
    exact ⟨hid, hfrom, hto, htimestamp, hinReplyTo, hthreadId, hnonce, hbody,
      hsignature⟩
  · rintro ⟨hid, hfrom, hto, htimestamp, hinReplyTo, hthreadId, hnonce,
      hbody, hsignature⟩
    simp [Envelope.ofMembers, hid, hfrom, hto, htimestamp, hinReplyTo,
      hthreadId, hnonce, hbody, hsignature]

/-- **An envelope that spells out every member and no other** has the text of
the envelope that is read from it. -/
theorem Envelope.text_eq (hT : ByMembers T) {fields : List (String × Json)}
    {e : Envelope} (h : Envelope.ofJson (.obj fields) = some e)
    (hspelled : Spelled (.obj (Json.removeKey "signature" e.toFields))
      (.obj (Json.removeKey "signature" fields))) :
    T (.obj (Json.removeKey "signature" fields)) =
      T
        (.obj (Json.removeKey "signature" e.toFields)) := by
  obtain ⟨m, hm, h⟩ := Option.bind_eq_some_iff.mp h
  obtain ⟨hnodup, rfl⟩ := structMembers_obj hm
  obtain ⟨hid, hfrom, hto, htimestamp, hinReplyTo, hthreadId, hnonce, hbody,
    -⟩ := Envelope.ofMembers_eq_some.1 h
  rw [Envelope.removeKey_signature] at hspelled ⊢
  obtain ⟨fields', hobj, hnames, hmembers⟩ := hspelled
  obtain rfl := Json.obj.inj hobj
  have hkeep : ∀ k, k ≠ "signature" →
      Json.lookup k (Json.removeKey "signature" fields) =
        Json.lookup k fields :=
    fun k hk => Json.lookup_removeKey_ne hk fields
  have hunsigned : ((Json.removeKey "signature" fields).map
      Prod.fst).Nodup := by
    refine hnodup.sublist (List.Sublist.map Prod.fst ?_)
    have hknown : (Json.removeKey "signature" fields).filter
        (fun f => f.1 ∈ Envelope.names) =
          Json.removeKey "signature" fields := by
      refine List.filter_eq_self.mpr fun f hf => ?_
      have hname := (hnames f.1).mp (List.mem_map_of_mem hf)
      simp only [List.map_cons, List.map_nil, List.mem_cons,
        List.not_mem_nil, or_false] at hname
      simp only [Envelope.names, List.mem_cons, List.not_mem_nil, or_false,
        decide_eq_true_eq]
      tauto
    rw [← hknown]
    exact List.filter_sublist.filter _
  obtain ⟨b, hb, hofJson⟩ := Option.bind_eq_some_iff.mp hbody
  have hreply := readNullable_eq hinReplyTo fun hnone =>
    Json.lookup_eq_none.1 ((hkeep _ (by decide)).trans hnone)
      ((hnames _).mpr (by simp))
  have htext : T b =
      T (.obj e.body.toFields) :=
    MessageBody.text_eq hT hofJson
      (hmembers.of_mem (by simp) ((hkeep _ (by decide)).trans hb))
  refine hT _ _ hunsigned (by simp) (by simp [protoName]) hnames ?_
  simp [hkeep, readText_eq hid, readText_eq hfrom, readText_eq hto,
    readText_eq htimestamp, hreply, readText_eq hthreadId,
    readText_eq hnonce, hb, htext]

end Text

/-! ## Signing an object -/

theorem filter_insertKey {names : List String} {k : String} (hk : k ∈ names)
    (v : Json) (fields : List (String × Json)) :
    (Json.insertKey k v fields).filter (fun f => f.1 ∈ names) =
      Json.insertKey k v (fields.filter fun f => f.1 ∈ names) := by
  induction fields with
  | nil => simp [Json.insertKey, hk]
  | cons f fields ih =>
      by_cases hf : f.1 = k
      · simp [Json.insertKey, hf, hk]
      · by_cases hmem : f.1 ∈ names
        · simp [Json.insertKey, hf, hmem, ih]
        · simp [Json.insertKey, hf, hmem, ih]

/-- The envelope read from an object that a signature is put into. -/
theorem Envelope.ofJson_insertKey_signature {fields : List (String × Json)}
    {e : Envelope} (h : Envelope.ofJson (.obj fields) = some e)
    (s : String) :
    Envelope.ofJson (.obj (Json.insertKey "signature" (.str s) fields)) =
      some { e with signature := some s } := by
  obtain ⟨m, hm, h⟩ := Option.bind_eq_some_iff.mp h
  obtain ⟨hnodup, rfl⟩ := structMembers_obj hm
  have hfilter : (Json.insertKey "signature" (.str s) fields).filter
      (fun f => f.1 ∈ Envelope.names) =
        Json.insertKey "signature" (.str s)
          (fields.filter fun f => f.1 ∈ Envelope.names) :=
    filter_insertKey (by decide) _ fields
  have hm' : structMembers Envelope.names
      (.obj (Json.insertKey "signature" (.str s) fields)) =
        some fun k =>
          Json.lookup k (Json.insertKey "signature" (.str s) fields) := by
    rw [structMembers, if_pos]
    rw [hfilter]
    exact Json.nodup_insertKey _ _ hnodup
  have hkeep : ∀ k, k ≠ "signature" →
      Json.lookup k (Json.insertKey "signature" (.str s) fields) =
        Json.lookup k fields :=
    fun k hk => Json.lookup_insertKey_ne hk _ fields
  rw [Envelope.ofJson, hm', Option.bind_some]
  obtain ⟨hid, hfrom, hto, htimestamp, hinReplyTo, hthreadId, hnonce, hbody,
    -⟩ := Envelope.ofMembers_eq_some.1 h
  refine Envelope.ofMembers_eq_some.2 ?_
  simp only [Json.lookup_insertKey_self, hkeep _ (show "id" ≠ _ by decide),
    hkeep _ (show "from" ≠ _ by decide), hkeep _ (show "to" ≠ _ by decide),
    hkeep _ (show "timestamp" ≠ _ by decide),
    hkeep _ (show "in_reply_to" ≠ _ by decide),
    hkeep _ (show "thread_id" ≠ _ by decide),
    hkeep _ (show "nonce" ≠ _ by decide),
    hkeep _ (show "body" ≠ _ by decide)]
  exact ⟨hid, hfrom, hto, htimestamp, hinReplyTo, hthreadId, hnonce, hbody,
    rfl⟩

end AirNote.A2A
