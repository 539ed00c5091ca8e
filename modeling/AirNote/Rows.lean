import AirNote.Lib.Hex
import AirNote.Log

/-!
# The stored rows

The `events` table keeps four redundant copies of the facts of an event: the
payload text, and the columns `id`, `event_type`, `prev_hash` and `hash`.
This module gives the canonical bytes and the chain hash of an event, the
table, and the insertion of a row with the hash and the signature computed.

Unicode normalisation, the canonical JSON text, SHA-256, the Ed25519
signature and the JSON text codec come from libraries. They are the fields
of `Primitives`, together with the four facts about them the results rest
on; what an adversary is assumed unable to do is stated where it is used, in
`AirNote.Chain`.

## Main results

* `appendRowInTx_refines` — on the rows of a log, the insertion is
  `AirNote.appendEventInTx` with the seal computed by the chain hash: the
  event log used everywhere else is what the table means.
-/

namespace AirNote

open Lib

/-- The library functions the log is built on. -/
structure Primitives where
  /-- Unicode NFC. -/
  nfc : String → String
  /-- RFC 8785 canonical JSON. -/
  jcs : Json → Except String Bytes
  sha256 : Bytes → Bytes
  signHash : Bytes → String
  verifyHash : Bytes → String → Except BossclawError Unit
  /-- `serde_json::to_string` of an event. -/
  toText : Event → String
  /-- `serde_json::from_str` into an event. -/
  ofText : String → Except BossclawError Event
  sha256_length : ∀ bytes, (sha256 bytes).length = 32
  /-- A signature verifies under the key it was made with. -/
  verify_sign : ∀ digest, verifyHash digest (signHash digest) = .ok ()
  /-- ASCII text is in normal form. -/
  nfc_ascii : ∀ s, Hex.IsAscii s → nfc s = s
  /-- Canonical bytes can be parsed back: they determine the members. -/
  jcs_member : ∀ v w bytes k, jcs v = .ok bytes → jcs w = .ok bytes →
    v.getStr? k = w.getStr? k

theorem id_ascii (s : String) (_ : Hex.IsAscii s) : id s = s := rfl

/-! ## Canonical bytes and the chain hash -/

/-- A member that is skipped when absent. -/
def optionalMember (k : String) : Option Json → List (String × Json)
  | some v => [(k, v)]
  | none => []

def ModelMeta.toValue (m : ModelMeta) : Json :=
  .obj [("model_id", .str m.modelId), ("prompt_hash", .str m.promptHash),
    ("source_event_ids", .arr (m.sourceEventIds.map .str))]

/-- `serde_json::to_value(event)`: the members of the event. -/
def Event.toFields (e : Event) : List (String × Json) :=
  [("id", .str e.id), ("ts", .str e.ts)]
    ++ optionalMember "valid_time" (e.validTime.map .str)
    ++ [("type", .str e.eventType), ("content", e.content)]
    ++ optionalMember "model_meta" (e.modelMeta.map ModelMeta.toValue)
    ++ [("prev_hash", .str e.prevHash)]
    ++ optionalMember "hash" (e.hash.map .str)
    ++ [("signed_by_did", .str e.signedByDid)]
    ++ optionalMember "signature" (e.signature.map .str)

mutual

/-- `nfc_normalize`: normalise every string value, member names excepted. -/
def nfcNormalize (nfc : String → String) : Json → Json
  | .str s => .str (nfc s)
  | .arr items => .arr (nfcItems nfc items)
  | .obj fields => .obj (nfcFields nfc fields)
  | .null => .null
  | .bool b => .bool b
  | .num n => .num n
  | .float t => .float t

def nfcItems (nfc : String → String) : List Json → List Json
  | [] => []
  | v :: rest => nfcNormalize nfc v :: nfcItems nfc rest

def nfcFields (nfc : String → String) :
    List (String × Json) → List (String × Json)
  | [] => []
  | (k, v) :: rest => (k, nfcNormalize nfc v) :: nfcFields nfc rest

end

/-- The value the canonical text is made of: `hash` and `signature`
stripped, strings normalised. -/
def canonicalValue (P : Primitives) (e : Event) : Json :=
  nfcNormalize P.nfc
    (.obj (Json.removeKey "signature" (Json.removeKey "hash" e.toFields)))

/-- `canonical_bytes`. -/
def canonicalBytes (P : Primitives) (e : Event) : Except BossclawError Bytes :=
  match P.jcs (canonicalValue P e) with
  | .error err => .error (.canonical s!"serde_jcs: {err}")
  | .ok bytes => .ok bytes

/-- `compute_hash`: the digest of the *payload's* link and the canonical
bytes. -/
def computeHash (P : Primitives) (e : Event) : Except BossclawError Bytes :=
  match Hex.decode e.prevHash with
  | none => .error (.chain "prev_hash not hex")
  | some prev =>
      if prev.length ≠ 32 then
        .error (.chain s!"prev_hash must be 32 bytes, got {prev.length}")
      else
        match canonicalBytes P e with
        | .error err => .error err
        | .ok canon => .ok (P.sha256 (prev ++ canon))

theorem computeHash_ok_iff {P : Primitives} {e : Event} {digest : Bytes} :
    computeHash P e = .ok digest ↔
      ∃ prev canon, Hex.decode e.prevHash = some prev ∧ prev.length = 32 ∧
        canonicalBytes P e = .ok canon ∧
        digest = P.sha256 (prev ++ canon) := by
  unfold computeHash
  cases hdec : Hex.decode e.prevHash with
  | none => simp
  | some prev =>
      by_cases hlen : prev.length = 32
      · cases hcanon : canonicalBytes P e with
        | error err => simp [hlen]
        | ok canon => simp [hlen, eq_comm]
      · simp [hlen]

private theorem removeKey_append (k : String)
    (xs ys : List (String × Json)) :
    Json.removeKey k (xs ++ ys) =
      Json.removeKey k xs ++ Json.removeKey k ys :=
  List.filter_append xs ys

private theorem removeKey_optionalMember_self (k : String)
    (v : Option Json) : Json.removeKey k (optionalMember k v) = [] := by
  cases v <;> simp [optionalMember, Json.removeKey]

private theorem removeKey_optionalMember_ne {k k' : String} (hne : k' ≠ k)
    (v : Option Json) :
    Json.removeKey k (optionalMember k' v) = optionalMember k' v := by
  cases v <;> simp [optionalMember, Json.removeKey, hne]

/-- The chain hash does not depend on the stored hash and signature. -/
theorem computeHash_seal (P : Primitives) (e : Event) (h s : Option String) :
    computeHash P { e with hash := h, signature := s } = computeHash P e := by
  have hvalue : canonicalValue P { e with hash := h, signature := s } =
      canonicalValue P e := by
    have hne : "signature" ≠ "hash" := by decide
    simp only [canonicalValue, Event.toFields, removeKey_append,
      removeKey_optionalMember_self, removeKey_optionalMember_ne hne]
  simp only [computeHash, canonicalBytes, hvalue]

/-! ## What the canonical bytes determine -/

theorem lookup_nfcFields (nfc : String → String) (k : String)
    (fields : List (String × Json)) :
    Json.lookup k (nfcFields nfc fields) =
      (Json.lookup k fields).map (nfcNormalize nfc) := by
  induction fields with
  | nil => rfl
  | cons f rest ih =>
      obtain ⟨k', v⟩ := f
      by_cases hk : k' = k
      · simp [nfcFields, Json.lookup, hk]
      · simp [nfcFields, Json.lookup, hk, ih]

private theorem lookup_prevHash (e : Event) :
    Json.lookup "prev_hash" e.toFields = some (.str e.prevHash) := by
  cases hv : e.validTime <;> cases hm : e.modelMeta <;>
    simp [Event.toFields, optionalMember, Json.lookup, hv, hm]

theorem getStr?_canonicalValue (P : Primitives) (e : Event) :
    (canonicalValue P e).getStr? "prev_hash" = some (P.nfc e.prevHash) := by
  have hstrip : Json.lookup "prev_hash"
      (Json.removeKey "signature" (Json.removeKey "hash" e.toFields)) =
      some (.str e.prevHash) := by
    rw [Json.lookup_removeKey_ne (by decide),
      Json.lookup_removeKey_ne (by decide), lookup_prevHash]
  simp [canonicalValue, nfcNormalize, Json.getStr?, Json.get?,
    lookup_nfcFields, hstrip, Json.asStr]

theorem canonicalBytes_ok_iff {P : Primitives} {e : Event} {bytes : Bytes} :
    canonicalBytes P e = .ok bytes ↔
      P.jcs (canonicalValue P e) = .ok bytes := by
  unfold canonicalBytes
  cases P.jcs (canonicalValue P e) with
  | error err => simp
  | ok b => simp

/-- Two events with the same canonical bytes record the same link. -/
theorem prevHash_eq_of_canonicalBytes {P : Primitives} {e e' : Event}
    {canon prev prev' : Bytes}
    (h : canonicalBytes P e = .ok canon)
    (h' : canonicalBytes P e' = .ok canon)
    (hp : Hex.decode e.prevHash = some prev)
    (hp' : Hex.decode e'.prevHash = some prev') :
    e.prevHash = e'.prevHash := by
  have hmember := P.jcs_member _ _ canon "prev_hash"
    (canonicalBytes_ok_iff.1 h) (canonicalBytes_ok_iff.1 h')
  rw [getStr?_canonicalValue, getStr?_canonicalValue] at hmember
  have hnfc : P.nfc e.prevHash = P.nfc e'.prevHash := Option.some.inj hmember
  rw [P.nfc_ascii _ (Hex.isAscii_of_decode hp),
    P.nfc_ascii _ (Hex.isAscii_of_decode hp')] at hnfc
  exact hnfc

/-! ## The table -/

/-- A row of the `events` table, in `seq` order within it. -/
structure Row where
  id : String
  ts : String
  eventType : String
  payload : String
  prevHash : String
  hash : String
  deriving DecidableEq, Repr

/-- The fresh identifier and the clock reading of one insertion. -/
structure Stamp where
  id : String
  ts : String

/-- `source_is_external_in_tx`: fail closed on a missing or unparseable
source. -/
def sourceRowIsExternal (P : Primitives) (table : List Row) (id : String) :
    Bool :=
  match table.find? (fun r => r.id == id) with
  | some row =>
      match P.ofText row.payload with
      | .ok ev => isExternal ev
      | .error _ => true
  | none => true

/-- The tip's `hash` column. -/
def tipRowHash (table : List Row) : String :=
  match table.getLast? with
  | some row => row.hash
  | none => genesis

/-- The event as it is hashed: stamped, identified and linked. -/
def linkedRowEvent (P : Primitives) (st : Stamp) (table : List Row)
    (event : Event) : Event :=
  { event with
    content :=
      if event.sources.any (sourceRowIsExternal P table) then
        event.content.insertIfObject "origin" (.str externalOrigin)
      else event.content
    id := st.id
    ts := st.ts
    prevHash := tipRowHash table
    hash := none
    signature := none }

/-- The row an event is stored as. -/
def rowOf (P : Primitives) (e : Event) : Row :=
  { id := e.id
    ts := e.ts
    eventType := e.eventType
    payload := P.toText e
    prevHash := e.prevHash
    hash := hashColumn e }

/-- `append_event_in_tx` on the table. -/
def appendRowInTx (P : Primitives) (st : Stamp) (table : List Row)
    (event : Event) : Except BossclawError (List Row × String) :=
  match computeHash P (linkedRowEvent P st table event) with
  | .error err => .error err
  | .ok digest =>
      let hashHex := Hex.encode digest
      if table.any (fun r => r.id == st.id) then
        .error (.store "UNIQUE constraint failed: events.id")
      else if table.any (fun r => r.hash == hashHex) then
        .error (.store "UNIQUE constraint failed: events.hash")
      else
        .ok (table ++ [rowOf P { linkedRowEvent P st table event with
                                  hash := some hashHex
                                  signature := some (P.signHash digest) }],
          st.id)

/-- `append` on the table. -/
def appendRow (P : Primitives) (st : Stamp) (table : List Row)
    (event : Event) : Except BossclawError (List Row × String) :=
  match rejectEmptyTierB event with
  | .error err => .error err
  | .ok () => appendRowInTx P st table event

/-- `append_pair` on the table. -/
def appendRowPair (P : Primitives) (st₁ st₂ : Stamp) (table : List Row)
    (first second : Event) :
    Except BossclawError (List Row × String × String) :=
  match rejectEmptyTierB first, rejectEmptyTierB second with
  | .error err, _ => .error err
  | .ok (), .error err => .error err
  | .ok (), .ok () =>
      match appendRowInTx P st₁ table first with
      | .error err => .error err
      | .ok (table₁, id₁) =>
          match appendRowInTx P st₂ table₁ second with
          | .error err => .error err
          | .ok (table₂, id₂) => .ok (table₂, id₁, id₂)

/-! ## The table refines the log -/

/-- The mint of an insertion: the seal is the chain hash and its
signature. -/
def Primitives.mint (P : Primitives) (st : Stamp) : Mint :=
  { id := st.id
    ts := st.ts
    sealOf := fun e =>
      match computeHash P e with
      | .error err => .error err
      | .ok digest => .ok (Hex.encode digest, P.signHash digest) }

/-- The payload text of each event of the log reads back as the event. -/
def Readable (P : Primitives) (log : EventLog) : Prop :=
  ∀ e ∈ log, P.ofText (P.toText e) = .ok e

theorem sourceRowIsExternal_rowOf {P : Primitives} {log : EventLog}
    (hread : Readable P log) (id : String) :
    sourceRowIsExternal P (log.map (rowOf P)) id =
      sourceIsExternalInTx log id := by
  have hfind : (log.map (rowOf P)).find? (fun r => r.id == id) =
      (eventById log id).map (rowOf P) := by
    rw [List.find?_map]
    rfl
  unfold sourceRowIsExternal sourceIsExternalInTx
  rw [hfind]
  cases hev : eventById log id with
  | none => rfl
  | some ev =>
      have hback := hread ev (mem_of_eventById hev).1
      simp [rowOf, hback]

theorem tipRowHash_rowOf (P : Primitives) (log : EventLog) :
    tipRowHash (log.map (rowOf P)) = tipHash log := by
  unfold tipRowHash tipHash
  rw [List.getLast?_map]
  cases log.getLast? with
  | none => rfl
  | some e => rfl

theorem linkedRowEvent_rowOf {P : Primitives} {log : EventLog}
    (hread : Readable P log) (st : Stamp) (event : Event) :
    linkedRowEvent P st (log.map (rowOf P)) event =
      linkedEvent (P.mint st) log event := by
  have htaint : event.sources.any
      (sourceRowIsExternal P (log.map (rowOf P))) =
      taintedInTx log event := by
    have hfun : sourceRowIsExternal P (log.map (rowOf P)) =
        sourceIsExternalInTx log :=
      funext (sourceRowIsExternal_rowOf hread)
    rw [taintedInTx, hfun]
  simp only [linkedRowEvent, linkedEvent, stampedContent, htaint,
    tipRowHash_rowOf]
  rfl

/-- **The rows refine the log.** Inserting into the rows of a log gives the
rows of the log with the event appended. -/
theorem appendRowInTx_refines {P : Primitives} {log : EventLog}
    (hread : Readable P log) (st : Stamp) (event : Event) :
    appendRowInTx P st (log.map (rowOf P)) event =
      (appendEventInTx (P.mint st) log event).map
        fun r => (r.1.map (rowOf P), r.2) := by
  have hlinked := linkedRowEvent_rowOf hread st event
  have hids : (log.map (rowOf P)).any (fun r => r.id == st.id) =
      log.any (fun e => e.id == st.id) := by
    rw [List.any_map]
    rfl
  have hhashes : ∀ hex, (log.map (rowOf P)).any (fun r => r.hash == hex) =
      log.any (fun e => hashColumn e == hex) := by
    intro hex
    rw [List.any_map]
    rfl
  simp only [appendRowInTx, appendEventInTx, hlinked, hids, hhashes]
  have hseal : (P.mint st).sealOf (linkedEvent (P.mint st) log event) =
      match computeHash P (linkedEvent (P.mint st) log event) with
      | .error err => .error err
      | .ok digest => .ok (Hex.encode digest, P.signHash digest) := rfl
  have hid : (P.mint st).id = st.id := rfl
  rw [hseal, hid]
  cases computeHash P (linkedEvent (P.mint st) log event) with
  | error err => rfl
  | ok digest =>
      simp only
      split
      · rfl
      · split
        · rfl
        · simp [Except.map]

end AirNote
