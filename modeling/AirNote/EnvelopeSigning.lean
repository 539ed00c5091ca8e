import AirNote.A2AEnvelope
import AirNote.Lib.Base58
import AirNote.Lib.Doubles

/-!
# Signatures of two implementations

An envelope is signed and verified in Rust and in JavaScript. The Rust code
canonicalises the envelope it has typed; the JavaScript code canonicalises
the object it holds, whatever its members. The libraries — normalisation,
RFC 8785, Ed25519, the other bases of a multibase text — are parameters, and
what is relied on of them is `Libraries.Lawful`.

## Main results

* `signatures_agree` — what one implementation signs the other verifies, as
  long as the envelope is spelled out and its integers survive a double.
-/

namespace AirNote.A2A

open Lib

/-- The library functions both implementations are built on. -/
structure Libraries where
  /-- Unicode NFC. -/
  nfc : String → String
  /-- `canonicalize` in JavaScript. -/
  canonicalize : Json → String
  /-- `serde_jcs::to_vec`. -/
  toVec : Json → Except String Bytes
  /-- `multibase::decode` of a text whose base is not `z`. -/
  decodeOther : List Char → Except String Bytes
  /-- What JavaScript holds of a number that is not an integer. -/
  readFraction : String → Json
  Key : Type
  publicKey : Key → Bytes
  nodeSign : Key → Bytes → Bytes
  nodeVerify : Bytes → Bytes → Bytes → Except String Bool
  dalekSign : Key → Bytes → Bytes
  dalekVerify : Bytes → Bytes → Bytes → Except String Unit

/-- What is relied on of the libraries. -/
structure Libraries.Lawful (L : Libraries) : Prop where
  /-- Both canonical texts are the one of RFC 8785. -/
  rfc8785 : ∃ fraction, (∀ j, (L.canonicalize j).toList =
    Jcs.text fraction j) ∧ ∀ j, L.toVec j = .ok (Jcs.bytes fraction j)
  nodeSign_length : ∀ k m, (L.nodeSign k m).length = 64
  dalekSign_length : ∀ k m, (L.dalekSign k m).length = 64
  /-- Each Ed25519 verifies what the other signed. -/
  dalekVerify_nodeSign : ∀ k m,
    L.dalekVerify (L.publicKey k) m (L.nodeSign k m) = .ok ()
  nodeVerify_dalekSign : ∀ k m,
    L.nodeVerify (L.publicKey k) m (L.dalekSign k m) = .ok true

/-- `multibase::encode(Base58Btc, …)`, and `"z" + bs58.encode(…)`. -/
def multibaseEncode (bytes : Bytes) : String :=
  String.ofList ('z' :: Base58.encode bytes)

/-! ## The implementation in Rust -/

/-- `A2AError`. -/
inductive A2AError where
  | invalidEncoding (message : String)
  | multibase (message : String)
  | canonical (message : String)
  | signature (message : String)
  deriving DecidableEq

/-- `canonical_bytes`. -/
def canonicalBytes (L : Libraries) (e : Envelope) : Except A2AError Bytes :=
  match L.toVec (nfcNormalize L.nfc
      (.obj (Json.removeKey "signature" e.toFields))) with
  | .ok bytes => .ok bytes
  | .error err => .error (.canonical s!"serde_jcs: {err}")

/-- `sign_envelope`. -/
def signEnvelope (L : Libraries) (e : Envelope) (key : L.Key) :
    Except A2AError Envelope :=
  match e.signature with
  | some _ => .error (.invalidEncoding
      "envelope already signed; clear `signature` before re-signing")
  | none =>
      match canonicalBytes L e with
      | .error err => .error err
      | .ok canonical => .ok { e with
          signature := some (multibaseEncode (L.dalekSign key canonical)) }

/-- `multibase::decode`. -/
def multibaseDecode (L : Libraries) (text : String) : Except String Bytes :=
  match text.toList with
  | 'z' :: rest =>
      match Base58.decode rest with
      | some bytes => .ok bytes
      | none => .error "Invalid base string"
  | other => L.decodeOther other

/-- `verify_envelope`. -/
def verifyEnvelope (L : Libraries) (e : Envelope) (key : Bytes) :
    Except A2AError Unit :=
  match e.signature with
  | none => .error (.invalidEncoding "envelope has no signature")
  | some sigMb =>
      match multibaseDecode L sigMb with
      | .error err => .error (.multibase s!"decode signature: {err}")
      | .ok raw =>
          if raw.length ≠ 64 then
            .error (.invalidEncoding
              s!"signature must be 64 bytes, got {raw.length}")
          else
            match canonicalBytes L { e with signature := none } with
            | .error err => .error err
            | .ok canonical =>
                match L.dalekVerify key canonical raw with
                | .ok () => .ok ()
                | .error err => .error (.signature err)

/-! ## The implementation in JavaScript -/

namespace Js

mutual

/-- `nfcNormalize`: an assignment to `__proto__` makes no member. -/
def nfcNormalize (nfc : String → String) : Json → Json
  | .str s => .str (nfc s)
  | .arr items => .arr (nfcItems nfc items)
  | .obj fields => .obj (nfcFields nfc fields)
  | .null => .null
  | .bool b => .bool b
  | .num n => .num n
  | .float t => .float t

def nfcItems (nfc : String → String) : List Json → List Json
  | [] => []
  | v :: rest => nfcNormalize nfc v :: nfcItems nfc rest

def nfcFields (nfc : String → String) :
    List (String × Json) → List (String × Json)
  | [] => []
  | (k, v) :: rest =>
      if k = protoName then nfcFields nfc rest
      else (k, nfcNormalize nfc v) :: nfcFields nfc rest

end

/-- `canonicalBytes` of the members of an envelope. -/
def canonicalBytes (L : Libraries) (held : List (String × Json)) : Bytes :=
  (Utf8.encodeText (L.canonicalize (nfcNormalize L.nfc
    (.obj (Json.removeKey "signature" held)))).toList).map UInt8.ofNat

/-- Whether a member counts as true. -/
def truthy : Option Json → Bool
  | none => false
  | some .null => false
  | some (.bool b) => b
  | some (.num n) => n ≠ 0
  | some (.str s) => s ≠ ""
  | some _ => true

/-- `signEnvelope`. -/
def signEnvelope (L : Libraries) (held : List (String × Json))
    (key : L.Key) : Except String (List (String × Json)) :=
  if truthy (Json.lookup "signature" held) then
    .error "envelope already signed; clear `signature` before re-signing"
  else
    .ok (Json.insertKey "signature"
      (.str (multibaseEncode (L.nodeSign key (canonicalBytes L held)))) held)

/-- `bs58.decode(text.slice(1))`: `slice` leaves half a character of one that
takes two units. -/
def decodeSliced (text : String) : Except String Bytes :=
  match text.toList with
  | [] => .ok []
  | c :: rest =>
      if c.toNat < 0x10000 then
        match Base58.decode rest with
        | some bytes => .ok bytes
        | none => .error "Non-base58 character"
      else .error "Non-base58 character"

/-- `verifyEnvelope`. -/
def verifyEnvelope (L : Libraries) (held : List (String × Json))
    (rawPub : Bytes) : Except String Bool :=
  if truthy (Json.lookup "signature" held) then
    match Json.lookup "signature" held with
    | some (.str s) =>
        match decodeSliced s with
        | .error err => .error err
        | .ok sig =>
            if sig.length ≠ 64 then
              .error s!"signature must be 64 bytes, got {sig.length}"
            else L.nodeVerify rawPub (canonicalBytes L held) sig
    | _ => .error "envelope.signature.slice is not a function"
  else .error "envelope has no signature"

/-- An integer read into a number and written again. -/
def readInteger : Int → Int
  | .ofNat n => Doubles.through n
  | .negSucc n => -Doubles.through (n + 1)

/-- Of members of one name the last is kept, in the place of the first. -/
def lastWins (fields : List (String × Json)) : List (String × Json) :=
  fields.foldl (fun held f => Json.insertKey f.1 f.2 held) []

mutual

/-- `JSON.parse` of the text of a value. -/
def read (L : Libraries) : Json → Json
  | .num n => .num (readInteger n)
  | .float t => L.readFraction t
  | .arr items => .arr (readItems L items)
  | .obj fields => .obj (lastWins (readFields L fields))
  | .null => .null
  | .bool b => .bool b
  | .str s => .str s

def readItems (L : Libraries) : List Json → List Json
  | [] => []
  | v :: rest => read L v :: readItems L rest

def readFields (L : Libraries) :
    List (String × Json) → List (String × Json)
  | [] => []
  | (k, v) :: rest => (k, read L v) :: readFields L rest

end

end Js

/-! ## The canonical text of an object that is held -/

theorem Js.map_fst_nfcFields (nfc : String → String)
    {fields : List (String × Json)}
    (hproto : protoName ∉ fields.map Prod.fst) :
    (Js.nfcFields nfc fields).map Prod.fst = fields.map Prod.fst := by
  induction fields with
  | nil => rfl
  | cons f rest ih =>
      rw [List.map_cons, List.mem_cons, not_or] at hproto
      simp [Js.nfcFields, Ne.symm hproto.1, ih hproto.2]

theorem Js.lookup_nfcFields (nfc : String → String) (k : String)
    {fields : List (String × Json)}
    (hproto : protoName ∉ fields.map Prod.fst) :
    Json.lookup k (Js.nfcFields nfc fields) =
      (Json.lookup k fields).map (Js.nfcNormalize nfc) := by
  induction fields with
  | nil => rfl
  | cons f rest ih =>
      rw [List.map_cons, List.mem_cons, not_or] at hproto
      rw [Js.nfcFields, if_neg (Ne.symm hproto.1), Json.lookup, Json.lookup,
        ih hproto.2]
      split <;> rfl

/-- The canonical text of a value as JavaScript normalises it. -/
def Js.normalText (nfc fraction : String → String) (j : Json) : List Char :=
  Jcs.text fraction (Js.nfcNormalize nfc j)

theorem Js.byMembers_normalText (nfc fraction : String → String) :
    ByMembers (Js.normalText nfc fraction) :=
  byMembers_of fraction (fun _ => rfl)
    (fun _ hproto => Js.map_fst_nfcFields nfc hproto)
    fun k _ hproto => Js.lookup_nfcFields nfc k hproto

/-! ## The members of a typed envelope -/

theorem Js.nfcNormalize_nullable (nfc : String → String)
    (s : Option String) :
    Js.nfcNormalize nfc (nullable s) =
      AirNote.nfcNormalize nfc (nullable s) := by
  cases s <;> rfl

theorem Js.nfcFields_value (nfc : String → String) (v : Value) :
    Js.nfcFields nfc v.toFields = AirNote.nfcFields nfc v.toFields := by
  cases v <;> rfl

theorem Js.nfcFields_body (nfc : String → String) (b : MessageBody) :
    Js.nfcFields nfc b.toFields = AirNote.nfcFields nfc b.toFields := by
  cases b <;> simp [MessageBody.toFields, Js.nfcFields, AirNote.nfcFields,
    Js.nfcNormalize_nullable, Js.nfcNormalize, AirNote.nfcNormalize,
    Js.nfcFields_value, protoName]

/-- A typed envelope has one canonical text. -/
theorem Js.nfcNormalize_envelope (nfc : String → String) (e : Envelope) :
    Js.nfcNormalize nfc (.obj (Json.removeKey "signature" e.toFields)) =
      AirNote.nfcNormalize nfc
        (.obj (Json.removeKey "signature" e.toFields)) := by
  simp [Envelope.removeKey_signature, Js.nfcFields, AirNote.nfcFields,
    Js.nfcNormalize_nullable, Js.nfcNormalize, AirNote.nfcNormalize,
    Js.nfcFields_body, protoName]

/-- The integers of a value. -/
def Value.integers : Value → List Nat
  | .cash amountCents _ => [amountCents.toNat]
  | .item _ quantity => [quantity.toNat]

/-- The integers of a body. -/
def MessageBody.integers : MessageBody → List Nat
  | .offer o => o.offeredValue.integers
  | .counter c => c.counterValue.integers
  | _ => []

/-- The integers of an envelope. -/
def Envelope.integers (e : Envelope) : List Nat := e.body.integers

/-! ## What JavaScript reads of a typed envelope -/

theorem insertKey_of_absent {k : String} {fields : List (String × Json)}
    (h : k ∉ fields.map Prod.fst) (v : Json) :
    Json.insertKey k v fields = fields ++ [(k, v)] := by
  induction fields with
  | nil => rfl
  | cons f rest ih =>
      rw [List.map_cons, List.mem_cons, not_or] at h
      rw [Json.insertKey, if_neg (Ne.symm h.1), ih h.2, List.cons_append]

/-- Members of different names are all kept. -/
theorem Js.foldl_insertKey (fields : List (String × Json)) :
    ∀ held : List (String × Json), ((held ++ fields).map Prod.fst).Nodup →
      fields.foldl (fun held f => Json.insertKey f.1 f.2 held) held =
        held ++ fields := by
  induction fields with
  | nil => simp
  | cons f fields ih =>
      intro held hnodup
      have habsent : f.1 ∉ held.map Prod.fst := by
        rw [List.map_append, List.nodup_append] at hnodup
        intro hmem
        exact hnodup.2.2 _ hmem _ (List.mem_map_of_mem List.mem_cons_self) rfl
      rw [List.foldl_cons, insertKey_of_absent habsent, ih]
      · simp
      · simpa using hnodup

theorem Js.lastWins_eq {fields : List (String × Json)}
    (h : (fields.map Prod.fst).Nodup) : Js.lastWins fields = fields :=
  Js.foldl_insertKey fields [] h

variable {L : Libraries}

theorem Js.read_nullable (s : Option String) :
    Js.read L (nullable s) = nullable s := by
  cases s <;> rfl

theorem Js.readInteger_natCast {n : Nat} (h : Doubles.through n = n) :
    Js.readInteger n = n := by
  change (Doubles.through n : Int) = n
  rw [h]

theorem Js.read_value {v : Value}
    (h : ∀ n ∈ v.integers, Doubles.through n = n) :
    Js.read L (.obj v.toFields) = .obj v.toFields := by
  have hread : Js.readFields L v.toFields = v.toFields := by
    cases v with
    | cash amountCents currency =>
        have hamount := h amountCents.toNat (by simp [Value.integers])
        simp [Value.toFields, Js.readFields, Js.read,
          Js.readInteger_natCast hamount]
    | item itemId quantity =>
        have hquantity := h quantity.toNat (by simp [Value.integers])
        simp [Value.toFields, Js.readFields, Js.read,
          Js.readInteger_natCast hquantity]
  rw [Js.read, hread, Js.lastWins_eq v.names_nodup.1]

theorem Js.read_body {b : MessageBody}
    (h : ∀ n ∈ b.integers, Doubles.through n = n) :
    Js.read L (.obj b.toFields) = .obj b.toFields := by
  have hnodup : (b.toFields.map Prod.fst).Nodup := by
    cases b <;> simp [MessageBody.toFields]
  have hread : Js.readFields L b.toFields = b.toFields := by
    cases b with
    | offer o =>
        have hvalue := Js.read_value (L := L) (v := o.offeredValue) h
        simp only [MessageBody.toFields, Js.readFields, Js.read_nullable,
          hvalue]
        rfl
    | counter c =>
        have hvalue := Js.read_value (L := L) (v := c.counterValue) h
        simp only [MessageBody.toFields, Js.readFields, Js.read_nullable,
          hvalue]
        rfl
    | _ => simp [MessageBody.toFields, Js.readFields, Js.read_nullable,
        Js.read]
  rw [Js.read, hread, Js.lastWins_eq hnodup]

/-- An envelope whose integers survive a double is read as it is written. -/
theorem Js.read_envelope {e : Envelope}
    (h : ∀ n ∈ e.integers, Doubles.through n = n) :
    Js.read L (.obj e.toFields) = .obj e.toFields := by
  have hnodup : (e.toFields.map Prod.fst).Nodup := by
    simp [Envelope.toFields]
  have hread : Js.readFields L e.toFields = e.toFields := by
    have hbody := Js.read_body (L := L) h
    simp only [Envelope.toFields, Js.readFields, Js.read_nullable, hbody]
    rfl
  rw [Js.read, hread, Js.lastWins_eq hnodup]

/-! ## Signatures -/

theorem toList_multibaseEncode (bytes : Bytes) :
    (multibaseEncode bytes).toList = 'z' :: Base58.encode bytes :=
  String.toList_ofList

theorem multibaseDecode_encode (bytes : Bytes) :
    multibaseDecode L (multibaseEncode bytes) = .ok bytes := by
  rw [multibaseDecode, toList_multibaseEncode]
  simp only [Base58.decode_encode]

theorem Js.decodeSliced_encode (bytes : Bytes) :
    Js.decodeSliced (multibaseEncode bytes) = .ok bytes := by
  rw [Js.decodeSliced, toList_multibaseEncode]
  simp only [Base58.decode_encode]
  rfl

theorem multibaseEncode_ne_empty (bytes : Bytes) :
    multibaseEncode bytes ≠ "" := by
  intro h
  have hlist := toList_multibaseEncode bytes
  rw [h] at hlist
  cases hlist

/-- The signature does not depend on the one it replaces. -/
theorem canonicalBytes_signature (e : Envelope) (s : Option String) :
    canonicalBytes L { e with signature := s } = canonicalBytes L e := by
  simp only [canonicalBytes, Envelope.removeKey_signature]

/-- What the Rust verifier says of a signature of 64 bytes. -/
theorem verifyEnvelope_signed {e : Envelope} {sig : Bytes}
    (hsig : e.signature = some (multibaseEncode sig)) (hlen : sig.length = 64)
    {canonical : Bytes} (hcanonical : canonicalBytes L e = .ok canonical)
    (key : Bytes) :
    verifyEnvelope L e key = match L.dalekVerify key canonical sig with
      | .ok () => .ok ()
      | .error err => .error (.signature err) := by
  have hunsigned : canonicalBytes L { e with signature := none } =
      .ok canonical := (canonicalBytes_signature e none).trans hcanonical
  simp only [verifyEnvelope, hsig, multibaseDecode_encode, hlen, hunsigned,
    ne_eq, not_true_eq_false, if_false]

/-- What the JavaScript verifier says of a signature of 64 bytes. -/
theorem Js.verifyEnvelope_signed {held : List (String × Json)} {sig : Bytes}
    (hsig : Json.lookup "signature" held =
      some (.str (multibaseEncode sig))) (hlen : sig.length = 64)
    (rawPub : Bytes) :
    Js.verifyEnvelope L held rawPub =
      L.nodeVerify rawPub (Js.canonicalBytes L held) sig := by
  have htruthy : Js.truthy (some (.str (multibaseEncode sig))) = true := by
    simp [Js.truthy, multibaseEncode_ne_empty]
  simp only [Js.verifyEnvelope, hsig, htruthy, if_true,
    Js.decodeSliced_encode, hlen, ne_eq, not_true_eq_false, if_false]

/-- An object whose envelope has no signature, or an empty one, is not
signed for JavaScript. -/
theorem Js.truthy_signature {held : List (String × Json)} {e : Envelope}
    (hread : Envelope.ofJson (.obj held) = some e)
    (h : e.signature.getD "" = "") :
    Js.truthy (Json.lookup "signature" held) = false := by
  obtain ⟨m, hm, hmembers⟩ := Option.bind_eq_some_iff.mp hread
  obtain ⟨-, rfl⟩ := structMembers_obj hm
  obtain ⟨-, -, -, -, -, -, -, -, hsignature⟩ :=
    Envelope.ofMembers_eq_some.1 hmembers
  by_cases hnone : Json.lookup "signature" held = none
  · rw [hnone]
    rfl
  · rw [readNullable_eq hsignature hnone]
    cases hs : e.signature with
    | none => rfl
    | some s =>
        rw [hs, Option.getD_some] at h
        simp [nullable, Js.truthy, h]

theorem Js.signEnvelope_unsigned {held : List (String × Json)}
    (h : Js.truthy (Json.lookup "signature" held) = false) (k : L.Key) :
    Js.signEnvelope L held k = .ok (Json.insertKey "signature"
      (.str (multibaseEncode (L.nodeSign k (Js.canonicalBytes L held))))
      held) := by
  rw [Js.signEnvelope, h, if_neg Bool.false_ne_true]

/-- The bytes JavaScript signs of an object that has the text of a typed
envelope are the ones Rust signs of the envelope. -/
theorem canonicalBytes_eq (hL : L.Lawful) {held : List (String × Json)}
    {e : Envelope}
    (htext : ∀ fraction,
      Js.normalText L.nfc fraction (.obj (Json.removeKey "signature" held)) =
        Js.normalText L.nfc fraction
          (.obj (Json.removeKey "signature" e.toFields))) :
    canonicalBytes L e = .ok (Js.canonicalBytes L held) := by
  obtain ⟨fraction, hcanonicalize, htoVec⟩ := hL.rfc8785
  have hheld : Jcs.text fraction (Js.nfcNormalize L.nfc
      (.obj (Json.removeKey "signature" held))) =
        Jcs.text fraction (AirNote.nfcNormalize L.nfc
          (.obj (Json.removeKey "signature" e.toFields))) := by
    rw [← Js.nfcNormalize_envelope]
    exact htext fraction
  rw [canonicalBytes, htoVec, Js.canonicalBytes, hcanonicalize, hheld]
  rfl

/-- What Rust says of an object that JavaScript signed. -/
theorem verifyEnvelope_held (hL : L.Lawful) {held : List (String × Json)}
    {e : Envelope} (hread : Envelope.ofJson (.obj held) = some e)
    (hunsigned : e.signature.getD "" = "") {canonical : Bytes}
    (hcanonical : canonicalBytes L e = .ok canonical) (k : L.Key) :
    ∃ signed, Js.signEnvelope L held k = .ok signed ∧
      ∃ e', Envelope.ofJson (.obj signed) = some e' ∧
        verifyEnvelope L e' (L.publicKey k) =
          match L.dalekVerify (L.publicKey k) canonical
              (L.nodeSign k (Js.canonicalBytes L held)) with
          | .ok () => .ok ()
          | .error err => .error (.signature err) := by
  have hfalsy := Js.truthy_signature hread hunsigned
  refine ⟨_, Js.signEnvelope_unsigned hfalsy k, _,
    Envelope.ofJson_insertKey_signature hread _, ?_⟩
  exact verifyEnvelope_signed rfl (hL.nodeSign_length k _)
    ((canonicalBytes_signature e _).trans hcanonical) _

/-- **What one implementation signs, the other verifies.** An envelope signed
in Rust verifies in JavaScript when its integers survive a double; an object
signed in JavaScript verifies in Rust when it spells out the members of the
envelope it is typed as, and no other. -/
theorem signatures_agree (hL : L.Lawful) (k : L.Key) :
    (∀ e : Envelope, e.signature = none →
      (∀ n ∈ e.integers, Doubles.through n = n) →
      ∃ signed, signEnvelope L e k = .ok signed ∧
        ∃ held, Js.read L (.obj signed.toFields) = .obj held ∧
          Js.verifyEnvelope L held (L.publicKey k) = .ok true) ∧
    ∀ (held : List (String × Json)) (e : Envelope),
      Envelope.ofJson (.obj held) = some e →
      e.signature.getD "" = "" →
      Spelled (.obj (Json.removeKey "signature" e.toFields))
        (.obj (Json.removeKey "signature" held)) →
      ∃ signed, Js.signEnvelope L held k = .ok signed ∧
        ∃ e', Envelope.ofJson (.obj signed) = some e' ∧
          verifyEnvelope L e' (L.publicKey k) = .ok () := by
  constructor
  · intro e hunsigned hintegers
    have hcanonical : canonicalBytes L e =
        .ok (Js.canonicalBytes L e.toFields) :=
      canonicalBytes_eq hL fun _ => rfl
    refine ⟨{ e with
      signature := some (multibaseEncode
        (L.dalekSign k (Js.canonicalBytes L e.toFields))) }, ?_, _,
      Js.read_envelope hintegers, ?_⟩
    · simp only [signEnvelope, hunsigned, hcanonical]
    · rw [Js.verifyEnvelope_signed rfl (hL.dalekSign_length k _)]
      exact hL.nodeVerify_dalekSign k _
  · intro held e hread hunsigned hspelled
    have hcanonical : canonicalBytes L e = .ok (Js.canonicalBytes L held) :=
      canonicalBytes_eq hL fun fraction =>
        Envelope.text_eq (Js.byMembers_normalText L.nfc fraction) hread
          hspelled
    obtain ⟨signed, hsigned, e', hread', hverify⟩ :=
      verifyEnvelope_held hL hread hunsigned hcanonical k
    rw [hL.dalekVerify_nodeSign] at hverify
    exact ⟨signed, hsigned, e', hread', hverify⟩

/-! ## Envelopes on which they differ -/

/-- A checksum of some bytes. -/
def checksum (bytes : Bytes) : UInt8 := bytes.foldl (· + ·) 0

/-- Libraries that can be run: a signature is a checksum. -/
def sumLibs : Libraries where
  nfc := id
  canonicalize j := String.ofList (Jcs.text id j)
  toVec j := .ok (Jcs.bytes id j)
  decodeOther _ := .error "Unknown base code"
  readFraction := .float
  Key := Unit
  publicKey _ := List.replicate 32 0
  nodeSign _ m := List.replicate 64 (checksum m)
  nodeVerify _ m sig := .ok (sig = List.replicate 64 (checksum m))
  dalekSign _ m := List.replicate 64 (checksum m)
  dalekVerify _ m sig :=
    if sig = List.replicate 64 (checksum m) then .ok ()
    else .error "signature error"

theorem sumLibs_lawful : sumLibs.Lawful where
  rfc8785 := ⟨id, fun _ => String.toList_ofList, fun _ => rfl⟩
  nodeSign_length _ _ := List.length_replicate
  dalekSign_length _ _ := List.length_replicate
  dalekVerify_nodeSign _ _ := if_pos rfl
  nodeVerify_dalekSign _ _ := congrArg Except.ok (decide_eq_true rfl)

/-- The key of those libraries. -/
def sumKey : sumLibs.Key := ()

theorem sumLibs_nodeSign (m : Bytes) :
    sumLibs.nodeSign sumKey m = List.replicate 64 (checksum m) := rfl

theorem sumLibs_dalekVerify (key m sig : Bytes) :
    sumLibs.dalekVerify key m sig =
      if sig = List.replicate 64 (checksum m) then .ok ()
      else .error "signature error" := rfl

/-- An offer of an amount. -/
def offerOf (amountCents : UInt64) : Envelope where
  id := "e1"
  fromDid := "did:a"
  toDid := "did:b"
  timestamp := "2026-01-01T00:00:00Z"
  inReplyTo := none
  threadId := "t1"
  nonce := "n1"
  body := .offer ⟨"car", .cash amountCents "USD", none⟩
  signature := none

theorem signatures_agree_offer :
    (∃ signed, signEnvelope sumLibs (offerOf 1000) sumKey = .ok signed ∧
      ∃ held, Js.read sumLibs (.obj signed.toFields) = .obj held ∧
        Js.verifyEnvelope sumLibs held (sumLibs.publicKey sumKey) =
          .ok true) ∧
    ∃ signed, Js.signEnvelope sumLibs (offerOf 1000).toFields sumKey =
        .ok signed ∧
      ∃ e', Envelope.ofJson (.obj signed) = some e' ∧
        verifyEnvelope sumLibs e' (sumLibs.publicKey sumKey) = .ok () := by
  obtain ⟨hrust, hjs⟩ := signatures_agree sumLibs_lawful sumKey
  have hintegers : ∀ n ∈ (offerOf 1000).integers, Doubles.through n = n :=
    fun n hn => Doubles.through_of_le (by
      rw [List.mem_singleton.mp hn]
      decide)
  exact ⟨hrust (offerOf 1000) rfl hintegers,
    hjs (offerOf 1000).toFields (offerOf 1000) (by decide +kernel) rfl
      (Envelope.spelled_unsigned (offerOf 1000))⟩

/-- The members of an offer that leaves out what it answers. -/
def terseOffer : List (String × Json) :=
  Json.removeKey "in_reply_to" (offerOf 1000).toFields

/-- The members of an offer with one that the type does not know. -/
def annotatedOffer : List (String × Json) :=
  Json.insertKey "x" .null (offerOf 1000).toFields

/-- The bytes Rust signs of an offer of 1000. -/
def offerBytes : Bytes :=
  Jcs.bytes id (AirNote.nfcNormalize id
    (.obj (Json.removeKey "signature" (offerOf 1000).toFields)))

theorem canonicalBytes_checksum (held : List (String × Json)) :
    Js.canonicalBytes sumLibs held =
      Jcs.bytes id (Js.nfcNormalize id
        (.obj (Json.removeKey "signature" held))) := by
  simp only [Js.canonicalBytes, sumLibs, String.toList_ofList]
  rfl

theorem verify_error {held : List (String × Json)}
    (hread : Envelope.ofJson (.obj held) = some (offerOf 1000))
    (hchecksum : checksum (Js.canonicalBytes sumLibs held) ≠
      checksum offerBytes) :
    ∃ signed, Js.signEnvelope sumLibs held sumKey = .ok signed ∧
      ∃ e', Envelope.ofJson (.obj signed) = some e' ∧
        verifyEnvelope sumLibs e' (sumLibs.publicKey sumKey) =
          .error (.signature "signature error") := by
  have hcanonical : canonicalBytes sumLibs (offerOf 1000) =
      .ok offerBytes := rfl
  obtain ⟨signed, hsigned, e', hread', hverify⟩ :=
    verifyEnvelope_held sumLibs_lawful hread rfl hcanonical sumKey
  have hne : sumLibs.dalekVerify (sumLibs.publicKey sumKey) offerBytes
      (sumLibs.nodeSign sumKey (Js.canonicalBytes sumLibs held)) =
        .error "signature error" := by
    rw [sumLibs_dalekVerify, sumLibs_nodeSign, if_neg]
    exact fun h => hchecksum ((List.replicate_right_inj (by decide)).mp h)
  rw [hne] at hverify
  exact ⟨signed, hsigned, e', hread', hverify⟩

/-- **An amount of 2⁵³ + 1** is signed in Rust and read as another in
JavaScript; an object that leaves out an optional member or has one more is
signed in JavaScript and typed as one with other members in Rust. -/
theorem signatures_differ :
    sumLibs.Lawful ∧
      (∃ signed, signEnvelope sumLibs
          (offerOf (UInt64.ofNat (2 ^ 53 + 1))) sumKey = .ok signed ∧
        ∃ held, Js.read sumLibs (.obj signed.toFields) =
            .obj held ∧
          Js.verifyEnvelope sumLibs held (sumLibs.publicKey sumKey) =
            .ok false) ∧
      ∀ held ∈ [terseOffer, annotatedOffer],
        Envelope.ofJson (.obj held) = some (offerOf 1000) ∧
        ∃ signed, Js.signEnvelope sumLibs held sumKey = .ok signed ∧
          ∃ e', Envelope.ofJson (.obj signed) = some e' ∧
            verifyEnvelope sumLibs e' (sumLibs.publicKey sumKey) =
              .error (.signature "signature error") := by
  refine ⟨sumLibs_lawful, ?_, ?_⟩
  · let e := offerOf (UInt64.ofNat (2 ^ 53 + 1))
    let sig := List.replicate 64 (checksum
      (Jcs.bytes id (AirNote.nfcNormalize id
        (.obj (Json.removeKey "signature" e.toFields)))))
    have hchecksum : checksum (Jcs.bytes id (AirNote.nfcNormalize id
        (.obj (Json.removeKey "signature" e.toFields)))) ≠
          checksum (Js.canonicalBytes sumLibs
            (Js.readFields sumLibs e.toFields)) := by
      rw [canonicalBytes_checksum]
      decide +kernel
    refine ⟨{ e with signature := some (multibaseEncode sig) }, rfl,
      Js.readFields sumLibs
        ({ e with signature := some (multibaseEncode sig) } :
          Envelope).toFields, ?_, ?_⟩
    · rw [Js.read, Js.lastWins_eq]
      simp [Envelope.toFields, Js.readFields]
    · rw [Js.verifyEnvelope_signed rfl List.length_replicate]
      refine congrArg Except.ok (decide_eq_false fun h => hchecksum ?_)
      exact (List.replicate_right_inj (by decide)).mp h
  · intro held hheld
    simp only [List.mem_cons, List.not_mem_nil, or_false] at hheld
    rcases hheld with rfl | rfl
    · have hread : Envelope.ofJson (.obj terseOffer) =
          some (offerOf 1000) := by decide +kernel
      exact ⟨hread, verify_error hread (by
        rw [canonicalBytes_checksum]
        decide +kernel)⟩
    · have hread : Envelope.ofJson (.obj annotatedOffer) =
          some (offerOf 1000) := by decide +kernel
      exact ⟨hread, verify_error hread (by
        rw [canonicalBytes_checksum]
        decide +kernel)⟩

end AirNote.A2A
