import AirNote.EnvelopeSigning
import AirNote.Lib.Aead
import AirNote.Lib.Hex
import AirNote.Lib.Lines

/-!
# Sealed bodies

The body of an envelope is sealed for one recipient: a key is agreed between an
ephemeral scalar and the recipient's signing key, taken over to Curve25519, and
the canonical text of the body is encrypted beside the members of the envelope
that say whose it is. Rust and JavaScript each seal and open; a body sealed in
one opens in the other. In any other envelope a sealed body opens only where
two tags agree.

The primitives are parameters, and what is relied on of them is
`SealLibraries.Lawful`.

## Main results

* `open_seal` — both openers give back what either sealer has sealed.
* `Js.aad_binds_members` — the data beside a body are those of one envelope.
* `Js.sealed_envelope_opens` — what a recipient makes of a sealed envelope, and
  of any other one with its body.
-/

namespace AirNote.A2A

open Lib

/-! ## The libraries -/

/-- Bytes of a length that the type of an array has. -/
abbrev BytesOf (n : Nat) : Type := { bytes : Bytes // bytes.length = n }

/-- The libraries that a body is sealed with. -/
structure SealLibraries extends Libraries where
  /-- X25519 of a scalar and a point. -/
  x25519 : BytesOf 32 → BytesOf 32 → BytesOf 32
  sha512 : Bytes → BytesOf 64
  /-- HKDF with SHA-256, of a salt, a secret and an info. -/
  hkdfSha256 : Bytes → Bytes → Bytes → BytesOf 32
  /-- ChaCha20-Poly1305. -/
  chaCha20Poly1305 : Aead.Cipher (BytesOf 32) (BytesOf 12) UInt8
  /-- The public key of an Ed25519 seed. -/
  ed25519Public : BytesOf 32 → BytesOf 32
  /-- `CompressedEdwardsY::decompress` and `to_montgomery`. -/
  toMontgomery : BytesOf 32 → Option (BytesOf 32)
  edwardsToMontgomeryPub : BytesOf 32 → Except String (BytesOf 32)
  edwardsToMontgomeryPriv : BytesOf 32 → BytesOf 32
  /-- `URL_SAFE_NO_PAD.encode`, and `toString("base64url")`. -/
  base64url : Bytes → String
  /-- `URL_SAFE_NO_PAD.decode`. -/
  decodeBase64url : String → Except String Bytes
  /-- `Buffer.from(value, "base64url")`. -/
  bufferFrom : Option Json → Except String Bytes
  /-- `JSON.parse`. -/
  jsonParse : String → Except String Json
  /-- `serde_json::from_slice`. -/
  fromSlice : Bytes → Except String Json
  /-- A value in a template. -/
  template : Option Json → String
  /-- A value as `serde_json` displays it. -/
  display : Json → String

/-- The coordinate of the base point of Curve25519. -/
def basePoint : BytesOf 32 := ⟨9 :: List.replicate 31 0, rfl⟩

/-- A scalar with its low bits cleared and its high bit set. -/
def clamp (scalar : BytesOf 32) : BytesOf 32 :=
  ⟨(scalar.1.modify 0 (· &&& 248)).modify 31 fun b => (b &&& 127) ||| 64, by
    rw [List.length_modify, List.length_modify, scalar.2]⟩

/-- `ed25519_seed_to_x25519`. -/
def ed25519SeedToX25519 (L : SealLibraries) (seed : BytesOf 32) : BytesOf 32 :=
  clamp ⟨(L.sha512 seed.1).1.take 32, by
    rw [List.length_take, (L.sha512 seed.1).2]
    rfl⟩

/-- What is relied on of the libraries. -/
structure SealLibraries.Lawful (L : SealLibraries) : Prop
    extends L.toLibraries.Lawful where
  nodeVerify_nodeSign : ∀ k m,
    L.nodeVerify (L.publicKey k) m (L.nodeSign k m) = .ok true
  /-- Both sides agree on one secret. -/
  x25519_comm : ∀ a b, L.x25519 a (L.x25519 b basePoint) =
    L.x25519 b (L.x25519 a basePoint)
  /-- No public key is of small order. -/
  x25519_ne_zero : ∀ a b, (L.x25519 a (L.x25519 b basePoint)).1 ≠
    List.replicate 32 0
  /-- A signing key is taken to the key of its scalar. -/
  toMontgomery_public : ∀ seed, L.toMontgomery (L.ed25519Public seed) =
    some (L.x25519 (ed25519SeedToX25519 L seed) basePoint)
  edwardsToMontgomeryPub_public : ∀ seed,
    L.edwardsToMontgomeryPub (L.ed25519Public seed) =
      .ok (L.x25519 (ed25519SeedToX25519 L seed) basePoint)
  edwardsToMontgomeryPriv_eq : ∀ seed,
    L.edwardsToMontgomeryPriv seed = ed25519SeedToX25519 L seed
  /-- No salt is a salt of zeros. -/
  hkdfSha256_zeros : L.hkdfSha256 (List.replicate 32 0) = L.hkdfSha256 []
  tagLength : L.chaCha20Poly1305.tagLength = 16
  /-- Both decoders take the one encoding back. -/
  decodeBase64url_base64url : ∀ bytes,
    L.decodeBase64url (L.base64url bytes) = .ok bytes
  bufferFrom_base64url : ∀ bytes,
    L.bufferFrom (some (.str (L.base64url bytes))) = .ok bytes

/-- The bytes of a text. -/
def utf8Bytes (text : List Char) : Bytes :=
  (Utf8.encodeText text).map UInt8.ofNat

/-- The text of some bytes. -/
def utf8Text (bytes : Bytes) : String :=
  String.ofList (Utf8.decode (bytes.map UInt8.toNat))

/-- `E2E_ALG`. -/
def e2eAlg : String := "x25519-hkdf-sha256-chacha20poly1305"

/-- `E2E_INFO`. -/
def e2eInfo : Bytes := utf8Bytes "air-msg/e2e/v1".toList

/-- `X25519_MULTICODEC`. -/
def x25519Multicodec : Bytes := [0xec, 0x01]

/-- The members of a body that was encrypted. -/
def encryptedBody (epk nonce ct : String) : List (String × Json) :=
  [("type", .str "encrypted"), ("alg", .str e2eAlg), ("v", .num 1),
    ("epk", .str epk), ("nonce", .str nonce), ("ct", .str ct)]

/-! ## In Rust -/

section Rust

variable (L : SealLibraries)

/-- `ed25519_pub_to_x25519`. -/
def ed25519PubToX25519 (edPub : BytesOf 32) :
    Except A2AError (BytesOf 32) :=
  match L.toMontgomery edPub with
  | some point => .ok point
  | none => .error (.invalidEncoding "invalid ed25519 public key")

/-- `derive_key`: no salt is one of zeros. -/
def deriveKey (shared ephPub : BytesOf 32) : BytesOf 32 :=
  L.hkdfSha256 (List.replicate 32 0) shared.1 (e2eInfo ++ ephPub.1)

/-- `canonical_body_bytes`. -/
def canonicalBodyBytes (body : Json) : Except A2AError Bytes :=
  match L.toVec (nfcNormalize L.nfc body) with
  | .ok bytes => .ok bytes
  | .error err => .error (.canonical s!"serde_jcs: {err}")

/-- `x25519_pub_multibase`. -/
def x25519PubMultibase (raw : BytesOf 32) : String :=
  multibaseEncode (x25519Multicodec ++ raw.1)

/-- `x25519_pub_from_multibase`. -/
def x25519PubFromMultibase (mb : String) : Except A2AError (BytesOf 32) :=
  match multibaseDecode L.toLibraries mb with
  | .error err => .error (.multibase s!"decode epk: {err}")
  | .ok bytes =>
      if h : bytes.length = 34 ∧ bytes.take 2 = x25519Multicodec then
        .ok ⟨bytes.drop 2, by rw [List.length_drop, h.1]⟩
      else .error (.invalidEncoding "not an X25519 multicodec key")

/-- The cipher of the crate counts its blocks in 32 bits. -/
def crateFits (length : Nat) : Bool := length / 64 < 2 ^ 32 - 1

/-- `ChaCha20Poly1305::encrypt`: the tag stands behind. -/
def crateEncrypt (key : BytesOf 32) (nonce : BytesOf 12) (aad msg : Bytes) :
    Except String Bytes :=
  if crateFits msg.length then
    let out := L.chaCha20Poly1305.encrypt key nonce aad msg
    .ok (out.1 ++ out.2)
  else .error "aead::Error"

/-- `ChaCha20Poly1305::decrypt`. -/
def crateDecrypt (key : BytesOf 32) (nonce : BytesOf 12) (aad msg : Bytes) :
    Except String Bytes :=
  let split := msg.length - 16
  if msg.length < 16 ∨ crateFits split = false then .error "aead::Error"
  else
    match L.chaCha20Poly1305.decrypt key nonce aad (msg.take split)
        (msg.drop split) with
    | some text => .ok text
    | none => .error "aead::Error"

/-- `seal_body_with_ephemeral`. -/
def sealBodyWithEphemeral (body : Json) (recipientEdPub : BytesOf 32)
    (aad : Bytes) (ephSecret : BytesOf 32) (nonce : BytesOf 12) :
    Except A2AError Json :=
  match ed25519PubToX25519 L recipientEdPub with
  | .error err => .error err
  | .ok recipientX =>
      let ephPub := L.x25519 ephSecret basePoint
      let shared := L.x25519 ephSecret recipientX
      let key := deriveKey L shared ephPub
      match canonicalBodyBytes L body with
      | .error err => .error err
      | .ok plaintext =>
          match crateEncrypt L key nonce aad plaintext with
          | .error err => .error (.invalidEncoding s!"aead encrypt: {err}")
          | .ok ct => .ok (.obj (encryptedBody (x25519PubMultibase ephPub)
              (L.base64url nonce.1) (L.base64url ct)))

/-- `b64url_decode`. -/
def b64urlDecode (s : String) : Except A2AError Bytes :=
  match L.decodeBase64url s with
  | .ok bytes => .ok bytes
  | .error err => .error (.invalidEncoding s!"base64url: {err}")

/-- `enc[k].as_str().ok_or_else(…)`. -/
def memberStr (enc : Json) (k : String) : Except A2AError String :=
  match enc.getStr? k with
  | some s => .ok s
  | none => .error (.invalidEncoding k)

/-- `open_body`. -/
def openBody (enc : Json) (myEdSeed : BytesOf 32) (aad : Bytes) :
    Except A2AError Json := do
  let alg := (enc.get? "alg").getD .null
  if alg ≠ .str e2eAlg then
    .error (.invalidEncoding s!"unsupported alg: {L.display alg}")
  else
    let ephPub ← x25519PubFromMultibase L (← memberStr enc "epk")
    let nonceVec ← b64urlDecode L (← memberStr enc "nonce")
    if hnonce : nonceVec.length = 12 then
      let ct ← b64urlDecode L (← memberStr enc "ct")
      if ct.length < 16 then
        .error (.invalidEncoding
          s!"ciphertext too short: {ct.length} bytes")
      else
        let myX := ed25519SeedToX25519 L myEdSeed
        let shared := L.x25519 myX ephPub
        let key := deriveKey L shared ephPub
        match crateDecrypt L key ⟨nonceVec, hnonce⟩ aad ct with
        | .error err => .error (.signature s!"aead decrypt: {err}")
        | .ok pt =>
            match L.fromSlice pt with
            | .ok v => .ok v
            | .error err => .error (.canonical s!"plaintext json: {err}")
    else .error (.invalidEncoding
      s!"nonce must be 12 bytes, got {nonceVec.length}")

end Rust

/-! ## In JavaScript -/

namespace Js

/-- `Buffer.from(text, "hex")`: what no longer reads as digits is left out. -/
def hexBytes : List Char → Bytes
  | hi :: lo :: rest =>
      match Hex.digitVal hi, Hex.digitVal lo with
      | some h, some l => UInt8.ofNat (16 * h + l) :: hexBytes rest
      | _, _ => []
  | _ => []

section

variable (L : SealLibraries)

/-- `ed25519PubToX25519`. -/
def ed25519PubToX25519 (rawPub : Bytes) : Except String (BytesOf 32) :=
  if h : rawPub.length = 32 then L.edwardsToMontgomeryPub ⟨rawPub, h⟩
  else .error s!"Ed25519 public key must be 32 bytes, got {rawPub.length}"

/-- `ed25519SeedToX25519`. -/
def ed25519SeedToX25519 (rawSeed : Bytes) : Except String (BytesOf 32) :=
  if h : rawSeed.length = 32 then .ok (L.edwardsToMontgomeryPriv ⟨rawSeed, h⟩)
  else .error s!"Ed25519 seed must be 32 bytes, got {rawSeed.length}"

/-- `x25519PubMultibase`. -/
def x25519PubMultibase (rawPub : BytesOf 32) : String :=
  multibaseEncode (x25519Multicodec ++ rawPub.1)

/-- `bs58.decode`. -/
def bs58Decode (text : List Char) : Except String Bytes :=
  match Base58.decode text with
  | some bytes => .ok bytes
  | none => .error "Non-base58 character"

/-- `x25519PubFromMultibase`. -/
def x25519PubFromMultibase : Option Json → Except String (BytesOf 32)
  | some (.str mb) =>
      match mb.toList with
      | 'z' :: rest => do
          let bytes ← bs58Decode rest
          if bytes.take 2 ≠ x25519Multicodec then
            .error "not an X25519 multicodec key"
          else if h : bytes.length = 34 then
            .ok ⟨bytes.drop 2, by rw [List.length_drop, h]⟩
          else
            .error ("X25519 multibase key must decode to 34 bytes, " ++
              s!"got {bytes.length}")
      | _ => .error "expected multibase 'z' prefix"
  | none => .error
      "Cannot read properties of undefined (reading 'startsWith')"
  | some .null => .error
      "Cannot read properties of null (reading 'startsWith')"
  | some _ => .error "mb.startsWith is not a function"

/-- `x25519.getSharedSecret`. -/
def getSharedSecret (scalar point : BytesOf 32) :
    Except String (BytesOf 32) :=
  let shared := L.x25519 scalar point
  if shared.1 = List.replicate 32 0 then
    .error "invalid private or public key received"
  else .ok shared

/-- `deriveKey`: the salt is empty. -/
def deriveKey (shared ephPub : BytesOf 32) : BytesOf 32 :=
  L.hkdfSha256 [] shared.1 (e2eInfo ++ ephPub.1)

/-- `Buffer.from(jcsCanonical(body), "utf8")`. -/
def bodyBytes (body : Json) : Bytes :=
  utf8Bytes (L.canonicalize (nfcNormalize L.nfc body)).toList

/-- A cipher takes what a signed integer counts. -/
def nodeFits (length : Nat) : Bool := length < 2 ^ 31

/-- `createCipheriv` with `setAAD`, `update`, `final` and `getAuthTag`. -/
def nodeEncrypt (key : BytesOf 32) (nonce : BytesOf 12) (aad msg : Bytes) :
    Except String (Bytes × Bytes) :=
  if nodeFits msg.length then
    .ok (L.chaCha20Poly1305.encrypt key nonce aad msg)
  else .error "data is too long"

/-- `createDecipheriv` with `setAAD`, `setAuthTag`, `update` and `final`. -/
def nodeDecrypt (key : BytesOf 32) (nonce : BytesOf 12)
    (aad ct tag : Bytes) : Except String Bytes :=
  if nodeFits ct.length then
    match L.chaCha20Poly1305.decrypt key nonce aad ct tag with
    | some text => .ok text
    | none => .error "Unsupported state or unable to authenticate data"
  else .error "data is too long"

/-- `sealBodyWithEphemeral`. -/
def sealBodyWithEphemeral (body : Json) (recipientEd25519PubRaw aad : Bytes)
    (ephPriv : BytesOf 32) (nonce : BytesOf 12) :
    Except String (List (String × Json)) := do
  let recipientX ← ed25519PubToX25519 L recipientEd25519PubRaw
  let ephPub := L.x25519 ephPriv basePoint
  let shared ← getSharedSecret L ephPriv recipientX
  let key := deriveKey L shared ephPub
  let (ct, tag) ← nodeEncrypt L key nonce aad (bodyBytes L body)
  .ok (encryptedBody (x25519PubMultibase ephPub) (L.base64url nonce.1)
    (L.base64url (ct ++ tag)))

/-- `openBody`. -/
def openBody (encBody : List (String × Json)) (myEd25519SeedHex : String)
    (aad : Bytes) : Except String Json := do
  let alg := Json.lookup "alg" encBody
  if alg ≠ some (.str e2eAlg) then
    .error s!"unsupported alg: {L.template alg}"
  else
    let myX ← ed25519SeedToX25519 L (hexBytes myEd25519SeedHex.toList)
    let ephPub ← x25519PubFromMultibase (Json.lookup "epk" encBody)
    let shared ← getSharedSecret L myX ephPub
    let key := deriveKey L shared ephPub
    let nonce ← L.bufferFrom (Json.lookup "nonce" encBody)
    if hnonce : nonce.length = 12 then
      let ctTag ← L.bufferFrom (Json.lookup "ct" encBody)
      if ctTag.length < 16 then .error "ciphertext too short"
      else
        let tag := ctTag.drop (ctTag.length - 16)
        let ct := ctTag.take (ctTag.length - 16)
        let plaintext ← nodeDecrypt L key ⟨nonce, hnonce⟩ aad ct tag
        L.jsonParse (utf8Text plaintext)
    else .error s!"nonce must be 12 bytes, got {nonce.length}"

end

/-! ### The data beside a body -/

/-- A member of an envelope: the units of a string, or something else. -/
inductive AadField where
  | units (held : List UInt16)
  | other
  deriving DecidableEq

/-- The members a sealed body is bound to. -/
structure AadFields where
  id : AadField
  fromDid : AadField
  toDid : AadField
  threadId : AadField

/-- `Object.entries(fields)`. -/
def AadFields.entries (fields : AadFields) : List (String × AadField) :=
  [("id", fields.id), ("from", fields.fromDid), ("to", fields.toDid),
    ("thread_id", fields.threadId)]

/-- The check of one member. -/
def checkAadField : String × AadField → Except String (List UInt16)
  | (name, .units held) =>
      if held = [] then
        .error s!"AAD field \"{name}\" must be a non-empty string"
      else if 0 ∈ held then
        .error s!"AAD field \"{name}\" must not contain a NUL byte"
      else .ok held
  | (name, .other) =>
      .error s!"AAD field \"{name}\" must be a non-empty string"

/-- `Buffer.from(text, "utf8")` of the units of a string. -/
def bufferOfUnits (held : List UInt16) : Bytes :=
  utf8Bytes (Utf16.decode (held.map UInt16.toNat))

/-- `buildAad`. -/
def buildAad (fields : AadFields) : Except String Bytes := do
  let texts ← fields.entries.mapM checkAadField
  .ok (List.intercalate [0] (texts.map bufferOfUnits))

/-- A member that JSON gave. -/
def aadField : Option Json → AadField
  | some (.str s) => .units ((Utf16.encode s.toList).map UInt16.ofNat)
  | _ => .other

/-- The members of an envelope that its body is bound to. -/
def aadFields (envelope : List (String × Json)) : AadFields where
  id := aadField (Json.lookup "id" envelope)
  fromDid := aadField (Json.lookup "from" envelope)
  toDid := aadField (Json.lookup "to" envelope)
  threadId := aadField (Json.lookup "thread_id" envelope)

/-! ### Envelopes -/

section

variable (L : SealLibraries)

/-- `wrapBody`. -/
def wrapBody : Json → Json
  | .str text => .obj [("type", .str "text"), ("text", .str text)]
  | body => body

/-- An identity that signs. -/
structure Identity where
  did : String
  privateKey : L.Key

/-- What is drawn or read for one envelope. -/
structure Fresh where
  id : String
  timestamp : String
  threadId : String
  nonce : String
  ephPriv : BytesOf 32
  sealNonce : BytesOf 12

/-- `value ?? null`. -/
def orNull : Option String → Json
  | some s => .str s
  | none => .null

/-- The envelope before it is signed. -/
def unsignedEnvelope (identity : Identity L) (recipientDid : String)
    (body : Json) (threadId inReplyTo : Option String) (fresh : Fresh) :
    List (String × Json) :=
  [("id", .str fresh.id), ("from", .str identity.did),
    ("to", .str recipientDid), ("timestamp", .str fresh.timestamp),
    ("in_reply_to", orNull inReplyTo),
    ("thread_id", .str (threadId.getD fresh.threadId)),
    ("nonce", .str fresh.nonce), ("body", body)]

/-- `buildOutboundEnvelope`. -/
def buildOutboundEnvelope (identity : Identity L) (recipientDid : String)
    (recipientEd25519Pub : Option Bytes) (body : Json)
    (threadId inReplyTo : Option String) (plaintext : Bool) (fresh : Fresh) :
    Except String (List (String × Json)) :=
  let wrapped := wrapBody body
  let envelope := unsignedEnvelope L identity recipientDid wrapped threadId
    inReplyTo fresh
  if plaintext then signEnvelope L.toLibraries envelope identity.privateKey
  else
    match recipientEd25519Pub with
    | none => .error ("cannot resolve recipient's key from AIR — " ++
        "refusing to send unencrypted. " ++
        "Pass plaintext:true to send in the clear on purpose.")
    | some pub => do
        let aad ← buildAad (aadFields envelope)
        let sealedMembers ← sealBodyWithEphemeral L wrapped pub aad
          fresh.ephPriv fresh.sealNonce
        signEnvelope L.toLibraries
          (Json.insertKey "body" (.obj sealedMembers) envelope)
          identity.privateKey

/-- What a received envelope comes to. -/
structure Decoded where
  encrypted : Bool
  body : Option Json
  decryptError : Option String

/-- `decodeReceivedMessage`. -/
def decodeReceivedMessage (envelope : List (String × Json))
    (myEd25519SeedHex : String) (verified : Bool) : Decoded :=
  let body := Json.lookup "body" envelope
  let isEncrypted : Bool :=
    body.bind (fun b => b.get? "type") = some (.str "encrypted")
  if verified = false then
    ⟨isEncrypted, if isEncrypted then none else body, none⟩
  else if isEncrypted then
    match body with
    | some (.obj members) =>
        match (do
          let aad ← buildAad (aadFields envelope)
          openBody L members myEd25519SeedHex aad : Except String Json) with
        | .ok opened => ⟨true, some opened, none⟩
        | .error err => ⟨true, none, some err⟩
    | _ => ⟨true, none, none⟩
  else ⟨false, body, none⟩

end

end Js

/-! ## What both sealers write -/

section Proofs

variable {L : SealLibraries}

/-- What a body is sealed with: the recipient's seed, what stands beside the
body, an ephemeral scalar, a nonce and the canonical text. -/
structure Sealing where
  seed : BytesOf 32
  aad : Bytes
  ephSecret : BytesOf 32
  nonce : BytesOf 12
  plaintext : Bytes

namespace Sealing

variable (L) (w : Sealing)

def ephPub : BytesOf 32 := L.x25519 w.ephSecret basePoint

def key : BytesOf 32 :=
  deriveKey L
    (L.x25519 w.ephSecret (L.x25519 (ed25519SeedToX25519 L w.seed) basePoint))
    (w.ephPub L)

/-- The encrypted text. -/
def stream : Bytes :=
  L.chaCha20Poly1305.stream (w.key L) w.nonce w.plaintext

/-- The tag of the encrypted text beside some data. -/
def tag (aad : Bytes) : Bytes :=
  L.chaCha20Poly1305.tag (w.key L) w.nonce aad (w.stream L)

def bytes : Bytes := w.stream L ++ w.tag L w.aad

/-- The members of the sealed body. -/
def members : List (String × Json) :=
  encryptedBody (x25519PubMultibase (w.ephPub L)) (L.base64url w.nonce.1)
    (L.base64url (w.bytes L))

end Sealing

theorem ok_bind {ε α β : Type} (a : α) (f : α → Except ε β) :
    (Except.ok a >>= f) = f a := rfl

theorem Js.deriveKey_eq (hL : L.Lawful) (shared ephPub : BytesOf 32) :
    Js.deriveKey L shared ephPub = A2A.deriveKey L shared ephPub := by
  rw [Js.deriveKey, A2A.deriveKey, hL.hkdfSha256_zeros]

theorem Js.getSharedSecret_public (hL : L.Lawful) (a b : BytesOf 32) :
    Js.getSharedSecret L a (L.x25519 b basePoint) =
      .ok (L.x25519 a (L.x25519 b basePoint)) := by
  rw [Js.getSharedSecret, if_neg (hL.x25519_ne_zero a b)]

/-- What Rust seals. -/
theorem sealBodyWithEphemeral_eq (hL : L.Lawful) (w : Sealing) {body : Json}
    (hplain : canonicalBodyBytes L body = .ok w.plaintext)
    (hfits : crateFits w.plaintext.length = true) :
    sealBodyWithEphemeral L body (L.ed25519Public w.seed) w.aad w.ephSecret
      w.nonce = .ok (.obj (w.members L)) := by
  have hpub : ed25519PubToX25519 L (L.ed25519Public w.seed) =
      .ok (L.x25519 (ed25519SeedToX25519 L w.seed) basePoint) := by
    rw [ed25519PubToX25519, hL.toMontgomery_public]
  rw [sealBodyWithEphemeral, hpub]
  dsimp only
  rw [hplain]
  dsimp only
  rw [crateEncrypt, if_pos hfits]
  rfl

/-- What JavaScript seals. -/
theorem Js.sealBodyWithEphemeral_eq (hL : L.Lawful) (w : Sealing) {body : Json}
    (hplain : Js.bodyBytes L body = w.plaintext) :
    Js.sealBodyWithEphemeral L body (L.ed25519Public w.seed).1 w.aad
        w.ephSecret w.nonce =
      if Js.nodeFits w.plaintext.length then .ok (w.members L)
      else .error "data is too long" := by
  have hpub : Js.ed25519PubToX25519 L (L.ed25519Public w.seed).1 =
      .ok (L.x25519 (A2A.ed25519SeedToX25519 L w.seed) basePoint) := by
    rw [Js.ed25519PubToX25519, dif_pos (L.ed25519Public w.seed).2]
    exact hL.edwardsToMontgomeryPub_public w.seed
  simp only [Js.sealBodyWithEphemeral, hpub, Js.getSharedSecret_public hL,
    ok_bind, Js.deriveKey_eq hL, Js.nodeEncrypt, hplain]
  by_cases hfits : Js.nodeFits w.plaintext.length = true
  · rw [if_pos hfits, if_pos hfits]
    rfl
  · rw [if_neg hfits, if_neg hfits]
    rfl

/-! ## What both openers make of it -/

theorem take_multicodec (raw : BytesOf 32) :
    (x25519Multicodec ++ raw.1).length = 34 ∧
      (x25519Multicodec ++ raw.1).take 2 = x25519Multicodec := by
  refine ⟨?_, rfl⟩
  rw [List.length_append, raw.2]
  rfl

theorem x25519PubFromMultibase_encode (raw : BytesOf 32) :
    x25519PubFromMultibase L (x25519PubMultibase raw) = .ok raw := by
  rw [x25519PubFromMultibase, x25519PubMultibase, multibaseDecode_encode]
  dsimp only
  rw [dif_pos (take_multicodec raw)]
  rfl

theorem Js.x25519PubFromMultibase_encode (raw : BytesOf 32) :
    Js.x25519PubFromMultibase (some (.str (x25519PubMultibase raw))) =
      .ok raw := by
  obtain ⟨hlen, htake⟩ := take_multicodec raw
  have hdecode : Js.bs58Decode (Base58.encode (x25519Multicodec ++ raw.1)) =
      .ok (x25519Multicodec ++ raw.1) := by
    rw [Js.bs58Decode, Base58.decode_encode]
  rw [Js.x25519PubFromMultibase, x25519PubMultibase, toList_multibaseEncode]
  simp only [hdecode, ok_bind, htake, hlen, ne_eq, not_true_eq_false,
    ↓reduceIte, ↓reduceDIte]
  rfl

theorem Js.hexBytes_of_decodeChars : ∀ {text : List Char} {bytes : Bytes},
    Hex.decodeChars text = some bytes → Js.hexBytes text = bytes
  | [], _, h => Option.some.inj h
  | [_], _, h => by cases h
  | hi :: lo :: rest, bytes, h => by
      rw [Hex.decodeChars] at h
      cases hhi : Hex.digitVal hi with
      | none => simp [hhi] at h
      | some vh =>
          cases hlo : Hex.digitVal lo with
          | none => simp [hhi, hlo] at h
          | some vl =>
              cases hrest : Hex.decodeChars rest with
              | none => simp [hhi, hlo, hrest] at h
              | some more =>
                  have ih := Js.hexBytes_of_decodeChars hrest
                  rw [hhi, hlo, hrest] at h
                  rw [Js.hexBytes, hhi, hlo, ← Option.some.inj h, ih]

theorem Js.ed25519SeedToX25519_encode (hL : L.Lawful) (seed : BytesOf 32) :
    Js.ed25519SeedToX25519 L (Js.hexBytes (Hex.encode seed.1).toList) =
      .ok (A2A.ed25519SeedToX25519 L seed) := by
  have hbytes : Js.hexBytes (Hex.encode seed.1).toList = seed.1 :=
    Js.hexBytes_of_decodeChars (Hex.decode_encode seed.1)
  rw [hbytes, Js.ed25519SeedToX25519, dif_pos seed.2]
  exact congrArg Except.ok (hL.edwardsToMontgomeryPriv_eq seed)

/-- The holder of the seed arrives at the key. -/
theorem Sealing.key_holder (hL : L.Lawful) (w : Sealing) :
    deriveKey L (L.x25519 (ed25519SeedToX25519 L w.seed) (w.ephPub L))
      (w.ephPub L) = w.key L := by
  rw [Sealing.key, Sealing.ephPub, hL.x25519_comm]

theorem Sealing.split_bytes (hL : L.Lawful) (w : Sealing) :
    (w.bytes L).length = w.plaintext.length + 16 ∧
      (w.bytes L).take ((w.bytes L).length - 16) = w.stream L ∧
      (w.bytes L).drop ((w.bytes L).length - 16) = w.tag L w.aad := by
  have hsplit := Aead.take_drop_tag (C := L.chaCha20Poly1305) (w.key L) w.nonce
    w.aad w.plaintext
  rw [hL.tagLength] at hsplit
  refine ⟨?_, hsplit⟩
  rw [Sealing.bytes, List.length_append, Sealing.stream,
    L.chaCha20Poly1305.length_stream, Sealing.tag,
    L.chaCha20Poly1305.length_tag, hL.tagLength]

/-- What Rust answers of a text that was sealed. -/
def parsed (L : SealLibraries) (plaintext : Bytes) : Except A2AError Json :=
  match L.fromSlice plaintext with
  | .ok v => .ok v
  | .error err => .error (.canonical s!"plaintext json: {err}")

/-- What Rust opens. -/
theorem openBody_sealed (hL : L.Lawful) (w : Sealing)
    (hfits : crateFits w.plaintext.length = true) :
    openBody L (.obj (w.members L)) w.seed w.aad = parsed L w.plaintext := by
  obtain ⟨hlen, htake, hdrop⟩ := w.split_bytes hL
  have hdecrypt : crateDecrypt L (w.key L) w.nonce w.aad (w.bytes L) =
      .ok w.plaintext := by
    have hlong : ¬ (w.plaintext.length + 16 < 16 ∨
        crateFits (w.plaintext.length + 16 - 16) = false) := by
      rw [Nat.add_sub_cancel, hfits]
      rintro (h | h)
      · omega
      · cases h
    have hout := Aead.decrypt_encrypt (C := L.chaCha20Poly1305) (w.key L)
      w.nonce w.aad w.plaintext
    change L.chaCha20Poly1305.decrypt _ _ _ (w.stream L) (w.tag L w.aad) = _
      at hout
    rw [crateDecrypt, htake, hdrop, hout, hlen, if_neg hlong]
  have hct : ¬ (w.bytes L).length < 16 := by omega
  have hb64 (bytes : Bytes) : b64urlDecode L (L.base64url bytes) =
      .ok bytes := by
    rw [b64urlDecode, hL.decodeBase64url_base64url]
  let enc := Json.obj (w.members L)
  have halg : ¬ (enc.get? "alg").getD .null ≠ .str e2eAlg :=
    not_not_intro rfl
  have hepk : memberStr enc "epk" = .ok (x25519PubMultibase (w.ephPub L)) :=
    rfl
  have hnonce : memberStr enc "nonce" = .ok (L.base64url w.nonce.1) := rfl
  have hmember : memberStr enc "ct" = .ok (L.base64url (w.bytes L)) := rfl
  rw [openBody]
  dsimp only
  rw [if_neg halg, hepk, hnonce, hmember]
  simp only [ok_bind, x25519PubFromMultibase_encode, hb64, w.nonce.2,
    ↓reduceDIte, if_neg hct, w.key_holder hL, hdecrypt]
  rfl

/-- What JavaScript opens, beside any data. -/
theorem Js.openBody_sealed (hL : L.Lawful) (w : Sealing)
    (hfits : Js.nodeFits w.plaintext.length = true) (aad : Bytes) :
    Js.openBody L (w.members L) (Hex.encode w.seed.1) aad =
      if w.tag L aad = w.tag L w.aad then L.jsonParse (utf8Text w.plaintext)
      else .error "Unsupported state or unable to authenticate data" := by
  obtain ⟨hlen, htake, hdrop⟩ := w.split_bytes hL
  have hct : ¬ (w.bytes L).length < 16 := by omega
  have hstream : Js.nodeFits (w.stream L).length = true := by
    rw [Sealing.stream, L.chaCha20Poly1305.length_stream]
    exact hfits
  have halg : ¬ Json.lookup "alg" (w.members L) ≠ some (.str e2eAlg) :=
    not_not_intro rfl
  have hepk : Json.lookup "epk" (w.members L) =
      some (.str (x25519PubMultibase (w.ephPub L))) := rfl
  have hnonce : Json.lookup "nonce" (w.members L) =
      some (.str (L.base64url w.nonce.1)) := rfl
  have hmember : Json.lookup "ct" (w.members L) =
      some (.str (L.base64url (w.bytes L))) := rfl
  have hout := Aead.decrypt_beside (C := L.chaCha20Poly1305) (w.key L) w.nonce
    w.aad aad w.plaintext
  change L.chaCha20Poly1305.decrypt _ _ _ (w.stream L) (w.tag L w.aad) =
    (if w.tag L aad = w.tag L w.aad then _ else _) at hout
  have hshared := Js.getSharedSecret_public hL
    (A2A.ed25519SeedToX25519 L w.seed) w.ephSecret
  change Js.getSharedSecret L _ (w.ephPub L) = .ok (L.x25519 _ (w.ephPub L))
    at hshared
  rw [Js.openBody]
  dsimp only
  rw [if_neg halg, hepk, hnonce, hmember]
  simp only [Js.ed25519SeedToX25519_encode hL,
    Js.x25519PubFromMultibase_encode, hshared, hL.bufferFrom_base64url, ok_bind,
    w.nonce.2, ↓reduceDIte, if_neg hct, Js.deriveKey_eq hL, w.key_holder hL,
    htake, hdrop]
  rw [Js.nodeDecrypt, if_pos hstream, hout]
  by_cases htag : w.tag L aad = w.tag L w.aad
  · rw [if_pos htag, if_pos htag]
    rfl
  · rw [if_neg htag, if_neg htag]
    rfl

theorem nodeFits_iff {n : Nat} : Js.nodeFits n = true ↔ n < 2 ^ 31 := by
  rw [Js.nodeFits, decide_eq_true_eq]

/-- **What either side seals, both open.** Bodies of one canonical text are
sealed as the same members on both sides, and for the holder of the seed, beside
the same data, each opener reads that text. -/
theorem open_seal (hL : L.Lawful) (w : Sealing) (value body : Json)
    (hsize : w.plaintext.length < 2 ^ 31) :
    ∃ held,
      (canonicalBodyBytes L value = .ok w.plaintext →
        sealBodyWithEphemeral L value (L.ed25519Public w.seed) w.aad
          w.ephSecret w.nonce = .ok (.obj held)) ∧
      (Js.bodyBytes L body = w.plaintext →
        Js.sealBodyWithEphemeral L body (L.ed25519Public w.seed).1 w.aad
          w.ephSecret w.nonce = .ok held) ∧
      openBody L (.obj held) w.seed w.aad = parsed L w.plaintext ∧
      Js.openBody L held (Hex.encode w.seed.1) w.aad =
        L.jsonParse (utf8Text w.plaintext) := by
  have hcrate : crateFits w.plaintext.length = true := by
    rw [crateFits, decide_eq_true_eq]
    omega
  have hnode := nodeFits_iff.2 hsize
  refine ⟨w.members L, ?_, ?_, openBody_sealed hL w hcrate, ?_⟩
  · exact fun h => sealBodyWithEphemeral_eq hL w h hcrate
  · intro h
    rw [Js.sealBodyWithEphemeral_eq hL w h, if_pos hnode]
  · rw [Js.openBody_sealed hL w hnode, if_pos rfl]

/-- **A typed message has one canonical text**, in whichever order JavaScript
holds its members. -/
theorem message_bytes (hL : L.Lawful) {body : Json} {message : MessageBody}
    (h : MessageBody.ofJson body = some message)
    (hspelled : Spelled (.obj message.toFields) body) :
    canonicalBodyBytes L (.obj message.toFields) =
      .ok (Js.bodyBytes L body) := by
  obtain ⟨fraction, hcanonicalize, htoVec⟩ := hL.rfc8785
  have htext : Jcs.text fraction (Js.nfcNormalize L.nfc body) =
      Jcs.text fraction
        (AirNote.nfcNormalize L.nfc (.obj message.toFields)) := by
    rw [AirNote.nfcNormalize, ← Js.nfcFields_body]
    exact message.text_eq (Js.byMembers_normalText L.nfc fraction) h hspelled
  rw [canonicalBodyBytes, htoVec, Js.bodyBytes, hcanonicalize, htext]
  rfl

/-! ## The data beside a body -/

/-- The text a member is written with. -/
def Js.AadField.text : Js.AadField → Option (List Char)
  | .units held => some (Utf16.decode (held.map UInt16.toNat))
  | .other => none

theorem utf8Bytes_injective {text text' : List Char}
    (h : utf8Bytes text = utf8Bytes text') : text = text' := by
  have hback (t : List Char) :
      (utf8Bytes t).map UInt8.toNat = Utf8.encodeText t := by
    rw [utf8Bytes, List.map_map]
    refine (List.map_congr_left fun b hb => ?_).trans (List.map_id _)
    have hlt := Utf8.encodeText_lt t b hb
    show (UInt8.ofNat b).toNat = b
    rw [UInt8.toNat_ofNat']
    exact Nat.mod_eq_of_lt hlt
  apply Utf8.encodeText_injective
  rw [← hback, h, hback]

theorem Js.zero_not_mem_bufferOfUnits {held : List UInt16}
    (h : 0 ∉ held) : (0 : UInt8) ∉ Js.bufferOfUnits held := by
  intro hmem
  obtain ⟨b, hb, hzero⟩ := List.mem_map.mp hmem
  have hlt := Utf8.encodeText_lt _ b hb
  have hb0 : b = 0 := by
    have htoNat := congrArg UInt8.toNat hzero
    rw [UInt8.toNat_ofNat', Nat.mod_eq_of_lt hlt] at htoNat
    exact htoNat
  rw [hb0] at hb
  obtain ⟨c, hc, hbyte⟩ := List.mem_flatMap.mp hb
  have hchar := Utf8.toNat_of_mem_encode (by decide) hbyte
  have hunits : ∀ u ∈ held.map UInt16.toNat, u < 0x10000 := by
    intro u hu
    obtain ⟨w, -, rfl⟩ := List.mem_map.mp hu
    exact w.toNat_lt
  have hunit := Utf16.zero_mem_of_decode _ hunits hc hchar
  obtain ⟨w, hw, hw0⟩ := List.mem_map.mp hunit
  have hzeroUnit : w = 0 := UInt16.toNat_inj.mp hw0
  exact h (hzeroUnit ▸ hw)

theorem Js.checkAadField_eq_ok {name : String} {field : Js.AadField}
    {held : List UInt16} :
    Js.checkAadField (name, field) = .ok held ↔
      field = .units held ∧ held ≠ [] ∧ 0 ∉ held := by
  cases field with
  | other => simp [Js.checkAadField]
  | units given =>
      rw [Js.checkAadField]
      split_ifs with hempty hzero
      · simp only [Js.AadField.units.injEq, false_iff, not_and]
        rintro rfl hne
        exact absurd hempty hne
      · simp only [Js.AadField.units.injEq, false_iff, not_and]
        rintro rfl - hnone
        exact hnone hzero
      · simp only [Except.ok.injEq, Js.AadField.units.injEq]
        constructor
        · rintro rfl
          exact ⟨rfl, hempty, hzero⟩
        · exact fun h => h.1

/-- The texts of the members, each before a zero, and the last one. -/
structure Js.Framed (fields : Js.AadFields)
    (id fromDid toDid threadId : List UInt16) (aad : Bytes) : Prop where
  idHeld : fields.id = .units id ∧ id ≠ [] ∧ 0 ∉ id
  fromHeld : fields.fromDid = .units fromDid ∧ fromDid ≠ [] ∧ 0 ∉ fromDid
  toHeld : fields.toDid = .units toDid ∧ toDid ≠ [] ∧ 0 ∉ toDid
  threadHeld :
    fields.threadId = .units threadId ∧ threadId ≠ [] ∧ 0 ∉ threadId
  framed : aad = Js.bufferOfUnits id ++ 0 :: (Js.bufferOfUnits fromDid ++
    0 :: (Js.bufferOfUnits toDid ++ 0 :: Js.bufferOfUnits threadId))

theorem except_bind_ok {ε α β : Type} {x : Except ε α} {f : α → Except ε β}
    {b : β} : (x >>= f) = .ok b ↔ ∃ a, x = .ok a ∧ f a = .ok b := by
  cases x <;> simp [bind, Except.bind]

theorem Js.buildAad_eq_ok {fields : Js.AadFields} {aad : Bytes} :
    Js.buildAad fields = .ok aad ↔
      ∃ id fromDid toDid threadId,
        Js.Framed fields id fromDid toDid threadId aad := by
  simp only [Js.buildAad, Js.AadFields.entries, List.mapM_cons, List.mapM_nil,
    except_bind_ok, Js.checkAadField_eq_ok]
  constructor
  · rintro ⟨texts, ⟨id, hid, rest, ⟨fromDid, hfrom, rest', ⟨toDid, hto, rest'',
      ⟨threadId, hthread, last, hlast, hrest''⟩, hrest'⟩, hrest⟩, htexts⟩,
      haad⟩
    cases hlast
    cases hrest''
    cases hrest'
    cases hrest
    cases htexts
    cases haad
    refine ⟨id, fromDid, toDid, threadId, hid, hfrom, hto, hthread, ?_⟩
    simp [List.intercalate]
  · rintro ⟨id, fromDid, toDid, threadId, h⟩
    refine ⟨_, ⟨id, h.idHeld, _, ⟨fromDid, h.fromHeld, _, ⟨toDid, h.toHeld,
      _, ⟨threadId, h.threadHeld, _, rfl, rfl⟩, rfl⟩, rfl⟩, rfl⟩, ?_⟩
    rw [h.framed]
    simp [List.intercalate]

/-- The data are taken apart at their zeros. -/
theorem Js.Framed.cut {fields : Js.AadFields}
    {id fromDid toDid threadId : List UInt16} {aad : Bytes}
    (h : Js.Framed fields id fromDid toDid threadId aad) :
    Lines.cut 0 aad = ([Js.bufferOfUnits id, Js.bufferOfUnits fromDid,
      Js.bufferOfUnits toDid], Js.bufferOfUnits threadId) := by
  rw [h.framed, Lines.cut_line (Js.zero_not_mem_bufferOfUnits h.idHeld.2.2),
    Lines.cut_line (Js.zero_not_mem_bufferOfUnits h.fromHeld.2.2),
    Lines.cut_line (Js.zero_not_mem_bufferOfUnits h.toHeld.2.2),
    Lines.cut_of_not_mem (Js.zero_not_mem_bufferOfUnits h.threadHeld.2.2)]

theorem Js.bufferOfUnits_eq_iff {held held' : List UInt16} :
    Js.bufferOfUnits held = Js.bufferOfUnits held' ↔
      (Js.AadField.units held).text = (Js.AadField.units held').text := by
  constructor
  · intro h
    exact congrArg some (utf8Bytes_injective h)
  · intro h
    exact congrArg utf8Bytes (Option.some.inj h)

/-- **Two envelopes have the same data beside their bodies** exactly where
the four members are written with the same texts. -/
theorem Js.buildAad_eq_iff {fields fields' : Js.AadFields} {aad aad' : Bytes}
    (h : Js.buildAad fields = .ok aad) (h' : Js.buildAad fields' = .ok aad') :
    aad = aad' ↔
      fields.id.text = fields'.id.text ∧
        fields.fromDid.text = fields'.fromDid.text ∧
        fields.toDid.text = fields'.toDid.text ∧
        fields.threadId.text = fields'.threadId.text := by
  obtain ⟨id, fromDid, toDid, threadId, hframed⟩ := Js.buildAad_eq_ok.1 h
  obtain ⟨id', fromDid', toDid', threadId', hframed'⟩ :=
    Js.buildAad_eq_ok.1 h'
  rw [hframed.idHeld.1, hframed.fromHeld.1, hframed.toHeld.1,
    hframed.threadHeld.1, hframed'.idHeld.1, hframed'.fromHeld.1,
    hframed'.toHeld.1, hframed'.threadHeld.1,
    ← Js.bufferOfUnits_eq_iff, ← Js.bufferOfUnits_eq_iff,
    ← Js.bufferOfUnits_eq_iff, ← Js.bufferOfUnits_eq_iff]
  constructor
  · intro heq
    have hcut := hframed.cut
    rw [heq, hframed'.cut] at hcut
    simp only [Prod.mk.injEq, List.cons.injEq, and_true] at hcut
    obtain ⟨⟨hid, hfrom, hto⟩, hthread⟩ := hcut
    exact ⟨hid.symm, hfrom.symm, hto.symm, hthread.symm⟩
  · rintro ⟨hid, hfrom, hto, hthread⟩
    rw [hframed.framed, hframed'.framed, hid, hfrom, hto, hthread]

theorem Js.aadField_units {j : Option Json} {held : List UInt16}
    (h : Js.aadField j = .units held) :
    ∃ s : String, j = some (.str s) ∧
      (Js.AadField.units held).text = some s.toList := by
  cases j with
  | none => cases h
  | some v =>
      cases v with
      | str s =>
          refine ⟨s, rfl, ?_⟩
          have hheld := Js.AadField.units.inj h
          have hunits : ((Utf16.encode s.toList).map UInt16.ofNat).map
              UInt16.toNat = Utf16.encode s.toList := by
            rw [List.map_map]
            refine (List.map_congr_left fun u hu => ?_).trans (List.map_id _)
            have hlt := Utf16.encode_lt _ u hu
            show (UInt16.ofNat u).toNat = u
            rw [UInt16.toNat_ofNat']
            exact Nat.mod_eq_of_lt hlt
          rw [Js.AadField.text, ← hheld, hunits, Utf16.decode_encode]
      | _ => cases h

theorem Js.lookup_eq_iff {j j' : Option Json} {held held' : List UInt16}
    (h : Js.aadField j = .units held) (h' : Js.aadField j' = .units held') :
    (Js.aadField j).text = (Js.aadField j').text ↔ j = j' := by
  obtain ⟨s, rfl, htext⟩ := Js.aadField_units h
  obtain ⟨s', rfl, htext'⟩ := Js.aadField_units h'
  rw [h, h', htext, htext', Option.some.injEq, String.toList_inj,
    Option.some.injEq, Json.str.injEq]

theorem Js.read_members (w : Sealing) :
    Js.read L.toLibraries (.obj (w.members L)) = .obj (w.members L) := by
  have hone : Js.readInteger 1 = 1 :=
    Js.readInteger_natCast (n := 1) (Doubles.through_of_le (by decide))
  have hread : Js.readFields L.toLibraries (w.members L) = w.members L := by
    simp [Sealing.members, encryptedBody, Js.readFields, Js.read, hone]
  rw [Js.read, hread,
    Js.lastWins_eq (by simp [Sealing.members, encryptedBody])]

/-- What a recipient answers of a text that was sealed. -/
def Js.opened (L : SealLibraries) (plaintext : Bytes) : Js.Decoded :=
  match L.jsonParse (utf8Text plaintext) with
  | .ok v => ⟨true, some v, none⟩
  | .error err => ⟨true, none, some err⟩

/-- What a recipient answers of a sealed body, in any envelope. -/
def Js.openedBeside (L : SealLibraries) (w : Sealing)
    (envelope : List (String × Json)) : Js.Decoded :=
  match Js.buildAad (Js.aadFields envelope) with
  | .error err => ⟨true, none, some err⟩
  | .ok aad =>
      if w.tag L aad = w.tag L w.aad then Js.opened L w.plaintext
      else ⟨true, none,
        some "Unsupported state or unable to authenticate data"⟩

theorem Js.decodeReceivedMessage_sealed (hL : L.Lawful) {w : Sealing}
    (hfits : Js.nodeFits w.plaintext.length = true)
    {envelope : List (String × Json)}
    (hbody : Json.lookup "body" envelope = some (.obj (w.members L))) :
    Js.decodeReceivedMessage L envelope (Hex.encode w.seed.1) true =
      Js.openedBeside L w envelope := by
  have hencrypted : (some (Json.obj (w.members L))).bind
      (fun b => b.get? "type") = some (.str "encrypted") := rfl
  rw [Js.decodeReceivedMessage, hbody]
  dsimp only
  rw [hencrypted, Js.openedBeside]
  simp only [decide_true, if_true, Bool.true_eq_false, if_false]
  cases haad : Js.buildAad (Js.aadFields envelope) with
  | error err => rfl
  | ok aad =>
      rw [ok_bind, Js.openBody_sealed hL w hfits]
      dsimp only
      by_cases htag : w.tag L aad = w.tag L w.aad
      · rw [if_pos htag, if_pos htag]
        rfl
      · rw [if_neg htag, if_neg htag]

theorem removeKey_insertKey (k : String) (v : Json)
    (fields : List (String × Json)) :
    Json.removeKey k (Json.insertKey k v fields) = Json.removeKey k fields := by
  induction fields with
  | nil => simp [Json.insertKey, Json.removeKey]
  | cons f rest ih =>
      obtain ⟨k', w⟩ := f
      rw [Json.insertKey]
      by_cases hk : k' = k
      · simp [Json.removeKey, hk]
      · simpa [Json.removeKey, hk] using ih

end Proofs

/-! ## Libraries that can be run -/

/-- A toy exchange. -/
def sumExchange (a u : BytesOf 32) : BytesOf 32 :=
  ⟨List.zipWith (fun x y => y ||| x) a.1 u.1, by
    rw [List.length_zipWith, a.2, u.2]
    rfl⟩

/-- A toy digest. -/
def sumSha512 (bytes : Bytes) : BytesOf 64 :=
  ⟨(bytes ++ List.replicate 64 (checksum bytes)).take 64, by
    rw [List.length_take, List.length_append, List.length_replicate]
    omega⟩

/-- The toy scalar of a seed. -/
def sumScalar (seed : BytesOf 32) : BytesOf 32 :=
  clamp ⟨(sumSha512 seed.1).1.take 32, by
    rw [List.length_take, (sumSha512 seed.1).2]
    rfl⟩

/-- A cipher that adds one byte to all, with checksums for tags. -/
def sumCipher : Aead.Cipher (BytesOf 32) (BytesOf 12) UInt8 where
  stream k n text := text.map (· ^^^ (checksum k.1 + checksum n.1))
  tag k _ aad text := List.replicate 16
    (checksum k.1 + 3 * checksum aad + checksum text)
  tagLength := 16
  stream_stream k n text := by
    rw [List.map_map]
    refine (List.map_congr_left fun b _ => ?_).trans (List.map_id text)
    show b ^^^ _ ^^^ _ = b
    rw [UInt8.xor_assoc, UInt8.xor_self, UInt8.xor_zero]
  length_stream _ _ _ := List.length_map _
  length_tag _ _ _ _ := List.length_replicate

/-- A short text. -/
def greetingBody : Json := .obj [("type", .str "text"), ("text", .str "hi")]

/-- The canonical text of it. -/
def greetingText : String :=
  "\x7b\"text\":\"hi\",\"type\":\"text\"\x7d"

/-- The seed of a recipient. -/
def sumSeed : BytesOf 32 := ⟨List.replicate 32 7, rfl⟩

/-- Libraries for sealing that can be run. -/
def sumSealLibs : SealLibraries where
  toLibraries := sumLibs
  x25519 := sumExchange
  sha512 := sumSha512
  hkdfSha256 salt secret info :=
    ⟨List.replicate 32 (checksum salt + checksum secret + checksum info), rfl⟩
  chaCha20Poly1305 := sumCipher
  ed25519Public seed := sumExchange (sumScalar seed) basePoint
  toMontgomery := some
  edwardsToMontgomeryPub := .ok
  edwardsToMontgomeryPriv := sumScalar
  base64url := Hex.encode
  decodeBase64url s := .ok ((Hex.decode s).getD [])
  bufferFrom
    | some (.str s) => .ok ((Hex.decode s).getD [])
    | _ => .error "The first argument must be of type string"
  jsonParse s :=
    if s = greetingText then .ok greetingBody
    else .error "Unexpected token"
  fromSlice bytes :=
    if utf8Text bytes = greetingText then .ok greetingBody
    else .error "expected value"
  template _ := "undefined"
  display _ := "null"

theorem sumExchange_comm (a b : BytesOf 32) :
    sumExchange a (sumExchange b basePoint) =
      sumExchange b (sumExchange a basePoint) := by
  apply Subtype.ext
  apply List.ext_getElem
  · rw [(sumExchange a _).2, (sumExchange b _).2]
  · intro i hi hi'
    simp only [sumExchange, List.getElem_zipWith]
    rw [UInt8.or_assoc, UInt8.or_assoc]
    exact congrArg _ (UInt8.or_comm _ _)

theorem sumExchange_ne_zero (a b : BytesOf 32) :
    (sumExchange a (sumExchange b basePoint)).1 ≠ List.replicate 32 0 := by
  obtain ⟨a, ha⟩ := a
  obtain ⟨b, hb⟩ := b
  cases a with
  | nil => cases ha
  | cons x xs =>
      cases b with
      | nil => cases hb
      | cons y ys =>
          intro h
          have hhead : 9 ||| y ||| x = 0 := List.head_eq_of_cons_eq h
          rw [UInt8.or_eq_zero_iff, UInt8.or_eq_zero_iff] at hhead
          exact absurd hhead.1.1 (by decide)

theorem sumSealLibs_lawful : sumSealLibs.Lawful where
  toLawful := sumLibs_lawful
  nodeVerify_nodeSign _ _ := congrArg Except.ok (decide_eq_true rfl)
  x25519_comm := sumExchange_comm
  x25519_ne_zero := sumExchange_ne_zero
  toMontgomery_public _ := rfl
  edwardsToMontgomeryPub_public _ := rfl
  edwardsToMontgomeryPriv_eq _ := rfl
  hkdfSha256_zeros := rfl
  tagLength := rfl
  decodeBase64url_base64url bytes := by
    show Except.ok ((Hex.decode (Hex.encode bytes)).getD []) = _
    rw [Hex.decode_encode]
    rfl
  bufferFrom_base64url bytes := by
    show Except.ok ((Hex.decode (Hex.encode bytes)).getD []) = _
    rw [Hex.decode_encode]
    rfl

/-- A scalar and a nonce of a sealer. -/
def sumEphemeral : BytesOf 32 := ⟨List.replicate 32 3, rfl⟩

def sumNonce : BytesOf 12 := ⟨List.replicate 12 1, rfl⟩

/-- A greeting and what it is sealed with. -/
def sumSealing : Sealing :=
  ⟨sumSeed, [1, 2], sumEphemeral, sumNonce, utf8Bytes greetingText.toList⟩

theorem greeting_bytes :
    canonicalBodyBytes sumSealLibs greetingBody =
        .ok (utf8Bytes greetingText.toList) ∧
      Js.bodyBytes sumSealLibs greetingBody =
        utf8Bytes greetingText.toList ∧
      (utf8Bytes greetingText.toList).length < 2 ^ 31 ∧
      parsed sumSealLibs (utf8Bytes greetingText.toList) =
        .ok greetingBody ∧
      sumSealLibs.jsonParse (utf8Text (utf8Bytes greetingText.toList)) =
        .ok greetingBody := by
  decide +kernel

theorem open_seal_greeting :
    ∃ held, sealBodyWithEphemeral sumSealLibs greetingBody
        (sumSealLibs.ed25519Public sumSeed) [1, 2] sumEphemeral sumNonce =
          .ok (.obj held) ∧
      Js.sealBodyWithEphemeral sumSealLibs greetingBody
        (sumSealLibs.ed25519Public sumSeed).1 [1, 2] sumEphemeral sumNonce =
          .ok held ∧
      openBody sumSealLibs (.obj held) sumSeed [1, 2] = .ok greetingBody ∧
      Js.openBody sumSealLibs held (Hex.encode sumSeed.1) [1, 2] =
        .ok greetingBody := by
  obtain ⟨hplain, hjs, hsize, hparsed, hparse⟩ := greeting_bytes
  obtain ⟨held, hrust, hjavascript, hopen, hopenJs⟩ :=
    open_seal sumSealLibs_lawful sumSealing greetingBody greetingBody hsize
  exact ⟨held, hrust hplain, hjavascript hjs, hopen.trans hparsed,
    hopenJs.trans hparse⟩

theorem message_bytes_withdrawal :
    canonicalBodyBytes sumSealLibs
        (.obj (MessageBody.withdraw ⟨"car", none⟩).toFields) =
      .ok (Js.bodyBytes sumSealLibs (.obj [("reason", .null),
        ("type", .str "withdraw"), ("item_id", .str "car")])) :=
  message_bytes sumSealLibs_lawful (by decide +kernel) ⟨_, rfl, fun k => by
    simp [MessageBody.toFields]; tauto, by
      simp [MessageBody.toFields, SpelledMembers, Spelled, nullable]⟩

/-- The members of an envelope in a thread. -/
def boundMembers (threadId : String) : List (String × Json) :=
  [("id", .str "e1"), ("from", .str "did:a"), ("to", .str "did:b"),
    ("thread_id", .str threadId)]

/-- Who writes to whom. -/
def sumIdentity : Js.Identity sumSealLibs := ⟨"did:a", sumKey⟩

def sumFresh : Js.Fresh where
  id := "e1"
  timestamp := "2026-01-01T00:00:00Z"
  threadId := "t1"
  nonce := "n1"
  ephPriv := sumEphemeral
  sealNonce := sumNonce

end AirNote.A2A
