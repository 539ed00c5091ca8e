import AirNote.Lib.Trace
import AirNote.Rooms

/-!
# Receiving mail

`receive` pulls a batch from the relay and handles its records one after the
other: it decides whether the envelope was signed by the sender the relay
names, opens it, and then routes it — an operation of a room, a message in a
room, or a message to oneself — into the archive and to the caller.

A record says who sent it and under which identifier it is filed; the
envelope is what was signed. Neither has to agree with the other. What the
registry answers, whether a write succeeds and what time it is come with each
arrival. What is left out: the number of drops of each blocked sender, when a
contact was last seen, and the fields of a contact that nothing here reads.
The files are taken to be readable.
-/

namespace AirNote

/-! ## The data -/

/-- A message in a room. -/
structure RoomMsg where
  roomId : Option String
  recipients : List String
  rosterDigest : Option String
  inReplyTo : Option String
  text : String
  deriving DecidableEq

/-- The body of an envelope: sealed, one of the bodies of a room, what stands
in for a body, or anything else. The `type` of the last kind is no text. -/
inductive MsgBody where
  | encrypted (blob : String)
  | roomMsg (msg : RoomMsg)
  | roomOp (op : RoomOp)
  | roomJoined (roomId : Option String) (roomName : Option String)
  | unavailable
  | plain (text : String)
  | odd (text : String)
  deriving DecidableEq

/-- An envelope. -/
structure Envelope where
  id : Option String
  fromDid : Option String
  toDid : Option String
  timestamp : Option String
  inReplyTo : Option String
  threadId : Option String
  nonce : Option String
  body : Option MsgBody
  signature : Option String
  deriving DecidableEq

/-- What the relay says of an envelope. -/
structure RelayRecord where
  seq : Int
  senderDid : String
  envelopeId : String
  queuedAt : Int

/-- What the registry says of an agent. -/
structure ResolvedAgent where
  did : String
  airId : String
  name : Option String
  key : String

/-- A pinned contact. -/
structure Contact where
  aliasName : String
  airId : String
  name : Option String
  key : String
  previousKey : Option String
  deriving DecidableEq

/-- The contact book. -/
abbrev ContactBook := String → Option Contact

/-- The two directions of the archive. -/
inductive Direction where
  | received
  | sent
  deriving DecidableEq

/-- A row of the archive. -/
structure ArchiveRow where
  envelopeId : String
  direction : Direction
  threadId : String
  peerDid : String
  fromDid : String
  toDid : String
  timestamp : String
  body : MsgBody
  encrypted : Bool
  verified : Bool
  keyChanged : Bool
  spam : Bool
  relaySeq : Option Int
  roomId : Option String
  archivedAt : String
  deriving DecidableEq

/-- A message as the caller gets it. -/
structure Message where
  seq : Int
  fromDid : String
  contact : Option String
  envelopeId : String
  receivedAt : String
  verified : Bool
  encrypted : Bool
  roomId : Option String
  inReplyTo : Option String
  toDid : Option String
  drift : Bool
  keyChanged : Bool
  verifyNote : Option String
  system : Option String
  body : Option MsgBody
  threadId : Option String
  deriving DecidableEq

/-- What a member of the network keeps. -/
structure Mailbox where
  contacts : ContactBook
  blocked : String → Bool
  rooms : RoomStore
  archive : List ArchiveRow
  cursor : Int

/-- The cryptography of envelopes. An exception is its text. -/
structure MailHost extends RoomHost where
  verifyEnvelope : Envelope → String → Except String Bool
  openBody : Envelope → Except String MsgBody
  toISOString : Int → String

/-- A record of the batch, what its envelope parses as, and what happens
around it: what the registry answers for the sender's key, for the founder's
key and for whom an operation pins, whether the ingest of an operation and
the write to the archive go through, and the time. -/
structure Arrival where
  record : RelayRecord
  envelope : Except String Envelope
  senderKey : Except String (Option String)
  founderKey : Option String
  pinned : Option ResolvedAgent
  ingestOk : Bool
  archiveOk : Bool
  now : Int

/-! ## The contact book -/

/-- `checkPin`: the contact, and whether its pin is this key. -/
def checkPin (contacts : ContactBook) (did key : String) :
    Option (Contact × Bool) :=
  (contacts did).map fun c => (c, c.key = key)

/-- The first text that is not empty. -/
def firstText (texts : List (Option String)) (last : String) : String :=
  (texts.findSome? fun t => t.filter (· ≠ "")).getD last

/-- `addContact` without an alias: pins what the registry answers, under the
identifier that the answer names. -/
def addContact (contacts : ContactBook) (resolved : Option ResolvedAgent) :
    ContactBook :=
  match resolved with
  | none => contacts
  | some r =>
      let prior := contacts r.did
      Function.update contacts r.did (some
        { aliasName := firstText [prior.map Contact.aliasName, r.name] r.airId
          airId := r.airId
          name := r.name
          key := r.key
          previousKey := prior.bind fun c =>
            if c.key ≠ r.key then some c.key else none })

/-! ## The archive -/

/-- `isArchived`. -/
def isArchived (archive : List ArchiveRow) (envelopeId : String)
    (direction : Direction) : Bool :=
  archive.any fun r => r.envelopeId = envelopeId && r.direction = direction

/-- `archiveMessage`: a row under an identifier that is taken is ignored. -/
def archiveMessage (archive : List ArchiveRow) (row : ArchiveRow) :
    List ArchiveRow :=
  if isArchived archive row.envelopeId row.direction then archive
  else archive ++ [row]

/-! ## Verifying and opening -/

/-- What `receive` finds out about a sender. -/
structure MailVerdict where
  verified : Bool
  verifyNote : Option String
  keyChanged : Bool
  contactAlias : Option String

/-- A message that is not verified, and why. -/
def MailVerdict.unverified (note : String) : MailVerdict :=
  ⟨false, some note, false, none⟩

/-- What is said of a key that is not the pinned one. -/
def keyChangedNote : String :=
  "⚠️ sender's key CHANGED since you pinned this contact — " ++
  "could be key rotation OR compromise/impersonation. " ++
  "Re-verify out-of-band before trusting (agent_add_contact to re-pin)."

/-- The pin of a sender whose signature verified. -/
def pinVerdict (contacts : ContactBook) (did key : String) : MailVerdict :=
  match checkPin contacts did key with
  | none => ⟨true, none, false, none⟩
  | some (c, true) => ⟨true, none, false, some c.aliasName⟩
  | some (c, false) => ⟨true, some keyChangedNote, true, some c.aliasName⟩

/-- The sender of a record: the registry's key for it, the envelope's own
word, the signature and the pin. -/
def judge (h : MailHost) (contacts : ContactBook) (a : Arrival) : MailVerdict :=
  match a.envelope with
  | .error e => .unverified s!"decode/verify error: {e}"
  | .ok env =>
      match a.senderKey with
      | .error e => .unverified s!"decode/verify error: {e}"
      | .ok none => .unverified "sender public key not resolvable from AIR"
      | .ok (some key) =>
          if env.fromDid ≠ some a.record.senderDid then
            .unverified "envelope `from` does not match relay sender_did"
          else
            match h.verifyEnvelope env key with
            | .error e => .unverified s!"decode/verify error: {e}"
            | .ok false => .unverified
                "signature did NOT verify — possible forgery or tampering"
            | .ok true => pinVerdict contacts a.record.senderDid key

/-- What an envelope holds. -/
structure Decoded where
  encrypted : Bool
  body : Option MsgBody
  decryptError : Option String

/-- The body is sealed. -/
def Envelope.isEncrypted (env : Envelope) : Bool :=
  match env.body with
  | some (.encrypted _) => true
  | _ => false

/-- `decodeReceivedMessage`: nothing is opened that was not verified. -/
def decodeReceivedMessage (h : MailHost) (env : Envelope) (verified : Bool) :
    Decoded :=
  if !verified then
    ⟨env.isEncrypted, if env.isEncrypted then none else env.body, none⟩
  else if env.isEncrypted then
    match h.openBody env with
    | .ok body => ⟨true, some body, none⟩
    | .error e => ⟨true, none, some e⟩
  else ⟨false, env.body, none⟩

/-- What is decoded of an arrival; where nothing parses, nothing. -/
def decodeArrival (h : MailHost) (a : Arrival) (verified : Bool) : Decoded :=
  match a.envelope with
  | .error _ => ⟨false, none, none⟩
  | .ok env => decodeReceivedMessage h env verified

/-- The note with the failure to decrypt. -/
def withDecryptNote (note : Option String) (decryptError : Option String) :
    Option String :=
  match decryptError with
  | none => note
  | some e =>
      some ((note.map fun n => n ++ "; ").getD "" ++ s!"decrypt failed: {e}")

/-! ## Routing -/

/-- The age beyond which an operation or a message of a room is refused. -/
def roomOpMaxAgeMs : Int := 48 * 60 * 60 * 1000

/-- `roomReceiveCheck`: whether the sender is in the roster, and whether the
message shows another view of the room. -/
def roomReceiveCheck (senderDid selfDid : String) (msg : RoomMsg)
    (state : RoomState) (localDigest : String) : Option Bool :=
  if state.members.any fun m => m.did = some senderDid then
    some (!(msg.recipients.contains selfDid &&
      msg.rosterDigest = some localDigest))
  else none

/-- What becomes of a record. -/
inductive Route where
  | blocked
  | broken
  | unverifiedRoom
  | replayed
  | stale
  | unknownRoom
  | notInRoster
  | roomMsg (env : Envelope) (msg : RoomMsg) (drift : Bool)
  | control (env : Envelope) (op : RoomOp)
  | direct
  deriving DecidableEq

/-- An envelope is older than a room takes. A date that cannot be read is
not. -/
def Envelope.tooOld (h : MailHost) (now : Int) (env : Envelope) : Bool :=
  match env.timestamp.bind h.dateParse with
  | none => false
  | some ts => now - ts > roomOpMaxAgeMs

/-- The name under which a room is looked up. -/
def roomKey (roomId : Option String) : String := roomId.getD "undefined"

/-- What becomes of a verified message in a room. -/
def routeRoomMsg (h : MailHost) (selfDid : String) (box : Mailbox)
    (a : Arrival) (env : Envelope) (msg : RoomMsg) : Route :=
  match deriveRoom h.toRoomHost a.now box.rooms (roomKey msg.roomId) with
  | none => .unknownRoom
  | some state =>
      match roomReceiveCheck a.record.senderDid selfDid msg state
          (rosterDigest h.toRoomHost state) with
      | none => .notInRoster
      | some drift => .roomMsg env msg drift

/-- What becomes of a body of a room. -/
def routeRoom (h : MailHost) (selfDid : String) (box : Mailbox) (a : Arrival)
    (verified : Bool) (env : Envelope) (body : RoomMsg ⊕ RoomOp) : Route :=
  if !verified then .unverifiedRoom
  else if isArchived box.archive a.record.envelopeId .received then .replayed
  else if env.tooOld h a.now then .stale
  else
    match body with
    | .inl msg => routeRoomMsg h selfDid box a env msg
    | .inr op => .control env op

/-- What becomes of a record. -/
def route (h : MailHost) (selfDid : String) (box : Mailbox) (a : Arrival) :
    Route :=
  if box.blocked a.record.senderDid then .blocked
  else
    let verified := (judge h box.contacts a).verified
    match a.envelope, (decodeArrival h a verified).body with
    | .ok env, some (.roomMsg msg) =>
        routeRoom h selfDid box a verified env (.inl msg)
    | .ok env, some (.roomOp op) =>
        routeRoom h selfDid box a verified env (.inr op)
    | _, some (.odd _) => .broken
    | _, _ => .direct

/-! ## Handling -/

/-- What one record leaves: the mailbox, a message for the caller, whether a
write to the archive failed, and whether `receive` ends with an exception. -/
structure Handled where
  box : Mailbox
  message : Option Message
  failed : Bool
  broken : Bool

/-- A record that leaves nothing. -/
def Handled.nothing (box : Mailbox) : Handled := ⟨box, none, false, false⟩

/-- A message for the caller, and its row, where the write goes through. -/
def Handled.deliver (box : Mailbox) (archiveOk : Bool) (message : Message)
    (row : ArchiveRow) : Handled where
  box :=
    if archiveOk then { box with archive := archiveMessage box.archive row }
    else box
  message := some message
  failed := !archiveOk
  broken := false

/-- The time a record was queued. -/
def RelayRecord.queuedIso (h : MailHost) (m : RelayRecord) : String :=
  h.toISOString (m.queuedAt * 1000)

/-- The note on a record. -/
def noteOf (h : MailHost) (v : MailVerdict) (a : Arrival) : Option String :=
  withDecryptNote v.verifyNote (decodeArrival h a v.verified).decryptError

/-- A message in a room, for the caller. -/
def roomMessage (h : MailHost) (v : MailVerdict) (a : Arrival) (env : Envelope)
    (msg : RoomMsg) (drift : Bool) : Message where
  seq := a.record.seq
  fromDid := a.record.senderDid
  contact := v.contactAlias
  envelopeId := a.record.envelopeId
  receivedAt := a.record.queuedIso h
  verified := v.verified
  encrypted := env.isEncrypted
  roomId := msg.roomId
  inReplyTo := msg.inReplyTo
  toDid := env.toDid
  drift := drift
  keyChanged := v.keyChanged
  verifyNote := noteOf h v a
  system := none
  body := some (.roomMsg msg)
  threadId := env.threadId

/-- The row of a message in a room. That the key of its sender has changed is
not among what is written. -/
def roomRow (h : MailHost) (selfDid : String) (v : MailVerdict) (a : Arrival)
    (env : Envelope) (msg : RoomMsg) : ArchiveRow where
  envelopeId := a.record.envelopeId
  direction := .received
  threadId := env.threadId.getD a.record.envelopeId
  peerDid := a.record.senderDid
  fromDid := env.fromDid.getD a.record.senderDid
  toDid := selfDid
  timestamp := env.timestamp.getD (a.record.queuedIso h)
  body := .roomMsg msg
  encrypted := env.isEncrypted
  verified := v.verified
  keyChanged := false
  spam := false
  relaySeq := some a.record.seq
  roomId := msg.roomId
  archivedAt := h.toISOString a.now

/-- A message to oneself, for the caller. -/
def directMessage (h : MailHost) (v : MailVerdict) (a : Arrival) : Message where
  seq := a.record.seq
  fromDid := a.record.senderDid
  contact := v.contactAlias
  envelopeId := a.record.envelopeId
  receivedAt := a.record.queuedIso h
  verified := v.verified
  encrypted := (decodeArrival h a v.verified).encrypted
  roomId := none
  inReplyTo := none
  toDid := none
  drift := false
  keyChanged := v.keyChanged
  verifyNote := noteOf h v a
  system := none
  body := (decodeArrival h a v.verified).body
  threadId :=
    if (decodeArrival h a v.verified).body.isSome then
      a.envelope.toOption.bind Envelope.threadId
    else none

/-- The row of a message to oneself. What cannot be opened is filed as
unavailable. -/
def directRow (h : MailHost) (selfDid : String) (v : MailVerdict) (a : Arrival) :
    ArchiveRow where
  envelopeId := a.record.envelopeId
  direction := .received
  threadId :=
    (a.envelope.toOption.bind Envelope.threadId).getD a.record.envelopeId
  peerDid := a.record.senderDid
  fromDid :=
    (a.envelope.toOption.bind Envelope.fromDid).getD a.record.senderDid
  toDid := selfDid
  timestamp := (a.envelope.toOption.bind Envelope.timestamp).getD
    (a.record.queuedIso h)
  body := (decodeArrival h a v.verified).body.getD .unavailable
  encrypted := (decodeArrival h a v.verified).encrypted
  verified := v.verified
  keyChanged := v.keyChanged
  spam := false
  relaySeq := some a.record.seq
  roomId := none
  archivedAt := h.toISOString a.now

/-- The rooms and the contacts that the ingest of an operation leaves; what
fails is swallowed. -/
def afterIngest (h : MailHost) (selfDid : String) (box : Mailbox)
    (a : Arrival) (op : RoomOp) : Mailbox :=
  if a.ingestOk then
    let ingested := ingestControlOp h.toRoomHost selfDid box.rooms op
      a.founderKey
    { box with
      rooms := ingested.rooms
      contacts :=
        if ingested.pins.isSome then addContact box.contacts a.pinned
        else box.contacts }
  else box

/-- The identifier of the notice that one was added to a room. -/
def joinId (op : RoomOp) : String := roomKey op.roomId ++ ":joined"

/-- `roomJoinNotice`, for an operation that did add oneself. -/
def joins (h : MailHost) (selfDid : String) (box : Mailbox) (now : Int)
    (op : RoomOp) : Bool :=
  op.type = .add && op.memberDid = some selfDid &&
    (match deriveRoom h.toRoomHost now box.rooms (roomKey op.roomId) with
      | none => false
      | some state => state.members.any fun m => m.did = some selfDid) &&
    !isArchived box.archive (joinId op) .received

/-- The body of the notice. -/
def joinBody (box : Mailbox) (op : RoomOp) : MsgBody :=
  .roomJoined op.roomId
    (((box.rooms (roomKey op.roomId)).bind Room.name).or op.roomId)

/-- The notice, for the caller. -/
def joinMessage (h : MailHost) (box : Mailbox) (v : MailVerdict) (a : Arrival)
    (op : RoomOp) : Message where
  seq := a.record.seq
  fromDid := a.record.senderDid
  contact := none
  envelopeId := joinId op
  receivedAt := a.record.queuedIso h
  verified := v.verified
  encrypted := false
  roomId := op.roomId
  inReplyTo := none
  toDid := none
  drift := false
  keyChanged := false
  verifyNote := none
  system := some "room_join"
  body := some (joinBody box op)
  threadId := none

/-- The row of the notice. -/
def joinRow (h : MailHost) (selfDid : String) (box : Mailbox) (v : MailVerdict)
    (a : Arrival) (env : Envelope) (op : RoomOp) : ArchiveRow where
  envelopeId := joinId op
  direction := .received
  threadId := (((box.rooms (roomKey op.roomId)).bind Room.threadId).or
    op.roomId).getD "undefined"
  peerDid := roomKey op.roomId
  fromDid := op.issuerDid.getD a.record.senderDid
  toDid := selfDid
  timestamp := env.timestamp.getD (a.record.queuedIso h)
  body := joinBody box op
  encrypted := false
  verified := v.verified
  keyChanged := false
  spam := false
  relaySeq := some a.record.seq
  roomId := op.roomId
  archivedAt := h.toISOString a.now

/-- A control operation: it is ingested, and who was added is told so. -/
def handleControl (h : MailHost) (selfDid : String) (box : Mailbox)
    (v : MailVerdict) (a : Arrival) (env : Envelope) (op : RoomOp) : Handled :=
  let box' := afterIngest h selfDid box a op
  if joins h selfDid box' a.now op then
    .deliver box' a.archiveOk (joinMessage h box' v a op)
      (joinRow h selfDid box' v a env op)
  else .nothing box'

/-- One record of the batch. -/
def handle (h : MailHost) (selfDid : String) (box : Mailbox) (a : Arrival) :
    Handled :=
  let v := judge h box.contacts a
  match route h selfDid box a with
  | .blocked => .nothing box
  | .broken => { Handled.nothing box with broken := true }
  | .unverifiedRoom => .nothing box
  | .replayed => .nothing box
  | .stale => .nothing box
  | .unknownRoom => .nothing box
  | .notInRoster => .nothing box
  | .roomMsg env msg drift =>
      .deliver box a.archiveOk (roomMessage h v a env msg drift)
        (roomRow h selfDid v a env msg)
  | .control env op => handleControl h selfDid box v a env op
  | .direct =>
      .deliver box a.archiveOk (directMessage h v a)
        (directRow h selfDid v a)

/-! ## A pull -/

/-- A batch in the course of a `receive`. -/
structure Batch where
  box : Mailbox
  messages : List Message
  archiveFailedSeqs : List Int
  broken : Bool

/-- The next record; after an exception there is none. -/
def Batch.next (h : MailHost) (selfDid : String) (b : Batch) (a : Arrival) :
    Batch :=
  if b.broken then b
  else
    let r := handle h selfDid b.box a
    { box := r.box
      messages := b.messages ++ r.message.toList
      archiveFailedSeqs :=
        if r.failed then b.archiveFailedSeqs ++ [a.record.seq]
        else b.archiveFailedSeqs
      broken := r.broken }

/-- `cursorAdvanceTarget`. -/
def cursorAdvanceTarget (deliveredSeqs failedSeqs : List Int)
    (strict : Bool) : Option Int :=
  if !strict then deliveredSeqs.max?
  else
    match failedSeqs.min? with
    | none => deliveredSeqs.max?
    | some firstFail => (deliveredSeqs.filter (· < firstFail)).max?

/-- A call of `receive`: its arguments, what the relay answers, and whether
the cursor can be written. -/
structure Pull where
  since : Option Int
  strict : Bool
  arrivals : List Arrival
  cursorOk : Bool

/-- The batch of a call, handled. -/
def Pull.batch (h : MailHost) (selfDid : String) (box : Mailbox) (p : Pull) :
    Batch :=
  p.arrivals.foldl (Batch.next h selfDid) ⟨box, [], [], false⟩

/-- `receive`: the mailbox afterwards, and the messages that are returned,
unless it ends with an exception. -/
def receive (h : MailHost) (selfDid : String) (box : Mailbox) (p : Pull) :
    Mailbox × Option (List Message) :=
  let b := p.batch h selfDid box
  if b.broken then (b.box, none)
  else
    match cursorAdvanceTarget (p.arrivals.map fun a => a.record.seq)
        b.archiveFailedSeqs p.strict with
    | none => (b.box, some b.messages)
    | some target =>
        ({ b.box with
            cursor :=
              if p.cursorOk then max b.box.cursor target else b.box.cursor },
          some b.messages)

/-! ## What a record leaves -/

section Record

variable {h : MailHost} {selfDid : String} {box : Mailbox} {a : Arrival}

/-- What is verified was signed by the sender that the relay names, with the
key that the registry has for it, in an envelope that names it too. -/
theorem judge_of_verified {contacts : ContactBook}
    (hv : (judge h contacts a).verified = true) :
    ∃ env key, a.envelope = .ok env ∧ a.senderKey = .ok (some key) ∧
      env.fromDid = some a.record.senderDid ∧
      h.verifyEnvelope env key = .ok true ∧
      judge h contacts a = pinVerdict contacts a.record.senderDid key := by
  unfold judge at hv ⊢
  cases henv : a.envelope with
  | error e =>
      rw [henv] at hv
      cases hv
  | ok env =>
      rw [henv] at hv
      cases hkey : a.senderKey with
      | error e =>
          rw [hkey] at hv
          cases hv
      | ok found =>
          rw [hkey] at hv
          cases found with
          | none => cases hv
          | some key =>
              simp only at hv ⊢
              by_cases hfrom : env.fromDid = some a.record.senderDid
              · rw [if_neg (not_not_intro hfrom)] at hv ⊢
                cases hsig : h.verifyEnvelope env key with
                | error e =>
                    rw [hsig] at hv
                    cases hv
                | ok good =>
                    rw [hsig] at hv
                    cases good with
                    | false => cases hv
                    | true => exact ⟨env, key, rfl, rfl, hfrom, hsig, rfl⟩
              · rw [if_pos hfrom] at hv
                cases hv

/-- What is said of a key: that it is another than the pinned one. -/
theorem pinVerdict_keyChanged (contacts : ContactBook) (did key : String) :
    (pinVerdict contacts did key).keyChanged =
      (contacts did).any fun c => c.key ≠ key := by
  unfold pinVerdict checkPin
  cases contacts did with
  | none => rfl
  | some c =>
      by_cases hkey : c.key = key
      · simp [hkey]
      · simp [hkey]

/-- A body of a room is handled where it was verified, is not in the archive
and not too old. -/
theorem routeRoom_cases (h : MailHost) (selfDid : String) (box : Mailbox)
    (a : Arrival) (verified : Bool) (env : Envelope)
    (body : RoomMsg ⊕ RoomOp) :
    routeRoom h selfDid box a verified env body ∈
      [Route.unverifiedRoom, .replayed, .stale, .unknownRoom, .notInRoster] ∨
    (verified = true ∧
      isArchived box.archive a.record.envelopeId .received = false ∧
      env.tooOld h a.now = false ∧
      ((∃ msg drift, body = .inl msg ∧
          routeRoom h selfDid box a verified env body =
            .roomMsg env msg drift ∧
          ∃ state, deriveRoom h.toRoomHost a.now box.rooms
            (roomKey msg.roomId) = some state ∧
            ∃ m ∈ state.members, m.did = some a.record.senderDid) ∨
        ∃ op, body = .inr op ∧
          routeRoom h selfDid box a verified env body =
            .control env op)) := by
  unfold routeRoom
  cases verified with
  | false => exact Or.inl (by simp)
  | true =>
      simp only [Bool.not_true, Bool.false_eq_true, if_false]
      by_cases harchived :
          isArchived box.archive a.record.envelopeId .received = true
      · rw [if_pos harchived]
        exact Or.inl (by simp)
      · rw [if_neg harchived]
        by_cases hold : env.tooOld h a.now = true
        · rw [if_pos hold]
          exact Or.inl (by simp)
        · rw [if_neg hold]
          cases body with
          | inr op =>
              exact Or.inr ⟨trivial, Bool.eq_false_iff.mpr harchived,
                Bool.eq_false_iff.mpr hold, Or.inr ⟨op, rfl, rfl⟩⟩
          | inl msg =>
              simp only
              unfold routeRoomMsg
              cases hstate : deriveRoom h.toRoomHost a.now box.rooms
                  (roomKey msg.roomId) with
              | none => exact Or.inl (by simp)
              | some state =>
                  simp only
                  unfold roomReceiveCheck
                  by_cases hmember : (state.members.any fun m =>
                      m.did = some a.record.senderDid) = true
                  · rw [if_pos hmember]
                    refine Or.inr ⟨trivial, Bool.eq_false_iff.mpr harchived,
                      Bool.eq_false_iff.mpr hold,
                      Or.inl ⟨msg, _, rfl, rfl, state, hstate, ?_⟩⟩
                    rw [List.any_eq_true] at hmember
                    obtain ⟨m, hm, hdid⟩ := hmember
                    exact ⟨m, hm, of_decide_eq_true hdid⟩
                  · rw [if_neg hmember]
                    exact Or.inl (by simp)

/-- What a record is routed to for a room was signed, is new to the archive
and comes from no blocked sender. -/
structure Admitted (h : MailHost) (box : Mailbox) (a : Arrival)
    (env : Envelope) (body : MsgBody) : Prop where
  notBlocked : box.blocked a.record.senderDid = false
  parsed : a.envelope = .ok env
  verified : (judge h box.contacts a).verified = true
  fresh : isArchived box.archive a.record.envelopeId .received = false
  recent : env.tooOld h a.now = false
  opened : (decodeArrival h a (judge h box.contacts a).verified).body =
    some body

/-- The routes of a record. -/
theorem route_cases (h : MailHost) (selfDid : String) (box : Mailbox)
    (a : Arrival) :
    route h selfDid box a ∈ [Route.blocked, .broken, .unverifiedRoom,
      .replayed, .stale, .unknownRoom, .notInRoster] ∨
    (∃ env msg drift, route h selfDid box a = .roomMsg env msg drift ∧
      Admitted h box a env (.roomMsg msg) ∧
      ∃ state, deriveRoom h.toRoomHost a.now box.rooms (roomKey msg.roomId) =
        some state ∧ ∃ m ∈ state.members,
          m.did = some a.record.senderDid) ∨
    (∃ env op, route h selfDid box a = .control env op ∧
      Admitted h box a env (.roomOp op)) ∨
    (route h selfDid box a = .direct ∧
      box.blocked a.record.senderDid = false) := by
  unfold route
  by_cases hblocked : box.blocked a.record.senderDid = true
  · rw [if_pos hblocked]
    exact Or.inl (by simp)
  · rw [if_neg hblocked]
    have hnot := Bool.eq_false_iff.mpr hblocked
    simp only
    split
    · rename_i env msg henv hbody
      rcases routeRoom_cases h selfDid box a
        (judge h box.contacts a).verified env (.inl msg) with hnone | ⟨hv, hfresh, hrecent, hwhat⟩
      · refine Or.inl ?_
        simp only [List.mem_cons, List.not_mem_nil, or_false] at hnone ⊢
        rcases hnone with heq | heq | heq | heq | heq <;> simp [heq]
      · rcases hwhat with ⟨msg', drift, hmsg, heq, hstate⟩ | ⟨op, hop, -⟩
        · cases hmsg
          exact Or.inr (Or.inl ⟨env, msg, drift, heq,
            ⟨hnot, henv, hv, hfresh, hrecent, hbody⟩, hstate⟩)
        · cases hop
    · rename_i env op henv hbody
      rcases routeRoom_cases h selfDid box a
        (judge h box.contacts a).verified env (.inr op) with hnone | ⟨hv, hfresh, hrecent, hwhat⟩
      · refine Or.inl ?_
        simp only [List.mem_cons, List.not_mem_nil, or_false] at hnone ⊢
        rcases hnone with heq | heq | heq | heq | heq <;> simp [heq]
      · rcases hwhat with ⟨msg, drift, hmsg, -⟩ | ⟨op', hop, heq⟩
        · cases hmsg
        · cases hop
          exact Or.inr (Or.inr (Or.inl ⟨env, op, heq,
            ⟨hnot, henv, hv, hfresh, hrecent, hbody⟩⟩))
    · exact Or.inl (by simp)
    · exact Or.inr (Or.inr (Or.inr ⟨rfl, hnot⟩))

/-- What handling a record comes to: nothing, a message in a room, a control
operation, or a message to oneself. -/
theorem handle_cases (h : MailHost) (selfDid : String) (box : Mailbox)
    (a : Arrival) :
    ((handle h selfDid box a).box = box ∧
      (handle h selfDid box a).message = none ∧
      (handle h selfDid box a).failed = false) ∨
    (∃ env msg drift, Admitted h box a env (.roomMsg msg) ∧
      (∃ state, deriveRoom h.toRoomHost a.now box.rooms (roomKey msg.roomId) =
        some state ∧ ∃ m ∈ state.members,
          m.did = some a.record.senderDid) ∧
      handle h selfDid box a = .deliver box a.archiveOk
        (roomMessage h (judge h box.contacts a) a env msg drift)
        (roomRow h selfDid (judge h box.contacts a) a env msg)) ∨
    (∃ env op, Admitted h box a env (.roomOp op) ∧
      handle h selfDid box a =
        handleControl h selfDid box (judge h box.contacts a) a env op) ∨
    (route h selfDid box a = .direct ∧
      box.blocked a.record.senderDid = false ∧
      handle h selfDid box a = .deliver box a.archiveOk
        (directMessage h (judge h box.contacts a) a)
        (directRow h selfDid (judge h box.contacts a) a)) := by
  rcases route_cases h selfDid box a with hquiet |
    ⟨env, msg, drift, hroute, hadmitted, hstate⟩ |
    ⟨env, op, hroute, hadmitted⟩ | ⟨hroute, hnot⟩
  · refine Or.inl ?_
    unfold handle
    simp only [List.mem_cons, List.not_mem_nil, or_false] at hquiet
    rcases hquiet with hr | hr | hr | hr | hr | hr | hr <;> rw [hr] <;>
      exact ⟨rfl, rfl, rfl⟩
  · refine Or.inr (Or.inl ⟨env, msg, drift, hadmitted, hstate, ?_⟩)
    unfold handle
    rw [hroute]
  · refine Or.inr (Or.inr (Or.inl ⟨env, op, hadmitted, ?_⟩))
    unfold handle
    rw [hroute]
  · refine Or.inr (Or.inr (Or.inr ⟨hroute, hnot, ?_⟩))
    unfold handle
    rw [hroute]

/-- A message to oneself is no message in a room. -/
theorem body_of_direct (hroute : route h selfDid box a = .direct) :
    ∀ msg, (decodeArrival h a (judge h box.contacts a).verified).body ≠
      some (.roomMsg msg) := by
  intro msg hbody
  cases henv : a.envelope with
  | error e =>
      unfold decodeArrival at hbody
      rw [henv] at hbody
      cases hbody
  | ok env =>
      unfold route at hroute
      split at hroute
      · cases hroute
      · simp only [henv, hbody] at hroute
        unfold routeRoom routeRoomMsg at hroute
        split at hroute
        · cases hroute
        · split at hroute
          · cases hroute
          · split at hroute
            · cases hroute
            · simp only at hroute
              split at hroute
              · cases hroute
              · split at hroute <;> cases hroute

end Record

/-! ## What a batch leaves -/

/-- The mailbox after one record. -/
def handleBox (h : MailHost) (selfDid : String) (box : Mailbox) (a : Arrival) :
    Mailbox :=
  (handle h selfDid box a).box

theorem batch_next_broken (h : MailHost) (selfDid : String) {b : Batch}
    (hb : b.broken = true) (a : Arrival) : Batch.next h selfDid b a = b := by
  unfold Batch.next
  rw [if_pos hb]

theorem batch_next_fine (h : MailHost) (selfDid : String) {b : Batch}
    (hb : b.broken = false) (a : Arrival) :
    Batch.next h selfDid b a =
      { box := (handle h selfDid b.box a).box
        messages := b.messages ++ (handle h selfDid b.box a).message.toList
        archiveFailedSeqs :=
          if (handle h selfDid b.box a).failed then
            b.archiveFailedSeqs ++ [a.record.seq]
          else b.archiveFailedSeqs
        broken := (handle h selfDid b.box a).broken } := by
  unfold Batch.next
  rw [if_neg (Bool.eq_false_iff.mp hb)]

theorem foldl_next_broken (h : MailHost) (selfDid : String)
    (arrivals : List Arrival) {b : Batch} (hb : b.broken = true) :
    arrivals.foldl (Batch.next h selfDid) b = b := by
  induction arrivals with
  | nil => rfl
  | cons a rest ih =>
      rw [List.foldl_cons, batch_next_broken h selfDid hb a]
      exact ih

/-- A batch handles its records in turn, up to an exception. -/
theorem foldl_next_box (h : MailHost) (selfDid : String)
    (arrivals : List Arrival) (b : Batch) :
    ∃ n, (arrivals.foldl (Batch.next h selfDid) b).box =
      Lib.Trace.run (handleBox h selfDid) b.box (arrivals.take n) := by
  induction arrivals generalizing b with
  | nil => exact ⟨0, rfl⟩
  | cons a rest ih =>
      by_cases hb : b.broken = true
      · refine ⟨0, ?_⟩
        rw [foldl_next_broken h selfDid _ hb]
        rfl
      · obtain ⟨n, hn⟩ := ih (Batch.next h selfDid b a)
        refine ⟨n + 1, ?_⟩
        rw [List.foldl_cons, hn, List.take_succ_cons, Lib.Trace.run_cons,
          batch_next_fine h selfDid (Bool.eq_false_iff.mpr hb) a]
        rfl

/-- What `receive` leaves, the cursor excepted, is what the records it handled
leave. -/
theorem receive_box (h : MailHost) (selfDid : String) (box : Mailbox)
    (p : Pull) :
    ∃ n, (receive h selfDid box p).1 =
      { Lib.Trace.run (handleBox h selfDid) box (p.arrivals.take n) with
        cursor := (receive h selfDid box p).1.cursor } := by
  obtain ⟨n, hn⟩ := foldl_next_box h selfDid p.arrivals ⟨box, [], [], false⟩
  refine ⟨n, ?_⟩
  rw [← hn]
  unfold receive Pull.batch
  simp only
  split
  · rfl
  · split <;> rfl

end AirNote
