import AirNote.PinnedKeys
import AirNote.Receive

/-!
# What the channel replays

A client of the channel that has missed messages gets them from the archive.
Live, the daemon withholds what did not verify, whose sender is not pinned,
has another key than the pinned one or is muted, and what comes from a room
that is halted or not the sender's. A replay reads rows and gates them again;
there are two replayers, one that runs the gates of the daemon and one that
runs the gate for messages to oneself on every row.

A row of a room does not say that the key of its sender had changed. So a
message that the daemon withheld for that is replayed by both; and from a
room that is halted the second replays what the first withholds.

## Main results

* `replay_agrees_iff` — for each archived message, the condition under which
  nothing is replayed that was withheld, and by both replayers alike.
* `replay_exceeds_live` — a key that changed, and a room that is halted.
-/

namespace AirNote

/-! ## The gates -/

/-- A character of an AIR identifier. -/
def isAirChar (c : Char) : Bool := c.isAlphanum || c = '-'

/-- What every AIR identifier starts with. -/
def airPrefix : List Char := ['A', 'I', 'R', '-']

/-- The identifier at the start of a text, if it is one. -/
def airIdAt (cs : List Char) : Option (List Char) :=
  if airPrefix.isPrefixOf cs && !((cs.drop 4).takeWhile isAirChar).isEmpty then
    some (airPrefix ++ (cs.drop 4).takeWhile isAirChar)
  else none

/-- `shortPeer`: the first AIR identifier in a DID. -/
def shortPeer (did : String) : String :=
  match did.toList.tails.findSome? airIdAt with
  | some cs => String.ofList cs
  | none => did

/-- `short_peer` of the second replayer: looks at the first place only where
one could start. -/
def shortPeerRs (did : String) : String :=
  match did.toList.tails.find? airPrefix.isPrefixOf with
  | none => did
  | some cs =>
      match airIdAt cs with
      | some cs' => String.ofList cs'
      | none => did

/-- A text that counts as one. -/
def truthy (text : Option String) : Option String := text.filter (· ≠ "")

/-- The sender is muted, under one of three names. -/
def isMuted (short : String → String) (mute : String → Bool) (m : Message) :
    Bool :=
  mute (m.contact.getD "") || mute m.fromDid || mute (short m.fromDid)

/-- A message that verified, from a pinned sender. -/
def fromPinned (m : Message) : Bool := m.verified && (truthy m.contact).isSome

/-- `channelGate`. -/
def channelGate (mute : String → Bool) (m : Message) : Bool :=
  fromPinned m && !m.keyChanged && !isMuted shortPeer mute m

/-- `channel_gate` of the second replayer. -/
def channelGateRs (mute : String → Bool) (m : Message) : Bool :=
  fromPinned m && !m.keyChanged && !isMuted shortPeerRs mute m

/-- The sender may speak in the room. -/
def speaksIn (state : Option RoomState) (did : String) : Bool :=
  match state with
  | none => false
  | some s => !s.halted && s.members.any fun m => m.did = some did

/-- `roomChannelGate`. -/
def roomChannelGate (mute : String → Bool) (state : Option RoomState)
    (m : Message) : Bool :=
  channelGate mute m && speaksIn state m.fromDid

/-- The gate of the daemon for the channel, and the one of the first replayer:
by room, where there is one. -/
def pushGate (derive : String → Option RoomState) (mute : String → Bool)
    (m : Message) : Bool :=
  match truthy m.roomId with
  | none => channelGate mute m
  | some id => roomChannelGate mute (derive id) m

/-! ## Reading the archive -/

/-- The identifier of a notice, as the query tells it. -/
def likeJoined (id : String) : Bool :=
  ":joined".toList.isSuffixOf (id.toList.map Char.toLower)

/-- A row that the query of a replay finds. -/
def replayable (row : ArchiveRow) : Bool :=
  row.direction = .received && !row.spam && row.relaySeq.isSome &&
    !likeJoined row.envelopeId

/-- Where a row stands. -/
def rowSeq (row : ArchiveRow) : Int := row.relaySeq.getD 0

/-- The size of a page. -/
def replayPageSize : Nat := 500

/-- The rows after a row. -/
def rowsAfter (last : ArchiveRow) (rows : List ArchiveRow) : List ArchiveRow :=
  rows.filter fun r => rowSeq last < rowSeq r

theorem length_rowsAfter_lt {last : ArchiveRow} {rows : List ArchiveRow}
    (hlast : last ∈ rows) : (rowsAfter last rows).length < rows.length := by
  unfold rowsAfter
  rw [List.length_filter_lt_length_iff_exists]
  exact ⟨last, hlast, by simp⟩

/-- The rows of a replay, page after page: a page that is full is followed by
the rows after its last one. -/
def replayPages (rows : List ArchiveRow) : List ArchiveRow :=
  if (rows.take replayPageSize).length < replayPageSize then
    rows.take replayPageSize
  else
    match _hlast : (rows.take replayPageSize).getLast? with
    | none => []
    | some last => rows.take replayPageSize ++
        replayPages (rowsAfter last rows)
termination_by rows.length
decreasing_by
  exact length_rowsAfter_lt
    (List.mem_of_mem_take (List.mem_of_getLast? _hlast))

/-- `replaySince`, page after page. -/
def replaySince (archive : List ArchiveRow) (afterSeq : Int) :
    List ArchiveRow :=
  replayPages (sortBy (fun a b => compare (rowSeq a) (rowSeq b))
    (archive.filter fun r => replayable r && decide (afterSeq < rowSeq r)))

/-- How many identifiers a replayer remembers. -/
def replayMaxSeen : Nat := 1000

/-- An identifier is remembered, and the oldest forgotten. -/
def rememberSeen (seen : List String) (id : String) : List String :=
  if replayMaxSeen < (seen ++ [id]).length then (seen ++ [id]).tail
  else seen ++ [id]

/-- The rows that a replayer comes to: of no blocked sender, and not seen. -/
def visitRows (blocked : String → Bool) :
    List String → List ArchiveRow → List ArchiveRow
  | _, [] => []
  | seen, row :: rest =>
      if blocked row.fromDid || seen.contains row.envelopeId then
        visitRows blocked seen rest
      else row :: visitRows blocked (rememberSeen seen row.envelopeId) rest

/-- `rowToMessage`: the contact is the one of now. -/
def rowToMessage (contacts : ContactBook) (row : ArchiveRow) : Message where
  seq := rowSeq row
  fromDid := row.fromDid
  contact := truthy ((contacts row.fromDid).map Contact.aliasName)
  envelopeId := row.envelopeId
  receivedAt := row.archivedAt
  verified := row.verified
  encrypted := row.encrypted
  roomId := truthy row.roomId
  inReplyTo := none
  toDid := none
  drift := false
  keyChanged := row.keyChanged
  verifyNote := none
  system := none
  body := some row.body
  threadId := some row.threadId

/-- The rows a replayer with a gate emits, for a gap after a number. -/
def replayed (gate : Message → Bool) (contacts : ContactBook)
    (blocked : String → Bool) (seen : List String)
    (archive : List ArchiveRow) (afterSeq : Int) : List ArchiveRow :=
  (visitRows blocked seen (replaySince archive afterSeq)).filter fun row =>
    gate (rowToMessage contacts row)

/-- `makeReplayer`, with the pipeline it pushes into. -/
def replayedJs (derive : String → Option RoomState) (mute : String → Bool)
    (contacts : ContactBook) (blocked : String → Bool) (seen : List String)
    (archive : List ArchiveRow) (afterSeq : Int) : List ArchiveRow :=
  replayed (pushGate derive mute) contacts blocked seen archive afterSeq

/-- `Replayer::gap`. -/
def replayedRs (mute : String → Bool) (contacts : ContactBook)
    (blocked : String → Bool) (seen : List String)
    (archive : List ArchiveRow) (afterSeq : Int) : List ArchiveRow :=
  replayed (channelGateRs mute) contacts blocked seen archive afterSeq

section Rows

theorem mem_replayPages {rows : List ArchiveRow} {row : ArchiveRow}
    (hrow : row ∈ replayPages rows) : row ∈ rows := by
  induction rows using replayPages.induct with
  | case1 rows hshort =>
      rw [replayPages, if_pos hshort] at hrow
      exact List.mem_of_mem_take hrow
  | case2 rows hfull hlast =>
      rw [replayPages, if_neg hfull] at hrow
      split at hrow
      · cases hrow
      · rename_i last hlast'
        rw [hlast] at hlast'
        cases hlast'
  | case3 rows hfull last hlast ih =>
      rw [replayPages, if_neg hfull] at hrow
      split at hrow
      · cases hrow
      · rename_i last' hlast'
        rw [hlast, Option.some.injEq] at hlast'
        subst hlast'
        rcases List.mem_append.mp hrow with hpage | hafter
        · exact List.mem_of_mem_take hpage
        · exact List.mem_of_mem_filter (ih hafter)

/-- The rows of a replay. -/
theorem mem_replaySince {archive : List ArchiveRow} {afterSeq : Int}
    {row : ArchiveRow} (hrow : row ∈ replaySince archive afterSeq) :
    row ∈ archive ∧ replayable row = true := by
  have hmem := mem_replayPages hrow
  unfold sortBy at hmem
  rw [List.mem_insertionSort, List.mem_filter, Bool.and_eq_true] at hmem
  exact ⟨hmem.1, hmem.2.1⟩

theorem mem_visitRows {blocked : String → Bool} {seen : List String}
    {rows : List ArchiveRow} {row : ArchiveRow}
    (hrow : row ∈ visitRows blocked seen rows) : row ∈ rows := by
  induction rows generalizing seen with
  | nil => cases hrow
  | cons r rest ih =>
      unfold visitRows at hrow
      split at hrow
      · exact List.mem_cons_of_mem r (ih hrow)
      · rcases List.mem_cons.mp hrow with rfl | hrest
        · exact List.mem_cons_self
        · exact List.mem_cons_of_mem r (ih hrest)

section Replayed

variable {gate gate' : Message → Bool} {contacts : ContactBook}
  {blocked : String → Bool} {seen : List String} {archive : List ArchiveRow}
  {afterSeq : Int} {row : ArchiveRow}

/-- What is emitted was found by the query and passes the gate. -/
theorem mem_replayed
    (hrow : row ∈ replayed gate contacts blocked seen archive afterSeq) :
    replayable row = true ∧ gate (rowToMessage contacts row) = true := by
  unfold replayed at hrow
  rw [List.mem_filter] at hrow
  exact ⟨(mem_replaySince (mem_visitRows hrow.1)).2, hrow.2⟩

/-- Two replayers whose gates agree on a row both emit it or both do not. -/
theorem mem_replayed_congr
    (hgate : gate (rowToMessage contacts row) =
      gate' (rowToMessage contacts row)) :
    row ∈ replayed gate contacts blocked seen archive afterSeq ↔
      row ∈ replayed gate' contacts blocked seen archive afterSeq := by
  unfold replayed
  rw [List.mem_filter, List.mem_filter, hgate]

/-- A replayer with nothing else to replay. -/
theorem mem_replayed_singleton (hreplayable : replayable row = true)
    (hnot : blocked row.fromDid = false) :
    row ∈ replayed gate contacts blocked [] [row] (rowSeq row - 1) ↔
      gate (rowToMessage contacts row) = true := by
  have hsince : replaySince [row] (rowSeq row - 1) = [row] := by
    have hafter : rowSeq row - 1 < rowSeq row := by omega
    unfold replaySince
    rw [List.filter_cons_of_pos (by simp [hreplayable, hafter]),
      List.filter_nil]
    have hsort : sortBy (fun a b => compare (rowSeq a) (rowSeq b)) [row] =
        [row] := rfl
    have hshort : ([row].take replayPageSize).length < replayPageSize := by
      show 1 < replayPageSize
      decide
    rw [hsort, replayPages, if_pos hshort]
    rfl
  unfold replayed
  rw [hsince]
  simp only [visitRows, hnot, List.contains_nil, Bool.or_self,
    Bool.false_eq_true, if_false]
  rw [List.mem_filter, and_iff_right (List.mem_singleton_self row)]

end Replayed

/-- The notice that one was added is never replayed. -/
theorem likeJoined_joinId (op : RoomOp) : likeJoined (joinId op) = true := by
  unfold likeJoined joinId
  rw [String.toList_append, List.map_append]
  have hsame : ":joined".toList.map Char.toLower = ":joined".toList := by
    decide
  rw [hsame, List.isSuffixOf_iff_suffix]
  exact List.suffix_append _ _

end Rows

/-! ## Live and replayed -/

/-- The room of a message, if it has one, lets its sender speak. -/
def roomOpen (derive : String → Option RoomState) (m : Message) : Bool :=
  match truthy m.roomId with
  | none => true
  | some id => speaksIn (derive id) m.fromDid

/-- A message under an identifier that the query finds, from a pinned sender:
in a room, that whoever the second replayer does not take for muted is not
muted, has the pinned key and may speak in the room, and the reverse; to
oneself under the pinned key, that the two take the same senders for muted. -/
def ReplayAgrees (derive : String → Option RoomState) (mute : String → Bool)
    (m : Message) : Prop :=
  likeJoined m.envelopeId = false → fromPinned m = true →
    match m.body with
    | some (.roomMsg _) =>
        (isMuted shortPeerRs mute m = false ↔
          isMuted shortPeer mute m = false ∧ roomOpen derive m = true) ∧
        (isMuted shortPeerRs mute m = false → m.keyChanged = false)
    | _ => m.keyChanged = false →
        (isMuted shortPeerRs mute m = false ↔
          isMuted shortPeer mute m = false)

/-- What a replay knows of a message that was archived: all but, for one in a
room, that the key of its sender had changed. -/
structure Archives (h : MailHost) (box : Mailbox) (m : Message)
    (row : ArchiveRow) : Prop where
  sameId : row.envelopeId = m.envelopeId
  sameRoom : row.roomId = m.roomId
  sameVerified : row.verified = m.verified
  found : replayable row = !likeJoined m.envelopeId
  sender : m.verified = true → row.fromDid = m.fromDid ∧
    m.contact = (box.contacts m.fromDid).map Contact.aliasName ∧
    box.blocked m.fromDid = false
  key : match m.body with
    | some (.roomMsg _) => row.keyChanged = false
    | _ => row.keyChanged = m.keyChanged ∧ m.roomId = none

theorem truthy_truthy (text : Option String) :
    truthy (truthy text) = truthy text := by
  unfold truthy
  rw [Option.filter_filter]
  simp

section Agree

variable {h : MailHost} {selfDid : String} {box : Mailbox} {a : Arrival}
  {m : Message} {row : ArchiveRow}

theorem pinVerdict_alias (contacts : ContactBook) (did key : String) :
    (pinVerdict contacts did key).contactAlias =
      (contacts did).map Contact.aliasName := by
  unfold pinVerdict checkPin
  cases contacts did with
  | none => rfl
  | some c =>
      by_cases hkey : c.key = key
      · simp [hkey]
      · simp [hkey]

/-- A row that goes into the archive is the one of the message. -/
theorem row_of_deliver {message : Message} {row' : ArchiveRow}
    (hm : (Handled.deliver box a.archiveOk message row').message = some m)
    (hrow : (Handled.deliver box a.archiveOk message row').box.archive =
      box.archive ++ [row]) : m = message ∧ row = row' := by
  unfold Handled.deliver at hm hrow
  simp only [Option.some.injEq] at hm
  refine ⟨hm.symm, ?_⟩
  simp only at hrow
  split at hrow
  · unfold archiveMessage at hrow
    simp only at hrow
    split at hrow
    · simp at hrow
    · exact (List.singleton_inj.mp (List.append_cancel_left hrow)).symm
  · simp at hrow

/-- What `receive` archives of a message, on each of its branches. -/
theorem archives_of_handle
    (hm : (handle h selfDid box a).message = some m)
    (hrow : (handle h selfDid box a).box.archive = box.archive ++ [row]) :
    (likeJoined m.envelopeId = true ∧ replayable row = false) ∨
      Archives h box m row := by
  rcases handle_cases h selfDid box a with ⟨-, hnone, -⟩ |
    ⟨env, msg, drift, hadmitted, -, heq⟩ | ⟨env, op, hadmitted, heq⟩ |
    ⟨hroute, hnot, heq⟩
  · rw [hnone] at hm
    cases hm
  · rw [heq] at hm hrow
    obtain ⟨rfl, rfl⟩ := row_of_deliver hm hrow
    obtain ⟨env', key, henv, -, hfrom, -, hjudge⟩ :=
      judge_of_verified hadmitted.verified
    rw [hadmitted.parsed, Except.ok.injEq] at henv
    subst henv
    refine Or.inr ⟨rfl, rfl, rfl, ?_, ?_, rfl⟩
    · simp [replayable, roomRow, roomMessage]
    · intro _
      refine ⟨?_, ?_, hadmitted.notBlocked⟩
      · show env.fromDid.getD a.record.senderDid = a.record.senderDid
        rw [hfrom]
        rfl
      · show (judge h box.contacts a).contactAlias = _
        rw [hjudge, pinVerdict_alias]
        rfl
  · rw [heq] at hm hrow
    unfold handleControl at hm hrow
    simp only at hm hrow
    split at hm
    · rename_i hjoins
      rw [if_pos hjoins] at hrow
      have harchive : (afterIngest h selfDid box a op).archive =
          box.archive := by
        unfold afterIngest
        split <;> rfl
      rw [← harchive] at hrow
      obtain ⟨rfl, rfl⟩ := row_of_deliver hm hrow
      refine Or.inl ⟨likeJoined_joinId op, ?_⟩
      unfold replayable
      show (_ && !likeJoined (joinId op)) = false
      rw [likeJoined_joinId]
      simp
    · cases hm
  · rw [heq] at hm hrow
    obtain ⟨rfl, rfl⟩ := row_of_deliver hm hrow
    refine Or.inr ⟨rfl, rfl, rfl, ?_, ?_, ?_⟩
    · simp [replayable, directRow, directMessage]
    · intro hv
      obtain ⟨env, key, henv, -, hfrom, -, hjudge⟩ :=
        judge_of_verified hv
      refine ⟨?_, ?_, hnot⟩
      · show (a.envelope.toOption.bind Envelope.fromDid).getD
          a.record.senderDid = a.record.senderDid
        rw [henv]
        show env.fromDid.getD a.record.senderDid = a.record.senderDid
        rw [hfrom]
        rfl
      · show (judge h box.contacts a).contactAlias = _
        rw [hjudge, pinVerdict_alias]
        rfl
    · have hbody := body_of_direct hroute
      show match (decodeArrival h a (judge h box.contacts a).verified).body
        with
        | some (.roomMsg _) => (judge h box.contacts a).keyChanged = false
        | _ => (judge h box.contacts a).keyChanged =
            (judge h box.contacts a).keyChanged ∧
              (none : Option String) = none
      split
      · rename_i msg hmsg
        exact absurd hmsg (hbody msg)
      · exact ⟨rfl, rfl⟩

theorem pushGate_eq (derive : String → Option RoomState)
    (mute : String → Bool) (m : Message) :
    pushGate derive mute m = (channelGate mute m && roomOpen derive m) := by
  unfold pushGate roomOpen
  split
  · rw [Bool.and_true]
  · rfl

theorem truthy_getD (text : Option String) :
    (truthy text).getD "" = text.getD "" := by
  unfold truthy
  cases text with
  | none => rfl
  | some t =>
      by_cases ht : t = ""
      · simp [Option.filter, ht]
      · simp [Option.filter, ht]

section Gates

variable {derive : String → Option RoomState} {mute : String → Bool}
  (harchives : Archives h box m row)
include harchives

/-- What a gate sees of the sender, in a row. -/
theorem Archives.fromPinned_eq :
    fromPinned (rowToMessage box.contacts row) = fromPinned m := by
  unfold fromPinned rowToMessage
  simp only
  rw [harchives.sameVerified]
  cases hv : m.verified with
  | false => rfl
  | true =>
      obtain ⟨hfrom, hcontact, -⟩ := harchives.sender hv
      rw [hfrom, truthy_truthy, hcontact]

theorem Archives.isMuted_eq (hv : m.verified = true)
    (short : String → String) :
    isMuted short mute (rowToMessage box.contacts row) =
      isMuted short mute m := by
  obtain ⟨hfrom, hcontact, -⟩ := harchives.sender hv
  unfold isMuted rowToMessage
  simp only
  rw [hfrom, hcontact, truthy_getD]

theorem Archives.roomOpen_eq (hv : m.verified = true) :
    roomOpen derive (rowToMessage box.contacts row) = roomOpen derive m := by
  obtain ⟨hfrom, -, -⟩ := harchives.sender hv
  unfold roomOpen rowToMessage
  simp only
  rw [harchives.sameRoom, truthy_truthy, hfrom]

omit harchives in
theorem fromPinned_of_unverified (hv : m.verified = false) :
    fromPinned m = false := by
  unfold fromPinned
  rw [hv]
  rfl

/-- The gate of the first replayer, on a row. -/
theorem Archives.pushGate_row :
    pushGate derive mute (rowToMessage box.contacts row) =
      (fromPinned m && !row.keyChanged && !isMuted shortPeer mute m &&
        roomOpen derive m) := by
  rw [pushGate_eq]
  unfold channelGate
  rw [harchives.fromPinned_eq]
  cases hv : m.verified with
  | false =>
      rw [fromPinned_of_unverified hv]
      rfl
  | true =>
      rw [harchives.isMuted_eq hv, harchives.roomOpen_eq hv]
      rfl

/-- The gate of the second replayer, on a row. -/
theorem Archives.channelGateRs_row :
    channelGateRs mute (rowToMessage box.contacts row) =
      (fromPinned m && !row.keyChanged && !isMuted shortPeerRs mute m) := by
  unfold channelGateRs
  rw [harchives.fromPinned_eq]
  cases hv : m.verified with
  | false =>
      rw [fromPinned_of_unverified hv]
      rfl
  | true =>
      rw [harchives.isMuted_eq hv]
      rfl

/-- The gates agree with what was delivered live, and with each other. -/
theorem Archives.gates_agree_iff (hfound : replayable row = true) :
    ((pushGate derive mute m = false →
        pushGate derive mute (rowToMessage box.contacts row) = false ∧
        channelGateRs mute (rowToMessage box.contacts row) = false) ∧
      pushGate derive mute (rowToMessage box.contacts row) =
        channelGateRs mute (rowToMessage box.contacts row)) ↔
      ReplayAgrees derive mute m := by
  have hnot : likeJoined m.envelopeId = false := by
    rw [harchives.found] at hfound
    simpa using hfound
  have hkey := harchives.key
  rw [harchives.pushGate_row, harchives.channelGateRs_row, pushGate_eq]
  unfold channelGate ReplayAgrees
  simp only [hnot, forall_const]
  cases hpinned : fromPinned m with
  | false => simp
  | true =>
      split at hkey
      · rename_i msg hbody
        simp only [hkey]
        cases m.keyChanged <;> cases isMuted shortPeer mute m <;>
          cases isMuted shortPeerRs mute m <;> cases roomOpen derive m <;>
          simp
      · have hopen : roomOpen derive m = true := by
          unfold roomOpen
          rw [hkey.2]
          rfl
        simp only [hkey.1, hopen]
        cases m.keyChanged <;> cases isMuted shortPeer mute m <;>
          cases isMuted shortPeerRs mute m <;> simp

end Gates

end Agree

/-- **Replay and live delivery.** A message that `receive` hands on and puts
into the archive, and any later time at which the contacts, the blocked
senders and what is derived of the rooms are as they were: whatever else is
in the archive and was seen, what the daemon withheld is emitted by neither
replayer, and the two emit the same, exactly where `ReplayAgrees` holds of
the message. -/
theorem replay_agrees_iff (h : MailHost) (selfDid : String) (box : Mailbox)
    (a : Arrival) (m : Message) (row : ArchiveRow) (mute : String → Bool)
    (hm : (handle h selfDid box a).message = some m)
    (hrow : (handle h selfDid box a).box.archive = box.archive ++ [row])
    (later : Mailbox) (now : Int) (hcontacts : later.contacts = box.contacts)
    (hblocked : later.blocked = box.blocked)
    (hrooms : ∀ id, deriveRoom h.toRoomHost now later.rooms id =
      deriveRoom h.toRoomHost a.now box.rooms id) :
    (∀ seen archive afterSeq,
      (pushGate (deriveRoom h.toRoomHost a.now box.rooms) mute m = false →
        row ∉ replayedJs (deriveRoom h.toRoomHost now later.rooms) mute
          later.contacts later.blocked seen archive afterSeq ∧
        row ∉ replayedRs mute later.contacts later.blocked seen archive
          afterSeq) ∧
      (row ∈ replayedJs (deriveRoom h.toRoomHost now later.rooms) mute
          later.contacts later.blocked seen archive afterSeq ↔
        row ∈ replayedRs mute later.contacts later.blocked seen archive
          afterSeq)) ↔
      ReplayAgrees (deriveRoom h.toRoomHost a.now box.rooms) mute m := by
  have hderive : deriveRoom h.toRoomHost now later.rooms =
      deriveRoom h.toRoomHost a.now box.rooms := funext hrooms
  rw [hcontacts, hblocked, hderive]
  unfold replayedJs replayedRs
  rcases archives_of_handle hm hrow with ⟨hjoined, hlost⟩ | harchives
  · constructor
    · intro _ hnot
      rw [hjoined] at hnot
      cases hnot
    · intro _ seen archive afterSeq
      have hnone : ∀ gate : Message → Bool, row ∉ replayed gate box.contacts
          box.blocked seen archive afterSeq := by
        intro gate hmem
        rw [(mem_replayed hmem).1] at hlost
        cases hlost
      exact ⟨fun _ => ⟨hnone _, hnone _⟩,
        iff_of_false (hnone _) (hnone _)⟩
  · constructor
    · intro hall hnot hpinned
      have hfound : replayable row = true := by
        rw [harchives.found, hnot]
        rfl
      refine (harchives.gates_agree_iff hfound).mp ?_ hnot hpinned
      have hv : m.verified = true := by
        unfold fromPinned at hpinned
        rw [Bool.and_eq_true] at hpinned
        exact hpinned.1
      obtain ⟨hfrom, -, hfree⟩ := harchives.sender hv
      rw [← hfrom] at hfree
      have hone := hall [] [row] (rowSeq row - 1)
      rw [mem_replayed_singleton hfound hfree,
        mem_replayed_singleton hfound hfree] at hone
      constructor
      · intro hwithheld
        obtain ⟨hjs, hrs⟩ := hone.1 hwithheld
        exact ⟨Bool.eq_false_iff.mpr hjs, Bool.eq_false_iff.mpr hrs⟩
      · exact Bool.eq_iff_iff.mpr hone.2
    · intro hagree seen archive afterSeq
      cases hfound : replayable row with
      | false =>
          have hnone : ∀ gate : Message → Bool, row ∉ replayed gate
              box.contacts box.blocked seen archive afterSeq := by
            intro gate hmem
            rw [(mem_replayed hmem).1] at hfound
            cases hfound
          exact ⟨fun _ => ⟨hnone _, hnone _⟩,
            iff_of_false (hnone _) (hnone _)⟩
      | true =>
          obtain ⟨hlive, hsame⟩ :=
            (harchives.gates_agree_iff hfound).mpr hagree
          constructor
          · intro hwithheld
            obtain ⟨hjs, hrs⟩ := hlive hwithheld
            constructor
            · intro hmem
              rw [(mem_replayed hmem).2] at hjs
              cases hjs
            · intro hmem
              rw [(mem_replayed hmem).2] at hrs
              cases hrs
          · exact mem_replayed_congr hsame

/-! ## Withheld, and replayed -/

/-- The founder adds a peer. -/
def samplePeerAdd : RoomOp :=
  { blankOp .add "did:founder" "key:founder" "peer" with
    memberDid := some "did:peer"
    memberPubkey := some "key:peer"
    kind := some "agent"
    founderSeq := some "1" }

/-- The founder halts the room. -/
def sampleHalt : RoomOp :=
  { blankOp .halt "did:founder" "key:founder" "halt" with
    founderSeq := some "2" }

/-- A mailbox that pins the peer under a key, in a room. -/
def peerBox (pinned : String) (ops : List RoomOp) : Mailbox where
  contacts := fun did =>
    if did = "did:peer" then some ⟨"peer", "AIR-peer", none, pinned, none⟩
    else none
  blocked := fun _ => false
  rooms := fun id =>
    if id = "room" then
      some { roomOfCreate sampleCreate with ops := ops }
    else none
  archive := []
  cursor := 0

/-- The peer says something in the room. -/
def peerArrival : Arrival where
  record := ⟨1, "did:peer", "envelope", 0⟩
  envelope := .ok (plainEnvelope "did:peer" "key:peer"
    (.roomMsg ⟨some "room", ["did:here"], none, none, "hi"⟩))
  senderKey := .ok (some "key:peer")
  founderKey := none
  pinned := none
  ingestOk := true
  archiveOk := true
  now := 0

/-- A message to oneself from a pinned sender. -/
def peerDirect : Arrival :=
  { peerArrival with
    envelope := .ok
      (plainEnvelope "did:peer" "key:peer" (.plain "hi")) }

/-- A message to oneself is replayed as it was delivered. -/
theorem replay_agrees_sample :
    directRow plainMail "did:here"
        (judge plainMail (peerBox "key:peer" []).contacts peerDirect)
        peerDirect ∈
      replayedJs (deriveRoom plainHost 0 (peerBox "key:peer" []).rooms)
        (fun _ => false) (peerBox "key:peer" []).contacts
        (peerBox "key:peer" []).blocked [] [directRow plainMail "did:here"
          (judge plainMail (peerBox "key:peer" []).contacts peerDirect)
          peerDirect] 0 ↔
    directRow plainMail "did:here"
        (judge plainMail (peerBox "key:peer" []).contacts peerDirect)
        peerDirect ∈
      replayedRs (fun _ => false) (peerBox "key:peer" []).contacts
        (peerBox "key:peer" []).blocked [] [directRow plainMail "did:here"
          (judge plainMail (peerBox "key:peer" []).contacts peerDirect)
          peerDirect] 0 :=
  ((replay_agrees_iff plainMail "did:here" (peerBox "key:peer" []) peerDirect
    _ _ (fun _ => false) rfl rfl (peerBox "key:peer" []) 0 rfl rfl
    (fun _ => rfl)).mpr (fun _ _ _ => iff_of_true rfl rfl) [] _ 0).2

/-- A message in a room whose sender has another key than the pinned one is
withheld, and emitted by both replayers; one in a room that is halted is
withheld, and emitted by the second. -/
theorem replay_exceeds_live :
    (∃ m row, (handle plainMail "did:here" (peerBox "key:old"
          [sampleCreate, samplePeerAdd]) peerArrival).message = some m ∧
        (handle plainMail "did:here" (peerBox "key:old"
          [sampleCreate, samplePeerAdd]) peerArrival).box.archive = [row] ∧
        pushGate (deriveRoom plainHost 0 (peerBox "key:old"
          [sampleCreate, samplePeerAdd]).rooms) (fun _ => false) m = false ∧
        row ∈ replayedJs (deriveRoom plainHost 0 (peerBox "key:old"
            [sampleCreate, samplePeerAdd]).rooms) (fun _ => false)
          (peerBox "key:old" [sampleCreate, samplePeerAdd]).contacts
          (fun _ => false) [] [row] (rowSeq row - 1) ∧
        row ∈ replayedRs (fun _ => false)
          (peerBox "key:old" [sampleCreate, samplePeerAdd]).contacts
          (fun _ => false) [] [row] (rowSeq row - 1)) ∧
    ∃ m row, (handle plainMail "did:here" (peerBox "key:peer"
          [sampleCreate, samplePeerAdd, sampleHalt]) peerArrival).message =
            some m ∧
        (handle plainMail "did:here" (peerBox "key:peer"
          [sampleCreate, samplePeerAdd, sampleHalt])
            peerArrival).box.archive = [row] ∧
        pushGate (deriveRoom plainHost 0 (peerBox "key:peer"
          [sampleCreate, samplePeerAdd, sampleHalt]).rooms) (fun _ => false)
            m = false ∧
        row ∉ replayedJs (deriveRoom plainHost 0 (peerBox "key:peer"
            [sampleCreate, samplePeerAdd, sampleHalt]).rooms) (fun _ => false)
          (peerBox "key:peer"
            [sampleCreate, samplePeerAdd, sampleHalt]).contacts
          (fun _ => false) [] [row] (rowSeq row - 1) ∧
        row ∈ replayedRs (fun _ => false)
          (peerBox "key:peer"
            [sampleCreate, samplePeerAdd, sampleHalt]).contacts
          (fun _ => false) [] [row] (rowSeq row - 1) := by
  constructor
  · refine ⟨_, _, rfl, rfl, by decide, ?_, ?_⟩
    · exact (mem_replayed_singleton (by decide) rfl).mpr (by decide)
    · exact (mem_replayed_singleton (by decide) rfl).mpr (by decide)
  · refine ⟨_, _, rfl, rfl, by decide, ?_, ?_⟩
    · intro hmem
      have hgate := (mem_replayed_singleton (by decide) rfl).mp hmem
      exact absurd hgate (by decide)
    · exact (mem_replayed_singleton (by decide) rfl).mpr (by decide)

end AirNote
