import Mathlib.Algebra.Order.Ring.Rat
import Mathlib.Data.List.Sort
import Mathlib.Logic.Function.Basic

/-!
# Rooms: the signed operations and what they say

Who is in a room is a function of the operations of the room that a member
has accepted: those the founder signed, ordered by a sequence number, and the
additions of admins, each of which cites a mandate of the founder. Control
operations arrive inside messages; `ingestControlOp` checks the signature of
the operation itself and adds it to the room.

The fields of an operation are text or absent; `rest` is what else was
signed. What the language and the libraries answer is in a `RoomHost`: the
number a text reads as, the comparison of two texts, the reading of a date,
the check of a signature against a key, the identity of an operation and the
hash of a roster. The exception that an absent identifier raises in a
comparison is left out: it is compared as the text `undefined`. The file of
the rooms can always be read and written.
-/

namespace AirNote

/-- The `type` of a control operation. -/
inductive RoomOpType where
  | create
  | add
  | remove
  | adminGrant
  | adminRevoke
  | halt
  | resume
  | other (text : String)
  deriving DecidableEq

/-- A control operation. -/
structure RoomOp where
  type : RoomOpType
  roomId : Option String
  issuerDid : Option String
  founderDid : Option String
  founderPubkey : Option String
  name : Option String
  threadId : Option String
  mandateId : Option String
  holderDid : Option String
  holderPubkey : Option String
  expiresAt : Option String
  memberDid : Option String
  memberPubkey : Option String
  kind : Option String
  founderSeq : Option String
  opSig : Option String
  rest : String
  deriving DecidableEq

/-- A member of a room. -/
structure Member where
  did : Option String
  kind : Option String
  memberPubkey : Option String
  deriving DecidableEq

/-- The holder of an active mandate. -/
structure Admin where
  mandateId : Option String
  holderDid : Option String
  holderPubkey : Option String
  deriving DecidableEq

/-- What `deriveState` returns. -/
structure RoomState where
  members : List Member
  admins : List Admin
  halted : Bool
  founderDid : Option String
  deriving DecidableEq

/-- What a text reads as. -/
inductive JsNumber where
  | nan
  | negInf
  | finite (value : ℚ)
  | posInf
  deriving DecidableEq

/-- The sign of the difference of two numbers; `none` where it is no number.
-/
def JsNumber.diff : JsNumber → JsNumber → Option Ordering
  | .finite a, .finite b => some (compare a b)
  | .nan, _ => none
  | _, .nan => none
  | .posInf, .posInf => none
  | .negInf, .negInf => none
  | .posInf, _ => some .gt
  | _, .posInf => some .lt
  | .negInf, _ => some .lt
  | _, .negInf => some .gt

/-- The language, the signatures and the hashes. -/
structure RoomHost where
  number : Option String → JsNumber
  localeCompare : String → String → Ordering
  /-- Texts are compared by a collation, which may take two for the same. -/
  locale_trans : Std.TransCmp localeCompare
  dateParse : String → Option Int
  verifyOp : RoomOp → Option String → Bool
  opId : RoomOp → String
  sha256Jcs : List String → List String → Bool → String

/-! ## Sorting -/

/-- `Array.prototype.sort` with a comparator. -/
def sortBy {α : Type*} (cmp : α → α → Ordering) (l : List α) : List α :=
  l.insertionSort fun a b => cmp a b ≠ .gt

/-- `founderSeqCmp`: by number, then by signature; where the difference is no
number the two are taken for equal. -/
def founderSeqCmp (h : RoomHost) (a b : RoomOp) : Ordering :=
  match (h.number a.founderSeq).diff (h.number b.founderSeq) with
  | none => .eq
  | some .eq => h.localeCompare (a.opSig.getD "") (b.opSig.getD "")
  | some o => o

/-- An identifier in a comparison. -/
def didText (did : Option String) : String := did.getD "undefined"

/-! ## `deriveState` -/

/-- The first `room/create`. -/
def createOp (ops : List RoomOp) : Option RoomOp :=
  ops.find? fun o => o.type = .create

/-- The operations of the founder, in their order. -/
def founderOps (h : RoomHost) (founderDid : Option String)
    (ops : List RoomOp) : List RoomOp :=
  sortBy (founderSeqCmp h) (ops.filter fun o => o.issuerDid = founderDid)

/-- A grant or a revocation. -/
def RoomOp.aboutMandate (o : RoomOp) : Bool :=
  o.type = .adminGrant || o.type = .adminRevoke

/-- The grant has expired. A date that cannot be read is none. -/
def RoomOp.expired (h : RoomHost) (now : Int) (o : RoomOp) : Bool :=
  match o.expiresAt with
  | none => false
  | some text => text ≠ "" &&
      match h.dateParse text with
      | none => false
      | some t => t ≤ now

/-- The mandates decided on, in the order of their first decisions: the keys
of `mandateLatest`. -/
def mandateIds (sorted : List RoomOp) : List (Option String) :=
  ((sorted.filter RoomOp.aboutMandate).map RoomOp.mandateId).eraseDups

/-- The founder's last decision on a mandate: its entry of `mandateLatest`. -/
def mandateLatest (sorted : List RoomOp) (mandateId : Option String) :
    Option RoomOp :=
  ((sorted.filter RoomOp.aboutMandate).filter fun o =>
    o.mandateId = mandateId).getLast?

/-- The grant that is in force for a mandate: the last decision on it, where
that is a grant that has not expired. -/
def activeMandate (h : RoomHost) (now : Int) (sorted : List RoomOp)
    (mandateId : Option String) : Option RoomOp :=
  (mandateLatest sorted mandateId).filter fun o =>
    o.type = .adminGrant && !o.expired h now

/-- The admin a grant makes. -/
def RoomOp.admin (o : RoomOp) : Admin :=
  ⟨o.mandateId, o.holderDid, o.holderPubkey⟩

/-- The admins, by their holders. -/
def admins (h : RoomHost) (now : Int) (sorted : List RoomOp) : List Admin :=
  sortBy (fun a b => h.localeCompare (didText a.holderDid)
      (didText b.holderDid))
    ((mandateIds sorted).filterMap fun mid =>
      (activeMandate h now sorted mid).map RoomOp.admin)

/-- The founder's last word on a member. -/
def latestFounderWord (sorted : List RoomOp) (did : Option String) :
    Option RoomOp :=
  (sorted.filter fun o =>
    (o.type = .add || o.type = .remove) && o.memberDid = did).getLast?

/-- An admin's addition that counts: its mandate is in force and held by its
issuer. -/
def RoomOp.validAdminAdd (h : RoomHost) (now : Int) (sorted : List RoomOp)
    (founderDid : Option String) (did : Option String) (o : RoomOp) : Bool :=
  o.type = .add && o.memberDid = did && o.issuerDid ≠ founderDid &&
    o.mandateId.getD "" ≠ "" &&
    match activeMandate h now sorted o.mandateId with
    | none => false
    | some g => g.holderDid = o.issuerDid

/-- What the operations say of one candidate. -/
def resolveMember (h : RoomHost) (now : Int) (ops sorted : List RoomOp)
    (founderDid : Option String) (did : Option String) : Option Member :=
  match latestFounderWord sorted did with
  | some latest =>
      if latest.type = .remove then none
      else some ⟨did, latest.kind, latest.memberPubkey⟩
  | none =>
      (ops.find? (RoomOp.validAdminAdd h now sorted founderDid did)).map
        fun o => ⟨did, some "agent", o.memberPubkey⟩

/-- Everyone some operation adds. -/
def candidates (ops : List RoomOp) : List (Option String) :=
  ((ops.filter fun o => o.type = .add).map RoomOp.memberDid).eraseDups

/-- The founder's last word on the room. -/
def isHalted (sorted : List RoomOp) : Bool :=
  match (sorted.filter fun o =>
      o.type = .halt || o.type = .resume).getLast? with
  | none => false
  | some o => o.type = .halt

/-- `deriveState`. -/
def deriveState (h : RoomHost) (now : Int) (ops : List RoomOp) : RoomState :=
  match createOp ops with
  | none => ⟨[], [], false, none⟩
  | some create =>
      let founderDid := create.founderDid
      let sorted := founderOps h founderDid ops
      { members := sortBy (fun a b => h.localeCompare (didText a.did)
            (didText b.did))
          ((candidates ops).filterMap
            (resolveMember h now ops sorted founderDid))
        admins := admins h now sorted
        halted := isHalted sorted
        founderDid := founderDid }

/-- `rosterDigest`; the lists are sorted where they are hashed. -/
def rosterDigest (h : RoomHost) (s : RoomState) : String :=
  h.sha256Jcs (s.members.map fun m => didText m.did)
    (s.admins.map fun a => didText a.holderDid) s.halted

/-! ## The rooms of a member -/

/-- A room as it is stored. -/
structure Room where
  name : Option String
  threadId : Option String
  founderDid : Option String
  ops : List RoomOp
  founderSeqNext : String
  sendSeqNext : String
  muted : Bool
  joinedVia : String

/-- The stored rooms, by identifier. -/
abbrev RoomStore := String → Option Room

/-- `deriveRoom`. -/
def deriveRoom (h : RoomHost) (now : Int) (rooms : RoomStore) (id : String) :
    Option RoomState :=
  (rooms id).map fun room => deriveState h now room.ops

/-- The room with an operation it did not hold. -/
def Room.appendOp (h : RoomHost) (room : Room) (op : RoomOp) : Room :=
  if room.ops.any fun o => h.opId o = h.opId op then room
  else { room with ops := room.ops ++ [op] }

/-- `createFounderBindingOk`: the founder's key in the operation is the one
the registry has for the founder. -/
def createFounderBindingOk (op : RoomOp) (resolved : Option String) : Bool :=
  match resolved with
  | none => false
  | some key => op.founderPubkey = some key

/-- A room as the operation that creates it stores it. -/
def roomOfCreate (op : RoomOp) : Room :=
  { name := op.name
    threadId := op.threadId
    founderDid := op.founderDid
    ops := [op]
    founderSeqNext := "1"
    sendSeqNext := "0"
    muted := false
    joinedVia := "invite" }

/-- What the ingest of an operation leaves: the rooms, and whom it pins. -/
structure Ingested where
  rooms : RoomStore
  pins : Option String

/-- A `room/create`, with what the registry answers for the founder's key. A
room that is there already is left alone. -/
def ingestCreate (h : RoomHost) (rooms : RoomStore) (roomId : String)
    (op : RoomOp) (resolved : Option String) : Ingested :=
  match rooms roomId with
  | some _ => ⟨rooms, none⟩
  | none =>
      if !h.verifyOp op op.founderPubkey then ⟨rooms, none⟩
      else if !createFounderBindingOk op resolved then ⟨rooms, none⟩
      else ⟨Function.update rooms roomId (some (roomOfCreate op)),
        op.founderDid⟩

/-- Whom an accepted operation pins: the member it adds, oneself excepted. -/
def pinOfAdd (selfDid : String) (op : RoomOp) : Option String :=
  if op.type = .add ∧ op.memberDid ≠ some selfDid then op.memberDid
  else none

/-- An operation in the name of the founder: the key is the one stored with
the room. -/
def ingestFounderOp (h : RoomHost) (selfDid : String) (rooms : RoomStore)
    (roomId : String) (room : Room) (op : RoomOp) : Ingested :=
  match createOp room.ops with
  | none => ⟨rooms, none⟩
  | some create =>
      if !h.verifyOp op create.founderPubkey then ⟨rooms, none⟩
      else ⟨Function.update rooms roomId (some (room.appendOp h op)),
        pinOfAdd selfDid op⟩

/-- The first grant of a mandate that is stored. -/
def storedGrant (ops : List RoomOp) (mandateId : Option String) :
    Option RoomOp :=
  ops.find? fun o => o.type = .adminGrant && o.mandateId = mandateId

/-- An addition by an admin: the key is the one of the grant it cites. -/
def ingestAdminAdd (h : RoomHost) (selfDid : String) (rooms : RoomStore)
    (roomId : String) (room : Room) (op : RoomOp) : Ingested :=
  match storedGrant room.ops op.mandateId with
  | none => ⟨rooms, none⟩
  | some grant =>
      if !h.verifyOp op grant.holderPubkey then ⟨rooms, none⟩
      else ⟨Function.update rooms roomId (some (room.appendOp h op)),
        pinOfAdd selfDid op⟩

/-- `ingestControlOp`. -/
def ingestControlOp (h : RoomHost) (selfDid : String) (rooms : RoomStore)
    (op : RoomOp) (resolved : Option String) : Ingested :=
  let roomId := op.roomId.getD ""
  if roomId = "" then ⟨rooms, none⟩
  else if op.type = .create then ingestCreate h rooms roomId op resolved
  else
    match rooms roomId with
    | none => ⟨rooms, none⟩
    | some room =>
        if op.issuerDid = room.founderDid then
          ingestFounderOp h selfDid rooms roomId room op
        else if op.type = .add then
          ingestAdminAdd h selfDid rooms roomId room op
        else ⟨rooms, none⟩

/-! ## What is derived -/

section Derived

variable {h : RoomHost} {now : Int} {founderDid : Option String}
  {ops : List RoomOp}

theorem createOp_mem {ops : List RoomOp} {create : RoomOp}
    (hcreate : createOp ops = some create) :
    create ∈ ops ∧ create.type = .create := by
  unfold createOp at hcreate
  have htype := List.find?_some hcreate
  rw [decide_eq_true_eq] at htype
  exact ⟨List.mem_of_find?_eq_some hcreate, htype⟩

theorem mem_founderOps {o : RoomOp} :
    o ∈ founderOps h founderDid ops ↔
      o ∈ ops ∧ o.issuerDid = founderDid := by
  unfold founderOps sortBy
  rw [List.mem_insertionSort, List.mem_filter, decide_eq_true_eq]

theorem mem_candidates {did : Option String} :
    did ∈ candidates ops ↔ ∃ o ∈ ops, o.type = .add ∧ o.memberDid = did := by
  unfold candidates
  rw [List.mem_eraseDups, List.mem_map]
  simp only [List.mem_filter, decide_eq_true_eq, and_assoc]

/-- A member is listed under the identifier that was asked for. -/
theorem did_of_resolveMember {sorted : List RoomOp} {did : Option String}
    {m : Member}
    (hm : resolveMember h now ops sorted founderDid did = some m) :
    m.did = did := by
  unfold resolveMember at hm
  cases hword : latestFounderWord sorted did with
  | some latest =>
      rw [hword] at hm
      simp only at hm
      by_cases hremove : latest.type = .remove
      · rw [if_pos hremove] at hm
        cases hm
      · rw [if_neg hremove, Option.some.injEq] at hm
        rw [← hm]
  | none =>
      rw [hword] at hm
      simp only [Option.map_eq_some_iff] at hm
      obtain ⟨o, -, rfl⟩ := hm
      rfl

end Derived

/-! ## What an ingest does -/

/-- An operation as a member receives it, with what the registry answers when
it is asked for the founder's key. -/
structure Delivery where
  op : RoomOp
  resolved : Option String

/-- A member takes one delivery in. -/
def takeIn (h : RoomHost) (selfDid : String) (rooms : RoomStore)
    (d : Delivery) : RoomStore :=
  (ingestControlOp h selfDid rooms d.op d.resolved).rooms

/-- The key an operation is checked against, where the room has one for it.
-/
def Room.keyFor (room : Room) (op : RoomOp) : Option (Option String) :=
  if op.issuerDid = room.founderDid then
    (createOp room.ops).map RoomOp.founderPubkey
  else if op.type = .add then
    (storedGrant room.ops op.mandateId).map RoomOp.holderPubkey
  else none

/-- The room accepts the operation. -/
def Room.accepts (h : RoomHost) (room : Room) (op : RoomOp) : Bool :=
  match room.keyFor op with
  | none => false
  | some key => h.verifyOp op key

/-- The creation is accepted where there is no such room yet. -/
def RoomOp.opens (h : RoomHost) (op : RoomOp) (resolved : Option String) :
    Bool :=
  op.type = .create && h.verifyOp op op.founderPubkey &&
    createFounderBindingOk op resolved

section Ingest

variable {h : RoomHost} {selfDid : String} {rooms : RoomStore} {op : RoomOp}
  {resolved : Option String}

theorem ingestControlOp_new (hid : op.roomId.getD "" ≠ "")
    (hnone : rooms (op.roomId.getD "") = none) :
    ingestControlOp h selfDid rooms op resolved =
      if op.opens h resolved then
        ⟨Function.update rooms (op.roomId.getD "") (some (roomOfCreate op)),
          op.founderDid⟩
      else ⟨rooms, none⟩ := by
  unfold ingestControlOp RoomOp.opens
  simp only [if_neg hid]
  by_cases hcreate : op.type = .create
  · simp only [hcreate, if_true, decide_true, Bool.true_and]
    unfold ingestCreate
    rw [hnone]
    simp only
    cases h.verifyOp op op.founderPubkey with
    | false => simp
    | true => cases createFounderBindingOk op resolved <;> simp
  · simp only [hcreate, if_false, hnone, decide_false, Bool.false_and,
      Bool.false_eq_true]

theorem ingestControlOp_known (hid : op.roomId.getD "" ≠ "") {room : Room}
    (hroom : rooms (op.roomId.getD "") = some room) :
    ingestControlOp h selfDid rooms op resolved =
      if op.type ≠ .create ∧ room.accepts h op = true then
        ⟨Function.update rooms (op.roomId.getD "")
          (some (room.appendOp h op)), pinOfAdd selfDid op⟩
      else ⟨rooms, none⟩ := by
  unfold ingestControlOp
  simp only [if_neg hid, hroom]
  by_cases hcreate : op.type = .create
  · simp only [hcreate, if_true, ne_eq, not_true_eq_false, false_and,
      if_false]
    unfold ingestCreate
    rw [hroom]
  · simp only [hcreate, if_false, ne_eq, not_false_eq_true, true_and]
    unfold Room.accepts Room.keyFor
    by_cases hissuer : op.issuerDid = room.founderDid
    · simp only [if_pos hissuer]
      unfold ingestFounderOp
      cases createOp room.ops with
      | none => simp
      | some create =>
          simp only [Option.map_some]
          by_cases hsig : h.verifyOp op create.founderPubkey = true
          · simp [hsig]
          · simp [hsig]
    · simp only [if_neg hissuer]
      by_cases hadd : op.type = .add
      · simp only [if_pos hadd]
        unfold ingestAdminAdd
        cases storedGrant room.ops op.mandateId with
        | none => simp
        | some grant =>
            simp only [Option.map_some]
            by_cases hsig : h.verifyOp op grant.holderPubkey = true
            · simp [hsig]
            · simp [hsig]
      · simp only [if_neg hadd, Bool.false_eq_true, if_false]

theorem ingestControlOp_no_room (hid : op.roomId.getD "" = "") :
    ingestControlOp h selfDid rooms op resolved = ⟨rooms, none⟩ := by
  unfold ingestControlOp
  simp only [if_pos hid]

/-- What an ingest can do: nothing, open a room, or add to one. -/
theorem ingestControlOp_cases (h : RoomHost) (selfDid : String)
    (rooms : RoomStore) (op : RoomOp) (resolved : Option String) :
    ingestControlOp h selfDid rooms op resolved = ⟨rooms, none⟩ ∨
    (op.roomId.getD "" ≠ "" ∧ rooms (op.roomId.getD "") = none ∧
      op.opens h resolved = true ∧
      ingestControlOp h selfDid rooms op resolved =
        ⟨Function.update rooms (op.roomId.getD "") (some (roomOfCreate op)),
          op.founderDid⟩) ∨
    (op.roomId.getD "" ≠ "" ∧ ∃ room,
      rooms (op.roomId.getD "") = some room ∧ op.type ≠ .create ∧
      room.accepts h op = true ∧
      ingestControlOp h selfDid rooms op resolved =
        ⟨Function.update rooms (op.roomId.getD "")
          (some (room.appendOp h op)), pinOfAdd selfDid op⟩) := by
  by_cases hid : op.roomId.getD "" = ""
  · exact Or.inl (ingestControlOp_no_room hid)
  · cases hroom : rooms (op.roomId.getD "") with
    | none =>
        rw [ingestControlOp_new hid hroom]
        by_cases hopens : op.opens h resolved = true
        · rw [if_pos hopens]
          exact Or.inr (Or.inl ⟨hid, rfl, hopens, rfl⟩)
        · rw [if_neg hopens]
          exact Or.inl rfl
    | some room =>
        rw [ingestControlOp_known hid hroom]
        by_cases hok : op.type ≠ .create ∧ room.accepts h op = true
        · rw [if_pos hok]
          exact Or.inr (Or.inr ⟨hid, room, rfl, hok.1, hok.2, rfl⟩)
        · rw [if_neg hok]
          exact Or.inl rfl

/-- An operation of one room leaves the others as they are. -/
theorem ingestControlOp_other {id : String}
    (hother : op.roomId.getD "" ≠ id) :
    (ingestControlOp h selfDid rooms op resolved).rooms id = rooms id := by
  rcases ingestControlOp_cases h selfDid rooms op resolved with hsame |
    ⟨-, -, -, hsame⟩ | ⟨-, room, -, -, -, hsame⟩
  · rw [hsame]
  · rw [hsame]
    exact Function.update_of_ne (Ne.symm hother) _ _
  · rw [hsame]
    exact Function.update_of_ne (Ne.symm hother) _ _

end Ingest

@[simp] theorem Room.appendOp_founderDid (h : RoomHost) (room : Room)
    (op : RoomOp) : (room.appendOp h op).founderDid = room.founderDid := by
  unfold Room.appendOp
  split <;> rfl

/-- What an addition leaves in the room. -/
theorem Room.appendOp_ops (h : RoomHost) (room : Room) (op : RoomOp) :
    (room.appendOp h op).ops = room.ops ∨
      (room.appendOp h op).ops = room.ops ++ [op] := by
  unfold Room.appendOp
  split
  · exact Or.inl rfl
  · exact Or.inr rfl

theorem Room.mem_appendOp {h : RoomHost} {room : Room} {op o : RoomOp}
    (ho : o ∈ (room.appendOp h op).ops) : o ∈ room.ops ∨ o = op := by
  rcases room.appendOp_ops h op with hsame | hsame
  · rw [hsame] at ho
    exact Or.inl ho
  · rw [hsame] at ho
    simpa using ho

theorem Room.mem_appendOp_of_mem {h : RoomHost} {room : Room} {op o : RoomOp}
    (ho : o ∈ room.ops) : o ∈ (room.appendOp h op).ops := by
  rcases room.appendOp_ops h op with hsame | hsame
  · rw [hsame]
    exact ho
  · rw [hsame]
    exact List.mem_append_left _ ho

/-- The operation itself is there afterwards, unless another has its
identity. -/
theorem Room.self_mem_appendOp {h : RoomHost} {room : Room} {op : RoomOp}
    (hids : ∀ o ∈ room.ops, h.opId o = h.opId op → o = op) :
    op ∈ (room.appendOp h op).ops := by
  unfold Room.appendOp
  split
  · rename_i hany
    rw [List.any_eq_true] at hany
    obtain ⟨o, ho, heq⟩ := hany
    rw [← hids o ho (of_decide_eq_true heq)]
    exact ho
  · exact List.mem_append_right _ (List.mem_singleton_self op)

theorem createOp_appendOp {h : RoomHost} {room : Room} {op create : RoomOp}
    (hcreate : createOp room.ops = some create) :
    createOp (room.appendOp h op).ops = some create := by
  rcases room.appendOp_ops h op with hsame | hsame
  · rw [hsame]
    exact hcreate
  · rw [hsame]
    unfold createOp at hcreate ⊢
    rw [List.find?_append, hcreate]
    rfl

end AirNote
