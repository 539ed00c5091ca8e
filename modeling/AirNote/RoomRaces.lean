import AirNote.Lib.SharedFile
import AirNote.RoomConvergence

/-!
# Two processes and one file of rooms

The daemon and a command line on one home each read `rooms.json`, change it
and write it whole. Nothing locks the file: a call that writes after another
wrote puts back what it read before. An operation whose `appendOp` returned
is then gone, and a sequence number is handed out twice.

The calls are those that append an operation, take a number or create a room;
`roomGrantAdminLocal` and its siblings are a number taken and an operation
appended, one call after the other. A counter is a decimal text, read and
written by `Number` and `String`; from `2^53` on adding one changes nothing.

## Main results

* `room_store_keeps` — a run in which each call writes over the file it read
  loses no operation and hands out no number twice.
* `rooms_overwritten` — two that read before either writes do both.
-/

namespace AirNote

open Lib

/-! ## The calls -/

/-- Numbers of the language, as far as a counter needs them. -/
structure SeqHost extends RoomHost where
  /-- `cur + 1`. -/
  addOne : JsNumber → JsNumber
  /-- `String(cur)`. -/
  string : JsNumber → String
  number_repr : ∀ n : Nat, n ≤ 2 ^ 53 →
    number (some n.repr) = .finite n
  addOne_finite : ∀ n : Nat, n < 2 ^ 53 →
    addOne (.finite n) = .finite ((n + 1 : Nat) : ℚ)
  string_finite : ∀ n : Nat, n ≤ 2 ^ 53 → string (.finite n) = n.repr

/-- The two counters of a room. -/
inductive SeqKind where
  | founder
  | send
  deriving DecidableEq

def Room.counter (room : Room) : SeqKind → String
  | .founder => room.founderSeqNext
  | .send => room.sendSeqNext

def Room.setCounter (room : Room) : SeqKind → String → Room
  | .founder, text => { room with founderSeqNext := text }
  | .send, text => { room with sendSeqNext := text }

/-- The number a room has next, and the counter one further; an unknown room
is an error. -/
def nextSeq (h : SeqHost) (kind : SeqKind) (id : String) (rooms : RoomStore) :
    Option (RoomStore × String) :=
  match rooms id with
  | none => none
  | some room =>
      let cur := h.number (some (room.counter kind))
      some (Function.update rooms id
        (some (room.setCounter kind (h.string (h.addOne cur)))), h.string cur)

def nextFounderSeq (h : SeqHost) (id : String) (rooms : RoomStore) :
    Option (RoomStore × String) :=
  nextSeq h .founder id rooms

def nextSendSeq (h : SeqHost) (id : String) (rooms : RoomStore) :
    Option (RoomStore × String) :=
  nextSeq h .send id rooms

/-- `appendOp`; an unknown room is an error. -/
def appendOp (h : SeqHost) (now : Int) (id : String) (op : RoomOp)
    (rooms : RoomStore) : Option (RoomStore × RoomState) :=
  match rooms id with
  | none => none
  | some room =>
      let room := room.appendOp h.toRoomHost op
      some (Function.update rooms id (some room),
        deriveState h.toRoomHost now room.ops)

/-- The room that `roomCreateLocal` stores: the founder is a member. -/
def createdRoom (name threadId founderDid : String)
    (create selfAdd : RoomOp) : Room where
  name := some name
  threadId := some threadId
  founderDid := some founderDid
  ops := [create, selfAdd]
  founderSeqNext := "2"
  sendSeqNext := "0"
  muted := false
  joinedVia := "create"

/-- A call on the file of rooms. The identifier of a new room is drawn at
random. -/
inductive RoomCall where
  | appendOp (now : Int) (id : String) (op : RoomOp)
  | nextFounderSeq (id : String)
  | nextSendSeq (id : String)
  | roomCreate (id name threadId founderDid : String)
      (create selfAdd : RoomOp)

/-- What a call has returned. -/
inductive RoomReturn where
  | appended (id : String) (op : RoomOp) (state : RoomState)
  | seq (kind : SeqKind) (id : String) (text : String)
  | created (id threadId : String) (create selfAdd : RoomOp)

/-- What a call does to the rooms it has read. -/
def RoomCall.perform (h : SeqHost) (call : RoomCall) (rooms : RoomStore) :
    Option (RoomStore × RoomReturn) :=
  match call with
  | .appendOp now id op =>
      (AirNote.appendOp h now id op rooms).map fun r =>
        (r.1, .appended id op r.2)
  | .nextFounderSeq id =>
      (AirNote.nextFounderSeq h id rooms).map fun r =>
        (r.1, .seq .founder id r.2)
  | .nextSendSeq id =>
      (AirNote.nextSendSeq h id rooms).map fun r => (r.1, .seq .send id r.2)
  | .roomCreate id name threadId founderDid create selfAdd =>
      some (Function.update rooms id
        (some (createdRoom name threadId founderDid create selfAdd)),
        .created id threadId create selfAdd)

/-- The home: the file, and the calls that are under way. -/
abbrev RoomsHome := SharedFile RoomStore RoomCall RoomReturn

/-- One step of a process: it reads the file, or writes it. -/
abbrev RoomsHome.exec (h : SeqHost) : RoomsHome → FileStep RoomCall →
    RoomsHome :=
  SharedFile.exec (RoomCall.perform h)

/-! ## Nothing lost -/

/-- The numbers handed out for a room. -/
def seqsOf (kind : SeqKind) (id : String) (log : List RoomReturn) :
    List String :=
  log.filterMap fun r =>
    match r with
    | .seq kind' id' text => if kind' = kind ∧ id' = id then some text else none
    | _ => none

/-- Every operation whose call returned is stored, by its identity, and no
number of a room was handed out twice. -/
structure RoomsKept (h : RoomHost) (rooms : RoomStore)
    (log : List RoomReturn) : Prop where
  appended : ∀ id op state, .appended id op state ∈ log →
    ∃ room, rooms id = some room ∧ ∃ o ∈ room.ops, h.opId o = h.opId op
  created : ∀ id threadId create selfAdd,
    .created id threadId create selfAdd ∈ log →
    ∃ room, rooms id = some room ∧ create ∈ room.ops ∧ selfAdd ∈ room.ops
  seqs : ∀ kind id, (seqsOf kind id log).Nodup

/-- The counter of the room is a decimal number that one can be added to, and
an identifier that is drawn is one no room has. -/
def RoomCall.Sane (call : RoomCall) (rooms : RoomStore) : Prop :=
  match call with
  | .appendOp _ _ _ => True
  | .nextFounderSeq id => ∀ room, rooms id = some room →
      ∃ n < 2 ^ 53, room.counter .founder = Nat.repr n
  | .nextSendSeq id => ∀ room, rooms id = some room →
      ∃ n < 2 ^ 53, room.counter .send = Nat.repr n
  | .roomCreate id _ _ _ _ _ => rooms id = none

/-! ## What one call changes -/

theorem decimal_injective {m n : Nat} (h : m.repr = n.repr) : m = n := by
  have hdigits : Nat.toDigits 10 m = Nat.toDigits 10 n := by
    rw [← Nat.toList_repr, ← Nat.toList_repr, h]
  have hm : Nat.ofDigitChars 10 (Nat.toDigits 10 m) 0 = m := by simp
  rw [← hm, hdigits]
  simp

/-- A room at a later time: its operations are there, and a counter that is a
decimal number has not gone back. -/
structure Room.GrownTo (room later : Room) : Prop where
  ops : ∀ o ∈ room.ops, o ∈ later.ops
  counter : ∀ kind n, room.counter kind = Nat.repr n →
    ∃ m, n ≤ m ∧ later.counter kind = Nat.repr m

/-- Every room is there at the later time. -/
def RoomsGrown (rooms later : RoomStore) : Prop :=
  ∀ id room, rooms id = some room →
    ∃ room', later id = some room' ∧ room.GrownTo room'

theorem Room.GrownTo.refl (room : Room) : room.GrownTo room :=
  ⟨fun _ ho => ho, fun _ n hn => ⟨n, Nat.le_refl n, hn⟩⟩

theorem roomsGrown_update {rooms : RoomStore} {id : String} {room' : Room}
    (h : ∀ room, rooms id = some room → room.GrownTo room') :
    RoomsGrown rooms (Function.update rooms id (some room')) := by
  intro other room hroom
  by_cases hid : other = id
  · subst hid
    exact ⟨room', Function.update_self .., h room hroom⟩
  · refine ⟨room, ?_, Room.GrownTo.refl room⟩
    rw [Function.update_of_ne hid]
    exact hroom

@[simp] theorem Room.setCounter_ops (room : Room) (kind : SeqKind)
    (text : String) : (room.setCounter kind text).ops = room.ops := by
  cases kind <;> rfl

@[simp] theorem Room.counter_setCounter (room : Room) (kind : SeqKind)
    (text : String) : (room.setCounter kind text).counter kind = text := by
  cases kind <;> rfl

theorem Room.counter_setCounter_other (room : Room) {kind kind' : SeqKind}
    (text : String) (h : kind' ≠ kind) :
    (room.setCounter kind text).counter kind' = room.counter kind' := by
  cases kind <;> cases kind' <;> first | exact absurd rfl h | rfl

theorem Room.appendOp_counter (h : RoomHost) (room : Room) (op : RoomOp)
    (kind : SeqKind) :
    (room.appendOp h op).counter kind = room.counter kind := by
  unfold Room.appendOp
  split
  · rfl
  · cases kind <;> rfl

theorem Room.GrownTo.appendOp (h : RoomHost) (room : Room) (op : RoomOp) :
    room.GrownTo (room.appendOp h op) where
  ops := fun _ ho => Room.mem_appendOp_of_mem ho
  counter := fun kind n hn =>
    ⟨n, Nat.le_refl n, by rw [Room.appendOp_counter, hn]⟩

/-- The identity of an operation is there once it is appended. -/
theorem Room.opId_mem_appendOp (h : RoomHost) (room : Room) (op : RoomOp) :
    ∃ o ∈ (room.appendOp h op).ops, h.opId o = h.opId op := by
  unfold Room.appendOp
  split
  · rename_i hany
    rw [List.any_eq_true] at hany
    obtain ⟨o, ho, heq⟩ := hany
    exact ⟨o, ho, of_decide_eq_true heq⟩
  · exact ⟨op, List.mem_append_right _ (List.mem_singleton_self op), rfl⟩

theorem Room.GrownTo.setCounter (room : Room) (kind : SeqKind) {n : Nat}
    (hn : room.counter kind = Nat.repr n) :
    room.GrownTo (room.setCounter kind (Nat.repr (n + 1))) where
  ops := fun o ho => by simpa using ho
  counter := by
    intro kind' m hm
    by_cases hkind : kind' = kind
    · subst hkind
      have hsame : m = n := decimal_injective (hm.symm.trans hn)
      exact ⟨n + 1, by omega, Room.counter_setCounter ..⟩
    · refine ⟨m, Nat.le_refl m, ?_⟩
      rw [Room.counter_setCounter_other _ _ hkind]
      exact hm

section Calls

variable {h : SeqHost} {rooms : RoomStore}

/-- A number that is taken: the text of the counter, which then is one
further. -/
theorem nextSeq_decimal {kind : SeqKind} {id : String} {room : Room} {n : Nat}
    (hroom : rooms id = some room) (hlt : n < 2 ^ 53)
    (hn : room.counter kind = Nat.repr n) :
    nextSeq h kind id rooms =
      some (Function.update rooms id
        (some (room.setCounter kind (Nat.repr (n + 1)))), Nat.repr n) := by
  unfold nextSeq
  simp only [hroom, hn, h.number_repr n (Nat.le_of_lt hlt),
    h.addOne_finite n hlt, h.string_finite n (Nat.le_of_lt hlt),
    h.string_finite (n + 1) hlt]

/-! ## The invariant -/

/-- What a call returned is still to be seen in the file: of a number, that
the counter is past it. -/
def RoomReturn.Lasting (h : RoomHost) (rooms : RoomStore) :
    RoomReturn → Prop
  | .appended id op _ =>
      ∃ room, rooms id = some room ∧ ∃ o ∈ room.ops, h.opId o = h.opId op
  | .created id _ create selfAdd =>
      ∃ room, rooms id = some room ∧ create ∈ room.ops ∧ selfAdd ∈ room.ops
  | .seq kind id text =>
      ∃ room, rooms id = some room ∧ ∃ k n, k < n ∧ text = Nat.repr k ∧
        room.counter kind = Nat.repr n

theorem RoomReturn.Lasting.mono {r : RoomReturn} {later : RoomStore}
    (hr : r.Lasting h.toRoomHost rooms) (hgrown : RoomsGrown rooms later) :
    r.Lasting h.toRoomHost later := by
  cases r with
  | appended id op state =>
      obtain ⟨room, hroom, o, ho, heq⟩ := hr
      obtain ⟨room', hroom', hops⟩ := hgrown id room hroom
      exact ⟨room', hroom', o, hops.ops o ho, heq⟩
  | created id threadId create selfAdd =>
      obtain ⟨room, hroom, hcreate, hself⟩ := hr
      obtain ⟨room', hroom', hops⟩ := hgrown id room hroom
      exact ⟨room', hroom', hops.ops _ hcreate, hops.ops _ hself⟩
  | seq kind id text =>
      obtain ⟨room, hroom, k, n, hlt, htext, hn⟩ := hr
      obtain ⟨room', hroom', hops⟩ := hgrown id room hroom
      obtain ⟨m, hle, hm⟩ := hops.counter kind n hn
      exact ⟨room', hroom', k, m, by omega, htext, hm⟩

/-- Everything returned lasts, and no number was handed out twice. -/
def RoomsSound (h : RoomHost) (rooms : RoomStore) (log : List RoomReturn) :
    Prop :=
  (∀ r ∈ log, r.Lasting h rooms) ∧
    ∀ kind id, (seqsOf kind id log).Nodup

theorem RoomsSound.kept {h : RoomHost} {log : List RoomReturn}
    (hsound : RoomsSound h rooms log) : RoomsKept h rooms log where
  appended := fun _ _ _ hmem => hsound.1 _ hmem
  created := fun _ _ _ _ hmem => hsound.1 _ hmem
  seqs := hsound.2

theorem seqsOf_append (kind : SeqKind) (id : String)
    (log log' : List RoomReturn) :
    seqsOf kind id (log ++ log') = seqsOf kind id log ++ seqsOf kind id log' :=
  List.filterMap_append

theorem mem_seqsOf {kind : SeqKind} {id text : String}
    {log : List RoomReturn} :
    text ∈ seqsOf kind id log ↔ .seq kind id text ∈ log := by
  unfold seqsOf
  rw [List.mem_filterMap]
  constructor
  · rintro ⟨r, hr, htext⟩
    cases r with
    | seq kind' id' text' =>
        simp only [Option.ite_none_right_eq_some, Option.some.injEq] at htext
        obtain ⟨⟨rfl, rfl⟩, rfl⟩ := htext
        exact hr
    | appended id op state => simp at htext
    | created id threadId create selfAdd => simp at htext
  · intro hr
    exact ⟨_, hr, by simp⟩

/-- The rooms grow, what is returned lasts, and a number is none that was
handed out before. -/
theorem RoomsSound.append {log : List RoomReturn} {later : RoomStore}
    {r : RoomReturn} (hsound : RoomsSound h.toRoomHost rooms log)
    (hgrown : RoomsGrown rooms later) (hr : r.Lasting h.toRoomHost later)
    (hnew : ∀ kind id text, r = .seq kind id text →
      .seq kind id text ∉ log) :
    RoomsSound h.toRoomHost later (log ++ [r]) := by
  constructor
  · intro r' hr'
    rcases List.mem_append.mp hr' with hold | hlast
    · exact (hsound.1 r' hold).mono hgrown
    · rw [List.mem_singleton.mp hlast]
      exact hr
  · intro kind id
    rw [seqsOf_append]
    refine List.nodup_append.mpr ⟨hsound.2 kind id, ?_, ?_⟩
    · cases r with
      | seq kind' id' text =>
          by_cases hsame : kind' = kind ∧ id' = id <;> simp [seqsOf, hsame]
      | appended id op state => simp [seqsOf]
      | created id threadId create selfAdd => simp [seqsOf]
    · intro text htext text' htext' heq
      subst heq
      rw [mem_seqsOf] at htext htext'
      exact hnew kind id text (List.mem_singleton.mp htext').symm htext

/-- One number taken. -/
theorem RoomsSound.nextSeq {log : List RoomReturn} {kind : SeqKind}
    {id text : String} {later : RoomStore}
    (hsound : RoomsSound h.toRoomHost rooms log)
    (hsane : ∀ room, rooms id = some room →
      ∃ n < 2 ^ 53, room.counter kind = Nat.repr n)
    (hcall : AirNote.nextSeq h kind id rooms = some (later, text)) :
    RoomsSound h.toRoomHost later (log ++ [.seq kind id text]) := by
  cases hroom : rooms id with
  | none => simp [AirNote.nextSeq, hroom] at hcall
  | some room =>
      obtain ⟨n, hlt, hn⟩ := hsane room hroom
      rw [nextSeq_decimal hroom hlt hn] at hcall
      obtain ⟨rfl, rfl⟩ := Prod.mk.inj (Option.some.inj hcall)
      refine hsound.append (roomsGrown_update ?_) ?_ ?_
      · intro room' hroom'
        rw [hroom] at hroom'
        obtain rfl := Option.some.inj hroom'
        exact Room.GrownTo.setCounter room kind hn
      · exact ⟨_, Function.update_self .., n, n + 1, Nat.lt_succ_self n, rfl,
          Room.counter_setCounter ..⟩
      · intro kind' id' text' heq hmem
        obtain ⟨rfl, rfl, rfl⟩ := RoomReturn.seq.inj heq
        obtain ⟨room', hroom', k, m, hkm, htext, hm⟩ := hsound.1 _ hmem
        rw [hroom] at hroom'
        obtain rfl := Option.some.inj hroom'
        have hk : n = k := decimal_injective htext
        have hm' : m = n := decimal_injective (hm.symm.trans hn)
        omega

/-- One operation appended. -/
theorem RoomsSound.appendOp {log : List RoomReturn} {now : Int} {id : String}
    {op : RoomOp} {later : RoomStore} {state : RoomState}
    (hsound : RoomsSound h.toRoomHost rooms log)
    (hcall : AirNote.appendOp h now id op rooms = some (later, state)) :
    RoomsSound h.toRoomHost later (log ++ [.appended id op state]) := by
  cases hroom : rooms id with
  | none => simp [AirNote.appendOp, hroom] at hcall
  | some room =>
      simp only [AirNote.appendOp, hroom, Option.some.injEq,
        Prod.mk.injEq] at hcall
      obtain ⟨rfl, rfl⟩ := hcall
      refine hsound.append (roomsGrown_update ?_) ?_ (by simp)
      · intro room' hroom'
        rw [hroom] at hroom'
        obtain rfl := Option.some.inj hroom'
        exact Room.GrownTo.appendOp h.toRoomHost room op
      · exact ⟨_, Function.update_self ..,
          Room.opId_mem_appendOp h.toRoomHost room op⟩

/-- Each call, made on its own. -/
theorem RoomsSound.perform {log : List RoomReturn} {call : RoomCall}
    {later : RoomStore} {r : RoomReturn}
    (hsound : RoomsSound h.toRoomHost rooms log) (hsane : call.Sane rooms)
    (hcall : call.perform h rooms = some (later, r)) :
    RoomsSound h.toRoomHost later (log ++ [r]) := by
  cases call with
  | appendOp now id op =>
      obtain ⟨⟨later', state⟩, hop, heq⟩ := Option.map_eq_some_iff.mp hcall
      obtain ⟨rfl, rfl⟩ := Prod.mk.inj heq
      exact hsound.appendOp hop
  | nextFounderSeq id =>
      obtain ⟨⟨later', text⟩, hseq, heq⟩ := Option.map_eq_some_iff.mp hcall
      obtain ⟨rfl, rfl⟩ := Prod.mk.inj heq
      exact hsound.nextSeq hsane hseq
  | nextSendSeq id =>
      obtain ⟨⟨later', text⟩, hseq, heq⟩ := Option.map_eq_some_iff.mp hcall
      obtain ⟨rfl, rfl⟩ := Prod.mk.inj heq
      exact hsound.nextSeq hsane hseq
  | roomCreate id name threadId founderDid create selfAdd =>
      obtain ⟨rfl, rfl⟩ := Prod.mk.inj (Option.some.inj hcall)
      have hnone : rooms id = none := hsane
      refine hsound.append (roomsGrown_update ?_) ?_ (by simp)
      · intro room hroom
        rw [hnone] at hroom
        simp at hroom
      · exact ⟨_, Function.update_self .., by simp [createdRoom],
          by simp [createdRoom]⟩

end Calls

/-! ## Runs -/

/-- From any file: where every call that writes finds the file as it read it,
its counter a decimal number below `2^53` and its new identifier unused,
every operation whose call returned is stored and every number was handed out
once, in every state of the run. -/
theorem room_store_keeps (h : SeqHost) (rooms : RoomStore)
    (steps : List (FileStep RoomCall))
    (hmeets : Trace.Meets (RoomsHome.exec h)
      (SharedFile.Undisturbed RoomCall.Sane) (SharedFile.opened rooms) steps)
    (n : Nat) :
    RoomsKept h.toRoomHost
      (Trace.run (RoomsHome.exec h) (SharedFile.opened rooms)
        (steps.take n)).content
      (Trace.run (RoomsHome.exec h) (SharedFile.opened rooms)
        (steps.take n)).returned := by
  have hopened : RoomsSound h.toRoomHost rooms [] :=
    ⟨by simp, fun _ _ => List.nodup_nil⟩
  exact (SharedFile.run_inv_of_serial (RoomsSound h.toRoomHost)
    (fun _ _ _ _ _ hsound hsane hcall => hsound.perform hsane hcall)
    hopened hmeets n).kept

/-! ## Two that read before either writes -/

/-- A text of digits, as a number. -/
def digitsNumber (text : String) : JsNumber :=
  if text.toList.all Char.isDigit then
    .finite (Nat.ofDigitChars 10 text.toList 0 : Nat)
  else .nan

/-- A language that counts exactly. -/
def countingHost : SeqHost where
  toRoomHost := { plainHost with
    number := fun text => text.elim .nan digitsNumber }
  addOne := fun x =>
    match x with
    | .finite q => .finite (q + 1)
    | other => other
  string := fun x =>
    match x with
    | .finite q => Nat.repr q.num.toNat
    | _ => "NaN"
  number_repr := by
    intro n _
    have hdigits : (Nat.repr n).toList.all Char.isDigit = true := by
      rw [Nat.toList_repr, List.all_eq_true]
      intro c hc
      exact Nat.isDigit_of_mem_toDigits (by decide) (by decide) hc
    show digitsNumber n.repr = _
    rw [digitsNumber, if_pos hdigits, Nat.toList_repr]
    simp
  addOne_finite := by simp
  string_finite := by simp

/-- A room the founder has opened. -/
def openRoom : RoomStore :=
  Function.update (fun _ => none) "room"
    (some (createdRoom "plans" "thread" "did:founder" sampleCreate
      (sampleAdd "key:founder")))

/-- One process takes a number and appends a grant under it, then another
takes one. -/
def inTurn : List (FileStep RoomCall) :=
  [.load 1 (.nextFounderSeq "room"), .save 1,
    .load 1 (.appendOp 0 "room" sampleGrant), .save 1,
    .load 2 (.nextFounderSeq "room"), .save 2]

theorem inTurn_undisturbed :
    Trace.Meets (RoomsHome.exec countingHost)
      (SharedFile.Undisturbed RoomCall.Sane) (SharedFile.opened openRoom)
      inTurn := by
  have hfirst : inTurn = inTurn.take 2 ++ (inTurn.drop 2).take 2 ++
    inTurn.drop 4 := rfl
  rw [hfirst, Trace.meets_append, Trace.meets_append]
  refine ⟨⟨SharedFile.meets_turn rfl ?_, SharedFile.meets_turn rfl trivial⟩,
    SharedFile.meets_turn rfl ?_⟩
  · intro room hroom
    obtain rfl := Option.some.inj hroom
    exact ⟨2, by decide, rfl⟩
  · intro room hroom
    obtain rfl := Option.some.inj hroom
    exact ⟨3, by decide, by decide +kernel⟩

theorem room_store_keeps_inTurn :
    RoomsKept countingHost.toRoomHost
      (Trace.run (RoomsHome.exec countingHost) (SharedFile.opened openRoom)
        (inTurn.take 6)).content
      (Trace.run (RoomsHome.exec countingHost) (SharedFile.opened openRoom)
        (inTurn.take 6)).returned :=
  room_store_keeps countingHost openRoom inTurn inTurn_undisturbed 6

/-- Two processes take a number of the founder, and both have read the file
before either writes. -/
def bothNumber : List (FileStep RoomCall) :=
  [.load 1 (.nextFounderSeq "room"), .load 2 (.nextFounderSeq "room"),
    .save 1, .save 2]

/-- The same with a grant that one appends, while the other numbers a
message. -/
def grantLost : List (FileStep RoomCall) :=
  [.load 1 (.nextSendSeq "room"), .load 2 (.appendOp 0 "room" sampleGrant),
    .save 2, .save 1]

/-- The number is handed out twice, and the grant is gone. -/
theorem rooms_overwritten :
    (¬ ∀ (h : SeqHost) (rooms : RoomStore) (steps : List (FileStep RoomCall)),
      RoomsKept h.toRoomHost
        (Trace.run (RoomsHome.exec h) (SharedFile.opened rooms) steps).content
        (Trace.run (RoomsHome.exec h) (SharedFile.opened rooms)
          steps).returned) ∧
    seqsOf .founder "room" (Trace.run (RoomsHome.exec countingHost)
      (SharedFile.opened openRoom) bothNumber).returned = ["2", "2"] ∧
    ∃ state, .appended "room" sampleGrant state ∈
        (Trace.run (RoomsHome.exec countingHost)
          (SharedFile.opened openRoom) grantLost).returned ∧
      ∀ room, (Trace.run (RoomsHome.exec countingHost)
          (SharedFile.opened openRoom) grantLost).content "room" =
            some room →
        sampleGrant.rest ∉ room.ops.map RoomOp.rest := by
  have htwice : seqsOf .founder "room" (Trace.run (RoomsHome.exec countingHost)
      (SharedFile.opened openRoom) bothNumber).returned = ["2", "2"] := by
    decide +kernel
  refine ⟨?_, htwice, _, List.mem_cons_self, ?_⟩
  · intro hkept
    have hnodup := (hkept countingHost openRoom bothNumber).seqs .founder
      "room"
    rw [htwice] at hnodup
    exact absurd hnodup (by decide)
  · intro room hroom
    obtain rfl := Option.some.inj hroom
    decide

end AirNote
