import AirNote.Receive
import AirNote.RoomConvergence

/-!
# The pinned keys of the contacts

Whoever is in the contact book has a pinned key, and a message under another
key is flagged. The control operations of a room pin too: the founder of a
room that is opened, and the members that are added. They pin by the same
`addContact` that pins anew at the owner's request, so that a contact whose
key the registry answers differently gets the new key, and from then on
nothing is flagged.

## Main results

* `pins_kept_iff` — the pins are kept in exactly the runs in which whatever
  an operation pins agrees with the contact book.
* `pins_overwritten` — a room opened under the new key of a contact.
-/

namespace AirNote

open Lib

/-- An operation that is accepted pins someone: the founder of the room that
it opens, or the member that it adds, oneself excepted. -/
def autoPins (h : RoomHost) (selfDid : String) (rooms : RoomStore)
    (op : RoomOp) (founderKey : Option String) : Bool :=
  op.roomId.getD "" ≠ "" &&
    match rooms (op.roomId.getD "") with
    | none => op.opens h founderKey && op.founderDid.isSome
    | some room => op.type ≠ .create && room.accepts h op &&
        (pinOfAdd selfDid op).isSome

theorem pins_isSome (h : RoomHost) (selfDid : String) (rooms : RoomStore)
    (op : RoomOp) (founderKey : Option String) :
    (ingestControlOp h selfDid rooms op founderKey).pins.isSome =
      autoPins h selfDid rooms op founderKey := by
  unfold autoPins
  by_cases hid : op.roomId.getD "" = ""
  · rw [ingestControlOp_no_room hid]
    simp [hid]
  · cases hroom : rooms (op.roomId.getD "") with
    | none =>
        rw [ingestControlOp_new hid hroom]
        by_cases hopens : op.opens h founderKey = true
        · simp [hid, hopens]
        · simp [hid, hopens]
    | some room =>
        rw [ingestControlOp_known hid hroom]
        by_cases hok : op.type ≠ .create ∧ room.accepts h op = true
        · rw [if_pos hok]
          simp [hid, hok.1, hok.2]
        · rw [if_neg hok]
          by_cases hcreate : op.type = .create
          · simp [hcreate]
          · have hrefused : room.accepts h op = false :=
              Bool.eq_false_iff.mpr fun haccepts => hok ⟨hcreate, haccepts⟩
            simp [hrefused]

/-- What a record has pinned, as the registry answers it. -/
def pinnedAnew (h : MailHost) (selfDid : String) (box : Mailbox)
    (a : Arrival) : Option ResolvedAgent :=
  match route h selfDid box a with
  | .control _ op =>
      if a.ingestOk &&
          autoPins h.toRoomHost selfDid box.rooms op a.founderKey then
        a.pinned
      else none
  | _ => none

/-- What is pinned anew agrees with the contact book. -/
def PinsAgree (h : MailHost) (selfDid : String) (box : Mailbox) (a : Arrival) :
    Prop :=
  ∀ r, pinnedAnew h selfDid box a = some r →
    ∀ c, box.contacts r.did = some c → c.key = r.key

/-- Whoever was in the contact book still is, under the same key. -/
def KeepsPins (before after : ContactBook) : Prop :=
  ∀ did c, before did = some c → ∃ c', after did = some c' ∧ c'.key = c.key

theorem KeepsPins.refl (contacts : ContactBook) :
    KeepsPins contacts contacts := fun _ c hc => ⟨c, hc, rfl⟩

section Pins

variable {h : MailHost} {selfDid : String} {box : Mailbox} {a : Arrival}

theorem keepsPins_addContact_iff (contacts : ContactBook)
    (resolved : Option ResolvedAgent) :
    KeepsPins contacts (addContact contacts resolved) ↔
      ∀ r, resolved = some r → ∀ c, contacts r.did = some c → c.key = r.key := by
  unfold addContact
  cases resolved with
  | none =>
      simp only [reduceCtorEq, false_implies, implies_true, iff_true]
      exact KeepsPins.refl contacts
  | some r =>
      simp only [Option.some.injEq, forall_eq']
      constructor
      · intro hkeeps c hc
        obtain ⟨c', hc', hkey⟩ := hkeeps r.did c hc
        rw [Function.update_self, Option.some.injEq] at hc'
        rw [← hkey, ← hc']
      · intro hagree did c hc
        by_cases hdid : did = r.did
        · subst hdid
          rw [Function.update_self]
          exact ⟨_, rfl, (hagree c hc).symm⟩
        · rw [Function.update_of_ne hdid]
          exact ⟨c, hc, rfl⟩

@[simp] theorem deliver_contacts (archiveOk : Bool) (message : Message)
    (row : ArchiveRow) :
    (Handled.deliver box archiveOk message row).box.contacts =
      box.contacts := by
  unfold Handled.deliver
  split <;> rfl

/-- A record changes the contact book by what it pins. -/
theorem contacts_handle :
    (handleBox h selfDid box a).contacts =
      addContact box.contacts (pinnedAnew h selfDid box a) := by
  unfold handleBox handle pinnedAnew
  cases hroute : route h selfDid box a with
  | control env op =>
      simp only
      have hafter : (handleControl h selfDid box (judge h box.contacts a) a env
          op).box.contacts = (afterIngest h selfDid box a op).contacts := by
        unfold handleControl
        simp only
        split
        · exact deliver_contacts _ _ _
        · rfl
      rw [hafter]
      unfold afterIngest
      by_cases hingest : a.ingestOk = true
      · rw [if_pos hingest]
        simp only [pins_isSome, hingest, Bool.true_and]
        by_cases hpins :
            autoPins h.toRoomHost selfDid box.rooms op a.founderKey = true
        · rw [if_pos hpins, if_pos hpins]
        · rw [if_neg hpins, if_neg hpins]
          rfl
      · rw [if_neg hingest]
        simp only [Bool.not_eq_true] at hingest
        simp only [hingest, Bool.false_and, Bool.false_eq_true, if_false]
        rfl
  | blocked => rfl
  | broken => rfl
  | unverifiedRoom => rfl
  | replayed => rfl
  | stale => rfl
  | unknownRoom => rfl
  | notInRoster => rfl
  | roomMsg env msg drift => exact deliver_contacts _ _ _
  | direct => exact deliver_contacts _ _ _

/-- Step: a record keeps the pins exactly where what it pins agrees. -/
theorem keepsPins_handle_iff :
    KeepsPins box.contacts (handleBox h selfDid box a).contacts ↔
      PinsAgree h selfDid box a := by
  rw [contacts_handle]
  exact keepsPins_addContact_iff box.contacts (pinnedAnew h selfDid box a)

end Pins

theorem KeepsPins.trans {before mid after : ContactBook}
    (hfirst : KeepsPins before mid) (hsecond : KeepsPins mid after) :
    KeepsPins before after := by
  intro did c hc
  obtain ⟨c', hc', hkey⟩ := hfirst did c hc
  obtain ⟨c'', hc'', hkey'⟩ := hsecond did c' hc'
  exact ⟨c'', hc'', hkey'.trans hkey⟩

/-- Run: pins that every record keeps are kept. -/
theorem keepsPins_run {h : MailHost} {selfDid : String} {box : Mailbox}
    {arrivals : List Arrival}
    (hmeets : Trace.Meets (handleBox h selfDid) (PinsAgree h selfDid) box
      arrivals) :
    KeepsPins box.contacts
      (Trace.run (handleBox h selfDid) box arrivals).contacts := by
  apply Trace.run_inv_of_meets
    (fun s : Mailbox => KeepsPins box.contacts s.contacts)
    (fun s a hs ha => hs.trans (keepsPins_handle_iff.2 ha))
    (KeepsPins.refl box.contacts) hmeets

/-- **Pins change only by the owner's hand.** Over a sequence of records, and
with every answer of the registry, each record keeps the pins of all
contacts exactly in the runs in which whatever an operation pins agrees with
the contact book. There a contact keeps its key throughout, also over a call
of `receive` that has the records as its batch, and what verifies under
another key is flagged. -/
theorem pins_kept_iff (h : MailHost) (selfDid : String) (box : Mailbox)
    (arrivals : List Arrival) :
    ((∀ n, KeepsPins
        (Trace.run (handleBox h selfDid) box (arrivals.take n)).contacts
        (Trace.run (handleBox h selfDid) box
          (arrivals.take (n + 1))).contacts) ↔
      Trace.Meets (handleBox h selfDid) (PinsAgree h selfDid) box
        arrivals) ∧
    (Trace.Meets (handleBox h selfDid) (PinsAgree h selfDid) box arrivals →
      (∀ since strict cursorOk, KeepsPins box.contacts
        (receive h selfDid box
          ⟨since, strict, arrivals, cursorOk⟩).1.contacts) ∧
      ∀ n did c, box.contacts did = some c →
        ∀ a key, a.record.senderDid = did → a.senderKey = .ok (some key) →
          key ≠ c.key →
          (judge h (Trace.run (handleBox h selfDid) box
            (arrivals.take n)).contacts a).verified = true →
          (judge h (Trace.run (handleBox h selfDid) box
            (arrivals.take n)).contacts a).keyChanged = true) := by
  constructor
  · rw [Trace.forall_step_iff_meets
      (fun s s' : Mailbox => KeepsPins s.contacts s'.contacts)
      (fun s => KeepsPins.refl s.contacts)]
    constructor
    · exact Trace.Meets.mono fun s a hkeeps => keepsPins_handle_iff.1 hkeeps
    · exact Trace.Meets.mono fun s a hagree => keepsPins_handle_iff.2 hagree
  · intro hmeets
    constructor
    · intro since strict cursorOk
      obtain ⟨n, hn⟩ :=
        receive_box h selfDid box ⟨since, strict, arrivals, cursorOk⟩
      rw [hn]
      exact keepsPins_run (hmeets.take n)
    · intro n did c hc a key hsender hkey hne hverified
      obtain ⟨c', hc', hsame⟩ := keepsPins_run (hmeets.take n) did c hc
      obtain ⟨env, key', -, hkey', -, -, hjudge⟩ :=
        judge_of_verified hverified
      rw [hkey, Except.ok.injEq, Option.some.injEq] at hkey'
      rw [hjudge, pinVerdict_keyChanged, hsender, hc', ← hkey', Option.any_some,
        hsame]
      exact decide_eq_true (Ne.symm hne)

/-! ## A contact with a new key -/

/-- Envelopes whose signature is the name of the key, and nothing sealed. -/
def plainMail : MailHost where
  toRoomHost := plainHost
  verifyEnvelope := fun env key =>
    match env.signature with
    | none => .error "envelope has no signature"
    | some sig => .ok (sig = key)
  openBody := fun _ => .error "cannot open"
  toISOString := fun _ => "now"

/-- An envelope from a sender to oneself. -/
def plainEnvelope (sender key : String) (body : MsgBody) : Envelope where
  id := some "envelope"
  fromDid := some sender
  toDid := some "did:here"
  timestamp := none
  inReplyTo := none
  threadId := some "thread"
  nonce := none
  body := some body
  signature := some key

/-- The founder's operation arrives under a new key, which the registry has
for the founder. -/
def newKeyArrival (seq : Int) (body : MsgBody) : Arrival where
  record := ⟨seq, "did:founder", "envelope", 0⟩
  envelope := .ok (plainEnvelope "did:founder" "key:founder" body)
  senderKey := .ok (some "key:founder")
  founderKey := some "key:founder"
  pinned := some ⟨"did:founder", "AIR-founder", none, "key:founder"⟩
  ingestOk := true
  archiveOk := true
  now := 0

/-- A mailbox in which the founder is pinned under another key. -/
def oldPinBox : Mailbox where
  contacts := fun did =>
    if did = "did:founder" then
      some ⟨"founder", "AIR-founder", none, "key:old", none⟩
    else none
  blocked := fun _ => false
  rooms := fun _ => none
  archive := []
  cursor := 0

/-- A contact opens a room under a key that is not the pinned one. The
operation itself is flagged, and pins the new key: the next message is not
flagged any more. -/
theorem pins_overwritten :
    (judge plainMail oldPinBox.contacts
        (newKeyArrival 1 (.roomOp sampleCreate))).keyChanged = true ∧
    ((handleBox plainMail "did:here" oldPinBox
        (newKeyArrival 1 (.roomOp sampleCreate))).contacts
          "did:founder").map Contact.key = some "key:founder" ∧
    (judge plainMail (handleBox plainMail "did:here" oldPinBox
        (newKeyArrival 1 (.roomOp sampleCreate))).contacts
          (newKeyArrival 2 (.plain "hello"))).verified = true ∧
    (judge plainMail (handleBox plainMail "did:here" oldPinBox
        (newKeyArrival 1 (.roomOp sampleCreate))).contacts
          (newKeyArrival 2 (.plain "hello"))).keyChanged = false := by
  decide

end AirNote
