import AirNote.PinnedKeys
import AirNote.Receive

/-!
# What is delivered as verified

The relay decides what is in a batch, in which order, how often and under
which identifiers, and whose mailbox an envelope is put into. What `receive`
returns or archives as verified was nevertheless signed with the key that the
registry has for the sender that is named. A row of the archive is never
replaced, and a message in a room is returned once under its identifier, if
the writes to the archive go through. A message to oneself is returned as
often as the relay hands it over; the archive keeps it once. To whom an
envelope is addressed is not looked at.

## Main results

* `authentic_mail` — over all runs of `receive`.
* `mail_of_another` — an envelope to someone else, returned twice.
-/

namespace AirNote

open Lib

/-- The record was handed over for a sender who is not blocked and who signed
its envelope with the key that the registry has for it. -/
structure Authentic (h : MailHost) (blocked : String → Bool) (a : Arrival)
    (did : String) (env : Envelope) : Prop where
  sender : a.record.senderDid = did
  notBlocked : blocked did = false
  parsed : a.envelope = .ok env
  fromDid : env.fromDid = some did
  signed : ∃ key, a.senderKey = .ok (some key) ∧
    h.verifyEnvelope env key = .ok true

/-- A message in a room, under an identifier. -/
def Message.isRoom (id : String) (m : Message) : Bool :=
  m.envelopeId = id &&
    match m.body with
    | some (.roomMsg _) => true
    | _ => false

/-- No two rows of the archive share identifier and direction. -/
def KeysUnique (archive : List ArchiveRow) : Prop :=
  (archive.map fun r => (r.envelopeId, r.direction)).Nodup

/-- The mailbox after a call of `receive`. -/
def receiveBox (h : MailHost) (selfDid : String) (box : Mailbox) (p : Pull) :
    Mailbox :=
  (receive h selfDid box p).1

/-- Everything that the calls of a run return. -/
def returned (h : MailHost) (selfDid : String) : Mailbox → List Pull →
    List Message
  | _, [] => []
  | box, p :: rest =>
      ((receive h selfDid box p).2.getD []) ++
        returned h selfDid (receiveBox h selfDid box p) rest

/-! ## One record -/

section Record

variable {h : MailHost} {selfDid : String} {box : Mailbox} {a : Arrival}

theorem authentic_of_verified {contacts : ContactBook}
    (hnot : box.blocked a.record.senderDid = false)
    (hv : (judge h contacts a).verified = true) :
    ∃ env, Authentic h box.blocked a a.record.senderDid env := by
  obtain ⟨env, key, henv, hkey, hfrom, hsig, -⟩ := judge_of_verified hv
  exact ⟨env, rfl, hnot, henv, hfrom, key, hkey, hsig⟩

/-- What a write to the archive leaves. -/
theorem deliver_archive (box : Mailbox) (archiveOk : Bool) (m : Message)
    (row : ArchiveRow) :
    (Handled.deliver box archiveOk m row).box.archive = box.archive ∨
      (isArchived box.archive row.envelopeId row.direction = false ∧
        (Handled.deliver box archiveOk m row).box.archive =
          box.archive ++ [row]) := by
  unfold Handled.deliver
  simp only
  split
  · unfold archiveMessage
    simp only
    split
    · exact Or.inl rfl
    · rename_i hfresh
      exact Or.inr ⟨Bool.eq_false_iff.mpr hfresh, rfl⟩
  · exact Or.inl rfl

@[simp] theorem deliver_blocked (archiveOk : Bool) (m : Message)
    (row : ArchiveRow) :
    (Handled.deliver box archiveOk m row).box.blocked = box.blocked := by
  unfold Handled.deliver
  simp only
  split <;> rfl

/-- Once it is written, a row is in the archive. -/
theorem isArchived_deliver (m : Message) (row : ArchiveRow) :
    isArchived (Handled.deliver box true m row).box.archive row.envelopeId
      row.direction = true := by
  unfold Handled.deliver archiveMessage
  simp only [if_true]
  split
  · assumption
  · unfold isArchived
    simp

theorem afterIngest_archive (op : RoomOp) :
    (afterIngest h selfDid box a op).archive = box.archive := by
  unfold afterIngest
  split <;> rfl

theorem afterIngest_blocked (op : RoomOp) :
    (afterIngest h selfDid box a op).blocked = box.blocked := by
  unfold afterIngest
  split <;> rfl

/-- A record blocks no one. -/
theorem handle_blocked : (handle h selfDid box a).box.blocked = box.blocked := by
  rcases handle_cases h selfDid box a with ⟨hbox, -, -⟩ |
    ⟨env, msg, drift, -, -, heq⟩ | ⟨env, op, -, heq⟩ | ⟨-, -, heq⟩
  · rw [hbox]
  · rw [heq, deliver_blocked]
  · rw [heq]
    unfold handleControl
    simp only
    split
    · rw [deliver_blocked, afterIngest_blocked]
    · exact afterIngest_blocked op
  · rw [heq, deliver_blocked]

/-- A verified message is authentic, and its body is the one that was signed.
-/
theorem authentic_of_message {m : Message}
    (hm : (handle h selfDid box a).message = some m)
    (hv : m.verified = true) :
    ∃ env, Authentic h box.blocked a m.fromDid env ∧
      (m.system = none →
        m.body = (decodeReceivedMessage h env true).body) := by
  have hbody : ∀ env, a.envelope = .ok env →
      (judge h box.contacts a).verified = true →
      (decodeArrival h a (judge h box.contacts a).verified).body =
        (decodeReceivedMessage h env true).body := by
    intro env henv hverified
    unfold decodeArrival
    rw [henv, hverified]
  rcases handle_cases h selfDid box a with ⟨-, hnone, -⟩ |
    ⟨env, msg, drift, hadmitted, -, heq⟩ | ⟨env, op, hadmitted, heq⟩ |
    ⟨-, hnot, heq⟩
  · rw [hnone] at hm
    cases hm
  · rw [heq] at hm
    cases hm
    obtain ⟨env', hauth⟩ :=
      authentic_of_verified hadmitted.notBlocked hadmitted.verified
    refine ⟨env', hauth, fun _ => ?_⟩
    rw [← hbody env' hauth.parsed hadmitted.verified, hadmitted.opened]
    rfl
  · rw [heq] at hm
    unfold handleControl at hm
    simp only at hm
    split at hm
    · cases hm
      obtain ⟨env', hauth⟩ :=
        authentic_of_verified hadmitted.notBlocked hadmitted.verified
      exact ⟨env', hauth, nofun⟩
    · cases hm
  · rw [heq] at hm
    cases hm
    have hverified : (judge h box.contacts a).verified = true := hv
    obtain ⟨env', hauth⟩ := authentic_of_verified hnot hverified
    exact ⟨env', hauth, fun _ => hbody env' hauth.parsed hverified⟩

/-- What a record adds to the archive: at most one row, under an identifier
that was free; and one that is verified was signed by whoever the record
names. -/
theorem handle_archive (h : MailHost) (selfDid : String) (box : Mailbox)
    (a : Arrival) :
    (handle h selfDid box a).box.archive = box.archive ∨
      ∃ row, isArchived box.archive row.envelopeId row.direction = false ∧
        (handle h selfDid box a).box.archive = box.archive ++ [row] ∧
        (row.verified = true →
          ∃ env, Authentic h box.blocked a a.record.senderDid env ∧
            (row.fromDid = a.record.senderDid ∨
              ∃ op, row.envelopeId = joinId op)) := by
  rcases handle_cases h selfDid box a with ⟨hbox, -, -⟩ |
    ⟨env, msg, drift, hadmitted, -, heq⟩ | ⟨env, op, hadmitted, heq⟩ |
    ⟨-, hnot, heq⟩
  · rw [hbox]
    exact Or.inl rfl
  · rw [heq]
    refine (deliver_archive _ _ _ _).imp_right fun hadds =>
      ⟨_, hadds.1, hadds.2, fun _ => ?_⟩
    obtain ⟨env', hauth⟩ :=
      authentic_of_verified hadmitted.notBlocked hadmitted.verified
    have hsame : env = env' := by
      have hparsed := hadmitted.parsed
      rw [hauth.parsed, Except.ok.injEq] at hparsed
      exact hparsed.symm
    refine ⟨env', hauth, Or.inl ?_⟩
    show env.fromDid.getD a.record.senderDid = a.record.senderDid
    rw [hsame, hauth.fromDid]
    rfl
  · rw [heq]
    unfold handleControl
    simp only
    split
    · have hadds := deliver_archive (afterIngest h selfDid box a op)
        a.archiveOk (joinMessage h (afterIngest h selfDid box a op)
          (judge h box.contacts a) a op)
        (joinRow h selfDid (afterIngest h selfDid box a op)
          (judge h box.contacts a) a env op)
      rw [afterIngest_archive] at hadds
      refine hadds.imp_right fun hadds => ⟨_, hadds.1, hadds.2, fun _ => ?_⟩
      obtain ⟨env', hauth⟩ :=
        authentic_of_verified hadmitted.notBlocked hadmitted.verified
      exact ⟨env', hauth, Or.inr ⟨op, rfl⟩⟩
    · exact Or.inl (afterIngest_archive op)
  · rw [heq]
    refine (deliver_archive _ _ _ _).imp_right fun hadds =>
      ⟨_, hadds.1, hadds.2, fun hv => ?_⟩
    have hverified : (judge h box.contacts a).verified = true := hv
    obtain ⟨env', hauth⟩ := authentic_of_verified hnot hverified
    refine ⟨env', hauth, Or.inl ?_⟩
    show (a.envelope.toOption.bind Envelope.fromDid).getD
      a.record.senderDid = a.record.senderDid
    rw [hauth.parsed]
    show env'.fromDid.getD a.record.senderDid = a.record.senderDid
    rw [hauth.fromDid]
    rfl

/-- A message in a room is returned where its identifier is free, and has
taken it afterwards, if the write goes through. -/
theorem isRoom_of_message {m : Message} {id : String}
    (hm : (handle h selfDid box a).message = some m)
    (hroom : m.isRoom id = true) :
    a.record.envelopeId = id ∧ isArchived box.archive id .received = false ∧
      (a.archiveOk = true → isArchived (handle h selfDid box a).box.archive id
        .received = true) := by
  unfold Message.isRoom at hroom
  rw [Bool.and_eq_true, decide_eq_true_eq] at hroom
  rcases handle_cases h selfDid box a with ⟨-, hnone, -⟩ |
    ⟨env, msg, drift, hadmitted, -, heq⟩ | ⟨env, op, hadmitted, heq⟩ |
    ⟨hroute, -, heq⟩
  · rw [hnone] at hm
    cases hm
  · rw [heq] at hm ⊢
    cases hm
    have hid : a.record.envelopeId = id := hroom.1
    refine ⟨hid, hid ▸ hadmitted.fresh, fun hok => ?_⟩
    rw [hok, ← hid]
    exact isArchived_deliver _ _
  · rw [heq] at hm
    unfold handleControl at hm
    simp only at hm
    split at hm
    · cases hm
      cases hroom.2
    · cases hm
  · rw [heq] at hm
    cases hm
    have hbody := body_of_direct hroute
    have hkind := hroom.2
    split at hkind
    · rename_i msg hmsg
      exact absurd hmsg (hbody msg)
    · cases hkind

end Record

/-! ## One batch -/

/-- The archive has grown: rows were added under identifiers that were free,
each of a kind. -/
structure Grows (P : ArchiveRow → Prop) (before after : List ArchiveRow) :
    Prop where
  keeps : before <+: after
  unique : KeysUnique before → KeysUnique after
  kind : ∀ row ∈ after, row ∈ before ∨ P row

theorem Grows.refl (P : ArchiveRow → Prop) (archive : List ArchiveRow) :
    Grows P archive archive :=
  ⟨List.prefix_refl archive, id, fun _ hrow => Or.inl hrow⟩

theorem Grows.trans {P : ArchiveRow → Prop} {before mid after}
    (hfirst : Grows P before mid) (hsecond : Grows P mid after) :
    Grows P before after where
  keeps := hfirst.keeps.trans hsecond.keeps
  unique := fun hunique => hsecond.unique (hfirst.unique hunique)
  kind := fun row hrow => by
    rcases hsecond.kind row hrow with hmid | hnew
    · exact hfirst.kind row hmid
    · exact Or.inr hnew

theorem Grows.mono {P Q : ArchiveRow → Prop} {before after}
    (hgrows : Grows P before after) (himp : ∀ row, P row → Q row) :
    Grows Q before after where
  keeps := hgrows.keeps
  unique := hgrows.unique
  kind := fun row hrow => (hgrows.kind row hrow).imp_right (himp row)

theorem not_isArchived {archive : List ArchiveRow} {id : String}
    {direction : Direction} (hfree : isArchived archive id direction = false) :
    ∀ row ∈ archive, (row.envelopeId, row.direction) ≠ (id, direction) := by
  intro row hrow heq
  unfold isArchived at hfree
  rw [List.any_eq_false] at hfree
  rw [Prod.mk.injEq] at heq
  exact hfree row hrow (by simp [heq.1, heq.2])

/-- A row under a free identifier keeps the identifiers apart. -/
theorem grows_append {P : ArchiveRow → Prop} {archive : List ArchiveRow}
    {row : ArchiveRow}
    (hfree : isArchived archive row.envelopeId row.direction = false)
    (hrow : P row) : Grows P archive (archive ++ [row]) where
  keeps := List.prefix_append archive [row]
  unique := by
    intro hunique
    unfold KeysUnique at hunique ⊢
    rw [List.map_append, List.nodup_append]
    refine ⟨hunique, List.nodup_singleton _, ?_⟩
    intro key hkey key' hkey' heq
    obtain ⟨other, hother, hsame⟩ := List.mem_map.mp hkey
    rw [List.map_singleton, List.mem_singleton] at hkey'
    exact not_isArchived hfree other hother (by rw [hsame, heq, hkey'])
  kind := by
    intro other hother
    rcases List.mem_append.mp hother with hold | hnew
    · exact Or.inl hold
    · rw [List.mem_singleton] at hnew
      exact Or.inr (hnew ▸ hrow)

theorem Grows.isArchived {P : ArchiveRow → Prop} {before after}
    (hgrows : Grows P before after) {id : String} {direction : Direction}
    (hold : isArchived before id direction = true) :
    isArchived after id direction = true := by
  unfold AirNote.isArchived at hold ⊢
  rw [List.any_eq_true] at hold ⊢
  obtain ⟨row, hrow, hkey⟩ := hold
  exact ⟨row, hgrows.keeps.subset hrow, hkey⟩

/-- A row that an arrival vouches for: one that is verified was signed by
whoever the record names. -/
def VouchedRow (h : MailHost) (blocked : String → Bool)
    (arrivals : List Arrival) (row : ArchiveRow) : Prop :=
  row.verified = true → ∃ a ∈ arrivals, ∃ env,
    Authentic h blocked a a.record.senderDid env ∧
      (row.fromDid = a.record.senderDid ∨ ∃ op, row.envelopeId = joinId op)

/-- A message that an arrival vouches for: one that is verified was signed by
the sender that it names, with the body that it has. -/
def VouchedMessage (h : MailHost) (blocked : String → Bool)
    (arrivals : List Arrival) (m : Message) : Prop :=
  m.verified = true → ∃ a ∈ arrivals, ∃ env,
    Authentic h blocked a m.fromDid env ∧
      (m.system = none → m.body = (decodeReceivedMessage h env true).body)

theorem VouchedRow.mono {h : MailHost} {blocked : String → Bool}
    {arrivals more : List Arrival} {row : ArchiveRow}
    (hsub : ∀ a ∈ arrivals, a ∈ more)
    (hrow : VouchedRow h blocked arrivals row) :
    VouchedRow h blocked more row := by
  intro hv
  obtain ⟨a, ha, hrest⟩ := hrow hv
  exact ⟨a, hsub a ha, hrest⟩

theorem VouchedMessage.mono {h : MailHost} {blocked : String → Bool}
    {arrivals more : List Arrival} {m : Message}
    (hsub : ∀ a ∈ arrivals, a ∈ more)
    (hm : VouchedMessage h blocked arrivals m) :
    VouchedMessage h blocked more m := by
  intro hv
  obtain ⟨a, ha, hrest⟩ := hm hv
  exact ⟨a, hsub a ha, hrest⟩

/-- Whether a message in a room can still be returned under an identifier. -/
def openings (box : Mailbox) (id : String) : Nat :=
  if isArchived box.archive id .received then 0 else 1

section Batch

variable {h : MailHost} {selfDid : String} {b : Batch} {a : Arrival}

theorem grows_handle (box : Mailbox) :
    Grows (VouchedRow h box.blocked [a]) box.archive
      (handle h selfDid box a).box.archive := by
  rcases handle_archive h selfDid box a with heq | ⟨row, hfree, heq, hvouched⟩
  · rw [heq]
    exact Grows.refl _ _
  · rw [heq]
    apply grows_append hfree
    intro hv
    exact ⟨a, List.mem_singleton_self a, hvouched hv⟩

/-- One record returns at most one message in a room under an identifier, and
then it closes it. -/
theorem openings_handle (box : Mailbox) {id : String}
    (hok : a.record.envelopeId = id → a.archiveOk = true) :
    (handle h selfDid box a).message.toList.countP (Message.isRoom id) +
      openings (handle h selfDid box a).box id ≤ openings box id := by
  have hmono : openings (handle h selfDid box a).box id ≤ openings box id := by
    unfold openings
    by_cases hold : isArchived box.archive id .received = true
    · rw [if_pos hold, if_pos ((grows_handle box).isArchived hold)]
    · rw [if_neg hold]
      split <;> omega
  cases hm : (handle h selfDid box a).message with
  | none => simpa using hmono
  | some m =>
      by_cases hroom : m.isRoom id = true
      · obtain ⟨hid, hfree, hclosed⟩ := isRoom_of_message hm hroom
        have hafter := hclosed (hok hid)
        unfold openings
        simp [hroom, hfree, hafter]
      · simpa [hroom] using hmono

end Batch

/-! ## From records to runs -/

/-- What arrivals leave of a mailbox, and the messages that are returned: the
archive has grown by rows that the arrivals vouch for, they vouch for the
messages, and under each identifier at most one opening was used. -/
structure Sound (h : MailHost) (arrivals : List Arrival)
    (before after : Mailbox) (messages : List Message) : Prop where
  blocked : after.blocked = before.blocked
  grows : Grows (VouchedRow h before.blocked arrivals) before.archive
    after.archive
  vouched : ∀ m ∈ messages, VouchedMessage h before.blocked arrivals m
  once : ∀ id, (∀ a ∈ arrivals, a.record.envelopeId = id →
      a.archiveOk = true) →
    messages.countP (Message.isRoom id) + openings after id ≤
      openings before id

theorem Sound.refl (h : MailHost) (box : Mailbox) : Sound h [] box box [] where
  blocked := rfl
  grows := Grows.refl _ _
  vouched := List.forall_mem_nil _
  once := fun id _ => by simp

theorem Sound.trans {h : MailHost} {first second : List Arrival}
    {before mid after : Mailbox} {messages more : List Message}
    (hfirst : Sound h first before mid messages)
    (hsecond : Sound h second mid after more) :
    Sound h (first ++ second) before after (messages ++ more) where
  blocked := hsecond.blocked.trans hfirst.blocked
  grows := by
    apply (hfirst.grows.mono fun row => VouchedRow.mono ?_).trans
    · rw [← hfirst.blocked]
      exact hsecond.grows.mono fun row => VouchedRow.mono fun a ha =>
        List.mem_append_right first ha
    · intro a ha
      exact List.mem_append_left second ha
  vouched := by
    intro m hm
    rcases List.mem_append.mp hm with hold | hnew
    · exact (hfirst.vouched m hold).mono fun a ha =>
        List.mem_append_left second ha
    · have hvouched := hsecond.vouched m hnew
      rw [hfirst.blocked] at hvouched
      exact hvouched.mono fun a ha => List.mem_append_right first ha
  once := by
    intro id hok
    have hleft := hfirst.once id fun a ha =>
      hok a (List.mem_append_left second ha)
    have hright := hsecond.once id fun a ha =>
      hok a (List.mem_append_right first ha)
    rw [List.countP_append]
    omega

/-- Arrivals that are not heard of do no harm. -/
theorem Sound.more {h : MailHost} {arrivals more : List Arrival}
    {before after : Mailbox} {messages : List Message}
    (hsound : Sound h arrivals before after messages)
    (hsub : ∀ a ∈ arrivals, a ∈ more) :
    Sound h more before after messages where
  blocked := hsound.blocked
  grows := hsound.grows.mono fun _ hrow => hrow.mono hsub
  vouched := fun m hm => (hsound.vouched m hm).mono hsub
  once := fun id hok => hsound.once id fun a ha => hok a (hsub a ha)

/-- Nor do messages that are not returned. -/
theorem Sound.silent {h : MailHost} {arrivals : List Arrival}
    {before after : Mailbox} {messages : List Message}
    (hsound : Sound h arrivals before after messages) :
    Sound h arrivals before after [] where
  blocked := hsound.blocked
  grows := hsound.grows
  vouched := List.forall_mem_nil _
  once := by
    intro id hok
    have honce := hsound.once id hok
    rw [List.countP_nil]
    omega

/-- Step: one record. -/
theorem sound_handle (h : MailHost) (selfDid : String) (box : Mailbox)
    (a : Arrival) :
    Sound h [a] box (handle h selfDid box a).box
      (handle h selfDid box a).message.toList where
  blocked := handle_blocked
  grows := grows_handle box
  vouched := by
    intro m hm hv
    rw [Option.mem_toList] at hm
    obtain ⟨env, hauthentic⟩ := authentic_of_message hm hv
    exact ⟨a, List.mem_singleton_self a, env, hauthentic⟩
  once := fun id hok =>
    openings_handle box (hok a (List.mem_singleton_self a))

/-- One batch. -/
theorem sound_batch (h : MailHost) (selfDid : String)
    (arrivals : List Arrival) (b : Batch) :
    ∃ messages, (arrivals.foldl (Batch.next h selfDid) b).messages =
        b.messages ++ messages ∧
      Sound h arrivals b.box (arrivals.foldl (Batch.next h selfDid) b).box
        messages := by
  induction arrivals generalizing b with
  | nil =>
      refine ⟨[], ?_, Sound.refl h b.box⟩
      rw [List.append_nil]
      rfl
  | cons a rest ih =>
      by_cases hb : b.broken = true
      · rw [foldl_next_broken h selfDid _ hb]
        refine ⟨[], (List.append_nil _).symm, ?_⟩
        exact (Sound.refl h b.box).more (List.forall_mem_nil _)
      · rw [List.foldl_cons]
        obtain ⟨messages, hmessages, hsound⟩ := ih (Batch.next h selfDid b a)
        rw [batch_next_fine h selfDid (Bool.eq_false_iff.mpr hb) a] at hmessages hsound ⊢
        refine ⟨(handle h selfDid b.box a).message.toList ++ messages, ?_,
          (sound_handle h selfDid b.box a).trans hsound⟩
        rw [hmessages, List.append_assoc]

/-- One call. -/
theorem sound_receive (h : MailHost) (selfDid : String) (box : Mailbox)
    (p : Pull) :
    Sound h p.arrivals box (receiveBox h selfDid box p)
      ((receive h selfDid box p).2.getD []) := by
  obtain ⟨messages, hmessages, hsound⟩ :=
    sound_batch h selfDid p.arrivals ⟨box, [], [], false⟩
  rw [List.nil_append] at hmessages
  subst hmessages
  unfold receiveBox receive Pull.batch
  simp only
  split
  · exact hsound.silent
  · split
    · exact hsound
    · exact ⟨hsound.blocked, hsound.grows, hsound.vouched, hsound.once⟩

/-- Run: all calls. -/
theorem sound_returned (h : MailHost) (selfDid : String) (box : Mailbox)
    (pulls : List Pull) :
    Sound h (pulls.flatMap Pull.arrivals) box
      (Trace.run (receiveBox h selfDid) box pulls)
      (returned h selfDid box pulls) := by
  induction pulls generalizing box with
  | nil => exact Sound.refl h box
  | cons p rest ih =>
      rw [Trace.run_cons, List.flatMap_cons]
      exact (sound_receive h selfDid box p).trans
        (ih (receiveBox h selfDid box p))

/-- **Authentic delivery.** Whatever the relay hands over, over any number of
calls of `receive`: what is returned as verified, and what is archived as
verified, was handed over for a sender who is not blocked and who signed the
envelope, in which it is named, with the key that the registry has for it.
The body that is returned is the one in that envelope. The archive only
grows, by rows under identifiers that were free. And a message in a room is
returned at most once under the identifier that the relay gives it, if no
write to the archive fails for that identifier. -/
theorem authentic_mail (h : MailHost) (selfDid : String) (box : Mailbox)
    (pulls : List Pull) :
    (∀ m ∈ returned h selfDid box pulls, m.verified = true →
      ∃ p ∈ pulls, ∃ a ∈ p.arrivals, ∃ env,
        Authentic h box.blocked a m.fromDid env ∧
          (m.system = none →
            m.body = (decodeReceivedMessage h env true).body)) ∧
    (∀ row ∈ (Trace.run (receiveBox h selfDid) box pulls).archive,
      row ∉ box.archive → row.verified = true →
      ∃ p ∈ pulls, ∃ a ∈ p.arrivals, ∃ env,
        Authentic h box.blocked a a.record.senderDid env ∧
          (row.fromDid = a.record.senderDid ∨
            ∃ op, row.envelopeId = joinId op)) ∧
    box.archive <+: (Trace.run (receiveBox h selfDid) box pulls).archive ∧
    (KeysUnique box.archive →
      KeysUnique (Trace.run (receiveBox h selfDid) box pulls).archive) ∧
    ∀ id, (∀ p ∈ pulls, ∀ a ∈ p.arrivals, a.record.envelopeId = id →
        a.archiveOk = true) →
      (returned h selfDid box pulls).countP (Message.isRoom id) ≤ 1 := by
  have hsound := sound_returned h selfDid box pulls
  refine ⟨?_, ?_, hsound.grows.keeps, hsound.grows.unique, ?_⟩
  · intro m hm hv
    obtain ⟨a, ha, hrest⟩ := hsound.vouched m hm hv
    obtain ⟨p, hp, hap⟩ := List.mem_flatMap.mp ha
    exact ⟨p, hp, a, hap, hrest⟩
  · intro row hrow hnew hv
    obtain ⟨a, ha, hrest⟩ := (hsound.grows.kind row hrow).resolve_left hnew hv
    obtain ⟨p, hp, hap⟩ := List.mem_flatMap.mp ha
    exact ⟨p, hp, a, hap, hrest⟩
  · intro id hok
    have honce := hsound.once id fun a ha => by
      obtain ⟨p, hp, hap⟩ := List.mem_flatMap.mp ha
      exact hok p hp a hap
    have hopen : openings box id ≤ 1 := by
      unfold openings
      split <;> omega
    omega

/-! ## A message to someone else -/

/-- The founder's message to someone else, put into one's own mailbox. -/
def strayArrival (seq : Int) : Arrival :=
  { newKeyArrival seq (.plain "hello") with
    envelope := .ok { plainEnvelope "did:founder" "key:founder"
      (.plain "hello") with toDid := some "did:else" } }

/-- The relay hands over a message to someone else, twice under one
identifier: it is returned as verified both times. -/
theorem mail_of_another :
    ((strayArrival 1).envelope.toOption.bind Envelope.toDid =
      some "did:else") ∧
    (returned plainMail "did:here" oldPinBox
      [⟨none, true, [strayArrival 1], true⟩,
        ⟨none, true, [strayArrival 1], true⟩]).map
          (fun m => (m.envelopeId, m.verified, m.body)) =
      [("envelope", true, some (.plain "hello")),
        ("envelope", true, some (.plain "hello"))] := by
  decide

end AirNote
