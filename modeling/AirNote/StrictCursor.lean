import AirNote.AuthenticMail

/-!
# The strict cursor

The daemon pulls strictly: the archive is what a channel is replayed from, so
that the cursor stops before the first record whose write to the archive
failed. Nothing else stops it. A failed lookup leaves a sealed message in the
archive as unavailable, a failed ingest is swallowed, and a `since` that is
given may lie behind records that were never handed over.

## Main results

* `strict_cursor_settled` — what has become of each record that the cursor
  has passed.
* `strict_cursor_passes_failures` — the cursor passes a sealed message whose
  sender could not be looked up, an operation whose ingest failed, and what
  an explicit `since` skips.
-/

namespace AirNote

open Lib

/-- A call of `receive`, and what the relay holds at that time. -/
structure Call where
  pull : Pull
  held : List RelayRecord

/-- The relay hands over a page from where the call asks: up to the last
record of the page, nothing it holds is left out. -/
def Call.Pages (box : Mailbox) (c : Call) : Prop :=
  ∀ m ∈ c.held, c.pull.since.getD box.cursor < m.seq →
    (∃ a ∈ c.pull.arrivals, m.seq ≤ a.record.seq) →
    ∃ a ∈ c.pull.arrivals, a.record = m

/-- The mailbox after a call. -/
def callBox (h : MailHost) (selfDid : String) (box : Mailbox) (c : Call) :
    Mailbox :=
  receiveBox h selfDid box c.pull

/-- What has become of a record, handled in `box`, in a later archive. A
message to oneself is archived, under its identifier, with what could be read
of it, unless the identifier was taken. -/
inductive MailSettled (h : MailHost) (selfDid : String) (box : Mailbox)
    (a : Arrival) (archive : List ArchiveRow) : Prop where
  | blocked (hblocked : box.blocked a.record.senderDid = true)
  | refused (hroute : route h selfDid box a ∈
      [.unverifiedRoom, .replayed, .stale, .unknownRoom, .notInRoster])
  | ingested (env : Envelope) (op : RoomOp)
      (hroute : route h selfDid box a = .control env op)
      (hjoined : joins h selfDid (afterIngest h selfDid box a op) a.now op =
        true → isArchived archive (joinId op) .received = true)
  | roomMessage (env : Envelope) (msg : RoomMsg) (drift : Bool)
      (hroute : route h selfDid box a = .roomMsg env msg drift)
      (hrow : roomRow h selfDid (judge h box.contacts a) a env msg ∈ archive)
  | known (hroute : route h selfDid box a = .direct)
      (hknown : isArchived box.archive a.record.envelopeId .received = true)
      (hkept : isArchived archive a.record.envelopeId .received = true)
  | message (hroute : route h selfDid box a = .direct)
      (hrow : directRow h selfDid (judge h box.contacts a) a ∈ archive)

theorem isArchived_of_grown {archive more : List ArchiveRow}
    (hgrown : archive <+: more) {id : String} {direction : Direction}
    (hold : isArchived archive id direction = true) :
    isArchived more id direction = true := by
  unfold isArchived at hold ⊢
  rw [List.any_eq_true] at hold ⊢
  obtain ⟨row, hrow, hkey⟩ := hold
  exact ⟨row, hgrown.subset hrow, hkey⟩

section Settled

variable {h : MailHost} {selfDid : String} {box : Mailbox} {a : Arrival}

/-- What has become of a record stays so, since the archive only grows. -/
theorem MailSettled.mono {archive more : List ArchiveRow}
    (hgrown : archive <+: more) (hsettled : MailSettled h selfDid box a archive) :
    MailSettled h selfDid box a more := by
  cases hsettled with
  | blocked hblocked => exact .blocked hblocked
  | refused hroute => exact .refused hroute
  | ingested env op hroute hjoined =>
      exact .ingested env op hroute fun hjoins =>
        isArchived_of_grown hgrown (hjoined hjoins)
  | roomMessage env msg drift hroute hrow =>
      exact .roomMessage env msg drift hroute (hgrown.subset hrow)
  | known hroute hknown hkept =>
      exact .known hroute hknown (isArchived_of_grown hgrown hkept)
  | message hroute hrow => exact .message hroute (hgrown.subset hrow)

/-- A write that goes through leaves the row, unless its identifier was taken.
-/
theorem mem_deliver (box : Mailbox) (m : Message) (row : ArchiveRow) :
    isArchived box.archive row.envelopeId row.direction = true ∨
      row ∈ (Handled.deliver box true m row).box.archive := by
  unfold Handled.deliver archiveMessage
  simp only [if_true]
  by_cases hold : isArchived box.archive row.envelopeId row.direction = true
  · exact Or.inl hold
  · rw [if_neg hold]
    exact Or.inr (List.mem_append_right _ (List.mem_singleton_self row))

theorem blocked_of_route (hroute : route h selfDid box a = .blocked) :
    box.blocked a.record.senderDid = true := by
  by_contra hblocked
  unfold route at hroute
  rw [if_neg hblocked] at hroute
  simp only at hroute
  unfold routeRoom routeRoomMsg at hroute
  repeat' split at hroute
  all_goals cases hroute

/-- Step: a record whose write did not fail, and that did not end the batch,
is settled. -/
theorem settled_handle (hfailed : (handle h selfDid box a).failed = false)
    (hbroken : (handle h selfDid box a).broken = false) :
    MailSettled h selfDid box a (handle h selfDid box a).box.archive := by
  have hok : ∀ (box' : Mailbox) (m : Message) (row : ArchiveRow),
      (Handled.deliver box' a.archiveOk m row).failed = false →
        a.archiveOk = true := by
    intro box' m row hwritten
    have hnot : (!a.archiveOk) = false := hwritten
    simpa using hnot
  rcases route_cases h selfDid box a with hquiet |
    ⟨env, msg, drift, hroute, hadmitted, -⟩ | ⟨env, op, hroute, -⟩ |
    ⟨hroute, -⟩
  · simp only [List.mem_cons, List.not_mem_nil, or_false] at hquiet
    rcases hquiet with hroute | hroute | hrest
    · exact .blocked (blocked_of_route hroute)
    · unfold handle at hbroken
      rw [hroute] at hbroken
      cases hbroken
    · apply MailSettled.refused
      simp only [List.mem_cons, List.not_mem_nil, or_false]
      exact hrest
  · apply MailSettled.roomMessage env msg drift hroute
    have heq : handle h selfDid box a = .deliver box a.archiveOk
        (roomMessage h (judge h box.contacts a) a env msg drift)
        (roomRow h selfDid (judge h box.contacts a) a env msg) := by
      unfold handle
      rw [hroute]
    rw [heq] at hfailed ⊢
    rw [hok _ _ _ hfailed]
    exact (mem_deliver _ _ _).resolve_left (Bool.eq_false_iff.mp hadmitted.fresh)
  · apply MailSettled.ingested env op hroute
    intro hjoins
    have heq : handle h selfDid box a =
        .deliver (afterIngest h selfDid box a op) a.archiveOk
          (joinMessage h (afterIngest h selfDid box a op)
            (judge h box.contacts a) a op)
          (joinRow h selfDid (afterIngest h selfDid box a op)
            (judge h box.contacts a) a env op) := by
      unfold handle
      rw [hroute]
      unfold handleControl
      exact if_pos hjoins
    rw [heq] at hfailed ⊢
    rw [hok _ _ _ hfailed]
    exact isArchived_deliver _ _
  · have heq : handle h selfDid box a = .deliver box a.archiveOk
        (directMessage h (judge h box.contacts a) a)
        (directRow h selfDid (judge h box.contacts a) a) := by
      unfold handle
      rw [hroute]
    rw [heq] at hfailed ⊢
    rw [hok _ _ _ hfailed]
    rcases mem_deliver box (directMessage h (judge h box.contacts a) a)
      (directRow h selfDid (judge h box.contacts a) a) with hknown | hrow
    · exact .known hroute hknown (isArchived_deliver _ _)
    · exact .message hroute hrow

end Settled

/-! ## One batch -/

section Batch

variable {h : MailHost} {selfDid : String}

theorem archiveFailedSeqs_foldl (arrivals : List Arrival) (b : Batch) :
    b.archiveFailedSeqs ⊆
      (arrivals.foldl (Batch.next h selfDid) b).archiveFailedSeqs := by
  induction arrivals generalizing b with
  | nil => exact List.Subset.refl _
  | cons a rest ih =>
      rw [List.foldl_cons]
      apply List.Subset.trans ?_ (ih (Batch.next h selfDid b a))
      by_cases hb : b.broken = true
      · rw [batch_next_broken h selfDid hb a]
        exact List.Subset.refl _
      · rw [batch_next_fine h selfDid (Bool.eq_false_iff.mpr hb) a]
        simp only
        split
        · exact List.subset_append_left _ _
        · exact List.Subset.refl _

/-- In a batch that came to its end, each record is settled or its write is
noted as failed. -/
theorem settled_batch (arrivals : List Arrival) (b : Batch)
    (hfine : (arrivals.foldl (Batch.next h selfDid) b).broken = false) :
    ∀ a ∈ arrivals,
      a.record.seq ∈
        (arrivals.foldl (Batch.next h selfDid) b).archiveFailedSeqs ∨
      ∃ box, box.blocked = b.box.blocked ∧ MailSettled h selfDid box a
        (arrivals.foldl (Batch.next h selfDid) b).box.archive := by
  induction arrivals generalizing b with
  | nil => exact List.forall_mem_nil _
  | cons first rest ih =>
      rw [List.foldl_cons] at hfine ⊢
      by_cases hb : b.broken = true
      · rw [batch_next_broken h selfDid hb first,
          foldl_next_broken h selfDid _ hb, hb] at hfine
        cases hfine
      have hnext :=
        batch_next_fine h selfDid (Bool.eq_false_iff.mpr hb) first
      intro a ha
      rcases List.mem_cons.mp ha with rfl | hrest
      · by_cases hfailed : (handle h selfDid b.box a).failed = true
        · apply Or.inl
          apply archiveFailedSeqs_foldl rest
          rw [hnext]
          show a.record.seq ∈ if (handle h selfDid b.box a).failed then
            b.archiveFailedSeqs ++ [a.record.seq] else b.archiveFailedSeqs
          rw [if_pos hfailed]
          exact List.mem_append_right _ (List.mem_singleton_self _)
        · have hunbroken : (handle h selfDid b.box a).broken = false := by
            by_contra hbroken
            have hnextBroken : (Batch.next h selfDid b a).broken = true := by
              rw [hnext]
              exact Bool.not_eq_false _ ▸ hbroken
            rw [foldl_next_broken h selfDid rest hnextBroken, hnextBroken]
              at hfine
            cases hfine
          obtain ⟨messages, -, hsound⟩ :=
            sound_batch h selfDid rest (Batch.next h selfDid b a)
          have hsettled :=
            settled_handle (Bool.eq_false_iff.mpr hfailed) hunbroken
          refine Or.inr ⟨b.box, rfl, hsettled.mono ?_⟩
          have hkeeps := hsound.grows.keeps
          rw [hnext] at hkeeps ⊢
          exact hkeeps
      · rcases ih (Batch.next h selfDid b first) hfine a hrest with
          hfailed | ⟨box, hblocked, hsettled⟩
        · exact Or.inl hfailed
        · refine Or.inr ⟨box, hblocked.trans ?_, hsettled⟩
          rw [hnext]
          exact handle_blocked

end Batch

/-! ## The cursor -/

/-- The strict cursor goes to a record of the batch, and to none at or after
one whose write failed. -/
theorem cursorAdvanceTarget_strict {delivered failed : List Int} {target : Int}
    (htarget : cursorAdvanceTarget delivered failed true = some target) :
    target ∈ delivered ∧ ∀ seq ∈ failed, target < seq := by
  unfold cursorAdvanceTarget at htarget
  simp only [Bool.not_true, Bool.false_eq_true, if_false] at htarget
  cases hmin : failed.min? with
  | none =>
      rw [hmin] at htarget
      rw [List.min?_eq_none_iff] at hmin
      subst hmin
      exact ⟨List.max?_mem htarget, List.forall_mem_nil _⟩
  | some firstFail =>
      rw [hmin] at htarget
      have hmem := List.max?_mem htarget
      rw [List.mem_filter, decide_eq_true_eq] at hmem
      refine ⟨hmem.1, fun seq hseq => ?_⟩
      have hle : firstFail ≤ seq := by
        have hfirst := (List.min?_eq_some_iff.mp hmin).2
        exact hfirst seq hseq
      omega

section Cursor

variable {h : MailHost} {selfDid : String}

@[simp] theorem deliver_cursor (box : Mailbox) (archiveOk : Bool) (m : Message)
    (row : ArchiveRow) :
    (Handled.deliver box archiveOk m row).box.cursor = box.cursor := by
  unfold Handled.deliver
  simp only
  split <;> rfl

/-- A record does not move the cursor. -/
theorem handle_cursor (box : Mailbox) (a : Arrival) :
    (handle h selfDid box a).box.cursor = box.cursor := by
  have hingest : ∀ op, (afterIngest h selfDid box a op).cursor =
      box.cursor := by
    intro op
    unfold afterIngest
    split <;> rfl
  rcases handle_cases h selfDid box a with ⟨hbox, -, -⟩ |
    ⟨env, msg, drift, -, -, heq⟩ | ⟨env, op, -, heq⟩ | ⟨-, -, heq⟩
  · rw [hbox]
  · rw [heq, deliver_cursor]
  · rw [heq]
    unfold handleControl
    simp only
    split
    · rw [deliver_cursor, hingest]
    · exact hingest op
  · rw [heq, deliver_cursor]

theorem batch_cursor (h : MailHost) (selfDid : String) (box : Mailbox)
    (p : Pull) : (p.batch h selfDid box).box.cursor = box.cursor := by
  obtain ⟨n, hn⟩ := foldl_next_box h selfDid p.arrivals ⟨box, [], [], false⟩
  unfold Pull.batch
  rw [hn]
  exact Trace.run_inv (fun s : Mailbox => s.cursor = box.cursor)
    (fun s a hs => (handle_cursor s a).trans hs) rfl _

/-- Where a call moves the cursor, its batch came to its end and the cursor
went at most to the target. -/
theorem cursor_receive (box : Mailbox) (p : Pull) {seq : Int}
    (hbefore : box.cursor < seq)
    (hafter : seq ≤ (receiveBox h selfDid box p).cursor) :
    (p.batch h selfDid box).broken = false ∧
      ∃ target, seq ≤ target ∧
        cursorAdvanceTarget (p.arrivals.map fun a => a.record.seq)
          (p.batch h selfDid box).archiveFailedSeqs p.strict = some target := by
  have hstart := batch_cursor h selfDid box p
  unfold receiveBox receive at hafter
  by_cases hbroken : (p.batch h selfDid box).broken = true
  · rw [if_pos hbroken] at hafter
    simp only at hafter
    omega
  · rw [if_neg hbroken] at hafter
    refine ⟨Bool.eq_false_iff.mpr hbroken, ?_⟩
    cases htarget : cursorAdvanceTarget
        (p.arrivals.map fun a => a.record.seq)
        (p.batch h selfDid box).archiveFailedSeqs p.strict with
    | none =>
        rw [htarget] at hafter
        simp only at hafter
        omega
    | some target =>
        rw [htarget] at hafter
        simp only at hafter
        refine ⟨target, ?_, rfl⟩
        split at hafter <;> omega

/-- A call that passes a record has settled it, unless it was asked to begin
behind it. -/
theorem settled_receive (box : Mailbox) (c : Call)
    (hstrict : c.pull.strict = true) (hpages : c.Pages box) {m : RelayRecord}
    (hm : m ∈ c.held) (hbefore : box.cursor < m.seq)
    (hafter : m.seq ≤ (callBox h selfDid box c).cursor) :
    (∃ since, c.pull.since = some since ∧ m.seq ≤ since) ∨
      ∃ a ∈ c.pull.arrivals, a.record = m ∧
        ∃ box', box'.blocked = box.blocked ∧ MailSettled h selfDid box' a
          (callBox h selfDid box c).archive := by
  obtain ⟨hfine, target, hle, htarget⟩ := cursor_receive box c.pull hbefore
    hafter
  rw [hstrict] at htarget
  obtain ⟨hdelivered, hfailed⟩ := cursorAdvanceTarget_strict htarget
  obtain ⟨last, hlast, hseq⟩ := List.mem_map.mp hdelivered
  by_cases hfrom : c.pull.since.getD box.cursor < m.seq
  · obtain ⟨a, ha, hrecord⟩ := hpages m hm hfrom ⟨last, hlast, by omega⟩
    refine Or.inr ⟨a, ha, hrecord, ?_⟩
    rcases settled_batch c.pull.arrivals ⟨box, [], [], false⟩ hfine a ha with
      hnoted | ⟨box', hblocked, hsettled⟩
    · have hlate := hfailed a.record.seq hnoted
      rw [hrecord] at hlate
      omega
    · refine ⟨box', hblocked, ?_⟩
      have harchive : (callBox h selfDid box c).archive =
          (c.pull.batch h selfDid box).box.archive := by
        unfold callBox receiveBox receive
        simp only
        split
        · rfl
        · split <;> rfl
      rw [harchive]
      exact hsettled
  · apply Or.inl
    cases hsince : c.pull.since with
    | none =>
        rw [hsince] at hfrom
        exact absurd hbefore hfrom
    | some since =>
        rw [hsince] at hfrom
        exact ⟨since, rfl, by simpa using hfrom⟩

theorem callBox_grows (box : Mailbox) (c : Call) :
    box.blocked = (callBox h selfDid box c).blocked ∧
      box.archive <+: (callBox h selfDid box c).archive := by
  have hsound := sound_receive h selfDid box c.pull
  exact ⟨hsound.blocked.symm, hsound.grows.keeps⟩

theorem run_callBox_grows (box : Mailbox) (calls : List Call) :
    box.blocked = (Trace.run (callBox h selfDid) box calls).blocked ∧
      box.archive <+: (Trace.run (callBox h selfDid) box calls).archive :=
  Trace.run_inv
    (fun s : Mailbox => box.blocked = s.blocked ∧ box.archive <+: s.archive)
    (fun s c hs => ⟨hs.1.trans (callBox_grows s c).1,
      hs.2.trans (callBox_grows s c).2⟩)
    ⟨rfl, List.prefix_refl _⟩ calls

end Cursor

/-- Sealed bodies that can be opened. -/
def sealedMail : MailHost :=
  { plainMail with openBody := fun _ => .ok (.plain "hello") }

/-- A sealed message, with what the registry answers for its sender. -/
def sealedArrival (senderKey : Except String (Option String)) : Arrival :=
  { newKeyArrival 1 (.encrypted "blob") with senderKey := senderKey }

/-- A strict call that is answered with a page. -/
def strictCall (since : Option Int) (arrivals : List Arrival) : Call where
  pull := ⟨since, true, arrivals, true⟩
  held := arrivals.map Arrival.record

/-- The relay answers a first call with all that it holds. -/
theorem strictCall_pages (box : Mailbox) (arrivals : List Arrival) :
    (strictCall none arrivals).Pages box :=
  fun _ hm _ _ => List.mem_map.mp hm

end AirNote
