import AirNote.PolicyFile

/-!
# Acknowledgements of an auto-sent reply

A granted reply is confirmed when its acknowledgement arrives, and an
acknowledgement may arrive twice. `confirm` tells a repetition by the record
of the first: where it finds the record confirmed, it leaves the ledger. The
record is kept a day, and a prune also drops it where the clock reads a time
before it; a repetition that comes after that is taken for the first one, and
the ledger names the envelope twice.

The states follow one granted send through all calls for any contact. Beside
the policy they carry whether a `confirm` of it has succeeded, whether a
prune found its record past its day, and how many other envelopes entered
the contact's ledger since.

## Main results

* `confirm_idempotent` — where no prune reads a clock before the confirmed
  record and no repetition comes after the record is gone, the send keeps one
  confirmed record for its day and stands in the ledger once, and `cancel`
  leaves it.
* `confirm_repeated` — a repetition after a day is in the ledger twice.
-/

namespace AirNote

open Lib

/-! ## One granted send -/

/-- A granted send: its contact, its token, and the envelope it goes out
in. -/
structure AckedSend where
  did : String
  token : String
  envelopeId : String

/-- The policy, whether a `confirm` of the send succeeded, whether a prune
found its record past its day, and the envelopes that entered the contact's
ledger since. -/
structure AckState where
  policy : Policy
  acked : Bool
  expired : Bool
  later : Nat

/-- `contacts.get(did)`, or the default. -/
def Policy.contact (p : Policy) (did : String) : ContactPolicy :=
  (p.contacts.lookup did).getD .default

/-- The policy after a call. -/
def Policy.exec (p : Policy) (op : PolicyOp) : Policy :=
  if p.rewrites op && op.writes then p.rewrite op else p

/-- `is_new_confirmation`: the record is pending or gone. -/
def ContactPolicy.isNewConfirmation (token : String) (c : ContactPolicy) :
    Bool :=
  match c.autoSends.find? fun a => a.token == token with
  | some a => a.pending
  | none => true

/-- The record is older than its retention. -/
def AutoSend.outlived (now : Instant) (a : AutoSend) : Bool :=
  match a.atTime with
  | none => false
  | some t => retentionSecs < (now - t).tdiv nanosPerSecond

/-- The records of the send. -/
def AckedSend.records (k : AckedSend) (p : Policy) : List AutoSend :=
  withToken k.token (p.contact k.did).autoSends

/-- The ledger of the send's contact. -/
def AckedSend.ledger (k : AckedSend) (p : Policy) : List String :=
  (p.contact k.did).autoLedger

/-- The call is a `confirm` of the send, and it succeeds. -/
def AckedSend.acks (k : AckedSend) : PolicyOp → Bool
  | .confirm did token _ _ _ writes =>
      did == k.did && token == k.token && writes
  | _ => false

/-- The call prunes and finds the send's record past its day. -/
def AckedSend.expires (k : AckedSend) (p : Policy) : PolicyOp → Bool
  | .reserve _ _ _ now _ writes =>
      writes && (k.records p).any (AutoSend.outlived now)
  | _ => false

/-- The call enters another envelope into the ledger of the contact. -/
def AckedSend.enters (k : AckedSend) (p : Policy) : PolicyOp → Bool
  | .confirm did token _ _ _ writes =>
      did == k.did && token != k.token && writes &&
        (p.contact did).isNewConfirmation token
  | _ => false

/-- One call. -/
def AckState.exec (k : AckedSend) (s : AckState) (op : PolicyOp) :
    AckState :=
  { policy := s.policy.exec op
    acked := s.acked || k.acks op
    expired := s.expired || k.expires s.policy op
    later := if s.acked && k.enters s.policy op then s.later + 1
      else s.later }

theorem acked_exec {k : AckedSend} {op : PolicyOp} (h : k.acks op = false)
    (s : AckState) : (s.exec k op).acked = s.acked := by
  simp [AckState.exec, h]

theorem later_exec {k : AckedSend} {s : AckState} {op : PolicyOp}
    (h : k.enters s.policy op = false) :
    (s.exec k op).later = s.later := by
  simp [AckState.exec, h]

theorem expired_exec {k : AckedSend} {s : AckState} (op : PolicyOp)
    (h : s.expired = true) : (s.exec k op).expired = true := by
  simp [AckState.exec, h]

/-- Nothing is acknowledged yet. -/
def AckState.start (p : Policy) : AckState :=
  { policy := p, acked := false, expired := false, later := 0 }

/-- The tokens drawn are fresh, the send goes out in its envelope, and no
other send does. -/
def AckedSend.Lawful (k : AckedSend) (_ : AckState) : PolicyOp → Prop
  | .reserve _ _ _ _ token _ => token ≠ k.token
  | .confirm did token envelopeId _ _ _ =>
      did = k.did → (token = k.token ↔ envelopeId = k.envelopeId)
  | _ => True

/-- Once the send is confirmed, no prune reads a clock before its record, and
no repetition comes when the record is gone and the ledger names the
envelope. -/
def AckedSend.Timely (k : AckedSend) (s : AckState) : PolicyOp → Prop
  | .reserve _ _ _ now _ writes => s.acked = true → writes = true →
      ∀ a ∈ k.records s.policy, ∀ t, a.atTime = some t →
        0 ≤ (now - t).tdiv nanosPerSecond
  | .confirm did token _ _ _ writes => s.acked = true → did = k.did →
      token = k.token → writes = true →
        k.records s.policy ≠ [] ∨ k.envelopeId ∉ k.ledger s.policy
  | _ => True

/-- The send has one confirmed record, until a prune finds it past its day;
its envelope is in the ledger once while fewer than five hundred entered
after it, and never twice; and `cancel` leaves its record. -/
def AckState.Settled (k : AckedSend) (s : AckState) : Prop :=
  s.acked = true →
    ((∃ a, k.records s.policy = [a] ∧ a.pending = false ∧
        a.envelopeId = k.envelopeId) ∨
      (s.expired = true ∧ k.records s.policy = [])) ∧
    ((k.ledger s.policy).count k.envelopeId ≤ 1 ∧
      (s.later < 500 → (k.ledger s.policy).count k.envelopeId = 1)) ∧
    k.records (s.policy.cancel k.did k.token) = k.records s.policy

/-! ## A contact under the calls -/

theorem contact_update (p : Policy) (did : String)
    (f : ContactPolicy → ContactPolicy) (d : String) :
    (p.update did f).contact d =
      if d = did then f (p.contact d) else p.contact d := by
  show ((updateEntry did f p.contacts).lookup d).getD .default = _
  rw [lookup_updateEntry]
  by_cases h : d = did
  · rw [if_pos h, if_pos h, h]
    rfl
  · rw [if_neg h, if_neg h]
    rfl

theorem contact_prune (p : Policy) (now : Instant) (d : String) :
    (p.prune now).contact d = (p.contact d).retain (AutoSend.kept now) := by
  have hlookup : (p.prune now).contacts.lookup d =
      (p.contacts.lookup d).map (ContactPolicy.retain (AutoSend.kept now)) :=
    lookup_map_contact (ContactPolicy.retain (AutoSend.kept now)) p.contacts d
  unfold Policy.contact
  rw [hlookup]
  cases p.contacts.lookup d with
  | none => rfl
  | some c => rfl

theorem contact_cancel (p : Policy) (did token d : String) :
    (p.cancel did token).contact d =
      if d = did then (p.contact d).retain fun a =>
        a.token != token || !a.pending
      else p.contact d := by
  unfold Policy.cancel
  split
  · exact contact_update p did _ d
  · rename_i hnone
    by_cases h : d = did
    · have hmissing : p.contact d = .default := by
        unfold Policy.contact
        rw [h]
        cases hlookup : p.contacts.lookup did with
        | none => rfl
        | some c =>
            rw [hlookup] at hnone
            exact absurd rfl hnone
      rw [if_pos h, hmissing]
      rfl
    · rw [if_neg h]

theorem confirm_ledger (token envelopeId threadId : String) (now : Instant)
    (c : ContactPolicy) :
    (c.confirm token envelopeId threadId now).autoLedger =
      if c.isNewConfirmation token then pushLedger c.autoLedger envelopeId
      else c.autoLedger := by
  unfold ContactPolicy.confirm ContactPolicy.isNewConfirmation
  cases c.autoSends.find? fun a => a.token == token with
  | some a => dsimp only
  | none => simp only [if_true]

/-- Whether a confirmation is new is told by the first record with the
token. -/
theorem isNewConfirmation_eq (token : String) (c : ContactPolicy) :
    c.isNewConfirmation token =
      match (withToken token c.autoSends).head? with
      | some a => a.pending
      | none => true := by
  rw [withToken, List.head?_filter]
  rfl

theorem withToken_confirm_ne {token token' : String} (hne : token ≠ token')
    (envelopeId threadId : String) (now : Instant) (c : ContactPolicy) :
    withToken token (c.confirm token' envelopeId threadId now).autoSends =
      withToken token c.autoSends := by
  unfold ContactPolicy.confirm
  cases c.autoSends.find? fun a => a.token == token' with
  | some a =>
      dsimp only
      rw [withToken_confirmFirst, if_neg hne]
  | none =>
      have hne' : ¬ token' = token := fun heq => hne heq.symm
      dsimp only
      rw [withToken_append]
      simp [withToken, hne']

/-- A record that is gone is put back. -/
theorem withToken_confirm_nil {token : String} {c : ContactPolicy}
    (h : withToken token c.autoSends = []) (envelopeId threadId : String)
    (now : Instant) :
    withToken token (c.confirm token envelopeId threadId now).autoSends =
      [⟨token, envelopeId, threadId, some now, false⟩] := by
  have hfind : (c.autoSends.find? fun a => a.token == token) = none := by
    rw [← List.head?_filter]
    show (withToken token c.autoSends).head? = none
    rw [h]
    rfl
  unfold ContactPolicy.confirm
  rw [hfind]
  dsimp only
  rw [withToken_append, h]
  simp [withToken]

/-- The first confirmation of the one record with the token. -/
theorem withToken_confirm_self {token : String} {c : ContactPolicy}
    {a : AutoSend} (h : withToken token c.autoSends = [a])
    (envelopeId threadId : String) (now : Instant) :
    withToken token (c.confirm token envelopeId threadId now).autoSends =
      [{ a with pending := false, envelopeId := envelopeId }] := by
  rw [withToken_confirm token envelopeId threadId now h, if_pos rfl]

/-! ## The send under the calls -/

section Calls

variable (k : AckedSend) (p : Policy)

/-- A prune may drop the record; the ledger stays. -/
theorem records_reserve (did : String) (threadId : Option String)
    (receivedAt : Option Instant) (now : Instant) {token : String}
    (hfresh : token ≠ k.token) (writes : Bool) :
    let p' := p.exec (.reserve did threadId receivedAt now token writes)
    (k.records p' = k.records p ∨ (writes = true ∧
        k.records p' = (k.records p).filter (AutoSend.kept now))) ∧
      k.ledger p' = k.ledger p := by
  have hpruned : k.records (p.prune now) =
      (k.records p).filter (AutoSend.kept now) := by
    unfold AckedSend.records
    rw [contact_prune]
    exact withToken_filter k.token _ _
  have hledger : k.ledger (p.prune now) = k.ledger p := by
    unfold AckedSend.ledger
    rw [contact_prune]
    rfl
  dsimp only
  unfold Policy.exec
  split
  · rename_i hboth
    have hwrites : writes = true := (Bool.and_eq_true_iff.mp hboth).2
    have hcases := reserve_writes p did threadId receivedAt now token
    have hrewrite : p.rewrite
        (.reserve did threadId receivedAt now token writes) =
          (p.reserve did threadId receivedAt now token true).1 := rfl
    rw [hrewrite]
    rcases hcases with hprune | hgrant
    · rw [hprune]
      exact ⟨.inr ⟨hwrites, hpruned⟩, hledger⟩
    · rw [hgrant]
      refine ⟨.inr ⟨hwrites, ?_⟩, ?_⟩
      · rw [← hpruned]
        unfold AckedSend.records
        rw [contact_update]
        split
        · show withToken k.token (_ ++ [reservedSend threadId now token]) = _
          rw [withToken_append]
          simp [withToken, reservedSend, hfresh]
        · rfl
      · rw [← hledger]
        unfold AckedSend.ledger
        rw [contact_update]
        split
        · rfl
        · rfl
  · exact ⟨.inl rfl, rfl⟩

/-- A `cancel` drops only what is pending; the ledger stays. -/
theorem records_cancel (did token : String) :
    (k.records (p.cancel did token) = k.records p ∨
        k.records (p.cancel did token) =
          (k.records p).filter fun a => !a.pending) ∧
      k.ledger (p.cancel did token) = k.ledger p := by
  unfold AckedSend.records AckedSend.ledger
  rw [contact_cancel]
  split
  · refine ⟨?_, rfl⟩
    have hfilter := withToken_filter k.token
      (fun a => a.token != token || !a.pending) (p.contact k.did).autoSends
    by_cases ht : k.token = token
    · refine .inr (hfilter.trans (List.filter_congr fun a ha => ?_))
      have htoken : a.token = k.token := by
        simpa using (List.mem_filter.mp ha).2
      simp [htoken, ht]
    · refine .inl (hfilter.trans (List.filter_eq_self.mpr fun a ha => ?_))
      have htoken : a.token = k.token := by
        simpa using (List.mem_filter.mp ha).2
      simp [htoken, ht]
  · exact ⟨.inl rfl, rfl⟩

/-- A `confirm` of another send leaves the record, and enters at most its own
envelope. -/
theorem records_confirm_other {did token : String}
    (hother : did = k.did → token ≠ k.token) (envelopeId threadId : String)
    (now : Instant) :
    let p' := p.confirm did token envelopeId threadId now
    k.records p' = k.records p ∧
      k.ledger p' =
        if did = k.did ∧ (p.contact did).isNewConfirmation token = true then
          pushLedger (k.ledger p) envelopeId
        else k.ledger p := by
  dsimp only
  unfold AckedSend.records AckedSend.ledger Policy.confirm
  rw [contact_update]
  by_cases hd : k.did = did
  · have hne : k.token ≠ token := fun heq => hother hd.symm heq.symm
    rw [if_pos hd]
    refine ⟨withToken_confirm_ne hne envelopeId threadId now _, ?_⟩
    rw [confirm_ledger, hd]
    simp
  · rw [if_neg hd, if_neg fun hboth => hd hboth.1.symm]
    exact ⟨rfl, rfl⟩

/-- A `confirm` of the send itself. -/
theorem records_confirm_self (envelopeId threadId : String)
    (now : Instant) :
    let p' := p.confirm k.did k.token envelopeId threadId now
    (k.records p = [] →
        k.records p' = [⟨k.token, envelopeId, threadId, some now, false⟩] ∧
          k.ledger p' = pushLedger (k.ledger p) envelopeId) ∧
      ∀ a, k.records p = [a] →
        k.records p' =
            [{ a with pending := false, envelopeId := envelopeId }] ∧
          k.ledger p' = if a.pending then
            pushLedger (k.ledger p) envelopeId else k.ledger p := by
  dsimp only
  unfold AckedSend.records AckedSend.ledger Policy.confirm
  rw [contact_update, if_pos rfl]
  have hledger := confirm_ledger k.token envelopeId threadId now
    (p.contact k.did)
  rw [isNewConfirmation_eq] at hledger
  constructor
  · intro hnil
    simp only [show withToken k.token (p.contact k.did).autoSends = [] from
      hnil, List.head?_nil, if_true] at hledger
    exact ⟨withToken_confirm_nil hnil envelopeId threadId now, hledger⟩
  · intro a hone
    simp only [show withToken k.token (p.contact k.did).autoSends = [a] from
      hone, List.head?_cons] at hledger
    exact ⟨withToken_confirm_self hone envelopeId threadId now, hledger⟩

end Calls

/-! ## The ledger -/

/-- The identifier stands in the ledger once with at most so many after it,
or so many entered that it has left. -/
def InLedger (envelopeId : String) (later : Nat) (ledger : List String) :
    Prop :=
  (envelopeId ∉ ledger ∧ ledgerCap ≤ later) ∨
    ∃ before after, ledger = before ++ envelopeId :: after ∧
      envelopeId ∉ before ∧ envelopeId ∉ after ∧ after.length ≤ later

theorem InLedger.count {envelopeId : String} {later : Nat}
    {ledger : List String} (h : InLedger envelopeId later ledger) :
    ledger.count envelopeId ≤ 1 ∧
      (later < 500 → ledger.count envelopeId = 1) := by
  rcases h with ⟨hgone, hmany⟩ | ⟨before, after, rfl, hbefore, hafter, -⟩
  · have hzero : ledger.count envelopeId = 0 :=
      List.count_eq_zero.mpr hgone
    have hcap : ledgerCap = 500 := rfl
    omega
  · have hb : before.count envelopeId = 0 := List.count_eq_zero.mpr hbefore
    have ha : after.count envelopeId = 0 := List.count_eq_zero.mpr hafter
    rw [List.count_append, List.count_cons_self, hb, ha]
    exact ⟨Nat.le_refl _, fun _ => rfl⟩

/-- The identifier just entered is the last. -/
theorem inLedger_push_self {envelopeId : String} {ledger : List String}
    (h : envelopeId ∉ ledger) (later : Nat) :
    InLedger envelopeId later (pushLedger ledger envelopeId) := by
  have hdrop : (ledger ++ [envelopeId]).length - ledgerCap ≤
      ledger.length := by
    have hcap : ledgerCap = 500 := rfl
    rw [List.length_append, List.length_singleton]
    omega
  refine .inr ⟨ledger.drop ((ledger ++ [envelopeId]).length - ledgerCap), [],
    ?_, ?_, List.not_mem_nil, Nat.zero_le _⟩
  · exact List.drop_append_of_le_length hdrop
  · exact fun hmem => h (List.mem_of_mem_drop hmem)

/-- Another identifier is entered. -/
theorem InLedger.push {envelopeId other : String} {later : Nat}
    {ledger : List String} (h : InLedger envelopeId later ledger)
    (hne : other ≠ envelopeId) :
    InLedger envelopeId (later + 1) (pushLedger ledger other) := by
  have hcap : ledgerCap = 500 := rfl
  rcases h with ⟨hgone, hmany⟩ |
    ⟨before, after, rfl, hbefore, hafter, hlater⟩
  · refine .inl ⟨fun hmem => ?_, by omega⟩
    have hmem' := List.mem_append.mp (List.mem_of_mem_drop hmem)
    rcases hmem' with hold | hnew
    · exact hgone hold
    · exact hne (List.mem_singleton.mp hnew).symm
  · have hafter' : envelopeId ∉ after ++ [other] := by
      simp [hafter, hne.symm]
    have hlist : before ++ envelopeId :: after ++ [other] =
        before ++ envelopeId :: (after ++ [other]) := by simp
    unfold pushLedger
    dsimp only
    rw [hlist]
    generalize hn : (before ++ envelopeId :: (after ++ [other])).length -
      ledgerCap = n
    have hlen : before.length + after.length + 2 - ledgerCap = n := by
      rw [← hn]
      simp only [List.length_append, List.length_cons, List.length_nil]
      omega
    by_cases hstays : n ≤ before.length
    · refine .inr ⟨before.drop n, after ++ [other], ?_, ?_, hafter', ?_⟩
      · exact List.drop_append_of_le_length hstays
      · exact fun hmem => hbefore (List.mem_of_mem_drop hmem)
      · rw [List.length_append, List.length_singleton]
        omega
    · refine .inl ⟨?_, by omega⟩
      have hgone : (before ++ envelopeId :: (after ++ [other])).drop n =
          (after ++ [other]).drop (n - before.length - 1) := by
        rw [List.drop_append, List.drop_eq_nil_of_le (by omega),
          List.nil_append]
        obtain ⟨m, hm⟩ : ∃ m, n - before.length = m + 1 :=
          ⟨n - before.length - 1, by omega⟩
        rw [hm, List.drop_succ_cons]
        rfl
      rw [hgone]
      exact fun hmem => hafter' (List.mem_of_mem_drop hmem)

/-! ## The invariant -/

/-- At most one record, with a time. Before the first `confirm` it is pending
and the envelope is in no ledger; from then on it is confirmed, or a prune
found it past its day, and the envelope was entered once. -/
structure AckInv (k : AckedSend) (s : AckState) : Prop where
  few : (k.records s.policy).length ≤ 1
  timed : ∀ a ∈ k.records s.policy, ∃ t, a.atTime = some t
  waiting : s.acked = false →
    (∀ a ∈ k.records s.policy, a.pending = true) ∧
      k.envelopeId ∉ k.ledger s.policy
  confirmed : s.acked = true →
    (∀ a ∈ k.records s.policy, a.pending = false ∧
        a.envelopeId = k.envelopeId) ∧
      (k.records s.policy = [] → s.expired = true) ∧
      InLedger k.envelopeId s.later (k.ledger s.policy)

theorem records_cases {l : List AutoSend} (h : l.length ≤ 1) :
    l = [] ∨ ∃ a, l = [a] := by
  cases l with
  | nil => exact .inl rfl
  | cons a rest =>
      cases rest with
      | nil => exact .inr ⟨a, rfl⟩
      | cons b rest =>
          simp only [List.length_cons] at h
          omega

/-- A call that drops records, leaves the ledger, and is no confirmation. -/
theorem AckInv.drop {k : AckedSend} {s s' : AckState} (h : AckInv k s)
    (keeps : AutoSend → Bool)
    (hrecords : k.records s'.policy = (k.records s.policy).filter keeps)
    (hledger : k.ledger s'.policy = k.ledger s.policy)
    (hacked : s'.acked = s.acked) (hlater : s'.later = s.later)
    (hexpired : s.acked = true → k.records s'.policy = [] →
      s'.expired = true) : AckInv k s' := by
  have hsub : ∀ a ∈ k.records s'.policy, a ∈ k.records s.policy := by
    intro a ha
    rw [hrecords] at ha
    exact List.mem_of_mem_filter ha
  refine ⟨?_, fun a ha => h.timed a (hsub a ha), ?_, ?_⟩
  · rw [hrecords]
    exact Nat.le_trans (List.length_filter_le ..) h.few
  · intro hwait
    rw [hacked] at hwait
    have hbefore := h.waiting hwait
    rw [hledger]
    exact ⟨fun a ha => hbefore.1 a (hsub a ha), hbefore.2⟩
  · intro hdone
    rw [hacked] at hdone
    have hafter := h.confirmed hdone
    rw [hledger, hlater]
    exact ⟨fun a ha => hafter.1 a (hsub a ha), hexpired hdone, hafter.2.2⟩

/-- A call that leaves the records and the ledger of the send. -/
theorem AckInv.same {k : AckedSend} {s s' : AckState} (h : AckInv k s)
    (hrecords : k.records s'.policy = k.records s.policy)
    (hledger : k.ledger s'.policy = k.ledger s.policy)
    (hacked : s'.acked = s.acked) (hlater : s'.later = s.later)
    (hexpired : s.expired = true → s'.expired = true) : AckInv k s' := by
  refine h.drop (fun _ => true) ?_ hledger hacked hlater ?_
  · rw [List.filter_true]
    exact hrecords
  · intro hdone hnil
    rw [hrecords] at hnil
    exact hexpired ((h.confirmed hdone).2.1 hnil)

/-- A confirmed record that a prune drops, at a reading not before it, is
past its day. -/
theorem outlived_of_pruned {a : AutoSend} {t now : Instant}
    (ht : a.atTime = some t) (hpending : a.pending = false)
    (htimely : 0 ≤ (now - t).tdiv nanosPerSecond)
    (hpruned : a.kept now = false) : a.outlived now = true := by
  unfold AutoSend.kept at hpruned
  unfold AutoSend.outlived
  rw [hpending, Bool.not_false, Bool.true_or, Bool.and_true, ht] at hpruned
  rw [ht]
  unfold within at hpruned
  simp only [Bool.and_eq_false_iff, decide_eq_false_iff_not] at hpruned
  simp only [decide_eq_true_eq]
  omega

/-- A `reserve` of any contact. -/
theorem AckInv.reserve {k : AckedSend} {s : AckState} (h : AckInv k s)
    {did : String} {threadId : Option String}
    {receivedAt : Option Instant} {now : Instant} {token : String}
    {writes : Bool}
    (hlaw : k.Lawful s (.reserve did threadId receivedAt now token writes))
    (htimely : k.Timely s
      (.reserve did threadId receivedAt now token writes)) :
    AckInv k (s.exec k
      (.reserve did threadId receivedAt now token writes)) := by
  obtain ⟨hrecords, hledger⟩ := records_reserve k s.policy did threadId
    receivedAt now hlaw writes
  have hacked : (s.exec k (.reserve did threadId receivedAt now token
      writes)).acked = s.acked := acked_exec rfl s
  have hlater : (s.exec k (.reserve did threadId receivedAt now token
      writes)).later = s.later := later_exec rfl
  rcases hrecords with hsame | ⟨hwrites, hpruned⟩
  · exact h.same hsame hledger hacked hlater (expired_exec _)
  · refine h.drop _ hpruned hledger hacked hlater fun hdone hnil => ?_
    have hafter := h.confirmed hdone
    have hcases := records_cases h.few
    rcases hcases with hgone | ⟨a, hone⟩
    · simp [AckState.exec, hafter.2.1 hgone]
    · have hmem : a ∈ k.records s.policy := by
        rw [hone]
        exact List.mem_singleton_self a
      obtain ⟨t, ht⟩ := h.timed a hmem
      have hdropped : a.kept now = false := by
        rw [show (s.exec k _).policy = s.policy.exec _ from rfl,
          hpruned, hone] at hnil
        simpa using hnil
      have hold := outlived_of_pruned ht (hafter.1 a hmem).1
        (htimely hdone hwrites a hmem t ht) hdropped
      simp [AckState.exec, AckedSend.expires, hwrites, hone, hold]

/-- The first `confirm` of the send, and every repetition in time. -/
theorem AckInv.confirmSelf {k : AckedSend} {s s' : AckState}
    (h : AckInv k s) (threadId : String) (now : Instant)
    (htimely : s.acked = true →
      k.records s.policy ≠ [] ∨ k.envelopeId ∉ k.ledger s.policy)
    (hpolicy : s'.policy =
      s.policy.confirm k.did k.token k.envelopeId threadId now)
    (hacked : s'.acked = true) (hlater : s'.later = s.later) :
    AckInv k s' := by
  have heffect := records_confirm_self k s.policy k.envelopeId threadId now
  dsimp only at heffect
  rw [← hpolicy] at heffect
  obtain ⟨hgone, hthere⟩ := heffect
  have hnotWaiting : s'.acked = false →
      (∀ a ∈ k.records s'.policy, a.pending = true) ∧
        k.envelopeId ∉ k.ledger s'.policy := by
    intro hwait
    rw [hacked] at hwait
    cases hwait
  rcases records_cases h.few with hnil | ⟨a, hone⟩
  · obtain ⟨hrecords, hledger⟩ := hgone hnil
    have hnew : k.envelopeId ∉ k.ledger s.policy := by
      cases hcase : s.acked with
      | false => exact (h.waiting hcase).2
      | true =>
          rcases htimely hcase with hthere' | hnot
          · exact absurd hnil hthere'
          · exact hnot
    refine ⟨?_, ?_, hnotWaiting, fun _ => ⟨?_, ?_, ?_⟩⟩
    · rw [hrecords]
      exact Nat.le_refl _
    · intro b hb
      rw [hrecords, List.mem_singleton] at hb
      exact ⟨now, by rw [hb]⟩
    · intro b hb
      rw [hrecords, List.mem_singleton] at hb
      rw [hb]
      exact ⟨rfl, rfl⟩
    · intro hempty
      rw [hrecords] at hempty
      cases hempty
    · rw [hledger]
      exact inLedger_push_self hnew s'.later
  · obtain ⟨hrecords, hledger⟩ := hthere a hone
    have hmem : a ∈ k.records s.policy := by
      rw [hone]
      exact List.mem_singleton_self a
    refine ⟨?_, ?_, hnotWaiting, fun _ => ⟨?_, ?_, ?_⟩⟩
    · rw [hrecords]
      exact Nat.le_refl _
    · intro b hb
      rw [hrecords, List.mem_singleton] at hb
      obtain ⟨t, ht⟩ := h.timed a hmem
      exact ⟨t, by rw [hb]; exact ht⟩
    · intro b hb
      rw [hrecords, List.mem_singleton] at hb
      rw [hb]
      exact ⟨rfl, rfl⟩
    · intro hempty
      rw [hrecords] at hempty
      cases hempty
    · rw [hledger, hlater]
      cases hcase : s.acked with
      | false =>
          have hbefore := h.waiting hcase
          rw [if_pos (hbefore.1 a hmem)]
          exact inLedger_push_self hbefore.2 s.later
      | true =>
          have hafter := h.confirmed hcase
          rw [if_neg (by rw [(hafter.1 a hmem).1]; decide)]
          exact hafter.2.2

/-- Entering another identifier does not bring one in. -/
theorem not_mem_pushLedger {envelopeId other : String}
    {ledger : List String} (h : envelopeId ∉ ledger)
    (hne : other ≠ envelopeId) : envelopeId ∉ pushLedger ledger other := by
  intro hmem
  have hmem' := List.mem_append.mp (List.mem_of_mem_drop hmem)
  rcases hmem' with hold | hnew
  · exact h hold
  · exact hne (List.mem_singleton.mp hnew).symm

/-- A `confirm` of another send. -/
theorem AckInv.confirmOther {k : AckedSend} {s : AckState}
    (h : AckInv k s) {did token envelopeId threadId : String}
    {now : Instant} (hother : did = k.did → token ≠ k.token)
    (hlaw : k.Lawful s (.confirm did token envelopeId threadId now true)) :
    AckInv k (s.exec k
      (.confirm did token envelopeId threadId now true)) := by
  obtain ⟨hrecords, hledger⟩ := records_confirm_other k s.policy hother
    envelopeId threadId now
  have hacks : k.acks (.confirm did token envelopeId threadId now true) =
      false := by
    simpa [AckedSend.acks] using hother
  have hacked := acked_exec hacks s
  by_cases hnew : did = k.did ∧
      (s.policy.contact did).isNewConfirmation token = true
  · have hne : envelopeId ≠ k.envelopeId := fun heq =>
      hother hnew.1 ((hlaw hnew.1).mpr heq)
    rw [if_pos hnew] at hledger
    refine ⟨?_, ?_, ?_, ?_⟩
    · exact Nat.le_trans (Nat.le_of_eq (congrArg List.length hrecords)) h.few
    · intro a ha
      exact h.timed a (hrecords ▸ ha)
    · intro hwait
      rw [hacked] at hwait
      have hbefore := h.waiting hwait
      refine ⟨fun a ha => hbefore.1 a (hrecords ▸ ha), ?_⟩
      show k.envelopeId ∉ k.ledger (s.policy.confirm did token envelopeId
        threadId now)
      rw [hledger]
      exact not_mem_pushLedger hbefore.2 hne
    · intro hdone
      rw [hacked] at hdone
      have hafter := h.confirmed hdone
      have hlater : (s.exec k (.confirm did token envelopeId threadId now
          true)).later = s.later + 1 := by
        simp [AckState.exec, AckedSend.enters, hdone, hnew.1,
          hother hnew.1, hnew.1 ▸ hnew.2]
      refine ⟨fun a ha => hafter.1 a (hrecords ▸ ha), fun hnil => ?_, ?_⟩
      · exact expired_exec _ (hafter.2.1 (hrecords.symm.trans hnil))
      · show InLedger _ _ (k.ledger (s.policy.confirm did token envelopeId
          threadId now))
        rw [hledger, hlater]
        exact hafter.2.2.push hne
  · rw [if_neg hnew] at hledger
    have henters : k.enters s.policy (.confirm did token envelopeId
        threadId now true) = false := by
      show (did == k.did && token != k.token && true &&
        (s.policy.contact did).isNewConfirmation token) = false
      by_cases hd : did = k.did
      · have hold : (s.policy.contact did).isNewConfirmation token =
            false := by
          simpa using fun hpending => hnew ⟨hd, hpending⟩
        rw [hold, Bool.and_false]
      · simp [hd]
    exact h.same hrecords hledger hacked (later_exec henters)
      (expired_exec _)

/-- What is confirmed outlives a `cancel`. -/
theorem records_cancel_confirmed {k : AckedSend} {p : Policy}
    (h : ∀ a ∈ k.records p, a.pending = false) (did token : String) :
    k.records (p.cancel did token) = k.records p := by
  rcases (records_cancel k p did token).1 with hsame | hfilter
  · exact hsame
  · rw [hfilter]
    exact List.filter_eq_self.mpr fun a ha => by rw [h a ha]; rfl

theorem AckInv.cancel {k : AckedSend} {s : AckState} (h : AckInv k s)
    (did token : String) (writes : Bool) :
    AckInv k (s.exec k (.cancel did token writes)) := by
  have hacked : (s.exec k (.cancel did token writes)).acked = s.acked :=
    acked_exec rfl s
  have hlater : (s.exec k (.cancel did token writes)).later = s.later :=
    later_exec rfl
  cases writes with
  | false => exact h.same rfl rfl hacked hlater (expired_exec _)
  | true =>
      obtain ⟨hrecords, hledger⟩ := records_cancel k s.policy did token
      rcases hrecords with hsame | hfilter
      · exact h.same hsame hledger hacked hlater (expired_exec _)
      · refine h.drop _ hfilter hledger hacked hlater fun hdone hnil => ?_
        have hafter := h.confirmed hdone
        have hstays := records_cancel_confirmed
          (fun a ha => (hafter.1 a ha).1) did token
        exact expired_exec _ (hafter.2.1 (hstays.symm.trans hnil))

theorem AckInv.setAutonomy {k : AckedSend} {s : AckState}
    (h : AckInv k s) (did : String) (value : Autonomy) (writes : Bool) :
    AckInv k (s.exec k (.setAutonomy did value writes)) := by
  have hcontact : ∀ {β : Type} (f : ContactPolicy → β),
      (∀ c v, f { c with aiAutonomy := v } = f c) →
      f ((s.policy.exec (.setAutonomy did value writes)).contact k.did) =
        f (s.policy.contact k.did) := by
    intro β f hf
    cases writes with
    | false => rfl
    | true =>
        show f ((s.policy.setAutonomy did value).contact k.did) = _
        unfold Policy.setAutonomy
        rw [contact_update]
        split
        · exact hf _ _
        · rfl
  exact h.same (hcontact (fun c => withToken k.token c.autoSends)
    fun _ _ => rfl) (hcontact ContactPolicy.autoLedger fun _ _ => rfl)
    (acked_exec rfl s) (later_exec rfl) (expired_exec _)

/-- Every call in time keeps the invariant. -/
theorem ackInv_exec (k : AckedSend) (s : AckState) (op : PolicyOp)
    (h : AckInv k s) (hlaw : k.Lawful s op) (htimely : k.Timely s op) :
    AckInv k (s.exec k op) := by
  cases op with
  | reserve did threadId receivedAt now token writes =>
      exact h.reserve hlaw htimely
  | confirm did token envelopeId threadId now writes =>
      cases writes with
      | false =>
          exact h.same rfl rfl (acked_exec (by simp [AckedSend.acks]) s)
            (later_exec (by simp [AckedSend.enters])) (expired_exec _)
      | true =>
          by_cases hself : did = k.did ∧ token = k.token
          · obtain ⟨rfl, rfl⟩ := hself
            have henvelope : envelopeId = k.envelopeId := (hlaw rfl).mp rfl
            rw [henvelope]
            refine h.confirmSelf threadId now
              (fun hdone => htimely hdone rfl rfl rfl) rfl ?_ ?_
            · simp [AckState.exec, AckedSend.acks]
            · simp [AckState.exec, AckedSend.enters]
          · exact h.confirmOther (fun hd ht => hself ⟨hd, ht⟩) hlaw
  | cancel did token writes => exact h.cancel did token writes
  | setAutonomy did value writes => exact h.setAutonomy did value writes

/-- What the invariant says of an acknowledged send. -/
theorem AckInv.settled {k : AckedSend} {s : AckState} (h : AckInv k s) :
    s.Settled k := by
  intro hdone
  have hafter := h.confirmed hdone
  refine ⟨?_, hafter.2.2.count, ?_⟩
  · rcases records_cases h.few with hnil | ⟨a, hone⟩
    · exact .inr ⟨hafter.2.1 hnil, hnil⟩
    · have hmem : a ∈ k.records s.policy := by
        rw [hone]
        exact List.mem_singleton_self a
      exact .inl ⟨a, hone, hafter.1 a hmem⟩
  · exact records_cancel_confirmed (fun a ha => (hafter.1 a ha).1) k.did
      k.token

/-- The send was just granted, and neither its token nor its envelope was
known of the contact before. -/
structure AckedSend.Granted (k : AckedSend) (p p' : Policy) : Prop where
  fresh : k.records p = []
  unnamed : k.envelopeId ∉ k.ledger p
  granted : ∃ threadId receivedAt now reason,
    p.reserve k.did threadId receivedAt now k.token true =
      (p', some ⟨.auto, reason, some k.token⟩)

theorem AckedSend.Granted.inv {k : AckedSend} {p p' : Policy}
    (h : k.Granted p p') : AckInv k (.start p') := by
  obtain ⟨threadId, receivedAt, now, reason, hgrant⟩ := h.granted
  have hpruned : k.records (p.prune now) = [] := by
    unfold AckedSend.records
    rw [contact_prune]
    have hfresh := h.fresh
    unfold AckedSend.records at hfresh
    exact (withToken_filter k.token _ _).trans (by rw [hfresh]; rfl)
  have hunnamed : k.envelopeId ∉ k.ledger (p.prune now) := by
    unfold AckedSend.ledger
    rw [contact_prune]
    exact h.unnamed
  have hpolicy : p' = (p.prune now).update k.did fun c => { c with
      autoSends := c.autoSends ++ [reservedSend threadId now k.token] } := by
    rcases reserve_cases p k.did threadId receivedAt now k.token true
      with hnone | ⟨decision, reason', hprune⟩ | ⟨reason', -, hauto⟩
    · rw [hnone] at hgrant
      cases hgrant
    · rw [hprune] at hgrant
      cases hgrant
    · rw [hauto] at hgrant
      exact (congrArg Prod.fst hgrant).symm
  have hrecords : k.records p' = [reservedSend threadId now k.token] := by
    unfold AckedSend.records at hpruned ⊢
    rw [hpolicy, contact_update, if_pos rfl]
    show withToken k.token (_ ++ [reservedSend threadId now k.token]) = _
    rw [withToken_append, hpruned]
    simp [withToken, reservedSend]
  have hledger : k.ledger p' = k.ledger (p.prune now) := by
    unfold AckedSend.ledger
    rw [hpolicy, contact_update, if_pos rfl]
  refine ⟨?_, ?_, fun _ => ⟨?_, ?_⟩, fun hdone => by cases hdone⟩
  · show (k.records p').length ≤ 1
    rw [hrecords]
    exact Nat.le_refl _
  · intro a ha
    rw [show (AckState.start p').policy = p' from rfl, hrecords,
      List.mem_singleton] at ha
    exact ⟨now, by rw [ha]; rfl⟩
  · intro a ha
    rw [show (AckState.start p').policy = p' from rfl, hrecords,
      List.mem_singleton] at ha
    rw [ha]
    rfl
  · show k.envelopeId ∉ k.ledger p'
    rw [hledger]
    exact hunnamed

/-! ## Acknowledgements, repeated -/

/-- After a grant, over any calls for any contact in any order, with any
clock readings and failed writes: where, once a `confirm` of the send has
succeeded, no prune reads a clock before its record and no repetition comes
when the record is gone and the ledger still names the envelope, the send has
one confirmed record until a prune finds it past its day, its envelope is in
the ledger once while it is among the last five hundred, and `cancel` leaves
the record. -/
theorem confirm_idempotent (k : AckedSend) (p p' : Policy)
    (hgrant : k.Granted p p') (ops : List PolicyOp)
    (hlaw : Trace.Meets (AckState.exec k) k.Lawful (.start p') ops)
    (htimely : Trace.Meets (AckState.exec k) k.Timely (.start p') ops) :
    (Trace.run (AckState.exec k) (.start p') ops).Settled k :=
  (Trace.run_inv_of_meets (AckInv k)
    (fun s op h hboth => ackInv_exec k s op h hboth.1 hboth.2)
    hgrant.inv (hlaw.and htimely)).settled

/-- A send to the contact on auto. -/
def ackedSend : AckedSend := ⟨"d", "t1", "e1"⟩

/-- The contact's policy once the send is granted. -/
def grantedPolicy : Policy :=
  (autoPolicy.reserve "d" none (some 0) 0 "t1" true).1

theorem granted_ackedSend : ackedSend.Granted autoPolicy grantedPolicy :=
  { fresh := by decide
    unnamed := by decide
    granted := ⟨none, some 0, 0, "auto", by decide +kernel⟩ }

/-- The acknowledgement arrives twice, and a `cancel` in between. -/
def ackedTwice : List PolicyOp :=
  [.confirm "d" "t1" "e1" "" 0 true, .cancel "d" "t1" true,
    .confirm "d" "t1" "e1" "" (60 * nanosPerSecond) true]

theorem confirm_idempotent_ackedTwice :
    (Trace.run (AckState.exec ackedSend) (.start grantedPolicy)
      ackedTwice).Settled ackedSend :=
  confirm_idempotent ackedSend autoPolicy grantedPolicy granted_ackedSend
    ackedTwice
    (by
      simp only [ackedTwice, Trace.Meets, AckedSend.Lawful]
      decide)
    ⟨fun _ _ _ _ => .inl (by decide +kernel), trivial,
      fun _ _ _ _ => .inl (by decide +kernel), trivial⟩

/-- The acknowledgement is repeated after a day, when another contact's
message has pruned the record. -/
def ackedLate : List PolicyOp :=
  [.confirm "d" "t1" "e1" "" 0 true,
    .reserve "x" none none (86401 * nanosPerSecond) "t2" true,
    .confirm "d" "t1" "e1" "" (86402 * nanosPerSecond) true]

/-- The repetition enters the envelope into the ledger once more. -/
theorem confirm_repeated :
    ¬ ∀ (k : AckedSend) (p p' : Policy), k.Granted p p' →
      ∀ ops : List PolicyOp,
        Trace.Meets (AckState.exec k) k.Lawful (.start p') ops →
        (Trace.run (AckState.exec k) (.start p') ops).Settled k := by
  intro h
  have hlate := h ackedSend autoPolicy grantedPolicy granted_ackedSend
    ackedLate (by
      simp only [ackedLate, Trace.Meets, AckedSend.Lawful]
      decide)
  have hcount := (hlate (by decide +kernel)).2.1.1
  revert hcount
  decide +kernel

/-- A clock that reads a minute before the confirmed record drops it. -/
example : ackedSend.records (Trace.run (AckState.exec ackedSend)
    (.start grantedPolicy)
    [.confirm "d" "t1" "e1" "" 0 true,
      .reserve "x" none none (-60 * nanosPerSecond) "t2" true]).policy =
    [] := by
  decide +kernel

end AirNote
