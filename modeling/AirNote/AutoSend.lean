import AirNote.Lib.Trace
import Mathlib.Data.List.Nodup
import Mathlib.Data.List.Perm.Subperm

/-!
# The auto-send budget

A reply may be sent without a human only within a budget. `reserve` counts
the records of the policy file, and where they leave room it adds a pending
one and grants the send; `confirm` settles the record when the send is
acknowledged, `cancel` removes it when the send failed. Each call holds one
lock from its read of the file to its write, so the calls are atomic, and a
call whose write fails changes nothing. A record that stays pending for more
than fifteen minutes is taken for the debris of a crash: the next `reserve`
removes it, and with it the grant leaves the count.

Beside the file the state carries what was granted, which the code does not
store: a grant is dropped when it is cancelled, and is given up when a
`reserve` finds it unacknowledged past its fifteen minutes. A point in time
is a number of nanoseconds; a text that is no time is `none`.

## Main results

* `auto_send_budget` — the grants neither cancelled nor given up keep every
  cap in every window of its length, whatever was on file before.
* `auto_send_given_up` — the grants given up are on top of that.
-/

namespace AirNote

open Lib

/-- Nanoseconds since a fixed time. -/
abbrev Instant := Int

/-- `Autonomy`. -/
inductive Autonomy where
  | off
  | draft
  | auto
  deriving DecidableEq, Repr

/-- `AutoSend`: a reservation, and the confirmed send afterwards. -/
structure AutoSend where
  token : String
  envelopeId : String
  threadId : String
  atTime : Option Instant
  pending : Bool
  deriving DecidableEq, Repr

/-- `ContactPolicy`. -/
structure ContactPolicy where
  aiAutonomy : Autonomy
  autoLedger : List String
  autoSends : List AutoSend
  deriving DecidableEq, Repr

/-- `ContactPolicy::default`. -/
def ContactPolicy.default : ContactPolicy := ⟨.draft, [], []⟩

/-- `Policy`: the contacts by their identifiers. -/
structure Policy where
  version : Nat
  contacts : List (String × ContactPolicy)
  deriving DecidableEq, Repr

/-- `PER_CONTACT_HOURLY`. -/
def perContactHourly : Nat := 3

/-- `PER_CONTACT_DAILY`. -/
def perContactDaily : Nat := 10

/-- `GLOBAL_DAILY`. -/
def globalDaily : Nat := 30

/-- `HOURLY_WINDOW_SECS`. -/
def hourlyWindowSecs : Int := 3600

/-- `STRUCTURAL_WINDOW_SECS`. -/
def structuralWindowSecs : Int := 1800

/-- `AUTO_RECENCY_SECS`. -/
def autoRecencySecs : Int := 600

/-- `STALE_PENDING_SECS`. -/
def stalePendingSecs : Int := 900

/-- `RETENTION_SECS`. -/
def retentionSecs : Int := 86400

/-- `LEDGER_CAP`. -/
def ledgerCap : Nat := 500

/-- The nanoseconds of a second. -/
def nanosPerSecond : Int := 1000000000

/-- `within`: whole seconds, cut towards zero, both ends included. -/
def within (t : Option Instant) (now : Instant) (secs : Int) : Bool :=
  match t with
  | none => false
  | some t =>
      let delta := (now - t).tdiv nanosPerSecond
      0 ≤ delta && delta ≤ secs

/-! ## The policy file -/

/-- The entry of a contact, made where it is missing, is rewritten. -/
def updateEntry (did : String) (f : ContactPolicy → ContactPolicy) :
    List (String × ContactPolicy) → List (String × ContactPolicy)
  | [] => [(did, f .default)]
  | (d, c) :: rest =>
      if d = did then (d, f c) :: rest else (d, c) :: updateEntry did f rest

/-- `contacts.entry(did).or_default()`, rewritten. -/
def Policy.update (p : Policy) (did : String)
    (f : ContactPolicy → ContactPolicy) : Policy :=
  { p with contacts := updateEntry did f p.contacts }

/-- The contact's dial. -/
def Policy.dial (p : Policy) (did : String) : Autonomy :=
  ((p.contacts.lookup did).map ContactPolicy.aiAutonomy).getD .draft

/-- The records of one contact. -/
def Policy.sends (p : Policy) (did : String) : List AutoSend :=
  ((p.contacts.lookup did).map ContactPolicy.autoSends).getD []

/-- The records of all contacts. -/
def Policy.allSends (p : Policy) : List AutoSend :=
  p.contacts.flatMap fun c => c.2.autoSends

/-- The records of a list that are within a window. -/
def countWithin (sends : List AutoSend) (now : Instant) (secs : Int) : Nat :=
  (sends.filter fun a => within a.atTime now secs).length

/-- A reply was just granted in this thread. -/
def justReplied (sends : List AutoSend) (threadId : Option String)
    (now : Instant) : Bool :=
  match threadId with
  | none => false
  | some tid => sends.any fun a =>
      a.threadId == tid && within a.atTime now structuralWindowSecs

/-- `decide`. -/
def Policy.decide (p : Policy) (did : String) (threadId : Option String)
    (receivedAt : Option Instant) (now : Instant) : Autonomy × String :=
  match p.dial did with
  | .off => (.off, "dial off")
  | .draft => (.draft, "dial draft")
  | .auto =>
      if !within receivedAt now autoRecencySecs then
        (.draft, "auto skipped: message too old (replay)")
      else if justReplied (p.sends did) threadId now then
        (.draft, "auto paused: just auto-replied in this thread")
      else if perContactHourly ≤
          countWithin (p.sends did) now hourlyWindowSecs then
        (.draft, "auto paused: hourly cap")
      else if perContactDaily ≤
          countWithin (p.sends did) now retentionSecs then
        (.draft, "auto paused: daily cap")
      else if globalDaily ≤ countWithin p.allSends now retentionSecs then
        (.draft, "auto paused: global cap")
      else (.auto, "auto")

/-- The record stays: it is retained, and no stale reservation. -/
def AutoSend.kept (now : Instant) (a : AutoSend) : Bool :=
  within a.atTime now retentionSecs &&
    (!a.pending || within a.atTime now stalePendingSecs)

/-- `prune`. -/
def Policy.prune (p : Policy) (now : Instant) : Policy :=
  { p with contacts := p.contacts.map fun c =>
      (c.1, { c.2 with autoSends := c.2.autoSends.filter (AutoSend.kept now) }) }

/-- `Reservation`. -/
structure Reservation where
  decision : Autonomy
  reason : String
  token : Option String
  deriving DecidableEq, Repr

/-- The record a reservation adds. -/
def reservedSend (threadId : Option String) (now : Instant)
    (token : String) : AutoSend :=
  { token := token
    envelopeId := ""
    threadId := threadId.getD ""
    atTime := some now
    pending := true }

/-- `reserve`, with the token that is drawn and whether the file can be
written; without an answer, it cannot. -/
def Policy.reserve (p : Policy) (did : String) (threadId : Option String)
    (receivedAt : Option Instant) (now : Instant) (token : String)
    (writes : Bool) : Policy × Option Reservation :=
  let p' := p.prune now
  match p'.decide did threadId receivedAt now with
  | (.auto, reason) =>
      if writes then
        (p'.update did fun c =>
          { c with autoSends :=
              c.autoSends ++ [reservedSend threadId now token] },
          some ⟨.auto, reason, some token⟩)
      else (p, none)
  | (decision, reason) =>
      if p' = p then (p, some ⟨decision, reason, none⟩)
      else if writes then (p', some ⟨decision, reason, none⟩)
      else (p, none)

/-- The first record with the token is confirmed. -/
def confirmFirst (token envelopeId : String) : List AutoSend → List AutoSend
  | [] => []
  | a :: rest =>
      if a.token = token then
        { a with pending := false, envelopeId := envelopeId } :: rest
      else a :: confirmFirst token envelopeId rest

/-- An identifier at the end of the capped ledger. -/
def pushLedger (ledger : List String) (envelopeId : String) : List String :=
  let ledger := ledger ++ [envelopeId]
  ledger.drop (ledger.length - ledgerCap)

/-- `confirm`, on the contact: a record removed in the meantime is put back,
and only a record that was not confirmed before enters the ledger. -/
def ContactPolicy.confirm (token envelopeId threadId : String)
    (now : Instant) (c : ContactPolicy) : ContactPolicy :=
  match c.autoSends.find? fun a => a.token == token with
  | some a =>
      { c with
        autoSends := confirmFirst token envelopeId c.autoSends
        autoLedger := if a.pending then pushLedger c.autoLedger envelopeId
          else c.autoLedger }
  | none =>
      { c with
        autoSends := c.autoSends ++ [⟨token, envelopeId, threadId, some now,
          false⟩]
        autoLedger := pushLedger c.autoLedger envelopeId }

/-- `confirm`. -/
def Policy.confirm (p : Policy) (did token envelopeId threadId : String)
    (now : Instant) : Policy :=
  p.update did (ContactPolicy.confirm token envelopeId threadId now)

/-- `cancel`: only what is still pending is removed. -/
def Policy.cancel (p : Policy) (did token : String) : Policy :=
  if (p.contacts.lookup did).isSome then
    p.update did fun c =>
      { c with autoSends :=
          c.autoSends.filter fun a => a.token != token || !a.pending }
  else p

/-- `set_autonomy`. -/
def Policy.setAutonomy (p : Policy) (did : String) (value : Autonomy) :
    Policy :=
  p.update did fun c => { c with aiAutonomy := value }

/-! ## What was granted -/

/-- A granted send: to whom, in which thread, when, under which token,
whether it is still unacknowledged, and whether it was given up. -/
structure AutoGrant where
  did : String
  threadId : Option String
  atTime : Instant
  token : String
  pending : Bool
  givenUp : Bool
  deriving DecidableEq

/-- The file, the grants not cancelled, and the clock. -/
structure BudgetState where
  policy : Policy
  granted : List AutoGrant
  clock : Instant

/-- Nothing was granted yet; the file may hold anything. -/
def BudgetState.start (p : Policy) (clock : Instant) : BudgetState :=
  { policy := p, granted := [], clock := clock }

/-- An unacknowledged grant is given up past its fifteen minutes. -/
def AutoGrant.giveUp (now : Instant) (g : AutoGrant) : AutoGrant :=
  { g with givenUp := g.givenUp ||
      (g.pending && !within (some g.atTime) now stalePendingSecs) }

/-- The grant is acknowledged. -/
def AutoGrant.settle (did token : String) (g : AutoGrant) : AutoGrant :=
  if g.did = did ∧ g.token = token then { g with pending := false } else g

/-- The grants that a cancellation leaves. -/
def AutoGrant.outlives (did token : String) (g : AutoGrant) : Bool :=
  !(g.did == did && g.token == token && g.pending)

/-- A call, with the time it is made at, what it draws and whether the file
can be written. -/
inductive PolicyOp where
  | reserve (did : String) (threadId : Option String)
      (receivedAt : Option Instant) (now : Instant) (token : String)
      (writes : Bool)
  | confirm (did token envelopeId threadId : String) (now : Instant)
      (writes : Bool)
  | cancel (did token : String) (writes : Bool)
  | setAutonomy (did : String) (value : Autonomy) (writes : Bool)

/-- The grants after a `reserve` with this answer. -/
def grantedAfter (granted : List AutoGrant) (did : String)
    (threadId : Option String) (now : Instant) (answer : Option Reservation) :
    List AutoGrant :=
  match answer with
  | none => granted
  | some ⟨.auto, _, some token⟩ =>
      granted.map (AutoGrant.giveUp now) ++
        [⟨did, threadId, now, token, true, false⟩]
  | some _ => granted.map (AutoGrant.giveUp now)

/-- One call. -/
def BudgetState.exec (s : BudgetState) : PolicyOp → BudgetState
  | .reserve did threadId receivedAt now token writes =>
      let r := s.policy.reserve did threadId receivedAt now token writes
      { policy := r.1
        granted := grantedAfter s.granted did threadId now r.2
        clock := now }
  | .confirm did token envelopeId threadId now writes =>
      if writes then
        { policy := s.policy.confirm did token envelopeId threadId now
          granted := s.granted.map (AutoGrant.settle did token)
          clock := now }
      else { s with clock := now }
  | .cancel did token writes =>
      if writes then
        { s with
          policy := s.policy.cancel did token
          granted := s.granted.filter (AutoGrant.outlives did token) }
      else s
  | .setAutonomy did value writes =>
      if writes then { s with policy := s.policy.setAutonomy did value }
      else s

/-- The clock does not go back, and a token drawn is on no record and on no
grant. -/
def PolicyOp.Lawful (s : BudgetState) : PolicyOp → Prop
  | .reserve _ _ _ now token _ => s.clock ≤ now ∧
      (∀ a ∈ s.policy.allSends, a.token ≠ token) ∧
      ∀ g ∈ s.granted, g.token ≠ token
  | .confirm _ _ _ _ now _ => s.clock ≤ now
  | _ => True

/-- The grants that count: neither cancelled nor given up. -/
def BudgetState.standing (s : BudgetState) : List AutoGrant :=
  s.granted.filter fun g => !g.givenUp

/-- The grants among some made in the window of so many seconds from
`since`, ends included. -/
def inWindow (since : Instant) (secs : Int) (grants : List AutoGrant) :
    List AutoGrant :=
  grants.filter fun g =>
    since ≤ g.atTime && g.atTime ≤ since + secs * nanosPerSecond

/-! ## The records of a contact under the calls -/

theorem lookup_cons_eq (d e : String) (c : ContactPolicy)
    (rest : List (String × ContactPolicy)) :
    ((e, c) :: rest).lookup d = if d = e then some c else rest.lookup d := by
  rw [List.lookup_cons]
  by_cases h : d = e
  · simp [h]
  · simp [h, beq_false_of_ne h]

theorem lookup_updateEntry (did : String)
    (f : ContactPolicy → ContactPolicy)
    (l : List (String × ContactPolicy)) (d : String) :
    (updateEntry did f l).lookup d =
      if d = did then some (f ((l.lookup did).getD .default))
      else l.lookup d := by
  induction l with
  | nil => rw [updateEntry, lookup_cons_eq, List.lookup_nil, List.lookup_nil]
           rfl
  | cons x rest ih =>
      obtain ⟨e, c⟩ := x
      rw [updateEntry]
      by_cases he : e = did
      · subst he
        rw [if_pos rfl, lookup_cons_eq, lookup_cons_eq, if_pos rfl,
          lookup_cons_eq]
        by_cases h : d = e
        · rw [if_pos h, if_pos h, Option.getD_some]
        · rw [if_neg h, if_neg h, if_neg h]
      · have hne : ¬ did = e := fun heq => he heq.symm
        rw [if_neg he, lookup_cons_eq, ih, lookup_cons_eq, if_neg hne,
          lookup_cons_eq]
        by_cases hde : d = e
        · have hd : ¬ d = did := fun heq => he (hde.symm.trans heq)
          rw [if_pos hde, if_neg hd, if_pos hde]
        · rw [if_neg hde, if_neg hde]

theorem sends_update (p : Policy) (did : String)
    {f : ContactPolicy → ContactPolicy} {F : List AutoSend → List AutoSend}
    (hf : ∀ c, (f c).autoSends = F c.autoSends) (d : String) :
    (p.update did f).sends d =
      if d = did then F (p.sends did) else p.sends d := by
  unfold Policy.sends Policy.update
  rw [lookup_updateEntry]
  by_cases h : d = did
  · rw [if_pos h, if_pos h]
    cases p.contacts.lookup did with
    | none => exact hf _
    | some c => exact hf c
  · rw [if_neg h, if_neg h]

theorem lookup_map_contact (f : ContactPolicy → ContactPolicy)
    (l : List (String × ContactPolicy)) (d : String) :
    (l.map fun c => (c.1, f c.2)).lookup d = (l.lookup d).map f := by
  induction l with
  | nil => rfl
  | cons x rest ih =>
      obtain ⟨e, c⟩ := x
      rw [List.map_cons, List.lookup_cons, List.lookup_cons, ih]
      cases d == e with
      | true => rfl
      | false => rfl

theorem sends_prune (p : Policy) (now : Instant) (d : String) :
    (p.prune now).sends d = (p.sends d).filter (AutoSend.kept now) := by
  have hlookup : (p.prune now).contacts.lookup d =
      (p.contacts.lookup d).map fun c => { c with
        autoSends := c.autoSends.filter (AutoSend.kept now) } :=
    lookup_map_contact (fun c => { c with
      autoSends := c.autoSends.filter (AutoSend.kept now) }) p.contacts d
  unfold Policy.sends
  rw [hlookup]
  cases p.contacts.lookup d with
  | none => rfl
  | some c => rfl

theorem sends_subset_allSends (p : Policy) (d : String) :
    p.sends d ⊆ p.allSends := by
  intro a ha
  unfold Policy.sends at ha
  cases hlookup : p.contacts.lookup d with
  | none =>
      rw [hlookup] at ha
      cases ha
  | some c =>
      rw [hlookup] at ha
      obtain ⟨l₁, l₂, hl, -⟩ := List.lookup_eq_some_iff.mp hlookup
      have hmem : (d, c) ∈ p.contacts := by
        rw [hl]
        exact List.mem_append_right _ List.mem_cons_self
      exact List.mem_flatMap.mpr ⟨(d, c), hmem, ha⟩

theorem mem_allSends_of_prune {p : Policy} {now : Instant} {a : AutoSend}
    (h : a ∈ (p.prune now).allSends) : a ∈ p.allSends := by
  obtain ⟨c, hc, ha⟩ := List.mem_flatMap.mp h
  obtain ⟨c', hc', rfl⟩ := List.mem_map.mp hc
  exact List.mem_flatMap.mpr ⟨c', hc', List.mem_of_mem_filter ha⟩

/-- The records with a token. -/
def withToken (token : String) (sends : List AutoSend) : List AutoSend :=
  sends.filter fun a => a.token == token

theorem withToken_append (token : String) (l l' : List AutoSend) :
    withToken token (l ++ l') = withToken token l ++ withToken token l' :=
  List.filter_append ..

theorem withToken_filter (token : String) (p : AutoSend → Bool)
    (l : List AutoSend) :
    withToken token (l.filter p) = (withToken token l).filter p := by
  rw [withToken, withToken, List.filter_filter, List.filter_filter]
  exact List.filter_congr fun a _ => Bool.and_comm _ _

theorem withToken_confirmFirst (token token' envelopeId : String)
    (l : List AutoSend) :
    withToken token (confirmFirst token' envelopeId l) =
      if token = token' then
        confirmFirst token' envelopeId (withToken token l)
      else withToken token l := by
  induction l with
  | nil =>
      by_cases h : token = token'
      · simp [h, withToken, confirmFirst]
      · simp [h, withToken, confirmFirst]
  | cons a rest ih =>
      unfold withToken at ih ⊢
      by_cases ha : a.token = token'
      · by_cases h : token = token'
        · simp [confirmFirst, ha, h]
        · have hne : ¬ token' = token := fun heq => h heq.symm
          simp [confirmFirst, ha, h, hne]
      · by_cases h : token = token'
        · subst h
          have hcons : ∀ l : List AutoSend, (a :: l).filter
              (fun a => a.token == token) =
                l.filter fun a => a.token == token := fun l =>
            List.filter_cons_of_neg (by simp [ha])
          rw [confirmFirst, if_neg ha, hcons, hcons, ih]
        · rw [confirmFirst, if_neg ha, List.filter_cons, List.filter_cons,
            ih, if_neg h, if_neg h]

/-- What `confirm` does to the records with a token. -/
theorem withToken_confirm (token' envelopeId threadId : String)
    (now : Instant) {token : String} {c : ContactPolicy} {a : AutoSend}
    (h : withToken token c.autoSends = [a]) :
    withToken token
        (c.confirm token' envelopeId threadId now).autoSends =
      if token = token' then
        [{ a with pending := false, envelopeId := envelopeId }]
      else [a] := by
  have hmem : a ∈ withToken token c.autoSends := by
    rw [h]
    exact List.mem_singleton_self a
  have htoken : a.token = token := by
    simpa using (List.mem_filter.mp hmem).2
  unfold ContactPolicy.confirm
  cases hfind : c.autoSends.find? (fun a => a.token == token') with
  | some b =>
      dsimp only
      rw [withToken_confirmFirst, h]
      split
      · rename_i heq
        rw [confirmFirst, if_pos (htoken.trans heq)]
      · rfl
  | none =>
      dsimp only
      have hne : ¬ token = token' := by
        rintro rfl
        have hnot := List.find?_eq_none.mp hfind a (List.mem_filter.mp hmem).1
        simp [htoken] at hnot
      have hne' : ¬ token' = token := fun heq => hne heq.symm
      rw [withToken_append, h, if_neg hne]
      simp [withToken, hne']

/-! ## A standing grant is on file -/

/-- The record is the grant's. -/
structure AutoGrant.Matches (g : AutoGrant) (a : AutoSend) : Prop where
  atTime : a.atTime = some g.atTime
  threadId : a.threadId = g.threadId.getD ""
  pending : a.pending = g.pending

/-- The contact's records hold one with the grant's token, and it is the
grant's. -/
def AutoGrant.OnFile (p : Policy) (g : AutoGrant) : Prop :=
  ∃ a, withToken g.token (p.sends g.did) = [a] ∧ g.Matches a

theorem AutoGrant.OnFile.mem {p : Policy} {g : AutoGrant}
    (h : g.OnFile p) :
    ∃ a ∈ p.sends g.did, a.token = g.token ∧ g.Matches a := by
  obtain ⟨a, ha, hmatch⟩ := h
  have hmem : a ∈ withToken g.token (p.sends g.did) := by
    rw [ha]
    exact List.mem_singleton_self a
  obtain ⟨hfile, htoken⟩ := List.mem_filter.mp hmem
  exact ⟨a, hfile, by simpa using htoken, hmatch⟩

/-- A call that leaves the records of the contact leaves the grant on
file. -/
theorem AutoGrant.OnFile.of_sends_eq {p p' : Policy} {g : AutoGrant}
    (h : g.OnFile p) (heq : p'.sends g.did = p.sends g.did) :
    g.OnFile p' := by
  obtain ⟨a, ha, hmatch⟩ := h
  exact ⟨a, by rw [heq]; exact ha, hmatch⟩

/-- What is retained and not stale outlives the prune. -/
theorem AutoGrant.OnFile.prune {p : Policy} {g : AutoGrant} {now : Instant}
    (h : g.OnFile p)
    (hretained : within (some g.atTime) now retentionSecs = true)
    (hfresh : (g.giveUp now).givenUp = false) : g.OnFile (p.prune now) := by
  obtain ⟨a, ha, hmatch⟩ := h
  have hkept : a.kept now = true := by
    simp only [AutoGrant.giveUp, Bool.or_eq_false_iff, Bool.and_eq_false_iff,
      Bool.not_eq_eq_eq_not, Bool.not_false] at hfresh
    unfold AutoSend.kept
    rw [hmatch.atTime, hmatch.pending, hretained, Bool.true_and,
      Bool.or_eq_true, Bool.not_eq_true']
    exact hfresh.2
  refine ⟨a, ?_, hmatch⟩
  rw [sends_prune, withToken_filter, ha, List.filter_cons_of_pos hkept]
  rfl

/-- Another record with another token does not hide it. -/
theorem AutoGrant.OnFile.reserve {p : Policy} {g : AutoGrant}
    {did token : String} {threadId : Option String} {now : Instant}
    (h : g.OnFile p) (hne : g.token ≠ token) :
    g.OnFile (p.update did fun c => { c with autoSends :=
      c.autoSends ++ [reservedSend threadId now token] }) := by
  have hsends := sends_update p did
    (f := fun c => { c with autoSends :=
      c.autoSends ++ [reservedSend threadId now token] })
    (F := fun l => l ++ [reservedSend threadId now token])
    (fun _ => rfl) g.did
  by_cases hd : g.did = did
  · obtain ⟨a, ha, hmatch⟩ := h
    refine ⟨a, ?_, hmatch⟩
    rw [hsends, if_pos hd, withToken_append, ← hd, ha]
    have hne' : ¬ token = g.token := fun heq => hne heq.symm
    simp [withToken, reservedSend, hne']
  · exact h.of_sends_eq (by rw [hsends, if_neg hd])

/-- The grant just made is on file. -/
theorem onFile_reserved {p : Policy} {did token : String}
    {threadId : Option String} {now : Instant}
    (hfresh : ∀ a ∈ p.allSends, a.token ≠ token) :
    AutoGrant.OnFile (p.update did fun c => { c with autoSends :=
        c.autoSends ++ [reservedSend threadId now token] })
      ⟨did, threadId, now, token, true, false⟩ := by
  refine ⟨reservedSend threadId now token, ?_, ⟨rfl, rfl, rfl⟩⟩
  have hsends := sends_update p did
    (f := fun c => { c with autoSends :=
      c.autoSends ++ [reservedSend threadId now token] })
    (F := fun l => l ++ [reservedSend threadId now token])
    (fun _ => rfl) did
  rw [hsends, if_pos rfl, withToken_append]
  have hnone : withToken token (p.sends did) = [] := by
    rw [withToken, List.filter_eq_nil_iff]
    intro a ha
    simpa using hfresh a (sends_subset_allSends p did ha)
  rw [hnone]
  simp [withToken, reservedSend]

theorem AutoGrant.OnFile.confirm {p : Policy} {g : AutoGrant}
    (h : g.OnFile p) (did token envelopeId threadId : String)
    (now : Instant) :
    (g.settle did token).OnFile
      (p.confirm did token envelopeId threadId now) := by
  obtain ⟨a, ha, hmatch⟩ := h
  have hlookup := lookup_updateEntry did
    (ContactPolicy.confirm token envelopeId threadId now) p.contacts g.did
  by_cases hd : g.did = did
  · rw [if_pos hd] at hlookup
    have hsends : (p.confirm did token envelopeId threadId now).sends g.did =
        (ContactPolicy.confirm token envelopeId threadId now
          ((p.contacts.lookup did).getD .default)).autoSends := by
      unfold Policy.sends Policy.confirm Policy.update
      rw [hlookup]
      rfl
    have hbefore : withToken g.token
        ((p.contacts.lookup did).getD .default).autoSends = [a] := by
      rw [← ha, hd, Policy.sends]
      cases p.contacts.lookup did with
      | none => rfl
      | some c => rfl
    have hafter := withToken_confirm token envelopeId threadId now hbefore
    by_cases ht : g.token = token
    · have hsettle : g.settle did token = { g with pending := false } :=
        if_pos ⟨hd, ht⟩
      rw [if_pos ht] at hafter
      rw [hsettle]
      exact ⟨{ a with pending := false, envelopeId := envelopeId },
        by rw [hsends]; exact hafter,
        ⟨hmatch.atTime, hmatch.threadId, rfl⟩⟩
    · have hsettle : g.settle did token = g :=
        if_neg fun hboth => ht hboth.2
      rw [if_neg ht] at hafter
      rw [hsettle]
      exact ⟨a, by rw [hsends]; exact hafter, hmatch⟩
  · have hsettle : g.settle did token = g := if_neg fun hboth => hd hboth.1
    rw [hsettle]
    refine AutoGrant.OnFile.of_sends_eq ⟨a, ha, hmatch⟩ ?_
    rw [if_neg hd] at hlookup
    unfold Policy.sends Policy.confirm Policy.update
    rw [hlookup]

theorem AutoGrant.OnFile.cancel {p : Policy} {g : AutoGrant}
    {did token : String} (h : g.OnFile p)
    (hlives : g.outlives did token = true) : g.OnFile (p.cancel did token) := by
  unfold Policy.cancel
  split
  · have hsends := sends_update p did
      (f := fun c => { c with
        autoSends := c.autoSends.filter fun a =>
          a.token != token || !a.pending })
      (F := fun l => l.filter fun a => a.token != token || !a.pending)
      (fun _ => rfl) g.did
    by_cases hd : g.did = did
    · obtain ⟨a, ha, hmatch⟩ := h
      have hmem : a ∈ withToken g.token (p.sends g.did) := by
        rw [ha]
        exact List.mem_singleton_self a
      have htoken : a.token = g.token := by
        simpa using (List.mem_filter.mp hmem).2
      have hstays : (a.token != token || !a.pending) = true := by
        rw [htoken, hmatch.pending]
        simpa [AutoGrant.outlives, hd] using hlives
      refine ⟨a, ?_, hmatch⟩
      rw [hsends, if_pos hd, withToken_filter, ← hd, ha]
      exact List.filter_eq_self.mpr fun b hb => by
        rw [List.mem_singleton.mp hb]
        exact hstays
    · exact h.of_sends_eq (by rw [hsends, if_neg hd])
  · exact h

theorem AutoGrant.OnFile.setAutonomy {p : Policy} {g : AutoGrant}
    (h : g.OnFile p) (did : String) (value : Autonomy) :
    g.OnFile (p.setAutonomy did value) := by
  refine h.of_sends_eq ?_
  have hsends := sends_update p did
    (f := fun c => { c with aiAutonomy := value }) (F := id) (fun _ => rfl)
    g.did
  rw [Policy.setAutonomy, hsends]
  split
  · rename_i hd
    rw [hd]
    rfl
  · rfl

/-! ## Counting -/

/-- Grants with distinct tokens that have their records among some are no
more than those. -/
theorem length_le_of_onFile {grants : List AutoGrant}
    {sends : List AutoSend} (hnodup : (grants.map AutoGrant.token).Nodup)
    (hmem : ∀ g ∈ grants, ∃ a ∈ sends, a.token = g.token) :
    grants.length ≤ sends.length := by
  have hsub : grants.map AutoGrant.token ⊆ sends.map AutoSend.token := by
    intro token htoken
    obtain ⟨g, hg, rfl⟩ := List.mem_map.mp htoken
    obtain ⟨a, ha, heq⟩ := hmem g hg
    exact List.mem_map.mpr ⟨a, ha, heq⟩
  have hlen := (List.subperm_of_subset hnodup hsub).length_le
  rwa [List.length_map, List.length_map] at hlen

/-- Among the grants picked out, no window of so many seconds holds more than
`cap`. -/
def Capped (pick : AutoGrant → Bool) (secs : Int) (cap : Nat)
    (grants : List AutoGrant) : Prop :=
  ∀ since, (inWindow since secs (grants.filter pick)).length ≤ cap

theorem Capped.sublist {pick : AutoGrant → Bool} {secs : Int} {cap : Nat}
    {grants grants' : List AutoGrant} (h : Capped pick secs cap grants)
    (hsub : grants'.Sublist grants) : Capped pick secs cap grants' := by
  intro since
  have hle := ((hsub.filter pick).filter fun g : AutoGrant =>
    since ≤ g.atTime && g.atTime ≤ since + secs * nanosPerSecond).length_le
  exact Nat.le_trans hle (h since)

/-- What a window that ends after a point in time holds up to there is
counted there. -/
theorem within_of_inWindow {t now since secs : Int} (hlo : since ≤ t)
    (hnow : t ≤ now) (hend : now ≤ since + secs * nanosPerSecond) :
    within (some t) now secs = true := by
  have hdelta : 0 ≤ now - t := by omega
  have hle : now - t ≤ secs * nanosPerSecond := by omega
  have hdiv : (now - t).tdiv nanosPerSecond = (now - t) / nanosPerSecond :=
    Int.tdiv_eq_ediv_of_nonneg hdelta
  have hsecond : (0 : Int) < nanosPerSecond := by decide
  have hlower : 0 ≤ (now - t) / nanosPerSecond := Int.ediv_nonneg hdelta
    (Int.le_of_lt hsecond)
  have hupper : (now - t) / nanosPerSecond ≤ secs :=
    Int.ediv_le_of_le_mul hsecond hle
  simp [within, hdiv, hlower, hupper]

/-- One more grant, made now, where fewer than `cap` of those picked out
are within the window that ends now. -/
theorem capped_push {pick : AutoGrant → Bool} {secs : Int} {cap : Nat}
    {grants : List AutoGrant} {new : AutoGrant}
    (h : Capped pick secs cap grants)
    (hpast : ∀ g ∈ grants, g.atTime ≤ new.atTime)
    (hroom : pick new = true → ((grants.filter pick).filter fun g =>
      within (some g.atTime) new.atTime secs).length < cap) :
    Capped pick secs cap (grants ++ [new]) := by
  intro since
  rw [inWindow, List.filter_append, List.filter_append, List.length_append]
  have hold := h since
  by_cases hpick : pick new = true
  · by_cases hin : (since ≤ new.atTime &&
        new.atTime ≤ since + secs * nanosPerSecond) = true
    · have hsub : ((grants.filter pick).filter fun g : AutoGrant =>
          since ≤ g.atTime && g.atTime ≤ since + secs * nanosPerSecond).length ≤
          ((grants.filter pick).filter fun g =>
            within (some g.atTime) new.atTime secs).length := by
        rw [← List.countP_eq_length_filter, ← List.countP_eq_length_filter]
        refine List.countP_mono_left fun g hg hwin => ?_
        rw [Bool.and_eq_true, decide_eq_true_eq, decide_eq_true_eq] at hwin hin
        exact within_of_inWindow hwin.1
          (hpast g (List.mem_of_mem_filter hg)) hin.2
      have hnew : (([new].filter pick).filter fun g : AutoGrant =>
          since ≤ g.atTime && g.atTime ≤ since + secs * nanosPerSecond).length ≤
          1 := by
        refine ((List.filter_sublist).trans List.filter_sublist).length_le
      have hroom' := hroom hpick
      omega
    · have hnew : (([new].filter pick).filter fun g : AutoGrant =>
          since ≤ g.atTime && g.atTime ≤ since + secs * nanosPerSecond) = [] := by
        rw [List.filter_cons_of_pos hpick, List.filter_nil]
        exact List.filter_eq_nil_iff.mpr fun g hg => by
          rw [List.mem_singleton.mp hg]
          exact hin
      rw [hnew]
      exact hold
  · have hnew : [new].filter pick = [] := List.filter_cons_of_neg hpick
    rw [hnew]
    exact hold

theorem Capped.map {pick : AutoGrant → Bool} {secs : Int} {cap : Nat}
    {grants : List AutoGrant} {f : AutoGrant → AutoGrant}
    (h : Capped pick secs cap grants) (hpick : ∀ g, pick (f g) = pick g)
    (htime : ∀ g, (f g).atTime = g.atTime) :
    Capped pick secs cap (grants.map f) := by
  intro since
  have hsame : inWindow since secs ((grants.map f).filter pick) =
      (inWindow since secs (grants.filter pick)).map f := by
    unfold inWindow
    rw [List.filter_map, List.filter_map]
    congr 1
    have hpicks : (pick ∘ f) = pick := funext hpick
    rw [hpicks]
    refine List.filter_congr fun g _ => ?_
    simp only [Function.comp_apply, htime]
  rw [hsame, List.length_map]
  exact h since

/-- Every cap is kept. -/
structure Caps (grants : List AutoGrant) : Prop where
  hourly : ∀ did, Capped (fun g => g.did == did) hourlyWindowSecs
    perContactHourly grants
  daily : ∀ did, Capped (fun g => g.did == did) retentionSecs
    perContactDaily grants
  overall : Capped (fun _ => true) retentionSecs globalDaily grants
  thread : ∀ did tid, Capped (fun g => g.did == did &&
    g.threadId == some tid) structuralWindowSecs 1 grants

/-- The change leaves to whom, in which thread and when. -/
structure KeepsSend (f : AutoGrant → AutoGrant) : Prop where
  did : ∀ g, (f g).did = g.did
  threadId : ∀ g, (f g).threadId = g.threadId
  atTime : ∀ g, (f g).atTime = g.atTime
  token : ∀ g, (f g).token = g.token

theorem Caps.sublist {grants grants' : List AutoGrant} (h : Caps grants)
    (hsub : grants'.Sublist grants) : Caps grants' :=
  { hourly := fun did => (h.hourly did).sublist hsub
    daily := fun did => (h.daily did).sublist hsub
    overall := h.overall.sublist hsub
    thread := fun did tid => (h.thread did tid).sublist hsub }

theorem Caps.map {grants : List AutoGrant} {f : AutoGrant → AutoGrant}
    (h : Caps grants) (hf : KeepsSend f) : Caps (grants.map f) :=
  { hourly := fun did => (h.hourly did).map
      (fun g => by simp only [hf.did]) hf.atTime
    daily := fun did => (h.daily did).map
      (fun g => by simp only [hf.did]) hf.atTime
    overall := h.overall.map (fun _ => rfl) hf.atTime
    thread := fun did tid => (h.thread did tid).map
      (fun g => by simp only [hf.did, hf.threadId]) hf.atTime }

theorem keepsSend_giveUp (now : Instant) :
    KeepsSend (AutoGrant.giveUp now) :=
  ⟨fun _ => rfl, fun _ => rfl, fun _ => rfl, fun _ => rfl⟩

theorem keepsSend_settle (did token : String) :
    KeepsSend (AutoGrant.settle did token) := by
  refine ⟨fun g => ?_, fun g => ?_, fun g => ?_, fun g => ?_⟩
  all_goals
    unfold AutoGrant.settle
    split
    · rfl
    · rfl

theorem settle_givenUp (did token : String) (g : AutoGrant) :
    (g.settle did token).givenUp = g.givenUp := by
  unfold AutoGrant.settle
  split
  · rfl
  · rfl

/-! ## What a call does -/

/-- A record that is in a window now was in it before. -/
theorem within_before {t clock now secs : Int} (hpast : t ≤ clock)
    (hclock : clock ≤ now) (h : within (some t) now secs = true) :
    within (some t) clock secs = true := by
  have hsecond : (0 : Int) < nanosPerSecond := by decide
  have h0 : 0 ≤ clock - t := by omega
  have h1 : 0 ≤ now - t := by omega
  simp only [within, Int.tdiv_eq_ediv_of_nonneg h1, Bool.and_eq_true,
    decide_eq_true_eq] at h
  have hle : (clock - t) / nanosPerSecond ≤ (now - t) / nanosPerSecond :=
    Int.ediv_le_ediv hsecond (by omega)
  have hlower : 0 ≤ (clock - t) / nanosPerSecond := Int.ediv_nonneg h0
    (Int.le_of_lt hsecond)
  simp only [within, Int.tdiv_eq_ediv_of_nonneg h0, Bool.and_eq_true,
    decide_eq_true_eq]
  omega

theorem within_mono {t : Option Instant} {now secs secs' : Int}
    (hle : secs ≤ secs') (h : within t now secs = true) :
    within t now secs' = true := by
  cases t with
  | none => cases h
  | some t =>
      simp only [within, Bool.and_eq_true, decide_eq_true_eq] at h ⊢
      omega

/-- A decision to send leaves room below every cap. -/
theorem decide_auto {p : Policy} {did : String} {threadId : Option String}
    {receivedAt : Option Instant} {now : Instant} {reason : String}
    (h : p.decide did threadId receivedAt now = (.auto, reason)) :
    justReplied (p.sends did) threadId now = false ∧
      countWithin (p.sends did) now hourlyWindowSecs < perContactHourly ∧
      countWithin (p.sends did) now retentionSecs < perContactDaily ∧
      countWithin p.allSends now retentionSecs < globalDaily := by
  unfold Policy.decide at h
  split at h
  · cases h
  · cases h
  · split at h
    · cases h
    · split at h
      · cases h
      · rename_i hreplied
        split at h
        · cases h
        · split at h
          · cases h
          · split at h
            · cases h
            · exact ⟨by simpa using hreplied, by omega, by omega, by omega⟩

/-- What a `reserve` does: nothing, for the file cannot be written; the prune
alone; or the prune and the new record. -/
theorem reserve_cases (p : Policy) (did : String)
    (threadId : Option String) (receivedAt : Option Instant) (now : Instant)
    (token : String) (writes : Bool) :
    p.reserve did threadId receivedAt now token writes = (p, none) ∨
      (∃ decision reason, p.reserve did threadId receivedAt now token writes =
        (p.prune now, some ⟨decision, reason, none⟩)) ∨
      ∃ reason, (p.prune now).decide did threadId receivedAt now =
          (.auto, reason) ∧
        p.reserve did threadId receivedAt now token writes =
          ((p.prune now).update did fun c =>
            { c with autoSends :=
                c.autoSends ++ [reservedSend threadId now token] },
            some ⟨.auto, reason, some token⟩) := by
  unfold Policy.reserve
  dsimp only
  split
  · rename_i reason hdecide
    split
    · exact .inr (.inr ⟨reason, hdecide, rfl⟩)
    · exact .inl rfl
  · rename_i decision reason _ hdecide
    split
    · rename_i heq
      refine .inr (.inl ⟨decision, reason, ?_⟩)
      rw [heq]
    · split
      · exact .inr (.inl ⟨decision, reason, rfl⟩)
      · exact .inl rfl

/-! ## The invariant -/

/-- Tokens are distinct, no grant is from the future, a grant that stands is
on file for as long as records are retained, and every cap is kept. -/
structure BudgetInv (s : BudgetState) : Prop where
  past : ∀ g ∈ s.granted, g.atTime ≤ s.clock
  tokens : (s.granted.map AutoGrant.token).Nodup
  onFile : ∀ g ∈ s.granted, g.givenUp = false →
    within (some g.atTime) s.clock retentionSecs = true → g.OnFile s.policy
  caps : Caps s.standing

/-- The grants after a prune: some are given up. -/
def BudgetState.pruned (s : BudgetState) (now : Instant) : BudgetState :=
  { policy := s.policy.prune now
    granted := s.granted.map (AutoGrant.giveUp now)
    clock := now }

theorem standing_map {f : AutoGrant → AutoGrant} (s : BudgetState)
    (p : Policy) (clock : Instant) :
    BudgetState.standing ⟨p, s.granted.map f, clock⟩ =
      (s.granted.filter fun g => !(f g).givenUp).map f := by
  unfold BudgetState.standing
  rw [List.filter_map]
  rfl

theorem tokens_map {f : AutoGrant → AutoGrant} (hf : KeepsSend f)
    (grants : List AutoGrant) :
    (grants.map f).map AutoGrant.token = grants.map AutoGrant.token := by
  rw [List.map_map]
  exact List.map_congr_left fun g _ => hf.token g

theorem BudgetInv.pruned {s : BudgetState} (h : BudgetInv s)
    {now : Instant} (hclock : s.clock ≤ now) :
    BudgetInv (s.pruned now) := by
  have hkeeps := keepsSend_giveUp now
  refine ⟨?_, ?_, ?_, ?_⟩
  · intro g hg
    obtain ⟨g₀, hg₀, rfl⟩ := List.mem_map.mp hg
    exact Int.le_trans (h.past g₀ hg₀) hclock
  · show ((s.granted.map _).map _).Nodup
    rw [tokens_map hkeeps]
    exact h.tokens
  · intro g hg hstands hrecent
    obtain ⟨g₀, hg₀, rfl⟩ := List.mem_map.mp hg
    have hbefore : g₀.givenUp = false :=
      (Bool.or_eq_false_iff.mp hstands).1
    have hfile := h.onFile g₀ hg₀ hbefore
      (within_before (h.past g₀ hg₀) hclock hrecent)
    obtain ⟨a, ha, hmatch⟩ := hfile.prune hrecent hstands
    exact ⟨a, ha, ⟨hmatch.atTime, hmatch.threadId, hmatch.pending⟩⟩
  · rw [BudgetState.pruned, standing_map]
    refine Caps.map (h.caps.sublist ?_) hkeeps
    refine List.monotone_filter_right _ fun g hg => ?_
    simp only [AutoGrant.giveUp, Bool.not_eq_true', Bool.or_eq_false_iff]
      at hg ⊢
    exact hg.1

/-- The standing grants picked out that are within a window have their
records within it. -/
theorem BudgetInv.length_le_countWithin {s : BudgetState} (h : BudgetInv s)
    {pick : AutoGrant → Bool} {secs : Int} {sends : List AutoSend}
    (hsecs : secs ≤ retentionSecs)
    (hsends : ∀ g, pick g = true → s.policy.sends g.did ⊆ sends) :
    ((s.standing.filter pick).filter fun g =>
        within (some g.atTime) s.clock secs).length ≤
      countWithin sends s.clock secs := by
  refine length_le_of_onFile ?_ ?_
  · have hsub : ((s.standing.filter pick).filter fun g =>
        within (some g.atTime) s.clock secs).Sublist s.granted :=
      List.filter_sublist.trans (List.filter_sublist.trans List.filter_sublist)
    exact h.tokens.sublist (hsub.map AutoGrant.token)
  · intro g hg
    obtain ⟨hpicked, hin⟩ := List.mem_filter.mp hg
    obtain ⟨hstanding, hpick⟩ := List.mem_filter.mp hpicked
    obtain ⟨hgranted, hstands⟩ := List.mem_filter.mp hstanding
    obtain ⟨a, ha, htoken, hmatch⟩ := (h.onFile g hgranted
      (by simpa using hstands) (within_mono hsecs hin)).mem
    refine ⟨a, List.mem_filter.mpr ⟨hsends g hpick ha, ?_⟩, htoken⟩
    rw [hmatch.atTime]
    exact hin

/-- Where no send was just granted in the thread, none of the standing grants
in it is within the structural window. -/
theorem BudgetInv.none_in_thread {s : BudgetState} (h : BudgetInv s)
    {did tid : String}
    (hreplied : justReplied (s.policy.sends did) (some tid) s.clock =
      false) :
    (s.standing.filter fun g => g.did == did && g.threadId == some tid).filter
      (fun g => within (some g.atTime) s.clock structuralWindowSecs) = [] := by
  refine List.filter_eq_nil_iff.mpr fun g hg hin => ?_
  obtain ⟨hstanding, hpick⟩ := List.mem_filter.mp hg
  obtain ⟨hgranted, hstands⟩ := List.mem_filter.mp hstanding
  rw [Bool.and_eq_true, beq_iff_eq, beq_iff_eq] at hpick
  have hsecs : structuralWindowSecs ≤ retentionSecs := by decide
  obtain ⟨a, ha, -, hmatch⟩ := (h.onFile g hgranted
    (by simpa using hstands) (within_mono hsecs hin)).mem
  have hthread : a.threadId = tid := by
    rw [hmatch.threadId, hpick.2, Option.getD_some]
  rw [hpick.1] at ha
  have hnone := List.any_eq_false.mp hreplied a ha
  rw [hthread, hmatch.atTime, hin] at hnone
  simp at hnone

/-- A grant where the decision leaves room keeps every cap. -/
theorem BudgetInv.caps_push {s : BudgetState} (h : BudgetInv s)
    {did token reason : String} {threadId : Option String}
    {receivedAt : Option Instant}
    (hdecide : s.policy.decide did threadId receivedAt s.clock =
      (.auto, reason)) :
    Caps (s.standing ++ [⟨did, threadId, s.clock, token, true, false⟩]) := by
  obtain ⟨hreplied, hhourly, hdaily, hglobal⟩ := decide_auto hdecide
  have hpast : ∀ g ∈ s.standing, g.atTime ≤ s.clock := fun g hg =>
    h.past g (List.mem_of_mem_filter hg)
  have hsecs : hourlyWindowSecs ≤ retentionSecs := by decide
  refine ⟨fun d => ?_, fun d => ?_, ?_, fun d tid => ?_⟩
  · refine capped_push (h.caps.hourly d) hpast fun hpick => ?_
    have hd : did = d := by simpa using hpick
    exact Nat.lt_of_le_of_lt (h.length_le_countWithin hsecs fun g hg => by
      rw [hd, show g.did = d by simpa using hg]
      exact fun a ha => ha) hhourly
  · refine capped_push (h.caps.daily d) hpast fun hpick => ?_
    have hd : did = d := by simpa using hpick
    exact Nat.lt_of_le_of_lt (h.length_le_countWithin (Int.le_refl _)
      fun g hg => by
        rw [hd, show g.did = d by simpa using hg]
        exact fun a ha => ha) hdaily
  · refine capped_push h.caps.overall hpast fun _ => ?_
    exact Nat.lt_of_le_of_lt (h.length_le_countWithin (Int.le_refl _)
      fun g _ => sends_subset_allSends s.policy g.did) hglobal
  · refine capped_push (h.caps.thread d tid) hpast fun hpick => ?_
    rw [Bool.and_eq_true, beq_iff_eq, beq_iff_eq] at hpick
    have hthread : threadId = some tid := hpick.2
    rw [hthread, show did = d from hpick.1] at hreplied
    rw [h.none_in_thread hreplied]
    exact Nat.zero_lt_one

theorem BudgetInv.granted {s : BudgetState} (h : BudgetInv s)
    {did token reason : String} {threadId : Option String}
    {receivedAt : Option Instant}
    (hdecide : s.policy.decide did threadId receivedAt s.clock =
      (.auto, reason))
    (hfile : ∀ a ∈ s.policy.allSends, a.token ≠ token)
    (hgrants : ∀ g ∈ s.granted, g.token ≠ token) :
    BudgetInv
      { policy := s.policy.update did fun c => { c with autoSends :=
          c.autoSends ++ [reservedSend threadId s.clock token] }
        granted := s.granted ++
          [⟨did, threadId, s.clock, token, true, false⟩]
        clock := s.clock } := by
  refine ⟨?_, ?_, ?_, ?_⟩
  · intro g hg
    rcases List.mem_append.mp hg with hold | hnew
    · exact h.past g hold
    · apply Int.le_of_eq
      rw [List.mem_singleton.mp hnew]
  · rw [List.map_append, List.nodup_append]
    refine ⟨h.tokens, List.nodup_singleton _, ?_⟩
    intro t ht t' ht'
    obtain ⟨g, hg, rfl⟩ := List.mem_map.mp ht
    rw [List.mem_singleton.mp ht']
    exact hgrants g hg
  · intro g hg hstands hrecent
    rcases List.mem_append.mp hg with hold | hnew
    · exact (h.onFile g hold hstands hrecent).reserve (hgrants g hold)
    · rw [List.mem_singleton.mp hnew]
      exact onFile_reserved hfile
  · have hstanding : ∀ p : Policy, BudgetState.standing
        ⟨p, s.granted ++ [⟨did, threadId, s.clock, token, true, false⟩],
          s.clock⟩ =
        s.standing ++ [⟨did, threadId, s.clock, token, true, false⟩] := by
      intro p
      rw [BudgetState.standing, List.filter_append]
      rfl
    rw [hstanding]
    exact h.caps_push hdecide

/-- Time passes. -/
theorem BudgetInv.tick {s : BudgetState} (h : BudgetInv s) {now : Instant}
    (hclock : s.clock ≤ now) : BudgetInv { s with clock := now } :=
  { past := fun g hg => Int.le_trans (h.past g hg) hclock
    tokens := h.tokens
    onFile := fun g hg hstands hrecent => h.onFile g hg hstands
      (within_before (h.past g hg) hclock hrecent)
    caps := h.caps }

theorem BudgetInv.confirm {s : BudgetState} (h : BudgetInv s)
    (did token envelopeId threadId : String) (now : Instant) :
    BudgetInv { s with
      policy := s.policy.confirm did token envelopeId threadId now
      granted := s.granted.map (AutoGrant.settle did token) } := by
  have hkeeps := keepsSend_settle did token
  refine ⟨?_, ?_, ?_, ?_⟩
  · intro g hg
    obtain ⟨g₀, hg₀, rfl⟩ := List.mem_map.mp hg
    rw [hkeeps.atTime]
    exact h.past g₀ hg₀
  · rw [tokens_map hkeeps]
    exact h.tokens
  · intro g hg hstands hrecent
    obtain ⟨g₀, hg₀, rfl⟩ := List.mem_map.mp hg
    rw [settle_givenUp] at hstands
    rw [hkeeps.atTime] at hrecent
    exact (h.onFile g₀ hg₀ hstands hrecent).confirm did token envelopeId
      threadId now
  · rw [standing_map]
    have hsame : (s.granted.filter fun g =>
        !(AutoGrant.settle did token g).givenUp) = s.standing :=
      List.filter_congr fun g _ => by rw [settle_givenUp]
    rw [hsame]
    exact h.caps.map hkeeps

theorem BudgetInv.cancel {s : BudgetState} (h : BudgetInv s)
    (did token : String) :
    BudgetInv { s with
      policy := s.policy.cancel did token
      granted := s.granted.filter (AutoGrant.outlives did token) } :=
  { past := fun g hg => h.past g (List.mem_of_mem_filter hg)
    tokens := h.tokens.sublist (List.filter_sublist.map _)
    onFile := fun g hg hstands hrecent => by
      obtain ⟨hgranted, hlives⟩ := List.mem_filter.mp hg
      exact (h.onFile g hgranted hstands hrecent).cancel hlives
    caps := h.caps.sublist (List.filter_sublist.filter _) }

theorem budgetInv_exec (s : BudgetState) (op : PolicyOp)
    (h : BudgetInv s) (hlaw : op.Lawful s) : BudgetInv (s.exec op) := by
  cases op with
  | reserve did threadId receivedAt now token writes =>
      obtain ⟨hclock, hfile, hgrants⟩ := hlaw
      have hpruned := h.pruned hclock
      rcases reserve_cases s.policy did threadId receivedAt now token writes
        with hnone | ⟨decision, reason, hprune⟩ | ⟨reason, hdecide, hauto⟩
      · simp only [BudgetState.exec, hnone]
        exact h.tick hclock
      · simp only [BudgetState.exec, hprune]
        have hsame : grantedAfter s.granted did threadId now
            (some ⟨decision, reason, none⟩) =
              s.granted.map (AutoGrant.giveUp now) := by
          cases decision with
          | off => rfl
          | draft => rfl
          | auto => rfl
        rw [hsame]
        exact hpruned
      · simp only [BudgetState.exec, hauto]
        refine BudgetInv.granted hpruned hdecide ?_ ?_
        · intro a ha
          exact hfile a (mem_allSends_of_prune ha)
        · intro g hg
          obtain ⟨g₀, hg₀, rfl⟩ := List.mem_map.mp hg
          exact hgrants g₀ hg₀
  | confirm did token envelopeId threadId now writes =>
      cases writes with
      | true =>
          exact (h.confirm did token envelopeId threadId now).tick hlaw
      | false => exact h.tick hlaw
  | cancel did token writes =>
      cases writes with
      | true => exact h.cancel did token
      | false => exact h
  | setAutonomy did value writes =>
      cases writes with
      | true =>
          exact
            { past := h.past
              tokens := h.tokens
              onFile := fun g hg hstands hrecent =>
                (h.onFile g hg hstands hrecent).setAutonomy did value
              caps := h.caps }
      | false => exact h

theorem budgetInv_start (p : Policy) (clock : Instant) :
    BudgetInv (.start p clock) :=
  { past := fun _ hg => by cases hg
    tokens := List.nodup_nil
    onFile := fun _ hg => by cases hg
    caps := ⟨fun _ _ => Nat.zero_le _, fun _ _ => Nat.zero_le _,
      fun _ => Nat.zero_le _, fun _ _ _ => Nat.zero_le _⟩ }

/-! ## The budget -/

/-- Over any sequence of calls, on any file and with a clock that does not go
back, the grants neither cancelled nor given up keep the caps: three to a
contact in every hour, ten to a contact and thirty overall in every day, and
one to a contact in a thread in every half hour. -/
theorem auto_send_budget (p : Policy) (clock : Instant)
    (ops : List PolicyOp)
    (h : Trace.Meets BudgetState.exec (fun s op => op.Lawful s)
      (.start p clock) ops) (since : Instant) (did tid : String) :
    let granted :=
      (Trace.run BudgetState.exec (.start p clock) ops).standing
    (inWindow since 3600 (granted.filter fun g => g.did == did)).length ≤ 3 ∧
      (inWindow since 86400
        (granted.filter fun g => g.did == did)).length ≤ 10 ∧
      (inWindow since 86400 granted).length ≤ 30 ∧
      (inWindow since 1800 (granted.filter fun g =>
        g.did == did && g.threadId == some tid)).length ≤ 1 := by
  have hinv := Trace.run_inv_of_meets BudgetInv budgetInv_exec
    (budgetInv_start p clock) h
  have hall := hinv.caps.overall since
  rw [List.filter_true] at hall
  exact ⟨hinv.caps.hourly did since, hinv.caps.daily did since, hall,
    hinv.caps.thread did tid since⟩

/-- Three sends to one contact, none acknowledged, and a fourth sixteen
minutes later. -/
def slowAcks : List PolicyOp :=
  [.reserve "d" none (some 0) 0 "t1" true,
    .reserve "d" none (some 0) 0 "t2" true,
    .reserve "d" none (some 0) 0 "t3" true,
    .reserve "d" none (some (960 * nanosPerSecond)) (960 * nanosPerSecond)
      "t4" true]

/-- The dial of the contact is on auto. -/
def autoPolicy : Policy :=
  { version := 1, contacts := [("d", ⟨.auto, [], []⟩)] }

theorem auto_send_budget_sample :
    (inWindow 0 3600
      ((Trace.run BudgetState.exec (.start autoPolicy 0)
        slowAcks).standing.filter fun g => g.did == "d")).length ≤ 3 :=
  (auto_send_budget autoPolicy 0 slowAcks (by
    simp only [slowAcks, Trace.Meets, PolicyOp.Lawful]
    decide +kernel) 0 "d" "").1

/-- The grants that were given up are on top of the caps: a send that is not
acknowledged in time leaves the count. -/
theorem auto_send_given_up :
    ¬ ∀ (p : Policy) (clock : Instant) (ops : List PolicyOp),
      Trace.Meets BudgetState.exec (fun s op => op.Lawful s)
        (.start p clock) ops →
      ∀ (since : Instant) (did : String),
        (inWindow since 3600
          ((Trace.run BudgetState.exec (.start p clock) ops).granted.filter
            fun g => g.did == did)).length ≤ 3 := by
  intro h
  have hfour := h autoPolicy 0 slowAcks (by
    simp only [slowAcks, Trace.Meets, PolicyOp.Lawful]
    decide +kernel) 0 "d"
  revert hfour
  decide +kernel

end AirNote
