import AirNote.MandateApply
import AirNote.Lib.Trace

/-!
# The life of a proposal

One tick runs at a time. It decides about a target and a key on the log it
reads, appends the event of its decision, and then stores the bytes of a
proposal; a crash or a failure may come between. Meanwhile the user applies
and declines proposals, and everything else is appended to the log.

A refusal for an empty synthesis is decided before the tick asks whether the
key is suppressed, so it may be recorded over and over. A decline does not
ask whether its proposal is pending, so a tick may have decided already when
a proposal that was applied is declined.

## Main results

* `proposal_lifecycle` — what is pending is suppressed; one proposal for a
  target and a key is pending at most; nothing is proposed after a refusal,
  nor after a mandate's pending proposal was declined; what is pending has its
  bytes, unless the tick that proposes it has not stored them.
* `lifecycle_not_closed` — a crash leaves a pending proposal without its bytes,
  and an empty synthesis is refused twice.
-/

namespace AirNote

open Lib.Trace

variable {digest : Bytes → String} {render : Json → String}

/-! ## The system -/

/-- What the running tick has in hand. -/
inductive Emitting where
  | idle
  | decided (e : Emission)
  | appended (id : String) (d : ProposalDraft)

/-- The brain and its tables, the running tick, and the proposals whose bytes
a crash or a failure has kept from being stored. -/
structure LifecycleState where
  review : ReviewState
  emitting : Emitting
  torn : List String

/-- The log. -/
def LifecycleState.log (σ : LifecycleState) : EventLog := σ.review.brain.log

/-- A step: of the tick, a crash, a decline of the user, the append of any
other event, or a change of the tables and the files. -/
inductive LifecycleStep where
  | mandate (m : Mandate) (answer : Except BossclawError Json) (emitted : Nat)
  | reconcile (r : ProposedRetraction) (rec : FileRecord)
      (lineage : List String) (answer : Except BossclawError Json)
      (emitted : Nat)
  | record (m : Mint)
  | store (stores : Bool)
  | crash
  | decline (m : Mint) (proposalId reason : String)
  | append (m : Mint) (event : Event)
  | tables (brain : BrainState)

/-- The types only a tick and a decline append. -/
def tickTypes : List String :=
  [writeProposalEventType, writeRejectedEventType, writeDeclinedEventType]

/-- The state once a decision is made, where the tick is idle. -/
def LifecycleState.decide (σ : LifecycleState)
    (r : Except BossclawError Emission × ReviewState) : LifecycleState :=
  match σ.emitting, r with
  | .idle, (.error _, s') => { σ with review := s' }
  | .idle, (.ok e, s') => { σ with review := s', emitting := .decided e }
  | _, _ => σ

/-- The state once the decision is appended. -/
def LifecycleState.record (σ : LifecycleState) (m : Mint) : LifecycleState :=
  match σ.emitting with
  | .decided e =>
      match appendEmission m σ.review e with
      | .error _ => { σ with emitting := .idle }
      | .ok (s', none) => { σ with review := s', emitting := .idle }
      | .ok (s', some (id, d)) =>
          { σ with review := s', emitting := .appended id d }
  | _ => σ

/-- The state once the tick has stored the bytes, or failed to. -/
def LifecycleState.store (σ : LifecycleState) (stores : Bool) :
    LifecycleState :=
  match σ.emitting with
  | .appended id d =>
      if stores then
        { σ with
          review := putProposalBytes σ.review id d.content d.contentHash
          emitting := .idle }
      else { σ with emitting := .idle, torn := id :: σ.torn }
  | _ => σ

/-- The state after a step. -/
def LifecycleState.exec (digest : Bytes → String) (σ : LifecycleState) :
    LifecycleStep → LifecycleState
  | .mandate m answer emitted =>
      σ.decide (decideMandate digest σ.review m answer emitted)
  | .reconcile r rec lineage answer emitted =>
      σ.decide
        (decideReconcile digest σ.review r rec lineage answer emitted, σ.review)
  | .record m => σ.record m
  | .store stores => σ.store stores
  | .crash =>
      match σ.emitting with
      | .appended id _ => { σ with emitting := .idle, torn := id :: σ.torn }
      | _ => { σ with emitting := .idle }
  | .decline m proposalId reason =>
      { σ with
        review := (declineWriteProposal m σ.review proposalId reason).2 }
  | .append m event =>
      if tickTypes.contains event.eventType then σ
      else
        match append m σ.log event with
        | .error _ => σ
        | .ok (log', _) => { σ with review := σ.review.logged log' }
  | .tables brain =>
      { σ with review :=
          { σ.review with brain := { brain with log := σ.log } } }

/-- A state the engine comes to from an empty log. -/
def LifecycleState.Reachable (digest : Bytes → String) (σ : LifecycleState) :
    Prop :=
  ∃ (start : LifecycleState) (steps : List LifecycleStep),
    start.log = [] ∧ start.emitting = .idle ∧
      σ = run (LifecycleState.exec digest) start steps

/-- The three steps of an emission make up `run_mandate`. -/
theorem runMandate_steps (mint : Mint) (stores : Bool) (s : ReviewState)
    (m : Mandate) (answer : Except BossclawError Json) (emitted : Nat)
    (torn : List String) :
    (run (LifecycleState.exec digest) ⟨s, .idle, torn⟩
      [.mandate m answer emitted, .record mint, .store stores]).review =
      (runMandate digest mint stores s m answer emitted).2 := by
  simp only [run_cons, run_nil, LifecycleState.exec, LifecycleState.decide,
    runMandate]
  cases decideMandate digest s m answer emitted with
  | mk r s' =>
      cases r with
      | error e => rfl
      | ok e =>
          simp only [LifecycleState.record, recordEmission]
          rcases appendEmission mint s' e with err | ⟨s'', kept⟩
          · rfl
          · cases kept with
            | none => rfl
            | some kept =>
                cases stores with
                | true => rfl
                | false => rfl

/-! ## One more event -/

section Append

variable {log : EventLog} {ev : Event} {target : String} {key : Json}

theorem eventsOfTypes_other {types : List String}
    (h : ev.eventType ∉ types) :
    eventsOfTypes (log ++ [ev]) types = eventsOfTypes log types := by
  have hnone : eventsOfTypes [ev] types = [] := by
    rw [eventsOfTypes, List.filter_singleton]
    simp [h]
  rw [eventsOfTypes_append, hnone, List.append_nil]

theorem matchingProposals_other
    (h : ev.eventType = writeProposalEventType →
      matchesKey target key ev = false) :
    matchingProposals (log ++ [ev]) target key =
      matchingProposals log target key := by
  have hnone : (eventsOfTypes [ev] [writeProposalEventType]).filter
      (matchesKey target key) = [] := by
    rw [List.filter_eq_nil_iff]
    intro x hx
    obtain ⟨hmem, htype⟩ := mem_eventsOfTypes.1 hx
    rw [List.mem_singleton.mp hmem] at htype ⊢
    rw [h (List.mem_singleton.mp htype)]
    exact Bool.false_ne_true
  unfold matchingProposals
  rw [eventsOfTypes_append, List.filter_append, hnone, List.append_nil]

theorem rejectedKey_other (h : ev.eventType ≠ writeRejectedEventType) :
    rejectedKey (log ++ [ev]) target key = rejectedKey log target key := by
  unfold rejectedKey
  rw [eventsOfTypes_other (by simp [h])]

theorem mem_resolvedProposals_append {id : String}
    (h : id ∈ resolvedProposals log) (added : EventLog) :
    id ∈ resolvedProposals (log ++ added) := by
  obtain ⟨x, hx, hrest⟩ := mem_resolvedProposals.1 h
  exact mem_resolvedProposals.2 ⟨x, List.mem_append_left added hx, hrest⟩

theorem mem_declinedProposals {id : String} :
    id ∈ declinedProposals log ↔ ∃ x ∈ log,
      x.eventType = writeDeclinedEventType ∧
      x.content.getStr? "resolves_proposal" = some id := by
  unfold declinedProposals
  simp only [List.mem_filterMap, mem_eventsOfTypes, List.mem_cons,
    List.not_mem_nil, or_false, and_assoc]

theorem mem_matchingProposals :
    ev ∈ matchingProposals log target key ↔ ev ∈ log ∧
      ev.eventType = writeProposalEventType ∧
      matchesKey target key ev = true := by
  unfold matchingProposals
  rw [List.mem_filter, mem_eventsOfTypes, List.mem_singleton, and_assoc]

theorem matchesKey_iff :
    matchesKey target key ev = true ↔
      ev.content.getStr? "target" = some target ∧
        ev.content.get? "inducing_key" = some key := by
  unfold matchesKey
  rw [Bool.and_eq_true, beq_iff_eq, decide_eq_true_iff]

/-- Events of other kinds leave the freshness of a key alone. -/
theorem Fresh.other (h : Fresh log target key)
    (hproposal : ev.eventType ≠ writeProposalEventType)
    (hrejected : ev.eventType ≠ writeRejectedEventType) :
    Fresh (log ++ [ev]) target key := by
  have hmatching : matchingProposals (log ++ [ev]) target key =
      matchingProposals log target key :=
    matchingProposals_other fun heq => absurd heq hproposal
  refine ⟨?_, ?_⟩
  · rw [rejectedKey_other hrejected]
    exact h.notRejected
  · rw [hmatching]
    intro x hx
    exact mem_resolvedProposals_append (h.resolved x hx) [ev]

end Append

/-! ## What a step appends -/

/-- The event is appended by the tick that has decided on it, or it is no
proposal and no refusal. -/
def LifecycleState.Appends (σ : LifecycleState) (draft : Event) : Prop :=
  (∃ e, σ.emitting = .decided e ∧ e.event = some draft) ∨
    (draft.eventType ≠ writeProposalEventType ∧
      draft.eventType ≠ writeRejectedEventType)

/-- The log stays as it is, or one event is stored. -/
def LifecycleState.Grows (σ : LifecycleState) (log' : EventLog) : Prop :=
  log' = σ.log ∨ ∃ m draft stored, Stored m σ.log draft stored ∧
    log' = σ.log ++ [stored] ∧ σ.Appends draft

theorem decide_log (σ : LifecycleState)
    (r : Except BossclawError Emission × ReviewState)
    (hr : r.2.brain = σ.review.brain) : (σ.decide r).log = σ.log := by
  unfold LifecycleState.decide LifecycleState.log
  split
  · exact congrArg BrainState.log hr
  · exact congrArg BrainState.log hr
  · rfl

theorem declineWriteProposal_cases (m : Mint) (s : ReviewState)
    (proposalId reason : String) :
    (∃ err, declineWriteProposal m s proposalId reason = (.error err, s)) ∨
    ∃ draft stored, Stored m s.brain.log draft stored ∧
      draft.eventType = writeDeclinedEventType ∧
      draft.content.getStr? "resolves_proposal" = some proposalId ∧
      declineWriteProposal m s proposalId reason =
        (.ok m.id, s.logged (s.brain.log ++ [stored])) := by
  unfold declineWriteProposal
  dsimp only
  split
  · exact .inl ⟨_, rfl⟩
  · split
    · exact .inl ⟨_, rfl⟩
    · next log' id happend =>
        obtain ⟨hid, stored, hs, hlog⟩ := append_ok happend
        refine .inr ⟨_, stored, hs, rfl, rfl, ?_⟩
        rw [hid, hlog]
        rfl

variable (digest) in
/-- Every step keeps the log, or stores one event. -/
theorem exec_grows (σ : LifecycleState) (step : LifecycleStep) :
    σ.Grows (σ.exec digest step).log := by
  cases step with
  | mandate m answer emitted =>
      exact .inl (decide_log σ _
        (decideMandate_kept digest σ.review m answer emitted).1)
  | reconcile r rec lineage answer emitted => exact .inl (decide_log σ _ rfl)
  | record m =>
      simp only [LifecycleState.exec, LifecycleState.record]
      cases hemitting : σ.emitting with
      | idle => exact .inl rfl
      | appended id d => exact .inl rfl
      | decided e =>
          rcases appendEmission_cases m σ.review e with
            ⟨err, happend⟩ | ⟨-, happend⟩ | ⟨draft, stored, hdraft, hs,
              happend⟩
          · simp only [happend]
            exact .inl rfl
          · simp only [happend]
            exact .inl rfl
          · simp only [happend]
            refine .inr ⟨m, draft, stored, hs, ?_, .inl ⟨e, hemitting, hdraft⟩⟩
            cases e.proposal with
            | none => rfl
            | some d => rfl
  | store stores =>
      simp only [LifecycleState.exec, LifecycleState.store]
      split
      · split
        · exact .inl rfl
        · exact .inl rfl
      · exact .inl rfl
  | crash =>
      simp only [LifecycleState.exec]
      split
      · exact .inl rfl
      · exact .inl rfl
  | decline m proposalId reason =>
      rcases declineWriteProposal_cases m σ.review proposalId reason with
        ⟨err, hrun⟩ | ⟨draft, stored, hs, htype, -, hrun⟩
      · left
        simp only [LifecycleState.exec, hrun]
      · right
        simp only [LifecycleState.exec, hrun]
        refine ⟨m, draft, stored, hs, rfl, .inr ⟨?_, ?_⟩⟩
        · rw [htype]
          decide
        · rw [htype]
          decide
  | append m event =>
      simp only [LifecycleState.exec]
      split
      · exact .inl rfl
      · next hother =>
          rw [List.contains_iff_mem] at hother
          split
          · exact .inl rfl
          · next log' id happend =>
              obtain ⟨-, stored, hs, hlog⟩ := append_ok happend
              refine .inr ⟨m, event, stored, hs, hlog, .inr ⟨?_, ?_⟩⟩
              · intro heq
                exact hother (by rw [heq]; decide)
              · intro heq
                exact hother (by rw [heq]; decide)
  | tables brain => exact .inl rfl

/-! ## The invariant -/

/-- The event records the proposal. -/
structure Recorded (digest : Bytes → String) (d : ProposalDraft) (ev : Event) :
    Prop where
  type_eq : ev.eventType = writeProposalEventType
  target_eq : ev.content.getStr? "target" = some d.target
  key_eq : ev.content.get? "inducing_key" = some d.inducingKey
  hash_eq : ev.content.getStr? "new_content_hash" = some d.contentHash
  producer_eq : ∃ meta', ev.modelMeta = some meta' ∧
    meta'.modelId = d.producer
  digest_eq : d.contentHash = digest d.content
  mandateKey_eq : d.producer = m6cProposerProducer →
    ∃ m hash, d.inducingKey = mandateKey m hash

/-- What the running tick has decided is still right. -/
def Justified (digest : Bytes → String) (log : EventLog) : Emission → Prop
  | .nothing => True
  | .elidedByCap => True
  | .rejected r =>
      r.reason = "empty synthesis" ∨ Fresh log r.target r.inducingKey
  | .proposed d =>
      Fresh log d.target d.inducingKey ∧ d.contentHash = digest d.content ∧
        (d.producer = m6cProposerProducer →
          ∃ m hash, d.inducingKey = mandateKey m hash)

/-- The bytes of a proposal are stored under its hash. -/
def Kept (digest : Bytes → String) (s : ReviewState) (ev : Event) : Prop :=
  ∃ content, getProposalBytesChecked digest s ev.id
    (pendingOf ev).newContentHash = .ok content

/-- The running tick has appended this proposal. -/
def Emitting.Holds (emitting : Emitting) (id : String) : Prop :=
  ∃ d, emitting = .appended id d

structure LifecycleInv (digest : Bytes → String) (σ : LifecycleState) :
    Prop where
  unique : UniqueIds σ.log
  recorded : ∀ ev ∈ σ.log, ev.eventType = writeProposalEventType →
    ∃ d, Recorded digest d ev
  oneOpen : ∀ target key, ∀ ev ∈ matchingProposals σ.log target key,
    ∀ ev' ∈ matchingProposals σ.log target key,
      ev.id ∉ resolvedProposals σ.log → ev'.id ∉ resolvedProposals σ.log →
        ev = ev'
  justified : ∀ e, σ.emitting = .decided e → Justified digest σ.log e
  appended : ∀ id d, σ.emitting = .appended id d →
    ∃ ev ∈ σ.log, ev.id = id ∧ Recorded digest d ev
  kept : ∀ ev ∈ σ.log, ev.eventType = writeProposalEventType →
    Kept digest σ.review ev ∨ σ.emitting.Holds ev.id ∨ ev.id ∈ σ.torn

theorem recorded_stored {m : Mint} {log : EventLog} {d : ProposalDraft}
    {ev : Event} (hs : Stored m log (writeProposalEvent d) ev)
    (hdigest : d.contentHash = digest d.content)
    (hkey : d.producer = m6cProposerProducer →
      ∃ m hash, d.inducingKey = mandateKey m hash) : Recorded digest d ev := by
  refine
    { type_eq := hs.eventType_eq
      target_eq := ?_
      key_eq := ?_
      hash_eq := ?_
      producer_eq := ⟨_, hs.modelMeta_eq, rfl⟩
      digest_eq := hdigest
      mandateKey_eq := hkey }
  · rw [Json.getStr?, get?_stored hs (by decide)]
    rfl
  · rw [get?_stored hs (by decide)]
    rfl
  · rw [Json.getStr?, get?_stored hs (by decide)]
    rfl

/-- The target, the key and the hash of a recorded proposal. -/
theorem Recorded.pendingOf_eq {d : ProposalDraft} {ev : Event}
    (h : Recorded digest d ev) :
    (pendingOf ev).target = d.target ∧
      (pendingOf ev).inducingKey = d.inducingKey ∧
      (pendingOf ev).newContentHash = d.contentHash ∧
      (pendingOf ev).producer = d.producer := by
  obtain ⟨meta', hmeta, hproducer⟩ := h.producer_eq
  refine ⟨?_, ?_, ?_, ?_⟩
  · show (ev.content.getStr? "target").getD "" = d.target
    rw [h.target_eq]
    rfl
  · show (ev.content.get? "inducing_key").getD .null = d.inducingKey
    rw [h.key_eq]
    rfl
  · show (ev.content.getStr? "new_content_hash").getD "" = d.contentHash
    rw [h.hash_eq]
    rfl
  · unfold pendingOf
    dsimp only
    rw [hmeta]
    exact hproducer

theorem Recorded.matchesKey_eq {d : ProposalDraft} {ev : Event}
    (h : Recorded digest d ev) :
    matchesKey d.target d.inducingKey ev = true :=
  matchesKey_iff.2 ⟨h.target_eq, h.key_eq⟩

theorem Recorded.eq_of_matchesKey {d : ProposalDraft} {ev : Event}
    {target : String} {key : Json} (h : Recorded digest d ev)
    (hmatch : matchesKey target key ev = true) :
    target = d.target ∧ key = d.inducingKey := by
  obtain ⟨htarget, hkey⟩ := matchesKey_iff.1 hmatch
  rw [h.target_eq] at htarget
  rw [h.key_eq] at hkey
  exact ⟨(Option.some.inj htarget).symm, (Option.some.inj hkey).symm⟩

theorem kept_congr {s s' : ReviewState} {ev : Event}
    (hbytes : s'.proposalBytes = s.proposalBytes) (h : Kept digest s ev) :
    Kept digest s' ev := by
  obtain ⟨content, hget⟩ := h
  refine ⟨content, ?_⟩
  unfold getProposalBytesChecked at hget ⊢
  rw [hbytes]
  exact hget

theorem Justified.other {log : EventLog} {ev : Event} {e : Emission}
    (h : Justified digest log e)
    (hproposal : ev.eventType ≠ writeProposalEventType)
    (hrejected : ev.eventType ≠ writeRejectedEventType) :
    Justified digest (log ++ [ev]) e := by
  cases e with
  | nothing => trivial
  | elidedByCap => trivial
  | rejected r => exact h.imp id fun hfresh => hfresh.other hproposal hrejected
  | proposed d =>
      obtain ⟨hfresh, hrest⟩ := h
      exact ⟨hfresh.other hproposal hrejected, hrest⟩

/-! ### Steps that append no proposal -/

/-- The invariant of the log alone is kept by an event that is no proposal. -/
theorem oneOpen_other {log : EventLog} {ev : Event}
    (h : ∀ target key, ∀ x ∈ matchingProposals log target key,
      ∀ x' ∈ matchingProposals log target key,
        x.id ∉ resolvedProposals log → x'.id ∉ resolvedProposals log → x = x')
    (hproposal : ev.eventType ≠ writeProposalEventType) (target : String)
    (key : Json) :
    ∀ x ∈ matchingProposals (log ++ [ev]) target key,
      ∀ x' ∈ matchingProposals (log ++ [ev]) target key,
        x.id ∉ resolvedProposals (log ++ [ev]) →
          x'.id ∉ resolvedProposals (log ++ [ev]) → x = x' := by
  have hmatching : matchingProposals (log ++ [ev]) target key =
      matchingProposals log target key :=
    matchingProposals_other fun heq => absurd heq hproposal
  rw [hmatching]
  intro x hx x' hx' hopen hopen'
  exact h target key x hx x' hx'
    (fun hmem => hopen (mem_resolvedProposals_append hmem [ev]))
    (fun hmem => hopen' (mem_resolvedProposals_append hmem [ev]))

/-- The brain may change, and a tick may come to another point, as long as no
proposal is appended and none is forgotten. -/
theorem LifecycleInv.quiet {σ σ' : LifecycleState}
    (h : LifecycleInv digest σ)
    (hlog : σ'.log = σ.log ∨ ∃ m draft stored, Stored m σ.log draft stored ∧
      σ'.log = σ.log ++ [stored] ∧
      stored.eventType ≠ writeProposalEventType)
    (hbytes : σ'.review.proposalBytes = σ.review.proposalBytes)
    (hjustified : ∀ e, σ'.emitting = .decided e → Justified digest σ'.log e)
    (happended : ∀ id d, σ'.emitting = .appended id d →
      σ.emitting = .appended id d)
    (hheld : ∀ id, σ.emitting.Holds id →
      σ'.emitting.Holds id ∨ id ∈ σ'.torn)
    (htorn : ∀ id ∈ σ.torn, id ∈ σ'.torn) : LifecycleInv digest σ' := by
  have hkept : ∀ ev ∈ σ.log, ev.eventType = writeProposalEventType →
      Kept digest σ'.review ev ∨ σ'.emitting.Holds ev.id ∨
        ev.id ∈ σ'.torn := by
    intro ev hev htype
    rcases h.kept ev hev htype with hkept | hholds | hmem
    · exact .inl (kept_congr hbytes hkept)
    · exact .inr (hheld ev.id hholds)
    · exact .inr (.inr (htorn ev.id hmem))
  rcases hlog with hsame | ⟨m, draft, stored, hs, hgrown, hproposal⟩
  · refine
      { unique := by rw [hsame]; exact h.unique
        recorded := by rw [hsame]; exact h.recorded
        oneOpen := by rw [hsame]; exact h.oneOpen
        justified := hjustified
        appended := ?_
        kept := by rw [hsame]; exact hkept }
    intro id d hemitting
    rw [hsame]
    exact h.appended id d (happended id d hemitting)
  · refine
      { unique := by rw [hgrown]; exact h.unique.stored hs
        recorded := ?_
        oneOpen := by rw [hgrown]; exact oneOpen_other h.oneOpen hproposal
        justified := hjustified
        appended := ?_
        kept := ?_ }
    · rw [hgrown]
      intro ev hev htype
      rcases List.mem_append.mp hev with hold | hnew
      · exact h.recorded ev hold htype
      · rw [List.mem_singleton.mp hnew] at htype
        exact absurd htype hproposal
    · intro id d hemitting
      obtain ⟨ev, hev, hid, hrecorded⟩ :=
        h.appended id d (happended id d hemitting)
      rw [hgrown]
      exact ⟨ev, List.mem_append_left _ hev, hid, hrecorded⟩
    · rw [hgrown]
      intro ev hev htype
      rcases List.mem_append.mp hev with hold | hnew
      · exact hkept ev hold htype
      · rw [List.mem_singleton.mp hnew] at htype
        exact absurd htype hproposal

/-- Any other event may be appended meanwhile. -/
theorem LifecycleInv.other {σ : LifecycleState} {m : Mint}
    {draft stored : Event} (h : LifecycleInv digest σ)
    (hs : Stored m σ.log draft stored)
    (hproposal : draft.eventType ≠ writeProposalEventType)
    (hrejected : draft.eventType ≠ writeRejectedEventType) :
    LifecycleInv digest
      { σ with review := σ.review.logged (σ.log ++ [stored]) } := by
  rw [← hs.eventType_eq] at hproposal hrejected
  refine h.quiet (.inr ⟨m, draft, stored, hs, rfl, hproposal⟩) rfl ?_
    (fun _ _ heq => heq) (fun _ hheld => .inl hheld) (fun _ hmem => hmem)
  intro e heq
  exact (h.justified e heq).other hproposal hrejected

theorem LifecycleInv.decide {σ : LifecycleState} (h : LifecycleInv digest σ)
    (r : Except BossclawError Emission × ReviewState)
    (hbrain : r.2.brain = σ.review.brain)
    (hbytes : r.2.proposalBytes = σ.review.proposalBytes)
    (hdecided : ∀ e, r.1 = .ok e → Justified digest σ.log e) :
    LifecycleInv digest (σ.decide r) := by
  have hlog := decide_log σ r hbrain
  unfold LifecycleState.decide at hlog ⊢
  obtain ⟨out, s'⟩ := r
  cases hemitting : σ.emitting with
  | decided e => exact h
  | appended id d => exact h
  | idle =>
      have hnone : ∀ id, ¬ σ.emitting.Holds id := by
        rintro id ⟨d, heq⟩
        rw [hemitting] at heq
        cases heq
      rw [hemitting] at hlog
      cases out with
      | error e =>
          refine h.quiet (.inl hlog) hbytes ?_ ?_ (fun id hheld =>
            absurd hheld (hnone id)) (fun _ hmem => hmem)
          · intro e' heq
            cases heq
          · intro id d heq
            cases heq
      | ok e =>
          refine h.quiet (.inl hlog) hbytes ?_ ?_ (fun id hheld =>
            absurd hheld (hnone id)) (fun _ hmem => hmem)
          · intro e' heq
            cases heq
            rw [hlog]
            exact hdecided e rfl
          · intro id d heq
            cases heq

theorem justified_mandate (s : ReviewState) (m : Mandate)
    (answer : Except BossclawError Json) (emitted : Nat) (e : Emission)
    (h : (decideMandate digest s m answer emitted).1 = .ok e) :
    Justified digest s.brain.log e := by
  have hrun : decideMandate digest s m answer emitted =
      (.ok e, (decideMandate digest s m answer emitted).2) := Prod.ext h rfl
  obtain ⟨hrejected, hproposed⟩ := decideMandate_key hrun
  cases e with
  | nothing => trivial
  | elidedByCap => trivial
  | rejected r => exact hrejected r rfl
  | proposed d =>
      obtain ⟨hfresh, -, hhash, -, hash, hkey⟩ := hproposed d rfl
      exact ⟨hfresh, hhash, fun _ => ⟨m, hash, hkey⟩⟩

theorem justified_reconcile (s : ReviewState) (r : ProposedRetraction)
    (rec : FileRecord) (lineage : List String)
    (answer : Except BossclawError Json) (emitted : Nat) (e : Emission)
    (h : decideReconcile digest s r rec lineage answer emitted = .ok e) :
    Justified digest s.brain.log e := by
  obtain ⟨hrejected, hproposed⟩ := decideReconcile_key h
  cases e with
  | nothing => trivial
  | elidedByCap => trivial
  | rejected x => exact .inr (hrejected x rfl)
  | proposed d =>
      obtain ⟨hfresh, hhash, hproducer, -⟩ := hproposed d rfl
      refine ⟨hfresh, hhash, ?_⟩
      intro hmandate
      rw [hproducer] at hmandate
      exact absurd hmandate (by decide)

/-! ### A proposal is appended -/

/-- The invariant where the tick appends the proposal it has decided on. -/
theorem LifecycleInv.propose {σ σ' : LifecycleState} {m : Mint}
    {d : ProposalDraft} {stored : Event} (h : LifecycleInv digest σ)
    (hemitting : σ.emitting = .decided (.proposed d))
    (hs : Stored m σ.log (writeProposalEvent d) stored)
    (hlog : σ'.log = σ.log ++ [stored])
    (hbytes : σ'.review.proposalBytes = σ.review.proposalBytes)
    (hemitting' : σ'.emitting = .appended m.id d)
    (htorn : σ'.torn = σ.torn) : LifecycleInv digest σ' := by
  obtain ⟨hfresh, hdigest, hkey⟩ := h.justified _ hemitting
  have hrecorded := recorded_stored hs hdigest hkey
  have hnone : ∀ id, ¬ σ.emitting.Holds id := by
    rintro id ⟨d', heq⟩
    rw [hemitting] at heq
    cases heq
  refine
    { unique := by rw [hlog]; exact h.unique.stored hs
      recorded := ?_
      oneOpen := ?_
      justified := ?_
      appended := ?_
      kept := ?_ }
  · rw [hlog]
    intro ev hev htype
    rcases List.mem_append.mp hev with hold | hnew
    · exact h.recorded ev hold htype
    · rw [List.mem_singleton.mp hnew]
      exact ⟨d, hrecorded⟩
  · -- the others of its key are resolved
    have hothers : ∀ target key, ∀ ev ∈ σ.log,
        ev.eventType = writeProposalEventType →
        matchesKey target key ev = true → ev.id ∉ resolvedProposals σ'.log →
        matchesKey target key stored = false := by
      intro target key ev hev htype hmatch hopen
      by_contra hstored
      rw [Bool.not_eq_false] at hstored
      obtain ⟨htarget, hkey⟩ := hrecorded.eq_of_matchesKey hstored
      refine hopen ?_
      rw [hlog]
      refine mem_resolvedProposals_append (hfresh.resolved ev ?_) [stored]
      rw [← htarget, ← hkey]
      exact mem_matchingProposals.2 ⟨hev, htype, hmatch⟩
    intro target key ev hev ev' hev' hopen hopen'
    obtain ⟨hmem, htype, hmatch⟩ := mem_matchingProposals.1 hev
    obtain ⟨hmem', htype', hmatch'⟩ := mem_matchingProposals.1 hev'
    rw [hlog] at hmem hmem'
    rcases List.mem_append.mp hmem with hold | hnew
    · rcases List.mem_append.mp hmem' with hold' | hnew'
      · refine h.oneOpen target key ev
          (mem_matchingProposals.2 ⟨hold, htype, hmatch⟩) ev'
          (mem_matchingProposals.2 ⟨hold', htype', hmatch'⟩) ?_ ?_
        · intro hres
          refine hopen ?_
          rw [hlog]
          exact mem_resolvedProposals_append hres [stored]
        · intro hres
          refine hopen' ?_
          rw [hlog]
          exact mem_resolvedProposals_append hres [stored]
      · have hfalse := hothers target key ev hold htype hmatch hopen
        rw [List.mem_singleton.mp hnew', hfalse] at hmatch'
        cases hmatch'
    · rcases List.mem_append.mp hmem' with hold' | hnew'
      · have hfalse := hothers target key ev' hold' htype' hmatch' hopen'
        rw [List.mem_singleton.mp hnew, hfalse] at hmatch
        cases hmatch
      · rw [List.mem_singleton.mp hnew, List.mem_singleton.mp hnew']
  · intro e heq
    rw [hemitting'] at heq
    cases heq
  · intro id d' heq
    rw [hemitting'] at heq
    cases heq
    rw [hlog]
    exact ⟨stored, List.mem_append_right _ (List.mem_singleton_self _),
      hs.id_eq, hrecorded⟩
  · rw [hlog]
    intro ev hev htype
    rcases List.mem_append.mp hev with hold | hnew
    · rcases h.kept ev hold htype with hkept | hholds | hmem
      · exact .inl (kept_congr hbytes hkept)
      · exact absurd hholds (hnone ev.id)
      · rw [htorn]
        exact .inr (.inr hmem)
    · rw [List.mem_singleton.mp hnew, hs.id_eq]
      exact .inr (.inl ⟨d, hemitting'⟩)

/-! ### The bytes are stored -/

theorem checked_put_self {s : ReviewState} {id hash : String}
    {content : Bytes} (h : hash = digest content) :
    getProposalBytesChecked digest (putProposalBytes s id content hash) id
      hash = .ok content := by
  have hrow : (putProposalBytes s id content hash).proposalBytes.find?
      (fun row => row.proposalId == id) = some ⟨id, content, hash⟩ := by
    unfold putProposalBytes
    rw [List.find?_append]
    have hnone : (s.proposalBytes.filter
        fun row => row.proposalId != id).find?
          (fun row => row.proposalId == id) = none := by
      rw [List.find?_eq_none]
      intro row hrow
      have hne := (List.mem_filter.mp hrow).2
      simpa using hne
    rw [hnone]
    simp
  unfold getProposalBytesChecked
  rw [hrow, h]
  simp

theorem checked_put_ne {s : ReviewState} {id id' hash hash' : String}
    {content : Bytes} (h : id' ≠ id) :
    getProposalBytesChecked digest (putProposalBytes s id content hash) id'
      hash' = getProposalBytesChecked digest s id' hash' := by
  have hrow : (putProposalBytes s id content hash).proposalBytes.find?
      (fun row => row.proposalId == id') =
        s.proposalBytes.find? (fun row => row.proposalId == id') := by
    unfold putProposalBytes
    rw [List.find?_append, List.find?_filter]
    have hsame : (fun row : ProposalBytes => decide
        ((row.proposalId != id) = true ∧ (row.proposalId == id') = true)) =
          fun row => row.proposalId == id' := by
      funext row
      by_cases hid : row.proposalId = id'
      · simp [hid, h]
      · simp [hid]
    have hlast : [(⟨id, content, hash⟩ : ProposalBytes)].find?
        (fun row => row.proposalId == id') = none := by
      simp [Ne.symm h]
    rw [hlast, Option.or_none, hsame]
  unfold getProposalBytesChecked
  rw [hrow]

theorem LifecycleInv.record {σ : LifecycleState} (h : LifecycleInv digest σ)
    (m : Mint) : LifecycleInv digest (σ.record m) := by
  unfold LifecycleState.record
  cases hemitting : σ.emitting with
  | idle => exact h
  | appended id d => exact h
  | decided e =>
      have hnone : ∀ id, ¬ σ.emitting.Holds id := by
        rintro id ⟨d, heq⟩
        rw [hemitting] at heq
        cases heq
      have hidle : ∀ log, (log = σ.log ∨ ∃ m draft stored,
          Stored m σ.log draft stored ∧ log = σ.log ++ [stored] ∧
            stored.eventType ≠ writeProposalEventType) →
          LifecycleInv digest
            { σ with review := σ.review.logged log, emitting := .idle } := by
        intro log hlog
        refine h.quiet hlog rfl ?_ ?_
          (fun id hheld => absurd hheld (hnone id)) (fun _ hmem => hmem)
        · intro e' heq
          cases heq
        · intro id d heq
          cases heq
      dsimp only
      rcases appendEmission_cases m σ.review e with
        ⟨err, happend⟩ | ⟨-, happend⟩ | ⟨draft, stored, hdraft, hs, happend⟩
      · rw [happend]
        exact hidle σ.log (.inl rfl)
      · rw [happend]
        exact hidle σ.log (.inl rfl)
      · rw [happend]
        cases e with
        | nothing => cases hdraft
        | elidedByCap => cases hdraft
        | rejected r =>
            cases hdraft
            refine hidle _ (.inr ⟨m, _, stored, hs, rfl, ?_⟩)
            rw [hs.eventType_eq]
            show writeRejectedEventType ≠ writeProposalEventType
            decide
        | proposed d =>
            cases hdraft
            exact h.propose hemitting hs rfl rfl rfl rfl

theorem LifecycleInv.store {σ : LifecycleState} (h : LifecycleInv digest σ)
    (stores : Bool) : LifecycleInv digest (σ.store stores) := by
  unfold LifecycleState.store
  cases hemitting : σ.emitting with
  | idle => exact h
  | decided e => exact h
  | appended id d =>
      have hheld : ∀ id', σ.emitting.Holds id' → id' = id := by
        rintro id' ⟨d', heq⟩
        rw [hemitting] at heq
        cases heq
        rfl
      cases stores with
      | false =>
          refine h.quiet (.inl rfl) rfl ?_ ?_ ?_ ?_
          · intro e heq
            cases heq
          · intro id' d' heq
            cases heq
          · intro id' hholds
            rw [hheld id' hholds]
            exact .inr List.mem_cons_self
          · intro id' hmem
            exact List.mem_cons_of_mem id hmem
      | true =>
          obtain ⟨ev, hev, hid, hrecorded⟩ := h.appended id d hemitting
          refine
            { unique := h.unique
              recorded := h.recorded
              oneOpen := h.oneOpen
              justified := ?_
              appended := ?_
              kept := ?_ }
          · intro e heq
            cases heq
          · intro id' d' heq
            cases heq
          · intro x hx htype
            by_cases hsame : x.id = id
            · -- it is the one whose bytes are stored now
              have hxev : x = ev := by
                refine List.inj_on_of_nodup_map h.unique hx hev ?_
                rw [hsame, hid]
              left
              refine ⟨d.content, ?_⟩
              rw [hxev, hid, hrecorded.pendingOf_eq.2.2.1]
              exact checked_put_self hrecorded.digest_eq
            · rcases h.kept x hx htype with ⟨content, hget⟩ | hholds | hmem
              · left
                refine ⟨content, ?_⟩
                rw [← hget]
                exact checked_put_ne hsame
              · exact absurd (hheld x.id hholds) hsame
              · exact .inr (.inr hmem)

/-- Every step keeps the invariant. -/
theorem LifecycleInv.exec {σ : LifecycleState} (h : LifecycleInv digest σ)
    (step : LifecycleStep) : LifecycleInv digest (σ.exec digest step) := by
  cases step with
  | mandate m answer emitted =>
      obtain ⟨hbrain, hbytes⟩ :=
        decideMandate_kept digest σ.review m answer emitted
      exact h.decide _ hbrain hbytes
        (justified_mandate σ.review m answer emitted)
  | reconcile r rec lineage answer emitted =>
      exact h.decide _ rfl rfl
        (justified_reconcile σ.review r rec lineage answer emitted)
  | record m => exact h.record m
  | store stores => exact h.store stores
  | crash =>
      simp only [LifecycleState.exec]
      cases hemitting : σ.emitting with
      | idle =>
          refine h.quiet (.inl rfl) rfl ?_ ?_ ?_ (fun _ hmem => hmem)
          · intro e heq
            cases heq
          · intro id d heq
            cases heq
          · rintro id ⟨d, heq⟩
            rw [hemitting] at heq
            cases heq
      | decided e =>
          refine h.quiet (.inl rfl) rfl ?_ ?_ ?_ (fun _ hmem => hmem)
          · intro e' heq
            cases heq
          · intro id d heq
            cases heq
          · rintro id ⟨d, heq⟩
            rw [hemitting] at heq
            cases heq
      | appended id d =>
          refine h.quiet (.inl rfl) rfl ?_ ?_ ?_ ?_
          · intro e heq
            cases heq
          · intro id' d' heq
            cases heq
          · rintro id' ⟨d', heq⟩
            rw [hemitting] at heq
            cases heq
            exact .inr List.mem_cons_self
          · intro id' hmem
            exact List.mem_cons_of_mem id hmem
  | decline m proposalId reason =>
      simp only [LifecycleState.exec]
      rcases declineWriteProposal_cases m σ.review proposalId reason with
        ⟨err, hrun⟩ | ⟨draft, stored, hs, htype, -, hrun⟩
      · rw [hrun]
        exact h
      · rw [hrun]
        exact h.other hs (by rw [htype]; decide) (by rw [htype]; decide)
  | append m event =>
      simp only [LifecycleState.exec]
      split
      · exact h
      · next hother =>
          rw [List.contains_iff_mem] at hother
          split
          · exact h
          · next log' id happend =>
              obtain ⟨-, stored, hs, hlog⟩ := append_ok happend
              rw [hlog]
              refine h.other hs ?_ ?_
              · intro heq
                exact hother (by rw [heq]; decide)
              · intro heq
                exact hother (by rw [heq]; decide)
  | tables brain =>
      exact h.quiet (.inl rfl) rfl (fun e heq => h.justified e heq)
        (fun _ _ heq => heq) (fun _ hheld => .inl hheld)
        (fun _ hmem => hmem)

theorem lifecycleInv_start {σ : LifecycleState} (hlog : σ.log = [])
    (hidle : σ.emitting = .idle) : LifecycleInv digest σ := by
  refine
    { unique := ?_
      recorded := ?_
      oneOpen := ?_
      justified := ?_
      appended := ?_
      kept := ?_ }
  · rw [hlog]
    exact uniqueIds_nil
  · rw [hlog]
    intro ev hev
    cases hev
  · rw [hlog]
    intro target key ev hev
    cases hev
  · intro e heq
    rw [hidle] at heq
    cases heq
  · intro id d heq
    rw [hidle] at heq
    cases heq
  · rw [hlog]
    intro ev hev
    cases hev

theorem LifecycleInv.run {σ : LifecycleState} (h : LifecycleInv digest σ)
    (steps : List LifecycleStep) :
    LifecycleInv digest (run (LifecycleState.exec digest) σ steps) :=
  run_inv (LifecycleInv digest) (fun _ step hσ => hσ.exec step) h steps

theorem lifecycleInv_of_reachable {σ : LifecycleState}
    (h : σ.Reachable digest) : LifecycleInv digest σ := by
  obtain ⟨start, steps, hlog, hidle, rfl⟩ := h
  exact (lifecycleInv_start hlog hidle).run steps

/-! ## After a refusal -/

section Refused

variable {σ : LifecycleState} {target : String} {key : Json}

/-- The refusals for the target and the key, those of an empty synthesis
apart. -/
def properRejections (log : EventLog) (target : String) (key : Json) :
    List Event :=
  (eventsOfTypes log [writeRejectedEventType]).filter fun ev =>
    matchesKey target key ev &&
      ev.content.getStr? "reason" != some "empty synthesis"

theorem properRejections_other {log : EventLog} {ev : Event}
    (h : ev.eventType = writeRejectedEventType →
      matchesKey target key ev = true →
        ev.content.getStr? "reason" = some "empty synthesis") :
    properRejections (log ++ [ev]) target key =
      properRejections log target key := by
  have hnone : properRejections [ev] target key = [] := by
    unfold properRejections
    rw [List.filter_eq_nil_iff]
    intro x hx
    obtain ⟨hmem, htype⟩ := mem_eventsOfTypes.1 hx
    rw [List.mem_singleton.mp hmem] at htype ⊢
    intro hboth
    rw [Bool.and_eq_true] at hboth
    have hreason := h (List.mem_singleton.mp htype) hboth.1
    rw [hreason] at hboth
    simp at hboth
  unfold properRejections at hnone ⊢
  rw [eventsOfTypes_append, List.filter_append, hnone, List.append_nil]

theorem rejectedKey_append {log : EventLog}
    (h : rejectedKey log target key = true) (added : EventLog) :
    rejectedKey (log ++ added) target key = true := by
  unfold rejectedKey at h ⊢
  rw [eventsOfTypes_append, List.any_append, h, Bool.true_or]

/-- The event of a decision for another key does not match this one. -/
theorem matchesKey_draft {m : Mint} {log : EventLog} {d : ProposalDraft}
    {stored : Event} (hs : Stored m log (writeProposalEvent d) stored)
    (h : matchesKey target key stored = true) :
    d.target = target ∧ d.inducingKey = key := by
  obtain ⟨htarget, hkey⟩ := matchesKey_iff.1 h
  rw [Json.getStr?, get?_stored hs (by decide)] at htarget
  rw [get?_stored hs (by decide)] at hkey
  exact ⟨Option.some.inj htarget, Option.some.inj hkey⟩

theorem matchesKey_refusal {m : Mint} {log : EventLog} {r : RejectionDraft}
    {stored : Event} (hs : Stored m log (writeRejectedEvent r) stored)
    (h : matchesKey target key stored = true) :
    r.target = target ∧ r.inducingKey = key ∧
      stored.content.getStr? "reason" = some r.reason := by
  obtain ⟨htarget, hkey⟩ := matchesKey_iff.1 h
  rw [Json.getStr?, get?_stored hs (by decide)] at htarget
  rw [get?_stored hs (by decide)] at hkey
  refine ⟨Option.some.inj htarget, Option.some.inj hkey, ?_⟩
  rw [Json.getStr?, get?_stored hs (by decide)]
  rfl

/-- After a refusal a step appends no proposal for the key, and no refusal
but for an empty synthesis. -/
theorem refused_step (h : LifecycleInv digest σ)
    (hrejected : rejectedKey σ.log target key = true) (step : LifecycleStep) :
    rejectedKey (σ.exec digest step).log target key = true ∧
      matchingProposals (σ.exec digest step).log target key =
        matchingProposals σ.log target key ∧
      properRejections (σ.exec digest step).log target key =
        properRejections σ.log target key := by
  rcases exec_grows digest σ step with
    hsame | ⟨m, draft, stored, hs, hlog, happends⟩
  · rw [hsame]
    exact ⟨hrejected, rfl, rfl⟩
  · have hnotFresh : ¬ Fresh σ.log target key := by
      intro hfresh
      rw [hfresh.notRejected] at hrejected
      cases hrejected
    rw [hlog]
    refine ⟨rejectedKey_append hrejected [stored], matchingProposals_other ?_,
      properRejections_other ?_⟩
    · intro htype
      rw [hs.eventType_eq] at htype
      rw [← Bool.not_eq_true]
      intro hmatch
      rcases happends with ⟨e, hemitting, hdraft⟩ | ⟨hproposal, -⟩
      · have hjustified := h.justified e hemitting
        cases e with
        | nothing => cases hdraft
        | elidedByCap => cases hdraft
        | rejected r =>
            cases hdraft
            have hne : writeRejectedEventType ≠ writeProposalEventType := by
              decide
            exact hne htype
        | proposed d =>
            cases hdraft
            obtain ⟨htarget, hkey⟩ := matchesKey_draft hs hmatch
            obtain ⟨hfresh, -⟩ := hjustified
            rw [htarget, hkey] at hfresh
            exact hnotFresh hfresh
      · exact hproposal htype
    · intro htype hmatch
      rw [hs.eventType_eq] at htype
      rcases happends with ⟨e, hemitting, hdraft⟩ | ⟨-, hrefusal⟩
      · have hjustified := h.justified e hemitting
        cases e with
        | nothing => cases hdraft
        | elidedByCap => cases hdraft
        | rejected r =>
            cases hdraft
            obtain ⟨htarget, hkey, hreason⟩ := matchesKey_refusal hs hmatch
            rcases hjustified with hempty | hfresh
            · rw [hreason, hempty]
            · rw [htarget, hkey] at hfresh
              exact absurd hfresh hnotFresh
        | proposed d =>
            cases hdraft
            have hne : writeProposalEventType ≠ writeRejectedEventType := by
              decide
            exact absurd htype hne
      · exact absurd htype hrefusal

/-- Nothing is proposed for a key that was refused, and it is not refused
again but for an empty synthesis. -/
theorem refused_run (h : LifecycleInv digest σ)
    (hrejected : rejectedKey σ.log target key = true)
    (steps : List LifecycleStep) :
    matchingProposals (run (LifecycleState.exec digest) σ steps).log target
        key = matchingProposals σ.log target key ∧
      properRejections (run (LifecycleState.exec digest) σ steps).log target
        key = properRejections σ.log target key := by
  induction steps generalizing σ with
  | nil => exact ⟨rfl, rfl⟩
  | cons step rest ih =>
      obtain ⟨hnext, hproposals, hrefusals⟩ := refused_step h hrejected step
      obtain ⟨hproposals', hrefusals'⟩ := ih (h.exec step) hnext
      exact ⟨hproposals'.trans hproposals, hrefusals'.trans hrefusals⟩

end Refused

/-! ## After a decline -/

section DeclinedKey

variable {σ : LifecycleState} {target : String} {key : Json}

/-- A mandate's proposal for the key was declined, and the running tick has
decided on none. -/
structure Stuck (σ : LifecycleState) (target : String) (key : Json) :
    Prop where
  declined : Declined σ.log target key
  ofMandate : ∃ m hash, key = mandateKey m hash
  notDecided : ∀ d, σ.emitting = .decided (.proposed d) →
    ¬ (d.target = target ∧ d.inducingKey = key)

theorem Declined.append {log : EventLog} (h : Declined log target key)
    (added : EventLog) : Declined (log ++ added) target key := by
  obtain ⟨ev, hev, hdeclined⟩ := h
  refine ⟨ev, ?_, ?_⟩
  · obtain ⟨hmem, hrest⟩ := mem_matchingProposals.1 hev
    exact mem_matchingProposals.2 ⟨List.mem_append_left added hmem, hrest⟩
  · obtain ⟨x, hx, hrest⟩ := mem_declinedProposals.1 hdeclined
    exact mem_declinedProposals.2 ⟨x, List.mem_append_left added hx, hrest⟩

/-- What the tick has decided on once a step is done was decided before, or is
not about the key. -/
theorem notDecided_exec (h : Stuck σ target key) (step : LifecycleStep)
    (d : ProposalDraft)
    (hemitting : (σ.exec digest step).emitting = .decided (.proposed d)) :
    ¬ (d.target = target ∧ d.inducingKey = key) := by
  obtain ⟨m', hash', hkey'⟩ := h.ofMandate
  cases step with
  | mandate m answer emitted =>
      simp only [LifecycleState.exec, LifecycleState.decide] at hemitting
      split at hemitting
      · next hidle _ =>
          have hnone : σ.emitting = .decided (.proposed d) := hemitting
          rw [hidle] at hnone
          cases hnone
      · next e s' hidle hrun =>
          have he : e = .proposed d := Emitting.decided.inj hemitting
          rw [he] at hrun
          obtain ⟨-, hproposed⟩ := decideMandate_key hrun
          obtain ⟨-, hnot, -⟩ := hproposed d rfl
          rintro ⟨htarget, hkey⟩
          rw [htarget, hkey] at hnot
          exact hnot h.declined
      · exact h.notDecided d hemitting
  | reconcile r rec lineage answer emitted =>
      simp only [LifecycleState.exec, LifecycleState.decide] at hemitting
      split at hemitting
      · next hidle _ =>
          have hnone : σ.emitting = .decided (.proposed d) := hemitting
          rw [hidle] at hnone
          cases hnone
      · next e s' hidle hrun =>
          have he : e = .proposed d := Emitting.decided.inj hemitting
          rw [he] at hrun
          obtain ⟨-, hproposed⟩ := decideReconcile_key (Prod.mk.inj hrun).1
          obtain ⟨-, -, -, hreconcile⟩ := hproposed d rfl
          rintro ⟨-, hkey⟩
          rw [hkey, hkey'] at hreconcile
          exact mandateKey_ne_reconcileKey m' hash' r hreconcile
      · exact h.notDecided d hemitting
  | record m =>
      simp only [LifecycleState.exec, LifecycleState.record] at hemitting
      split at hemitting
      · split at hemitting
        · cases hemitting
        · cases hemitting
        · cases hemitting
      · exact h.notDecided d hemitting
  | store stores =>
      simp only [LifecycleState.exec, LifecycleState.store] at hemitting
      split at hemitting
      · split at hemitting
        · cases hemitting
        · cases hemitting
      · exact h.notDecided d hemitting
  | crash =>
      simp only [LifecycleState.exec] at hemitting
      split at hemitting
      · cases hemitting
      · cases hemitting
  | decline m proposalId reason => exact h.notDecided d hemitting
  | append m event =>
      simp only [LifecycleState.exec] at hemitting
      split at hemitting
      · exact h.notDecided d hemitting
      · split at hemitting
        · exact h.notDecided d hemitting
        · exact h.notDecided d hemitting
  | tables brain => exact h.notDecided d hemitting

variable (digest) in
/-- Then a step proposes nothing for the key. -/
theorem stuck_step (h : Stuck σ target key) (step : LifecycleStep) :
    Stuck (σ.exec digest step) target key ∧
      matchingProposals (σ.exec digest step).log target key =
        matchingProposals σ.log target key := by
  rcases exec_grows digest σ step with
    hsame | ⟨m, draft, stored, hs, hlog, happends⟩
  · rw [hsame]
    refine ⟨⟨?_, h.ofMandate, notDecided_exec h step⟩, rfl⟩
    rw [hsame]
    exact h.declined
  · rw [hlog]
    refine ⟨⟨?_, h.ofMandate, notDecided_exec h step⟩,
      matchingProposals_other ?_⟩
    · rw [hlog]
      exact h.declined.append [stored]
    · intro htype
      rw [hs.eventType_eq] at htype
      rw [← Bool.not_eq_true]
      intro hmatch
      rcases happends with ⟨e, hemitting, hdraft⟩ | ⟨hproposal, -⟩
      · cases e with
        | nothing => cases hdraft
        | elidedByCap => cases hdraft
        | rejected r =>
            cases hdraft
            have hne : writeRejectedEventType ≠ writeProposalEventType := by
              decide
            exact hne htype
        | proposed d =>
            cases hdraft
            exact h.notDecided d hemitting (matchesKey_draft hs hmatch)
      · exact hproposal htype

theorem stuck_run (h : Stuck σ target key) (steps : List LifecycleStep) :
    matchingProposals (run (LifecycleState.exec digest) σ steps).log target
      key = matchingProposals σ.log target key := by
  induction steps generalizing σ with
  | nil => rfl
  | cons step rest ih =>
      obtain ⟨hnext, hproposals⟩ := stuck_step digest h step
      exact (ih hnext).trans hproposals

end DeclinedKey

/-! ## The life of a proposal -/

section Lifecycle

variable {σ : LifecycleState} {p : PendingProposal}

/-- A pending proposal, and the event that records it. -/
theorem event_of_pending (h : LifecycleInv digest σ)
    (hp : p ∈ pendingProposals render σ.log) :
    ∃ ev d, pendingOf ev = p ∧ Recorded digest d ev ∧
      ev ∈ matchingProposals σ.log p.target p.inducingKey ∧
      ev.id ∉ resolvedProposals σ.log := by
  obtain ⟨⟨ev, hev, hrow⟩, hopen, -⟩ := mem_pendingProposals.1 hp
  obtain ⟨hmem, htype⟩ := mem_eventsOfTypes.1 hev
  rw [List.mem_singleton] at htype
  obtain ⟨d, hrecorded⟩ := h.recorded ev hmem htype
  obtain ⟨htarget, hkey, -, -⟩ := hrecorded.pendingOf_eq
  refine ⟨ev, d, hrow, hrecorded, ?_, ?_⟩
  · rw [← hrow, htarget, hkey]
    exact mem_matchingProposals.2
      ⟨hmem, htype, hrecorded.matchesKey_eq⟩
  · rw [← hrow] at hopen
    exact hopen

/-- What is pending is suppressed, by both predicates. -/
theorem suppressed_of_pending (h : LifecycleInv digest σ)
    (hp : p ∈ pendingProposals render σ.log) :
    isProposalSuppressed σ.log p.target p.inducingKey = true ∧
      isMandateProposalSuppressed σ.log p.target p.inducingKey = true := by
  obtain ⟨ev, d, -, -, hev, hopen⟩ := event_of_pending h hp
  have hnotFresh : ¬ Fresh σ.log p.target p.inducingKey :=
    fun hfresh => hopen (hfresh.resolved ev hev)
  constructor
  · rw [← Bool.not_eq_false, isProposalSuppressed_iff]
    exact hnotFresh
  · rw [← Bool.not_eq_false, isMandateProposalSuppressed_iff]
    exact fun hboth => hnotFresh hboth.1

theorem pending_unique (h : LifecycleInv digest σ) {q : PendingProposal}
    (hp : p ∈ pendingProposals render σ.log)
    (hq : q ∈ pendingProposals render σ.log) (htarget : p.target = q.target)
    (hkey : p.inducingKey = q.inducingKey) : p = q := by
  obtain ⟨ev, d, hrow, -, hev, hopen⟩ := event_of_pending h hp
  obtain ⟨ev', d', hrow', -, hev', hopen'⟩ := event_of_pending h hq
  rw [← htarget, ← hkey] at hev'
  rw [← hrow, ← hrow', h.oneOpen _ _ ev hev ev' hev' hopen hopen']

/-- A decline of a mandate's pending proposal ends its key. -/
theorem stuck_of_decline (h : LifecycleInv digest σ)
    (hp : p ∈ pendingProposals render σ.log)
    (hproducer : p.producer = m6cProposerProducer) {m : Mint}
    {reason id : String}
    (hdecline : (declineWriteProposal m σ.review p.id reason).1 = .ok id) :
    Stuck (σ.exec digest (.decline m p.id reason)) p.target p.inducingKey ∧
      matchingProposals (σ.exec digest (.decline m p.id reason)).log p.target
        p.inducingKey = matchingProposals σ.log p.target p.inducingKey := by
  obtain ⟨ev, d, hrow, hrecorded, hev, hopen⟩ := event_of_pending h hp
  obtain ⟨-, hkey, -, hproducer'⟩ := hrecorded.pendingOf_eq
  rcases declineWriteProposal_cases m σ.review p.id reason with
    ⟨err, hrun⟩ | ⟨draft, stored, hs, htype, hresolves, hrun⟩
  · rw [hrun] at hdecline
    cases hdecline
  · have hlog : (σ.exec digest (.decline m p.id reason)).log =
        σ.log ++ [stored] := by
      simp only [LifecycleState.exec, hrun]
      rfl
    have hstored : stored.eventType = writeDeclinedEventType :=
      hs.eventType_eq.trans htype
    have hother : matchingProposals (σ.log ++ [stored]) p.target
        p.inducingKey = matchingProposals σ.log p.target p.inducingKey := by
      refine matchingProposals_other ?_
      intro heq
      rw [hstored] at heq
      exact absurd heq (by decide)
    rw [hlog]
    refine ⟨⟨?_, ?_, ?_⟩, hother⟩
    · rw [hlog]
      refine ⟨ev, ?_, ?_⟩
      · rw [hother]
        exact hev
      · refine mem_declinedProposals.2 ⟨stored,
          List.mem_append_right _ (List.mem_singleton_self _), hstored, ?_⟩
        have hid : ev.id = p.id := by
          rw [← hrow]
          rfl
        rw [Json.getStr?, get?_stored hs (by decide), hid]
        exact hresolves
    · have hmandate : d.producer = m6cProposerProducer := by
        rw [← hproducer', hrow]
        exact hproducer
      have hinducing : p.inducingKey = d.inducingKey := by
        rw [← hrow]
        exact hkey
      rw [hinducing]
      exact hrecorded.mandateKey_eq hmandate
    · intro d' hemitting
      have hdecided : σ.emitting = .decided (.proposed d') := hemitting
      rintro ⟨htarget, hkey'⟩
      obtain ⟨hfresh, -⟩ := h.justified _ hdecided
      rw [htarget, hkey'] at hfresh
      exact hopen (hfresh.resolved ev hev)

theorem bytes_of_pending (h : LifecycleInv digest σ)
    (hp : p ∈ pendingProposals render σ.log) :
    (∃ content, getProposalBytesChecked digest σ.review p.id
        p.newContentHash = .ok content) ∨
      σ.emitting.Holds p.id ∨ p.id ∈ σ.torn := by
  obtain ⟨ev, d, hrow, hrecorded, hev, -⟩ := event_of_pending h hp
  have hkept := h.kept ev (mem_matchingProposals.1 hev).1 hrecorded.type_eq
  rw [← hrow]
  exact hkept

/-- What is pending is suppressed, by both predicates; one proposal for a
target and a key is pending at most; after a refusal nothing is proposed for
the key, and it is not refused but for an empty synthesis; after a decline of
a mandate's pending proposal nothing is proposed for its key; and what is
pending has its bytes, unless its tick is about to store them or was kept
from it. -/
theorem proposal_lifecycle (h : σ.Reachable digest) :
    (∀ p ∈ pendingProposals render σ.log,
      isProposalSuppressed σ.log p.target p.inducingKey = true ∧
        isMandateProposalSuppressed σ.log p.target p.inducingKey = true) ∧
    (∀ p ∈ pendingProposals render σ.log,
      ∀ q ∈ pendingProposals render σ.log, p.target = q.target →
        p.inducingKey = q.inducingKey → p = q) ∧
    (∀ target key, rejectedKey σ.log target key = true →
      ∀ steps, matchingProposals
          (run (LifecycleState.exec digest) σ steps).log target key =
            matchingProposals σ.log target key ∧
        properRejections
          (run (LifecycleState.exec digest) σ steps).log target key =
            properRejections σ.log target key) ∧
    (∀ p ∈ pendingProposals render σ.log, p.producer = m6cProposerProducer →
      ∀ m reason id,
        (declineWriteProposal m σ.review p.id reason).1 = .ok id →
        ∀ steps, matchingProposals (run (LifecycleState.exec digest)
            (σ.exec digest (.decline m p.id reason)) steps).log p.target
            p.inducingKey =
          matchingProposals σ.log p.target p.inducingKey) ∧
    (∀ p ∈ pendingProposals render σ.log,
      (∃ content, getProposalBytesChecked digest σ.review p.id
          p.newContentHash = .ok content) ∨
        σ.emitting.Holds p.id ∨ p.id ∈ σ.torn) := by
  have hinv := lifecycleInv_of_reachable h
  refine ⟨fun p hp => suppressed_of_pending hinv hp,
    fun p hp q hq => pending_unique hinv hp hq,
    fun target key hrejected => refused_run hinv hrejected, ?_,
    fun p hp => bytes_of_pending hinv hp⟩
  intro p hp hproducer m reason id hdecline steps
  obtain ⟨hstuck, hsame⟩ := stuck_of_decline hinv hp hproducer hdecline
  exact (stuck_run hstuck steps).trans hsame

end Lifecycle

/-! ## A crash, and an empty synthesis -/

namespace LifecycleRun

open MandateRun

/-- The mandate's sources are tracked, and nothing is logged. -/
def begin (cache : List SynthesisRow) : LifecycleState :=
  { review :=
      { brain := { (start none).brain with log := [] }
        proposalBytes := []
        synthesis := cache }
    emitting := .idle
    torn := [] }

/-- The sources have been synthesised before. -/
def cached : LifecycleState := begin (start none).synthesis

/-- The mandate and its source are logged; the tick stops between the append
and the storing of the bytes. -/
def crashing : List LifecycleStep :=
  [.append (.plain "note") (.draft memoryEventType (.obj []) none),
    .append (.plain "m") (.draft memoryEventType (.obj []) none),
    .mandate mandate (.error (.store "")) 0, .record (.plain "p"), .crash]

def crashed : LifecycleState :=
  run (LifecycleState.exec size) cached crashing

/-- A tick in which the model answers with nothing. -/
def emptyTick (id : String) : List LifecycleStep :=
  [.mandate mandate (.ok (.obj [])) 0, .record (.plain id)]

def refused : LifecycleState :=
  run (LifecycleState.exec size) (begin []) (emptyTick "first")

/-- The refusals for the key of the mandate. -/
def refusals (σ : LifecycleState) : Nat :=
  ((eventsOfTypes σ.log [writeRejectedEventType]).filter
    (matchesKey "/a/g" (mandateKey mandate (sourcesHash size sources)))).length

end LifecycleRun

open MandateRun LifecycleRun in
theorem lifecycle_not_closed :
    (crashed.Reachable size ∧ ∃ p ∈ pendingProposals noText crashed.log,
      ∀ content, getProposalBytesChecked size crashed.review p.id
        p.newContentHash ≠ .ok content) ∧
    (refused.Reachable size ∧
      rejectedKey refused.log "/a/g"
        (mandateKey mandate (sourcesHash size sources)) = true ∧
      refusals refused = 1 ∧
      refusals (run (LifecycleState.exec size) refused
        (emptyTick "second")) = 2) := by
  refine ⟨⟨⟨cached, _, rfl, rfl, rfl⟩, proposal .create, ?_, ?_⟩,
    ⟨begin [], _, rfl, rfl, rfl⟩, ?_, ?_, ?_⟩
  · have hpending : pendingProposals noText crashed.log =
        [proposal .create] := rfl
    rw [hpending]
    exact List.mem_singleton_self _
  · intro content hget
    have hnone : getProposalBytesChecked size crashed.review "p" "0" =
        .error (.invalidInput "proposal_bytes fail-closed: no cached bytes for this proposal id (unknown or GC'd)") := rfl
    have hsame := hnone.symm.trans hget
    cases hsame
  · decide +kernel
  · decide +kernel
  · decide +kernel

open MandateRun LifecycleRun in
theorem proposal_lifecycle_sample :
    (∀ p ∈ pendingProposals noText crashed.log,
      isProposalSuppressed crashed.log p.target p.inducingKey = true ∧
        isMandateProposalSuppressed crashed.log p.target p.inducingKey =
          true) ∧
    (∀ p ∈ pendingProposals noText crashed.log,
      ∀ q ∈ pendingProposals noText crashed.log, p.target = q.target →
        p.inducingKey = q.inducingKey → p = q) := by
  have hreachable : crashed.Reachable size := ⟨cached, _, rfl, rfl, rfl⟩
  exact ⟨(proposal_lifecycle hreachable).1,
    (proposal_lifecycle hreachable).2.1⟩

end AirNote
