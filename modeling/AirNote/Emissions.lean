import AirNote.Proposals

/-!
# What a tick emits

What a decision of a tick says about the log it was made on and about the
brain, and what the folds read out of the events it is recorded by.
-/

namespace AirNote

open Lib.Paths

variable {digest : Bytes → String}

/-! ## The folds -/

theorem mem_resolvedProposals {log : EventLog} {id : String} :
    id ∈ resolvedProposals log ↔ ∃ ev ∈ log,
      (ev.eventType = writeDeclinedEventType ∨
        ev.eventType = fileWrittenEventType) ∧
      ev.content.getStr? "resolves_proposal" = some id := by
  unfold resolvedProposals
  simp only [List.mem_filterMap, mem_eventsOfTypes, List.mem_cons,
    List.not_mem_nil, or_false, and_assoc]

theorem mem_pendingProposals {render : Json → String} {log : EventLog} {p : PendingProposal} :
    p ∈ pendingProposals render log ↔
      (∃ ev ∈ eventsOfTypes log [writeProposalEventType], pendingOf ev = p) ∧
        p.id ∉ resolvedProposals log ∧
        (p.target, render p.inducingKey) ∉ rejectedKeys render log := by
  unfold pendingProposals
  rw [List.mem_filter, List.mem_map, Bool.and_eq_true, Bool.not_eq_true',
    Bool.not_eq_true', List.contains_eq_mem, List.contains_eq_mem,
    decide_eq_false_iff_not, decide_eq_false_iff_not]

/-! ## The decision of a mandate -/

theorem mem_sortDedup {id : String} {ids : List String} :
    id ∈ sortDedup ids ↔ id ∈ ids := by
  rw [sortDedup, List.mem_eraseDups, List.mem_insertionSort]

/-- The synthesis leaves the brain alone, and it does not decide to
propose. -/
theorem synthesize_spec {s s' : ReviewState} {m : Mandate}
    {answer : Except BossclawError Json} {sources : List FileRecord}
    {hash : String}
    {r : Except BossclawError (MandateAction ⊕ (Bytes × List String))}
    (h : synthesize s m answer sources hash = (r, s')) :
    (s'.brain = s.brain ∧ s'.proposalBytes = s.proposalBytes) ∧
      ∀ expected lineage op hash',
        r ≠ .ok (.inl (.propose expected lineage op hash')) := by
  unfold synthesize at h
  dsimp only at h
  split at h
  · cases h
    exact ⟨⟨rfl, rfl⟩, fun _ _ _ _ heq => by cases heq⟩
  · split at h
    · cases h
      exact ⟨⟨rfl, rfl⟩, fun _ _ _ _ heq => by cases heq⟩
    · split at h
      · cases h
        exact ⟨⟨rfl, rfl⟩, fun _ _ _ _ heq => by cases heq⟩
      · split at h
        · cases h
          exact ⟨⟨rfl, rfl⟩, fun _ _ _ _ heq => by cases heq⟩
        · split at h
          · cases h
            exact ⟨⟨rfl, rfl⟩, fun _ _ _ _ heq => by cases heq⟩
          · split at h
            · cases h
              exact ⟨⟨rfl, rfl⟩, fun _ _ _ _ heq => by cases heq⟩
            · cases h
              exact ⟨⟨rfl, rfl⟩, fun _ _ _ _ heq => by cases heq⟩

/-- The phase proposes to create a file or to edit one, in the name of the
mandate, and leaves the brain alone. -/
theorem mandatePhaseFor_spec {s s' : ReviewState} {m : Mandate}
    {answer : Except BossclawError Json}
    {r : Except BossclawError MandateAction}
    (h : mandatePhaseFor digest s m answer = (r, s')) :
    (s'.brain = s.brain ∧ s'.proposalBytes = s.proposalBytes) ∧
      ∀ expected lineage op hash,
        r = .ok (.propose expected lineage op hash) →
          op ≠ .delete ∧ lineage ≠ [] := by
  unfold mandatePhaseFor at h
  dsimp only at h
  split at h
  · cases h
    exact ⟨⟨rfl, rfl⟩, fun _ _ _ _ heq => by cases heq⟩
  · split at h
    · next hsyn =>
        cases h
        exact ⟨(synthesize_spec hsyn).1, fun _ _ _ _ heq => by cases heq⟩
    · next action _ hsyn =>
        cases h
        refine ⟨(synthesize_spec hsyn).1, ?_⟩
        intro expected lineage op hash heq
        have haction : action = .propose expected lineage op hash :=
          Except.ok.inj heq
        rw [haction] at hsyn
        exact absurd rfl ((synthesize_spec hsyn).2 expected lineage op hash)
    · next hsyn =>
        split at h
        · cases h
          exact ⟨(synthesize_spec hsyn).1, fun _ _ _ _ heq => by cases heq⟩
        · cases h
          refine ⟨(synthesize_spec hsyn).1, ?_⟩
          intro expected lineage op hash heq
          cases heq
          refine ⟨?_, List.ne_nil_of_mem
            (mem_sortDedup.2 List.mem_cons_self)⟩
          split
          · decide
          · decide

/-- A proposal a mandate decides on, field by field, and its gate. -/
theorem decideMandate_proposed {s s' : ReviewState} {m : Mandate}
    {answer : Except BossclawError Json} {emitted : Nat} {d : ProposalDraft}
    (h : decideMandate digest s m answer emitted = (.ok (.proposed d), s')) :
    s'.brain = s.brain ∧ d.op ≠ .delete ∧ d.lineage ≠ [] ∧
      d.verdictSummary.get? "base_content_hash" = none ∧
      (proposeWrite digest s.brain
        { target := ofString d.target, newContent := d.content, op := d.op,
          sourceEventIds := d.lineage,
          rationale := d.rationale }).verdict.rejectReason = none := by
  unfold decideMandate at h
  split at h
  · cases h
  · cases h
  · cases h
  · next hphase =>
      obtain ⟨⟨hbrain, -⟩, hshape⟩ := mandatePhaseFor_spec hphase
      obtain ⟨hop, hlineage⟩ := hshape _ _ _ _ rfl
      split at h
      · cases h
      · split at h
        · cases h
        · dsimp only at h
          split at h
          · cases h
          · next hreason =>
              cases h
              refine ⟨hbrain, hop, hlineage, rfl, ?_⟩
              rw [← hbrain]
              unfold gateRejectReason at hreason
              split at hreason
              · cases hreason
              · next hnone => exact hnone

variable (digest) in
theorem mandatePhaseFor_kept (s : ReviewState) (m : Mandate)
    (answer : Except BossclawError Json) :
    (mandatePhaseFor digest s m answer).2.brain = s.brain ∧
      (mandatePhaseFor digest s m answer).2.proposalBytes =
        s.proposalBytes :=
  (mandatePhaseFor_spec rfl).1

variable (digest) in
/-- A decision leaves the brain and the stored bytes alone. -/
theorem decideMandate_kept (s : ReviewState) (m : Mandate)
    (answer : Except BossclawError Json) (emitted : Nat) :
    (decideMandate digest s m answer emitted).2.brain = s.brain ∧
      (decideMandate digest s m answer emitted).2.proposalBytes =
        s.proposalBytes := by
  have hphase := mandatePhaseFor_kept digest s m answer
  unfold decideMandate
  cases hrun : mandatePhaseFor digest s m answer with
  | mk r s' =>
      rw [hrun] at hphase
      cases r with
      | error e => exact hphase
      | ok action =>
          cases action with
          | elide => exact hphase
          | reject reason hash => exact hphase
          | propose expected lineage op hash =>
              dsimp only
              split
              · exact hphase
              · split
                · exact hphase
                · split
                  · exact hphase
                  · exact hphase

/-! ## The event -/

/-- The taint stamp does not touch the other members of a content. -/
theorem get?_stampedContent {log : EventLog} {event : Event} {k : String}
    (hk : k ≠ "origin") :
    (stampedContent log event).get? k = event.content.get? k := by
  unfold stampedContent
  split
  · exact Json.get?_insertIfObject_ne hk _ event.content
  · rfl

/-- The row of a stored proposal. -/
theorem pendingOf_stored {mint : Mint} {log : EventLog} {d : ProposalDraft}
    {ev : Event} (hs : Stored mint log (writeProposalEvent d) ev) :
    pendingOf ev =
      { id := mint.id
        target := d.target
        op := d.op.str
        newContentHash := d.contentHash
        rationale := d.rationale
        inducingKey := d.inducingKey
        sourceEventIds := d.lineage
        producer := d.producer
        verdictSummary := d.verdictSummary
        baseContentHash := d.verdictSummary.getStr? "base_content_hash" } := by
  have hget : ∀ k, k ≠ "origin" →
      ev.content.get? k = (writeProposalEvent d).content.get? k := by
    intro k hk
    rw [hs.content_eq]
    exact get?_stampedContent hk
  unfold pendingOf Json.getStr? Event.sources
  rw [hget "verdict_summary" (by decide), hget "target" (by decide),
    hget "op" (by decide), hget "new_content_hash" (by decide),
    hget "rationale" (by decide), hget "inducing_key" (by decide),
    hs.modelMeta_eq, hs.id_eq]
  rfl

/-- The members of an event do not change when it is stored, the taint stamp
apart. -/
theorem get?_stored {m : Mint} {log : EventLog} {draft stored : Event}
    {k : String} (hs : Stored m log draft stored) (hk : k ≠ "origin") :
    stored.content.get? k = draft.content.get? k := by
  rw [hs.content_eq]
  exact get?_stampedContent hk

/-! ## Refusals and suppression -/

/-- The only refusal of the phase is for an empty synthesis. -/
theorem synthesize_reject {s s' : ReviewState} {m : Mandate}
    {answer : Except BossclawError Json} {sources : List FileRecord}
    {hash reason hash' : String}
    (h : synthesize s m answer sources hash =
      (.ok (.inl (.reject reason hash')), s')) :
    reason = "empty synthesis" := by
  unfold synthesize at h
  dsimp only at h
  split at h
  · cases h
  · split at h
    · cases h
    · split at h
      · cases h
      · split at h
        · cases h
        · split at h
          · cases h
            rfl
          · split at h
            · cases h
            · cases h

theorem mandatePhaseFor_reject {s s' : ReviewState} {m : Mandate}
    {answer : Except BossclawError Json} {reason hash : String}
    (h : mandatePhaseFor digest s m answer = (.ok (.reject reason hash), s')) :
    reason = "empty synthesis" := by
  unfold mandatePhaseFor at h
  dsimp only at h
  split at h
  · cases h
  · split at h
    · cases h
    · next action _ hsyn =>
        have haction : action = .reject reason hash :=
          Except.ok.inj (Prod.mk.inj h).1
        rw [haction] at hsyn
        exact synthesize_reject hsyn
    · split at h
      · cases h
      · cases h

/-- The target and the key are not refused, and every proposal for them is
resolved. -/
structure Fresh (log : EventLog) (target : String) (key : Json) : Prop where
  notRejected : rejectedKey log target key = false
  resolved : ∀ ev ∈ matchingProposals log target key,
    ev.id ∈ resolvedProposals log

/-- A proposal for the target and the key was declined. -/
def Declined (log : EventLog) (target : String) (key : Json) : Prop :=
  ∃ ev ∈ matchingProposals log target key, ev.id ∈ declinedProposals log

theorem isProposalSuppressed_iff {log : EventLog} {target : String}
    {key : Json} :
    isProposalSuppressed log target key = false ↔ Fresh log target key := by
  unfold isProposalSuppressed
  rw [Bool.or_eq_false_iff, List.any_eq_false]
  simp only [Bool.not_eq_true', Bool.not_eq_false, List.contains_iff_mem]
  constructor
  · rintro ⟨hrejected, hall⟩
    exact ⟨hrejected, hall⟩
  · intro h
    exact ⟨h.notRejected, h.resolved⟩

theorem isMandateProposalSuppressed_iff {log : EventLog} {target : String}
    {key : Json} :
    isMandateProposalSuppressed log target key = false ↔
      Fresh log target key ∧ ¬ Declined log target key := by
  unfold isMandateProposalSuppressed Declined
  rw [Bool.or_eq_false_iff, List.any_eq_false]
  constructor
  · rintro ⟨hrejected, hall⟩
    refine ⟨⟨hrejected, ?_⟩, ?_⟩
    · intro ev hev
      have hnot := hall ev hev
      simp only [Bool.or_eq_true, Bool.not_eq_true', not_or,
        Bool.not_eq_false, List.contains_iff_mem] at hnot
      exact hnot.1
    · rintro ⟨ev, hev, hdeclined⟩
      have hnot := hall ev hev
      simp only [Bool.or_eq_true, Bool.not_eq_true', not_or,
        Bool.not_eq_false, List.contains_iff_mem] at hnot
      exact hnot.2 hdeclined
  · rintro ⟨hfresh, hnone⟩
    refine ⟨hfresh.notRejected, ?_⟩
    intro ev hev
    simp only [Bool.or_eq_true, Bool.not_eq_true', not_or,
      Bool.not_eq_false, List.contains_iff_mem]
    exact ⟨hfresh.resolved ev hev, fun hdeclined => hnone ⟨ev, hev, hdeclined⟩⟩

/-- A decision of a mandate is about its key; it was not suppressed, or it
refuses an empty synthesis. -/
theorem decideMandate_key {s s' : ReviewState} {m : Mandate}
    {answer : Except BossclawError Json} {emitted : Nat} {e : Emission}
    (h : decideMandate digest s m answer emitted = (.ok e, s')) :
    (∀ r, e = .rejected r → r.reason = "empty synthesis" ∨
      Fresh s.brain.log r.target r.inducingKey) ∧
    (∀ d, e = .proposed d → Fresh s.brain.log d.target d.inducingKey ∧
      ¬ Declined s.brain.log d.target d.inducingKey ∧
      d.contentHash = digest d.content ∧ d.producer = m6cProposerProducer ∧
      ∃ hash, d.inducingKey = mandateKey m hash) := by
  unfold decideMandate at h
  split at h
  · cases h
  · cases h
    exact ⟨fun r heq => (by cases heq), fun d heq => by cases heq⟩
  · next reason hash _ hphase =>
      cases h
      refine ⟨?_, fun d heq => by cases heq⟩
      intro r heq
      cases heq
      exact .inl (mandatePhaseFor_reject hphase)
  · next expected lineage op hash _ hphase =>
      have hbrain := (mandatePhaseFor_spec hphase).1.1
      split at h
      · cases h
        exact ⟨fun r heq => (by cases heq), fun d heq => by cases heq⟩
      · next hopen =>
          rw [hbrain, Bool.not_eq_true, isMandateProposalSuppressed_iff]
            at hopen
          split at h
          · cases h
            exact ⟨fun r heq => (by cases heq), fun d heq => by cases heq⟩
          · dsimp only at h
            split at h
            · cases h
              refine ⟨?_, fun d heq => by cases heq⟩
              intro r heq
              cases heq
              exact .inr hopen.1
            · cases h
              refine ⟨fun r heq => (by cases heq), ?_⟩
              intro d heq
              cases heq
              exact ⟨hopen.1, hopen.2, rfl, rfl, hash, rfl⟩

/-- A decision of the reconciler is about its key, and was not suppressed. -/
theorem decideReconcile_key {s : ReviewState} {r : ProposedRetraction}
    {rec : FileRecord} {lineage : List String}
    {answer : Except BossclawError Json} {emitted : Nat} {e : Emission}
    (h : decideReconcile digest s r rec lineage answer emitted = .ok e) :
    (∀ x, e = .rejected x → Fresh s.brain.log x.target x.inducingKey) ∧
    (∀ d, e = .proposed d → Fresh s.brain.log d.target d.inducingKey ∧
      d.contentHash = digest d.content ∧ d.producer = m6bProposerProducer ∧
      d.inducingKey = reconcileKey r) := by
  unfold decideReconcile at h
  dsimp only at h
  split at h
  · cases h
  · cases h
    exact ⟨fun r heq => (by cases heq), fun d heq => by cases heq⟩
  · split at h
    · cases h
      exact ⟨fun r heq => (by cases heq), fun d heq => by cases heq⟩
    · next hopen =>
        rw [Bool.not_eq_true, isProposalSuppressed_iff] at hopen
        -- every refusal below is about the same target and key
        have hreject : ∀ reason : String,
            (∀ x, Emission.rejected
                { target := rec.canonicalPath, reason := reason,
                  inducingKey := reconcileKey r, lineage := lineage,
                  producer := m6bProposerProducer } = .rejected x →
              Fresh s.brain.log x.target x.inducingKey) ∧
            (∀ d, Emission.rejected
                { target := rec.canonicalPath, reason := reason,
                  inducingKey := reconcileKey r, lineage := lineage,
                  producer := m6bProposerProducer } = .proposed d →
              Fresh s.brain.log d.target d.inducingKey ∧
                d.contentHash = digest d.content ∧
                d.producer = m6bProposerProducer ∧
                d.inducingKey = reconcileKey r) := by
          intro reason
          refine ⟨?_, fun d heq => by cases heq⟩
          intro x heq
          cases heq
          exact hopen
        split at h
        · cases h
          exact ⟨fun r heq => (by cases heq), fun d heq => by cases heq⟩
        · split at h
          · cases h
            exact hreject _
          · split at h
            · cases h
            · split at h
              · cases h
                exact hreject _
              · split at h
                · cases h
                  exact hreject _
                · split at h
                  · cases h
                    exact ⟨fun r heq => (by cases heq),
                      fun d heq => by cases heq⟩
                  · cases h
                    refine ⟨fun r heq => (by cases heq), ?_⟩
                    intro d heq
                    cases heq
                    exact ⟨hopen, rfl, rfl, rfl⟩

theorem mandateKey_ne_reconcileKey (m : Mandate) (hash : String)
    (r : ProposedRetraction) : mandateKey m hash ≠ reconcileKey r := by
  intro heq
  unfold mandateKey reconcileKey at heq
  simp at heq

end AirNote
