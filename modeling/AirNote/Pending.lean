import AirNote.Conflicts

/-!
# Which pending proposals can be resolved

A proposal leaves the pending list when it is resolved, because the
resolution is *in force*: the loser is retired, or the pair is kept, or every
session head recorded at the dismissal still stands. A resolution can lapse.
Restoring the loser or capturing a dismissed session anew brings the proposal
back to the list, while its terminal marker stays in the log for good, and
`resolve_conflict` is guarded by the marker. So the two disagree exactly on
the pending proposals that carry a marker.

## Main results

* `ResolutionsInForce.exec` — a step that undoes no recorded resolution keeps
  all of them in force.
* `pending_resolvable_iff_unmarked` — in every reachable state a pending
  proposal can be resolved iff it carries no terminal marker; and in the runs
  whose steps undo no resolution, no pending proposal carries one.
* `pending_not_resolvable` — a dismissed proposal that lapsed is pending for
  ever.
-/

namespace AirNote

open Lib

/-! ## Operations -/

/-- The types of the terminal markers. -/
def isTerminalType (eventType : String) : Bool :=
  eventType == conflictResolvedEventType
    || eventType == coexistAllowedEventType
    || eventType == dismissedEventType

/-- The other parts of the engine append no event of the session stream and
no terminal marker. -/
def MemoryOp.Untracked : MemoryOp → Prop
  | .call c => ∀ ev ∈ c.events, isSessionStreamType ev.eventType = false ∧
      isTerminalType ev.eventType = false
  | _ => True

/-- One operation around the conflicts: a memory operation, a verdict of the
sweep, or a resolution. -/
inductive ConflictOp where
  | memory (op : MemoryOp) (h : op.Untracked)
  | detect (m : Mint) (older newer : ConflictRef)
      (winner band why : String) (detectedAt : Int)
  | resolve (m₁ m₂ : Mint) (pid : String) (action : ResolveAction)

/-- The store an operation leaves behind. -/
def ConflictOp.exec (st : Store) : ConflictOp → Store
  | .memory op _ => op.exec st
  | .detect m older newer winner band why detectedAt =>
      (recordContradiction m st older newer winner band why detectedAt).1
  | .resolve m₁ m₂ pid action => (resolveConflict m₁ m₂ st pid action).1

/-! ## Resolutions in force -/

/-- The session of a passage reference. -/
def ConflictRef.session? : ConflictRef → Option String
  | .note _ => none
  | .passage sid _ => some sid

/-- A resolution of the given kind still keeps its proposal `(a, b)` off the
list. A recorded head may also be gone for good with its session. -/
def InForce (log : EventLog) (marker : Event) (a b : ConflictRef) :
    ResolutionKind → Prop
  | .retireOlder => refRetired log a = true
  | .retireNewer => refRetired log b = true
  | .keepBoth => marker.eventType = coexistAllowedEventType ∧
      marker.content.getStr? "pair_key" = some (a.unorderedPairKey b)
  | .dismiss => marker.eventType = dismissedEventType ∧
      marker.content.getStr? "pair_key" = some (a.unorderedPairKey b) ∧
      ∃ heads : List (String × Json),
        marker.content.get? "session_heads" = some (.obj heads) ∧
        ∀ q ∈ heads, (a.session? = some q.1 ∨ b.session? = some q.1) ∧
          ((∃ head, q.2 = .str head ∧ headOf log q.1 = some head) ∨
            ∃ e ∈ log, Deletes q.1 e)

/-- The proposal has a resolution in force. -/
def Settled (log : EventLog) (pid : String) : Prop :=
  ∃ ev ∈ log, ∃ record a b, recordOf ev = some (pid, record) ∧
    conflictProposalById log pid = some (a, b) ∧
    InForce log ev a b record.kind

/-- Every terminal marker of the log is in force. -/
def ResolutionsInForce (log : EventLog) : Prop :=
  ∀ ev ∈ log, ∀ pid record, recordOf ev = some (pid, record) →
    ∃ a b, conflictProposalById log pid = some (a, b) ∧
      InForce log ev a b record.kind

theorem proposalOf_some {ev : Event} {p : ConflictProposal}
    (h : proposalOf ev = some p) :
    p.id = ev.id ∧ proposalRefs ev = some (p.aRef, p.bRef) := by
  rw [proposalOf, Option.map_eq_some_iff] at h
  obtain ⟨⟨a, b⟩, hrefs, rfl⟩ := h
  exact ⟨rfl, hrefs⟩

/-- A listed proposal is found by its identifier, with its references. -/
theorem conflictProposalById_of_pending {st : Store} {p : ConflictProposal}
    (hu : UniqueIds st.log) (hp : p ∈ pendingConflictProposals st) :
    conflictProposalById st.log p.id = some (p.aRef, p.bRef) := by
  obtain ⟨⟨ev, hev, htype, hprop⟩, -⟩ := mem_pending_iff.1 hp
  obtain ⟨hid, hrefs⟩ := proposalOf_some hprop
  rw [conflictProposalById, hid, eventById_of_mem hu hev]
  simp [htype, hrefs]

theorem not_deleted_of_current {st : Store} {r : ConflictRef} {sid : String}
    (h : refIsCurrent st r = true) (hsid : r.session? = some sid) :
    ¬ ∃ e ∈ st.log, Deletes sid e := by
  intro hdel
  cases r with
  | note id => cases hsid
  | passage s p =>
      have hs : s = sid := Option.some.inj hsid
      subst hs
      simp [refIsCurrent, findCurrent_eq_none_of_deleted hdel] at h

/-- **A resolution in force keeps its proposal off the list.** -/
theorem not_pending_of_settled {st : Store} {pid : String}
    (hu : UniqueIds st.log) (h : Settled st.log pid) :
    ∀ p ∈ pendingConflictProposals st, p.id ≠ pid := by
  intro p hp heq
  subst heq
  obtain ⟨ev, hev, record, a, b, -, hrefs, hforce⟩ := h
  have hpair : a = p.aRef ∧ b = p.bRef := by
    rw [conflictProposalById_of_pending hu hp, Option.some.injEq,
      Prod.mk.injEq] at hrefs
    exact ⟨hrefs.1.symm, hrefs.2.symm⟩
  obtain ⟨rfl, rfl⟩ := hpair
  obtain ⟨-, ha, hb, hcoexist, hdismissed⟩ := mem_pending_iff.1 hp
  cases hkind : record.kind with
  | retireOlder =>
      rw [hkind] at hforce
      have hret : refRetired st.log p.aRef = true := hforce
      rw [refRetired_of_current ha] at hret
      cases hret
  | retireNewer =>
      rw [hkind] at hforce
      have hret : refRetired st.log p.bRef = true := hforce
      rw [refRetired_of_current hb] at hret
      cases hret
  | keepBoth =>
      rw [hkind] at hforce
      exact hcoexist (mem_coexistPairs.2 ⟨ev, hev, hforce⟩)
  | dismiss =>
      rw [hkind] at hforce
      obtain ⟨htype, hkey, heads, hheads, hstand⟩ := hforce
      refine hdismissed (mem_dismissedPairs.2 ⟨ev, hev, htype, hkey, ?_⟩)
      simp only [dismissalLive, hheads, List.all_eq_true, beq_iff_eq]
      intro q hq
      obtain ⟨hmember, ⟨head, hq2, hhead⟩ | hdel⟩ := hstand q hq
      · rw [hhead, hq2]
        rfl
      · -- a deleted session leaves a reference that is not current
        rcases hmember with hmem | hmem
        · exact absurd hdel (not_deleted_of_current ha hmem)
        · exact absurd hdel (not_deleted_of_current hb hmem)

/-! ## Which events keep resolutions in force -/

/-- The losers of the proposals resolved by retiring. -/
def resolvedLosers (log : EventLog) : List ConflictRef :=
  log.filterMap fun ev =>
    (recordOf ev).bind fun (pid, record) =>
      (conflictProposalById log pid).bind fun (a, b) =>
        match record.kind with
        | .retireOlder => some a
        | .retireNewer => some b
        | _ => none

/-- The sessions whose heads a dismissal recorded. -/
def dismissedSessions (log : EventLog) : List String :=
  log.flatMap fun ev =>
    if (recordOf ev).any fun r => r.2.kind == .dismiss then
      match ev.content.get? "session_heads" with
      | some (.obj heads) => heads.map Prod.fst
      | _ => []
    else []

/-- The event undoes no recorded resolution. -/
structure Keeps (log : EventLog) (ev : Event) : Prop where
  unretires : ∀ r ∈ resolvedLosers log, ¬ UnretiresRef r ev
  heads : ∀ sid ∈ dismissedSessions log,
    headOf (log ++ [ev]) sid = headOf log sid ∨ Deletes sid ev

theorem conflictProposalById_append {log : EventLog} {pid : String}
    {refs : ConflictRef × ConflictRef}
    (h : conflictProposalById log pid = some refs) (suffix : EventLog) :
    conflictProposalById (log ++ suffix) pid = some refs := by
  unfold conflictProposalById at h ⊢
  cases hev : eventById log pid with
  | none => simp [hev] at h
  | some ev =>
      rw [eventById_append_of_some hev]
      simpa [hev] using h

theorem mem_resolvedLosers {log : EventLog} {ev : Event} {pid : String}
    {record : ResolutionRecord} {a b : ConflictRef} (hev : ev ∈ log)
    (hrec : recordOf ev = some (pid, record))
    (hrefs : conflictProposalById log pid = some (a, b)) :
    (record.kind = .retireOlder → a ∈ resolvedLosers log) ∧
      (record.kind = .retireNewer → b ∈ resolvedLosers log) := by
  constructor
  · intro hkind
    exact List.mem_filterMap.mpr ⟨ev, hev, by simp [hrec, hrefs, hkind]⟩
  · intro hkind
    exact List.mem_filterMap.mpr ⟨ev, hev, by simp [hrec, hrefs, hkind]⟩

theorem mem_dismissedSessions {log : EventLog} {sid : String} :
    sid ∈ dismissedSessions log ↔
      ∃ ev ∈ log, (∃ pid record, recordOf ev = some (pid, record) ∧
          record.kind = .dismiss) ∧
        ∃ heads, ev.content.get? "session_heads" = some (.obj heads) ∧
          ∃ q ∈ heads, q.1 = sid := by
  rw [dismissedSessions, List.mem_flatMap]
  refine exists_congr fun ev => and_congr_right fun _ => ?_
  have hiff : ((recordOf ev).any fun r => r.2.kind == .dismiss) = true ↔
      ∃ pid record, recordOf ev = some (pid, record) ∧
        record.kind = .dismiss := by
    cases recordOf ev with
    | none => simp
    | some r =>
        obtain ⟨pid, record⟩ := r
        simp
  by_cases ht : ((recordOf ev).any fun r => r.2.kind == .dismiss) = true
  · rw [if_pos ht]
    constructor
    · intro h
      split at h
      · next heads hheads =>
          obtain ⟨q, hq, hsid⟩ := List.mem_map.mp h
          exact ⟨hiff.mp ht, heads, hheads, q, hq, hsid⟩
      · cases h
    · rintro ⟨-, heads, hheads, q, hq, hsid⟩
      rw [hheads]
      exact List.mem_map.mpr ⟨q, hq, hsid⟩
  · rw [if_neg ht]
    constructor
    · intro h
      cases h
    · intro h
      exact absurd (hiff.mpr h.1) ht

/-- A resolution stays in force over an event that undoes none. -/
theorem InForce.append {log : EventLog} {marker ev : Event} {pid : String}
    {record : ResolutionRecord} {a b : ConflictRef} (hmem : marker ∈ log)
    (hrec : recordOf marker = some (pid, record))
    (hrefs : conflictProposalById log pid = some (a, b))
    (h : InForce log marker a b record.kind) (hk : Keeps log ev) :
    InForce (log ++ [ev]) marker a b record.kind := by
  have hlosers := mem_resolvedLosers hmem hrec hrefs
  cases hkind : record.kind with
  | retireOlder =>
      rw [hkind] at h
      exact refRetired_append.2
        (.inr ⟨h, hk.unretires a (hlosers.1 hkind)⟩)
  | retireNewer =>
      rw [hkind] at h
      exact refRetired_append.2
        (.inr ⟨h, hk.unretires b (hlosers.2 hkind)⟩)
  | keepBoth =>
      rw [hkind] at h
      exact h
  | dismiss =>
      rw [hkind] at h
      obtain ⟨htype, hkey, heads, hheads, hstand⟩ := h
      refine ⟨htype, hkey, heads, hheads, fun q hq => ?_⟩
      obtain ⟨hmember, hhead⟩ := hstand q hq
      refine ⟨hmember, ?_⟩
      have hsid : q.1 ∈ dismissedSessions log :=
        mem_dismissedSessions.2
          ⟨marker, hmem, ⟨pid, record, hrec, hkind⟩, heads, hheads, q, hq,
            rfl⟩
      rcases hhead with hhead | ⟨e, he, hdel⟩
      · obtain ⟨head, hq2, hhead⟩ := hhead
        rcases hk.heads q.1 hsid with hsame | hdel
        · exact .inl ⟨head, hq2, hsame.trans hhead⟩
        · exact .inr ⟨ev, by simp, hdel⟩
      · exact .inr ⟨e, List.mem_append_left _ he, hdel⟩

/-- One event that undoes no resolution, and is in force itself if it is a
terminal marker. -/
theorem ResolutionsInForce.append {log : EventLog} {ev : Event}
    (h : ResolutionsInForce log) (hk : Keeps log ev)
    (hnew : ∀ pid record, recordOf ev = some (pid, record) →
      ∃ a b, conflictProposalById log pid = some (a, b) ∧
        InForce (log ++ [ev]) ev a b record.kind) :
    ResolutionsInForce (log ++ [ev]) := by
  intro marker hmarker pid record hrec
  rcases List.mem_append.mp hmarker with hold | hlast
  · obtain ⟨a, b, hrefs, hforce⟩ := h marker hold pid record hrec
    exact ⟨a, b, conflictProposalById_append hrefs [ev],
      hforce.append hold hrec hrefs hk⟩
  · rw [List.mem_singleton] at hlast
    subst hlast
    obtain ⟨a, b, hrefs, hforce⟩ := hnew pid record hrec
    exact ⟨a, b, conflictProposalById_append hrefs [marker], hforce⟩

/-! ### Events that undo nothing -/

theorem recordOf_eq_none {ev : Event}
    (h : isTerminalType ev.eventType = false) : recordOf ev = none := by
  rw [Option.eq_none_iff_forall_ne_some]
  rintro ⟨pid, record⟩ hrec
  have htype := eventType_of_recordOf hrec
  simp only [isTerminalType, Bool.or_eq_false_iff, beq_eq_false_iff_ne]
    at h
  simp only [List.mem_cons, List.not_mem_nil, or_false] at htype
  rcases htype with h' | h' | h'
  · exact h.1.1 h'
  · exact h.1.2 h'
  · exact h.2 h'

/-- Neither a restoring marker nor a capture nor a supersede. -/
theorem Keeps.of_types {log : EventLog} {ev : Event}
    (hun : ev.eventType ≠ unretireEventType)
    (hcap : ev.eventType ≠ sessionCapturedEventType)
    (hsup : ev.eventType ≠ supersedeEventType) : Keeps log ev := by
  constructor
  · intro r _ hr
    cases r with
    | note id => exact hun hr.1
    | passage sid pid => exact hun hr.1
  · intro sid _
    by_cases hdel : Deletes sid ev
    · exact .inr hdel
    · refine .inl (congrArg (Option.map CurrentSession.eventId) ?_)
      exact findCurrent_append (fun h => hcap h.1) hdel
        (fun id h => absurd h.1 hsup)

theorem ResolutionsInForce.stored {m : Mint} {log : EventLog}
    {draft stored : Event} (h : ResolutionsInForce log)
    (hs : Stored m log draft stored) (hk : Keeps log stored)
    (hterm : isTerminalType draft.eventType = false) :
    ResolutionsInForce (log ++ [stored]) := by
  refine h.append hk fun pid record hrec => ?_
  rw [recordOf_eq_none (by rw [hs.eventType_eq, hterm])] at hrec
  cases hrec

/-- The types of the events that neither undo nor record a resolution. -/
def isInertType (eventType : String) : Bool :=
  !(eventType == unretireEventType) && !(eventType == supersedeEventType)
    && !(eventType == sessionCapturedEventType)
    && !isTerminalType eventType

theorem ResolutionsInForce.stored_of_inert {m : Mint} {log : EventLog}
    {draft stored : Event} (h : ResolutionsInForce log)
    (hs : Stored m log draft stored)
    (hinert : isInertType draft.eventType = true) :
    ResolutionsInForce (log ++ [stored]) := by
  simp only [isInertType, Bool.and_eq_true, Bool.not_eq_true',
    beq_eq_false_iff_ne] at hinert
  obtain ⟨⟨⟨hun, hsup⟩, hcap⟩, hterm⟩ := hinert
  rw [← hs.eventType_eq] at hun hsup hcap
  exact h.stored hs (.of_types hun hcap hsup) hterm

/-- The events of the other parts of the engine. -/
theorem ResolutionsInForce.logged {log log' : EventLog}
    {drafts : List Event} (hlogged : Logged log drafts log')
    (hdrafts : ∀ ev ∈ drafts, isSessionStreamType ev.eventType = false ∧
      isTerminalType ev.eventType = false)
    (h : ResolutionsInForce log) : ResolutionsInForce log' := by
  induction hlogged with
  | nil => exact h
  | @cons m log log' draft stored drafts hs rest ih =>
      obtain ⟨hstream, hterm⟩ := hdrafts draft (by simp)
      have hinert : isInertType draft.eventType = true := by
        simp only [isSessionStreamType, Bool.or_eq_false_iff] at hstream
        simp [isInertType, hstream, hterm]
      have hstored := h.stored_of_inert hs hinert
      exact ih (fun ev hev => hdrafts ev (List.mem_cons_of_mem draft hev))
        hstored

/-! ### Restoring markers -/

theorem eq_of_unretiresRef_note {m : Mint} {log : EventLog}
    {target : String} {stored : Event} {r : ConflictRef}
    (hs : Stored m log (unretireEvent target) stored)
    (h : UnretiresRef r stored) : r = .note target := by
  have hcontent : stored.content.getStr? "unretires" = some target := by
    rw [hs.content_of_none rfl]
    rfl
  cases r with
  | note id =>
      have hid := h.2
      rw [hcontent, Option.some.injEq] at hid
      rw [hid]
  | passage sid pid =>
      have hnone := h.2.1
      rw [hcontent] at hnone
      cases hnone

theorem eq_of_unretiresRef_passage {m : Mint} {log : EventLog}
    {sid : String} {pid : Nat} {stored : Event} {r : ConflictRef}
    (hs : Stored m log (unretirePassageEvent sid pid) stored)
    (h : UnretiresRef r stored) : r = .passage sid pid := by
  have hcontent : stored.content = (unretirePassageEvent sid pid).content :=
    hs.content_of_none rfl
  cases r with
  | note id =>
      have hnone : stored.content.getStr? "unretires" = none := by
        rw [hcontent]
        rfl
      have hid := h.2
      rw [hnone] at hid
      cases hid
  | passage s p =>
      obtain ⟨hs', hp'⟩ := passageOf_eq_some h.2.2
      have hsid : stored.content.getStr? "session_id" = some sid := by
        rw [hcontent]
        rfl
      have hget : stored.content.get? "passage_id" = some (.num pid) := by
        rw [hcontent]
        rfl
      rw [hsid, Option.some.injEq] at hs'
      rw [Json.getU64?, hget, Option.bind_some] at hp'
      have hpid := (Json.asU64_eq_some hp').1
      rw [Json.num.injEq, Int.natCast_inj] at hpid
      rw [hs', hpid]

/-! ## Steps -/

/-- A restoring marker leaves the heads alone. -/
theorem Keeps.of_unretire {log : EventLog} {stored : Event}
    (htype : stored.eventType = unretireEventType)
    (hr : ∀ r ∈ resolvedLosers log, ¬ UnretiresRef r stored) :
    Keeps log stored := by
  refine ⟨hr, fun sid _ => ?_⟩
  refine .inl (congrArg (Option.map CurrentSession.eventId) ?_)
  refine findCurrent_append ?_ ?_ ?_
  · intro hcap
    exact absurd (htype.symm.trans hcap.1) (by decide)
  · intro hdel
    exact absurd (htype.symm.trans hdel.1) (by decide)
  · intro id hsup
    exact absurd (htype.symm.trans hsup.1) (by decide)

/-- The operation undoes no recorded resolution: it restores no loser of a
proposal resolved by retiring, and captures no session whose head a
dismissal recorded with another body. -/
def ConflictOp.KeepsResolutions (st : Store) : ConflictOp → Prop
  | .memory (.unretire _ target) _ =>
      .note target ∉ resolvedLosers st.log
  | .memory (.unretirePassage _ sid pid) _ =>
      .passage sid pid ∉ resolvedLosers st.log
  | .memory (.captureSession _ _ _ _ sm) _ =>
      sm.sessionId ∈ dismissedSessions st.log →
        ∀ prev, findCurrent st.log sm.sessionId = some prev →
          prev.sha256 = sm.sha256
  | _ => True

/-- A recorded head stands, or its session is gone. -/
theorem ResolutionsInForce.head {log : EventLog} {sid : String}
    (h : ResolutionsInForce log) (hsid : sid ∈ dismissedSessions log) :
    findCurrent log sid ≠ none ∨ ∃ e ∈ log, Deletes sid e := by
  obtain ⟨ev, hev, ⟨pid, record, hrec, hkind⟩, heads, hheads, q, hq, rfl⟩ :=
    mem_dismissedSessions.1 hsid
  obtain ⟨a, b, -, hforce⟩ := h ev hev pid record hrec
  rw [hkind] at hforce
  obtain ⟨-, -, heads', hheads', hstand⟩ := hforce
  rw [hheads, Option.some.injEq, Json.obj.injEq] at hheads'
  subst hheads'
  rcases (hstand q hq).2 with ⟨head, -, hhead⟩ | hdel
  · refine .inl fun hnone => ?_
    rw [headOf, hnone] at hhead
    cases hhead
  · exact .inr hdel

/-- A capture keeps the heads of the other sessions. -/
theorem Keeps.of_capture {m : Mint} {log : EventLog}
    {dateLabel : Int → String} {sm : SessionMeta} {stored : Event}
    (hs : Stored m log (sessionCapturedEvent dateLabel sm) stored)
    (hsid : sm.sessionId ∉ dismissedSessions log) : Keeps log stored := by
  have htype : stored.eventType = sessionCapturedEventType := hs.eventType_eq
  constructor
  · intro r _ hr
    have hun : stored.eventType = unretireEventType := by
      cases r with
      | note id => exact hr.1
      | passage sid pid => exact hr.1
    exact absurd (htype.symm.trans hun) (by decide)
  · intro sid hmem
    refine .inl (congrArg (Option.map CurrentSession.eventId) ?_)
    exact findCurrent_captured_other hs fun heq => hsid (heq ▸ hmem)

/-- A supersede keeps the heads whose captures it does not name. -/
theorem Keeps.of_supersede {m : Mint} {log : EventLog} {prior : String}
    {stored : Event}
    (hs : Stored m log (groundTruthSupersedeEvent prior) stored)
    (hother : ∀ sid ∈ dismissedSessions log, ∀ e ∈ log, e.id = prior →
      ¬ IsCaptureOf sid e) : Keeps log stored := by
  have htype : stored.eventType = supersedeEventType := hs.eventType_eq
  constructor
  · intro r _ hr
    have hun : stored.eventType = unretireEventType := by
      cases r with
      | note id => exact hr.1
      | passage sid pid => exact hr.1
    exact absurd (htype.symm.trans hun) (by decide)
  · intro sid hmem
    refine .inl (congrArg (Option.map CurrentSession.eventId) ?_)
    exact findCurrent_superseded_other hs (hother sid hmem)

/-- Only a dismissal records session heads. -/
theorem mem_dismissedSessions_append {m : Mint} {log : EventLog}
    {draft stored : Event} {sid : String} (hs : Stored m log draft stored)
    (hterm : isTerminalType draft.eventType = false) :
    sid ∈ dismissedSessions (log ++ [stored]) ↔
      sid ∈ dismissedSessions log := by
  have hnone : recordOf stored = none :=
    recordOf_eq_none (by rw [hs.eventType_eq, hterm])
  simp [dismissedSessions, hnone]

/-- **Memory operations** that undo no resolution. -/
theorem ResolutionsInForce.memory {st : Store} {op : MemoryOp}
    (hu : UniqueIds st.log) (h : ResolutionsInForce st.log)
    (hforeign : op.Untracked)
    (hkeeps : (ConflictOp.memory op hforeign).KeepsResolutions st) :
    ResolutionsInForce (op.exec st).log := by
  obtain ⟨drafts, happ, hlogged⟩ := op.exec_appends st
  generalize (op.exec st).log = log' at hlogged
  cases happ with
  | nothing =>
      cases hlogged
      exact h
  | call c => exact h.logged hlogged hforeign
  | remember emb m text =>
      refine h.logged hlogged fun ev hev => ?_
      rw [List.mem_singleton] at hev
      subst hev
      exact ⟨rfl, rfl⟩
  | supersedeNote emb m₁ m₂ target text ev hev hmemory =>
      cases hlogged with
      | cons hs rest =>
          have hother : ∀ sid ∈ dismissedSessions st.log, ∀ e ∈ st.log,
              e.id = target → ¬ IsCaptureOf sid e := by
            intro sid _ e he hid hcap
            have hfind := eventById_of_mem hu he
            rw [hid, hev, Option.some.injEq] at hfind
            subst hfind
            exact absurd (hmemory.symm.trans hcap.1) (by decide)
          refine (h.stored hs (.of_supersede hs hother) rfl).logged
            rest fun e he => ?_
          rw [List.mem_singleton] at he
          subst he
          exact ⟨rfl, rfl⟩
  | retireMemory m target src =>
      cases hlogged with
      | cons hs rest =>
          cases rest
          exact h.stored_of_inert hs rfl
  | unretire m target =>
      cases hlogged with
      | cons hs rest =>
          cases rest
          refine h.stored hs (.of_unretire hs.eventType_eq ?_) rfl
          intro r hr hun
          exact hkeeps (eq_of_unretiresRef_note hs hun ▸ hr)
  | capture dateLabel emb m₁ m₂ sm hdel hnone =>
      cases hlogged with
      | cons hs rest =>
          cases rest
          refine h.stored hs (.of_capture hs fun hmem => ?_) rfl
          rcases h.head hmem with hsome | hdeleted
          · exact hsome hnone
          · exact hdel (mem_deleted_log.2 hdeleted)
  | recapture dateLabel emb m₁ m₂ sm prev hprev hsha =>
      have hsid : sm.sessionId ∉ dismissedSessions st.log :=
        fun hmem => hsha (hkeeps hmem prev hprev)
      cases hlogged with
      | cons hs rest =>
          cases rest with
          | cons hs₂ rest₂ =>
              cases rest₂
              have hother : ∀ sid ∈ dismissedSessions st.log,
                  ∀ e ∈ st.log, e.id = prev.eventId →
                    ¬ IsCaptureOf sid e := by
                intro sid hmem e he hid hcap
                obtain ⟨e', he', hid', hcap'⟩ :=
                  exists_of_findCurrent hprev
                have hfind := eventById_of_mem hu he
                have hfind' := eventById_of_mem hu he'
                rw [hid] at hfind
                rw [hid', hfind, Option.some.injEq] at hfind'
                subst hfind'
                have heq := hcap.2
                rw [hcap'.2, Option.some.injEq] at heq
                exact hsid (heq ▸ hmem)
              have h₁ := h.stored hs (.of_supersede hs hother) rfl
              refine h₁.stored hs₂ (.of_capture hs₂ ?_) rfl
              rw [mem_dismissedSessions_append hs rfl]
              exact hsid
  | deleteSession m sid =>
      cases hlogged with
      | cons hs rest =>
          cases rest
          exact h.stored_of_inert hs rfl
  | retirePassage m sid pid src =>
      cases hlogged with
      | cons hs rest =>
          cases rest
          exact h.stored_of_inert hs rfl
  | unretirePassage m sid pid =>
      cases hlogged with
      | cons hs rest =>
          cases rest
          refine h.stored hs (.of_unretire hs.eventType_eq ?_) rfl
          intro r hr hun
          exact hkeeps (eq_of_unretiresRef_passage hs hun ▸ hr)

/-! ### Resolutions -/

theorem not_unretiresRef_of_type {ev : Event} {r : ConflictRef}
    (h : ev.eventType ≠ unretireEventType) : ¬ UnretiresRef r ev := by
  intro hr
  cases r with
  | note id => exact h hr.1
  | passage sid pid => exact h hr.1

theorem refRetired_append_of_type {log : EventLog} {ev : Event}
    {r : ConflictRef} (h : refRetired log r = true)
    (htype : ev.eventType ≠ unretireEventType) :
    refRetired (log ++ [ev]) r = true :=
  refRetired_append.2 (.inr ⟨h, not_unretiresRef_of_type htype⟩)

/-- The kind retires this side of the proposal `(a, b)`. -/
def RetiresSide (kind : ResolutionKind) (a b loser : ConflictRef) : Prop :=
  (kind = .retireOlder ∧ loser = a) ∨ (kind = .retireNewer ∧ loser = b)

theorem inForce_of_retired {log : EventLog} {marker : Event}
    {kind : ResolutionKind} {a b loser : ConflictRef}
    (hside : RetiresSide kind a b loser)
    (h : refRetired log loser = true) : InForce log marker a b kind := by
  rcases hside with ⟨rfl, rfl⟩ | ⟨rfl, rfl⟩
  · exact h
  · exact h

theorem exists_recordOf {ev : Event} {pid : String} {kind : ResolutionKind}
    (hpid : ev.content.getStr? "proposal_id" = some pid)
    (hkind : recordKind ev = some kind) :
    ∃ record, recordOf ev = some (pid, record) ∧ record.kind = kind :=
  ⟨_, by rw [recordOf, hpid, Option.bind_some, hkind, Option.map_some], rfl⟩

theorem recordOf_resolved {m : Mint} {log : EventLog} {pid rid : String}
    {kind : ResolutionKind} {a b loser : ConflictRef} {s : Event}
    (hs : Stored m log (conflictResolvedEvent pid kind rid) s)
    (hside : RetiresSide kind a b loser) :
    ∃ record, recordOf s = some (pid, record) ∧ record.kind = kind := by
  have htype : s.eventType = conflictResolvedEventType := hs.eventType_eq
  have hcontent := hs.content_of_none rfl
  have hpid : s.content.getStr? "proposal_id" = some pid := by
    rw [hcontent]
    rfl
  have haction : s.content.getStr? "action" = some kind.actionText := by
    rw [hcontent]
    rfl
  refine exists_recordOf hpid ?_
  rw [recordKind, if_pos htype, haction]
  rcases hside with ⟨rfl, -⟩ | ⟨rfl, -⟩
  · rfl
  · rfl

theorem recordOf_kept {m : Mint} {log : EventLog} {pid : String}
    {a b : ConflictRef} {s : Event}
    (hs : Stored m log
      (pairTerminalEvent coexistAllowedEventType pid a b none) s) :
    ∃ record, recordOf s = some (pid, record) ∧
      record.kind = .keepBoth := by
  have htype : s.eventType = coexistAllowedEventType := hs.eventType_eq
  have hpid : s.content.getStr? "proposal_id" = some pid := by
    rw [hs.content_of_none rfl]
    rfl
  refine exists_recordOf hpid ?_
  rw [recordKind, htype]
  rfl

theorem recordOf_dismissed {m : Mint} {log : EventLog} {pid : String}
    {a b : ConflictRef} {heads : Option Json} {s : Event}
    (hs : Stored m log (pairTerminalEvent dismissedEventType pid a b heads)
      s) :
    ∃ record, recordOf s = some (pid, record) ∧ record.kind = .dismiss := by
  have htype : s.eventType = dismissedEventType := hs.eventType_eq
  have hpid : s.content.getStr? "proposal_id" = some pid := by
    rw [hs.content_of_none rfl]
    rfl
  refine exists_recordOf hpid ?_
  rw [recordKind, htype]
  rfl

/-- A kept pair is in force from its marker on. -/
theorem inForce_kept {m : Mint} {log log' : EventLog} {pid : String}
    {a b : ConflictRef} {s : Event}
    (hs : Stored m log
      (pairTerminalEvent coexistAllowedEventType pid a b none) s) :
    InForce log' s a b .keepBoth := by
  refine ⟨hs.eventType_eq, ?_⟩
  rw [hs.content_of_none rfl]
  rfl

/-- A dismissal is in force when it is recorded. -/
theorem inForce_dismissed {m : Mint} {log : EventLog} {pid : String}
    {a b : ConflictRef} {s : Event}
    (hs : Stored m log (pairTerminalEvent dismissedEventType pid a b
      (some (.obj (dismissHeads log a b)))) s) :
    InForce (log ++ [s]) s a b .dismiss := by
  have htype : s.eventType = dismissedEventType := hs.eventType_eq
  have hcontent := hs.content_of_none rfl
  refine ⟨htype, ?_, dismissHeads log a b, ?_, fun q hq => ?_⟩
  · rw [hcontent]
    rfl
  · rw [hcontent]
    rfl
  · obtain ⟨⟨r, hr, p, hpassage⟩, head, hhead, hcurrent⟩ :=
      mem_dismissHeads hq
    have hsame : headOf (log ++ [s]) q.1 = headOf log q.1 := by
      refine congrArg (Option.map CurrentSession.eventId) ?_
      refine findCurrent_append ?_ ?_ ?_
      · intro hcap
        exact absurd (htype.symm.trans hcap.1) (by decide)
      · intro hdel
        exact absurd (htype.symm.trans hdel.1) (by decide)
      · intro id hsup
        exact absurd (htype.symm.trans hsup.1) (by decide)
    refine ⟨?_, .inl ⟨head, hhead, hsame.trans hcurrent⟩⟩
    simp only [List.mem_cons, List.not_mem_nil, or_false] at hr
    rcases hr with rfl | rfl
    · exact .inl (by rw [hpassage]; rfl)
    · exact .inr (by rw [hpassage]; rfl)

section Retiring

variable {m₁ m₂ : Mint} {st : Store} {pid : String} {kind : ResolutionKind}
  {a b loser : ConflictRef}

/-- A completed retiring resolution is in force. -/
theorem RetireSteps.settled {st' : Store} {out : ResolveOutcome}
    (h : RetireSteps m₁ m₂ st pid kind loser (st', .ok out))
    (hrefs : conflictProposalById st.log pid = some (a, b))
    (hside : RetiresSide kind a b loser) (hrep : loser.Representable) :
    Settled st'.log pid := by
  cases h with
  | rolledForward s₂ hret h₂ =>
      obtain ⟨record, hrec, rfl⟩ := recordOf_resolved h₂ hside
      have htype : s₂.eventType ≠ unretireEventType := by
        have ht : s₂.eventType = conflictResolvedEventType :=
          h₂.eventType_eq
        rw [ht]
        decide
      exact ⟨s₂, by simp, record, a, b, hrec,
        conflictProposalById_append hrefs _,
        inForce_of_retired hside (refRetired_append_of_type hret htype)⟩
  | retired s₁ s₂ hlive h₁ h₂ =>
      obtain ⟨record, hrec, rfl⟩ := recordOf_resolved h₂ hside
      have htype : s₂.eventType ≠ unretireEventType := by
        have ht : s₂.eventType = conflictResolvedEventType :=
          h₂.eventType_eq
        rw [ht]
        decide
      have hret : refRetired (st.log ++ [s₁]) loser = true :=
        refRetired_append.2 (.inl (retiresRef_of_stored hrep h₁))
      exact ⟨s₂, by simp, record, a, b, hrec,
        conflictProposalById_append
          (conflictProposalById_append hrefs [s₁]) [s₂],
        inForce_of_retired hside (refRetired_append_of_type hret htype)⟩

/-- A terminal marker that is in force when it is written. -/
theorem ResolutionsInForce.terminal {log : EventLog} {s : Event}
    {pid : String} {record : ResolutionRecord} {a b : ConflictRef}
    (h : ResolutionsInForce log)
    (htype : isTerminalType s.eventType = true)
    (hrec : recordOf s = some (pid, record))
    (hrefs : conflictProposalById log pid = some (a, b))
    (hforce : InForce (log ++ [s]) s a b record.kind) :
    ResolutionsInForce (log ++ [s]) := by
  have hne : ∀ t, isTerminalType t = false → s.eventType ≠ t := by
    rintro t ht rfl
    rw [htype] at ht
    cases ht
  refine h.append (Keeps.of_types (hne _ (by decide)) (hne _ (by decide))
    (hne _ (by decide))) fun pid' record' hrec' => ?_
  rw [hrec, Option.some.injEq, Prod.mk.injEq] at hrec'
  obtain ⟨rfl, rfl⟩ := hrec'
  exact ⟨a, b, hrefs, hforce⟩

/-- The retiring arm keeps every resolution in force, wherever it stops. -/
theorem ResolutionsInForce.retireSteps {out : Outcome ResolveOutcome}
    (hinv : ResolutionsInForce st.log)
    (h : RetireSteps m₁ m₂ st pid kind loser out)
    (hrefs : conflictProposalById st.log pid = some (a, b))
    (hside : RetiresSide kind a b loser) (hrep : loser.Representable) :
    ResolutionsInForce out.1.log := by
  have hmarker : isInertType (retireMarker pid loser).eventType = true := by
    cases loser <;> rfl
  have hresolved : ∀ {log : EventLog} {s : Event},
      Stored m₂ log (conflictResolvedEvent pid kind loser.retiredId) s →
      ResolutionsInForce log →
      conflictProposalById log pid = some (a, b) →
      refRetired log loser = true → ResolutionsInForce (log ++ [s]) := by
    intro log s hs hlog hrefs' hret
    obtain ⟨record, hrec, hkind⟩ := recordOf_resolved hs hside
    have ht : s.eventType = conflictResolvedEventType := hs.eventType_eq
    have hret' : refRetired (log ++ [s]) loser = true := by
      refine refRetired_append_of_type hret ?_
      rw [ht]
      decide
    refine hlog.terminal (by rw [ht]; decide) hrec hrefs' ?_
    rw [hkind]
    exact inForce_of_retired hside hret'
  cases h with
  | refused e => exact hinv
  | torn s₁ e hlive h₁ => exact hinv.stored_of_inert h₁ hmarker
  | rolledForward s₂ hret h₂ => exact hresolved h₂ hinv hrefs hret
  | retired s₁ s₂ hlive h₁ h₂ =>
      have hret : refRetired (st.log ++ [s₁]) loser = true :=
        refRetired_append.2 (.inl (retiresRef_of_stored hrep h₁))
      exact hresolved h₂ (hinv.stored_of_inert h₁ hmarker)
        (conflictProposalById_append hrefs [s₁]) hret

end Retiring

/-- **A successful first resolution is in force.** -/
theorem settled_of_resolve {m₁ m₂ : Mint} {st st' : Store} {pid : String}
    {action : ResolveAction} {out : ResolveOutcome}
    (h : resolveConflict m₁ m₂ st pid action = (st', .ok out))
    (hunmarked : pid ∉ resolutionMarkers st.log) :
    Settled st'.log pid := by
  have hsteps := resolveConflict_steps m₁ m₂ st pid action
  rw [h] at hsteps
  cases hsteps with
  | repeated _ existing hmarker hkind =>
      have hnone := Std.TreeMap.getElem?_eq_none hunmarked
      rw [hmarker] at hnone
      cases hnone
  | retireOlder a b _ hrefs hmarker hsteps =>
      exact hsteps.settled hrefs (.inl ⟨rfl, rfl⟩)
        (representable_of_proposalById hrefs).1
  | retireNewer a b _ hrefs hmarker hsteps =>
      exact hsteps.settled hrefs (.inr ⟨rfl, rfl⟩)
        (representable_of_proposalById hrefs).2
  | keepBoth a b s hrefs hmarker hs =>
      obtain ⟨record, hrec, hkind⟩ := recordOf_kept hs
      refine ⟨s, by simp, record, a, b, hrec,
        conflictProposalById_append hrefs [s], ?_⟩
      rw [hkind]
      exact inForce_kept hs
  | dismiss a b s hrefs hmarker hs =>
      obtain ⟨record, hrec, hkind⟩ := recordOf_dismissed hs
      refine ⟨s, by simp, record, a, b, hrec,
        conflictProposalById_append hrefs [s], ?_⟩
      rw [hkind]
      exact inForce_dismissed hs

/-- **Every step** that undoes no recorded resolution keeps all of them in
force. -/
theorem ResolutionsInForce.exec {st : Store} {op : ConflictOp}
    (hu : UniqueIds st.log) (h : ResolutionsInForce st.log)
    (hkeeps : op.KeepsResolutions st) :
    ResolutionsInForce (op.exec st).log := by
  cases op with
  | memory op hforeign => exact h.memory hu hforeign hkeeps
  | detect m older newer winner band why detectedAt =>
      show ResolutionsInForce (recordContradiction m st older newer winner
        band why detectedAt).1.log
      have htrans := recordContradiction_transacts m st older newer winner
        band why detectedAt
      generalize (recordContradiction m st older newer winner band why
        detectedAt).1.log = log' at htrans
      rcases htrans with rfl | hlogged
      · exact h
      · refine h.logged hlogged fun ev hev => ?_
        rw [List.mem_singleton] at hev
        subst hev
        exact ⟨rfl, rfl⟩
  | resolve m₁ m₂ pid action =>
      show ResolutionsInForce (resolveConflict m₁ m₂ st pid action).1.log
      have hsteps := resolveConflict_steps m₁ m₂ st pid action
      generalize resolveConflict m₁ m₂ st pid action = out at hsteps
      cases hsteps with
      | refused => exact h
      | repeated => exact h
      | retireOlder a b _ hrefs hmarker hsteps =>
          exact h.retireSteps hsteps hrefs (.inl ⟨rfl, rfl⟩)
            (representable_of_proposalById hrefs).1
      | retireNewer a b _ hrefs hmarker hsteps =>
          exact h.retireSteps hsteps hrefs (.inr ⟨rfl, rfl⟩)
            (representable_of_proposalById hrefs).2
      | keepBoth a b s hrefs hmarker hs =>
          obtain ⟨record, hrec, hkind⟩ := recordOf_kept hs
          have ht : s.eventType = coexistAllowedEventType := hs.eventType_eq
          refine h.terminal (by rw [ht]; decide) hrec hrefs ?_
          rw [hkind]
          exact inForce_kept hs
      | dismiss a b s hrefs hmarker hs =>
          obtain ⟨record, hrec, hkind⟩ := recordOf_dismissed hs
          have ht : s.eventType = dismissedEventType := hs.eventType_eq
          refine h.terminal (by rw [ht]; decide) hrec hrefs ?_
          rw [hkind]
          exact inForce_dismissed hs

theorem UniqueIds.retireSteps {m₁ m₂ : Mint} {st : Store} {pid : String}
    {kind : ResolutionKind} {loser : ConflictRef}
    {out : Outcome ResolveOutcome} (hu : UniqueIds st.log)
    (h : RetireSteps m₁ m₂ st pid kind loser out) :
    UniqueIds out.1.log := by
  cases h with
  | refused => exact hu
  | torn s₁ e hlive h₁ => exact hu.stored h₁
  | rolledForward s₂ hret h₂ => exact hu.stored h₂
  | retired s₁ s₂ hlive h₁ h₂ => exact (hu.stored h₁).stored h₂

theorem UniqueIds.resolveSteps {m₁ m₂ : Mint} {st : Store} {pid : String}
    {action : ResolveAction} {out : Outcome ResolveOutcome}
    (hu : UniqueIds st.log) (h : ResolveSteps m₁ m₂ st pid action out) :
    UniqueIds out.1.log := by
  cases h with
  | refused => exact hu
  | repeated => exact hu
  | retireOlder a b _ hrefs hmarker hsteps => exact hu.retireSteps hsteps
  | retireNewer a b _ hrefs hmarker hsteps => exact hu.retireSteps hsteps
  | keepBoth a b s hrefs hmarker hs => exact hu.stored hs
  | dismiss a b s hrefs hmarker hs => exact hu.stored hs

theorem UniqueIds.conflictOp {st : Store} (op : ConflictOp)
    (hu : UniqueIds st.log) : UniqueIds (op.exec st).log := by
  cases op with
  | memory op hforeign =>
      obtain ⟨drafts, -, hlogged⟩ := op.exec_appends st
      exact hlogged.uniqueIds hu
  | detect m older newer winner band why detectedAt =>
      rcases recordContradiction_transacts m st older newer winner band why
        detectedAt with hsame | hlogged
      · show UniqueIds (recordContradiction m st older newer winner band why
          detectedAt).1.log
        rw [hsame]
        exact hu
      · exact hlogged.uniqueIds hu
  | resolve m₁ m₂ pid action =>
      exact hu.resolveSteps (resolveConflict_steps m₁ m₂ st pid action)

/-! ## Pending proposals and their resolutions -/

/-- The environment lets both appends of a resolution succeed. -/
structure AcceptsBoth (m₁ m₂ : Mint) (st : Store) : Prop where
  retire : m₁.Accepts st.log
  terminal : m₂.Accepts st.log
  afterRetire : ∀ marker st', st.append m₁ marker = (st', .ok m₁.id) →
    m₂.Accepts st'.log

/-- Each of the four actions works on the proposal: it is applied whenever
the log accepts its appends, it is never taken for a repetition, and once it
has succeeded the proposal is off the list. -/
structure Resolvable (st : Store) (pid : String) : Prop where
  applies : ∀ m₁ m₂ action, AcceptsBoth m₁ m₂ st →
    ∃ st' id, resolveConflict m₁ m₂ st pid action =
      (st', .ok (.applied id))
  neverNoOp : ∀ m₁ m₂ action,
    (resolveConflict m₁ m₂ st pid action).2 ≠ .ok .noOp
  settles : ∀ m₁ m₂ action st' out,
    resolveConflict m₁ m₂ st pid action = (st', .ok out) →
      ∀ q ∈ pendingConflictProposals st', q.id ≠ pid

/-- Retiring a current reference is one append. -/
theorem retireRef_of_current {m : Mint} {st : Store} {pid : String}
    {r : ConflictRef} (hu : UniqueIds st.log)
    (h : refIsCurrent st r = true) :
    retireRef m st pid r = st.append m (retireMarker pid r) := by
  have hlive := refRetired_of_current h
  cases r with
  | note id =>
      simp only [refIsCurrent, List.any_eq_true, beq_iff_eq] at h
      obtain ⟨ev, hev, rfl⟩ := h
      obtain ⟨hmem, htype, hsup, -⟩ := mem_currentNotes.1 hev
      have hok : assertRetirableNote st.log ev.id = .ok () := by
        rw [← mem_superseded_log] at hsup
        rw [refRetired, decide_eq_false_iff_not] at hlive
        simp [assertRetirableNote, eventById_of_mem hu hmem, htype, hsup,
          hlive]
      simp only [retireRef, retireMemory, hok]
      rfl
  | passage sid p =>
      simp only [refIsCurrent] at h
      split at h
      · cases h
      · next cs hcs =>
          rw [Bool.and_eq_true, decide_eq_true_iff, decide_eq_true_iff] at h
          simp only [retireRef, retirePassage, hcs]
          rw [if_neg (by omega), if_neg h.1]
          rfl

theorem appendTerminal_of_accepts {m : Mint} {st : Store} {marker : Event}
    (hm : m.Accepts st.log) (htier : rejectEmptyTierB marker = .ok ()) :
    ∃ st', appendTerminal m st marker = (st', .ok (.applied m.id)) := by
  obtain ⟨st', h⟩ := st.append_of_accepts hm htier
  exact ⟨st', by rw [appendTerminal, h]⟩

theorem resolveRetire_applies {m₁ m₂ : Mint} {st : Store} {pid : String}
    {kind : ResolutionKind} {loser : ConflictRef} (hu : UniqueIds st.log)
    (hcurrent : refIsCurrent st loser = true)
    (hm : AcceptsBoth m₁ m₂ st) :
    ∃ st' id, resolveRetire m₁ m₂ st pid kind loser =
      (st', .ok (.applied id)) := by
  have hlive := refRetired_of_current hcurrent
  have hretire : retireRef m₁ st pid loser =
      st.append m₁ (retireMarker pid loser) :=
    retireRef_of_current hu hcurrent
  have htier : rejectEmptyTierB (retireMarker pid loser) = .ok () := by
    cases loser <;> rfl
  obtain ⟨st₁, h₁⟩ := st.append_of_accepts hm.retire htier
  have hresolved : rejectEmptyTierB
      (conflictResolvedEvent pid kind loser.retiredId) = .ok () := rfl
  obtain ⟨st₂, h₂⟩ :=
    appendTerminal_of_accepts (hm.afterRetire _ _ h₁) hresolved
  refine ⟨st₂, m₂.id, ?_⟩
  rw [resolveRetire, hlive, hretire, h₁]
  exact h₂

/-- A pending proposal without a terminal marker can be resolved. -/
theorem resolvable_of_unmarked {st : Store} {p : ConflictProposal}
    (hu : UniqueIds st.log) (hp : p ∈ pendingConflictProposals st)
    (hunmarked : p.id ∉ resolutionMarkers st.log) :
    Resolvable st p.id := by
  have hrefs := conflictProposalById_of_pending hu hp
  obtain ⟨-, ha, hb, -⟩ := mem_pending_iff.1 hp
  have hmarker : (resolutionMarkers st.log)[p.id]? = none :=
    Std.TreeMap.getElem?_eq_none hunmarked
  refine ⟨?_, ?_, ?_⟩
  · intro m₁ m₂ action hm
    simp only [resolveConflict, hrefs, hmarker]
    cases action with
    | retireOlder => exact resolveRetire_applies hu ha hm
    | retireNewer => exact resolveRetire_applies hu hb hm
    | keepBoth =>
        have htier : rejectEmptyTierB (pairTerminalEvent
            coexistAllowedEventType p.id p.aRef p.bRef none) = .ok () := rfl
        obtain ⟨st', h⟩ := appendTerminal_of_accepts hm.terminal htier
        exact ⟨st', m₂.id, h⟩
    | dismiss =>
        have htier : rejectEmptyTierB (pairTerminalEvent dismissedEventType
            p.id p.aRef p.bRef
            (some (.obj (dismissHeads st.log p.aRef p.bRef)))) = .ok () :=
          rfl
        obtain ⟨st', h⟩ := appendTerminal_of_accepts hm.terminal htier
        exact ⟨st', m₂.id, h⟩
  · intro m₁ m₂ action hnoop
    have hsteps := resolveConflict_steps m₁ m₂ st p.id action
    generalize resolveConflict m₁ m₂ st p.id action = out at hsteps hnoop
    -- a repetition needs a marker, a roll-forward a retired reference
    cases hsteps with
    | refused => cases hnoop
    | repeated _ existing hsome _ =>
        rw [hmarker] at hsome
        cases hsome
    | retireOlder a b _ hrefs' _ hsteps =>
        rw [hrefs, Option.some.injEq, Prod.mk.injEq] at hrefs'
        cases hsteps with
        | refused => cases hnoop
        | torn => cases hnoop
        | rolledForward s₂ hret =>
            rw [← hrefs'.1, refRetired_of_current ha] at hret
            cases hret
        | retired => cases hnoop
    | retireNewer a b _ hrefs' _ hsteps =>
        rw [hrefs, Option.some.injEq, Prod.mk.injEq] at hrefs'
        cases hsteps with
        | refused => cases hnoop
        | torn => cases hnoop
        | rolledForward s₂ hret =>
            rw [← hrefs'.2, refRetired_of_current hb] at hret
            cases hret
        | retired => cases hnoop
    | keepBoth => cases hnoop
    | dismiss => cases hnoop
  · intro m₁ m₂ action st' out h
    have hu' : UniqueIds st'.log := by
      have hsteps := resolveConflict_steps m₁ m₂ st p.id action
      rw [h] at hsteps
      exact hu.resolveSteps hsteps
    exact not_pending_of_settled hu' (settled_of_resolve h hunmarked)

/-- With a terminal marker, the action it records is a no-op for ever. -/
theorem unmarked_of_resolvable {st : Store} {p : ConflictProposal}
    (hu : UniqueIds st.log) (hp : p ∈ pendingConflictProposals st)
    (h : Resolvable st p.id) : p.id ∉ resolutionMarkers st.log := by
  intro hmarked
  have hrefs := conflictProposalById_of_pending hu hp
  obtain ⟨existing, hexisting⟩ :
      ∃ existing, (resolutionMarkers st.log)[p.id]? = some existing :=
    ⟨_, Std.TreeMap.getElem?_eq_some_getElem hmarked⟩
  obtain ⟨action, haction⟩ : ∃ action, actionKind action = existing.kind := by
    cases existing.kind with
    | retireOlder => exact ⟨.retireOlder, rfl⟩
    | retireNewer => exact ⟨.retireNewer, rfl⟩
    | keepBoth => exact ⟨.keepBoth, rfl⟩
    | dismiss => exact ⟨.dismiss, rfl⟩
  refine h.neverNoOp (.plain "") (.plain "") action ?_
  simp only [resolveConflict, hrefs, hexisting, haction]
  rfl

theorem uniqueIds_conflictRun (ops : List ConflictOp) :
    UniqueIds (Trace.run ConflictOp.exec Store.empty ops).log := by
  have hempty : UniqueIds Store.empty.log := uniqueIds_nil
  exact Trace.run_inv (fun st : Store => UniqueIds st.log)
    (fun _ op hu => hu.conflictOp op) hempty ops

/-- In the runs whose steps undo no resolution, all of them stay in force. -/
theorem resolutionsInForce_run {ops : List ConflictOp}
    (hmeets : Trace.Meets ConflictOp.exec ConflictOp.KeepsResolutions
      Store.empty ops) :
    ResolutionsInForce (Trace.run ConflictOp.exec Store.empty ops).log := by
  have hempty : UniqueIds Store.empty.log ∧
      ResolutionsInForce Store.empty.log := by
    refine ⟨uniqueIds_nil, ?_⟩
    intro ev hev
    cases hev
  have hrun := Trace.run_inv_of_meets
    (fun st : Store => UniqueIds st.log ∧ ResolutionsInForce st.log)
    (fun _ op hinv hkeeps =>
      ⟨hinv.1.conflictOp op, hinv.2.exec hinv.1 hkeeps⟩) hempty hmeets
  exact hrun.2

/-- **Which pending proposals can be resolved.** In every reachable state
they are the ones without a terminal marker; and while no step undoes a
recorded resolution, they are all of them. -/
theorem pending_resolvable_iff_unmarked (ops : List ConflictOp) :
    (∀ p ∈ pendingConflictProposals
        (Trace.run ConflictOp.exec Store.empty ops),
      Resolvable (Trace.run ConflictOp.exec Store.empty ops) p.id ↔
        p.id ∉ resolutionMarkers
          (Trace.run ConflictOp.exec Store.empty ops).log) ∧
    (Trace.Meets ConflictOp.exec ConflictOp.KeepsResolutions Store.empty
        ops →
      ∀ p ∈ pendingConflictProposals
          (Trace.run ConflictOp.exec Store.empty ops),
        Resolvable (Trace.run ConflictOp.exec Store.empty ops) p.id) := by
  have hu := uniqueIds_conflictRun ops
  constructor
  · intro p hp
    exact ⟨unmarked_of_resolvable hu hp, resolvable_of_unmarked hu hp⟩
  · intro hmeets p hp
    refine resolvable_of_unmarked hu hp fun hmarked => ?_
    obtain ⟨ev, hev, record, hrec⟩ := mem_resolutionMarkers.1 hmarked
    obtain ⟨a, b, hrefs, hforce⟩ :=
      resolutionsInForce_run hmeets ev hev p.id record hrec
    exact not_pending_of_settled hu
      ⟨ev, hev, record, a, b, hrec, hrefs, hforce⟩ p hp rfl

/-! ### A dismissal that lapses -/

/-- The embedder of the sample runs. -/
def sampleEmbedder : Embedder :=
  { modelId := "static", dim := 1, embed := fun _ => .ok [0] }

/-- A note contradicts a passage of the session `s1`. -/
def sampleDetection : List ConflictOp :=
  [.memory (.remember sampleEmbedder (.plain "note-1") "deploy on fly")
      trivial,
    .memory (sampleCapture "aa" (.plain "cap-1") (.plain "cap-2")) trivial,
    .memory (.storeSessionPassages sampleEmbedder "cap-1"
      ["deploy on vercel"]) trivial,
    .detect (.plain "prop-1") (.note "note-1") (.passage "s1" 0) "newer"
      "high" "newer memory contradicts older" 1767225600]

/-- The proposal is dismissed, and then the session is captured again. -/
def sampleLapse : List ConflictOp :=
  sampleDetection ++
    [.resolve (.plain "ret-1") (.plain "dis-1") "prop-1" .dismiss,
      .memory (sampleCapture "bb" (.plain "sup-1") (.plain "cap-3")) trivial,
      .memory (.storeSessionPassages sampleEmbedder "cap-3"
        ["deploy on vercel"]) trivial]

/-- The proposal both runs leave pending. -/
def sampleProposal : ConflictProposal :=
  { id := "prop-1", aRef := .note "note-1", bRef := .passage "s1" 0,
    winnerHint := "newer", confidenceBand := "high",
    why := "newer memory contradicts older", detectedAt := 1767225600 }

/-- Detected and not yet resolved, the proposal can be resolved. -/
theorem pending_resolvable_iff_unmarked_sample :
    Resolvable (Trace.run ConflictOp.exec Store.empty sampleDetection)
      "prop-1" := by
  have hp : sampleProposal ∈ pendingConflictProposals
      (Trace.run ConflictOp.exec Store.empty sampleDetection) := by
    decide +kernel
  refine (pending_resolvable_iff_unmarked sampleDetection).2 ?_
    sampleProposal hp
  refine ⟨trivial, fun hmem => ?_, trivial, trivial, trivial⟩
  exact absurd hmem (by decide +kernel)

/-- **A lapsed dismissal is a dead end**: the proposal is pending again, and
dismissing it is a no-op. -/
theorem pending_not_resolvable :
    ¬ ∀ ops, ∀ p ∈ pendingConflictProposals
        (Trace.run ConflictOp.exec Store.empty ops),
      Resolvable (Trace.run ConflictOp.exec Store.empty ops) p.id := by
  intro h
  have hp : sampleProposal ∈ pendingConflictProposals
      (Trace.run ConflictOp.exec Store.empty sampleLapse) := by
    decide +kernel
  exact (h sampleLapse sampleProposal hp).neverNoOp (.plain "ret-2")
    (.plain "dis-2") .dismiss (by rfl)

end AirNote
