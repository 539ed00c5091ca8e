import AirNote.Pending

/-!
# A resolution that stops between its two markers

Retiring one side of a proposal takes two appends, the retire marker and then
the terminal marker, and the process may stop between them. The proposal is
then still open to resolution, by either action. A retry of the same action
finds the side retired and only writes the terminal marker. The other action
is accepted too: it retires the other side, which is the one way both sides
end up retired.

The results are about any sequence of calls on one proposal, each of which
may stop after its retire marker or be refused either of its appends.

## Main results

* `CallSteps.of_exec` — everything one call may come to.
* `torn_resolution_retires_once` — a side is retired at most once, a retry of
  the same action retires nothing, and at most one side is retired as long as
  no call acts on the other side of a torn resolution.
* `torn_resolution_retires_both` — otherwise both sides may be retired.
-/

namespace AirNote

open Lib

/-! ## Calls -/

/-- One call of `resolve_conflict`; `stops` says that the process stops after
the retire marker, before the terminal one. -/
structure ResolveCall where
  action : ResolveAction
  m₁ : Mint
  m₂ : Mint
  stops : Bool

/-- The side of the proposal `(a, b)` an action retires. -/
def sideOf (action : ResolveAction) (a b : ConflictRef) :
    Option ConflictRef :=
  match action with
  | .retireOlder => some a
  | .retireNewer => some b
  | .keepBoth => none
  | .dismiss => none

/-- The store left by a call that stops before its terminal marker. -/
def stopBeforeTerminal (m₁ : Mint) (st : Store) (pid : String)
    (action : ResolveAction) : Store :=
  match conflictProposalById st.log pid with
  | none => st
  | some (a, b) =>
      match (resolutionMarkers st.log)[pid]? with
      | some _ => st
      | none =>
          match sideOf action a b with
          | none => st
          | some loser =>
              if refRetired st.log loser then st
              else (retireRef m₁ st pid loser).1

/-- The store a call leaves behind. -/
def ResolveCall.exec (pid : String) (st : Store) (c : ResolveCall) : Store :=
  if c.stops then stopBeforeTerminal c.m₁ st pid c.action
  else (resolveConflict c.m₁ c.m₂ st pid c.action).1

/-- The event retires `r` on behalf of the proposal. -/
def RetiredFor (pid : String) (r : ConflictRef) (ev : Event) : Prop :=
  RetiresRef r ev ∧ ev.content.getStr? "proposal_id" = some pid

instance (r : ConflictRef) (ev : Event) : Decidable (RetiresRef r ev) :=
  match r with
  | .note id => inferInstanceAs (Decidable (
      ev.eventType = noteRetiredEventType ∧
        ev.content.getStr? "retires" = some id))
  | .passage sid pid => inferInstanceAs (Decidable (
      ev.eventType = passageRetiredEventType ∧
        passageOf ev = some (sid, pid)))

instance (pid : String) (r : ConflictRef) (ev : Event) :
    Decidable (RetiredFor pid r ev) := inferInstanceAs (Decidable (_ ∧ _))

/-- The retire markers of `r` that the proposal's resolutions wrote. -/
def retireMarkersOf (log : EventLog) (pid : String) (r : ConflictRef) :
    List Event :=
  log.filter fun ev => decide (RetiredFor pid r ev)

/-! ## One call -/

/-- Everything one call on the proposal `(a, b)` may come to. -/
inductive CallSteps (pid : String) (a b : ConflictRef) (st : Store)
    (c : ResolveCall) : Store → Prop where
  | unchanged : CallSteps pid a b st c st
  | terminal (s : Event) (hterm : isTerminalType s.eventType = true) :
      CallSteps pid a b st c (st.push s)
  | torn (loser : ConflictRef) (s₁ : Event)
      (hside : sideOf c.action a b = some loser)
      (hunmarked : pid ∉ resolutionMarkers st.log)
      (hlive : refRetired st.log loser = false)
      (h₁ : Stored c.m₁ st.log (retireMarker pid loser) s₁) :
      CallSteps pid a b st c (st.push s₁)
  | retired (loser : ConflictRef) (s₁ s₂ : Event)
      (hside : sideOf c.action a b = some loser)
      (hunmarked : pid ∉ resolutionMarkers st.log)
      (hlive : refRetired st.log loser = false)
      (h₁ : Stored c.m₁ st.log (retireMarker pid loser) s₁)
      (hterm : isTerminalType s₂.eventType = true) :
      CallSteps pid a b st c ((st.push s₁).push s₂)

theorem isTerminalType_of_stored {m : Mint} {log : EventLog}
    {draft s : Event} (hs : Stored m log draft s)
    (hdraft : isTerminalType draft.eventType = true) :
    isTerminalType s.eventType = true := by
  rw [hs.eventType_eq]
  exact hdraft

theorem CallSteps.of_retireSteps {pid : String} {a b loser : ConflictRef}
    {st : Store} {c : ResolveCall} {kind : ResolutionKind}
    {out : Outcome ResolveOutcome}
    (hside : sideOf c.action a b = some loser)
    (hunmarked : pid ∉ resolutionMarkers st.log)
    (h : RetireSteps c.m₁ c.m₂ st pid kind loser out) :
    CallSteps pid a b st c out.1 := by
  cases h with
  | refused => exact .unchanged
  | torn s₁ e hlive h₁ => exact .torn loser s₁ hside hunmarked hlive h₁
  | rolledForward s₂ hret h₂ =>
      exact .terminal s₂ (isTerminalType_of_stored h₂ rfl)
  | retired s₁ s₂ hlive h₁ h₂ =>
      exact .retired loser s₁ s₂ hside hunmarked hlive h₁
        (isTerminalType_of_stored h₂ rfl)

theorem not_mem_of_getElem?_eq_none {log : EventLog} {pid : String}
    (h : (resolutionMarkers log)[pid]? = none) :
    pid ∉ resolutionMarkers log := by
  intro hmem
  rw [Std.TreeMap.getElem?_eq_some_getElem hmem] at h
  cases h

/-- **One call, in full.** -/
theorem CallSteps.of_exec {pid : String} {a b : ConflictRef} {st : Store}
    (hrefs : conflictProposalById st.log pid = some (a, b))
    (c : ResolveCall) : CallSteps pid a b st c (c.exec pid st) := by
  unfold ResolveCall.exec
  split
  · -- the call stops before its terminal marker
    simp only [stopBeforeTerminal, hrefs]
    cases hmarker : (resolutionMarkers st.log)[pid]? with
    | some existing => exact .unchanged
    | none =>
        cases hside : sideOf c.action a b with
        | none => exact .unchanged
        | some loser =>
            simp only
            split
            · exact .unchanged
            · next hret =>
                have hlive : refRetired st.log loser = false := by
                  simpa using hret
                rcases retireRef_cases c.m₁ st pid loser with
                  ⟨e, h⟩ | ⟨s₁, h₁, h⟩
                · rw [h]
                  exact .unchanged
                · rw [h]
                  exact .torn loser s₁ hside
                    (not_mem_of_getElem?_eq_none hmarker) hlive h₁
  · have hsteps := resolveConflict_steps c.m₁ c.m₂ st pid c.action
    generalize haction : c.action = action at hsteps
    generalize resolveConflict c.m₁ c.m₂ st pid action = out at hsteps
    cases hsteps with
    | refused => exact .unchanged
    | repeated => exact .unchanged
    | retireOlder a' b' _ hrefs' hmarker hsteps =>
        rw [hrefs, Option.some.injEq, Prod.mk.injEq] at hrefs'
        obtain ⟨rfl, rfl⟩ := hrefs'
        exact .of_retireSteps (by rw [haction]; rfl)
          (not_mem_of_getElem?_eq_none hmarker) hsteps
    | retireNewer a' b' _ hrefs' hmarker hsteps =>
        rw [hrefs, Option.some.injEq, Prod.mk.injEq] at hrefs'
        obtain ⟨rfl, rfl⟩ := hrefs'
        exact .of_retireSteps (by rw [haction]; rfl)
          (not_mem_of_getElem?_eq_none hmarker) hsteps
    | keepBoth a' b' s hrefs' hmarker hs =>
        exact .terminal s (isTerminalType_of_stored hs rfl)
    | dismiss a' b' s hrefs' hmarker hs =>
        exact .terminal s (isTerminalType_of_stored hs rfl)

/-! ## Counting the retire markers -/

/-- An event retires one reference at most. -/
theorem RetiresRef.unique {r r' : ConflictRef} {ev : Event}
    (h : RetiresRef r ev) (h' : RetiresRef r' ev) : r = r' := by
  cases r with
  | note id =>
      cases r' with
      | note id' =>
          have heq := h.2.symm.trans h'.2
          rw [Option.some.inj heq]
      | passage sid pid => exact absurd (h.1.symm.trans h'.1) (by decide)
  | passage sid pid =>
      cases r' with
      | note id => exact absurd (h.1.symm.trans h'.1) (by decide)
      | passage sid' pid' =>
          have heq := Option.some.inj (h.2.symm.trans h'.2)
          rw [Prod.mk.injEq] at heq
          rw [heq.1, heq.2]

theorem retireMarkersOf_append_terminal {log : EventLog} {s : Event}
    (hterm : isTerminalType s.eventType = true) (pid : String)
    (r : ConflictRef) :
    retireMarkersOf (log ++ [s]) pid r = retireMarkersOf log pid r := by
  have hnot : ¬ RetiredFor pid r s := by
    rintro ⟨hr, -⟩
    cases r with
    | note id =>
        rw [hr.1] at hterm
        exact absurd hterm (by decide)
    | passage sid p =>
        rw [hr.1] at hterm
        exact absurd hterm (by decide)
  simp [retireMarkersOf, List.filter_append, hnot]

theorem retireMarkersOf_append_marker {m : Mint} {log : EventLog}
    {pid : String} {loser : ConflictRef} {s : Event}
    (hrep : loser.Representable)
    (hs : Stored m log (retireMarker pid loser) s) (r : ConflictRef) :
    retireMarkersOf (log ++ [s]) pid r =
      retireMarkersOf log pid r ++ if r = loser then [s] else [] := by
  have hloser := retiresRef_of_stored hrep hs
  have hpid : s.content.getStr? "proposal_id" = some pid := by
    cases loser with
    | note id =>
        rw [hs.content_of_none rfl]
        rfl
    | passage sid p =>
        rw [hs.content_of_none rfl]
        rfl
  by_cases hr : r = loser
  · subst hr
    have hyes : RetiredFor pid r s := ⟨hloser, hpid⟩
    simp [retireMarkersOf, List.filter_append, hyes]
  · have hno : ¬ RetiredFor pid r s := fun h => hr (h.1.unique hloser)
    simp [retireMarkersOf, List.filter_append, hno, hr]

/-! ## Runs of calls -/

/-- What every call preserves: each side was retired at most once by the
proposal, and what it retired is retired. -/
structure CallInv (pid : String) (a b : ConflictRef) (log : EventLog) :
    Prop where
  refs : conflictProposalById log pid = some (a, b)
  once : ∀ r, (retireMarkersOf log pid r).length ≤ 1
  retired : ∀ r, retireMarkersOf log pid r ≠ [] → refRetired log r = true

theorem representable_of_sideOf {log : EventLog} {pid : String}
    {a b loser : ConflictRef} {action : ResolveAction}
    (hrefs : conflictProposalById log pid = some (a, b))
    (hside : sideOf action a b = some loser) : loser.Representable := by
  obtain ⟨ha, hb⟩ := representable_of_proposalById hrefs
  cases action with
  | retireOlder => exact Option.some.inj hside ▸ ha
  | retireNewer => exact Option.some.inj hside ▸ hb
  | keepBoth => cases hside
  | dismiss => cases hside

theorem CallInv.terminal {pid : String} {a b : ConflictRef}
    {log : EventLog} {s : Event} (h : CallInv pid a b log)
    (hterm : isTerminalType s.eventType = true) :
    CallInv pid a b (log ++ [s]) := by
  refine ⟨conflictProposalById_append h.refs [s], ?_, ?_⟩
  · intro r
    rw [retireMarkersOf_append_terminal hterm]
    exact h.once r
  · intro r hr
    rw [retireMarkersOf_append_terminal hterm] at hr
    refine refRetired_append_of_type (h.retired r hr) ?_
    intro htype
    rw [htype] at hterm
    exact absurd hterm (by decide)

theorem CallInv.marker {m : Mint} {pid : String} {a b loser : ConflictRef}
    {log : EventLog} {s : Event} {action : ResolveAction}
    (h : CallInv pid a b log) (hside : sideOf action a b = some loser)
    (hlive : refRetired log loser = false)
    (hs : Stored m log (retireMarker pid loser) s) :
    CallInv pid a b (log ++ [s]) := by
  have hrep := representable_of_sideOf h.refs hside
  -- a live loser has no retire marker yet
  have hnone : retireMarkersOf log pid loser = [] := by
    by_contra hne
    rw [h.retired loser hne] at hlive
    cases hlive
  have htype : s.eventType ≠ unretireEventType := by
    rw [hs.eventType_eq]
    cases loser with
    | note id =>
        show noteRetiredEventType ≠ unretireEventType
        decide
    | passage sid p =>
        show passageRetiredEventType ≠ unretireEventType
        decide
  refine ⟨conflictProposalById_append h.refs [s], ?_, ?_⟩
  · intro r
    rw [retireMarkersOf_append_marker hrep hs]
    by_cases hr : r = loser
    · rw [hr, hnone, if_pos rfl]
      exact Nat.le_refl 1
    · rw [if_neg hr, List.append_nil]
      exact h.once r
  · intro r hr
    rw [retireMarkersOf_append_marker hrep hs] at hr
    by_cases hrl : r = loser
    · rw [hrl]
      exact refRetired_append.2 (.inl (retiresRef_of_stored hrep hs))
    · rw [if_neg hrl, List.append_nil] at hr
      exact refRetired_append_of_type (h.retired r hr) htype

theorem CallInv.exec {pid : String} {a b : ConflictRef} {st : Store}
    (h : CallInv pid a b st.log) (c : ResolveCall) :
    CallInv pid a b (c.exec pid st).log := by
  have hsteps := CallSteps.of_exec h.refs c
  generalize c.exec pid st = st' at hsteps
  cases hsteps with
  | unchanged => exact h
  | terminal s hterm => exact h.terminal hterm
  | torn loser s₁ hside hunmarked hlive h₁ => exact h.marker hside hlive h₁
  | retired loser s₁ s₂ hside hunmarked hlive h₁ hterm =>
      exact (h.marker hside hlive h₁).terminal hterm

/-- At most one reference was retired on behalf of the proposal. -/
def OneSide (pid : String) (log : EventLog) : Prop :=
  ∀ r r', retireMarkersOf log pid r ≠ [] →
    retireMarkersOf log pid r' ≠ [] → r = r'

/-- The call does not act on the other side of a torn resolution: while the
proposal has no terminal marker, an action retires no side but the one
retired already. -/
def ResolveCall.KeepsSide (pid : String) (st : Store) (c : ResolveCall) :
    Prop :=
  ∀ a b, conflictProposalById st.log pid = some (a, b) →
    pid ∉ resolutionMarkers st.log →
      ∀ r, retireMarkersOf st.log pid r ≠ [] →
        ∀ loser, sideOf c.action a b = some loser → loser = r

theorem OneSide.terminal {pid : String} {log : EventLog} {s : Event}
    (h : OneSide pid log) (hterm : isTerminalType s.eventType = true) :
    OneSide pid (log ++ [s]) := by
  intro r r' hr hr'
  rw [retireMarkersOf_append_terminal hterm] at hr hr'
  exact h r r' hr hr'

theorem OneSide.of_marker {m : Mint} {pid : String} {loser : ConflictRef}
    {log : EventLog} {s : Event}
    (hrep : loser.Representable)
    (hs : Stored m log (retireMarker pid loser) s)
    (hkeeps : ∀ r, retireMarkersOf log pid r ≠ [] → loser = r) :
    OneSide pid (log ++ [s]) := by
  have hloser : ∀ r, retireMarkersOf (log ++ [s]) pid r ≠ [] →
      r = loser := by
    intro r hr
    by_contra hne
    rw [retireMarkersOf_append_marker hrep hs, if_neg hne,
      List.append_nil] at hr
    exact hne (hkeeps r hr).symm
  intro r r' hr hr'
  rw [hloser r hr, hloser r' hr']

theorem OneSide.exec {pid : String} {a b : ConflictRef} {st : Store}
    {c : ResolveCall} (hinv : CallInv pid a b st.log)
    (h : OneSide pid st.log) (hkeeps : c.KeepsSide pid st) :
    OneSide pid (c.exec pid st).log := by
  have hsteps := CallSteps.of_exec hinv.refs c
  generalize c.exec pid st = st' at hsteps
  cases hsteps with
  | unchanged => exact h
  | terminal s hterm => exact h.terminal hterm
  | torn loser s₁ hside hunmarked hlive h₁ =>
      exact .of_marker (representable_of_sideOf hinv.refs hside) h₁
        fun r hr => hkeeps a b hinv.refs hunmarked r hr loser hside
  | retired loser s₁ s₂ hside hunmarked hlive h₁ hterm =>
      have hmarker : OneSide pid (st.log ++ [s₁]) :=
        .of_marker (representable_of_sideOf hinv.refs hside) h₁
          fun r hr => hkeeps a b hinv.refs hunmarked r hr loser hside
      exact hmarker.terminal hterm

/-- A call whose side is retired already retires nothing. -/
theorem CallInv.retry {pid : String} {a b r : ConflictRef} {st : Store}
    {c : ResolveCall} (h : CallInv pid a b st.log)
    (hside : sideOf c.action a b = some r)
    (hr : retireMarkersOf st.log pid r ≠ []) (r' : ConflictRef) :
    retireMarkersOf (c.exec pid st).log pid r' =
      retireMarkersOf st.log pid r' := by
  have hret := h.retired r hr
  have hsteps := CallSteps.of_exec h.refs c
  generalize c.exec pid st = st' at hsteps
  cases hsteps with
  | unchanged => rfl
  | terminal s hterm => exact retireMarkersOf_append_terminal hterm pid r'
  | torn loser s₁ hside' hunmarked hlive h₁ =>
      rw [hside, Option.some.injEq] at hside'
      rw [← hside', hret] at hlive
      cases hlive
  | retired loser s₁ s₂ hside' hunmarked hlive h₁ hterm =>
      rw [hside, Option.some.injEq] at hside'
      rw [← hside', hret] at hlive
      cases hlive

/-- **Torn resolutions.** Over every sequence of calls on one proposal, each
of which may stop between its markers: a side is retired at most once, a
retry of the action that retired it retires nothing more, and at most one
side is retired as long as no call acts on the other side of a torn
resolution. -/
theorem torn_resolution_retires_once (st : Store) (pid : String)
    (a b : ConflictRef)
    (hrefs : conflictProposalById st.log pid = some (a, b))
    (hnew : ∀ r, retireMarkersOf st.log pid r = [])
    (calls : List ResolveCall) :
    (∀ r, (retireMarkersOf (Trace.run (ResolveCall.exec pid) st calls).log
        pid r).length ≤ 1) ∧
    (∀ (c : ResolveCall) (r : ConflictRef),
      sideOf c.action a b = some r →
      retireMarkersOf (Trace.run (ResolveCall.exec pid) st calls).log pid r
        ≠ [] →
      ∀ r', retireMarkersOf
          (c.exec pid (Trace.run (ResolveCall.exec pid) st calls)).log pid r'
        = retireMarkersOf
          (Trace.run (ResolveCall.exec pid) st calls).log pid r') ∧
    (Trace.Meets (ResolveCall.exec pid) (ResolveCall.KeepsSide pid) st
        calls →
      OneSide pid (Trace.run (ResolveCall.exec pid) st calls).log) := by
  have hstart : CallInv pid a b st.log := by
    refine ⟨hrefs, fun r => ?_, fun r hr => absurd (hnew r) hr⟩
    rw [hnew r]
    exact Nat.zero_le 1
  have hinv : CallInv pid a b
      (Trace.run (ResolveCall.exec pid) st calls).log :=
    Trace.run_inv (fun s : Store => CallInv pid a b s.log)
      (fun _ c h => h.exec c) hstart calls
  refine ⟨hinv.once, fun c r hside hr => hinv.retry hside hr, ?_⟩
  intro hmeets
  have honce : OneSide pid st.log :=
    fun r _ hr _ => absurd (hnew r) hr
  have hrun := Trace.run_inv_of_meets
    (fun s : Store => CallInv pid a b s.log ∧ OneSide pid s.log)
    (fun _ c h hkeeps => ⟨h.1.exec c, h.2.exec h.1 hkeeps⟩)
    ⟨hstart, honce⟩ hmeets
  exact hrun.2

/-! ### Samples -/

/-- Two contradicting notes, proposed. -/
def sampleNotes : List ConflictOp :=
  [.memory (.remember sampleEmbedder (.plain "note-1") "branch is main")
      trivial,
    .memory (.remember sampleEmbedder (.plain "note-2") "branch is master")
      trivial,
    .detect (.plain "prop-1") (.note "note-1") (.note "note-2") "newer"
      "high" "newer memory contradicts older" 1767225600]

/-- A call whose appends would succeed. -/
def sampleCall (action : ResolveAction) (n : String) (stops : Bool) :
    ResolveCall :=
  { action := action, m₁ := .plain s!"retire-{n}",
    m₂ := .plain s!"terminal-{n}", stops := stops }

/-- A log whose retire markers are all about one note. -/
theorem eq_note_of_marked {log : EventLog} {pid id : String}
    (hnotes : ∀ ev ∈ log, ev.eventType = noteRetiredEventType →
      ev.content.getStr? "retires" = some id)
    (hpassages : ∀ ev ∈ log, ev.eventType ≠ passageRetiredEventType)
    {r : ConflictRef} (hr : retireMarkersOf log pid r ≠ []) :
    r = .note id := by
  obtain ⟨ev, hev⟩ := List.exists_mem_of_ne_nil _ hr
  rw [retireMarkersOf, List.mem_filter, decide_eq_true_iff] at hev
  obtain ⟨hmem, hret, -⟩ := hev
  cases r with
  | note id' =>
      have hid := hnotes ev hmem hret.1
      rw [hret.2, Option.some.injEq] at hid
      rw [hid]
  | passage sid p => exact absurd hret.1 (hpassages ev hmem)

theorem sampleNotes_unresolved (r : ConflictRef) :
    retireMarkersOf (Trace.run ConflictOp.exec Store.empty sampleNotes).log
      "prop-1" r = [] := by
  by_contra hr
  -- there is no retire marker at all, so any note may be named
  have hone : r = .note "note-1" :=
    eq_note_of_marked (by decide +kernel) (by decide +kernel) hr
  have htwo : r = .note "note-2" :=
    eq_note_of_marked (by decide +kernel) (by decide +kernel) hr
  exact absurd (hone.symm.trans htwo) (by decide)

/-- Retiring the older note stops half-way and is retried. -/
theorem torn_resolution_retires_once_sample :
    OneSide "prop-1" (Trace.run (ResolveCall.exec "prop-1")
      (Trace.run ConflictOp.exec Store.empty sampleNotes)
      [sampleCall .retireOlder "1" true,
        sampleCall .retireOlder "2" false]).log := by
  refine (torn_resolution_retires_once
    (Trace.run ConflictOp.exec Store.empty sampleNotes) "prop-1"
    (.note "note-1") (.note "note-2") (by rfl) sampleNotes_unresolved
    [sampleCall .retireOlder "1" true,
      sampleCall .retireOlder "2" false]).2.2 ?_
  refine ⟨?_, ?_, trivial⟩
  · intro a b _ _ r hr
    exact absurd (sampleNotes_unresolved r) hr
  · intro a b hrefs _ r hr loser hside
    have ha : some (ConflictRef.note "note-1", ConflictRef.note "note-2") =
        some (a, b) := by
      rw [← hrefs]
      rfl
    rw [Option.some.injEq, Prod.mk.injEq] at ha
    have hr' : r = .note "note-1" :=
      eq_note_of_marked (by decide +kernel) (by decide +kernel) hr
    rw [hr', ha.1]
    exact (Option.some.inj hside).symm

/-- **Both sides can be retired**: the older note by a call that stops after
its retire marker, the newer one by the next call. -/
theorem torn_resolution_retires_both :
    ¬ ∀ (ops : List ConflictOp) (pid : String) (a b : ConflictRef)
        (calls : List ResolveCall),
      conflictProposalById
          (Trace.run ConflictOp.exec Store.empty ops).log pid =
        some (a, b) →
      (∀ r, retireMarkersOf
        (Trace.run ConflictOp.exec Store.empty ops).log pid r = []) →
      OneSide pid (Trace.run (ResolveCall.exec pid)
        (Trace.run ConflictOp.exec Store.empty ops) calls).log := by
  intro h
  have hboth := h sampleNotes "prop-1" (.note "note-1") (.note "note-2")
    [sampleCall .retireOlder "1" true, sampleCall .retireNewer "2" false]
    (by rfl) sampleNotes_unresolved (.note "note-1") (.note "note-2")
    (by decide +kernel) (by decide +kernel)
  exact absurd hboth (by decide)

end AirNote
