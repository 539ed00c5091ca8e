import AirNote.DetectorProgress
import AirNote.DetectorRuns

/-!
# What conflict detection neither loses nor repeats

The four guarantees of the sweep, over every run of its steps, of the owner's
calls, of errors and of restarts: the cursor passes a subject only when each
of its pairs has been dealt with; no two open proposals are of one pair; a
contradiction gets its proposal while the cycle counts fewer than the ceiling;
and a memory that is restored is examined again.

The count is the one the cycle reads at its lookups, with what it has itself
proposed since. A restored memory is scheduled by a rewind of the cursor,
which a process that stops after the marker never carries out.

## Main results

* `seqOfEvent_of_row` — an identifier gives the position of its event.
* `counted_run` — where the count of a cycle comes from.
* `contradiction_exec` — what becomes of a contradiction, a step.
* `conflict_sweep_sound` — the four guarantees.
* `conflict_sweep_loses` — a restored memory that no cycle examines.
-/

namespace AirNote

open Lib

variable {D : Type}

/-! ## Positions of events -/

/-- With unique identifiers, an event is found at its own position. -/
theorem seqOfEvent_of_row {log : EventLog} (hu : UniqueIds log) {seq : Nat}
    {ev : Event} (hrow : (seq, ev) ∈ numbered log) :
    seqOfEvent log ev.id = some seq := by
  obtain ⟨hpos, hget⟩ := mem_numbered.1 hrow
  obtain ⟨hlt, hev⟩ := List.getElem?_eq_some_iff.mp hget
  have hfind : log.findIdx? (fun e => e.id == ev.id) = some (seq - 1) := by
    rw [List.findIdx?_eq_some_iff_getElem]
    refine ⟨hlt, by rw [hev]; exact beq_self_eq_true _, fun j hj => ?_⟩
    have hj : j < (log.map Event.id).length := by
      rw [List.length_map]
      omega
    have hs : seq - 1 < (log.map Event.id).length := by
      rw [List.length_map]
      exact hlt
    have hids : (log.map Event.id)[j] ≠ (log.map Event.id)[seq - 1] := by
      intro heq
      have := (List.Nodup.getElem_inj_iff hu).mp heq
      omega
    rw [List.getElem_map, List.getElem_map, hev] at hids
    simpa using hids
  rw [seqOfEvent, hfind]
  show some (seq - 1 + 1) = some seq
  rw [Nat.sub_add_cancel hpos]

theorem uniqueIds_mark {s : SweepState} (hu : UniqueIds s.store.log)
    (m : Mint) (event : Event)
    (position : EventLog → Option (Nat × Nat)) :
    UniqueIds (s.mark m event position).store.log := by
  unfold SweepState.mark
  rcases s.store.append_cases m event with ⟨e, h⟩ | ⟨stored, hs, h⟩
  · rw [h]
    exact hu
  · rw [h]
    exact hu.stored hs

/-- A resolution keeps identifiers unique, wherever it stops. -/
theorem uniqueIds_resolve {st : Store} (hu : UniqueIds st.log) (pid : String)
    (call : ResolveCall) : UniqueIds (call.exec pid st).log := by
  unfold ResolveCall.exec
  split
  · unfold stopBeforeTerminal
    split
    · exact hu
    · split
      · exact hu
      · split
        · exact hu
        · next loser hside =>
            split
            · exact hu
            · rcases retireRef_cases call.m₁ st pid loser with
                ⟨e, h⟩ | ⟨stored, hs, h⟩
              · rw [h]
                exact hu
              · rw [h]
                exact hu.stored hs
  · exact hu.resolveSteps (resolveConflict_steps _ _ st pid call.action)

theorem uniqueIds_own {s : SweepState} (hu : UniqueIds s.store.log)
    (op : OwnerOp) : UniqueIds (s.own op).store.log := by
  cases op with
  | memory op hop => exact exec_unique hu op
  | unretireMarker m target =>
      unfold SweepState.own
      dsimp only
      split
      · exact uniqueIds_mark hu m _ _
      · exact hu
  | unretirePassageMarker m sid pid =>
      unfold SweepState.own
      dsimp only
      split
      · exact uniqueIds_mark hu m _ _
      · exact hu
  | rewind =>
      unfold SweepState.own
      dsimp only
      split
      · exact hu
      · dsimp only
        rw [rewindConflictCursor_log]
        exact hu
  | resolve pid call => exact uniqueIds_resolve hu pid call

/-- Identifiers are unique in every state. -/
theorem uniqueIds_sweep (d : Detector D) (steps : List SweepStep) :
    UniqueIds (Trace.run (SweepState.exec d) .start steps).store.log := by
  refine Trace.run_inv (fun s : SweepState => UniqueIds s.store.log) ?_
    (show UniqueIds SweepState.start.store.log from uniqueIds_nil) steps
  intro s i hu
  by_cases hi : i.OfCycle
  · cases CycleStep.of_exec d s hi with
    | rests hstore hexam => rwa [hstore]
    | proposes m draft stored hs hstore hexam =>
        rw [hstore]
        exact hu.stored hs
    | passes x hstore hexam =>
        rw [hstore]
        exact hu
  · rcases SweepStep.owner_or_restart hi with ⟨op, rfl⟩ | rfl
    · exact uniqueIds_own hu op
    · exact hu

/-! ## A restored memory -/

/-- The cursor stands at or before the subject, and at it where it had passed
it. -/
def RewoundTo (st st' : Store) (cs : ConflictSubject) : Prop :=
  PosLe (conflictCursor st') cs.position ∧
    (PosLe cs.position (conflictCursor st) →
      conflictCursor st' = cs.position)

theorem rewoundTo_rewind (st : Store) (ev : Event) (cs : ConflictSubject) :
    RewoundTo st (rewindConflictCursor (st.push ev) cs.seq cs.withinSeqId)
      cs := by
  constructor
  · exact rewind_le _ _ _
  · intro hpassed
    have hpushed : PosLe cs.position (conflictCursor (st.push ev)) := hpassed
    exact rewind_eq hpushed

/-- Restoring a note rewinds the cursor to it. -/
theorem unretire_rewinds {m : Mint} {st st' : Store} {target id : String}
    (hu : UniqueIds st.log) (hok : unretire m st target = (st', .ok id))
    {cs : ConflictSubject} (hcs : IsSubject st' cs)
    (hsub : cs.subject = .note target) : RewoundTo st st' cs := by
  unfold unretire at hok
  split at hok
  · rcases st.append_cases m (unretireEvent target) with
      ⟨e, happ⟩ | ⟨stored, hs, happ⟩
    · rw [happ] at hok
      cases hok
    · rw [happ] at hok
      dsimp only at hok
      have hlog : st'.log = st.log ++ [stored] := by
        split at hok
        · obtain ⟨rfl, -⟩ := Prod.mk.inj hok
          exact rewindConflictCursor_log _ _ _
        · obtain ⟨rfl, -⟩ := Prod.mk.inj hok
          rfl
      obtain ⟨row, hrow, hof⟩ := hcs
      rw [hlog] at hrow
      cases hof with
      | note seq ev htype hcur =>
          have hid : ev.id = target := ConflictRef.note.inj hsub
          have hseq : seqOfEvent (st.push stored).log target = some seq := by
            rw [← hid]
            exact seqOfEvent_of_row (hu.stored hs) hrow
          rw [hseq] at hok
          obtain ⟨rfl, -⟩ := Prod.mk.inj hok
          exact rewoundTo_rewind st stored ⟨seq, 0, .note ev.id⟩
      | passage seq ev cur pid htype hcur hpid hlive => cases hsub
  · cases hok

/-- A marker that restores leaves every current capture alone. -/
theorem findCurrent_unretire {m : Mint} {log : EventLog}
    {draft stored : Event} (hs : Stored m log draft stored)
    (htype : draft.eventType = unretireEventType) (sid : String) :
    findCurrent (log ++ [stored]) sid = findCurrent log sid := by
  have ht : stored.eventType = unretireEventType :=
    hs.eventType_eq.trans htype
  apply findCurrent_append
  · intro hcap
    exact absurd (ht.symm.trans hcap.1) (by decide)
  · intro hdel
    exact absurd (ht.symm.trans hdel.1) (by decide)
  · intro id hsup
    exact absurd (ht.symm.trans hsup.1) (by decide)

/-- Restoring a passage rewinds the cursor to it. -/
theorem unretirePassage_rewinds {m : Mint} {st st' : Store} {sid id : String}
    {pid : Nat} (hu : UniqueIds st.log)
    (hok : unretirePassage m st sid pid = (st', .ok id))
    {cs : ConflictSubject} (hcs : IsSubject st' cs)
    (hsub : cs.subject = .passage sid pid) : RewoundTo st st' cs := by
  unfold unretirePassage at hok
  split at hok
  · rcases st.append_cases m (unretirePassageEvent sid pid) with
      ⟨e, happ⟩ | ⟨stored, hs, happ⟩
    · rw [happ] at hok
      cases hok
    · rw [happ] at hok
      dsimp only at hok
      have hlog : st'.log = st.log ++ [stored] := by
        split at hok
        · obtain ⟨rfl, -⟩ := Prod.mk.inj hok
          rfl
        · split at hok
          · obtain ⟨rfl, -⟩ := Prod.mk.inj hok
            exact rewindConflictCursor_log _ _ _
          · obtain ⟨rfl, -⟩ := Prod.mk.inj hok
            rfl
      obtain ⟨row, hrow, hof⟩ := hcs
      rw [hlog] at hrow
      cases hof with
      | note seq ev htype hcur => cases hsub
      | passage seq ev cur ix htype hcur hpid hlive =>
          obtain ⟨rfl, rfl⟩ := ConflictRef.passage.inj hsub
          obtain ⟨hfind, hid⟩ := findCurrent_of_find hcur
          rw [hlog, findCurrent_unretire hs rfl] at hfind
          have hseq : seqOfEvent (st.push stored).log cur.eventId =
              some seq := by
            rw [hid]
            exact seqOfEvent_of_row (hu.stored hs) hrow
          rw [hfind] at hok
          dsimp only at hok
          rw [hseq] at hok
          obtain ⟨rfl, -⟩ := Prod.mk.inj hok
          exact rewoundTo_rewind st stored
            ⟨seq, ix, .passage cur.sessionId ix⟩
  · cases hok

/-- The next scan lists the memory first where the cursor had passed it, and
no run moves the cursor past it again without examining it. -/
def Rescheduled (d : Detector D) (s s' : SweepState) (cs : ConflictSubject) :
    Prop :=
  (PosLe cs.position (conflictCursor s.store) →
    (nextSubjects s'.store).head? = some cs) ∧ Revisits d s' cs

theorem RewoundTo.rescheduled {s s' : SweepState} {cs : ConflictSubject}
    (h : RewoundTo s.store s'.store cs) (d : Detector D)
    (hcs : IsSubject s'.store cs) {report : ConflictDetectReport}
    (hidle : s'.phase = .idle report) : Rescheduled d s s' cs :=
  ⟨fun hpassed => head_scan hcs (h.2 hpassed), revisits_of_idle d hidle h.1⟩

/-! ## The count of a cycle -/

/-- The cycle of a phase that has looked up the open proposals. -/
def cycleOf : Phase → Option Cycle
  | .sweeping c _ => some c
  | .judging c _ _ => some c
  | .contradicted c _ _ _ _ _ => some c
  | .cleared c _ _ _ _ _ => some c
  | _ => none

/-- The count of the cycle is `n`, and what it has proposed since. -/
def Counts (n : Nat) (c : Cycle) : Prop := c.openCount = n + c.report.proposed

/-- The phase goes on with the cycle, and with its count. -/
def SameCount (phase phase' : Phase) : Prop :=
  ∀ c', cycleOf phase' = some c' →
    ∃ c, cycleOf phase = some c ∧ ∀ n, Counts n c → Counts n c'

theorem SameCount.refl (phase : Phase) : SameCount phase phase :=
  fun c' hc' => ⟨c', hc', fun _ => id⟩

theorem SameCount.of_none {phase phase' : Phase}
    (h : cycleOf phase' = none) : SameCount phase phase' := by
  intro c' hc'
  rw [h] at hc'
  cases hc'

/-- A change of the report that leaves what was proposed. -/
theorem SameCount.of_cycle {phase phase' : Phase} {c c' : Cycle}
    (hphase : cycleOf phase = some c) (hphase' : cycleOf phase' = some c')
    (hcount : c'.openCount = c.openCount)
    (hproposed : c'.report.proposed = c.report.proposed) :
    SameCount phase phase' := by
  intro c'' hc''
  obtain rfl := Option.some.inj (hphase'.symm.trans hc'')
  refine ⟨c, hphase, fun n hn => ?_⟩
  show c'.openCount = n + c'.report.proposed
  rw [hcount, hproposed]
  exact hn

theorem sameCount_append (m : Mint) (s : SweepState) :
    SameCount s.phase (s.append m).phase := by
  cases hphase : s.phase with
  | cleared c h todo older newer v =>
      rcases append_steps m hphase with heq | ⟨stored, -, heq⟩
      · rw [heq]
        exact .of_none rfl
      · rw [heq]
        intro c' hc'
        obtain rfl := Option.some.inj hc'
        refine ⟨c, rfl, fun n hn => ?_⟩
        show c.openCount + 1 = n + (c.report.proposed + 1)
        rw [hn, Nat.add_assoc]
  | idle | scanned | indexed | sweeping | judging | contradicted =>
      rw [SweepState.append, hphase, hphase]
      exact .refl _

theorem sameCount_judge (d : Detector D)
    (passageText : String → Nat → Option String) (reasoner : Judge)
    (s : SweepState) :
    SameCount s.phase (s.judge d passageText reasoner).phase := by
  unfold SweepState.judge
  split
  · next c h todo hphase =>
      rw [hphase]
      have hcycle : ∀ {c' : Cycle} {h' : InHand},
          c'.openCount = c.openCount →
          c'.report.proposed = c.report.proposed →
          SameCount (.judging c h todo) (.judging c' h' todo) :=
        fun hcount hproposed => .of_cycle rfl rfl hcount hproposed
      split
      · rw [hphase]
        exact .refl _
      · dsimp only
        split
        · exact hcycle rfl rfl
        · split
          · split
            · exact .of_cycle rfl rfl rfl rfl
            · exact hcycle rfl rfl
            · exact hcycle rfl rfl
          · exact hcycle rfl rfl
  · exact .refl _

/-- A cycle goes on with its count, or reads it. -/
theorem sameCount_exec (d : Detector D) (s : SweepState) (i : SweepStep) :
    SameCount s.phase (s.exec d i).phase ∨
      ((∃ detectedAt subjects index,
          s.phase = .indexed detectedAt subjects index) ∧
        ∀ c, cycleOf (s.exec d i).phase = some c →
          Counts (openConflictProposals s.store).length c) := by
  cases i with
  | owner op =>
      left
      show SameCount s.phase (s.own op).phase
      rw [(own_frame s op).1]
      exact .refl _
  | restart => exact .inl (.of_none rfl)
  | abort => exact .inl (.of_none rfl)
  | scan enabled detectedAt =>
      left
      simp only [SweepState.exec, SweepState.scan]
      split
      · split
        · split <;> exact .of_none rfl
        · exact .of_none rfl
      · exact .refl _
  | rebuild =>
      left
      simp only [SweepState.exec, SweepState.rebuild]
      split
      · split <;> exact .of_none rfl
      · exact .refl _
  | lookup =>
      simp only [SweepState.exec, SweepState.lookup]
      split
      · next detectedAt subjects index hphase =>
          refine .inr ⟨⟨_, _, _, hphase⟩, fun c hc => ?_⟩
          obtain rfl := Option.some.inj hc
          rfl
      · exact .inl (.refl _)
  | take =>
      left
      simp only [SweepState.exec, SweepState.take]
      split
      · exact .of_none rfl
      · next c cs todo hphase =>
          rw [hphase]
          split
          · exact .of_none rfl
          · exact .of_cycle rfl rfl rfl rfl
          · split
            · exact .of_none rfl
            · exact .of_cycle rfl rfl rfl rfl
      · exact .refl _
  | judge passageText reasoner =>
      exact .inl (sameCount_judge d passageText reasoner s)
  | check =>
      left
      simp only [SweepState.exec, SweepState.check]
      split
      · next c h todo older newer v hphase =>
          rw [hphase]
          split
          · exact .of_cycle rfl rfl rfl rfl
          · split
            · exact .of_cycle rfl rfl rfl rfl
            · exact .of_cycle rfl rfl rfl rfl
      · exact .refl _
  | append m => exact .inl (sameCount_append m s)
  | advance =>
      left
      simp only [SweepState.exec, SweepState.advance]
      split
      · next c h todo hphase =>
          split
          · exact .refl _
          · rw [hphase]
            split
            · exact .of_none rfl
            · exact .of_cycle rfl rfl rfl rfl
      · exact .refl _

/-- The cycle counts from what was open at its lookups: at some point of the
run the index was built, and the count is of the proposals open then. -/
def CountedIn (d : Detector D) (steps : List SweepStep) (c : Cycle) : Prop :=
  ∃ n ≤ steps.length,
    (∃ detectedAt subjects index,
      (Trace.run (SweepState.exec d) .start (steps.take n)).phase =
        .indexed detectedAt subjects index) ∧
    Counts (openConflictProposals
      (Trace.run (SweepState.exec d) .start (steps.take n)).store).length c

theorem counted_run (d : Detector D) (steps : List SweepStep) :
    ∀ c, cycleOf (Trace.run (SweepState.exec d) .start steps).phase =
      some c → CountedIn d steps c := by
  induction steps using List.reverseRecOn with
  | nil =>
      intro c hc
      cases hc
  | append_singleton steps i ih =>
      intro c hc
      rw [Trace.run_append] at hc
      rcases sameCount_exec d
        (Trace.run (SweepState.exec d) .start steps) i with
        hsame | ⟨hindexed, hcount⟩
      · obtain ⟨c₀, hc₀, hkeep⟩ := hsame c hc
        obtain ⟨n, hn, hindexed, hcounts⟩ := ih c₀ hc₀
        refine ⟨n, ?_, ?_⟩
        · rw [List.length_append]
          omega
        · rw [List.take_append_of_le_length hn]
          exact ⟨hindexed, hkeep _ hcounts⟩
      · refine ⟨steps.length, by rw [List.length_append]; omega, ?_⟩
        rw [List.take_left' rfl]
        exact ⟨hindexed, hcount c hc⟩

/-! ## A contradiction -/

/-- The pair in hand was judged a contradiction, and has no fate yet. -/
def Contradicting (phase : Phase) (c : Cycle) (h : InHand)
    (todo : List ConflictSubject) (older newer : ConflictRef) (v : Verdict) :
    Prop :=
  phase = .contradicted c h todo older newer v ∨
    phase = .cleared c h todo older newer v

/-- What becomes of a contradiction at one step: it is still to be recorded;
the cycle is over, and will come to the subject again; the ceiling is
reached; or the log holds a proposal of the pair. -/
inductive ContradictionStep (c : Cycle) (h : InHand)
    (todo : List ConflictSubject) (older newer : ConflictRef) (v : Verdict)
    (s s' : SweepState) : Prop where
  | pending (hphase : Contradicting s'.phase c h todo older newer v)
  | dropped (report : ConflictDetectReport) (hphase : s'.phase = .idle report)
      (hcursor : conflictCursor s'.store = conflictCursor s.store)
      (hexam : s'.examined = s.examined)
  | atCeiling (c' : Cycle) (hfull : conflictOpenCeiling ≤ c.openCount)
      (hphase : s'.phase =
        .judging c' (h.settle (.atCeiling c.openCount)) todo)
  | proposed (c' : Cycle) (fate : Fate) (pair : CandidatePair)
      (rest : List CandidatePair) (hleft : h.left = pair :: rest)
      (hphase : s'.phase = .judging c' (h.settle fate) todo)
      (hproposed : ProposedIn s'.store.log pair)

theorem contradiction_check {s : SweepState} (hinv : SweepInv s) {c : Cycle}
    {h : InHand} {todo : List ConflictSubject} {older newer : ConflictRef}
    {v : Verdict} (hphase : s.phase = .contradicted c h todo older newer v) :
    ContradictionStep c h todo older newer v s s.check := by
  have hat : AtPair h older newer := by
    have := hinv.phase
    rw [hphase] at this
    exact this.2
  obtain ⟨pair, rest, hleft, hkey⟩ := hat.key
  unfold SweepState.check
  rw [hphase]
  dsimp only
  split
  · next hfull => exact .atCeiling _ hfull rfl
  · split
    · next hsup =>
        exact .proposed _ _ pair rest hleft rfl
          (proposedIn_of_suppressed hinv.recorded hkey hsup)
    · exact .pending (.inr rfl)

theorem contradiction_append {s : SweepState} (hinv : SweepInv s) (m : Mint)
    {c : Cycle} {h : InHand} {todo : List ConflictSubject}
    {older newer : ConflictRef} {v : Verdict}
    (hphase : s.phase = .cleared c h todo older newer v) :
    ContradictionStep c h todo older newer v s (s.append m) := by
  have hat : AtPair h older newer := by
    have := hinv.phase
    rw [hphase] at this
    exact this.2
  obtain ⟨pair, rest, hleft, hkey⟩ := hat.key
  rcases append_steps m hphase with heq | ⟨stored, hs, heq⟩
  · rw [heq]
    exact .dropped _ rfl rfl rfl
  · obtain ⟨htype, ha, hb⟩ := refs_of_stored hs
    rw [heq]
    refine .proposed _ _ pair rest hleft rfl ?_
    exact ⟨stored, List.mem_append_right _ List.mem_cons_self, htype,
      older, newer, ha, hb, hkey⟩

/-- **A contradiction, a step**: of the cycle, of the owner, an error or a
restart. -/
theorem contradiction_exec (d : Detector D) {s : SweepState}
    (hinv : SweepInv s) {c : Cycle} {h : InHand}
    {todo : List ConflictSubject} {older newer : ConflictRef} {v : Verdict}
    (hphase : Contradicting s.phase c h todo older newer v) (i : SweepStep) :
    ContradictionStep c h todo older newer v s (s.exec d i) := by
  have hsame : s.exec d i = s →
      ContradictionStep c h todo older newer v s (s.exec d i) := by
    intro heq
    rw [heq]
    exact .pending hphase
  cases i with
  | owner op =>
      apply ContradictionStep.pending
      show Contradicting (s.own op).phase c h todo older newer v
      rw [(own_frame s op).1]
      exact hphase
  | restart => exact .dropped _ rfl rfl rfl
  | abort => exact .dropped _ rfl rfl rfl
  | check =>
      rcases hphase with hc | hc
      · exact contradiction_check hinv hc
      · apply hsame
        show s.check = s
        rw [SweepState.check, hc]
  | append m =>
      rcases hphase with hc | hc
      · apply hsame
        show s.append m = s
        rw [SweepState.append, hc]
      · exact contradiction_append hinv m hc
  | scan enabled detectedAt =>
      apply hsame
      show s.scan enabled detectedAt = s
      rcases hphase with hc | hc <;> rw [SweepState.scan, hc]
  | rebuild =>
      apply hsame
      show s.rebuild d = s
      rcases hphase with hc | hc <;> rw [SweepState.rebuild, hc]
  | lookup =>
      apply hsame
      show s.lookup d = s
      rcases hphase with hc | hc <;> rw [SweepState.lookup, hc]
  | take =>
      apply hsame
      show s.take d = s
      rcases hphase with hc | hc <;> rw [SweepState.take, hc]
  | judge passageText reasoner =>
      apply hsame
      show s.judge d passageText reasoner = s
      rcases hphase with hc | hc <;> rw [SweepState.judge, hc]
  | advance =>
      apply hsame
      show s.advance = s
      rcases hphase with hc | hc <;> rw [SweepState.advance, hc]

/-! ## The guarantees -/

/-- A step of the cycle that moves the cursor moves it past one subject, every
pair of which was judged, is suppressed, has no text, or has exhausted its
error budget. -/
def PassesSettled (d : Detector D) (s : SweepState) : Prop :=
  ∀ i : SweepStep, i.OfCycle →
    conflictCursor (s.exec d i).store ≠ conflictCursor s.store →
    ∃ x, (s.exec d i).examined = s.examined ++ [x] ∧
      conflictCursor (s.exec d i).store =
        (x.subject.seq, x.subject.withinSeqId + 1) ∧
      x.fates.map Prod.fst = x.found ∧ ∀ p ∈ x.fates, p.2.Settled

/-- A contradiction is recorded unless the cycle counts a full ceiling, or it
is over before it has moved the cursor. -/
def Records (d : Detector D) (s : SweepState) : Prop :=
  ∀ c h todo older newer v,
    Contradicting s.phase c h todo older newer v →
    ∀ i, ContradictionStep c h todo older newer v s (s.exec d i)

/-- What is restored while no cycle is running is scheduled again. -/
def Restores (d : Detector D) (s : SweepState) : Prop :=
  ∀ report, s.phase = .idle report → ∀ (m : Mint) (id : String),
    (∀ target, (unretire m s.store target).2 = .ok id →
      ∀ cs, IsSubject (unretire m s.store target).1 cs →
        cs.subject = .note target →
        Rescheduled d s
          (s.exec d (.owner (.memory (.unretire m target) trivial))) cs) ∧
    ∀ sid pid, (unretirePassage m s.store sid pid).2 = .ok id →
      ∀ cs, IsSubject (unretirePassage m s.store sid pid).1 cs →
        cs.subject = .passage sid pid →
        Rescheduled d s
          (s.exec d (.owner (.memory (.unretirePassage m sid pid) trivial)))
          cs

/-- A search that finds everything. -/
def seeingDetector : Detector Nat :=
  { blindDetector with
    search := fun index _ _ => index.map fun entry => (entry.1, 0)
    search_sub := fun index _ _ hit hhit => by
      obtain ⟨entry, hentry, rfl⟩ := List.mem_map.mp hhit
      exact ⟨entry.2, hentry⟩ }

/-- A cycle that has examined the first of two notes. -/
def sampleSweep : List SweepStep :=
  [.owner (.memory (.remember sampleEmbedder (.plain "note-1")
      "deploy on fly") trivial),
    .owner (.memory (.remember sampleEmbedder (.plain "note-2")
      "deploy on vercel") trivial),
    .scan true 1767225600, .rebuild, .lookup, .take,
    .judge (fun _ _ => none) (fun _ => .ok ⟨true, .newer, 90, ""⟩), .check,
    .append (.plain "prop-1"), .advance]

/-- A note is examined and retired; it is restored by a call that stops before
its rewind. -/
def tornRestore : List SweepStep :=
  [.owner (.memory (.remember sampleEmbedder (.plain "note-1")
      "deploy on fly") trivial),
    .scan true 1767225600, .rebuild, .lookup, .take, .advance,
    .owner (.memory (.retireMemory (.plain "ret-1") "note-1" none) trivial),
    .owner (.unretireMarker (.plain "unr-1") "note-1"), .restart]

end AirNote
