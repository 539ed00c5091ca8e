import AirNote.Dossier

/-!
# The summarise phase over many ticks

A topic is dirty when an edge event past the summarise cursor names it. A tick
refreshes the dossiers of at most eight dirty topics, the first in the order of
their ids, and moves the cursor to the last edge event it has seen only where
there were no more than these. Nothing remembers which topics a tick has
offered: while no new edge event comes, the next tick finds the same dirty set
and takes the same eight.

Between ticks other writers append events that are no edge events, and the
tables may be rebuilt. Every read and write of a tick may fail.

## Main results

* `summarizeTopics_cases` — a tick leaves the cursor, or moves it to the tip
  with every known dirty topic offered.
* `starves` — with more than eight dirty topics the others are never offered.
* `summarize_drains_iff` — the dirty set drains iff it fits one batch.
-/

namespace AirNote.Dossier

/-! ## The dirty set -/

/-- `SUMMARY_BATCH`. -/
def summaryBatch : Nat := 8

/-- The types `dirty_entities_since` selects. -/
def isEdgeEvent (ev : Event) : Bool :=
  ev.eventType == linkEventType || ev.eventType == invalidateEventType
    || ev.eventType == entityEventType

/-- The rows of `dirty_entities_since`, each with its `seq`. -/
def edgeEventsSince (log : EventLog) (cursor : Nat) : List (Event × Nat) :=
  (log.zipIdx 1).filter fun row =>
    decide (cursor < row.2) && isEdgeEvent row.1

/-- The topics an edge event names. -/
def topicsOf (ev : Event) : List String :=
  if ev.eventType = entityEventType then [entityNodeId ev.id]
  else
    match parseLinkContent ev.content with
    | some key => [key.src, key.dst].filter fun endpoint =>
        "entity:".toList.isPrefixOf endpoint.toList
    | none => []

/-- `dirty_entities_since`: the last `seq` scanned, and the dirty topics. -/
def dirtyEntitiesSince (log : EventLog) (cursor : Nat) :
    Nat × List String :=
  let rows := edgeEventsSince log cursor
  (((rows.getLast?).map Prod.snd).getD cursor,
    sortDedup (rows.flatMap fun row => topicsOf row.1))

/-! ## A tick -/

/-- The tables, the summarise cursor, and the topics offered so far. -/
structure SummaryState where
  dossier : DossierState
  cursor : Nat
  offered : List String

/-- What a tick finds: what fails, and what each refresh finds. -/
structure SummaryEnv where
  readFails : Bool
  refresh : String → RefreshEnv
  rebuildFails : Bool
  cursorFails : Bool

/-- What the loop over the topics leaves. -/
structure BatchRun where
  log : EventLog
  offered : List String
  emitted : Bool
  failed : Bool

/-- The loop of `summarize_topics`: a topic without an entity is passed over,
an error ends it. -/
def refreshBatch (env : String → RefreshEnv) (s : DossierState) :
    List String → BatchRun
  | [] => ⟨s.log, [], false, false⟩
  | topic :: rest =>
      match s.entities.find? fun e => e.entityId == topic with
      | none => refreshBatch env s rest
      | some entity =>
          match refreshTopicPage (env topic) s entity with
          | .error _ => ⟨s.log, [topic], false, true⟩
          | .ok (log, outcome) =>
              let r := refreshBatch env { s with log := log } rest
              { r with
                offered := topic :: r.offered
                emitted := r.emitted ||
                  match outcome with
                  | .emitted _ => true
                  | _ => false }

section Clock

variable (parseRfc3339 : String → Option String)

/-- `summarize_topics`. -/
def summarizeTopics (env : SummaryEnv) (s : SummaryState) : SummaryState :=
  if env.readFails then s
  else
    let scanned := dirtyEntitiesSince s.dossier.log s.cursor
    let drained := decide (scanned.2.length ≤ summaryBatch)
    let r := refreshBatch env.refresh s.dossier (scanned.2.take summaryBatch)
    let s := { s with
      dossier := { s.dossier with log := r.log }
      offered := s.offered ++ r.offered }
    if r.failed || (r.emitted && env.rebuildFails) then s
    else
      let s := if r.emitted then
          { s with dossier := s.dossier.rebuild parseRfc3339 }
        else s
      if drained && decide (s.cursor < scanned.1) && !env.cursorFails then
        { s with cursor := scanned.1 }
      else s

/-- A tick, events of other writers, or a rebuild of the tables. -/
inductive SummaryStep where
  | tick (env : SummaryEnv)
  | append (events : List Event)
  | rebuild

/-- The state a step leads to. -/
def SummaryState.exec (s : SummaryState) : SummaryStep → SummaryState
  | .tick env => summarizeTopics parseRfc3339 env s
  | .append events =>
      { s with dossier := { s.dossier with log := s.dossier.log ++ events } }
  | .rebuild => { s with dossier := s.dossier.rebuild parseRfc3339 }

/-- The state after the first steps of a run. -/
def SummaryState.after (s : SummaryState) (steps : Nat → SummaryStep) :
    Nat → SummaryState
  | 0 => s
  | n + 1 => (s.after steps n).exec parseRfc3339 (steps n)

end Clock

/-- No new edge event. -/
def SummaryStep.Quiet : SummaryStep → Prop
  | .append events => ∀ ev ∈ events, isEdgeEvent ev = false
  | _ => True

/-- A tick in which no read and no write fails. -/
def SummaryStep.Completes : SummaryStep → Prop
  | .tick env => env.readFails = false ∧ env.rebuildFails = false ∧
      env.cursorFails = false ∧ ∀ topic, (env.refresh topic).priorFails = none
  | _ => False

/-- The dirty topics. -/
def SummaryState.dirty (s : SummaryState) : List String :=
  (dirtyEntitiesSince s.dossier.log s.cursor).2

/-- The last edge event scanned. -/
def SummaryState.tip (s : SummaryState) : Nat :=
  (dirtyEntitiesSince s.dossier.log s.cursor).1

/-- The topic has an entity, in the log and in the table. -/
def SummaryState.Knows (s : SummaryState) (topic : String) : Prop :=
  topic ∈ s.dossier.entities.map GraphEntity.entityId ∧
    topic ∈ (foldEntities s.dossier.log).map GraphEntity.entityId

/-! ## What a refresh adds to the log -/

/-- The log has grown by events that are no edge events. -/
def Grown (log log' : EventLog) : Prop :=
  ∃ suffix, log' = log ++ suffix ∧ ∀ ev ∈ suffix, isEdgeEvent ev = false

theorem Grown.refl (log : EventLog) : Grown log log :=
  ⟨[], (List.append_nil log).symm, fun _ h => by cases h⟩

theorem Grown.trans {log₁ log₂ log₃ : EventLog} (h : Grown log₁ log₂)
    (h' : Grown log₂ log₃) : Grown log₁ log₃ := by
  obtain ⟨s, rfl, hs⟩ := h
  obtain ⟨s', rfl, hs'⟩ := h'
  refine ⟨s ++ s', List.append_assoc _ _ _, fun ev hev => ?_⟩
  rcases List.mem_append.mp hev with hev | hev
  · exact hs ev hev
  · exact hs' ev hev

theorem isEdgeEvent_stored {m : Mint} {log : EventLog} {event stored : Event}
    (hs : Stored m log event stored) :
    isEdgeEvent stored = isEdgeEvent event := by
  rw [isEdgeEvent, isEdgeEvent, hs.eventType_eq]

theorem grown_stored {m : Mint} {log : EventLog} {event stored : Event}
    (hs : Stored m log event stored) (hevent : isEdgeEvent event = false) :
    Grown log (log ++ [stored]) := by
  refine ⟨[stored], rfl, fun ev hev => ?_⟩
  rw [List.mem_singleton.mp hev, isEdgeEvent_stored hs, hevent]

theorem isEdgeEvent_pageEvent (topicId title text producer : String)
    (claims : List Json) (sources : List String) :
    isEdgeEvent (pageEvent topicId title text claims producer sources) =
      false := by
  have h : isEdgeEvent (.draft pageEventType .null none) = false := by decide
  exact h

theorem isEdgeEvent_supersedeEvent (target producer : String)
    (sources : List String) :
    isEdgeEvent (supersedeEvent target producer sources) = false := by
  have h : isEdgeEvent (.draft supersedeEventType .null none) = false := by
    decide
  exact h

theorem grown_refresh {env : RefreshEnv} {s : DossierState}
    {entity : GraphEntity} {log' : EventLog} {outcome : TopicRefreshOutcome}
    (h : refreshTopicPage env s entity = .ok (log', outcome)) :
    Grown s.log log' := by
  by_cases hemit : ∃ superseded, outcome = .emitted superseded
  · obtain ⟨superseded, rfl⟩ := hemit
    obtain ⟨draft, rendered, log₁, stored, -, -, hs, rfl, hbefore⟩ :=
      refreshTopicPage_emitted h
    have hpage : Grown log₁ (log₁ ++ [stored]) :=
      grown_stored hs (isEdgeEvent_pageEvent ..)
    rcases hbefore with rfl | ⟨prior, sup, -, hsup, rfl⟩
    · exact hpage
    · exact (grown_stored hsup (isEdgeEvent_supersedeEvent ..)).trans hpage
  · have hquiet := refreshTopicPage_quiet h
      fun superseded hout => hemit ⟨superseded, hout⟩
    exact hquiet ▸ Grown.refl s.log

/-- An error of a refresh is one of reading the current page. -/
theorem refreshTopicPage_ne_error {env : RefreshEnv}
    (hprior : env.priorFails = none) (s : DossierState)
    (entity : GraphEntity) (e : BossclawError) :
    refreshTopicPage env s entity ≠ .error e := by
  intro h
  unfold refreshTopicPage at h
  simp only [hprior] at h
  split at h
  · cases h
  split at h
  · cases h
  split at h
  · cases h
  split at h
  · cases h
  next hfails => cases hfails
  · split at h
    · cases h
    · split at h <;> cases h

/-! ## The loop over the topics -/

section Batch

variable {env : String → RefreshEnv}

theorem grown_refreshBatch (s : DossierState) (topics : List String) :
    Grown s.log (refreshBatch env s topics).log := by
  induction topics generalizing s with
  | nil => exact Grown.refl s.log
  | cons topic rest ih =>
      rw [refreshBatch]
      split
      · exact ih s
      next entity _ =>
        split
        · exact Grown.refl s.log
        next log outcome hrefresh =>
          exact (grown_refresh hrefresh).trans (ih { s with log := log })

theorem offered_refreshBatch_subset (s : DossierState)
    (topics : List String) :
    ∀ topic ∈ (refreshBatch env s topics).offered, topic ∈ topics := by
  induction topics generalizing s with
  | nil => intro topic h; cases h
  | cons topic rest ih =>
      intro t ht
      rw [refreshBatch] at ht
      split at ht
      · exact List.mem_cons_of_mem _ (ih s t ht)
      next entity _ =>
        split at ht
        · rw [List.mem_singleton.mp ht]
          exact List.mem_cons_self
        next log outcome _ =>
          rcases List.mem_cons.mp ht with rfl | ht
          · exact List.mem_cons_self
          · exact List.mem_cons_of_mem _ (ih { s with log := log } t ht)

/-- A loop that no error ends offers every topic that has an entity. -/
theorem offered_refreshBatch {s : DossierState} {topics : List String}
    (h : (refreshBatch env s topics).failed = false) :
    ∀ topic ∈ topics, topic ∈ s.entities.map GraphEntity.entityId →
      topic ∈ (refreshBatch env s topics).offered := by
  induction topics generalizing s with
  | nil => intro topic hmem; cases hmem
  | cons first rest ih =>
      intro topic hmem hknown
      rw [refreshBatch] at h ⊢
      cases hfind : s.entities.find? fun e => e.entityId == first with
      | none =>
          rw [hfind] at h
          rcases List.mem_cons.mp hmem with rfl | hmem
          · obtain ⟨e, he, hid⟩ := List.mem_map.mp hknown
            exact absurd (beq_iff_eq.mpr hid)
              (List.find?_eq_none.mp hfind e he)
          · exact ih h topic hmem hknown
      | some entity =>
          rw [hfind] at h
          simp only at h ⊢
          cases hrefresh : refreshTopicPage (env first) s entity with
          | error e => simp [hrefresh] at h
          | ok r =>
              obtain ⟨log, outcome⟩ := r
              rw [hrefresh] at h
              rcases List.mem_cons.mp hmem with rfl | hmem
              · exact List.mem_cons_self
              · exact List.mem_cons_of_mem _
                  (ih (s := { s with log := log }) h topic hmem hknown)

theorem failed_refreshBatch
    (hprior : ∀ topic, (env topic).priorFails = none) (s : DossierState)
    (topics : List String) : (refreshBatch env s topics).failed = false := by
  induction topics generalizing s with
  | nil => rfl
  | cons topic rest ih =>
      rw [refreshBatch]
      split
      · exact ih s
      next entity _ =>
        split
        next e hrefresh =>
          exact absurd hrefresh
            (refreshTopicPage_ne_error (hprior topic) s entity e)
        next log outcome _ => exact ih { s with log := log }

end Batch

/-! ## The rows of a log that grows -/

theorem edgeEventsSince_grown {log log' : EventLog} (h : Grown log log')
    (cursor : Nat) :
    edgeEventsSince log' cursor = edgeEventsSince log cursor := by
  obtain ⟨suffix, rfl, hsuffix⟩ := h
  have hnone : (suffix.zipIdx (1 + log.length)).filter (fun row =>
      decide (cursor < row.2) && isEdgeEvent row.1) = [] := by
    rw [List.filter_eq_nil_iff]
    intro row hrow
    simp [hsuffix row.1 (List.fst_mem_of_mem_zipIdx hrow)]
  rw [edgeEventsSince, List.zipIdx_append, List.filter_append, hnone,
    List.append_nil, edgeEventsSince]

theorem foldEntities_grown {log log' : EventLog} (h : Grown log log') :
    foldEntities log' = foldEntities log := by
  obtain ⟨suffix, rfl, hsuffix⟩ := h
  have hnone : suffix.filterMap entityOf = [] := by
    rw [List.filterMap_eq_nil_iff]
    intro ev hev
    have htype : ev.eventType ≠ entityEventType := fun heq => by
      have hnot := hsuffix ev hev
      simp [isEdgeEvent, heq] at hnot
    rw [entityOf, if_neg htype]
  rw [foldEntities, List.filterMap_append, hnone, List.append_nil,
    foldEntities]

/-- Past the last row there are no more. -/
theorem edgeEventsSince_tip (log : EventLog) (cursor : Nat) :
    edgeEventsSince log (dirtyEntitiesSince log cursor).1 = [] := by
  rw [edgeEventsSince, List.filter_eq_nil_iff]
  intro row hrow hpast
  rw [Bool.and_eq_true, decide_eq_true_eq] at hpast
  have hsorted : (edgeEventsSince log cursor).Pairwise
      fun a b => a.2 ≤ b.2 := by
    refine List.Pairwise.filter _ ?_
    rw [← List.pairwise_map (f := Prod.snd) (R := (· ≤ ·)),
      List.zipIdx_map_snd]
    exact List.pairwise_le_range'
  cases hlast : (edgeEventsSince log cursor).getLast? with
  | none =>
      have hnil := List.getLast?_eq_none_iff.mp hlast
      have htip : (dirtyEntitiesSince log cursor).1 = cursor := by
        simp [dirtyEntitiesSince, hlast]
      rw [htip] at hpast
      have hmem : row ∈ edgeEventsSince log cursor :=
        List.mem_filter.mpr ⟨hrow, by simp [hpast]⟩
      rw [hnil] at hmem
      cases hmem
  | some last =>
      have htip : (dirtyEntitiesSince log cursor).1 = last.2 := by
        simp [dirtyEntitiesSince, hlast]
      rw [htip] at hpast
      have hcursor : cursor < last.2 := by
        have := (List.mem_filter.mp (List.mem_of_getLast? hlast)).2
        rw [Bool.and_eq_true, decide_eq_true_eq] at this
        exact this.1
      have hmem : row ∈ edgeEventsSince log cursor :=
        List.mem_filter.mpr ⟨hrow, by simp [hpast, hcursor.trans hpast.1]⟩
      have := Lib.SortedBy.rel_getLast?
        (r := fun a b : Event × Nat => a.2 ≤ b.2) (fun _ _ => le_refl _)
        hsorted hlast row hmem
      omega

/-! ## One step -/

/-- What a step that adds no edge event leaves. -/
structure Moves (s s' : SummaryState) : Prop where
  grown : Grown s.dossier.log s'.dossier.log
  entities : s'.dossier.entities = s.dossier.entities ∨
    s'.dossier.entities = foldEntities s'.dossier.log
  offered : ∃ more, s'.offered = s.offered ++ more ∧
    ∀ topic ∈ more, topic ∈ s.dirty.take summaryBatch
  cursor : s'.cursor = s.cursor ∨
    s.dirty.length ≤ summaryBatch ∧ s'.cursor = s.tip ∧
      ∀ topic ∈ s.dirty, s.Knows topic → topic ∈ s'.offered

section Step

variable {parseRfc3339 : String → Option String}

theorem Moves.refl (s : SummaryState) : Moves s s :=
  ⟨Grown.refl _, Or.inl rfl, ⟨[], (List.append_nil _).symm, by simp⟩,
    Or.inl rfl⟩

/-- A batch that no error ends and that holds every dirty topic has offered
the known ones. -/
theorem offered_of_drained {env : String → RefreshEnv} {s : SummaryState}
    (hdrained : s.dirty.length ≤ summaryBatch)
    (hok : (refreshBatch env s.dossier
      (s.dirty.take summaryBatch)).failed = false) :
    ∀ topic ∈ s.dirty, s.Knows topic → topic ∈ s.offered ++
      (refreshBatch env s.dossier (s.dirty.take summaryBatch)).offered := by
  intro topic hdirty hknown
  refine List.mem_append_right _ (offered_refreshBatch hok topic ?_ hknown.1)
  rw [List.take_of_length_le hdrained]
  exact hdirty

theorem summarizeTopics_cases (env : SummaryEnv) (s : SummaryState) :
    Moves s (summarizeTopics parseRfc3339 env s) := by
  have hgrown : Grown s.dossier.log (refreshBatch env.refresh s.dossier
      (s.dirty.take summaryBatch)).log :=
    grown_refreshBatch s.dossier (s.dirty.take summaryBatch)
  have hoffered : ∀ topic ∈ (refreshBatch env.refresh s.dossier
      (s.dirty.take summaryBatch)).offered,
        topic ∈ s.dirty.take summaryBatch :=
    offered_refreshBatch_subset s.dossier (s.dirty.take summaryBatch)
  unfold summarizeTopics
  split
  · exact Moves.refl s
  simp only
  split
  · exact ⟨hgrown, Or.inl rfl, ⟨_, rfl, hoffered⟩, Or.inl rfl⟩
  next hok =>
    have hrun : (refreshBatch env.refresh s.dossier
        (s.dirty.take summaryBatch)).failed = false := by
      simp only [Bool.or_eq_true, not_or, Bool.not_eq_true] at hok
      exact hok.1
    have hdrained : ∀ {moves : Bool}, (decide (s.dirty.length ≤ summaryBatch)
        && moves && !env.cursorFails) = true →
          s.dirty.length ≤ summaryBatch := fun hmove => by
      simp only [Bool.and_eq_true, decide_eq_true_eq] at hmove
      exact hmove.1.1
    -- whether the batch emitted decides the tables, the cursor apart
    split
    · split
      next hmove =>
        exact ⟨hgrown, Or.inr rfl, ⟨_, rfl, hoffered⟩, Or.inr
          ⟨hdrained hmove, rfl, offered_of_drained (hdrained hmove) hrun⟩⟩
      · exact ⟨hgrown, Or.inr rfl, ⟨_, rfl, hoffered⟩, Or.inl rfl⟩
    · split
      next hmove =>
        exact ⟨hgrown, Or.inl rfl, ⟨_, rfl, hoffered⟩, Or.inr
          ⟨hdrained hmove, rfl, offered_of_drained (hdrained hmove) hrun⟩⟩
      · exact ⟨hgrown, Or.inl rfl, ⟨_, rfl, hoffered⟩, Or.inl rfl⟩

theorem exec_moves {step : SummaryStep} (hquiet : step.Quiet)
    (s : SummaryState) : Moves s (s.exec parseRfc3339 step) := by
  cases step with
  | tick env => exact summarizeTopics_cases env s
  | append events =>
      exact ⟨⟨events, rfl, hquiet⟩, Or.inl rfl,
        ⟨[], (List.append_nil _).symm, by simp⟩, Or.inl rfl⟩
  | rebuild =>
      exact ⟨Grown.refl _, Or.inr rfl,
        ⟨[], (List.append_nil _).symm, by simp⟩, Or.inl rfl⟩

theorem cursor_le_tip (s : SummaryState) : s.cursor ≤ s.tip := by
  unfold SummaryState.tip dirtyEntitiesSince
  cases hlast : (edgeEventsSince s.dossier.log s.cursor).getLast? with
  | none => simp [hlast]
  | some last =>
      have hrow := (List.mem_filter.mp (List.mem_of_getLast? hlast)).2
      simp only [Bool.and_eq_true, decide_eq_true_eq] at hrow
      simp [hlast, hrow.1.le]

/-- A tick that completes with the dirty set in one batch drains it. -/
theorem summarizeTopics_completes {env : SummaryEnv}
    (henv : (SummaryStep.tick env).Completes) {s : SummaryState}
    (hdrained : s.dirty.length ≤ summaryBatch) :
    (summarizeTopics parseRfc3339 env s).cursor = s.tip ∧
      ∀ topic ∈ s.dirty, s.Knows topic →
        topic ∈ (summarizeTopics parseRfc3339 env s).offered := by
  obtain ⟨hread, hrebuild, hcursor, hprior⟩ := henv
  have hrun := failed_refreshBatch hprior s.dossier
    (s.dirty.take summaryBatch)
  have hall := offered_of_drained hdrained hrun
  have htip := cursor_le_tip s
  unfold summarizeTopics
  rw [if_neg (by simp [hread])]
  simp only
  rw [if_neg (by
    rw [hrebuild, Bool.and_false, Bool.or_false]
    exact Bool.eq_false_iff.mp hrun)]
  have hsame (hstay : ¬ (decide (s.dirty.length ≤ summaryBatch) &&
      decide (s.cursor < s.tip) && !env.cursorFails) = true) :
        s.cursor = s.tip := by
    refine htip.antisymm (Nat.not_lt.mp fun hlt => hstay ?_)
    simp [hdrained, hlt, hcursor]
  split
  · split
    · exact ⟨rfl, hall⟩
    next hstay => exact ⟨hsame hstay, hall⟩
  · split
    · exact ⟨rfl, hall⟩
    next hstay => exact ⟨hsame hstay, hall⟩

end Step

/-! ## A run without new edge events -/

/-- Where a run that began in `s₀` is: it waits with the cursor unmoved, or
the dirty set of `s₀` fit one batch and is drained. -/
structure Course (s₀ s : SummaryState) : Prop where
  grown : Grown s₀.dossier.log s.dossier.log
  knows : ∀ topic, s₀.Knows topic → s.Knows topic
  offered : ∀ topic ∈ s.offered,
    topic ∈ s₀.offered ∨ topic ∈ s₀.dirty.take summaryBatch
  cursor : s.cursor = s₀.cursor ∨
    s₀.dirty.length ≤ summaryBatch ∧ s.cursor = s₀.tip ∧
      ∀ topic ∈ s₀.dirty, s₀.Knows topic → topic ∈ s.offered

theorem dirtyEntitiesSince_grown {log log' : EventLog} (h : Grown log log')
    (cursor : Nat) :
    dirtyEntitiesSince log' cursor = dirtyEntitiesSince log cursor := by
  rw [dirtyEntitiesSince, edgeEventsSince_grown h, dirtyEntitiesSince]

/-- While it waits a run finds the dirty set it began with. -/
theorem Course.waiting {s₀ s : SummaryState} (h : Course s₀ s)
    (hcursor : s.cursor = s₀.cursor) :
    s.dirty = s₀.dirty ∧ s.tip = s₀.tip := by
  unfold SummaryState.dirty SummaryState.tip
  rw [hcursor, dirtyEntitiesSince_grown h.grown]
  exact ⟨rfl, rfl⟩

/-- Once drained a run finds nothing dirty. -/
theorem Course.drained {s₀ s : SummaryState} (h : Course s₀ s)
    (hcursor : s.cursor = s₀.tip) : s.dirty = [] ∧ s.tip = s₀.tip := by
  have hnone : edgeEventsSince s.dossier.log s.cursor = [] := by
    rw [hcursor, edgeEventsSince_grown h.grown]
    exact edgeEventsSince_tip s₀.dossier.log s₀.cursor
  constructor
  · rw [SummaryState.dirty, dirtyEntitiesSince, hnone]
    rfl
  · rw [SummaryState.tip, dirtyEntitiesSince, hnone]
    exact hcursor

theorem Moves.knows {s s' : SummaryState} (h : Moves s s') {topic : String}
    (hknown : s.Knows topic) : s'.Knows topic := by
  have hfold : topic ∈
      (foldEntities s'.dossier.log).map GraphEntity.entityId := by
    rw [foldEntities_grown h.grown]
    exact hknown.2
  refine ⟨?_, hfold⟩
  rcases h.entities with heq | heq
  · rw [heq]
    exact hknown.1
  · rw [heq]
    exact hfold

theorem Course.moves {s₀ s s' : SummaryState} (h : Course s₀ s)
    (hmove : Moves s s') : Course s₀ s' := by
  obtain ⟨more, hoffered, hmore⟩ := hmove.offered
  have hkept : ∀ topic ∈ s.offered, topic ∈ s'.offered := fun topic ht => by
    rw [hoffered]
    exact List.mem_append_left _ ht
  have hpart : ∀ topic ∈ more, topic ∈ s₀.dirty.take summaryBatch := by
    intro topic ht
    rcases h.cursor with hwait | ⟨-, htip, -⟩
    · rw [← (h.waiting hwait).1]
      exact hmore topic ht
    · have hnone := hmore topic ht
      rw [(h.drained htip).1, List.take_nil] at hnone
      cases hnone
  refine ⟨h.grown.trans hmove.grown, fun topic ht => hmove.knows
    (h.knows topic ht), fun topic ht => ?_, ?_⟩
  · rw [hoffered] at ht
    rcases List.mem_append.mp ht with ht | ht
    · exact h.offered topic ht
    · exact Or.inr (hpart topic ht)
  · rcases h.cursor with hwait | ⟨hfit, htip, hall⟩
    · obtain ⟨hdirty, htip⟩ := h.waiting hwait
      rcases hmove.cursor with hstay | ⟨hfit, hmoved, hall⟩
      · exact Or.inl (hstay.trans hwait)
      · rw [hdirty] at hfit hall
        exact Or.inr ⟨hfit, hmoved.trans htip,
          fun topic ht hknown => hall topic ht (h.knows topic hknown)⟩
    · refine Or.inr ⟨hfit, ?_, fun topic ht hknown =>
        hkept topic (hall topic ht hknown)⟩
      rcases hmove.cursor with hstay | ⟨-, hmoved, -⟩
      · exact hstay.trans htip
      · exact hmoved.trans (h.drained htip).2

section Run

variable (parseRfc3339 : String → Option String)

theorem course_after (s : SummaryState) {steps : Nat → SummaryStep}
    (hquiet : ∀ n, (steps n).Quiet) (n : Nat) :
    Course s (s.after parseRfc3339 steps n) := by
  induction n with
  | zero => exact ⟨Grown.refl _, fun _ h => h, fun _ h => Or.inl h,
      Or.inl rfl⟩
  | succ n ih => exact ih.moves (exec_moves (hquiet n) _)

/-- With more dirty topics than a batch holds the cursor stays, and the topics
past the first batch are never offered. -/
theorem starves (s : SummaryState) {steps : Nat → SummaryStep}
    (hquiet : ∀ n, (steps n).Quiet) (hmany : summaryBatch < s.dirty.length)
    (n : Nat) :
    (s.after parseRfc3339 steps n).cursor = s.cursor ∧
      ∀ topic ∈ s.dirty.drop summaryBatch,
        topic ∈ (s.after parseRfc3339 steps n).offered →
          topic ∈ s.offered := by
  have hcourse := course_after parseRfc3339 s hquiet n
  constructor
  · rcases hcourse.cursor with hwait | ⟨hfit, -⟩
    · exact hwait
    · exact absurd hfit (Nat.not_le.mpr hmany)
  · intro topic hlate hoffered
    rcases hcourse.offered topic hoffered with h | hbatch
    · exact h
    · exact absurd hlate (List.disjoint_take_drop
        (Lib.SortedBy.nodup_eraseDups _) (le_refl _) hbatch)

/-- A run whose dirty set fits one batch is drained by the first tick that
completes. -/
theorem drains (s : SummaryState) {steps : Nat → SummaryStep}
    (hquiet : ∀ n, (steps n).Quiet) (hfit : s.dirty.length ≤ summaryBatch)
    {n : Nat} (hcompletes : (steps n).Completes) :
    ∃ m, (∀ topic ∈ s.dirty, s.Knows topic →
        topic ∈ (s.after parseRfc3339 steps m).offered) ∧
      (s.after parseRfc3339 steps m).cursor = s.tip := by
  have hcourse := course_after parseRfc3339 s hquiet n
  rcases hcourse.cursor with hwait | ⟨-, htip, hall⟩
  · obtain ⟨hdirty, htip⟩ := hcourse.waiting hwait
    cases hstep : steps n with
    | tick env =>
        rw [hstep] at hcompletes
        obtain ⟨hcursor, hall⟩ := @summarizeTopics_completes parseRfc3339
          env hcompletes _ (hdirty ▸ hfit)
        refine ⟨n + 1, ?_⟩
        rw [SummaryState.after, hstep]
        refine ⟨fun topic ht hknown => ?_, hcursor.trans htip⟩
        exact hall topic (hdirty ▸ ht) (hcourse.knows topic hknown)
    | append events =>
        rw [hstep] at hcompletes
        exact hcompletes.elim
    | rebuild =>
        rw [hstep] at hcompletes
        exact hcompletes.elim
  · exact ⟨n, hall, htip⟩

theorem cursor_lt_tip {s : SummaryState} (h : s.dirty ≠ []) :
    s.cursor < s.tip := by
  have hrows : edgeEventsSince s.dossier.log s.cursor ≠ [] := fun hnil => by
    rw [SummaryState.dirty, dirtyEntitiesSince, hnil] at h
    exact h rfl
  obtain ⟨last, hlast⟩ :=
    Option.isSome_iff_exists.mp (List.getLast?_isSome.mpr hrows)
  have hrow := (List.mem_filter.mp (List.mem_of_getLast? hlast)).2
  simp only [Bool.and_eq_true, decide_eq_true_eq] at hrow
  simpa [SummaryState.tip, dirtyEntitiesSince, hlast] using hrow.1

/-- **The dirty set drains iff it fits one batch.** Over a run without new
edge events in which some tick completes, every known dirty topic is offered
to a refresh and the cursor reaches the tip, iff at most eight topics are
dirty when the run begins. -/
theorem summarize_drains_iff (s : SummaryState) (steps : Nat → SummaryStep)
    (hquiet : ∀ n, (steps n).Quiet) (hsound : ∃ n, (steps n).Completes) :
    (∃ n, (∀ topic ∈ s.dirty, s.Knows topic →
        topic ∈ (s.after parseRfc3339 steps n).offered) ∧
      (s.after parseRfc3339 steps n).cursor = s.tip) ↔
    s.dirty.length ≤ summaryBatch := by
  constructor
  · rintro ⟨n, -, htip⟩
    by_contra hmany
    have hmany := Nat.not_le.mp hmany
    have hne : s.dirty ≠ [] := fun hnil => by
      rw [hnil] at hmany
      exact Nat.not_lt_zero _ hmany
    have hstuck := (starves parseRfc3339 s hquiet hmany n).1
    exact (cursor_lt_tip hne).ne (hstuck.symm.trans htip)
  · intro hfit
    obtain ⟨n, hcompletes⟩ := hsound
    exact drains parseRfc3339 s hquiet hfit hcompletes

end Run

/-! ### Nine topics -/

/-- The names of the events of topics. -/
def nineIds : List String := ["a", "b", "c", "d", "e", "f", "g", "h", "i"]

/-- Two notes, and topics drawn from both. -/
def topicsLog (ids : List String) : EventLog :=
  ["m", "k"].map (fun id => storedAs id
      (.draft memoryEventType (.obj [("text", .str "tea")]) none)) ++
    ids.map fun id => storedAs id (entityEvent id "drink" "r" ["m", "k"])

/-- The tables are those of the log. -/
def topicsState (ids : List String) : SummaryState :=
  ⟨⟨topicsLog ids, [], foldEntities (topicsLog ids), []⟩, 0, []⟩

/-- Ticks in which nothing fails. -/
def soundTicks (n : Nat) : SummaryStep :=
  .tick ⟨false, fun topic => teaEnv (topic ++ toString n), false, false⟩

theorem soundTicks_completes (n : Nat) : (soundTicks n).Completes :=
  ⟨rfl, rfl, rfl, fun _ => rfl⟩

/-- Of nine topics with enough facts the ninth is never offered, and the
cursor never moves. -/
theorem nine_topics_starve :
    let s := topicsState nineIds
    (∀ n, (soundTicks n).Quiet ∧ (soundTicks n).Completes) ∧
      ∃ entity ∈ s.dossier.entities, entity.entityId ∈ s.dirty ∧
        s.Knows entity.entityId ∧
        pageMinFacts ≤ (gatherFactSet s.dossier false entity).factCount ∧
        ∀ n, entity.entityId ∉
            (s.after (fun _ => none) soundTicks n).offered ∧
          (s.after (fun _ => none) soundTicks n).cursor ≠ s.tip := by
  intro s
  have hquiet : ∀ n, (soundTicks n).Quiet := fun _ => trivial
  refine ⟨fun n => ⟨hquiet n, soundTicks_completes n⟩,
    ⟨"entity:i", "i", "drink"⟩, by decide, by decide,
    ⟨by decide, by decide⟩, by decide, fun n => ?_⟩
  obtain ⟨hcursor, hnever⟩ :=
    starves (fun _ => none) s hquiet (by decide) n
  constructor
  · exact fun hoffered => List.not_mem_nil
      (hnever "entity:i" (by decide) hoffered)
  · rw [hcursor]
    decide

/-- Two topics are drained. -/
theorem summarize_drains_two :
    (topicsState ["a", "b"]).dirty.length ≤ summaryBatch ∧
    ∃ n, (∀ topic ∈ (topicsState ["a", "b"]).dirty,
        (topicsState ["a", "b"]).Knows topic →
        topic ∈ ((topicsState ["a", "b"]).after (fun _ => none) soundTicks
          n).offered) ∧
      ((topicsState ["a", "b"]).after (fun _ => none) soundTicks n).cursor =
        (topicsState ["a", "b"]).tip :=
  ⟨by decide, (summarize_drains_iff (fun _ => none) _ soundTicks
    (fun _ => trivial) ⟨0, soundTicks_completes 0⟩).mpr (by decide)⟩

end AirNote.Dossier
