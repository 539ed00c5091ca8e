import AirNote.Lib.Ranked
import AirNote.MissBacklog
import AirNote.SummaryTicks

/-!
# Pages that cite what is gone

A page that cites a superseded or retired source is refreshed by the ticks of
reflection, in the order of the topics, at most four in a tick. A topic whose
facts no longer suffice is not refreshed, and its page, attempted in every
tick, is counted every time: four of these standing before a page use up every
tick.

What refreshes add to a log changes no facts: the gathered memories, edges and
the prompt of a topic stay as they are. So a topic that can be rebuilt stays
one, and a page, once it is emitted anew, cites nothing that goes.

## Main results

* `gatherFactSet_grew` — the facts of a topic while pages are added.
* `refresh_course` — what a refresh does to the pages.
* `stale_page_heals_iff` — which stale pages are emitted anew.
-/

namespace AirNote.Reflection

open Dossier Lib

/-! ## What refreshes add to a log -/

/-- A page, or an event that supersedes a page of the log. -/
def RefreshEvent (log : EventLog) (ev : Event) : Prop :=
  ev.eventType = pageEventType ∨
    ev.eventType = supersedeEventType ∧ ev.content.getStr? "text" = none ∧
      ∀ id, Supersedes id ev → IsPageId log id

/-- The log has grown by pages and events that supersede pages. -/
structure Grew (log log' : EventLog) : Prop where
  added : ∃ new, log' = log ++ new ∧ ∀ ev ∈ new, RefreshEvent log' ev
  unique : UniqueIds log → UniqueIds log'

theorem Grew.refl (log : EventLog) : Grew log log :=
  ⟨⟨[], (List.append_nil log).symm, fun _ h => nomatch h⟩, id⟩

theorem isPageId_append {log : EventLog} {id : String} (h : IsPageId log id)
    (new : EventLog) : IsPageId (log ++ new) id :=
  h.imp fun _ hev => ⟨List.mem_append_left new hev.1, hev.2⟩

theorem RefreshEvent.append {log : EventLog} {ev : Event}
    (h : RefreshEvent log ev) (new : EventLog) :
    RefreshEvent (log ++ new) ev :=
  h.imp_right fun hsup =>
    ⟨hsup.1, hsup.2.1, fun id hid => isPageId_append (hsup.2.2 id hid) new⟩

theorem Grew.trans {log₁ log₂ log₃ : EventLog} (h : Grew log₁ log₂)
    (h' : Grew log₂ log₃) : Grew log₁ log₃ := by
  obtain ⟨⟨new, rfl, hnew⟩, hunique⟩ := h
  obtain ⟨⟨new', rfl, hnew'⟩, hunique'⟩ := h'
  refine ⟨⟨new ++ new', List.append_assoc _ _ _, fun ev hev => ?_⟩,
    fun h => hunique' (hunique h)⟩
  rcases List.mem_append.mp hev with hev | hev
  · exact (hnew ev hev).append new'
  · exact hnew' ev hev

theorem Grew.stored {m : Mint} {log : EventLog} {event stored : Event}
    (hs : Stored m log event stored)
    (hevent : RefreshEvent (log ++ [stored]) stored) :
    Grew log (log ++ [stored]) :=
  ⟨⟨[stored], rfl, fun _ hev => List.mem_singleton.mp hev ▸ hevent⟩,
    fun h => h.stored hs⟩

variable {log log' : EventLog}

theorem Grew.subset (h : Grew log log') : ∀ ev ∈ log, ev ∈ log' := by
  obtain ⟨⟨new, rfl, -⟩, -⟩ := h
  exact fun ev hev => List.mem_append_left new hev

/-- A refresh adds no event of the graph. -/
theorem Grew.grown (h : Grew log log') : Grown log log' := by
  obtain ⟨⟨new, rfl, hnew⟩, -⟩ := h
  refine ⟨new, rfl, fun ev hev => ?_⟩
  rcases hnew ev hev with htype | ⟨htype, -⟩
  · rw [isEdgeEvent, htype]
    decide
  · rw [isEdgeEvent, htype]
    decide

theorem Grew.rebuildEdges (h : Grew log log')
    (parseRfc3339 : String → Option String) :
    rebuildEdges parseRfc3339 log' = rebuildEdges parseRfc3339 log := by
  obtain ⟨new, rfl, hnew⟩ := h.grown
  have hnone : graphEventsOrdered new = [] := by
    refine List.filter_eq_nil_iff.mpr fun ev hev => ?_
    have hedge := hnew ev hev
    simp only [isEdgeEvent, Bool.or_eq_false_iff, beq_eq_false_iff_ne] at hedge
    simp [hedge.1.1, hedge.1.2]
  have hsame : graphEventsOrdered (log ++ new) = graphEventsOrdered log := by
    rw [graphEventsOrdered, List.filter_append]
    exact (congrArg _ hnone).trans (List.append_nil _)
  rw [AirNote.rebuildEdges, hsame, AirNote.rebuildEdges]

/-! ## The facts of a topic -/

theorem gone_iff {id : String} :
    gone log id = true ↔ (∃ ev ∈ log, Supersedes id ev) ∨
      Fold.LastSets (RetiresNote id) (UnretiresNote id) log := by
  simp only [gone, decide_eq_true_eq, mem_superseded_log, mem_retiredNotes_log]

/-- Refreshes retire and restore no note. -/
theorem RefreshEvent.ne_note {ev : Event} (h : RefreshEvent log ev)
    (id : String) : ¬ RetiresNote id ev ∧ ¬ UnretiresNote id ev := by
  rcases h with htype | ⟨htype, -⟩
  · exact ⟨fun hret => absurd (htype.symm.trans hret.1) (by decide),
      fun hun => absurd (htype.symm.trans hun.1) (by decide)⟩
  · exact ⟨fun hret => absurd (htype.symm.trans hret.1) (by decide),
      fun hun => absurd (htype.symm.trans hun.1) (by decide)⟩

/-- An event that was found is found still. -/
theorem eventById_grew (h : Grew log log') {id : String} {ev : Event}
    (hev : eventById log id = some ev) : eventById log' id = some ev := by
  obtain ⟨⟨new, rfl, -⟩, -⟩ := h
  exact eventById_append_of_some hev new

/-- What is gone stays gone, and what goes is a page. -/
theorem gone_grew (h : Grew log log') (id : String) :
    (gone log id = true → gone log' id = true) ∧
      (gone log' id = true → gone log id = true ∨ IsPageId log' id) := by
  obtain ⟨⟨new, rfl, hnew⟩, -⟩ := h
  have hnote : ¬ Fold.LastSets (RetiresNote id) (UnretiresNote id) new :=
    fun hlast => by
      obtain ⟨ev, hev, hret⟩ := Fold.exists_of_lastSets hlast
      exact ((hnew ev hev).ne_note id).1 hret
  rw [gone_iff, gone_iff, Fold.lastSets_append]
  constructor
  · rintro (⟨ev, hev, hsup⟩ | hlast)
    · exact Or.inl ⟨ev, List.mem_append_left new hev, hsup⟩
    · exact Or.inr (Or.inr ⟨hlast, fun ev hev =>
        ((hnew ev hev).ne_note id).2⟩)
  · rintro (⟨ev, hev, hsup⟩ | hlast | ⟨hlast, -⟩)
    · rcases List.mem_append.mp hev with hev | hev
      · exact Or.inl (Or.inl ⟨ev, hev, hsup⟩)
      · rcases hnew ev hev with htype | ⟨-, -, hpage⟩
        · exact absurd (htype.symm.trans hsup.1) (by decide)
        · exact Or.inr (hpage id hsup)
    · exact absurd hlast hnote
    · exact Or.inl (Or.inr hlast)

/-- The identifier of an event that is no page, and is not gone. -/
def LiveFact (log : EventLog) (id : String) : Prop :=
  gone log id = false ∧
    ∃ ev, eventById log id = some ev ∧ ev.eventType ≠ pageEventType

theorem not_isPageId (hunique : UniqueIds log) {id : String} {ev : Event}
    (hev : eventById log id = some ev) (htype : ev.eventType ≠ pageEventType) :
    ¬ IsPageId log id := by
  rintro ⟨page, hpage, rfl, hpageType⟩
  rw [eventById_of_mem hunique hpage] at hev
  cases hev
  exact htype hpageType

theorem LiveFact.grew {id : String} (hlive : LiveFact log id)
    (h : Grew log log') (hunique : UniqueIds log) : LiveFact log' id := by
  obtain ⟨hgone, ev, hev, htype⟩ := hlive
  have hev' := eventById_grew h hev
  refine ⟨?_, ev, hev', htype⟩
  by_contra hgone'
  rw [Bool.not_eq_false] at hgone'
  rcases (gone_grew h id).2 hgone' with hold | hpage
  · rw [hgone] at hold
    cases hold
  · exact not_isPageId (h.unique hunique) hev' htype hpage

/-- What an identifier of a lineage contributes to the facts. -/
def factText (log : EventLog) (id : String) : Option (String × String) :=
  if gone log id then none
  else (eventById log id).bind fun ev =>
    if ev.eventType = pageEventType then none
    else (ev.content.getStr? "text").map fun text => (id, text)

theorem liveFact_of_factText {id : String} {fact : String × String}
    (h : factText log id = some fact) : fact.1 = id ∧ LiveFact log id := by
  unfold factText at h
  split at h
  · cases h
  next hgone =>
    obtain ⟨ev, hev, htext⟩ := Option.bind_eq_some_iff.mp h
    split at htext
    · cases htext
    next htype =>
      obtain ⟨text, -, rfl⟩ := Option.map_eq_some_iff.mp htext
      exact ⟨rfl, Bool.not_eq_true _ ▸ hgone, ev, hev, htype⟩

/-- Pages contribute nothing, so what goes does not matter. -/
theorem factText_grew (h : Grew log log') (hunique : UniqueIds log)
    (id : String) : factText log' id = factText log id := by
  have hunique' := h.unique hunique
  cases hev : eventById log id with
  | some ev =>
      have hev' := eventById_grew h hev
      by_cases htype : ev.eventType = pageEventType
      · simp [factText, hev, hev', htype]
      · have hgone : gone log' id = gone log id := by
          rw [Bool.eq_iff_iff]
          refine ⟨fun hgone => ?_, (gone_grew h id).1⟩
          exact ((gone_grew h id).2 hgone).resolve_right
            (not_isPageId hunique' hev' htype)
        rw [factText, factText, hgone, hev, hev']
  | none =>
      have hnone : factText log id = none := by
        simp [factText, hev]
      rw [hnone]
      obtain ⟨⟨new, rfl, hnew⟩, -⟩ := h
      unfold factText
      split
      · rfl
      rw [Option.bind_eq_none_iff]
      intro ev hev'
      split
      · rfl
      next htype =>
        have hmem : ev ∈ new := by
          rw [eventById, List.find?_append] at hev'
          rw [eventById] at hev
          rw [hev, Option.none_or] at hev'
          exact List.mem_of_find?_eq_some hev'
        rcases hnew ev hmem with hpage | ⟨-, htext, -⟩
        · exact absurd hpage htype
        · rw [htext]
          rfl

/-! ## The tables -/

/-- The page is one of the log. -/
def PageOf (log : EventLog) (p : Page) : Prop :=
  ∃ ev ∈ log, ev.id = p.pageEventId ∧ ev.eventType = pageEventType ∧
    ∃ title text, parsePageContent ev.content = some (p.topicId, title, text)

/-- The tables were written from the log, the pages perhaps from an earlier
state of it. -/
structure Tabled (parseRfc3339 : String → Option String) (s : DossierState) :
    Prop where
  unique : UniqueIds s.log
  edges : s.edges = rebuildEdges parseRfc3339 s.log
  entities : s.entities = foldEntities s.log
  pages : ∀ p ∈ s.pages, PageOf s.log p

theorem mem_edgeIds {parseRfc3339 : String → Option String} {e : Edge}
    (h : e ∈ rebuildEdges parseRfc3339 log) : ∃ ev ∈ log, ev.id = e.edgeId := by
  have hall : ∀ events : List Event, ∀ edges : List Edge,
      (∀ e ∈ edges, ∃ ev ∈ log, ev.id = e.edgeId) →
      (∀ ev ∈ events, ev ∈ log) →
      ∀ e ∈ events.foldl (edgeStep parseRfc3339) edges,
        ∃ ev ∈ log, ev.id = e.edgeId := by
    intro events
    induction events with
    | nil => exact fun edges hedges _ => hedges
    | cons ev events ih =>
        intro edges hedges hevents
        refine ih _ ?_ fun ev' hev' => hevents ev' (List.mem_cons_of_mem _ hev')
        intro e he
        unfold edgeStep at he
        split at he
        · exact hedges e he
        split at he
        · rcases List.mem_append.mp he with he | he
          · exact hedges e he
          · rw [List.mem_singleton.mp he]
            exact ⟨ev, hevents ev List.mem_cons_self, rfl⟩
        split at he
        · obtain ⟨old, hold, rfl⟩ := List.mem_map.mp he
          split
          · exact hedges old hold
          · exact hedges old hold
        · exact hedges e he
  rw [rebuildEdges, foldEdges_eq] at h
  exact hall _ [] (fun _ h => absurd h List.not_mem_nil)
    (fun ev hev => (List.mem_filter.mp hev).1) e h

theorem stripEntityPrefix_entityNodeId (id : String) :
    stripEntityPrefix (entityNodeId id) = id := by
  have htoList : (entityNodeId id).toList = "entity:".toList ++ id.toList := by
    rw [entityNodeId, String.toList_append]
  rw [stripEntityPrefix, if_pos, htoList]
  · exact String.ofList_toList
  · rw [htoList]
    simp

theorem mem_entityIds {entity : GraphEntity} (h : entity ∈ foldEntities log) :
    ∃ ev ∈ log, ev.id = stripEntityPrefix entity.entityId := by
  obtain ⟨ev, hev, hentity⟩ := List.mem_filterMap.mp h
  unfold entityOf at hentity
  split at hentity
  · split at hentity
    · cases hentity
      exact ⟨ev, hev, (stripEntityPrefix_entityNodeId ev.id).symm⟩
    · cases hentity
  · cases hentity

variable {parseRfc3339 : String → Option String} {s s' : DossierState}

/-- The events a topic of the tables is drawn from are in the log. -/
theorem Tabled.mem_carriers (h : Tabled parseRfc3339 s) {entity : GraphEntity}
    (hentity : entity ∈ s.entities) {edges : List Edge}
    (hedges : ∀ e ∈ edges, e ∈ s.edges) {id : String}
    (hid : id ∈ carriers edges entity) : ∃ ev ∈ s.log, ev.id = id := by
  rcases List.mem_cons.mp hid with rfl | hid
  · exact mem_entityIds (h.entities ▸ hentity)
  · obtain ⟨e, he, rfl⟩ := List.mem_map.mp hid
    exact mem_edgeIds (h.edges ▸ hedges e he)

/-- The edges and entities of the tables stay. -/
structure SameGraph (s s' : DossierState) : Prop where
  grew : Grew s.log s'.log
  edges : s'.edges = s.edges
  entities : s'.entities = s.entities

theorem memories_gatherFactSet (s : DossierState) (edgesFail : Bool)
    (entity : GraphEntity) :
    (gatherFactSet s edgesFail entity).memories =
      (sortDedup ((carriers (if edgesFail then []
          else neighbors s.edges entity.entityId) entity).flatMap
        fun id => (sourceIdsOfEvent s.log id).getD [])).filterMap
        (factText s.log) := by
  simp only [gatherFactSet, factTextsForIds, List.filterMap_filter]
  refine List.filterMap_congr fun id _ => ?_
  by_cases hlive : id ∉ (foldSessions (sessionEventsOrdered s.log)).superseded ∧
      id ∉ (foldSessions (sessionEventsOrdered s.log)).retiredNotes
  · have hgone : gone s.log id = false := by
      rw [gone]
      simp only [decide_eq_false_iff_not, not_or]
      exact hlive
    rw [if_pos (by simpa using hlive), factText, hgone]
    rfl
  · have hgone : gone s.log id = true := by
      rw [gone]
      simp only [decide_eq_true_eq]
      tauto
    rw [if_neg (by simpa using hlive), factText, hgone]
    rfl

/-- While pages are added, the facts of a topic stay. -/
theorem gatherFactSet_grew (h : Tabled parseRfc3339 s) (hsame : SameGraph s s')
    {entity : GraphEntity} (hentity : entity ∈ s.entities) (edgesFail : Bool) :
    (gatherFactSet s' edgesFail entity).toFactSet =
      (gatherFactSet s edgesFail entity).toFactSet := by
  have hedges : ∀ e ∈ (if edgesFail then []
      else neighbors s.edges entity.entityId), e ∈ s.edges := by
    intro e he
    cases edgesFail with
    | true => exact nomatch he
    | false => exact (List.mem_filter.mp ((List.mem_insertionSort _).mp he)).1
  have hsources : (carriers (if edgesFail then []
        else neighbors s.edges entity.entityId) entity).flatMap
          (fun id => (sourceIdsOfEvent s'.log id).getD []) =
      (carriers (if edgesFail then []
        else neighbors s.edges entity.entityId) entity).flatMap
          (fun id => (sourceIdsOfEvent s.log id).getD []) := by
    rw [List.flatMap_def, List.flatMap_def]
    refine congrArg List.flatten (List.map_congr_left fun id hid => ?_)
    obtain ⟨ev, hev, rfl⟩ := h.mem_carriers hentity hedges hid
    have hfound := eventById_of_mem h.unique hev
    rw [sourceIdsOfEvent, sourceIdsOfEvent, hfound,
      eventById_grew hsame.grew hfound]
  have hmemories : (gatherFactSet s' edgesFail entity).memories =
      (gatherFactSet s edgesFail entity).memories := by
    rw [memories_gatherFactSet, memories_gatherFactSet, hsame.edges, hsources]
    exact List.filterMap_congr fun id _ =>
      factText_grew hsame.grew h.unique id
  have hneighbors : (gatherFactSet s' edgesFail entity).edges =
      (gatherFactSet s edgesFail entity).edges := by
    simp only [gatherFactSet, hsame.edges]
  have hext : ∀ a b : AirNote.FactSet, a.label = b.label →
      a.entityType = b.entityType → a.edges = b.edges →
      a.memories = b.memories → a = b := by
    rintro ⟨_, _, _, _⟩ ⟨_, _, _, _⟩ rfl rfl rfl rfl
    rfl
  exact hext _ _ rfl rfl hneighbors hmemories

/-! ## The pages of a log -/

/-- The row of a topic in the pages of a log. -/
def pageAt (log : EventLog) (topicId : String) : Option Page :=
  (foldPages (pageAndSupersedeEventsOrdered log)).find?
    fun p => p.topicId == topicId

/-- The current page of a topic by the log, with its cites. -/
def logPage (log : EventLog) (topicId : String) :
    Option (String × List String) :=
  (pageAt log topicId).map fun p =>
    (p.pageEventId, sortDedup
      (((eventById log p.pageEventId).map fun ev => citesOf ev.content).getD
        []))

/-- An event that is the page of a topic, and not superseded. -/
theorem rowAt_pageRow {superseded : List String} {topicId : String}
    {ev : Event} {p : Page} :
    Fold.rowAt (pageRow superseded) topicId ev = some p ↔
      ev.eventType = pageEventType ∧ ev.id ∉ superseded ∧
        ∃ title text, parsePageContent ev.content =
          some (topicId, title, text) ∧ p = ⟨topicId, ev.id, title, text⟩ := by
  rw [Fold.rowAt_eq_some, pageRow, countedRow]
  split
  next hskip =>
    constructor
    · intro h
      cases h
    · rintro ⟨htype, hnot, -⟩
      exact absurd hskip (not_or.mpr ⟨not_not.mpr htype, hnot⟩)
  next hskip =>
    obtain ⟨htype, hnot⟩ := not_or.mp hskip
    rw [Option.map_eq_some_iff]
    constructor
    · rintro ⟨⟨topic, title, text⟩, hparse, heq⟩
      cases heq
      exact ⟨not_not.mp htype, hnot, title, text, hparse, rfl⟩
    · rintro ⟨-, -, title, text, hparse, rfl⟩
      exact ⟨(topicId, title, text), hparse, rfl⟩

theorem pageAt_eq (log : EventLog) (topicId : String) :
    pageAt log topicId =
      (pageAndSupersedeEventsOrdered log).reverse.findSome?
        (Fold.rowAt (pageRow (supersededTargets
          (pageAndSupersedeEventsOrdered log))) topicId) := by
  rw [← Fold.getElem?_latestMap]
  exact Fold.find?_latest (fun _ _ _ h => pageRow_topicId h) _ topicId

theorem mem_supersededTargets {id : String} :
    id ∈ supersededTargets (pageAndSupersedeEventsOrdered log) ↔
      ∃ ev ∈ log, Supersedes id ev := by
  rw [supersededTargets, List.mem_filterMap]
  constructor
  · rintro ⟨ev, hev, htarget⟩
    split at htarget
    next htype => exact ⟨ev, (mem_eventsOfTypes.1 hev).1, htype, htarget⟩
    · cases htarget
  · rintro ⟨ev, hev, htype, htarget⟩
    refine ⟨ev, mem_eventsOfTypes.2 ⟨hev, ?_⟩, ?_⟩
    · simp [htype]
    · rw [if_pos htype, htarget]

theorem pageOf_pageAt {topicId : String} {p : Page}
    (h : pageAt log topicId = some p) : PageOf log p ∧ p.topicId = topicId := by
  rw [pageAt_eq] at h
  obtain ⟨ev, hev, hrow⟩ := List.exists_of_findSome?_eq_some h
  obtain ⟨htype, -, title, text, hparse, rfl⟩ := rowAt_pageRow.1 hrow
  have hmem := (mem_eventsOfTypes.1 (List.mem_reverse.mp hev)).1
  exact ⟨⟨ev, hmem, rfl, htype, title, text, hparse⟩, rfl⟩

/-- The event is the page of no topic but the one. -/
def OnlyTopic (topicId : String) (ev : Event) : Prop :=
  ∀ u title text, ev.eventType = pageEventType →
    parsePageContent ev.content = some (u, title, text) → u = topicId

/-- Pages of one topic, and what supersedes pages of that topic, leave the
pages of the others. -/
theorem pageAt_append {new : EventLog} {topicId u : String} (hu : u ≠ topicId)
    (hpages : ∀ ev ∈ new, OnlyTopic topicId ev)
    (hsupersedes : ∀ ev ∈ new, ∀ id, Supersedes id ev →
      ∀ old ∈ log, old.id = id → OnlyTopic topicId old) :
    pageAt (log ++ new) u = pageAt log u := by
  have hsplit : pageAndSupersedeEventsOrdered (log ++ new) =
      pageAndSupersedeEventsOrdered log ++
        pageAndSupersedeEventsOrdered new := eventsOfTypes_append _ _ _
  have hnew : (pageAndSupersedeEventsOrdered new).reverse.findSome?
      (Fold.rowAt (pageRow (supersededTargets
        (pageAndSupersedeEventsOrdered (log ++ new)))) u) = none := by
    refine List.findSome?_eq_none_iff.mpr fun ev hev => ?_
    have hmem := (mem_eventsOfTypes.1 (List.mem_reverse.mp hev)).1
    cases hrow : Fold.rowAt (pageRow (supersededTargets
        (pageAndSupersedeEventsOrdered (log ++ new)))) u ev with
    | none => rfl
    | some p =>
        obtain ⟨htype, -, title, text, hparse, -⟩ := rowAt_pageRow.1 hrow
        exact absurd (hpages ev hmem u title text htype hparse) hu
  rw [pageAt_eq, pageAt_eq]
  rw [show (pageAndSupersedeEventsOrdered (log ++ new)).reverse = _ from
    congrArg List.reverse hsplit, List.reverse_append, List.findSome?_append,
    hnew, Option.none_or]
  refine Fold.findSome?_congr fun ev hev => ?_
  have hmem := (mem_eventsOfTypes.1 (List.mem_reverse.mp hev)).1
  refine Option.ext fun p => ?_
  rw [rowAt_pageRow, rowAt_pageRow]
  refine and_congr_right fun htype => and_congr_left fun hparsed => ?_
  obtain ⟨title, text, hparse, -⟩ := hparsed
  rw [mem_supersededTargets, mem_supersededTargets]
  refine not_congr (Iff.intro ?_ ?_)
  · rintro ⟨e, he, hsup⟩
    rcases List.mem_append.mp he with he | he
    · exact ⟨e, he, hsup⟩
    · have honly := hsupersedes e he ev.id hsup ev hmem rfl
      exact absurd (honly u title text htype hparse) hu
  · rintro ⟨e, he, hsup⟩
    exact ⟨e, List.mem_append_left new he, hsup⟩

/-- The current page of a topic by the table, once that is written from the
log. -/
theorem currentPageForTopic_eq
    (hpages : s.pages = foldPages (pageAndSupersedeEventsOrdered s.log))
    (topicId : String) :
    currentPageForTopic s topicId = logPage s.log topicId := by
  rw [currentPageForTopic, hpages]
  rfl

theorem logPage_append (hunique : UniqueIds log) {new : EventLog}
    {topicId u : String} (hu : u ≠ topicId)
    (hpages : ∀ ev ∈ new, OnlyTopic topicId ev)
    (hsupersedes : ∀ ev ∈ new, ∀ id, Supersedes id ev →
      ∀ old ∈ log, old.id = id → OnlyTopic topicId old) :
    logPage (log ++ new) u = logPage log u := by
  rw [logPage, logPage, pageAt_append hu hpages hsupersedes]
  cases hpage : pageAt log u with
  | none => rfl
  | some p =>
      obtain ⟨ev, hev, hid, -⟩ := (pageOf_pageAt hpage).1
      have hfound := eventById_of_mem hunique hev
      rw [hid] at hfound
      rw [Option.map_some, Option.map_some, hfound,
        eventById_append_of_some hfound]

/-! ## A refresh -/

/-- The current page of the topic is new since the log, and cites facts that
are live in the later log. -/
def Renewed (log log' : EventLog) (topicId : String) : Prop :=
  ∃ pageId cites, logPage log' topicId = some (pageId, cites) ∧
    (∀ ev ∈ log, ev.id ≠ pageId) ∧ ∀ id ∈ cites, LiveFact log' id

/-- A topic with facts enough for a dossier: a note among them. -/
def Rebuildable (s : DossierState) (entity : GraphEntity) : Prop :=
  pageMinFacts ≤ (gatherFactSet s false entity).factCount ∧
    (gatherFactSet s false entity).memories ≠ []

instance (s : DossierState) (entity : GraphEntity) :
    Decidable (Rebuildable s entity) :=
  inferInstanceAs (Decidable (_ ∧ _))

/-- What ticks do to the log and the pages: they add pages of topics that can
be rebuilt, and a page is either as it was or new. -/
structure Course (s s' : DossierState) : Prop extends SameGraph s s' where
  pages : ∀ topicId, logPage s'.log topicId = logPage s.log topicId ∨
    Renewed s.log s'.log topicId ∧ ∃ entity ∈ s.entities,
      entity.entityId = topicId ∧ Rebuildable s entity

theorem Course.refl (s : DossierState) : Course s s :=
  ⟨⟨Grew.refl s.log, rfl, rfl⟩, fun _ => Or.inl rfl⟩

theorem SameGraph.tabled (h : SameGraph s s') (ht : Tabled parseRfc3339 s)
    (hpages : s'.pages = s.pages) : Tabled parseRfc3339 s' where
  unique := h.grew.unique ht.unique
  edges := by rw [h.edges, ht.edges, h.grew.rebuildEdges]
  entities := by rw [h.entities, ht.entities, foldEntities_grown h.grew.grown]
  pages := fun p hp => by
    obtain ⟨ev, hev, hrest⟩ := ht.pages p (hpages ▸ hp)
    exact ⟨ev, h.grew.subset ev hev, hrest⟩

theorem rebuildable_iff (ht : Tabled parseRfc3339 s) (h : SameGraph s s')
    {entity : GraphEntity} (hentity : entity ∈ s.entities) :
    Rebuildable s' entity ↔ Rebuildable s entity := by
  have hfacts := gatherFactSet_grew ht h hentity false
  have hedges := congrArg AirNote.FactSet.edges hfacts
  have hmemories := congrArg AirNote.FactSet.memories hfacts
  rw [Rebuildable, Rebuildable, FactSet.factCount, FactSet.factCount, hedges,
    hmemories]

theorem Renewed.grew {log'' : EventLog} {topicId : String}
    (h : Renewed log log' topicId) (hgrew : Grew log' log'')
    (hunique : UniqueIds log')
    (hsame : logPage log'' topicId = logPage log' topicId) :
    Renewed log log'' topicId := by
  obtain ⟨pageId, cites, hpage, hfresh, hlive⟩ := h
  exact ⟨pageId, cites, hsame.trans hpage, hfresh,
    fun id hid => (hlive id hid).grew hgrew hunique⟩

theorem Course.trans {s'' : DossierState} (ht : Tabled parseRfc3339 s)
    (h : Course s s') (h' : Course s' s'') : Course s s'' where
  grew := h.grew.trans h'.grew
  edges := h'.edges.trans h.edges
  entities := h'.entities.trans h.entities
  pages := fun topicId => by
    rcases h'.pages topicId with hsame | ⟨hnew, entity, hentity, hid, hreb⟩
    · refine (h.pages topicId).imp (fun hold => hsame.trans hold) ?_
      rintro ⟨hnew, hentity⟩
      exact ⟨hnew.grew h'.grew (h.grew.unique ht.unique) hsame, hentity⟩
    · right
      obtain ⟨pageId, cites, hpage, hfresh, hlive⟩ := hnew
      rw [h.entities] at hentity
      exact ⟨⟨pageId, cites, hpage,
        fun ev hev => hfresh ev (h.grew.subset ev hev), hlive⟩,
        entity, hentity, hid, (rebuildable_iff ht h.toSameGraph hentity).mp
          hreb⟩

/-- What is emitted has facts enough. -/
theorem refreshTopicPage_facts {env : RefreshEnv} {entity : GraphEntity}
    {superseded : Bool}
    (h : refreshTopicPage env s entity = .ok (log', .emitted superseded)) :
    pageMinFacts ≤ (gatherFactSet s env.edgesFail entity).factCount := by
  unfold refreshTopicPage at h
  simp only at h
  split at h
  · cases h
  split at h
  · cases h
  next hthin => exact Nat.le_of_not_lt hthin

theorem mem_memories {edgesFail : Bool} {entity : GraphEntity}
    {fact : String × String}
    (h : fact ∈ (gatherFactSet s edgesFail entity).memories) :
    fact ∈ (gatherFactSet s false entity).memories ∧ LiveFact s.log fact.1 := by
  rw [memories_gatherFactSet] at h ⊢
  obtain ⟨id, hid, hfact⟩ := List.mem_filterMap.mp h
  obtain ⟨rfl, hlive⟩ := liveFact_of_factText hfact
  refine ⟨List.mem_filterMap.mpr ⟨fact.1, ?_, hfact⟩, hlive⟩
  rw [mem_sortDedup, List.mem_flatMap] at hid ⊢
  obtain ⟨carrier, hcarrier, hsource⟩ := hid
  refine ⟨carrier, ?_, hsource⟩
  cases edgesFail with
  | false => exact hcarrier
  | true =>
      rw [List.mem_singleton.mp hcarrier]
      exact List.mem_cons_self

/-- Facts enough without the edges are facts enough with them. -/
theorem rebuildable_of_facts {edgesFail : Bool} {entity : GraphEntity}
    (hcount : pageMinFacts ≤ (gatherFactSet s edgesFail entity).factCount)
    (hmemories : (gatherFactSet s edgesFail entity).memories ≠ []) :
    Rebuildable s entity := by
  obtain ⟨fact, hfact⟩ := List.exists_mem_of_ne_nil _ hmemories
  refine ⟨?_, List.ne_nil_of_mem (mem_memories hfact).1⟩
  cases edgesFail with
  | false => exact hcount
  | true =>
      have hnodup : (gatherFactSet s true entity).memories.Nodup := by
        rw [memories_gatherFactSet]
        refine (SortedBy.nodup_eraseDups _).filterMap ?_
        intro a b fact ha hb
        rw [← (liveFact_of_factText ha).1, (liveFact_of_factText hb).1]
      have hle := (hnodup.subperm fun fact hfact =>
        (mem_memories hfact).1).length_le
      have hedges : (gatherFactSet s true entity).edges = [] := rfl
      rw [FactSet.factCount, hedges, List.length_nil, Nat.zero_add] at hcount
      rw [FactSet.factCount]
      omega

/-- A topic's row of the table is a page of the log. -/
theorem Tabled.currentPage (ht : Tabled parseRfc3339 s) {topicId : String}
    {prior : String × List String}
    (h : currentPageForTopic s topicId = some prior) :
    ∃ ev ∈ s.log, ev.id = prior.1 ∧ ev.eventType = pageEventType ∧
      OnlyTopic topicId ev := by
  obtain ⟨p, hfind, rfl⟩ := Option.map_eq_some_iff.mp h
  obtain ⟨ev, hev, hid, htype, title, text, hparse⟩ :=
    ht.pages p (List.mem_of_find?_eq_some hfind)
  have htopic : p.topicId = topicId := by simpa using List.find?_some hfind
  refine ⟨ev, hev, hid, htype, fun u title' text' _ hparse' => ?_⟩
  rw [hparse] at hparse'
  cases hparse'
  exact htopic

/-- The supersede event of a refresh has no text, and names the current
page. -/
theorem supersedes_stored {m : Mint} {target producer : String}
    {sources : List String} {stored : Event}
    (hs : Stored m log (supersedeEvent target producer sources) stored) :
    stored.content.getStr? "text" = none ∧
      ∀ id, Supersedes id stored → id = target := by
  rw [hs.content_eq]
  refine ⟨?_, fun id hsup => ?_⟩
  · rw [getStr?_stampedContent (by decide)]
    rfl
  · have hname := hsup.2
    rw [hs.content_eq, getStr?_stampedContent (by decide)] at hname
    have hsome : some target = some id := hname
    exact (Option.some.inj hsome).symm

/-- What a refresh that emits adds to the log: the new page, after the event
that supersedes the current one. -/
theorem emitted_events (ht : Tabled parseRfc3339 s) {env : RefreshEnv}
    {entity : GraphEntity} {superseded : Bool}
    (h : refreshTopicPage env s entity = .ok (log', .emitted superseded)) :
    Grew s.log log' ∧ ∃ new, log' = s.log ++ new ∧
      (∀ ev ∈ new, OnlyTopic entity.entityId ev) ∧
      ∀ ev ∈ new, ∀ id, Supersedes id ev → (∃ ev ∈ s.log, ev.id = id) ∧
        ∀ old ∈ s.log, old.id = id → OnlyTopic entity.entityId old := by
  obtain ⟨draft, rendered, log₁, stored, -, -, hs, rfl, hbefore⟩ :=
    refreshTopicPage_emitted h
  have htype : stored.eventType = pageEventType := hs.eventType_eq
  have honly : OnlyTopic entity.entityId stored := by
    intro u title text _ hparse
    rw [parsePageContent_pageEvent hs] at hparse
    cases hparse
    rfl
  have hnever : ∀ id, ¬ Supersedes id stored := fun id hsup =>
    absurd (htype.symm.trans hsup.1) (by decide)
  have hpage : Grew log₁ (log₁ ++ [stored]) :=
    Grew.stored hs (Or.inl htype)
  rcases hbefore with rfl | ⟨prior, sup, hprior, hsup, rfl⟩
  · refine ⟨hpage, [stored], rfl, fun ev hev => ?_, fun ev hev id hid => ?_⟩
    · rw [List.mem_singleton.mp hev]
      exact honly
    · rw [List.mem_singleton.mp hev] at hid
      exact absurd hid (hnever id)
  · obtain ⟨old, hold, holdId, holdType, holdOnly⟩ := ht.currentPage hprior
    have hsupType : sup.eventType = supersedeEventType := hsup.eventType_eq
    have hevent : RefreshEvent (s.log ++ [sup]) sup := by
      refine Or.inr ⟨hsupType, (supersedes_stored hsup).1, fun id hid => ?_⟩
      rw [(supersedes_stored hsup).2 id hid]
      exact isPageId_append ⟨old, hold, holdId, holdType⟩ [sup]
    refine ⟨(Grew.stored hsup hevent).trans hpage, [sup, stored],
      List.append_assoc _ _ _, fun ev hev => ?_, fun ev hev id hid => ?_⟩
    · rcases List.mem_cons.mp hev with rfl | hev
      · exact fun u title text hpage =>
          absurd (hpage.symm.trans hsupType) (by decide)
      · rw [List.mem_singleton.mp hev]
        exact honly
    · rcases List.mem_cons.mp hev with rfl | hev
      · rw [(supersedes_stored hsup).2 id hid]
        refine ⟨⟨old, hold, holdId⟩, fun other hother heq => ?_⟩
        have hsame := eventById_of_mem ht.unique hother
        have hfound := eventById_of_mem ht.unique hold
        rw [heq, ← holdId, hfound] at hsame
        cases hsame
        exact holdOnly
      · rw [List.mem_singleton.mp hev] at hid
        exact absurd hid (hnever id)

/-- The identifier is new: an event that supersedes it supersedes an event of
the log. -/
def Minted (log : EventLog) (id : String) : Prop :=
  ∀ ev ∈ log, Supersedes id ev → ∃ old ∈ log, old.id = id

instance (id : String) (ev : Event) : Decidable (Supersedes id ev) :=
  inferInstanceAs (Decidable (_ ∧ _))

instance (log : EventLog) (id : String) : Decidable (Minted log id) :=
  inferInstanceAs (Decidable (∀ ev ∈ log, _))

theorem Minted.grew {id : String} (h : Minted log id)
    (hgrew : Grew log log') : Minted log' id := by
  obtain ⟨⟨new, rfl, hnew⟩, -⟩ := hgrew
  intro ev hev hsup
  rcases List.mem_append.mp hev with hev | hev
  · obtain ⟨old, hold, hid⟩ := h ev hev hsup
    exact ⟨old, List.mem_append_left new hold, hid⟩
  · rcases hnew ev hev with htype | ⟨-, -, hpage⟩
    · exact absurd (htype.symm.trans hsup.1) (by decide)
    · obtain ⟨old, hold, hid, -⟩ := hpage id hsup
      exact ⟨old, hold, hid⟩

/-- The page a refresh emits is the current page of its topic, and cites live
facts. -/
theorem emitted_renewed (ht : Tabled parseRfc3339 s) {env : RefreshEnv}
    {entity : GraphEntity} {superseded : Bool}
    (hminted : Minted s.log env.m₂.id)
    (h : refreshTopicPage env s entity = .ok (log', .emitted superseded)) :
    Renewed s.log log' entity.entityId ∧ Rebuildable s entity := by
  obtain ⟨hgrew, new, hnew, -, hsupersedes⟩ := emitted_events ht h
  have hcount := refreshTopicPage_facts h
  obtain ⟨draft, rendered, log₁, stored, hrendered, -, hs, rfl, hbefore⟩ :=
    refreshTopicPage_emitted h
  have hfreshOld : ∀ ev ∈ s.log, ev.id ≠ env.m₂.id := by
    rcases hbefore with rfl | ⟨prior, sup, -, -, rfl⟩
    · exact hs.fresh
    · exact fun ev hev => hs.fresh ev (List.mem_append_left _ hev)
  have hfresh : ∀ ev ∈ log₁ ++ [stored], ¬ Supersedes stored.id ev := by
    intro ev hev hsup
    rw [hs.id_eq] at hsup
    rw [hnew] at hev
    rcases List.mem_append.mp hev with hev | hev
    · obtain ⟨old, hold, holdId⟩ := hminted ev hev hsup
      exact hfreshOld old hold holdId
    · obtain ⟨⟨old, hold, holdId⟩, -⟩ := hsupersedes ev hev _ hsup
      exact hfreshOld old hold holdId
  obtain ⟨hcurrent, hcites⟩ := currentPageForTopic_stored parseRfc3339 s hs
    hrendered hfresh
  have hlog : logPage (log₁ ++ [stored]) entity.entityId =
      some (stored.id, rendered.cites) :=
    (currentPageForTopic_eq rfl entity.entityId).symm.trans hcurrent
  have hcited : ∀ id ∈ rendered.cites, ∃ fact ∈ (gatherFactSet s env.edgesFail
      entity).memories, fact.1 = id := by
    intro id hid
    rw [hcites, mem_sortDedup, List.mem_flatten] at hid
    obtain ⟨cites, hmem, hid⟩ := hid
    have hfacts := (pageClaims_grounded hs hmem).2 id hid
    rw [FactSet.factIds, List.mem_map] at hfacts
    exact hfacts
  refine ⟨⟨stored.id, rendered.cites, hlog, ?_, fun id hid => ?_⟩,
    rebuildable_of_facts hcount ?_⟩
  · rw [hs.id_eq]
    exact hfreshOld
  · obtain ⟨fact, hfact, rfl⟩ := hcited id hid
    exact (mem_memories hfact).2.grew hgrew ht.unique
  · -- a draft that was assembled has a claim, and the floor keeps none
    -- without cites
    unfold assemble at hrendered
    split at hrendered
    · cases hrendered
    next hclaims =>
      have hsome : (citationFloor draft (gatherFactSet s env.edgesFail
          entity)).claims ≠ [] := fun hnil => hclaims (by rw [hnil]; rfl)
      obtain ⟨claim, hclaim⟩ := List.exists_mem_of_ne_nil _ hsome
      obtain ⟨-, hne, hground⟩ := citationFloor_grounded hclaim
      obtain ⟨id, hid⟩ := List.exists_mem_of_ne_nil _ hne
      have hfact := hground id hid
      rw [FactSet.factIds, List.mem_map] at hfact
      obtain ⟨fact, hfact, -⟩ := hfact
      exact List.ne_nil_of_mem hfact

/-- A refresh leaves the pages of the other topics. -/
theorem refresh_others (ht : Tabled parseRfc3339 s) {env : RefreshEnv}
    {entity : GraphEntity} {outcome : TopicRefreshOutcome}
    (h : refreshTopicPage env s entity = .ok (log', outcome))
    {topicId : String} (htopic : topicId ≠ entity.entityId) :
    logPage log' topicId = logPage s.log topicId := by
  by_cases hemit : ∃ superseded, outcome = .emitted superseded
  · obtain ⟨superseded, rfl⟩ := hemit
    obtain ⟨-, new, rfl, hpages, hsupersedes⟩ := emitted_events ht h
    exact logPage_append ht.unique htopic hpages
      fun ev hev id hid => (hsupersedes ev hev id hid).2
  · rw [refreshTopicPage_quiet h
      fun superseded hout => hemit ⟨superseded, hout⟩]

/-- What a refresh does to the pages. -/
theorem refresh_course (ht : Tabled parseRfc3339 s) {env : RefreshEnv}
    {entity : GraphEntity} (hentity : entity ∈ s.entities)
    (hminted : Minted s.log env.m₂.id)
    {outcome : TopicRefreshOutcome}
    (h : refreshTopicPage env s entity = .ok (log', outcome)) :
    Course s { s with log := log' } := by
  by_cases hemit : ∃ superseded, outcome = .emitted superseded
  · obtain ⟨superseded, rfl⟩ := hemit
    obtain ⟨hnew, hreb⟩ := emitted_renewed ht hminted h
    refine ⟨⟨(emitted_events ht h).1, rfl, rfl⟩, fun topicId => ?_⟩
    by_cases htopic : topicId = entity.entityId
    · rw [htopic]
      exact Or.inr ⟨hnew, entity, hentity, rfl, hreb⟩
    · exact Or.inl (refresh_others ht h htopic)
  · have hquiet := refreshTopicPage_quiet h
      fun superseded hout => hemit ⟨superseded, hout⟩
    rw [hquiet]
    exact Course.refl s

/-! ## What a tick reaches -/

/-- Ticks lead from the one state to the other. -/
structure Reached (parseRfc3339 : String → Option String)
    (s₀ s : DossierState) : Prop where
  course : Course s₀ s
  tabled : Tabled parseRfc3339 s

/-- The table of pages is that of the log. -/
def FreshPages (s : DossierState) : Prop :=
  s.pages = foldPages (pageAndSupersedeEventsOrdered s.log)

theorem mem_foldPages {p : Page}
    (h : p ∈ foldPages (pageAndSupersedeEventsOrdered log)) :
    pageAt log p.topicId = some p := by
  obtain ⟨k, hget, ev, -, hrow⟩ := Fold.exists_of_mem_latest h
  have hk : p.topicId = k := pageRow_topicId hrow
  rw [← hk] at hget
  exact (Fold.find?_latest (fun _ _ _ h => pageRow_topicId h) _ p.topicId).trans
    hget

theorem tabled_rebuild (hunique : UniqueIds s.log) :
    Tabled parseRfc3339 (s.rebuild parseRfc3339) :=
  ⟨hunique, rfl, rfl, fun _ hp => (pageOf_pageAt (mem_foldPages hp)).1⟩

variable {s₀ : DossierState}

theorem Reached.refl (ht : Tabled parseRfc3339 s) : Reached parseRfc3339 s s :=
  ⟨Course.refl s, ht⟩

theorem Reached.rebuild (h : Reached parseRfc3339 s₀ s) :
    Reached parseRfc3339 s₀ (s.rebuild parseRfc3339) := by
  refine ⟨⟨⟨h.course.grew, ?_, ?_⟩, h.course.pages⟩,
    tabled_rebuild h.tabled.unique⟩
  · exact h.tabled.edges.symm.trans h.course.edges
  · exact h.tabled.entities.symm.trans h.course.entities

/-- A refresh of a topic of the tables reaches a state with the same table of
pages. -/
theorem Reached.refresh (ht₀ : Tabled parseRfc3339 s₀)
    (h : Reached parseRfc3339 s₀ s) {env : RefreshEnv} {entity : GraphEntity}
    (hentity : entity ∈ s₀.entities) (hminted : Minted s₀.log env.m₂.id)
    {outcome : TopicRefreshOutcome}
    (hok : refreshTopicPage env s entity = .ok (log', outcome)) :
    Course s { s with log := log' } ∧
      Reached parseRfc3339 s₀ { s with log := log' } := by
  have hstep := refresh_course h.tabled (h.course.entities ▸ hentity)
    (hminted.grew h.course.grew) hok
  exact ⟨hstep, h.course.trans ht₀ hstep,
    hstep.toSameGraph.tabled h.tabled rfl⟩

/-- Step 3 of an attempt. -/
theorem refreshTopics_reached (ht₀ : Tabled parseRfc3339 s₀)
    {env : Nat → RefreshEnv} (hminted : ∀ i, Minted s₀.log (env i).m₂.id)
    {topics : List String} {i : Nat} {t t' : Tally}
    (h : Reached parseRfc3339 s₀ s)
    (hok : refreshTopics env s₀.entities topics i s t = (s', .ok t')) :
    Reached parseRfc3339 s₀ s' ∧ s'.pages = s.pages ∧
      t.emitted ≤ t'.emitted ∧
      (t'.emitted = t.emitted → s'.log = s.log) := by
  induction topics generalizing i s t with
  | nil =>
      cases hok
      exact ⟨h, rfl, le_rfl, fun _ => rfl⟩
  | cons tid topics ih =>
      unfold refreshTopics at hok
      split at hok
      · exact ih h hok
      next entity hfind =>
        split at hok
        · cases hok
        next log outcome hrefresh =>
          have hentity := List.mem_of_find?_eq_some hfind
          obtain ⟨hreached, hpages, hle, hsame⟩ :=
            ih (h.refresh ht₀ hentity (hminted i) hrefresh).2 hok
          have hadd := Tally.add_emitted t outcome
          refine ⟨hreached, hpages, by omega, fun heq => ?_⟩
          have hquiet : ∀ superseded, outcome ≠ .emitted superseded := by
            rintro superseded rfl
            have hone : pagesOf (.emitted superseded) = 1 := rfl
            omega
          have hlog := refreshTopicPage_quiet hrefresh hquiet
          rw [hsame (by omega)]
          exact hlog

theorem settleMiss_dossier (env : AttemptEnv) (key : String)
    (state : MissState) (now : Int) (attempt : MissAttempt)
    (s : ReflectState) :
    (settleMiss env key state now attempt s).1.dossier = s.dossier := by
  unfold settleMiss
  split <;> rfl

theorem replayMiss_dossier (env : AttemptEnv) (key : String) (now : Int)
    (t : Tally) (s : ReflectState) :
    (replayMiss env key now t s).1.dossier = s.dossier := by
  unfold replayMiss
  split
  · rfl
  · exact settleMiss_dossier _ _ _ _ _ _
  · rfl
  · rfl
  · simp only
    split
    · exact settleMiss_dossier _ _ _ _ _ _
    split
    · rfl
    split <;> rfl

/-- An attempt that returns leaves fresh tables. -/
theorem attemptMiss_reached (ht₀ : Tabled parseRfc3339 s₀) {env : AttemptEnv}
    (hminted : ∀ i, Minted s₀.log (env.refresh i).m₂.id) {key : String}
    {now : Int} {r r' : ReflectState} {a : MissAttempt}
    (h : Reached parseRfc3339 s₀ r.dossier) (hfresh : FreshPages r.dossier)
    (hok : attemptMiss parseRfc3339 env key now r = (r', .ok a)) :
    Reached parseRfc3339 s₀ r'.dossier ∧ FreshPages r'.dossier := by
  have hkeep : ∀ {d : DossierState}, r'.dossier = d →
      Reached parseRfc3339 s₀ d → FreshPages d →
      Reached parseRfc3339 s₀ r'.dossier ∧ FreshPages r'.dossier := by
    rintro d rfl hd hp
    exact ⟨hd, hp⟩
  unfold attemptMiss at hok
  split at hok
  · cases hok
  · refine hkeep ?_ h hfresh
    rw [← settleMiss_dossier env key .repairedByTime now ⟨.repairedByTime, 0⟩ r,
      hok]
  · cases hok
  · refine hkeep ?_ h hfresh
    rw [← settleMiss_dossier env key .noMaterial now ⟨.noMaterial, 0⟩ r, hok]
  · cases hok
  · split at hok
    · cases hok
    next dossier t hrefresh =>
      rw [h.course.entities] at hrefresh
      obtain ⟨hreached, hpages, -, hsame⟩ :=
        refreshTopics_reached ht₀ hminted h hrefresh
      split at hok
      · cases hok
      next indexed hindex =>
        have hdossier := replayMiss_dossier env key now t
          { r with dossier := indexed }
        rw [hok] at hdossier
        refine hkeep hdossier ?_ ?_
        · unfold indexEmitted at hindex
          split at hindex
          · cases hindex
            exact hreached
          split at hindex <;> cases hindex
          exact hreached.rebuild
        · unfold indexEmitted at hindex
          split at hindex
          next hzero =>
            cases hindex
            rw [FreshPages, hpages, hsame hzero]
            exact hfresh
          · split at hindex <;> cases hindex
            rfl

/-- The loop over the open misses. -/
theorem attemptMisses_reached (ht₀ : Tabled parseRfc3339 s₀)
    {env : Nat → AttemptEnv}
    (hminted : ∀ i j, Minted s₀.log ((env i).refresh j).m₂.id) {now : Int}
    {misses : List MissRow} {i : Nat} {r r' : ReflectState}
    {report report' : ReflectReport} {emits emits' : Nat}
    (h : Reached parseRfc3339 s₀ r.dossier) (hfresh : FreshPages r.dossier)
    (hok : attemptMisses parseRfc3339 env now misses i r report emits =
      (r', .ok (report', emits'))) :
    Reached parseRfc3339 s₀ r'.dossier ∧ FreshPages r'.dossier := by
  induction misses generalizing i r report emits with
  | nil =>
      cases hok
      exact ⟨h, hfresh⟩
  | cons m misses ih =>
      unfold attemptMisses at hok
      split at hok
      · cases hok
      next r₁ a hone =>
        unfold attemptOne at hone
        split at hone
        · cases hone
        next r₂ a₂ hmiss =>
          cases hone
          obtain ⟨hreached, hpages⟩ :=
            attemptMiss_reached ht₀ (hminted i) h hfresh hmiss
          refine ih ?_ ?_ hok
          · exact hreached
          · exact hpages

/-! ## The pass over the stale pages -/

/-- The entity of a topic whose page, by the log, cites what is gone. -/
def staleTopic (s : DossierState) (topicId : String) : Option GraphEntity :=
  (logPage s.log topicId).bind fun (_, cites) =>
    if cites.any (gone s.log) then
      s.entities.find? fun e => e.entityId == topicId
    else none

theorem staleTopic_eq_some {topicId : String} {entity : GraphEntity}
    (h : staleTopic s topicId = some entity) :
    (∃ pageId cites, logPage s.log topicId = some (pageId, cites) ∧
      ∃ id ∈ cites, gone s.log id = true) ∧ entity ∈ s.entities ∧
      entity.entityId = topicId := by
  obtain ⟨⟨pageId, cites⟩, hpage, hfind⟩ := Option.bind_eq_some_iff.mp h
  simp only at hfind
  split at hfind
  next hany =>
    refine ⟨⟨pageId, cites, hpage, List.any_eq_true.mp hany⟩,
      List.mem_of_find?_eq_some hfind, ?_⟩
    simpa using List.find?_some hfind
  · cases hfind

/-- In a pass the current page of a topic stays the one of its beginning. -/
theorem currentPage_pass (ht : Tabled parseRfc3339 s) (hfresh : FreshPages s)
    (hgrew : Grew s.log s'.log) (hpages : s'.pages = s.pages)
    (topicId : String) :
    currentPageForTopic s' topicId = logPage s.log topicId := by
  rw [← currentPageForTopic_eq hfresh, currentPageForTopic,
    currentPageForTopic, hpages]
  cases hfind : s.pages.find? fun q => q.topicId == topicId with
  | none => rfl
  | some q =>
      obtain ⟨ev, hev, hid, -⟩ := ht.pages q (List.mem_of_find?_eq_some hfind)
      have hfound := eventById_of_mem ht.unique hev
      rw [hid] at hfound
      rw [Option.map_some, Option.map_some, hfound, eventById_grew hgrew hfound]

/-- While a pass adds to the log, the pages it goes over stay stale or not. -/
theorem staleEntity_eq (ht : Tabled parseRfc3339 s) (hfresh : FreshPages s)
    (hgrew : Grew s.log s'.log) (hpages : s'.pages = s.pages) (p : Page) :
    staleEntity (gone s.log) s.entities s' p = staleTopic s p.topicId := by
  rw [staleEntity, staleTopic,
    currentPage_pass ht hfresh hgrew hpages p.topicId]

/-- The topics of the table of pages, in order. -/
def pageTopics (s : DossierState) : List String :=
  (currentPages s).map Page.topicId

/-- The topics a pass would attempt, in order. -/
def staleQueue (s : DossierState) : List String :=
  (pageTopics s).filter fun topicId => (staleTopic s topicId).isSome

theorem sorted_pageTopics (hfresh : FreshPages s) :
    (pageTopics s).Pairwise (· < ·) := by
  have hle : (pageTopics s).Pairwise (· ≤ ·) := by
    rw [pageTopics, List.pairwise_map]
    have htotal : Std.Total fun a b : Page => a.topicId ≤ b.topicId :=
      ⟨fun a b => le_total a.topicId b.topicId⟩
    have htrans : IsTrans Page fun a b => a.topicId ≤ b.topicId :=
      ⟨fun _ _ _ => le_trans⟩
    exact List.pairwise_insertionSort _ s.pages
  have hnodup : (pageTopics s).Nodup := by
    rw [pageTopics, currentPages,
      ((List.perm_insertionSort _ s.pages).map Page.topicId).nodup_iff,
      hfresh]
    exact nodup_foldPages_topicId _
  exact (hle.and hnodup).imp fun h => lt_of_le_of_ne h.1 h.2

theorem mem_pageTopics (hfresh : FreshPages s) {topicId : String} :
    topicId ∈ pageTopics s ↔ (logPage s.log topicId).isSome := by
  rw [pageTopics, List.mem_map, logPage, Option.isSome_map]
  constructor
  · rintro ⟨p, hp, rfl⟩
    rw [currentPages, List.mem_insertionSort, hfresh] at hp
    rw [mem_foldPages hp]
    rfl
  · intro h
    obtain ⟨p, hp⟩ := Option.isSome_iff_exists.mp h
    refine ⟨p, ?_, (pageOf_pageAt hp).2⟩
    rw [currentPages, List.mem_insertionSort, hfresh]
    exact List.mem_of_find?_eq_some hp

theorem mem_staleQueue (hfresh : FreshPages s) {topicId : String} :
    topicId ∈ staleQueue s ↔ (staleTopic s topicId).isSome := by
  rw [staleQueue, List.mem_filter, mem_pageTopics hfresh]
  refine and_iff_right_of_imp fun h => ?_
  obtain ⟨entity, hentity⟩ := Option.isSome_iff_exists.mp h
  obtain ⟨⟨pageId, cites, hpage, -⟩, -⟩ := staleTopic_eq_some hentity
  rw [hpage]
  rfl

/-- One attempt of a pass: the refresh of a topic, before the end of the
pass. -/
structure Attempt (parseRfc3339 : String → Option String) (env : StaleEnv)
    (s₀ s s' : DossierState) (entity : GraphEntity) where
  position : Nat
  before : DossierState
  log : EventLog
  outcome : TopicRefreshOutcome
  refreshed : refreshTopicPage (env.refresh position) before entity =
    .ok (log, outcome)
  reached : Reached parseRfc3339 s₀ before
  pages : before.pages = s.pages
  grew : Grew s.log before.log
  after : Course { before with log := log } s'

theorem StaleRefreshReport.add_total (r : StaleRefreshReport)
    (outcome : TopicRefreshOutcome) : (r.add outcome).total = r.total + 1 := by
  cases outcome <;> simp only [add, total] <;> omega

theorem StaleRefreshReport.add_transient (r : StaleRefreshReport)
    (outcome : TopicRefreshOutcome) :
    r.transientErrors ≤ (r.add outcome).transientErrors ∧
      (outcome = .transientError →
        r.transientErrors < (r.add outcome).transientErrors) := by
  cases outcome <;> simp [add]

/-- A pass attempts the first topics of the queue, up to the cap, and leaves
the pages of the others. -/
theorem refreshPages_attempts (ht₀ : Tabled parseRfc3339 s₀)
    {env : StaleEnv} (hminted : ∀ i, Minted s₀.log (env.refresh i).m₂.id)
    (hs : Reached parseRfc3339 s₀ s) (hfresh : FreshPages s) {cap : Nat}
    {pages : List Page} {i : Nat} {cur : DossierState}
    {r r' : StaleRefreshReport} (hcur : Reached parseRfc3339 s₀ cur)
    (hgrew : Grew s.log cur.log) (hpages : cur.pages = s.pages)
    (hok : refreshPages env (gone s.log) s.entities cap pages i cur r =
      (s', .ok r')) :
    let queue := (pages.map Page.topicId).filter
      fun topicId => (staleTopic s topicId).isSome
    Course cur s' ∧ Reached parseRfc3339 s₀ s' ∧ s'.pages = s.pages ∧
      r.transientErrors ≤ r'.transientErrors ∧
      (∀ topicId ∈ queue.take (cap - r.total), ∃ entity,
        staleTopic s topicId = some entity ∧
        ∃ attempt : Attempt parseRfc3339 env s₀ s s' entity,
          attempt.outcome = .transientError →
            r.transientErrors < r'.transientErrors) ∧
      ∀ topicId, topicId ∉ queue.take (cap - r.total) →
        logPage s'.log topicId = logPage cur.log topicId := by
  induction pages generalizing i cur r with
  | nil =>
      cases hok
      refine ⟨Course.refl _, hcur, hpages, le_rfl, fun _ h => ?_,
        fun _ _ => rfl⟩
      simp at h
  | cons page pages ih =>
      intro queue
      unfold refreshPages at hok
      split at hok
      next hfull =>
        cases hok
        rw [Nat.sub_eq_zero_of_le hfull]
        exact ⟨Course.refl _, hcur, hpages, le_rfl,
          fun _ h => absurd h List.not_mem_nil, fun _ _ => rfl⟩
      next hroom =>
        split at hok
        · cases hok
        rw [staleEntity_eq hs.tabled hfresh hgrew hpages] at hok
        split at hok
        next hnone =>
          have hqueue : queue = (pages.map Page.topicId).filter
              fun topicId => (staleTopic s topicId).isSome := by
            simp only [queue, List.map_cons, List.filter_cons, hnone]
            rfl
          rw [hqueue]
          exact ih hcur hgrew hpages hok
        next entity hentity =>
          split at hok
          · cases hok
          next log outcome hrefresh =>
            have hqueue : queue = page.topicId :: (pages.map
                Page.topicId).filter fun topicId =>
                  (staleTopic s topicId).isSome := by
              simp only [queue, List.map_cons, List.filter_cons, hentity]
              rfl
            obtain ⟨-, hmem, hid⟩ := staleTopic_eq_some hentity
            rw [hs.course.entities] at hmem
            obtain ⟨hstep, hreached⟩ :=
              hcur.refresh ht₀ hmem (hminted i) hrefresh
            obtain ⟨hcourse, hlast, hsame, hle, hattempts, hothers⟩ :=
              ih hreached (hgrew.trans hstep.grew) hpages hok
            obtain ⟨hadd, hadd'⟩ := r.add_transient outcome
            have hcap : cap - r.total = cap - (r.add outcome).total + 1 := by
              rw [StaleRefreshReport.add_total]
              omega
            rw [hqueue, hcap, List.take_succ_cons]
            refine ⟨hstep.trans hcur.tabled hcourse, hlast, hsame,
              hadd.trans hle, fun topicId htopic => ?_,
              fun topicId htopic => ?_⟩
            · rcases List.mem_cons.mp htopic with rfl | htopic
              · exact ⟨entity, hentity, ⟨i, cur, log, outcome, hrefresh, hcur,
                  hpages, hgrew, hcourse⟩, fun htrans =>
                    (hadd' htrans).trans_le hle⟩
              · obtain ⟨e, he, attempt, hlt⟩ := hattempts topicId htopic
                exact ⟨e, he, attempt, fun htrans =>
                  hadd.trans_lt (hlt htrans)⟩
            · rw [List.mem_cons, not_or] at htopic
              rw [hothers topicId htopic.2]
              exact refresh_others hcur.tabled hrefresh (hid ▸ htopic.1)

/-! ## A stale page that is attempted -/

/-- The reasoner answers for every topic that can be rebuilt, with a draft of
which the citation floor keeps something; and the edges can be read. -/
def Works (s : DossierState) (env : RefreshEnv) : Prop :=
  env.edgesFail = false ∧ ∀ entity ∈ s.entities, Rebuildable s entity →
    ∃ draft, (env.reply (buildComposePrompt
        (gatherFactSet s false entity).toFactSet)).bind parseDraft =
          .ok draft ∧
      (citationFloor draft (gatherFactSet s false entity)).claims ≠ []

theorem Works.course (ht : Tabled parseRfc3339 s) (hc : Course s s')
    {env : RefreshEnv} (h : Works s env) : Works s' env := by
  refine ⟨h.1, fun entity hentity hreb => ?_⟩
  rw [hc.entities] at hentity
  have hfacts := gatherFactSet_grew ht hc.toSameGraph hentity false
  have hmemories := congrArg AirNote.FactSet.memories hfacts
  obtain ⟨draft, hdraft, hclaims⟩ :=
    h.2 entity hentity ((rebuildable_iff ht hc.toSameGraph hentity).mp hreb)
  refine ⟨draft, hfacts ▸ hdraft, ?_⟩
  have hfloor : citationFloor draft (gatherFactSet s' false entity) =
      citationFloor draft (gatherFactSet s false entity) := by
    rw [citationFloor, citationFloor, FactSet.factIds, FactSet.factIds,
      hmemories]
  rw [hfloor]
  exact hclaims

/-- A page of gathered facts cites live facts. -/
theorem cites_live {edgesFail : Bool} {entity : GraphEntity}
    {draft : DraftPage} {rendered : RenderedPage}
    (h : assemble (citationFloor draft (gatherFactSet s edgesFail entity)) =
      some rendered) {id : String} (hid : id ∈ rendered.cites) :
    LiveFact s.log id := by
  rw [(assemble_eq_some h).2, mem_sortDedup, List.mem_flatMap] at hid
  obtain ⟨claim, hclaim, hid⟩ := hid
  have hfact :=
    (citationFloor_grounded (List.mem_of_mem_take hclaim)).2.2 id hid
  rw [FactSet.factIds, List.mem_map] at hfact
  obtain ⟨fact, hfact, rfl⟩ := hfact
  exact (mem_memories hfact).2

/-- With a working reasoner and no error, the attempt of a stale page whose
topic can be rebuilt emits. -/
theorem attempt_emits (ht₀ : Tabled parseRfc3339 s₀) {env : StaleEnv}
    (hs : Reached parseRfc3339 s₀ s) (hfresh : FreshPages s)
    {topicId : String} {entity : GraphEntity}
    (hstale : staleTopic s topicId = some entity)
    (hreb : Rebuildable s₀ entity)
    (attempt : Attempt parseRfc3339 env s₀ s s' entity)
    (hworks : Works s₀ (env.refresh attempt.position))
    (hsound : attempt.outcome ≠ .transientError) :
    ∃ superseded, attempt.outcome = .emitted superseded := by
  have hrefresh := attempt.refreshed
  have hreached := attempt.reached
  have hgrew := attempt.grew
  obtain ⟨outcome, hout⟩ : ∃ outcome, attempt.outcome = outcome := ⟨_, rfl⟩
  obtain ⟨before, hbefore⟩ : ∃ before, attempt.before = before := ⟨_, rfl⟩
  obtain ⟨log, hlog⟩ : ∃ log, attempt.log = log := ⟨_, rfl⟩
  have hpages := attempt.pages
  rw [hbefore] at hreached hgrew hpages
  rw [hout] at hsound ⊢
  rw [hout, hbefore, hlog] at hrefresh
  obtain ⟨⟨pageId, cites, hpage, gid, hgid, hgone⟩, hmem, hid⟩ :=
    staleTopic_eq_some hstale
  rw [hs.course.entities] at hmem
  have hreb' := (rebuildable_iff ht₀ hreached.course.toSameGraph hmem).mpr hreb
  obtain ⟨hedges, hreply⟩ := hworks.course ht₀ hreached.course
  rw [← hreached.course.entities] at hmem
  obtain ⟨draft, hdraft, hclaims⟩ := hreply entity hmem hreb'
  unfold refreshTopicPage at hrefresh
  simp only [hedges] at hrefresh
  split at hrefresh
  · cases hrefresh
    exact absurd rfl hsound
  rw [if_neg (Nat.not_lt.mpr hreb'.1), hdraft] at hrefresh
  simp only at hrefresh
  split at hrefresh
  next hnone =>
    unfold assemble at hnone
    split at hnone
    next hempty => exact absurd (List.isEmpty_iff.mp hempty) hclaims
    · cases hnone
  · cases hrefresh
  next rendered hrendered _ =>
    split at hrefresh
    next hsame =>
      rw [hid, currentPage_pass hs.tabled hfresh hgrew hpages, hpage,
        Option.map_some, Option.some.injEq] at hsame
      simp only at hsame
      have hlive := cites_live hrendered (hsame ▸ hgid)
      have hstill := (gone_grew hgrew gid).1 hgone
      rw [hlive.1] at hstill
      cases hstill
    · split at hrefresh
      · cases hrefresh
        exact absurd rfl hsound
      · cases hrefresh
        exact ⟨_, rfl⟩

/-- What is renewed stays renewed. -/
theorem Renewed.course (h : Renewed log s.log topicId) (hgrew : Grew log s.log)
    (hunique : UniqueIds s.log) (hc : Course s s') :
    Renewed log s'.log topicId := by
  rcases hc.pages topicId with hsame | ⟨hnew, -⟩
  · exact h.grew hc.grew hunique hsame
  · obtain ⟨pageId, cites, hpage, hfresh, hlive⟩ := hnew
    exact ⟨pageId, cites, hpage, fun ev hev =>
      hfresh ev (hgrew.subset ev hev), hlive⟩

/-- After a pass in which it was attempted, such a page is renewed. -/
theorem attempt_renews (ht₀ : Tabled parseRfc3339 s₀) {env : StaleEnv}
    (hminted : ∀ i, Minted s₀.log (env.refresh i).m₂.id)
    (hs : Reached parseRfc3339 s₀ s) (hfresh : FreshPages s)
    {topicId : String} {entity : GraphEntity}
    (hstale : staleTopic s topicId = some entity)
    (hreb : Rebuildable s₀ entity)
    (attempt : Attempt parseRfc3339 env s₀ s s' entity)
    (hworks : Works s₀ (env.refresh attempt.position))
    (hsound : attempt.outcome ≠ .transientError) :
    Renewed s₀.log s'.log topicId := by
  obtain ⟨superseded, hemitted⟩ :=
    attempt_emits ht₀ hs hfresh hstale hreb attempt hworks hsound
  obtain ⟨-, hmem, hid⟩ := staleTopic_eq_some hstale
  rw [hs.course.entities] at hmem
  have hrefresh := attempt.refreshed
  rw [hemitted] at hrefresh
  have hreached := (attempt.reached.refresh ht₀ hmem
    (hminted attempt.position) attempt.refreshed).2
  obtain ⟨⟨pageId, cites, hpage, hnew, hlive⟩, -⟩ := emitted_renewed
    attempt.reached.tabled ((hminted attempt.position).grew
      attempt.reached.course.grew) hrefresh
  rw [hid] at hpage
  have hrenewed : Renewed s₀.log attempt.log topicId :=
    ⟨pageId, cites, hpage, fun ev hev =>
      hnew ev (attempt.reached.course.grew.subset ev hev), hlive⟩
  exact Renewed.course (s := { attempt.before with log := attempt.log })
    hrenewed hreached.course.grew hreached.tabled.unique attempt.after

/-! ## A tick of the daemon -/

/-- What a tick of the daemon finds: also whether the entity index can be
rebuilt before it, and the indexes and tables after it. -/
structure DaemonEnv extends TickEnv where
  entityIndexFails : Option BossclawError
  rebuildFails : Option BossclawError

/-- The engine's `reflect_once`: the tick, and the tables rebuilt. -/
def daemonTick (parseRfc3339 : String → Option String)
    (keyOf : String → String) (env : DaemonEnv) (s : ReflectState) :
    ReflectState × Except BossclawError ReflectReport :=
  match env.entityIndexFails with
  | some e => (s, .error e)
  | none =>
      match reflectOnce parseRfc3339 keyOf env.toTickEnv s with
      | (s, .error e) => (s, .error e)
      | (s, .ok r) =>
          match env.rebuildFails with
          | some e => (s, .error e)
          | none => ({ s with dossier := s.dossier.rebuild parseRfc3339 },
              .ok r)

/-- No miss is open. -/
def NoneOpen (backlog : List MissRow) : Prop :=
  ∀ row ∈ backlog, row.state ≠ .opened

/-- A pass that finds nothing gone has nothing to attempt. -/
theorem staleQueue_of_none
    (hsup : (foldSessions (sessionEventsOrdered s.log)).superseded = ∅)
    (hret : (foldSessions (sessionEventsOrdered s.log)).retiredNotes = ∅) :
    staleQueue s = [] := by
  have hgone : ∀ id, gone s.log id = false := by
    intro id
    simp [gone, hsup, hret]
  refine List.filter_eq_nil_iff.mpr fun topicId _ hsome => ?_
  obtain ⟨entity, hentity⟩ := Option.isSome_iff_exists.mp hsome
  obtain ⟨⟨pageId, cites, -, id, -, hid⟩, -⟩ := staleTopic_eq_some hentity
  rw [hgone id] at hid
  cases hid

/-- What a pass over the stale pages comes to. -/
structure PassSpec (parseRfc3339 : String → Option String) (env : StaleEnv)
    (s₀ mid last : DossierState) : Prop where
  course : Course mid last
  reached : Reached parseRfc3339 s₀ last
  attempts : ∀ topicId ∈ (staleQueue mid).take reflectRefreshPerTick,
    ∃ entity, staleTopic mid topicId = some entity ∧
      ∃ attempt : Attempt parseRfc3339 env s₀ mid last entity,
        attempt.outcome ≠ .transientError
  others : ∀ topicId ∉ (staleQueue mid).take reflectRefreshPerTick,
    logPage last.log topicId = logPage mid.log topicId

theorem refreshStalePages_spec (ht₀ : Tabled parseRfc3339 s₀)
    {env : StaleEnv} (hminted : ∀ i, Minted s₀.log (env.refresh i).m₂.id)
    (hs : Reached parseRfc3339 s₀ s) (hfresh : FreshPages s)
    {r : StaleRefreshReport}
    (hok : refreshStalePages env reflectRefreshPerTick s = (s', .ok r))
    (hsound : r.transientErrors = 0) :
    PassSpec parseRfc3339 env s₀ s s' := by
  unfold refreshStalePages at hok
  simp only at hok
  split at hok
  · cases hok
  split at hok
  next hnone =>
    cases hok
    have hqueue := staleQueue_of_none hnone.1 hnone.2
    refine ⟨Course.refl _, hs, fun topicId h => ?_, fun _ _ => rfl⟩
    rw [hqueue] at h
    simp at h
  split at hok
  · cases hok
  · cases hok
  · obtain ⟨hcourse, hreached, -, -, hattempts, hothers⟩ :=
      refreshPages_attempts ht₀ hminted hs hfresh hs (Grew.refl s.log) rfl hok
    refine ⟨hcourse, hreached, fun topicId h => ?_, hothers⟩
    obtain ⟨entity, hentity, attempt, hlt⟩ := hattempts topicId h
    refine ⟨entity, hentity, attempt, fun htransient => ?_⟩
    have hpos := hlt htransient
    omega

/-- A tick that did its work without an error of the storage: the misses, the
pass, and the tables rebuilt. -/
theorem daemonTick_spec (ht₀ : Tabled parseRfc3339 s₀)
    {keyOf : String → String} {env : DaemonEnv}
    (hattempt : ∀ i j, Minted s₀.log ((env.attempt i).refresh j).m₂.id)
    (hminted : ∀ i, Minted s₀.log (env.stale.refresh i).m₂.id)
    {r r' : ReflectState} {report : ReflectReport}
    (h : Reached parseRfc3339 s₀ r.dossier) (hfresh : FreshPages r.dossier)
    (hok : daemonTick parseRfc3339 keyOf env r = (r', .ok report))
    (henabled : report.skippedDisabled = false)
    (hsound : report.transientErrors = 0) :
    ∃ mid last, Reached parseRfc3339 s₀ mid ∧ FreshPages mid ∧
      PassSpec parseRfc3339 env.stale s₀ mid last ∧
      r'.dossier = last.rebuild parseRfc3339 ∧
      (env.newMisses = [] → NoneOpen r.backlog →
        mid = r.dossier ∧ NoneOpen r'.backlog) := by
  unfold daemonTick at hok
  split at hok
  · cases hok
  split at hok
  · cases hok
  next r₁ report₁ htick =>
    split at hok
    · cases hok
    cases hok
    unfold reflectOnce at htick
    split at htick
    · cases htick
    · cases htick
      cases henabled
    split at htick
    · cases htick
    next backlog hseeds =>
      split at htick
      · cases htick
      split at htick
      · cases htick
      next r₂ report₂ emits hmisses =>
        split at htick
        · cases htick
        next dossier stale hstale =>
          obtain ⟨hreached, hpages⟩ :=
            attemptMisses_reached (r := { r with backlog := backlog }) ht₀
              hattempt h hfresh hmisses
          unfold closeTick at htick
          split at htick
          · cases htick
          simp only at htick
          split at htick
          · cases htick
          cases htick
          have hzero : stale.transientErrors = 0 := by
            simp only [ReflectReport.tidied] at hsound
            omega
          refine ⟨r₂.dossier, dossier, hreached, hpages,
            refreshStalePages_spec ht₀ hminted hreached hpages hstale hzero,
            rfl, fun hnew hnone => ?_⟩
          rw [hnew] at hseeds
          cases hseeds
          have hempty : openMisses reflectMissesPerTick r.backlog = [] := by
            have hfilter : (r.backlog.filter fun row =>
                row.state = .opened) = [] :=
              List.filter_eq_nil_iff.mpr fun row hrow => by
                simpa using hnone row hrow
            rw [openMisses, hfilter]
            rfl
          rw [hempty] at hmisses
          cases hmisses
          exact ⟨rfl, fun row hrow => hnone row (List.mem_filter.mp hrow).1⟩

/-! ## What stands before a page -/

/-- The topic has a stale page and too few facts to rebuild it. -/
def thinTopic (s : DossierState) (topicId : String) : Bool :=
  match staleTopic s topicId with
  | some entity => !decide (Rebuildable s entity)
  | none => false

/-- The topics too thin to rebuild whose stale pages a pass attempts before
the page of a topic. -/
def thinBefore (s : DossierState) (topicId : String) : List String :=
  (staleQueue s).filter fun u => decide (u < topicId) && thinTopic s u

theorem mem_thinBefore (hfresh : FreshPages s) {topicId u : String} :
    u ∈ thinBefore s topicId ↔ u < topicId ∧
      ∃ entity, staleTopic s u = some entity ∧ ¬ Rebuildable s entity := by
  rw [thinBefore, List.mem_filter, mem_staleQueue hfresh, Bool.and_eq_true,
    decide_eq_true_eq, thinTopic]
  cases staleTopic s u with
  | none => simp
  | some entity => simp

theorem nodup_staleQueue (hfresh : FreshPages s) : (staleQueue s).Nodup :=
  ((sorted_pageTopics hfresh).imp fun h => ne_of_lt h).filter _

/-- A topic is rebuilt by its identifier. -/
theorem rebuildable_of_id {a b : GraphEntity} (hid : a.entityId = b.entityId)
    (h : Rebuildable s a) : Rebuildable s b := by
  obtain ⟨aId, aLabel, aType⟩ := a
  obtain ⟨bId, bLabel, bType⟩ := b
  simp only at hid
  subst hid
  exact h

/-- A stale page is none that was renewed. -/
theorem not_renewed_of_stale {topicId : String} {entity : GraphEntity}
    (h : staleTopic s topicId = some entity) : ¬ Renewed log s.log topicId := by
  rintro ⟨pageId, cites, hpage, -, hlive⟩
  obtain ⟨⟨pageId', cites', hpage', id, hid, hgone⟩, -⟩ := staleTopic_eq_some h
  rw [hpage] at hpage'
  cases hpage'
  rw [(hlive id hid).1] at hgone
  cases hgone

/-- Where its page is not renewed, a stale topic stays stale. -/
theorem staleTopic_course (hc : Course s s') {topicId : String}
    {entity : GraphEntity} (h : staleTopic s topicId = some entity)
    (hnot : ¬ Renewed s.log s'.log topicId) :
    staleTopic s' topicId = some entity := by
  have hsame := (hc.pages topicId).resolve_right fun hnew => hnot hnew.1
  obtain ⟨⟨pageId, cites⟩, hpage, hfind⟩ := Option.bind_eq_some_iff.mp h
  simp only at hfind
  split at hfind
  next hany =>
    obtain ⟨id, hid, hgone⟩ := List.any_eq_true.mp hany
    have hany' : cites.any (gone s'.log) = true :=
      List.any_eq_true.mpr ⟨id, hid, (gone_grew hc.grew id).1 hgone⟩
    rw [staleTopic, hsame, hpage, Option.bind_some]
    simp only
    rw [if_pos hany', hc.entities, hfind]
  · cases hfind

/-- A thin topic is not renewed. -/
theorem not_renewed_of_thin (hc : Course s s') {topicId : String}
    {entity : GraphEntity} (h : staleTopic s topicId = some entity)
    (hthin : ¬ Rebuildable s entity) : ¬ Renewed s.log s'.log topicId := by
  intro hnew
  obtain ⟨⟨pageId, cites, hpage, -⟩, -, hid⟩ := staleTopic_eq_some h
  rcases hc.pages topicId with hsame | ⟨-, other, -, hother, hreb⟩
  · obtain ⟨pageId', cites', hpage', hfresh, -⟩ := hnew
    rw [hsame, hpage] at hpage'
    cases hpage'
    obtain ⟨p, hp, heq⟩ := Option.map_eq_some_iff.mp hpage
    obtain ⟨ev, hev, hevId, -⟩ := (pageOf_pageAt hp).1
    cases heq
    exact hfresh ev hev hevId
  · exact hthin (rebuildable_of_id (hother.trans hid.symm) hreb)

/-- Thin topics that stand before a page stay there. -/
theorem thinBefore_le (ht : Tabled parseRfc3339 s) (hc : Course s s')
    (hfresh : FreshPages s) (hfresh' : FreshPages s') (topicId : String) :
    (thinBefore s topicId).length ≤ (thinBefore s' topicId).length := by
  refine (((nodup_staleQueue hfresh).filter _).subperm ?_).length_le
  intro u hu
  obtain ⟨hlt, entity, hstale, hthin⟩ := (mem_thinBefore hfresh).mp hu
  have hentity := (staleTopic_eq_some hstale).2.1
  refine (mem_thinBefore hfresh').mpr ⟨hlt, entity, ?_, fun hreb =>
    hthin ((rebuildable_iff ht hc.toSameGraph hentity).mp hreb)⟩
  exact staleTopic_course hc hstale
    (not_renewed_of_thin hc hstale hthin)

/-- With fewer thin topics before a page than a pass attempts, the pass
attempts that page, or one before it that can be rebuilt. -/
theorem exists_rebuildable (hfresh : FreshPages s) {topicId : String}
    {entity : GraphEntity} (hstale : staleTopic s topicId = some entity)
    (hreb : Rebuildable s entity)
    (hfew : (thinBefore s topicId).length < reflectRefreshPerTick) :
    ∃ u ∈ (staleQueue s).take reflectRefreshPerTick,
      ∃ e, staleTopic s u = some e ∧ Rebuildable s e := by
  by_contra hnone
  have hqueue : topicId ∈ staleQueue s := by
    rw [mem_staleQueue hfresh, hstale]
    rfl
  have hover : topicId ∉ (staleQueue s).take reflectRefreshPerTick :=
    fun hin => hnone ⟨topicId, hin, entity, hstale, hreb⟩
  have hsorted : (staleQueue s).Pairwise (· < ·) :=
    (sorted_pageTopics hfresh).filter _
  obtain ⟨hfull, hbefore⟩ := Ranked.rel_of_notMem_take hsorted hqueue hover
  have hthin : ∀ u ∈ (staleQueue s).take reflectRefreshPerTick,
      u ∈ thinBefore s topicId := by
    intro u hu
    obtain ⟨e, he⟩ := Option.isSome_iff_exists.mp
      ((mem_staleQueue hfresh).mp (List.mem_of_mem_take hu))
    exact (mem_thinBefore hfresh).mpr ⟨hbefore u hu, e, he, fun hreb' =>
      hnone ⟨u, hu, e, he, hreb'⟩⟩
  have hle := (((nodup_staleQueue hfresh).sublist
    (List.take_sublist _ _)).subperm hthin).length_le
  omega

/-- With as many thin topics before a page as a pass attempts, the pass does
not attempt it. -/
theorem not_attempted (hfresh : FreshPages s) {topicId : String}
    (hmany : reflectRefreshPerTick ≤ (thinBefore s topicId).length) :
    topicId ∉ (staleQueue s).take reflectRefreshPerTick := by
  intro hin
  have hsorted : (staleQueue s).Pairwise (· < ·) :=
    (sorted_pageTopics hfresh).filter _
  have hsub : ∀ u ∈ topicId :: thinBefore s topicId,
      u ∈ (staleQueue s).take reflectRefreshPerTick := by
    intro u hu
    rcases List.mem_cons.mp hu with rfl | hu
    · exact hin
    · obtain ⟨hqueue, hbefore⟩ := List.mem_filter.mp hu
      rw [Bool.and_eq_true, decide_eq_true_eq] at hbefore
      exact Ranked.mem_take_of_rel hsorted (not_lt_of_gt hbefore.1) hin hqueue
  have hself : topicId ∉ thinBefore s topicId := fun hmem =>
    lt_irrefl topicId ((mem_thinBefore hfresh).mp hmem).1
  have hle := ((List.nodup_cons.mpr ⟨hself,
    (nodup_staleQueue hfresh).filter _⟩).subperm hsub).length_le
  rw [List.length_cons, List.length_take] at hle
  omega

/-! ## A run of the daemon -/

/-- The refreshes of a tick get identifiers that no event of the log
supersedes unless it supersedes an event of the log. -/
def DaemonEnv.MintsFor (env : DaemonEnv) (log : EventLog) : Prop :=
  (∀ i j, Minted log ((env.attempt i).refresh j).m₂.id) ∧
    ∀ i, Minted log (env.stale.refresh i).m₂.id

/-- A tick that did its work, without an error of the storage. -/
def Completed (result : Except BossclawError ReflectReport) : Prop :=
  ∃ report, result = .ok report ∧ report.skippedDisabled = false ∧
    report.transientErrors = 0

instance (result : Except BossclawError ReflectReport) :
    Decidable (Completed result) :=
  match result with
  | .error _ => .isFalse fun ⟨_, h, _⟩ => nomatch h
  | .ok report =>
      decidable_of_iff (report.skippedDisabled = false ∧
        report.transientErrors = 0)
        ⟨fun h => ⟨report, rfl, h⟩, fun ⟨_, h, hrest⟩ => by
          cases h
          exact hrest⟩

/-- What a completed tick comes to: `mid` is the state the pass over the stale
pages finds. -/
structure HealingTick (parseRfc3339 : String → Option String)
    (s mid s' : DossierState) : Prop where
  before : Course s mid
  tabled : Tabled parseRfc3339 mid
  fresh : FreshPages mid
  pass : Course mid s'
  renewed : ∀ topicId ∈ (staleQueue mid).take reflectRefreshPerTick,
    ∀ entity, staleTopic mid topicId = some entity →
      Rebuildable mid entity → Renewed s.log s'.log topicId
  others : ∀ topicId ∉ (staleQueue mid).take reflectRefreshPerTick,
    logPage s'.log topicId = logPage mid.log topicId

theorem completed_spec (ht : Tabled parseRfc3339 s) {keyOf : String → String}
    {env : DaemonEnv} {r r' : ReflectState}
    {result : Except BossclawError ReflectReport} (hs : r.dossier = s)
    (hfresh : FreshPages s) (hminted : env.MintsFor s.log)
    (hworks : ∀ i, Works s (env.stale.refresh i))
    (hok : daemonTick parseRfc3339 keyOf env r = (r', result))
    (hdone : Completed result) :
    Tabled parseRfc3339 r'.dossier ∧ FreshPages r'.dossier ∧
      ∃ mid, HealingTick parseRfc3339 s mid r'.dossier ∧
        (env.newMisses = [] → NoneOpen r.backlog →
          mid = s ∧ NoneOpen r'.backlog) := by
  subst hs
  obtain ⟨report, rfl, henabled, hsound⟩ := hdone
  obtain ⟨mid, last, hmid, hfreshMid, hpass, hlast, hquiet⟩ :=
    daemonTick_spec ht hminted.1 hminted.2 (Reached.refl ht) hfresh hok henabled
      hsound
  have hafter : Reached parseRfc3339 mid (last.rebuild parseRfc3339) :=
    Reached.rebuild ⟨hpass.course, hpass.reached.tabled⟩
  rw [hlast]
  refine ⟨hafter.tabled, rfl, mid, ⟨hmid.course, hmid.tabled, hfreshMid,
    hafter.course, fun topicId hin entity hentity hreb => ?_, hpass.others⟩,
    hquiet⟩
  obtain ⟨entity', hentity', attempt, hattempt⟩ := hpass.attempts topicId hin
  rw [hentity] at hentity'
  cases hentity'
  have hmem := (staleTopic_eq_some hentity).2.1
  rw [hmid.course.entities] at hmem
  have hnew : Renewed r.dossier.log last.log topicId :=
    attempt_renews ht hminted.2 hmid hfreshMid hentity
      ((rebuildable_iff ht hmid.course.toSameGraph hmem).mp hreb) attempt
      (hworks attempt.position) hattempt
  exact hnew

/-- The state after so many ticks. -/
def daemonAfter (parseRfc3339 : String → Option String)
    (keyOf : String → String) (envs : Nat → DaemonEnv) (s : ReflectState) :
    Nat → ReflectState
  | 0 => s
  | n + 1 =>
      (daemonTick parseRfc3339 keyOf (envs n)
        (daemonAfter parseRfc3339 keyOf envs s n)).1

/-- Every tick of the run is completed, and the reasoner works; the run starts
from tables written from the log. -/
structure Undisturbed (parseRfc3339 : String → Option String)
    (keyOf : String → String) (envs : Nat → DaemonEnv) (s : ReflectState) :
    Prop where
  unique : UniqueIds s.dossier.log
  tables : s.dossier.rebuild parseRfc3339 = s.dossier
  minted : ∀ n, (envs n).MintsFor s.dossier.log
  works : ∀ n i, Works s.dossier ((envs n).stale.refresh i)
  completed : ∀ n, Completed (daemonTick parseRfc3339 keyOf (envs n)
    (daemonAfter parseRfc3339 keyOf envs s n)).2

section Run

variable {keyOf : String → String} {envs : Nat → DaemonEnv} {r : ReflectState}

/-- After every tick the tables are those of the log, and the pages are as
they were or new. -/
theorem Undisturbed.reached (h : Undisturbed parseRfc3339 keyOf envs r)
    (n : Nat) :
    Reached parseRfc3339 r.dossier
        (daemonAfter parseRfc3339 keyOf envs r n).dossier ∧
      FreshPages (daemonAfter parseRfc3339 keyOf envs r n).dossier := by
  have ht : Tabled parseRfc3339 r.dossier := by
    rw [← h.tables]
    exact tabled_rebuild h.unique
  induction n with
  | zero =>
      refine ⟨Reached.refl ht, ?_⟩
      exact (congrArg DossierState.pages h.tables).symm
  | succ n ih =>
      obtain ⟨hreached, hfresh⟩ := ih
      obtain ⟨htabled, hfresh', mid, hspec, -⟩ :=
        completed_spec hreached.tabled rfl hfresh
          ⟨fun i j => ((h.minted n).1 i j).grew hreached.course.grew,
            fun i => ((h.minted n).2 i).grew hreached.course.grew⟩
          (fun i => (h.works n i).course ht hreached.course) rfl
          (h.completed n)
      exact ⟨⟨hreached.course.trans ht (hspec.before.trans hreached.tabled
        hspec.pass), htabled⟩, hfresh'⟩

/-- What a tick of the run comes to. -/
theorem Undisturbed.tick (h : Undisturbed parseRfc3339 keyOf envs r) (n : Nat) :
    ∃ mid, HealingTick parseRfc3339
        (daemonAfter parseRfc3339 keyOf envs r n).dossier mid
        (daemonAfter parseRfc3339 keyOf envs r (n + 1)).dossier ∧
      ((envs n).newMisses = [] →
        NoneOpen (daemonAfter parseRfc3339 keyOf envs r n).backlog →
        mid = (daemonAfter parseRfc3339 keyOf envs r n).dossier ∧ NoneOpen
          (daemonAfter parseRfc3339 keyOf envs r (n + 1)).backlog) := by
  obtain ⟨hreached, hfresh⟩ := h.reached n
  exact (completed_spec hreached.tabled rfl hfresh
    ⟨fun i j => ((h.minted n).1 i j).grew hreached.course.grew,
      fun i => ((h.minted n).2 i).grew hreached.course.grew⟩
    (fun i => (h.works n i).course (h.reached 0).1.tabled hreached.course) rfl
    (h.completed n)).2.2

/-- The page of a topic is renewed by so many ticks. -/
def RenewedAfter (parseRfc3339 : String → Option String)
    (keyOf : String → String) (envs : Nat → DaemonEnv) (r : ReflectState)
    (topicId : String) (n : Nat) : Prop :=
  Renewed r.dossier.log (daemonAfter parseRfc3339 keyOf envs r n).dossier.log
    topicId

/-- A renewed page stays renewed. -/
theorem Undisturbed.renewed_succ (h : Undisturbed parseRfc3339 keyOf envs r)
    {topicId : String} {n : Nat}
    (hnew : RenewedAfter parseRfc3339 keyOf envs r topicId n) :
    RenewedAfter parseRfc3339 keyOf envs r topicId (n + 1) := by
  obtain ⟨hreached, -⟩ := h.reached n
  obtain ⟨mid, hspec, -⟩ := h.tick n
  exact Renewed.course hnew hreached.course.grew hreached.tabled.unique
    (hspec.before.trans hreached.tabled hspec.pass)

theorem Undisturbed.renewed_of_le (h : Undisturbed parseRfc3339 keyOf envs r)
    {topicId : String} {n m : Nat} (hle : n ≤ m)
    (hnew : RenewedAfter parseRfc3339 keyOf envs r topicId n) :
    RenewedAfter parseRfc3339 keyOf envs r topicId m := by
  induction m, hle using Nat.le_induction with
  | base => exact hnew
  | succ m _ ih => exact h.renewed_succ ih

open Classical in
/-- How many of the pages of the start are not renewed. -/
noncomputable def waiting (parseRfc3339 : String → Option String)
    (keyOf : String → String) (envs : Nat → DaemonEnv) (r : ReflectState)
    (n : Nat) : Nat :=
  (pageTopics r.dossier).countP fun u =>
    decide (¬ RenewedAfter parseRfc3339 keyOf envs r u n)

open Classical in
/-- While the page of a topic that can be rebuilt waits, with fewer thin topics
before it than a pass attempts, a tick renews a page that was not renewed. -/
theorem Undisturbed.waiting_lt (h : Undisturbed parseRfc3339 keyOf envs r)
    {topicId : String} {entity : GraphEntity}
    (hstale : staleTopic r.dossier topicId = some entity)
    (hreb : Rebuildable r.dossier entity) {n : Nat}
    (hnot : ¬ RenewedAfter parseRfc3339 keyOf envs r topicId (n + 1))
    (hfew : (thinBefore (daemonAfter parseRfc3339 keyOf envs r
      (n + 1)).dossier topicId).length < reflectRefreshPerTick) :
    waiting parseRfc3339 keyOf envs r (n + 1) <
      waiting parseRfc3339 keyOf envs r n := by
  obtain ⟨hreached, hfresh⟩ := h.reached n
  obtain ⟨mid, hspec, -⟩ := h.tick n
  have ht₀ : Tabled parseRfc3339 r.dossier := (h.reached 0).1.tabled
  have hfresh₀ : FreshPages r.dossier := (h.reached 0).2
  have hmid : Course r.dossier mid := hreached.course.trans ht₀ hspec.before
  have hnew : ∀ u, Renewed r.dossier.log mid.log u →
      RenewedAfter parseRfc3339 keyOf envs r u (n + 1) := fun u hu =>
    Renewed.course hu hmid.grew hspec.tabled.unique hspec.pass
  -- the page is stale in the pass, and its topic can be rebuilt
  have hstaleMid := staleTopic_course hmid hstale fun hu => hnot (hnew _ hu)
  have hrebMid := (rebuildable_iff ht₀ hmid.toSameGraph
    (staleTopic_eq_some hstale).2.1).mpr hreb
  have hfewMid := (thinBefore_le hspec.tabled hspec.pass hspec.fresh
    (h.reached (n + 1)).2 topicId).trans_lt hfew
  obtain ⟨u, hu, e, he, hrebu⟩ :=
    exists_rebuildable hspec.fresh hstaleMid hrebMid hfewMid
  have hnotu : ¬ Renewed r.dossier.log mid.log u := not_renewed_of_stale he
  refine Ranked.countP_lt_of_exists (fun v _ hv => ?_) ⟨u, ?_, ?_, ?_⟩
  · rw [decide_eq_true_eq] at hv ⊢
    exact fun hold => hv (h.renewed_succ hold)
  · rw [mem_pageTopics hfresh₀]
    obtain ⟨⟨pageId, cites, hpage, -⟩, -⟩ := staleTopic_eq_some he
    rw [← (hmid.pages u).resolve_right fun hnewu => hnotu hnewu.1, hpage]
    rfl
  · rw [decide_eq_true_eq]
    exact fun hold => hnotu (Renewed.course hold hreached.course.grew
      hreached.tabled.unique hspec.before)
  · rw [decide_eq_false_iff_not, not_not]
    obtain ⟨pageId, cites, hpage, hfreshId, hlive⟩ :=
      hspec.renewed u hu e he hrebu
    exact ⟨pageId, cites, hpage, fun ev hev =>
      hfreshId ev (hreached.course.grew.subset ev hev), hlive⟩

/-- With fewer thin topics before it than a pass attempts, in every tick that
finds it waiting, a page is renewed. -/
theorem Undisturbed.renewed_of_few (h : Undisturbed parseRfc3339 keyOf envs r)
    {topicId : String} {entity : GraphEntity}
    (hstale : staleTopic r.dossier topicId = some entity)
    (hreb : Rebuildable r.dossier entity)
    (hfew : ∀ n, ¬ RenewedAfter parseRfc3339 keyOf envs r topicId n →
      (thinBefore (daemonAfter parseRfc3339 keyOf envs r n).dossier
        topicId).length < reflectRefreshPerTick) (n : Nat) :
    ∃ m, RenewedAfter parseRfc3339 keyOf envs r topicId m := by
  induction hcount : waiting parseRfc3339 keyOf envs r n using
    Nat.strong_induction_on generalizing n with
  | _ count ih =>
      subst hcount
      by_cases hnew : RenewedAfter parseRfc3339 keyOf envs r topicId (n + 1)
      · exact ⟨n + 1, hnew⟩
      · exact ih _ (h.waiting_lt hstale hreb hnew (hfew _ hnew)) (n + 1) rfl

/-- Where no miss is attempted, a page with as many thin topics before it as a
pass attempts stays as it is. -/
theorem Undisturbed.not_renewed_of_many
    (h : Undisturbed parseRfc3339 keyOf envs r)
    (hmisses : ∀ n, (envs n).newMisses = []) (hnone : NoneOpen r.backlog)
    {topicId : String} {entity : GraphEntity}
    (hstale : staleTopic r.dossier topicId = some entity) {n : Nat}
    (hnot : ¬ RenewedAfter parseRfc3339 keyOf envs r topicId n)
    (hmany : reflectRefreshPerTick ≤ (thinBefore (daemonAfter parseRfc3339
      keyOf envs r n).dossier topicId).length) (k : Nat) :
    let after := daemonAfter parseRfc3339 keyOf envs r (n + k)
    ¬ RenewedAfter parseRfc3339 keyOf envs r topicId (n + k) ∧
      reflectRefreshPerTick ≤ (thinBefore after.dossier topicId).length := by
  have hopen : ∀ n, NoneOpen
      (daemonAfter parseRfc3339 keyOf envs r n).backlog := by
    intro n
    induction n with
    | zero => exact hnone
    | succ n ih =>
        obtain ⟨mid, -, hquiet⟩ := h.tick n
        exact (hquiet (hmisses n) ih).2
  induction k with
  | zero => exact ⟨hnot, hmany⟩
  | succ k ih =>
      obtain ⟨hnot', hmany'⟩ := ih
      obtain ⟨hreached, hfresh⟩ := h.reached (n + k)
      obtain ⟨mid, hspec, hquiet⟩ := h.tick (n + k)
      obtain ⟨rfl, -⟩ := hquiet (hmisses _) (hopen _)
      refine ⟨?_, hmany'.trans (thinBefore_le hreached.tabled hspec.pass hfresh
        (h.reached (n + k + 1)).2 topicId)⟩
      have hsame := hspec.others topicId (not_attempted hfresh hmany')
      rintro ⟨pageId, cites, hpage, hfreshId, hlive⟩
      have hpage' := hsame.symm.trans hpage
      have hstale' := staleTopic_course hreached.course hstale hnot'
      obtain ⟨⟨pageId', cites', hold, id, hid, hgone⟩, -⟩ :=
        staleTopic_eq_some hstale'
      rw [hpage'] at hold
      cases hold
      have hstill := (gone_grew hspec.pass.grew id).1 hgone
      cases (hlive id hid).1.symm.trans hstill

/-- **A stale page heals iff fewer than four pages that cannot heal stand
before it.** In a run of completed ticks with a working reasoner, the page of a
topic with facts enough is emitted anew, and from then on cites nothing that is
gone, if every tick that finds it as it was finds fewer than four stale pages
of topics too thin before it; and, where no miss is attempted, only if. -/
theorem stale_page_heals_iff (h : Undisturbed parseRfc3339 keyOf envs r)
    {topicId : String} {entity : GraphEntity}
    (hstale : staleTopic r.dossier topicId = some entity)
    (hreb : Rebuildable r.dossier entity) :
    let renewed := RenewedAfter parseRfc3339 keyOf envs r topicId
    let uncrowded := ∀ n, ¬ renewed n →
      (thinBefore (daemonAfter parseRfc3339 keyOf envs r n).dossier
        topicId).length < reflectRefreshPerTick
    (uncrowded → ∃ n, ∀ m, n ≤ m → renewed m) ∧
      ((∀ n, (envs n).newMisses = []) → NoneOpen r.backlog →
        ((∃ n, ∀ m, n ≤ m → renewed m) ↔ uncrowded)) := by
  intro renewed uncrowded
  have hheals : uncrowded → ∃ n, ∀ m, n ≤ m → renewed m := by
    intro hfew
    obtain ⟨n, hnew⟩ := h.renewed_of_few hstale hreb hfew 0
    exact ⟨n, fun m hle => h.renewed_of_le hle hnew⟩
  refine ⟨hheals, fun hmisses hnone => ⟨?_, hheals⟩⟩
  rintro ⟨n, hall⟩ k hnot
  by_contra hmany
  have hstuck := h.not_renewed_of_many hmisses hnone hstale hnot
    (Nat.le_of_not_lt hmany) n
  exact hstuck.1 (hall (k + n) (Nat.le_add_left n k))

end Run

/-! ### Stale pages of topics -/

deriving instance DecidableEq for DossierState, ReflectState

instance (log : EventLog) : Decidable (UniqueIds log) :=
  inferInstanceAs (Decidable (log.map Event.id).Nodup)

/-- A page of a topic that cites one note. -/
def pageOn (id topicId note : String) : Event :=
  storedAs id (pageEvent topicId "Tea" "hot"
    [claimJson ⟨"hot", [note]⟩] "r" [note])

/-- Two notes, a third that is superseded, topics drawn from that one alone and
a topic drawn from all; and their pages, which cite the third. -/
def staleLog (thin : List String) : EventLog :=
  ["m", "k", "x"].map (fun id => storedAs id
      (.draft memoryEventType (.obj [("text", .str "tea")]) none)) ++
    thin.map (fun id => storedAs id (entityEvent id "drink" "r" ["x"])) ++
    [storedAs "z" (entityEvent "z" "drink" "r" ["m", "k", "x"])] ++
    (thin ++ ["z"]).map (fun id =>
      pageOn ("p" ++ id) ("entity:" ++ id) "x") ++
    [storedAs "u" (supersedeEvent "x" "r" ["m"])]

def staleState (thin : List String) : ReflectState :=
  ⟨DossierState.rebuild (fun _ => none) ⟨staleLog thin, [], [], []⟩, [], 0, 0⟩

/-- A tick in which nothing fails and no miss is known. -/
def quietTick : DaemonEnv where
  enabled := .ok true
  newMisses := []
  seedFails := fun _ => none
  openFails := none
  attempt := fun _ => unknownAttempt
  stale := { quietStale with refresh := fun _ => teaEnv "n" }
  countersFail := none
  pruneFails := none
  now := 0
  entityIndexFails := none
  rebuildFails := none

theorem quietTick_works {s : DossierState}
    (h : ∀ entity ∈ s.entities, Rebuildable s entity →
      "m" ∈ (gatherFactSet s false entity).factIds) (i : Nat) :
    Works s (quietTick.stale.refresh i) := by
  refine ⟨rfl, fun entity hentity hreb => ⟨⟨"Tea", [⟨"hot", ["m"]⟩]⟩, rfl, ?_⟩⟩
  have hfact := h entity hentity hreb
  simp [citationFloor, hfact]

theorem quietTick_mints {log : EventLog} (hfirst : Minted log "")
    (hsecond : Minted log "n") : quietTick.MintsFor log :=
  ⟨fun _ _ => hfirst, fun _ => hsecond⟩

/-- With one stale page, the first tick heals it, and the others find
nothing. -/
theorem one_page_heals :
    let r := staleState []
    (∃ n, ∀ m, n ≤ m → RenewedAfter (fun _ => none) id (fun _ => quietTick) r
        "entity:z" m) ∧
      ((∃ n, ∀ m, n ≤ m → RenewedAfter (fun _ => none) id
          (fun _ => quietTick) r "entity:z" m) ↔
        ∀ n, ¬ RenewedAfter (fun _ => none) id (fun _ => quietTick) r
            "entity:z" n →
          (thinBefore (daemonAfter (fun _ => none) id (fun _ => quietTick) r
            n).dossier "entity:z").length < reflectRefreshPerTick) := by
  intro r
  obtain ⟨r₁, hfirst, hdone, hagain, hdone₁, hthin⟩ : ∃ r₁,
      (daemonTick (fun _ => none) id quietTick r).1 = r₁ ∧
        Completed (daemonTick (fun _ => none) id quietTick r).2 ∧
        (daemonTick (fun _ => none) id quietTick r₁).1 = r₁ ∧
        Completed (daemonTick (fun _ => none) id quietTick r₁).2 ∧
        (thinBefore r₁.dossier "entity:z").length < reflectRefreshPerTick :=
    ⟨_, rfl, by decide +kernel⟩
  have hafter : ∀ n, daemonAfter (fun _ => none) id (fun _ => quietTick) r
      (n + 1) = r₁ := by
    intro n
    induction n with
    | zero => exact hfirst
    | succ n ih => rw [daemonAfter, ih, hagain]
  have hrun : Undisturbed (fun _ => none) id (fun _ => quietTick) r := by
    refine ⟨by decide +kernel, by decide +kernel, fun _ => quietTick_mints
      (by decide +kernel) (by decide +kernel),
      fun _ => quietTick_works (by decide +kernel), fun n => ?_⟩
    cases n with
    | zero => exact hdone
    | succ n =>
        rw [hafter]
        exact hdone₁
  have hfew : ∀ n, (thinBefore (daemonAfter (fun _ => none) id
      (fun _ => quietTick) r n).dossier "entity:z").length <
        reflectRefreshPerTick := by
    intro n
    cases n with
    | zero => decide +kernel
    | succ n =>
        rw [hafter]
        exact hthin
  have hstale : staleTopic r.dossier "entity:z" =
      some ⟨"entity:z", "z", "drink"⟩ := by decide +kernel
  obtain ⟨hheals, honly⟩ :=
    stale_page_heals_iff hrun hstale (by decide +kernel)
  exact ⟨hheals fun n _ => hfew n, honly (fun _ => rfl) fun _ h => nomatch h⟩

/-- Behind four pages of topics too thin, the page of a topic with facts enough
is never emitted anew. -/
theorem five_pages_starve :
    let r := staleState ["a", "b", "c", "d"]
    Undisturbed (fun _ => none) id (fun _ => quietTick) r ∧
      ∃ entity, staleTopic r.dossier "entity:z" = some entity ∧
        Rebuildable r.dossier entity ∧
        ∀ n, ¬ RenewedAfter (fun _ => none) id (fun _ => quietTick) r
          "entity:z" n := by
  intro r
  have htick : (daemonTick (fun _ => none) id quietTick r).1 = r ∧
      Completed (daemonTick (fun _ => none) id quietTick r).2 := by
    decide +kernel
  have hafter : ∀ n,
      daemonAfter (fun _ => none) id (fun _ => quietTick) r n = r := by
    intro n
    induction n with
    | zero => rfl
    | succ n ih => rw [daemonAfter, ih, htick.1]
  have hstale : staleTopic r.dossier "entity:z" =
      some ⟨"entity:z", "z", "drink"⟩ := by decide +kernel
  refine ⟨⟨by decide +kernel, by decide +kernel, fun _ => quietTick_mints
    (by decide +kernel) (by decide +kernel),
    fun _ => quietTick_works (by decide +kernel), fun n => ?_⟩, _, hstale,
    by decide +kernel, fun n => ?_⟩
  · rw [hafter]
    exact htick.2
  · rw [RenewedAfter, hafter]
    exact not_renewed_of_stale hstale

end AirNote.Reflection
