import AirNote.EdgeTimes
import AirNote.Emissions
import AirNote.Lib.SortedBy
import AirNote.Projections
import AirNote.Prompts
import AirNote.Sessions

/-!
# Dossiers

A dossier is a page about one topic. Its facts are gathered from the graph:
the current edges of the topic, and the texts of the events that the topic and
those edges were drawn from. The reasoner drafts claims, each with citations;
the citation floor keeps the claims that cite something and cite nothing but
gathered memories. The page that is emitted supersedes the page the topic has
in the table, unless both cite the same events.

The tables are those of the last rebuild. Every read and write that can fail
is an argument, as is the reply of the reasoner.

## Main results

* `citationFloor_grounded` — what the floor keeps.
* `refreshTopicPage_emitted` — the page a refresh appends.
* `gatherFactSet_live` — what the sources of a page are not.
* `refreshTopicPage_again` — a refresh that cites what the current page cites
  emits nothing.
-/

namespace AirNote.Dossier

open Lib

/-! ## The pipeline -/

/-- `PAGE_MIN_FACTS`. -/
def pageMinFacts : Nat := 2

/-- `MAX_CLAIMS_PER_PAGE`. -/
def maxClaimsPerPage : Nat := 32

/-- `FactSet`: what the prompt reads of it, the topic and the sources. -/
structure FactSet extends AirNote.FactSet where
  entityId : String
  sourceIds : List String
  deriving DecidableEq, Repr

/-- `fact_ids`. -/
def FactSet.factIds (facts : FactSet) : List String :=
  facts.memories.map Prod.fst

/-- `fact_count`. -/
def FactSet.factCount (facts : FactSet) : Nat :=
  facts.edges.length + facts.memories.length

/-- `DraftClaim`. -/
structure DraftClaim where
  text : String
  cites : List String
  deriving DecidableEq, Repr

/-- `DraftPage`. -/
structure DraftPage where
  title : String
  claims : List DraftClaim
  deriving DecidableEq, Repr

/-- `RenderedPage`. -/
structure RenderedPage where
  title : String
  text : String
  cites : List String
  deriving DecidableEq, Repr

/-- The strings of an array, or none. -/
def stringItems (v : Option Json) : List String :=
  ((v.bind Json.asArray).getD []).filterMap Json.asStr

/-- A claim of a draft; one without a text is dropped. -/
def parseClaim (item : Json) : Option DraftClaim :=
  match item.getStr? "text" with
  | some text =>
      if text.toList.all isWhitespace then none
      else some ⟨text, stringItems (item.get? "cites")⟩
  | none => none

/-- `parse_draft`. -/
def parseDraft (raw : Json) : Except BossclawError DraftPage :=
  if raw.isObject then
    .ok ⟨(raw.getStr? "title").getD "",
      (((raw.get? "claims").bind Json.asArray).getD []).filterMap parseClaim⟩
  else .error (.reasoner "compose draft was not a JSON object")

/-- `citation_floor`. -/
def citationFloor (draft : DraftPage) (facts : FactSet) : DraftPage :=
  { draft with
    claims := draft.claims.filter fun c =>
      !c.cites.isEmpty && c.cites.all fun id => facts.factIds.contains id }

/-- `assemble`. -/
def assemble (draft : DraftPage) : Option RenderedPage :=
  if draft.claims.isEmpty then none
  else
    let claims := draft.claims.take maxClaimsPerPage
    some
      { title := draft.title
        text := "\n".intercalate (claims.map fun c => "- " ++ c.text)
        cites := sortDedup (claims.flatMap DraftClaim.cites) }

/-! ## The gather -/

/-- The log, and the tables of the last rebuild. -/
structure DossierState where
  log : EventLog
  edges : List Edge
  entities : List GraphEntity
  pages : List Page

/-- `ENTITY_NODE_PREFIX`, taken off where it stands. -/
def stripEntityPrefix (entityId : String) : String :=
  if "entity:".toList.isPrefixOf entityId.toList then
    String.ofList (entityId.toList.drop 7)
  else entityId

/-- `fact_texts_for_ids`: the texts of the events that are no pages. -/
def factTextsForIds (log : EventLog) (ids : List String) :
    List (String × String) :=
  ids.filterMap fun id =>
    (eventById log id).bind fun ev =>
      if ev.eventType = pageEventType then none
      else (ev.content.getStr? "text").map fun text => (id, text)

/-- The events a topic and its current edges are. -/
def carriers (neighbors : List Edge) (entity : GraphEntity) :
    List String :=
  stripEntityPrefix entity.entityId :: neighbors.map Edge.edgeId

/-- `gather_fact_set`; where the edges cannot be read it goes on without. -/
def gatherFactSet (s : DossierState) (edgesFail : Bool)
    (entity : GraphEntity) : FactSet :=
  let neighbors := if edgesFail then [] else neighbors s.edges entity.entityId
  let lineage := sortDedup ((carriers neighbors entity).flatMap
    fun id => (sourceIdsOfEvent s.log id).getD [])
  let fold := foldSessions (sessionEventsOrdered s.log)
  let lineage := lineage.filter fun id =>
    decide (id ∉ fold.superseded ∧ id ∉ fold.retiredNotes)
  { label := entity.label
    entityType := entity.entityType
    entityId := entity.entityId
    edges := neighbors.map fun e =>
      e.src ++ " -" ++ e.relation ++ "-> " ++ e.dst
    memories := factTextsForIds s.log lineage
    sourceIds := lineage }

/-- The cites of the claims of a page, as they stand. -/
def citesOf (content : Json) : List String :=
  (((content.get? "claims").bind Json.asArray).getD []).flatMap
    fun claim => stringItems (claim.get? "cites")

/-- `current_page_for_topic`. -/
def currentPageForTopic (s : DossierState) (topicId : String) :
    Option (String × List String) :=
  (s.pages.find? fun p => p.topicId == topicId).map fun p =>
    (p.pageEventId, sortDedup
      (((eventById s.log p.pageEventId).map fun ev => citesOf ev.content).getD
        []))

/-! ## The refresh -/

/-- A claim as a page stores it. -/
def claimJson (c : DraftClaim) : Json :=
  .obj [("text", .str c.text),
    ("cites", .arr ((sortDedup c.cites).map Json.str))]

/-- The event of `emit_page`. -/
def pageEvent (topicId title text : String) (claims : List Json)
    (producer : String) (sourceEventIds : List String) : Event :=
  .draft pageEventType
    (.obj [("topic_id", .str topicId), ("title", .str title),
      ("text", .str text), ("claims", .arr claims), ("tags", .arr [])])
    (some ⟨producer, "", sourceEventIds⟩)

/-- The `supersede` event of `emit_page`. -/
def supersedeEvent (target producer : String) (sourceEventIds : List String) :
    Event :=
  .draft supersedeEventType (.obj [("supersedes", .str target)])
    (some ⟨producer, "", sourceEventIds⟩)

/-- `emit_page`: the page alone, or in one transaction with the event that
supersedes the prior one. -/
def emitPage (m₁ m₂ : Mint) (log : EventLog) (page : Event)
    (producer : String) (sourceEventIds : List String)
    (prior : Option String) :
    Except BossclawError (EventLog × String × Bool) :=
  if sourceEventIds.isEmpty then
    .error (.invalidInput "page requires non-empty source_event_ids")
  else
    match prior with
    | none => (append m₂ log page).map fun (log, id) => (log, id, false)
    | some prior =>
        (appendPair m₁ m₂ log (supersedeEvent prior producer sourceEventIds)
          page).map fun (log, _, id) => (log, id, true)

/-- `TopicRefreshOutcome`. -/
inductive TopicRefreshOutcome where
  | emitted (superseded : Bool)
  | skippedUnchanged
  | skippedThin
  | reasonerError
  | transientError
  deriving DecidableEq, Repr

/-- What a refresh finds: which reads fail, what the reasoner replies to
the prompt, and the environment of the two appends. -/
structure RefreshEnv where
  edgesFail : Bool
  gatherFails : Bool
  reply : String → Except BossclawError Json
  modelId : String
  priorFails : Option BossclawError
  m₁ : Mint
  m₂ : Mint

/-- `refresh_topic_page`, with the log it leaves. -/
def refreshTopicPage (env : RefreshEnv) (s : DossierState)
    (entity : GraphEntity) :
    Except BossclawError (EventLog × TopicRefreshOutcome) :=
  let facts := gatherFactSet s env.edgesFail entity
  if env.gatherFails then .ok (s.log, .transientError)
  else if facts.factCount < pageMinFacts then .ok (s.log, .skippedThin)
  else
    match (env.reply (buildComposePrompt facts.toFactSet)).bind
        parseDraft with
    | .error _ => .ok (s.log, .reasonerError)
    | .ok draft =>
        let floored := citationFloor draft facts
        match assemble floored, env.priorFails with
        | none, _ => .ok (s.log, .skippedThin)
        | some _, some e => .error e
        | some rendered, none =>
            let prior := currentPageForTopic s entity.entityId
            if prior.map Prod.snd = some rendered.cites then
              .ok (s.log, .skippedUnchanged)
            else
              let claims := (floored.claims.map claimJson).take
                maxClaimsPerPage
              match emitPage env.m₁ env.m₂ s.log
                  (pageEvent entity.entityId rendered.title rendered.text
                    claims env.modelId facts.sourceIds)
                  env.modelId facts.sourceIds (prior.map Prod.fst) with
              | .error _ => .ok (s.log, .transientError)
              | .ok (log, _, superseded) => .ok (log, .emitted superseded)

/-- The tables `rebuild_graph` writes, from the rows of the edges. -/
def DossierState.rebuild (parseRfc3339 : String → Option String)
    (s : DossierState) : DossierState :=
  { s with
    edges := rebuildEdges parseRfc3339 s.log
    entities := foldEntities s.log
    pages := foldPages (pageAndSupersedeEventsOrdered s.log) }

/-! ## Sorted lists without repetitions -/

theorem sortDedup_congr {a b : List String} (h : ∀ id, id ∈ a ↔ id ∈ b) :
    sortDedup a = sortDedup b := by
  have horders : SortedBy.Orders (fun x y : String => x ≤ y) Set.univ :=
    ⟨fun x _ y _ => le_total x y, fun _ _ _ _ _ _ => le_trans,
      fun _ _ _ _ => le_antisymm⟩
  refine SortedBy.eraseDups_congr horders (fun _ _ => Set.mem_univ _)
    (List.pairwise_insertionSort _ a) (List.pairwise_insertionSort _ b) ?_
  intro id
  rw [List.mem_insertionSort, List.mem_insertionSort]
  exact h id

/-- Sorting the parts first changes nothing. -/
theorem sortDedup_flatMap_sortDedup {α : Type} (f : α → List String)
    (l : List α) :
    sortDedup (l.flatMap fun x => sortDedup (f x)) = sortDedup (l.flatMap f) := by
  refine sortDedup_congr fun id => ?_
  simp only [List.mem_flatMap, mem_sortDedup]

/-! ## The floor -/

/-- The floor keeps the claims that cite something, and facts only. -/
theorem citationFloor_grounded {draft : DraftPage} {facts : FactSet}
    {c : DraftClaim} (h : c ∈ (citationFloor draft facts).claims) :
    c ∈ draft.claims ∧ c.cites ≠ [] ∧ ∀ id ∈ c.cites, id ∈ facts.factIds := by
  obtain ⟨hmem, hkeep⟩ := List.mem_filter.mp h
  rw [Bool.and_eq_true, List.all_eq_true] at hkeep
  refine ⟨hmem, by simpa using hkeep.1, fun id hid => ?_⟩
  simpa using hkeep.2 id hid

theorem assemble_eq_some {draft : DraftPage} {rendered : RenderedPage}
    (h : assemble draft = some rendered) :
    rendered.title = draft.title ∧
      rendered.cites =
        sortDedup ((draft.claims.take maxClaimsPerPage).flatMap
          DraftClaim.cites) := by
  unfold assemble at h
  split at h
  · cases h
  · cases h
    exact ⟨rfl, rfl⟩

/-! ## The sources -/

/-- A source is named by the event of the topic or of a current edge, and is
neither superseded nor retired. -/
theorem gatherFactSet_live {s : DossierState} {edgesFail : Bool}
    {entity : GraphEntity} {id : String}
    (h : id ∈ (gatherFactSet s edgesFail entity).sourceIds) :
    (∃ carrier ∈ carriers (if edgesFail then []
        else neighbors s.edges entity.entityId) entity,
      ∃ ev, eventById s.log carrier = some ev ∧ id ∈ ev.sources) ∧
      (¬ ∃ ev ∈ s.log, Supersedes id ev) ∧
      ¬ Fold.LastSets (RetiresNote id) (UnretiresNote id) s.log := by
  obtain ⟨hlineage, hlive⟩ := List.mem_filter.mp h
  rw [decide_eq_true_eq, mem_superseded_log, mem_retiredNotes_log] at hlive
  rw [mem_sortDedup, List.mem_flatMap] at hlineage
  obtain ⟨carrier, hcarrier, hid⟩ := hlineage
  refine ⟨⟨carrier, hcarrier, ?_⟩, hlive⟩
  unfold sourceIdsOfEvent at hid
  cases hev : eventById s.log carrier with
  | none => simp [hev] at hid
  | some ev =>
      refine ⟨ev, rfl, ?_⟩
      cases hmeta : ev.modelMeta with
      | none => simp [hev, hmeta] at hid
      | some m => simpa [hev, hmeta, Event.sources] using hid

/-! ## What a refresh appends -/

theorem emitPage_ok {m₁ m₂ : Mint} {log log' : EventLog} {page : Event}
    {producer : String} {sources : List String} {prior : Option String}
    {id : String} {superseded : Bool}
    (h : emitPage m₁ m₂ log page producer sources prior =
      .ok (log', id, superseded)) :
    ∃ log₁ stored, Stored m₂ log₁ page stored ∧ log' = log₁ ++ [stored] ∧
      (log₁ = log ∨ ∃ old sup, prior = some old ∧
        Stored m₁ log (supersedeEvent old producer sources) sup ∧
        log₁ = log ++ [sup]) := by
  unfold emitPage at h
  split at h
  · cases h
  cases prior with
  | none =>
      simp only [Except.map] at h
      cases happ : append m₂ log page with
      | error e => simp [happ] at h
      | ok r =>
          simp only [happ, Except.ok.injEq, Prod.mk.injEq] at h
          obtain ⟨rfl, -, -⟩ := h
          have hstored : append m₂ log page = .ok (r.1, r.2) := happ
          obtain ⟨-, stored, hs, hlog⟩ := append_ok hstored
          exact ⟨log, stored, hs, hlog, Or.inl rfl⟩
  | some old =>
      simp only [Except.map] at h
      cases happ : appendPair m₁ m₂ log (supersedeEvent old producer sources)
          page with
      | error e => simp [happ] at h
      | ok r =>
          obtain ⟨log₂, ids⟩ := r
          simp only [happ, Except.ok.injEq, Prod.mk.injEq] at h
          obtain ⟨rfl, -, -⟩ := h
          obtain ⟨log₁, hfirst, hsecond⟩ := appendPair_ok happ
          obtain ⟨-, sup, hsup, rfl⟩ := appendEventInTx_ok hfirst
          obtain ⟨-, stored, hs, hlog⟩ := appendEventInTx_ok hsecond
          exact ⟨_, stored, hs, hlog,
            Or.inr ⟨old, sup, rfl, hsup, rfl⟩⟩

/-- The page a refresh appends: the assembled floor of a draft, with the
gathered sources, where the cites are not those of the current page. -/
theorem refreshTopicPage_emitted {env : RefreshEnv} {s : DossierState}
    {entity : GraphEntity} {log' : EventLog} {superseded : Bool}
    (h : refreshTopicPage env s entity = .ok (log', .emitted superseded)) :
    let facts := gatherFactSet s env.edgesFail entity
    ∃ draft rendered log₁ stored,
      assemble (citationFloor draft facts) = some rendered ∧
        (currentPageForTopic s entity.entityId).map Prod.snd ≠
          some rendered.cites ∧
        Stored env.m₂ log₁ (pageEvent entity.entityId rendered.title
          rendered.text (((citationFloor draft facts).claims.map
            claimJson).take maxClaimsPerPage) env.modelId facts.sourceIds)
          stored ∧
        log' = log₁ ++ [stored] ∧
        (log₁ = s.log ∨ ∃ prior sup,
          currentPageForTopic s entity.entityId = some prior ∧
          Stored env.m₁ s.log
            (supersedeEvent prior.1 env.modelId facts.sourceIds) sup ∧
          log₁ = s.log ++ [sup]) := by
  intro facts
  unfold refreshTopicPage at h
  simp only at h
  split at h
  · cases h
  split at h
  · cases h
  split at h
  · cases h
  next draft _ =>
    split at h
    · cases h
    · cases h
    next rendered hrendered _ =>
      split at h
      · cases h
      next hcites =>
        split at h
        · cases h
        next log _ sup hemit =>
          cases h
          obtain ⟨log₁, stored, hs, hlog, hbefore⟩ := emitPage_ok hemit
          refine ⟨draft, rendered, log₁, stored, hrendered, hcites, hs, hlog,
            hbefore.imp_right ?_⟩
          rintro ⟨old, supEv, hold, hsup, heq⟩
          obtain ⟨prior, hprior, rfl⟩ := Option.map_eq_some_iff.mp hold
          exact ⟨prior, supEv, hprior, hsup, heq⟩

/-! ## The stored page -/

/-- Of a stored page, the claims. -/
theorem get?_claims_pageEvent {m : Mint} {log : EventLog}
    {topicId title text producer : String} {claims : List Json}
    {sources : List String} {stored : Event}
    (hs : Stored m log (pageEvent topicId title text claims producer sources)
      stored) :
    stored.content.get? "claims" = some (.arr claims) := by
  rw [hs.content_eq, stampedContent]
  split
  · rw [Json.get?_insertIfObject_ne (by decide)]
    rfl
  · rfl

theorem parsePageContent_pageEvent {m : Mint} {log : EventLog}
    {topicId title text producer : String} {claims : List Json}
    {sources : List String} {stored : Event}
    (hs : Stored m log (pageEvent topicId title text claims producer sources)
      stored) :
    parsePageContent stored.content = some (topicId, title, text) := by
  unfold parsePageContent
  rw [hs.content_eq, getStr?_stampedContent (by decide),
    getStr?_stampedContent (by decide), getStr?_stampedContent (by decide)]
  rfl

theorem stringItems_claimJson (c : DraftClaim) :
    stringItems ((claimJson c).get? "cites") = sortDedup c.cites := by
  have hget : (claimJson c).get? "cites" =
      some (.arr ((sortDedup c.cites).map Json.str)) := rfl
  rw [hget]
  simp only [stringItems, Option.bind_some, Json.asArray, Option.getD_some,
    List.filterMap_map, Function.comp_def, Json.asStr, List.filterMap_some]

/-- The cites read back from a stored page are those it was rendered with. -/
theorem sortDedup_citesOf {content : Json} {claims : List DraftClaim}
    (h : content.get? "claims" = some (.arr (claims.map claimJson))) :
    sortDedup (citesOf content) =
      sortDedup (claims.flatMap DraftClaim.cites) := by
  rw [← sortDedup_flatMap_sortDedup, citesOf, h]
  simp only [Option.bind_some, Json.asArray, Option.getD_some,
    List.flatMap_map, stringItems_claimJson]

/-! ## The current page -/

/-- The row a page event has, by its topic. -/
def pageRow (superseded : List String) : Event → Option (String × Page) :=
  countedRow pageEventType superseded fun ev =>
    (parsePageContent ev.content).map fun (topicId, title, text) =>
      (topicId, ⟨topicId, ev.id, title, text⟩)

theorem pageRow_topicId {superseded : List String} {ev : Event} {k : String}
    {p : Page} (h : pageRow superseded ev = some (k, p)) : p.topicId = k := by
  unfold pageRow countedRow at h
  split at h
  · cases h
  · obtain ⟨⟨topicId, title, text⟩, -, heq⟩ := Option.map_eq_some_iff.mp h
    cases heq
    rfl

/-- A topic has one current page at most. -/
theorem nodup_foldPages_topicId (events : List Event) :
    ((foldPages events).map Page.topicId).Nodup :=
  Fold.nodup_latest (fun _ _ _ h => pageRow_topicId h) events

/-- The last page of a log is the current one of its topic, unless an event
supersedes it. -/
theorem find?_foldPages_concat {log : EventLog} {ev : Event}
    {topicId title text : String} (htype : ev.eventType = pageEventType)
    (hparse : parsePageContent ev.content = some (topicId, title, text))
    (hlive : ∀ e ∈ log ++ [ev], ¬ Supersedes ev.id e) :
    (foldPages (pageAndSupersedeEventsOrdered (log ++ [ev]))).find?
        (fun p => p.topicId == topicId) =
      some ⟨topicId, ev.id, title, text⟩ := by
  have hordered : pageAndSupersedeEventsOrdered (log ++ [ev]) =
      pageAndSupersedeEventsOrdered log ++ [ev] := by
    have hone : eventsOfTypes [ev] [pageEventType, supersedeEventType] =
        [ev] := by
      simp [eventsOfTypes, htype]
    rw [pageAndSupersedeEventsOrdered, eventsOfTypes_append, hone]
    rfl
  have hnot : ev.id ∉ supersededTargets
      (pageAndSupersedeEventsOrdered (log ++ [ev])) := by
    intro hmem
    obtain ⟨e, he, htarget⟩ := List.mem_filterMap.mp hmem
    split at htarget
    next hsup =>
      exact hlive e (mem_eventsOfTypes.1 he).1 ⟨hsup, htarget⟩
    · cases htarget
  have hrow : pageRow (supersededTargets
      (pageAndSupersedeEventsOrdered (log ++ [ev]))) ev =
        some (topicId, ⟨topicId, ev.id, title, text⟩) := by
    rw [pageRow, countedRow, if_neg (by simp [htype, hnot]), hparse]
    rfl
  rw [hordered] at hrow ⊢
  have hat : Fold.rowAt (fun e => pageRow (supersededTargets
      (pageAndSupersedeEventsOrdered log ++ [ev])) e) topicId ev =
        some ⟨topicId, ev.id, title, text⟩ := Fold.rowAt_eq_some.2 hrow
  refine (Fold.find?_latest (fun _ _ _ h => pageRow_topicId h)
    (pageAndSupersedeEventsOrdered log ++ [ev]) topicId).trans ?_
  rw [Fold.getElem?_latestMap, List.reverse_append, List.reverse_singleton,
    List.singleton_append, List.findSome?_cons, hat]

/-! ## Refreshing again -/

/-- The claims of a stored page, each by its cites. -/
def pageClaims (page : Event) : List (List String) :=
  (((page.content.get? "claims").bind Json.asArray).getD []).map
    fun claim => stringItems (claim.get? "cites")

/-- After a page is stored and the tables are rebuilt it is the current page
of its topic, and cites what it was rendered with. -/
theorem currentPageForTopic_stored {m : Mint} {log : EventLog}
    {topicId producer : String} {sources : List String} {draft : DraftPage}
    {rendered : RenderedPage} {stored : Event}
    (parseRfc3339 : String → Option String) (s : DossierState)
    (hs : Stored m log (pageEvent topicId rendered.title rendered.text
      ((draft.claims.map claimJson).take maxClaimsPerPage) producer sources)
      stored)
    (hrendered : assemble draft = some rendered)
    (hfresh : ∀ ev ∈ log ++ [stored], ¬ Supersedes stored.id ev) :
    currentPageForTopic (({ s with log := log ++ [stored] } :
        DossierState).rebuild parseRfc3339) topicId =
      some (stored.id, rendered.cites) ∧
    rendered.cites = sortDedup (pageClaims stored).flatten := by
  have hfind := find?_foldPages_concat hs.eventType_eq
    (parsePageContent_pageEvent hs) hfresh
  have hev : eventById (log ++ [stored]) stored.id = some stored := by
    rw [eventById, List.find?_append, List.find?_eq_none.mpr]
    · simp
    · intro e he
      rw [hs.id_eq]
      simpa using hs.fresh e he
  have hclaims := get?_claims_pageEvent hs
  rw [← List.map_take] at hclaims
  have hcites : sortDedup (citesOf stored.content) = rendered.cites := by
    rw [sortDedup_citesOf hclaims, (assemble_eq_some hrendered).2]
  constructor
  · rw [currentPageForTopic]
    simp only [DossierState.rebuild, hfind, Option.map_some, hev,
      Option.getD_some, hcites]
  · rw [← hcites, citesOf, List.flatMap_def]
    rfl

/-- A refresh whose draft cites what the current page cites emits nothing. -/
theorem refreshTopicPage_again {env : RefreshEnv} {s : DossierState}
    {entity : GraphEntity} {pageId : String} {cites : List String}
    (hcurrent : currentPageForTopic s entity.entityId = some (pageId, cites))
    {log' : EventLog} {superseded : Bool}
    (hsame : ∀ draft rendered, (env.reply (buildComposePrompt
        (gatherFactSet s env.edgesFail entity).toFactSet)).bind parseDraft =
          .ok draft →
      assemble (citationFloor draft
        (gatherFactSet s env.edgesFail entity)) = some rendered →
      rendered.cites = cites) :
    refreshTopicPage env s entity ≠ .ok (log', .emitted superseded) := by
  intro h
  unfold refreshTopicPage at h
  simp only at h
  split at h
  · cases h
  split at h
  · cases h
  split at h
  · cases h
  next draft hdraft =>
    split at h
    · cases h
    · cases h
    next rendered hrendered _ =>
      have heq := hsame draft rendered hdraft hrendered
      rw [hcurrent, if_pos (by simp [heq])] at h
      cases h

/-- A refresh that does not emit leaves the log as it is. -/
theorem refreshTopicPage_quiet {env : RefreshEnv} {s : DossierState}
    {entity : GraphEntity} {log' : EventLog} {outcome : TopicRefreshOutcome}
    (h : refreshTopicPage env s entity = .ok (log', outcome))
    (hquiet : ∀ superseded, outcome ≠ .emitted superseded) :
    log' = s.log := by
  unfold refreshTopicPage at h
  simp only at h
  split at h
  · cases h; rfl
  split at h
  · cases h; rfl
  split at h
  · cases h; rfl
  split at h
  · cases h; rfl
  · cases h
  split at h
  · cases h; rfl
  split at h
  · cases h; rfl
  · cases h
    exact absurd rfl (hquiet _)

/-- The identifier is that of a page of the log. -/
def IsPageId (log : EventLog) (id : String) : Prop :=
  ∃ ev ∈ log, ev.id = id ∧ ev.eventType = pageEventType

/-- The claims of an emitted page cite facts of the gathered set. -/
theorem pageClaims_grounded {env : RefreshEnv} {s : DossierState}
    {entity : GraphEntity} {draft : DraftPage} {m : Mint} {log : EventLog}
    {title text : String} {sources : List String} {stored : Event}
    (hs : Stored m log (pageEvent entity.entityId title text
      (((citationFloor draft (gatherFactSet s env.edgesFail
        entity)).claims.map claimJson).take maxClaimsPerPage) env.modelId
      sources) stored)
    {cites : List String} (h : cites ∈ pageClaims stored) :
    cites ≠ [] ∧
      ∀ id ∈ cites, id ∈ (gatherFactSet s env.edgesFail entity).factIds := by
  rw [pageClaims, get?_claims_pageEvent hs] at h
  simp only [Option.bind_some, Json.asArray, Option.getD_some,
    List.mem_map] at h
  obtain ⟨claim, hclaim, rfl⟩ := h
  obtain ⟨c, hc, rfl⟩ := List.mem_map.mp (List.mem_of_mem_take hclaim)
  obtain ⟨-, hne, hfacts⟩ := citationFloor_grounded hc
  rw [stringItems_claimJson]
  refine ⟨fun hnil => ?_, fun id hid => hfacts id (mem_sortDedup.1 hid)⟩
  obtain ⟨id, hid⟩ := List.exists_mem_of_ne_nil _ hne
  exact List.not_mem_nil (hnil ▸ mem_sortDedup.2 hid)

/-- **Dossiers are grounded and stable.** A page a refresh emits has claims
that cite something, and facts of the gathered set only; its sources are
neither superseded nor retired, and pages only where the event of the topic
or of a current edge names one; once the tables are rebuilt, refreshing the
topic with a draft that cites what the page cites emits nothing; and a topic
has one current page at most. The identifier minted for the page is one that no event
supersedes. -/
theorem refreshTopicPage_grounded (parseRfc3339 : String → Option String)
    (env : RefreshEnv) (s : DossierState) (entity : GraphEntity)
    {log' : EventLog} {superseded : Bool}
    (h : refreshTopicPage env s entity = .ok (log', .emitted superseded))
    (hfresh : ∀ ev ∈ log', ¬ Supersedes env.m₂.id ev) :
    let s' := ({ s with log := log' } : DossierState).rebuild parseRfc3339
    ∃ page ∈ log', page.id = env.m₂.id ∧ page.eventType = pageEventType ∧
      (∀ cites ∈ pageClaims page, cites ≠ [] ∧ ∀ id ∈ cites,
        id ∈ (gatherFactSet s env.edgesFail entity).factIds) ∧
      (∀ id ∈ page.sources, (¬ ∃ ev ∈ s.log, Supersedes id ev) ∧
        ¬ Fold.LastSets (RetiresNote id) (UnretiresNote id) s.log ∧
        (IsPageId s.log id → ∃ carrier ∈ carriers (if env.edgesFail then []
            else neighbors s.edges entity.entityId) entity,
          ∃ ev, eventById s.log carrier = some ev ∧ id ∈ ev.sources)) ∧
      currentPageForTopic s' entity.entityId =
        some (page.id, sortDedup (pageClaims page).flatten) ∧
      (∀ env' log'' outcome,
        refreshTopicPage env' s' entity = .ok (log'', outcome) →
        (∀ draft rendered, (env'.reply (buildComposePrompt
            (gatherFactSet s' env'.edgesFail entity).toFactSet)).bind
              parseDraft = .ok draft →
          assemble (citationFloor draft
            (gatherFactSet s' env'.edgesFail entity)) = some rendered →
          rendered.cites = sortDedup (pageClaims page).flatten) →
        log'' = log') ∧
      ((foldPages (pageAndSupersedeEventsOrdered log')).map
        Page.topicId).Nodup := by
  intro s'
  obtain ⟨draft, rendered, log₁, page, hrendered, -, hs, rfl, -⟩ :=
    refreshTopicPage_emitted h
  obtain ⟨hcurrent, hcites⟩ := currentPageForTopic_stored parseRfc3339 s hs
    hrendered (fun ev hev => hs.id_eq ▸ hfresh ev hev)
  rw [hcites] at hcurrent
  refine ⟨page, List.mem_append_right _ List.mem_cons_self, hs.id_eq,
    hs.eventType_eq, fun cites hmem => pageClaims_grounded hs hmem,
    fun id hid => ?_, hcurrent, ?_, nodup_foldPages_topicId _⟩
  · have hsource : id ∈ (gatherFactSet s env.edgesFail entity).sourceIds := by
      rw [Event.sources, hs.modelMeta_eq] at hid
      exact hid
    obtain ⟨hcarrier, hsup, hret⟩ := gatherFactSet_live hsource
    exact ⟨hsup, hret, fun _ => hcarrier⟩
  · intro env' log'' outcome hagain hsame
    refine refreshTopicPage_quiet hagain fun b hb => ?_
    exact refreshTopicPage_again hcurrent hsame (hb ▸ hagain)

/-! ### A topic drawn from a page -/

/-- A stored event. -/
def storedAs (id : String) (event : Event) : Event := { event with id := id }

/-- A note, a page, a topic drawn from both and an edge of it. -/
def teaLog : EventLog :=
  [storedAs "m" (.draft memoryEventType (.obj [("text", .str "tea")]) none),
    storedAs "p" (.draft pageEventType (.obj [("text", .str "old")]) none),
    storedAs "e" (entityEvent "Tea" "drink" "r" ["m", "p"]),
    storedAs "l" (linkMachineEvent ⟨"entity:e", "is", "x"⟩ 900 "r" ["m"])]

def teaTopic : GraphEntity := ⟨"entity:e", "Tea", "drink"⟩

def teaState : DossierState :=
  { log := teaLog
    edges := [⟨"l", "entity:e", "is", "x", "", none, "", none, none,
      "machine", some 900⟩]
    entities := [teaTopic]
    pages := [] }

/-- The draft cites the note. -/
def teaEnv (pageId : String) : RefreshEnv :=
  { edgesFail := false
    gatherFails := false
    reply := fun _ => .ok (.obj [("title", .str "Tea"), ("claims", .arr
      [.obj [("text", .str "hot"), ("cites", .arr [.str "m"])]])])
    modelId := "r"
    priorFails := none
    m₁ := Mint.plain "s"
    m₂ := Mint.plain pageId }

/-- The dossier is drawn from a page; and refreshing again before the tables
are rebuilt emits it again. -/
theorem refreshTopicPage_before_rebuild :
    ∃ log' log'' page, refreshTopicPage (teaEnv "n") teaState teaTopic =
        .ok (log', .emitted false) ∧
      page ∈ log' ∧ page.id = "n" ∧ page.eventType = pageEventType ∧
      (∃ id ∈ page.sources, IsPageId teaState.log id) ∧
      refreshTopicPage (teaEnv "o") { teaState with log := log' } teaTopic =
        .ok (log'', .emitted false) :=
  ⟨_, _, _, rfl, List.mem_append_right _ List.mem_cons_self, rfl, rfl,
    ⟨"p", by decide, _, List.mem_cons_of_mem _ List.mem_cons_self, rfl, rfl⟩,
    rfl⟩

/-- That dossier is grounded all the same. -/
theorem refreshTopicPage_tea : ∃ log' page,
    refreshTopicPage (teaEnv "n") teaState teaTopic =
        .ok (log', .emitted false) ∧
      page ∈ log' ∧ page.id = "n" ∧
      ∀ cites ∈ pageClaims page, cites ≠ [] ∧ ∀ id ∈ cites,
        id ∈ (gatherFactSet teaState false teaTopic).factIds := by
  have hrefresh : ∃ log', refreshTopicPage (teaEnv "n") teaState teaTopic =
      .ok (log', .emitted false) ∧
      ∀ ev ∈ log', ev.eventType ≠ supersedeEventType := ⟨_, rfl, by decide⟩
  obtain ⟨log', hok, hnone⟩ := hrefresh
  obtain ⟨page, hmem, hid, -, hclaims, -⟩ := refreshTopicPage_grounded
    (fun _ => none) (teaEnv "n") teaState teaTopic hok
    fun ev hev hsup => hnone ev hev hsup.1
  exact ⟨log', page, hok, hmem, hid, hclaims⟩

end AirNote.Dossier
