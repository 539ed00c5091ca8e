import AirNote.Log

/-!
# The entity graph

The graph is a projection of the log. An `entity` event adds an entity; a
`link` event opens an assertion of an edge, and an `invalidate` event closes
every open assertion of one. Neither looks at what is open when it is appended:
an edge linked twice is open twice.

## Main results

* `activeEdges_link`, `activeEdges_invalidate`, `activeEdges_entity` — what one
  append does to the open assertions, and `foldEntities_entity` to the
  entities.
-/

namespace AirNote

def linkEventType : String := "link"
def invalidateEventType : String := "invalidate"

/-- `MANUAL_LINK_PRODUCER`. -/
def manualLinkProducer : String := "manual"

/-- An edge as the graph identifies it. -/
structure EdgeKey where
  src : String
  relation : String
  dst : String
  deriving DecidableEq, Repr

/-- `Entity`; its aliases are left out. -/
structure GraphEntity where
  entityId : String
  label : String
  entityType : String
  deriving DecidableEq, Repr

/-! ## The folds -/

/-- `parse_link_content`; the confidence is left out. -/
def parseLinkContent (content : Json) : Option EdgeKey :=
  match content.getStr? "src", content.getStr? "relation",
      content.getStr? "dst" with
  | some src, some relation, some dst => some ⟨src, relation, dst⟩
  | _, _, _ => none

/-- One event of `fold_edges`, on the assertions that are open. -/
def foldEdge (active : List EdgeKey) (event : Event) : List EdgeKey :=
  match parseLinkContent event.content with
  | none => active
  | some key =>
      if event.eventType = linkEventType then active ++ [key]
      else if event.eventType = invalidateEventType then
        active.filter fun k => k != key
      else active

/-- `active_edge_keys` on the freshly folded edges. -/
def activeEdges (log : EventLog) : List EdgeKey :=
  log.foldl foldEdge []

/-- `entity_node_id`. -/
def entityNodeId (eventId : String) : String := "entity:" ++ eventId

/-- One event of `fold_entities`. -/
def entityOf (event : Event) : Option GraphEntity :=
  if event.eventType = entityEventType then
    match event.content.getStr? "label",
        event.content.getStr? "entity_type" with
    | some label, some entityType =>
        some ⟨entityNodeId event.id, label, entityType⟩
    | _, _ => none
  else none

/-- `fold_entities`. -/
def foldEntities (log : EventLog) : List GraphEntity :=
  log.filterMap entityOf

/-! ## The events -/

/-- The event of `link_machine`. -/
def linkMachineEvent (key : EdgeKey) (confidenceMilli : Int)
    (producer : String) (sourceEventIds : List String) : Event :=
  .draft linkEventType
    (.obj [("src", .str key.src), ("relation", .str key.relation),
      ("dst", .str key.dst), ("confidence_milli", .num confidenceMilli)])
    (some ⟨producer, "", sourceEventIds⟩)

/-- The event of `invalidate`, on explicit sources. -/
def invalidateEvent (key : EdgeKey) (sourceEventIds : List String) : Event :=
  .draft invalidateEventType
    (.obj [("src", .str key.src), ("relation", .str key.relation),
      ("dst", .str key.dst)])
    (some ⟨manualLinkProducer, "", sourceEventIds⟩)

/-- The event of `entity`, minted without aliases. -/
def entityEvent (label entityType producer : String)
    (sourceEventIds : List String) : Event :=
  .draft entityEventType
    (.obj [("label", .str label), ("aliases", .arr []),
      ("entity_type", .str entityType)])
    (some ⟨producer, "", sourceEventIds⟩)

/-! ## What an append does -/

/-- The taint stamp touches no other member of a content. -/
theorem getStr?_stampedContent {log : EventLog} {event : Event} {k : String}
    (hk : k ≠ "origin") :
    (stampedContent log event).getStr? k = event.content.getStr? k := by
  unfold stampedContent
  split
  · exact Json.getStr?_insertIfObject_ne hk _ event.content
  · rfl

theorem parseLinkContent_stored {m : Mint} {log : EventLog}
    {event stored : Event} (hs : Stored m log event stored) :
    parseLinkContent stored.content = parseLinkContent event.content := by
  unfold parseLinkContent
  rw [hs.content_eq, getStr?_stampedContent (by decide),
    getStr?_stampedContent (by decide), getStr?_stampedContent (by decide)]

theorem activeEdges_concat (log : EventLog) (event : Event) :
    activeEdges (log ++ [event]) = foldEdge (activeEdges log) event := by
  rw [activeEdges, List.foldl_append, List.foldl_cons, List.foldl_nil]
  rfl

theorem activeEdges_link {m : Mint} {log : EventLog} {key : EdgeKey}
    {confidenceMilli : Int} {producer : String} {sources : List String}
    {stored : Event}
    (hs : Stored m log (linkMachineEvent key confidenceMilli producer sources)
      stored) :
    activeEdges (log ++ [stored]) = activeEdges log ++ [key] := by
  have hparse : parseLinkContent stored.content = some key :=
    parseLinkContent_stored hs
  have htype : stored.eventType = linkEventType := hs.eventType_eq
  rw [activeEdges_concat, foldEdge, hparse, htype]
  simp

theorem activeEdges_invalidate {m : Mint} {log : EventLog} {key : EdgeKey}
    {sources : List String} {stored : Event}
    (hs : Stored m log (invalidateEvent key sources) stored) :
    activeEdges (log ++ [stored]) =
      (activeEdges log).filter fun k => k != key := by
  have hparse : parseLinkContent stored.content = some key :=
    parseLinkContent_stored hs
  have htype : stored.eventType = invalidateEventType := hs.eventType_eq
  rw [activeEdges_concat, foldEdge, hparse, htype]
  simp [invalidateEventType, linkEventType]

theorem activeEdges_entity {m : Mint} {log : EventLog}
    {label entityType producer : String} {sources : List String}
    {stored : Event}
    (hs : Stored m log (entityEvent label entityType producer sources)
      stored) : activeEdges (log ++ [stored]) = activeEdges log := by
  have hparse : parseLinkContent stored.content = none :=
    parseLinkContent_stored hs
  rw [activeEdges_concat, foldEdge, hparse]

theorem foldEntities_concat (log : EventLog) (event : Event) :
    foldEntities (log ++ [event]) =
      foldEntities log ++ (entityOf event).toList := by
  rw [foldEntities, List.filterMap_append]
  cases hentity : entityOf event with
  | none => simp [hentity, foldEntities]
  | some entity => simp [hentity, foldEntities]

theorem foldEntities_entity {m : Mint} {log : EventLog}
    {label entityType producer : String} {sources : List String}
    {stored : Event}
    (hs : Stored m log (entityEvent label entityType producer sources)
      stored) :
    foldEntities (log ++ [stored]) =
      foldEntities log ++ [⟨entityNodeId m.id, label, entityType⟩] := by
  have htype : stored.eventType = entityEventType := hs.eventType_eq
  have hlabel : stored.content.getStr? "label" = some label := by
    rw [hs.content_eq, getStr?_stampedContent (by decide)]
    rfl
  have hkind : stored.content.getStr? "entity_type" = some entityType := by
    rw [hs.content_eq, getStr?_stampedContent (by decide)]
    rfl
  rw [foldEntities_concat, entityOf, if_pos htype, hlabel, hkind, hs.id_eq]
  rfl

theorem foldEntities_of_ne {m : Mint} {log : EventLog} {event stored : Event}
    (hs : Stored m log event stored) (hne : event.eventType ≠ entityEventType) :
    foldEntities (log ++ [stored]) = foldEntities log := by
  rw [foldEntities_concat, entityOf, hs.eventType_eq, if_neg hne,
    Option.toList_none, List.append_nil]

end AirNote
