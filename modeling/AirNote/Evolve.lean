import AirNote.Graph
import AirNote.Proposals

/-!
# A tick of the evolve loop

A tick reads the memories behind its cursor and, one after another, asks the
reasoner for entities and relations, resolves every mention to an entity or
mints one, lets the reasoner strike what it cannot confirm, and appends the
invalidations and links that remain. What is already linked it takes from the
edges as they were folded when the tick began, and keeps up to date itself.
When the batch is over it folds the graph and moves the cursor.

Each append, each answer and each of the last two steps may fail, and the
process may stop between any two of them. The answers of the reasoner and of
the resolution are labels of the steps. The summaries and mandates that follow
in the same call touch neither the graph nor this cursor and are left out, as
is the off-switch, under which the tick does not begin.

## Main results

* `intersectKeepFloor_relations`, `intersectKeepFloor_retractions` — what is
  kept was proposed.
-/

namespace AirNote

/-! ## What the reasoner proposes -/

/-- `ProposedEntity`, what the loop reads of it. -/
structure ProposedEntity where
  mention : String
  entityType : String
  deriving DecidableEq, Repr

/-- `ProposedRelation`; the confidence in thousandths. -/
structure ProposedRelation where
  src : String
  relation : String
  dst : String
  confidence : Int
  supportedBy : String
  deriving DecidableEq, Repr

/-- `ProposedRetraction`, by mentions. -/
structure MentionRetraction where
  src : String
  relation : String
  dst : String
  reason : String
  confidence : Int
  deriving DecidableEq, Repr

/-- `Proposals`. -/
structure ExtractProposals where
  entities : List ProposedEntity
  relations : List ProposedRelation
  retractions : List MentionRetraction
  deriving DecidableEq, Repr

def ProposedRelation.mentions (r : ProposedRelation) : EdgeKey :=
  ⟨r.src, r.relation, r.dst⟩

def MentionRetraction.mentions (r : MentionRetraction) : EdgeKey :=
  ⟨r.src, r.relation, r.dst⟩

/-- The characters that fit in a number of bytes. -/
def takeBytes : Nat → List Char → List Char
  | _, [] => []
  | room, c :: rest =>
      if c.utf8Size ≤ room then c :: takeBytes (room - c.utf8Size) rest else []

/-- `truncate_for_reasoner`. -/
def truncateForReasoner (text : String) : String :=
  if text.utf8ByteSize ≤ maxInputTextBytes then text
  else String.ofList (takeBytes maxInputTextBytes text.toList)

/-- `verify_floor`. -/
def verifyFloor (proposals : ExtractProposals) (source : String) :
    ExtractProposals :=
  { proposals with
    relations := proposals.relations.filter fun r =>
      containsText r.supportedBy source.toList }

/-- The confidence the critique gives an item, the last one where it repeats
it. -/
def critiqueConfidence (items : List (EdgeKey × Int)) (key : EdgeKey) :
    Option Int :=
  ((items.filter fun item => item.1 == key).getLast?).map Prod.snd

/-- `intersect_keep_floor`. -/
def intersectKeepFloor (floor critique : ExtractProposals) :
    ExtractProposals :=
  { floor with
    relations := floor.relations.filterMap fun r =>
      (critiqueConfidence
        (critique.relations.map fun c => (c.mentions, c.confidence))
        r.mentions).map fun conf => { r with confidence := min r.confidence conf }
    retractions := floor.retractions.filterMap fun r =>
      (critiqueConfidence
        (critique.retractions.map fun c => (c.mentions, c.confidence))
        r.mentions).map fun conf => { r with confidence := min r.confidence conf } }

/-- `critique_with_reasoner`, on the critique the reasoner answers. -/
def critiqueWithReasoner (source : String)
    (proposals critique : ExtractProposals) : ExtractProposals :=
  intersectKeepFloor (verifyFloor proposals source) critique

/-- `confirm_retractions`. -/
def confirmRetractions (retractions active : List EdgeKey) : List EdgeKey :=
  retractions.filter fun r => active.contains r

/-- `MAX_ENTITIES_PER_MEMORY`. -/
def maxEntitiesPerMemory : Nat := 32

/-- `UNRESOLVED_ENTITY_TYPE`. -/
def unresolvedEntityType : String := "unknown"

/-- `resolve_work`: every mention with the type it is minted with. -/
def resolveWork (proposals : ExtractProposals) : List (String × String) :=
  (proposals.entities.take maxEntitiesPerMemory).map
      (fun e => (e.mention, e.entityType)) ++
    ((proposals.relations.flatMap fun r => [r.src, r.dst]) ++
      (proposals.retractions.flatMap fun r => [r.src, r.dst])).map
      fun m => (m, unresolvedEntityType)

/-- `map_mention`. -/
def mapMention (mentionToId : List (String × String)) (mention : String) :
    String :=
  (mentionToId.lookup mention).getD mention

def EdgeKey.remap (mentionToId : List (String × String)) (key : EdgeKey) :
    EdgeKey :=
  ⟨mapMention mentionToId key.src, key.relation,
    mapMention mentionToId key.dst⟩

/-! ## The queue -/

/-- A memory behind the cursor. -/
structure QueuedMemory where
  seq : Nat
  id : String
  text : String
  deriving DecidableEq, Repr

/-- `EVOLVE_BATCH`. -/
def evolveBatch : Nat := 16

/-- The extractable events with their sequence numbers. -/
def extractable (log : EventLog) : List (Event × Nat) :=
  (log.zipIdx 1).filter fun p =>
    p.1.eventType == memoryEventType || p.1.eventType == fileIngestedEventType

/-- The row of an event that has a text. -/
def queuedMemory (p : Event × Nat) : Option QueuedMemory :=
  (p.1.content.getStr? "text").map fun text => ⟨p.2, p.1.id, text⟩

/-- `unprocessed_extractable_since`: the limit is on the events, with and
without a text. -/
def unprocessedExtractableSince (log : EventLog) (cursor limit : Nat) :
    List QueuedMemory :=
  (((extractable log).filter fun p => p.2 > cursor).take limit).filterMap
    queuedMemory

/-- All memories behind the cursor. -/
def evolveQueue (log : EventLog) (cursor : Nat) : List QueuedMemory :=
  ((extractable log).filter fun p => p.2 > cursor).filterMap queuedMemory

/-! ## The tick -/

/-- Where a tick is; its current memory is the head of the batch. In
`minting` an entity event is appended and its vector not stored yet. -/
inductive TickPhase where
  | next
  | resolving (readSet : List String) (proposals : ExtractProposals)
      (work : List (String × String)) (mentionToId : List (String × String))
  | minting (readSet : List String) (proposals : ExtractProposals)
      (mention entityId : String) (work : List (String × String))
      (mentionToId : List (String × String))
  | emitting (readSet : List String) (retractions : List EdgeKey)
      (links : List (EdgeKey × Int))
  | folding
  | advancing

/-- The variables of `evolve_once`; `wrote` tells whether it has counted a
mint, a link or an invalidation, and `index` lists the entities of the
resolution index, rebuilt as the tick begins. -/
structure EvolveTick where
  batch : List QueuedMemory
  activeKeys : List EdgeKey
  cache : List (String × String)
  index : List String
  committed : Nat
  wrote : Bool
  phase : TickPhase

/-- The tables `rebuild_graph` folds that the loop reads. -/
structure GraphTables where
  edges : List EdgeKey
  entities : List GraphEntity

def foldGraph (log : EventLog) : GraphTables :=
  ⟨activeEdges log, foldEntities log⟩

/-- The log, the cursor, the folded tables, the entities with a resolution
vector, and the tick. `minted` lists the entities the ticks have minted, by
identifier and label, `retired` the edges they have invalidated. -/
structure EvolveState where
  log : EventLog
  cursor : Nat
  graph : GraphTables
  vectors : List String
  tick : Option EvolveTick
  minted : List (String × String)
  retired : List EdgeKey

def EvolveState.opened (log : EventLog) (cursor : Nat)
    (vectors : List String) : EvolveState :=
  { log := log
    cursor := cursor
    graph := foldGraph log
    vectors := vectors
    tick := none
    minted := []
    retired := [] }

/-- What `resolve_mention` answers, with the mint of a new entity. -/
inductive Resolved where
  | merge (entityId : String)
  | mint (m : Mint)

/-- The name a node has for Pass B: the mention of this memory, else the
entity's label, else its identifier. -/
def nodeName (graph : GraphTables) (mentionToId : List (String × String))
    (id : String) : String :=
  match mentionToId.find? fun p => p.2 == id with
  | some p => p.1
  | none =>
      match graph.entities.find? fun e => e.entityId == id with
      | some e => e.label
      | none => id

/-- `neighborhood_lines`, as edges between names. -/
def neighborhood (graph : GraphTables)
    (mentionToId : List (String × String)) : List EdgeKey :=
  ((graph.edges.filter fun k =>
      mentionToId.any fun p => p.2 == k.src || p.2 == k.dst).map fun k =>
    ⟨nodeName graph mentionToId k.src, k.relation,
      nodeName graph mentionToId k.dst⟩).dedup

/-! ## The steps -/

def EvolveState.put (σ : EvolveState) (tick : EvolveTick) : EvolveState :=
  { σ with tick := some tick }

/-- The tick ends with an error. -/
def EvolveState.abort (σ : EvolveState) : EvolveState :=
  { σ with tick := none }

/-- `evolve_once` begins; the daemon has rebuilt the resolution index. -/
def EvolveState.begin (σ : EvolveState) : EvolveState :=
  match σ.tick with
  | some _ => σ
  | none =>
      σ.put
        { batch := unprocessedExtractableSince σ.log σ.cursor evolveBatch
          activeKeys := σ.graph.edges
          cache := []
          index := σ.vectors
          committed := σ.cursor
          wrote := false
          phase := .next }

/-- Pass A on the next memory; where the reasoner fails, and where there is no
next memory, the batch is over. -/
def EvolveState.propose (σ : EvolveState) (recalled : List String)
    (answer : Option ExtractProposals) : EvolveState :=
  match σ.tick with
  | some tick =>
      match tick.phase, tick.batch, answer with
      | .next, memory :: _, some proposals =>
          let readSet := memory.id :: recalled.filter fun id => id != memory.id
          σ.put { tick with
            phase := .resolving readSet proposals (resolveWork proposals) [] }
      | .next, _, _ => σ.put { tick with phase := .folding }
      | _, _, _ => σ
  | none => σ

/-- The next mention is resolved, unless it is known in this memory or in this
tick; a new entity is appended. -/
def EvolveState.resolveMention (producer : String) (σ : EvolveState)
    (answer : Resolved) : EvolveState :=
  match σ.tick with
  | some tick =>
      match tick.phase with
      | .resolving readSet proposals ((mention, entityType) :: work) ids =>
          match ids.lookup mention, tick.cache.lookup mention, answer with
          | some _, _, _ =>
              σ.put { tick with phase := .resolving readSet proposals work ids }
          | none, some id, _ =>
              σ.put { tick with
                phase := .resolving readSet proposals work
                  ((mention, id) :: ids) }
          | none, none, .merge id =>
              σ.put { tick with
                cache := (mention, id) :: tick.cache
                phase := .resolving readSet proposals work
                  ((mention, id) :: ids) }
          | none, none, .mint m =>
              match append m σ.log
                  (entityEvent mention entityType producer readSet) with
              | .error _ => σ.abort
              | .ok (log, id) =>
                  { σ.put { tick with
                      phase := .minting readSet proposals mention
                        (entityNodeId id) work ids } with
                    log := log
                    minted := (entityNodeId id, mention) :: σ.minted }
      | _ => σ
  | none => σ

/-- `derive_entity_vector` stores the vector of the new entity. -/
def EvolveState.deriveEntityVector (σ : EvolveState) : EvolveState :=
  match σ.tick with
  | some tick =>
      match tick.phase with
      | .minting readSet proposals mention id work ids =>
          { σ.put { tick with
              cache := (mention, id) :: tick.cache
              wrote := true
              phase := .resolving readSet proposals work
                ((mention, id) :: ids) } with
            vectors := id :: σ.vectors }
      | _ => σ
  | none => σ

/-- Pass B, with every mention resolved; where the reasoner fails, the batch is
over. -/
def EvolveState.critique (σ : EvolveState)
    (answer : Option ExtractProposals) : EvolveState :=
  match σ.tick with
  | some tick =>
      match tick.phase, tick.batch, answer with
      | .resolving readSet proposals [] ids, memory :: _, some critique =>
          let refined := critiqueWithReasoner (truncateForReasoner memory.text)
            proposals critique
          let retractions := refined.retractions.map fun r => r.mentions.remap ids
          let links := refined.relations.map fun r =>
            (r.mentions.remap ids, r.confidence)
          σ.put { tick with
            phase := .emitting readSet
              (confirmRetractions retractions tick.activeKeys) links }
      | .resolving _ _ [] _, _, _ => σ.put { tick with phase := .folding }
      | _, _, _ => σ
  | none => σ

/-- The next invalidation or link is appended, unless it is linked already;
after the last one the memory is done. -/
def EvolveState.emit (producer : String) (σ : EvolveState) (m : Mint) :
    EvolveState :=
  match σ.tick with
  | some tick =>
      match tick.phase with
      | .emitting readSet (key :: retractions) links =>
          match append m σ.log (invalidateEvent key readSet) with
          | .error _ => σ.abort
          | .ok (log, _) =>
              { σ.put { tick with
                  activeKeys := tick.activeKeys.filter fun k => k != key
                  wrote := true
                  phase := .emitting readSet retractions links } with
                log := log
                retired := key :: σ.retired }
      | .emitting readSet [] ((key, confidence) :: links) =>
          if tick.activeKeys.contains key then
            σ.put { tick with phase := .emitting readSet [] links }
          else
            match append m σ.log
                (linkMachineEvent key confidence producer readSet) with
            | .error _ => σ.abort
            | .ok (log, _) =>
                { σ.put { tick with
                    activeKeys := key :: tick.activeKeys
                    wrote := true
                    phase := .emitting readSet [] links } with
                  log := log }
      | .emitting _ [] [] =>
          match tick.batch with
          | memory :: rest =>
              σ.put { tick with
                batch := rest
                committed := memory.seq
                phase := .next }
          | [] => σ
      | _ => σ
  | none => σ

/-- The graph is folded, if anything was written. -/
def EvolveState.fold (σ : EvolveState) : EvolveState :=
  match σ.tick with
  | some tick =>
      match tick.phase with
      | .folding =>
          { σ.put { tick with phase := .advancing } with
            graph := if tick.wrote then foldGraph σ.log else σ.graph }
      | _ => σ
  | none => σ

/-- The cursor moves to the last memory done, and the tick is over. -/
def EvolveState.advance (σ : EvolveState) : EvolveState :=
  match σ.tick with
  | some tick =>
      match tick.phase with
      | .advancing =>
          { σ.abort with
            cursor :=
              if tick.committed > σ.cursor then tick.committed else σ.cursor }
      | _ => σ
  | none => σ

/-- `rebuild_graph` between two ticks: the daemon calls it after a tick that
ended without an error, and when a recall finds the index out of date. -/
def EvolveState.rebuild (σ : EvolveState) : EvolveState :=
  match σ.tick with
  | some _ => σ
  | none => { σ with graph := foldGraph σ.log }

/-- One step. After `crash` the daemon has opened the log again, and folds the
graph before its first tick. -/
inductive EvolveStep where
  | begin
  | propose (recalled : List String) (answer : Option ExtractProposals)
  | resolve (answer : Resolved)
  | deriveVector
  | critique (answer : Option ExtractProposals)
  | emit (m : Mint)
  | fold
  | advance
  | rebuild
  | fail
  | crash

def EvolveState.exec (producer : String) (σ : EvolveState) :
    EvolveStep → EvolveState
  | .begin => σ.begin
  | .propose recalled answer => σ.propose recalled answer
  | .resolve answer => σ.resolveMention producer answer
  | .deriveVector => σ.deriveEntityVector
  | .critique answer => σ.critique answer
  | .emit m => σ.emit producer m
  | .fold => σ.fold
  | .advance => σ.advance
  | .rebuild => σ.rebuild
  | .fail => σ.abort
  | .crash => { σ.abort with graph := foldGraph σ.log }

/-! ## What Pass B keeps -/

theorem intersectKeepFloor_relations {floor critique : ExtractProposals}
    {r : ProposedRelation}
    (h : r ∈ (intersectKeepFloor floor critique).relations) :
    ∃ p ∈ floor.relations, p.mentions = r.mentions := by
  obtain ⟨p, hp, hmap⟩ := List.mem_filterMap.mp h
  obtain ⟨conf, -, rfl⟩ := Option.map_eq_some_iff.mp hmap
  exact ⟨p, hp, rfl⟩

theorem intersectKeepFloor_retractions {floor critique : ExtractProposals}
    {r : MentionRetraction}
    (h : r ∈ (intersectKeepFloor floor critique).retractions) :
    ∃ p ∈ floor.retractions, p.mentions = r.mentions := by
  obtain ⟨p, hp, hmap⟩ := List.mem_filterMap.mp h
  obtain ⟨conf, -, rfl⟩ := Option.map_eq_some_iff.mp hmap
  exact ⟨p, hp, rfl⟩

theorem critiqueWithReasoner_relations {source : String}
    {proposals critique : ExtractProposals} {r : ProposedRelation}
    (h : r ∈ (critiqueWithReasoner source proposals critique).relations) :
    ∃ p ∈ proposals.relations, p.mentions = r.mentions := by
  obtain ⟨p, hp, hmentions⟩ := intersectKeepFloor_relations h
  exact ⟨p, (List.mem_filter.mp hp).1, hmentions⟩

theorem critiqueWithReasoner_retractions {source : String}
    {proposals critique : ExtractProposals} {r : MentionRetraction}
    (h : r ∈ (critiqueWithReasoner source proposals critique).retractions) :
    ∃ p ∈ proposals.retractions, p.mentions = r.mentions :=
  intersectKeepFloor_retractions h

end AirNote
