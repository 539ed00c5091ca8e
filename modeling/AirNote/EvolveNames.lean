import AirNote.Evolve
import AirNote.Lib.Replay
import AirNote.Lib.Trace

/-!
# Runs of the evolve loop, up to names

An entity that is minted has an identifier of its own in every run, so that two
runs are compared by names: an entity goes by the mention it was minted for,
and a node that the ticks have not minted by its identifier.

The reasoner sees the edges folded so far, and a mention may resolve to an
entity that an interrupted tick has minted, so its answers may differ from run
to run. A judgement says what they are where they depend on the memory alone.

## Main results

* `evolveQueue_at` — what the cursor at a memory leaves in the queue.
* `MintInv` — what the entities minted so far are.
* `EvolveState.NamedKey.nameEdge`, `EvolveState.NamedKey.inj` — a known edge
  has its name, and is the only one of that name.
-/

namespace AirNote

open Lib.Trace Lib.Replay

/-! ## Answers -/

/-- What the reasoner answers on a text, and the entity of the log that a
mention stands for. -/
structure Judgement where
  proposes : String → ExtractProposals
  critiques : String → ExtractProposals
  stands : String → Option String

/-- What is proposed about a memory. -/
def Judgement.proposals (J : Judgement) (memory : QueuedMemory) :
    ExtractProposals :=
  J.proposes (truncateForReasoner memory.text)

/-- What Pass B keeps of it. -/
def Judgement.refined (J : Judgement) (memory : QueuedMemory) :
    ExtractProposals :=
  critiqueWithReasoner (truncateForReasoner memory.text) (J.proposals memory)
    (J.critiques (truncateForReasoner memory.text))

/-- The identifier is new: no event names it. -/
def EvolveState.Unused (σ : EvolveState) (J : Judgement) (id : String) : Prop :=
  (∀ ev ∈ σ.log, ∀ k, parseLinkContent ev.content = some k →
    k.src ≠ id ∧ k.dst ≠ id) ∧
  (∀ e ∈ foldEntities σ.log, e.entityId ≠ id) ∧
  id ∉ σ.vectors ∧ ∀ mention, J.stands mention ≠ some id

/-- What the resolution answers on a mention: the entity it stands for, else
the one the index has of an earlier mint of the same mention, else a new one. -/
def Judgement.Resolves (J : Judgement) (σ : EvolveState) (tick : EvolveTick)
    (mention : String) (answer : Resolved) : Prop :=
  match J.stands mention with
  | some id => answer = .merge id
  | none =>
      (∃ id ∈ tick.index, (id, mention) ∈ σ.minted ∧ answer = .merge id) ∨
      ((∀ id ∈ tick.index, (id, mention) ∉ σ.minted) ∧
        ∃ m, answer = .mint m ∧ σ.Unused J (entityNodeId m.id))

/-- The answers of a step are those of the judgement, where there is one. -/
def Steady (J : Judgement) (σ : EvolveState) : EvolveStep → Prop
  | .propose _ answer => ∀ tick memory rest, σ.tick = some tick →
      tick.batch = memory :: rest → ∀ p, answer = some p →
        p = J.proposals memory
  | .critique answer => ∀ tick memory rest, σ.tick = some tick →
      tick.batch = memory :: rest → ∀ p, answer = some p →
        p = J.critiques (truncateForReasoner memory.text)
  | .resolve answer => ∀ tick readSet proposals mention entityType work ids,
      σ.tick = some tick →
      tick.phase =
        .resolving readSet proposals ((mention, entityType) :: work) ids →
      ids.lookup mention = none → tick.cache.lookup mention = none →
      J.Resolves σ tick mention answer
  | _ => True

/-- The step does not cut off a tick. -/
def Uncut (producer : String) (σ : EvolveState) (step : EvolveStep) : Prop :=
  step ≠ .fail ∧ step ≠ .crash ∧ (step ≠ .advance → σ.tick ≠ none →
    (σ.exec producer step).tick ≠ none)

/-- A tick begins on the graph as it stands. -/
def Folded (σ : EvolveState) (step : EvolveStep) : Prop :=
  step = .begin → σ.graph.edges = activeEdges σ.log

/-! ## Names -/

/-- A node of the graph: an identifier the ticks have not minted, or the
mention an entity was minted for. -/
inductive NodeName where
  | node (id : String)
  | mention (text : String)
  deriving DecidableEq, Repr

structure NamedEdge where
  src : NodeName
  relation : String
  dst : NodeName
  deriving DecidableEq, Repr

def EvolveState.nameOf (σ : EvolveState) (id : String) : NodeName :=
  match σ.minted.lookup id with
  | some mention => .mention mention
  | none => .node id

def EvolveState.nameEdge (σ : EvolveState) (k : EdgeKey) : NamedEdge :=
  ⟨σ.nameOf k.src, k.relation, σ.nameOf k.dst⟩

/-- The entities of the log. -/
def EvolveState.currentEntities (σ : EvolveState) : List NodeName :=
  (foldEntities σ.log).map fun e => σ.nameOf e.entityId

/-- The edges that are not invalidated. -/
def EvolveState.currentEdges (σ : EvolveState) : List NamedEdge :=
  (activeEdges σ.log).map σ.nameEdge

/-- The edges that were invalidated. -/
def EvolveState.retiredEdges (σ : EvolveState) : List NamedEdge :=
  σ.retired.map σ.nameEdge

/-- No tick is running and the queue is empty. -/
def Drained (σ : EvolveState) : Prop :=
  σ.tick = none ∧ evolveQueue σ.log σ.cursor = []

/-! ## The queue -/

theorem extractable_append {m : Mint} {log : EventLog} {event stored : Event}
    (hs : Stored m log event stored)
    (hmemory : event.eventType ≠ memoryEventType)
    (hfile : event.eventType ≠ fileIngestedEventType) :
    extractable (log ++ [stored]) = extractable log := by
  unfold extractable
  rw [List.zipIdx_append, List.filter_append]
  have hnone : ([stored].zipIdx (1 + log.length)).filter (fun p =>
      p.1.eventType == memoryEventType ||
        p.1.eventType == fileIngestedEventType) = [] := by
    simp [hs.eventType_eq, hmemory, hfile]
  rw [hnone, List.append_nil]

theorem evolveQueue_append {m : Mint} {log : EventLog} {event stored : Event}
    (hs : Stored m log event stored)
    (hmemory : event.eventType ≠ memoryEventType)
    (hfile : event.eventType ≠ fileIngestedEventType) (cursor : Nat) :
    evolveQueue (log ++ [stored]) cursor = evolveQueue log cursor := by
  rw [evolveQueue, extractable_append hs hmemory hfile, evolveQueue]

/-- The batch is the front of the queue. -/
theorem batch_prefix (log : EventLog) (cursor limit : Nat) :
    ∃ beyond, evolveQueue log cursor =
      unprocessedExtractableSince log cursor limit ++ beyond := by
  refine ⟨(((extractable log).filter fun p => p.2 > cursor).drop
    limit).filterMap queuedMemory, ?_⟩
  rw [unprocessedExtractableSince, ← List.filterMap_append,
    List.take_append_drop]
  rfl

theorem extractable_pairwise (log : EventLog) :
    (extractable log).Pairwise fun p q => p.2 < q.2 := by
  refine List.Pairwise.filter _ ?_
  rw [← List.pairwise_map (f := Prod.snd) (R := (· < ·)), List.zipIdx_map_snd]
  exact List.pairwise_lt_range'

theorem queuedMemory_seq {p : Event × Nat} {memory : QueuedMemory}
    (h : queuedMemory p = some memory) : memory.seq = p.2 := by
  obtain ⟨text, -, rfl⟩ := Option.map_eq_some_iff.mp h
  rfl

theorem evolveQueue_pairwise (log : EventLog) (cursor : Nat) :
    (evolveQueue log cursor).Pairwise fun a b => a.seq < b.seq := by
  unfold evolveQueue
  rw [List.pairwise_filterMap]
  refine List.Pairwise.imp ?_ ((extractable_pairwise log).filter _)
  intro p q hpq a ha b hb
  rw [queuedMemory_seq ha, queuedMemory_seq hb]
  exact hpq

theorem seq_of_mem_evolveQueue {log : EventLog} {cursor : Nat}
    {memory : QueuedMemory} (h : memory ∈ evolveQueue log cursor) :
    cursor < memory.seq := by
  obtain ⟨p, hp, hmemory⟩ := List.mem_filterMap.mp h
  rw [queuedMemory_seq hmemory]
  simpa using (List.mem_filter.mp hp).2

/-- A later cursor leaves what is behind it. -/
theorem evolveQueue_later (log : EventLog) {cursor later : Nat}
    (hle : cursor ≤ later) :
    evolveQueue log later =
      (evolveQueue log cursor).filter fun memory => memory.seq > later := by
  unfold evolveQueue
  rw [List.filter_filterMap]
  have hfilter : ((extractable log).filter fun p => p.2 > later) =
      ((extractable log).filter fun p => p.2 > cursor).filter fun p =>
        p.2 > later := by
    rw [List.filter_filter]
    refine List.filter_congr ?_
    intro p _
    by_cases hlater : p.2 > later
    · have hcursor : p.2 > cursor := by omega
      simp [hlater, hcursor]
    · simp [hlater]
  rw [hfilter, List.filterMap_filter]
  refine List.filterMap_congr ?_
  intro p _
  cases hmemory : queuedMemory p with
  | none => simp
  | some memory =>
      rw [← queuedMemory_seq hmemory]
      by_cases hlater : memory.seq > later
      · simp [hlater, Option.filter]
      · simp [hlater, Option.filter]

/-- The cursor at a memory leaves the memories after it. -/
theorem evolveQueue_at {log : EventLog} {cursor : Nat}
    {done rest : List QueuedMemory} {memory : QueuedMemory}
    (h : evolveQueue log cursor = done ++ memory :: rest) :
    evolveQueue log memory.seq = rest := by
  have hsorted := evolveQueue_pairwise log cursor
  rw [h, List.pairwise_append] at hsorted
  obtain ⟨-, hrest, hdone⟩ := hsorted
  have hmem : memory ∈ evolveQueue log cursor := by
    rw [h]
    simp
  rw [evolveQueue_later log (Nat.le_of_lt (seq_of_mem_evolveQueue hmem)), h,
    List.filter_append]
  have hbefore : (done.filter fun a => a.seq > memory.seq) = [] := by
    rw [List.filter_eq_nil_iff]
    intro a ha
    have hlt := hdone a ha memory List.mem_cons_self
    simp
    omega
  have hafter : ((memory :: rest).filter fun a => a.seq > memory.seq) =
      rest := by
    rw [List.filter_cons_of_neg (by simp), List.filter_eq_self]
    intro a ha
    simpa using List.rel_of_pairwise_cons hrest ha
  rw [hbefore, hafter, List.nil_append]

/-! ## Names of known nodes -/

/-- The log names the node in a link or as an entity. -/
def LogNames (log : EventLog) (id : String) : Prop :=
  (∃ ev ∈ log, ∃ k, parseLinkContent ev.content = some k ∧
    (k.src = id ∨ k.dst = id)) ∨ ∃ e ∈ foldEntities log, e.entityId = id

/-- The node has the name: it was there, or was minted with its vector stored.
-/
def EvolveState.Named (σ : EvolveState) (J : Judgement) (log : EventLog)
    (id : String) : NodeName → Prop
  | .node i => i = id ∧ (LogNames log id ∨ ∃ x, J.stands x = some id)
  | .mention x => (id, x) ∈ σ.minted ∧ id ∈ σ.vectors

def EvolveState.NamedKey (σ : EvolveState) (J : Judgement) (log : EventLog)
    (k : EdgeKey) (κ : NamedEdge) : Prop :=
  σ.Named J log k.src κ.src ∧ k.relation = κ.relation ∧
    σ.Named J log k.dst κ.dst

/-- What was minted: entities of the log under new identifiers, with one vector
at most for each mention, which stands for no entity that was there. -/
structure MintInv (J : Judgement) (log : EventLog) (σ : EvolveState) :
    Prop where
  unique : ∀ p ∈ σ.minted, ∀ q ∈ σ.minted, p.1 = q.1 → p = q
  vector : ∀ p ∈ σ.minted, ∀ q ∈ σ.minted, p.2 = q.2 →
    p.1 ∈ σ.vectors → q.1 ∈ σ.vectors → p.1 = q.1
  fresh : ∀ p ∈ σ.minted, ¬ LogNames log p.1 ∧ J.stands p.2 = none ∧
    ∀ x, J.stands x ≠ some p.1
  entities : ∀ id, (∃ e ∈ foldEntities σ.log, e.entityId = id) ↔
    (∃ e ∈ foldEntities log, e.entityId = id) ∨ ∃ p ∈ σ.minted, p.1 = id

variable {J : Judgement} {log : EventLog} {σ σ' : EvolveState}

theorem nameOf_of_not_minted {id : String} (h : ∀ p ∈ σ.minted, p.1 ≠ id) :
    σ.nameOf id = .node id := by
  unfold EvolveState.nameOf
  have hnone : σ.minted.lookup id = none := by
    rw [List.lookup_eq_none_iff]
    intro p hp
    simpa using fun heq => h p hp heq.symm
  rw [hnone]

theorem MintInv.nameOf_minted (h : MintInv J log σ) {id x : String}
    (hmem : (id, x) ∈ σ.minted) : σ.nameOf id = .mention x := by
  unfold EvolveState.nameOf
  cases hlookup : σ.minted.lookup id with
  | none =>
      rw [List.lookup_eq_none_iff] at hlookup
      have hne := hlookup (id, x) hmem
      simp at hne
  | some y =>
      obtain ⟨l₁, l₂, hsplit, -⟩ := List.lookup_eq_some_iff.mp hlookup
      have hy : (id, y) ∈ σ.minted := by
        rw [hsplit]
        simp
      have hsame := h.unique (id, y) hy (id, x) hmem rfl
      rw [(Prod.mk.inj hsame).2]

theorem EvolveState.Named.nameOf (hmint : MintInv J log σ) {id : String}
    {n : NodeName} (h : σ.Named J log id n) : σ.nameOf id = n := by
  cases n with
  | node i =>
      obtain ⟨rfl, hknown⟩ := h
      refine nameOf_of_not_minted ?_
      intro p hp hpid
      obtain ⟨hlog, -, hstands⟩ := hmint.fresh p hp
      rw [hpid] at hlog hstands
      rcases hknown with hnames | ⟨x, hx⟩
      · exact hlog hnames
      · exact hstands x hx
  | mention x => exact hmint.nameOf_minted h.1

/-- Known nodes of one name are one node. -/
theorem EvolveState.Named.inj (hmint : MintInv J log σ) {id id' : String}
    {n : NodeName} (h : σ.Named J log id n) (h' : σ.Named J log id' n) :
    id = id' := by
  cases n with
  | node i => exact h.1.symm.trans h'.1
  | mention x =>
      exact hmint.vector (id, x) h.1 (id', x) h'.1 rfl h.2 h'.2

theorem EvolveState.Named.mono {id : String} {n : NodeName}
    (h : σ.Named J log id n) (hminted : ∀ p ∈ σ.minted, p ∈ σ'.minted)
    (hvectors : ∀ i ∈ σ.vectors, i ∈ σ'.vectors) : σ'.Named J log id n := by
  cases n with
  | node i => exact h
  | mention x => exact ⟨hminted _ h.1, hvectors _ h.2⟩

theorem EvolveState.NamedKey.nameEdge (hmint : MintInv J log σ) {k : EdgeKey}
    {κ : NamedEdge} (h : σ.NamedKey J log k κ) : σ.nameEdge k = κ := by
  obtain ⟨hsrc, hrelation, hdst⟩ := h
  rw [EvolveState.nameEdge, hsrc.nameOf hmint, hrelation, hdst.nameOf hmint]

theorem EvolveState.NamedKey.inj (hmint : MintInv J log σ) {k k' : EdgeKey}
    {κ : NamedEdge} (h : σ.NamedKey J log k κ) (h' : σ.NamedKey J log k' κ) :
    k = k' := by
  have hsrc := h.1.inj hmint h'.1
  have hdst := h.2.2.inj hmint h'.2.2
  have hrelation := h.2.1.trans h'.2.1.symm
  cases k
  cases k'
  simp_all

theorem EvolveState.NamedKey.mono {k : EdgeKey} {κ : NamedEdge}
    (h : σ.NamedKey J log k κ) (hminted : ∀ p ∈ σ.minted, p ∈ σ'.minted)
    (hvectors : ∀ i ∈ σ.vectors, i ∈ σ'.vectors) : σ'.NamedKey J log k κ :=
  ⟨h.1.mono hminted hvectors, h.2.1, h.2.2.mono hminted hvectors⟩

end AirNote
