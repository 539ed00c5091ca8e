import AirNote.EvolveNames

/-!
# Evolve as a replay

The cursor moves when a batch is over. A tick that fails, or a process that
stops, leaves entities, links and invalidations of memories the cursor has not
passed, and the next tick goes through these memories again, on the edges that
were folded last.

Each edge is a flag which the memories of the queue raise and lower in turn, so
that a run is a replay of these values from the cursor. The invariant says so
for every edge, with the values a tick has left of its memory.

## Main results

* `RestartInv.exec` — every step keeps the invariant.
* `restartInv_opened` — a log that is opened has it.
-/

namespace AirNote

open Lib.Trace Lib.Replay

/-! ## What a memory assigns -/

/-- The name of the node a mention is resolved to. -/
def Judgement.name (J : Judgement) (mention : String) : NodeName :=
  match J.stands mention with
  | some id => .node id
  | none => .mention mention

def Judgement.nameEdge (J : Judgement) (k : EdgeKey) : NamedEdge :=
  ⟨J.name k.src, k.relation, J.name k.dst⟩

/-- The memory mentions what no entity of the log stands for. -/
def Judgement.Mints (J : Judgement) (memory : QueuedMemory) (mention : String) :
    Prop :=
  (∃ p ∈ resolveWork (J.proposals memory), p.1 = mention) ∧
    J.stands mention = none

/-- One value for each time the edge occurs in the list. -/
def marks (κ : NamedEdge) (edges : List NamedEdge) (v : Bool) : List Bool :=
  (edges.filter fun e => e == κ).map fun _ => v

/-- A memory invalidates the edges it retracts, and links those it states. -/
def Judgement.values (J : Judgement) (κ : NamedEdge) (memory : QueuedMemory) :
    List Bool :=
  marks κ ((J.refined memory).retractions.map fun r => J.nameEdge r.mentions)
      false ++
    marks κ ((J.refined memory).relations.map fun r => J.nameEdge r.mentions)
      true

def Judgement.allValues (J : Judgement) (κ : NamedEdge)
    (memories : List QueuedMemory) : List Bool :=
  memories.flatMap (J.values κ)

/-- What a tick has still to assign: what is left of its memory, and the
memories after it. -/
def restValues (J : Judgement) (σ : EvolveState) (tick : EvolveTick)
    (κ : NamedEdge) : List Bool :=
  match tick.phase with
  | .emitting _ retractions links =>
      marks κ (retractions.map σ.nameEdge) false ++
        (marks κ (links.map fun l => σ.nameEdge l.1) true ++
          J.allValues κ tick.batch.tail)
  | _ => J.allValues κ tick.batch

/-- The edge is among the keys. -/
def EvolveState.hasEdge (σ : EvolveState) (keys : List EdgeKey)
    (κ : NamedEdge) : Bool :=
  keys.any fun k => σ.nameEdge k == κ

/-- The key is of an edge between known nodes. -/
def EvolveState.Known (σ : EvolveState) (J : Judgement) (log : EventLog)
    (k : EdgeKey) : Prop :=
  σ.NamedKey J log k (σ.nameEdge k)

/-- What the memory mentions is minted. -/
def EvolveState.Covered (σ : EvolveState) (J : Judgement)
    (memory : QueuedMemory) : Prop :=
  ∀ mention, J.Mints memory mention → ∃ id, (id, mention) ∈ σ.minted

/-! ## The invariant -/

/-- What is known of the graph, whether a tick runs or not; `queue` is the
queue at the start. -/
structure GraphInv (J : Judgement) (log : EventLog) (queue : List QueuedMemory)
    (σ : EvolveState) : Prop where
  mint : MintInv J log σ
  grows : log <+: σ.log
  active : ∀ k ∈ activeEdges σ.log, σ.Known J log k
  folded : ∀ k ∈ σ.graph.edges, σ.Known J log k
  retired : ∀ k ∈ σ.retired, σ.Known J log k
  wanted : ∀ p ∈ σ.minted, ∃ memory ∈ queue, J.Mints memory p.2

/-- The mentions of the memory at hand that are resolved, and what they are
resolved to. -/
structure Resolving (J : Judgement) (log : EventLog) (σ : EvolveState)
    (batch : List QueuedMemory) (proposals : ExtractProposals)
    (pending : List String) (ids : List (String × String)) : Prop where
  memory : ∃ memory rest, batch = memory :: rest ∧
    proposals = J.proposals memory
  named : ∀ p ∈ ids, σ.Named J log p.2 (J.name p.1)
  work : ∀ x ∈ pending, ∃ p ∈ resolveWork proposals, p.1 = x
  covers : ∀ p ∈ resolveWork proposals, p.1 ∈ pending ∨
    ∃ id, ids.lookup p.1 = some id

/-- What a tick knows in its phase. -/
def PhaseInv (J : Judgement) (log : EventLog) (σ : EvolveState)
    (tick : EvolveTick) : Prop :=
  match tick.phase with
  | .resolving _ proposals work ids =>
      Resolving J log σ tick.batch proposals (work.map Prod.fst) ids
  | .minting _ proposals mention id work ids =>
      Resolving J log σ tick.batch proposals (mention :: work.map Prod.fst)
          ids ∧
        (id, mention) ∈ σ.minted ∧
        ∀ p ∈ σ.minted, p.2 = mention → p.1 ∉ σ.vectors
  | .emitting _ retractions links =>
      (∃ memory rest, tick.batch = memory :: rest ∧ σ.Covered J memory) ∧
        (∀ k ∈ retractions, σ.Known J log k ∧
          (k ∈ tick.activeKeys ∨ k ∈ σ.retired)) ∧
        ∀ l ∈ links, σ.Known J log l.1
  | _ => True

/-- What a tick keeps in its variables. -/
structure TickInv (J : Judgement) (log : EventLog) (σ : EvolveState)
    (tick : EvolveTick) : Prop where
  active : ∀ k ∈ tick.activeKeys, σ.Known J log k
  cached : ∀ p ∈ tick.cache, σ.Named J log p.2 (J.name p.1)
  stored : ∀ id ∈ tick.index, id ∈ σ.vectors
  indexed : ∀ p ∈ σ.minted, p.1 ∈ σ.vectors → p.1 ∈ tick.index ∨
    ∃ id, tick.cache.lookup p.2 = some id
  phase : PhaseInv J log σ tick

/-- The cursor a tick has come to. -/
def CommittedAt (σ : EvolveState) (tick : EvolveTick)
    (past : List QueuedMemory) : Prop :=
  (past = [] ∧ tick.committed = σ.cursor) ∨
    ∃ front memory, past = front ++ [memory] ∧ tick.committed = memory.seq

/-- The graph tables of a tick: those it began on, or those it has folded. -/
def Copied (σ : EvolveState) (tick : EvolveTick) (κ : NamedEdge) (p : Bool) :
    Prop :=
  (σ.hasEdge σ.graph.edges κ = p ∧
      (tick.phase = .advancing → tick.wrote = false)) ∨
    (σ.hasEdge σ.graph.edges κ = σ.hasEdge (activeEdges σ.log) κ ∧
      tick.phase = .advancing)

/-- The flag of an edge while a tick runs: `before` the cursor, `past` in this
tick, `beyond` its batch. -/
def Cell (whole : Prop) (J : Judgement) (s : NamedEdge → Bool)
    (σ : EvolveState) (tick : EvolveTick)
    (before past beyond : List QueuedMemory) (κ : NamedEdge) : Prop :=
  ∃ done p, done ++ restValues J σ tick κ = J.allValues κ (past ++ tick.batch) ∧
    Passing whole (J.allValues κ before) done
      (restValues J σ tick κ ++ J.allValues κ beyond) (s κ)
      (σ.hasEdge (activeEdges σ.log) κ) p (σ.hasEdge tick.activeKeys κ)
      tick.wrote (κ ∈ σ.retiredEdges) ∧
    Copied σ tick κ p

/-- How far a tick has come. -/
def Progress (whole : Prop) (J : Judgement) (queue : List QueuedMemory)
    (s : NamedEdge → Bool) (σ : EvolveState) (tick : EvolveTick) : Prop :=
  ∃ before past beyond, queue = before ++ evolveQueue σ.log σ.cursor ∧
    evolveQueue σ.log σ.cursor = past ++ (tick.batch ++ beyond) ∧
    CommittedAt σ tick past ∧
    (∀ memory ∈ before ++ past, σ.Covered J memory) ∧
    ∀ κ, Cell whole J s σ tick before past beyond κ

/-- How far the runs have come between two ticks. -/
def AtRest (whole : Prop) (J : Judgement) (queue : List QueuedMemory)
    (s : NamedEdge → Bool) (σ : EvolveState) : Prop :=
  ∃ before, queue = before ++ evolveQueue σ.log σ.cursor ∧
    (∀ memory ∈ before, σ.Covered J memory) ∧
    ∀ κ, Resting whole (J.allValues κ before)
      (J.allValues κ (evolveQueue σ.log σ.cursor)) (s κ)
      (σ.hasEdge (activeEdges σ.log) κ) (σ.hasEdge σ.graph.edges κ)
      (κ ∈ σ.retiredEdges)

/-- The invariant of the runs; `whole` says that no tick was cut off. -/
structure RestartInv (whole : Prop) (J : Judgement) (log : EventLog)
    (queue : List QueuedMemory) (s : NamedEdge → Bool) (σ : EvolveState) :
    Prop where
  graph : GraphInv J log queue σ
  resting : σ.tick = none → AtRest whole J queue s σ
  running : ∀ tick, σ.tick = some tick →
    TickInv J log σ tick ∧ Progress whole J queue s σ tick

variable {whole : Prop} {J : Judgement} {log : EventLog}
  {queue : List QueuedMemory} {s : NamedEdge → Bool} {σ σ' : EvolveState}
  {tick tick' : EvolveTick}

/-! ## Flags -/

@[simp] theorem marks_nil (κ : NamedEdge) (v : Bool) : marks κ [] v = [] := rfl

theorem marks_cons_self (κ : NamedEdge) (edges : List NamedEdge) (v : Bool) :
    marks κ (κ :: edges) v = v :: marks κ edges v := by
  simp [marks]

theorem marks_cons_ne {κ e : NamedEdge} (h : e ≠ κ) (edges : List NamedEdge)
    (v : Bool) : marks κ (e :: edges) v = marks κ edges v := by
  simp [marks, h]

theorem eq_of_mem_marks {κ : NamedEdge} {edges : List NamedEdge} {v w : Bool}
    (h : w ∈ marks κ edges v) : w = v := by
  obtain ⟨-, -, rfl⟩ := List.mem_map.mp h
  rfl

@[simp] theorem allValues_nil (J : Judgement) (κ : NamedEdge) :
    J.allValues κ [] = [] := rfl

theorem allValues_cons (J : Judgement) (κ : NamedEdge) (memory : QueuedMemory)
    (rest : List QueuedMemory) :
    J.allValues κ (memory :: rest) = J.values κ memory ++ J.allValues κ rest :=
  List.flatMap_cons

theorem allValues_append (J : Judgement) (κ : NamedEdge)
    (xs ys : List QueuedMemory) :
    J.allValues κ (xs ++ ys) = J.allValues κ xs ++ J.allValues κ ys :=
  List.flatMap_append

theorem hasEdge_eq_true {keys : List EdgeKey} {κ : NamedEdge} :
    σ.hasEdge keys κ = true ↔ ∃ k ∈ keys, σ.nameEdge k = κ := by
  simp [EvolveState.hasEdge]

theorem hasEdge_eq_false {keys : List EdgeKey} {κ : NamedEdge} :
    σ.hasEdge keys κ = false ↔ ∀ k ∈ keys, σ.nameEdge k ≠ κ := by
  simp [EvolveState.hasEdge]

theorem hasEdge_cons_self (k : EdgeKey) (keys : List EdgeKey) :
    σ.hasEdge (k :: keys) (σ.nameEdge k) = true := by
  simp [EvolveState.hasEdge]

theorem hasEdge_cons_ne {k : EdgeKey} {κ : NamedEdge} (h : σ.nameEdge k ≠ κ)
    (keys : List EdgeKey) : σ.hasEdge (k :: keys) κ = σ.hasEdge keys κ := by
  simp [EvolveState.hasEdge, h]

theorem hasEdge_concat (keys : List EdgeKey) (k : EdgeKey) (κ : NamedEdge) :
    σ.hasEdge (keys ++ [k]) κ = σ.hasEdge (k :: keys) κ := by
  simp [EvolveState.hasEdge, Bool.or_comm]

theorem hasEdge_filter_ne {k : EdgeKey} {κ : NamedEdge}
    (h : σ.nameEdge k ≠ κ) (keys : List EdgeKey) :
    σ.hasEdge (keys.filter fun k' => k' != k) κ = σ.hasEdge keys κ := by
  rw [Bool.eq_iff_iff, hasEdge_eq_true, hasEdge_eq_true]
  constructor
  · rintro ⟨k', hmem, hname⟩
    exact ⟨k', (List.mem_filter.mp hmem).1, hname⟩
  · rintro ⟨k', hmem, hname⟩
    refine ⟨k', List.mem_filter.mpr ⟨hmem, ?_⟩, hname⟩
    simp only [bne_iff_ne]
    rintro rfl
    exact h hname

/-- Known keys of one name are one key. -/
theorem EvolveState.Known.inj (hmint : MintInv J log σ) {k k' : EdgeKey}
    (h : σ.Known J log k) (h' : σ.Known J log k')
    (hname : σ.nameEdge k = σ.nameEdge k') : k = k' := by
  refine EvolveState.NamedKey.inj hmint h ?_
  rw [hname]
  exact h'

/-- Once a known key is out, its edge is. -/
theorem hasEdge_filter_self (hmint : MintInv J log σ) {k : EdgeKey}
    (hk : σ.Known J log k) {keys : List EdgeKey}
    (hkeys : ∀ k' ∈ keys, σ.Known J log k') :
    σ.hasEdge (keys.filter fun k' => k' != k) (σ.nameEdge k) = false := by
  rw [hasEdge_eq_false]
  intro k' hmem hname
  obtain ⟨hin, hne⟩ := List.mem_filter.mp hmem
  simp only [bne_iff_ne] at hne
  exact hne ((hkeys k' hin).inj hmint hk hname)

/-- A known key is there exactly where its edge is. -/
theorem hasEdge_nameEdge (hmint : MintInv J log σ) {k : EdgeKey}
    (hk : σ.Known J log k) {keys : List EdgeKey}
    (hkeys : ∀ k' ∈ keys, σ.Known J log k') :
    σ.hasEdge keys (σ.nameEdge k) = true ↔ k ∈ keys := by
  rw [hasEdge_eq_true]
  constructor
  · rintro ⟨k', hmem, hname⟩
    rw [← (hkeys k' hmem).inj hmint hk hname]
    exact hmem
  · intro hmem
    exact ⟨k, hmem, rfl⟩

/-! ## Names that stay -/

/-- Nothing minted and no vector is lost. -/
structure EvolveState.Extends (σ σ' : EvolveState) : Prop where
  minted : ∀ p ∈ σ.minted, p ∈ σ'.minted
  vectors : ∀ id ∈ σ.vectors, id ∈ σ'.vectors

theorem EvolveState.Extends.nameEdge (h : σ.Extends σ')
    (hmint' : MintInv J log σ') {k : EdgeKey} (hk : σ.Known J log k) :
    σ'.nameEdge k = σ.nameEdge k :=
  (EvolveState.NamedKey.mono hk h.minted h.vectors).nameEdge hmint'

theorem EvolveState.Extends.known (h : σ.Extends σ')
    (hmint' : MintInv J log σ') {k : EdgeKey} (hk : σ.Known J log k) :
    σ'.Known J log k := by
  rw [EvolveState.Known, h.nameEdge hmint' hk]
  exact EvolveState.NamedKey.mono hk h.minted h.vectors

theorem EvolveState.Extends.hasEdge (h : σ.Extends σ')
    (hmint' : MintInv J log σ') {keys : List EdgeKey}
    (hkeys : ∀ k ∈ keys, σ.Known J log k) (κ : NamedEdge) :
    σ'.hasEdge keys κ = σ.hasEdge keys κ := by
  rw [Bool.eq_iff_iff, hasEdge_eq_true, hasEdge_eq_true]
  constructor
  · rintro ⟨k, hmem, hname⟩
    rw [h.nameEdge hmint' (hkeys k hmem)] at hname
    exact ⟨k, hmem, hname⟩
  · rintro ⟨k, hmem, hname⟩
    refine ⟨k, hmem, ?_⟩
    rwa [h.nameEdge hmint' (hkeys k hmem)]

theorem EvolveState.NamedKey.known (hmint : MintInv J log σ) {k : EdgeKey} {κ : NamedEdge}
    (h : σ.NamedKey J log k κ) : σ.Known J log k := by
  rw [EvolveState.Known, h.nameEdge hmint]
  exact h

/-! ## Steps that assign nothing -/

/-- The phases in which the values left are those of the batch, and the tables
are those the tick began on. -/
def TickPhase.Plain : TickPhase → Prop
  | .emitting .. => False
  | .advancing => False
  | _ => True

theorem restValues_plain (h : tick.phase.Plain) (σ : EvolveState)
    (κ : NamedEdge) : restValues J σ tick κ = J.allValues κ tick.batch := by
  unfold restValues
  cases hphase : tick.phase with
  | emitting readSet retractions links =>
      rw [hphase] at h
      exact h.elim
  | _ => rfl

theorem TickPhase.Plain.ne_advancing {phase : TickPhase} (h : phase.Plain) :
    phase ≠ .advancing := by
  rintro rfl
  exact h

/-- Two states in which every edge is the same flag. -/
structure Alike (σ : EvolveState) (tick : EvolveTick) (σ' : EvolveState)
    (tick' : EvolveTick) : Prop where
  cursor : σ'.cursor = σ.cursor
  queue : evolveQueue σ'.log σ.cursor = evolveQueue σ.log σ.cursor
  batch : tick'.batch = tick.batch
  committed : tick'.committed = tick.committed
  wrote : tick'.wrote = tick.wrote ∨ tick'.wrote = true
  minted : ∀ p ∈ σ.minted, p ∈ σ'.minted
  active : ∀ κ, σ'.hasEdge (activeEdges σ'.log) κ =
    σ.hasEdge (activeEdges σ.log) κ
  keys : ∀ κ, σ'.hasEdge tick'.activeKeys κ = σ.hasEdge tick.activeKeys κ
  graph : ∀ κ, σ'.hasEdge σ'.graph.edges κ = σ.hasEdge σ.graph.edges κ
  retired : ∀ κ, κ ∈ σ'.retiredEdges ↔ κ ∈ σ.retiredEdges

theorem Alike.put (tick tick' : EvolveTick) (σ : EvolveState)
    (hbatch : tick'.batch = tick.batch)
    (hcommitted : tick'.committed = tick.committed)
    (hwrote : tick'.wrote = tick.wrote ∨ tick'.wrote = true)
    (hkeys : tick'.activeKeys = tick.activeKeys) :
    Alike σ tick (σ.put tick') tick' where
  cursor := rfl
  queue := rfl
  batch := hbatch
  committed := hcommitted
  wrote := hwrote
  minted := fun _ hp => hp
  active := fun _ => rfl
  keys := by
    intro κ
    rw [hkeys]
    rfl
  graph := fun _ => rfl
  retired := fun _ => Iff.rfl

theorem Alike.progress (h : Alike σ tick σ' tick') (hplain : tick.phase.Plain)
    (hplain' : tick'.phase.Plain) (hp : Progress whole J queue s σ tick) :
    Progress whole J queue s σ' tick' := by
  obtain ⟨before, past, beyond, hqueue, hrest, hcommitted, hcovered, hcells⟩ :=
    hp
  refine ⟨before, past, beyond, ?_, ?_, ?_, ?_, ?_⟩
  · rw [h.cursor, h.queue]
    exact hqueue
  · rw [h.cursor, h.queue, h.batch]
    exact hrest
  · rw [CommittedAt, h.committed, h.cursor]
    exact hcommitted
  · intro memory hmem mention hmints
    obtain ⟨id, hid⟩ := hcovered memory hmem mention hmints
    exact ⟨id, h.minted _ hid⟩
  · intro κ
    obtain ⟨done, p, hdone, hpassing, hcopied⟩ := hcells κ
    rw [restValues_plain hplain] at hdone hpassing
    refine ⟨done, p, ?_, ?_, ?_⟩
    · rw [restValues_plain hplain', h.batch]
      exact hdone
    · rw [restValues_plain hplain', h.batch, h.active, h.keys,
        propext (h.retired κ)]
      rcases h.wrote with hsame | hwrote
      · rw [hsame]
        exact hpassing
      · rw [hwrote]
        exact hpassing.other
    · rcases hcopied with ⟨hgraph, -⟩ | ⟨-, hadvancing⟩
      · refine .inl ⟨(h.graph κ).trans hgraph, ?_⟩
        intro hadvancing
        exact absurd hadvancing hplain'.ne_advancing
      · exact absurd hadvancing hplain.ne_advancing

/-! ## The rest of the state -/

theorem Resolving.mono {batch : List QueuedMemory}
    {proposals : ExtractProposals} {pending : List String}
    {ids : List (String × String)} (hext : σ.Extends σ')
    (h : Resolving J log σ batch proposals pending ids) :
    Resolving J log σ' batch proposals pending ids where
  memory := h.memory
  named := fun p hp => (h.named p hp).mono hext.minted hext.vectors
  work := h.work
  covers := h.covers

/-- The tick, the cursor and the tables say nothing of what is minted. -/
theorem MintInv.move (h : MintInv J log σ) (t : Option EvolveTick) (c : Nat)
    (g : GraphTables) :
    MintInv J log { σ with tick := t, cursor := c, graph := g } where
  unique := h.unique
  vector := h.vector
  fresh := h.fresh
  entities := h.entities

theorem GraphInv.move (h : GraphInv J log queue σ) (t : Option EvolveTick)
    (c : Nat) {g : GraphTables} (hg : ∀ k ∈ g.edges, σ.Known J log k) :
    GraphInv J log queue { σ with tick := t, cursor := c, graph := g } where
  mint := h.mint.move t c g
  grows := h.grows
  active := h.active
  folded := hg
  retired := h.retired
  wanted := h.wanted

theorem GraphInv.put (h : GraphInv J log queue σ) (tick : EvolveTick) :
    GraphInv J log queue (σ.put tick) :=
  h.move (some tick) σ.cursor h.folded

theorem GraphInv.abort (h : GraphInv J log queue σ) :
    GraphInv J log queue σ.abort :=
  h.move none σ.cursor h.folded

theorem TickInv.move (h : TickInv J log σ tick) (t : Option EvolveTick)
    (c : Nat) (g : GraphTables) :
    TickInv J log { σ with tick := t, cursor := c, graph := g } tick where
  active := h.active
  cached := h.cached
  stored := h.stored
  indexed := h.indexed
  phase := by
    have hphase := h.phase
    have hext : σ.Extends { σ with tick := t, cursor := c, graph := g } :=
      ⟨fun _ hp => hp, fun _ hid => hid⟩
    unfold PhaseInv at hphase ⊢
    cases htick : tick.phase with
    | next => trivial
    | resolving readSet proposals work ids =>
        rw [htick] at hphase
        exact hphase.mono hext
    | minting readSet proposals mention id work ids =>
        rw [htick] at hphase
        exact ⟨hphase.1.mono hext, hphase.2⟩
    | emitting readSet retractions links =>
        rw [htick] at hphase
        exact hphase
    | folding => trivial
    | advancing => trivial

theorem RestartInv.of_rest (hgraph : GraphInv J log queue σ)
    (htick : σ.tick = none) (hrest : AtRest whole J queue s σ) :
    RestartInv whole J log queue s σ where
  graph := hgraph
  resting := fun _ => hrest
  running := by
    intro tick hsome
    rw [htick] at hsome
    cases hsome

theorem RestartInv.of_tick (hgraph : GraphInv J log queue σ)
    (htick : σ.tick = some tick) (hinv : TickInv J log σ tick)
    (hprogress : Progress whole J queue s σ tick) :
    RestartInv whole J log queue s σ where
  graph := hgraph
  resting := by
    intro hnone
    rw [htick] at hnone
    cases hnone
  running := by
    intro tick' hsome
    rw [htick] at hsome
    cases hsome
    exact ⟨hinv, hprogress⟩

/-- A step between two plain phases of a tick. -/
theorem RestartInv.rephase (h : RestartInv whole J log queue s σ)
    (htick : σ.tick = some tick) (hplain : tick.phase.Plain)
    (hplain' : tick'.phase.Plain) (hbatch : tick'.batch = tick.batch)
    (hcommitted : tick'.committed = tick.committed)
    (hwrote : tick'.wrote = tick.wrote ∨ tick'.wrote = true)
    (hkeys : tick'.activeKeys = tick.activeKeys)
    (hinv : TickInv J log σ tick') :
    RestartInv whole J log queue s (σ.put tick') := by
  obtain ⟨-, hprogress⟩ := h.running tick htick
  exact .of_tick (h.graph.put tick') rfl (hinv.move _ _ _)
    ((Alike.put tick tick' σ hbatch hcommitted hwrote hkeys).progress hplain
      hplain' hprogress)

/-! ## A tick that begins or ends -/

theorem Progress.abort (hwhole : ¬ whole)
    (h : Progress whole J queue s σ tick) :
    AtRest whole J queue s σ.abort := by
  obtain ⟨before, past, beyond, hqueue, hrest, -, hcovered, hcells⟩ := h
  refine ⟨before, hqueue, ?_, ?_⟩
  · intro memory hmem
    exact hcovered memory (List.mem_append_left past hmem)
  · intro κ
    obtain ⟨done, p, hdone, hpassing, hcopied⟩ := hcells κ
    have hvalues : J.allValues κ (evolveQueue σ.log σ.cursor) =
        done ++ (restValues J σ tick κ ++ J.allValues κ beyond) := by
      rw [hrest, ← List.append_assoc, allValues_append, ← hdone,
        List.append_assoc]
    have hresting := hpassing.abort hwhole
    rw [← hvalues] at hresting
    rcases hcopied with ⟨hcopy, -⟩ | ⟨hcopy, -⟩
    · rw [← hcopy] at hresting
      exact hresting
    · change Resting whole _ _ _ (σ.hasEdge (activeEdges σ.log) κ)
        (σ.hasEdge σ.graph.edges κ) _
      rw [hcopy]
      exact hresting.refresh

/-- The tables are folded anew. -/
theorem AtRest.refold (h : AtRest whole J queue s σ) :
    AtRest whole J queue s { σ with graph := foldGraph σ.log } := by
  obtain ⟨before, hqueue, hcovered, hresting⟩ := h
  exact ⟨before, hqueue, hcovered, fun κ => (hresting κ).refresh⟩

theorem RestartInv.abort (hwhole : ¬ whole)
    (h : RestartInv whole J log queue s σ) :
    RestartInv whole J log queue s σ.abort := by
  refine .of_rest h.graph.abort rfl ?_
  cases htick : σ.tick with
  | none => exact h.resting htick
  | some tick => exact (h.running tick htick).2.abort hwhole

theorem RestartInv.crash (hwhole : ¬ whole)
    (h : RestartInv whole J log queue s σ) :
    RestartInv whole J log queue s
      { σ.abort with graph := foldGraph σ.log } := by
  have habort := h.abort hwhole
  exact .of_rest (habort.graph.move none σ.cursor habort.graph.active) rfl
    (habort.resting rfl).refold

theorem RestartInv.rebuild (h : RestartInv whole J log queue s σ) :
    RestartInv whole J log queue s σ.rebuild := by
  unfold EvolveState.rebuild
  cases htick : σ.tick with
  | some tick => exact h
  | none =>
      exact .of_rest (h.graph.move none σ.cursor h.graph.active) rfl
        (h.resting htick).refold

theorem RestartInv.begin (h : RestartInv whole J log queue s σ) :
    RestartInv whole J log queue s σ.begin := by
  unfold EvolveState.begin
  cases htick : σ.tick with
  | some tick => exact h
  | none =>
      obtain ⟨before, hqueue, hcovered, hresting⟩ := h.resting htick
      obtain ⟨beyond, hbatch⟩ := batch_prefix σ.log σ.cursor evolveBatch
      refine .of_tick (h.graph.put _) rfl ?_ ?_
      · exact
          { active := h.graph.folded
            cached := by simp
            stored := fun _ hid => hid
            indexed := fun _ _ hvector => .inl hvector
            phase := trivial }
      · refine ⟨before, [], beyond, hqueue, hbatch, .inl ⟨rfl, rfl⟩, ?_, ?_⟩
        · rw [List.append_nil]
          exact hcovered
        · intro κ
          refine ⟨[], σ.hasEdge σ.graph.edges κ, rfl, ?_, .inl ⟨rfl, ?_⟩⟩
          · have hbegin := (hresting κ).begin
            rw [hbatch, allValues_append] at hbegin
            exact hbegin
          · intro hadvancing
            cases hadvancing

theorem RestartInv.fold (h : RestartInv whole J log queue s σ) :
    RestartInv whole J log queue s σ.fold := by
  unfold EvolveState.fold
  split
  · rename_i tick htick
    split
    · rename_i hphase
      obtain ⟨hinv, before, past, beyond, hqueue, hrest, hcommitted, hcovered,
        hcells⟩ := h.running tick htick
      have hplain : tick.phase.Plain := by
        rw [hphase]
        trivial
      have hgraph : ∀ k ∈ (if tick.wrote then foldGraph σ.log
          else σ.graph).edges, σ.Known J log k := by
        split
        · exact h.graph.active
        · exact h.graph.folded
      have hfolding : TickInv J log σ { tick with phase := .advancing } :=
        { hinv with phase := trivial }
      refine .of_tick (h.graph.move _ _ hgraph) rfl (hfolding.move _ _ _)
        ⟨before, past, beyond, hqueue, hrest, hcommitted, hcovered, ?_⟩
      intro κ
      obtain ⟨done, p, hdone, hpassing, hcopied⟩ := hcells κ
      rw [restValues_plain hplain] at hdone hpassing
      refine ⟨done, p, hdone, hpassing, ?_⟩
      rcases hcopied with ⟨hcopy, -⟩ | ⟨-, hadvancing⟩
      · cases hwrote : tick.wrote with
        | true => exact .inr ⟨rfl, rfl⟩
        | false => exact .inl ⟨hcopy, fun _ => rfl⟩
      · exact absurd hadvancing hplain.ne_advancing
    · exact h
  · exact h

/-- The cursor of a tick leaves what its batch has left, and what is beyond. -/
theorem committedAt_left {past : List QueuedMemory}
    (h : CommittedAt σ tick past) {left : List QueuedMemory}
    (hrest : evolveQueue σ.log σ.cursor = past ++ left) :
    evolveQueue σ.log (if tick.committed > σ.cursor then tick.committed
      else σ.cursor) = left := by
  rcases h with ⟨rfl, hcommitted⟩ | ⟨front, memory, rfl, hcommitted⟩
  · rw [hcommitted, if_neg (Nat.lt_irrefl _)]
    exact hrest
  · have hmem : memory ∈ evolveQueue σ.log σ.cursor := by
      rw [hrest]
      simp
    have hlater := seq_of_mem_evolveQueue hmem
    rw [hcommitted, if_pos hlater]
    rw [List.append_assoc, List.singleton_append] at hrest
    exact evolveQueue_at hrest

theorem RestartInv.advance (h : RestartInv whole J log queue s σ) :
    RestartInv whole J log queue s σ.advance := by
  unfold EvolveState.advance
  split
  · rename_i tick htick
    split
    · rename_i hphase
      obtain ⟨-, before, past, beyond, hqueue, hrest, hcommitted, hcovered,
        hcells⟩ := h.running tick htick
      have hleft := committedAt_left hcommitted hrest
      generalize (if tick.committed > σ.cursor then tick.committed
        else σ.cursor) = cursor at hleft ⊢
      refine .of_rest (h.graph.move none cursor h.graph.folded) rfl
        ⟨before ++ past, ?_, hcovered, ?_⟩
      · change queue = before ++ past ++ evolveQueue σ.log cursor
        rw [hleft, List.append_assoc, ← hrest]
        exact hqueue
      · intro κ
        obtain ⟨done, p, hdone, hpassing, hcopied⟩ := hcells κ
        have hvalues : restValues J σ tick κ = J.allValues κ tick.batch := by
          rw [restValues, hphase]
        rw [hvalues, allValues_append] at hdone
        have hpast : done = J.allValues κ past := List.append_cancel_right hdone
        rw [hpast, hvalues, ← allValues_append] at hpassing
        change Resting whole (J.allValues κ (before ++ past))
          (J.allValues κ (evolveQueue σ.log cursor)) _
          (σ.hasEdge (activeEdges σ.log) κ) (σ.hasEdge σ.graph.edges κ) _
        rw [hleft, allValues_append]
        refine hpassing.finish ?_
        rcases hcopied with ⟨hcopy, hwrote⟩ | ⟨hcopy, -⟩
        · exact .inr ⟨hwrote hphase, hcopy⟩
        · exact .inl hcopy
    · exact h
  · exact h

/-! ## Pass A and the mentions -/

/-- The batch is over early. -/
theorem RestartInv.give_up (h : RestartInv whole J log queue s σ)
    (htick : σ.tick = some tick) (hplain : tick.phase.Plain) :
    RestartInv whole J log queue s
      (σ.put { tick with phase := .folding }) := by
  obtain ⟨hinv, -⟩ := h.running tick htick
  exact h.rephase htick hplain trivial rfl rfl (.inl rfl) rfl
    { hinv with phase := trivial }

theorem RestartInv.propose (h : RestartInv whole J log queue s σ)
    {recalled : List String} {answer : Option ExtractProposals}
    (hsteady : Steady J σ (.propose recalled answer)) :
    RestartInv whole J log queue s (σ.propose recalled answer) := by
  unfold EvolveState.propose
  split
  · rename_i tick htick
    split
    · rename_i memory rest proposals hphase hbatch
      have hplain : tick.phase.Plain := by
        rw [hphase]
        trivial
      have hproposals : proposals = J.proposals memory :=
        hsteady tick memory rest htick hbatch proposals rfl
      obtain ⟨hinv, -⟩ := h.running tick htick
      refine h.rephase htick hplain trivial rfl rfl (.inl rfl) rfl
        { hinv with phase := ?_ }
      exact
        { memory := ⟨memory, rest, hbatch, hproposals⟩
          named := by simp
          work := by
            intro x hx
            obtain ⟨p, hp, rfl⟩ := List.mem_map.mp hx
            exact ⟨p, hp, rfl⟩
          covers := fun p hp => .inl (List.mem_map_of_mem hp) }
    · rename_i hphase _
      refine h.give_up htick ?_
      rw [hphase]
      trivial
    · exact h
  · exact h

/-- A mention that is resolved is done with. -/
theorem Resolving.resolved {batch : List QueuedMemory}
    {proposals : ExtractProposals} {mention id : String}
    {pending : List String} {ids : List (String × String)}
    (h : Resolving J log σ batch proposals (mention :: pending) ids)
    (hnamed : σ.Named J log id (J.name mention)) :
    Resolving J log σ batch proposals pending ((mention, id) :: ids) where
  memory := h.memory
  named := by
    intro p hp
    rcases List.mem_cons.mp hp with rfl | hold
    · exact hnamed
    · exact h.named p hold
  work := fun x hx => h.work x (List.mem_cons_of_mem mention hx)
  covers := by
    intro p hp
    rcases h.covers p hp with hpending | ⟨i, hi⟩
    · rcases List.mem_cons.mp hpending with heq | hrest
      · exact .inr ⟨id, by rw [heq, List.lookup_cons_self]⟩
      · exact .inl hrest
    · right
      by_cases heq : p.1 = mention
      · exact ⟨id, by rw [heq, List.lookup_cons_self]⟩
      · refine ⟨i, ?_⟩
        rw [List.lookup_cons, beq_eq_false_iff_ne.mpr heq]
        exact hi

/-- A mention known in this memory is done with. -/
theorem Resolving.known {batch : List QueuedMemory}
    {proposals : ExtractProposals} {mention id : String}
    {pending : List String} {ids : List (String × String)}
    (h : Resolving J log σ batch proposals (mention :: pending) ids)
    (hid : ids.lookup mention = some id) :
    Resolving J log σ batch proposals pending ids where
  memory := h.memory
  named := h.named
  work := fun x hx => h.work x (List.mem_cons_of_mem mention hx)
  covers := by
    intro p hp
    rcases h.covers p hp with hpending | hknown
    · rcases List.mem_cons.mp hpending with heq | hrest
      · exact .inr ⟨id, by rw [heq]; exact hid⟩
      · exact .inl hrest
    · exact .inr hknown

/-- What the resolution merges a mention with goes by its name. -/
theorem Judgement.Resolves.named {mention id : String}
    (h : J.Resolves σ tick mention (.merge id)) (hinv : TickInv J log σ tick) :
    σ.Named J log id (J.name mention) := by
  unfold Judgement.Resolves at h
  unfold Judgement.name
  cases hstands : J.stands mention with
  | some i =>
      rw [hstands] at h
      cases h
      exact ⟨rfl, .inr ⟨mention, hstands⟩⟩
  | none =>
      rw [hstands] at h
      rcases h with ⟨i, hindex, hminted, heq⟩ | ⟨-, m, heq, -⟩
      · cases heq
        exact ⟨hminted, hinv.stored id hindex⟩
      · cases heq

/-! ## An entity is minted -/

theorem LogNames.mono {log' : EventLog} {id : String} (h : LogNames log id)
    (hlonger : log <+: log') : LogNames log' id := by
  obtain ⟨tail, rfl⟩ := hlonger
  rcases h with ⟨ev, hev, hnames⟩ | ⟨e, he, hid⟩
  · exact .inl ⟨ev, List.mem_append_left tail hev, hnames⟩
  · refine .inr ⟨e, ?_, hid⟩
    rw [foldEntities, List.filterMap_append]
    exact List.mem_append_left _ he

theorem EvolveState.Unused.not_logNames {id : String} (h : σ.Unused J id) :
    ¬ LogNames σ.log id := by
  obtain ⟨hlinks, hentities, -, -⟩ := h
  rintro (⟨ev, hev, k, hk, hsrc | hdst⟩ | ⟨e, he, hid⟩)
  · exact (hlinks ev hev k hk).1 hsrc
  · exact (hlinks ev hev k hk).2 hdst
  · exact hentities e he hid

section Minted

variable {m : Mint} {mention entityType producer : String}
  {sources : List String} {stored : Event}

/-- The state with a new entity appended. -/
def EvolveState.mintEntity (σ : EvolveState) (t : Option EvolveTick)
    (stored : Event) (id mention : String) : EvolveState :=
  { σ with
    tick := t
    log := σ.log ++ [stored]
    minted := (id, mention) :: σ.minted }

theorem extends_mintEntity (σ : EvolveState) (t : Option EvolveTick)
    (stored : Event) (id mention : String) :
    σ.Extends (σ.mintEntity t stored id mention) :=
  ⟨fun _ hp => List.mem_cons_of_mem _ hp, fun _ hid => hid⟩

theorem MintInv.mintEntity (h : MintInv J log σ) (hgrows : log <+: σ.log)
    (hs : Stored m σ.log (entityEvent mention entityType producer sources)
      stored) (hunused : σ.Unused J (entityNodeId m.id))
    (hstands : J.stands mention = none) (t : Option EvolveTick) :
    MintInv J log (σ.mintEntity t stored (entityNodeId m.id) mention) := by
  have hnew : ∀ p ∈ σ.minted, p.1 ≠ entityNodeId m.id := by
    intro p hp heq
    obtain ⟨e, he, hid⟩ := (h.entities p.1).mpr (.inr ⟨p, hp, rfl⟩)
    exact hunused.2.1 e he (hid.trans heq)
  refine ⟨?_, ?_, ?_, ?_⟩
  · intro p hp q hq heq
    rcases List.mem_cons.mp hp with rfl | hp <;>
      rcases List.mem_cons.mp hq with rfl | hq
    · rfl
    · exact absurd heq.symm (hnew q hq)
    · exact absurd heq (hnew p hp)
    · exact h.unique p hp q hq heq
  · intro p hp q hq heq hpv hqv
    rcases List.mem_cons.mp hp with rfl | hp
    · exact absurd hpv hunused.2.2.1
    · rcases List.mem_cons.mp hq with rfl | hq
      · exact absurd hqv hunused.2.2.1
      · exact h.vector p hp q hq heq hpv hqv
  · intro p hp
    rcases List.mem_cons.mp hp with rfl | hp
    · exact ⟨fun hnames => hunused.not_logNames (hnames.mono hgrows), hstands,
        hunused.2.2.2⟩
    · exact h.fresh p hp
  · intro id
    change (∃ e ∈ foldEntities (σ.log ++ [stored]), e.entityId = id) ↔
      (∃ e ∈ foldEntities log, e.entityId = id) ∨
        ∃ p ∈ (entityNodeId m.id, mention) :: σ.minted, p.1 = id
    rw [foldEntities_entity hs]
    constructor
    · rintro ⟨e, he, hid⟩
      rcases List.mem_append.mp he with hold | hadded
      · rcases (h.entities id).mp ⟨e, hold, hid⟩ with hthere | ⟨p, hp, hpid⟩
        · exact .inl hthere
        · exact .inr ⟨p, List.mem_cons_of_mem _ hp, hpid⟩
      · rw [List.mem_singleton.mp hadded] at hid
        exact .inr ⟨_, List.mem_cons_self, hid⟩
    · rintro (hthere | ⟨p, hp, hpid⟩)
      · obtain ⟨e, he, hid⟩ := (h.entities id).mpr (.inl hthere)
        exact ⟨e, List.mem_append_left _ he, hid⟩
      · rcases List.mem_cons.mp hp with rfl | hold
        · exact ⟨_, List.mem_append_right _ (List.mem_singleton_self _), hpid⟩
        · obtain ⟨e, he, hid⟩ := (h.entities id).mpr (.inr ⟨p, hold, hpid⟩)
          exact ⟨e, List.mem_append_left _ he, hid⟩

theorem GraphInv.mintEntity (h : GraphInv J log queue σ)
    (hs : Stored m σ.log (entityEvent mention entityType producer sources)
      stored) (hunused : σ.Unused J (entityNodeId m.id))
    (hwanted : ∃ memory ∈ queue, J.Mints memory mention)
    (t : Option EvolveTick) :
    GraphInv J log queue
      (σ.mintEntity t stored (entityNodeId m.id) mention) := by
  obtain ⟨memory, hmemory, hmints⟩ := hwanted
  have hmint := h.mint.mintEntity h.grows hs hunused hmints.2 t
  have hext := extends_mintEntity σ t stored (entityNodeId m.id) mention
  refine ⟨hmint, ?_, ?_, ?_, ?_, ?_⟩
  · exact h.grows.trans (List.prefix_append _ _)
  · intro k hk
    change k ∈ activeEdges (σ.log ++ [stored]) at hk
    rw [activeEdges_entity hs] at hk
    exact hext.known hmint (h.active k hk)
  · exact fun k hk => hext.known hmint (h.folded k hk)
  · exact fun k hk => hext.known hmint (h.retired k hk)
  · intro p hp
    rcases List.mem_cons.mp hp with rfl | hold
    · exact ⟨memory, hmemory, hmints⟩
    · exact h.wanted p hold

theorem retiredEdges_extends (hext : σ.Extends σ') (hmint' : MintInv J log σ')
    (hretired : ∀ k ∈ σ.retired, σ.Known J log k)
    (hsame : σ'.retired = σ.retired) :
    σ'.retiredEdges = σ.retiredEdges := by
  unfold EvolveState.retiredEdges
  rw [hsame]
  refine List.map_congr_left ?_
  intro k hk
  exact hext.nameEdge hmint' (hretired k hk)

theorem Alike.mintEntity (h : GraphInv J log queue σ)
    (hs : Stored m σ.log (entityEvent mention entityType producer sources)
      stored) {t : Option EvolveTick} {id : String}
    (hmint : MintInv J log (σ.mintEntity t stored id mention))
    (hkeys : ∀ k ∈ tick.activeKeys, σ.Known J log k)
    (hbatch : tick'.batch = tick.batch)
    (hcommitted : tick'.committed = tick.committed)
    (hwrote : tick'.wrote = tick.wrote)
    (hsame : tick'.activeKeys = tick.activeKeys) :
    Alike σ tick (σ.mintEntity t stored id mention) tick' := by
  have hext := extends_mintEntity σ t stored id mention
  refine
    { cursor := rfl, queue := ?_, batch := hbatch, committed := hcommitted
      wrote := .inl hwrote, minted := hext.minted, active := ?_, keys := ?_
      graph := ?_, retired := ?_ }
  · have hmemory : entityEventType ≠ memoryEventType := by decide
    have hfile : entityEventType ≠ fileIngestedEventType := by decide
    exact evolveQueue_append hs hmemory hfile σ.cursor
  · intro κ
    change (σ.mintEntity t stored id mention).hasEdge
      (activeEdges (σ.log ++ [stored])) κ = _
    rw [activeEdges_entity hs]
    exact hext.hasEdge hmint h.active κ
  · intro κ
    rw [hsame]
    exact hext.hasEdge hmint hkeys κ
  · exact hext.hasEdge hmint h.folded
  · intro κ
    rw [retiredEdges_extends hext hmint h.retired rfl]

end Minted

/-- A memory of the batch is one of the queue. -/
theorem Progress.mem_queue (h : Progress whole J queue s σ tick)
    {memory : QueuedMemory} (hmem : memory ∈ tick.batch) : memory ∈ queue := by
  obtain ⟨before, past, beyond, hqueue, hrest, -⟩ := h
  rw [hqueue, hrest]
  simp [hmem]

/-- The mention at hand is one of the memory at hand. -/
theorem Resolving.wanted {batch : List QueuedMemory}
    {proposals : ExtractProposals} {mention : String} {pending : List String}
    {ids : List (String × String)}
    (h : Resolving J log σ batch proposals (mention :: pending) ids)
    (hstands : J.stands mention = none) :
    ∃ memory ∈ batch, J.Mints memory mention := by
  obtain ⟨memory, rest, rfl, rfl⟩ := h.memory
  exact ⟨memory, List.mem_cons_self, h.work mention List.mem_cons_self,
    hstands⟩

theorem TickInv.mintEntity {m : Mint} {mention : String}
    {stored : Event} {readSet : List String} {proposals : ExtractProposals}
    {work : List (String × String)} {ids : List (String × String)}
    {t : Option EvolveTick} (h : TickInv J log σ tick)
    (hmint : MintInv J log
      (σ.mintEntity t stored (entityNodeId m.id) mention))
    (hresolving : Resolving J log σ tick.batch proposals
      (mention :: work.map Prod.fst) ids)
    (hunused : σ.Unused J (entityNodeId m.id))
    (hindex : ∀ id ∈ tick.index, (id, mention) ∉ σ.minted)
    (hcache : tick.cache.lookup mention = none) :
    TickInv J log (σ.mintEntity t stored (entityNodeId m.id) mention)
      { tick with
        phase := .minting readSet proposals mention (entityNodeId m.id) work
          ids } := by
  have hext := extends_mintEntity σ t stored (entityNodeId m.id) mention
  refine ⟨?_, ?_, h.stored, ?_, ?_⟩
  · exact fun k hk => hext.known hmint (h.active k hk)
  · exact fun p hp => (h.cached p hp).mono hext.minted hext.vectors
  · intro p hp hvector
    rcases List.mem_cons.mp hp with rfl | hold
    · exact absurd hvector hunused.2.2.1
    · exact h.indexed p hold hvector
  · refine ⟨hresolving.mono hext, List.mem_cons_self, ?_⟩
    intro p hp hmention hvector
    rcases List.mem_cons.mp hp with rfl | hold
    · exact hunused.2.2.1 hvector
    · rcases h.indexed p hold hvector with hin | ⟨id, hid⟩
      · refine hindex p.1 hin ?_
        rw [← hmention]
        exact hold
      · rw [hmention, hcache] at hid
        cases hid

theorem RestartInv.resolveMention {producer : String}
    (h : RestartInv whole J log queue s σ) {answer : Resolved}
    (hsteady : Steady J σ (.resolve answer))
    (huncut : whole → Uncut producer σ (.resolve answer)) :
    RestartInv whole J log queue s (σ.resolveMention producer answer) := by
  have hcut : (σ.tick ≠ none ∧
      (σ.resolveMention producer answer).tick = none) → ¬ whole := by
    rintro ⟨hsome, hnone⟩ hw
    exact (huncut hw).2.2 (by simp) hsome hnone
  revert hcut
  unfold EvolveState.resolveMention
  split
  · rename_i tick htick
    obtain ⟨hinv, hprogress⟩ := h.running tick htick
    split
    · rename_i readSet proposals mention entityType work ids hphase
      have hplain : tick.phase.Plain := by
        rw [hphase]
        trivial
      have hresolving : Resolving J log σ tick.batch proposals
          (mention :: work.map Prod.fst) ids := by
        have hphaseInv := hinv.phase
        rw [PhaseInv, hphase] at hphaseInv
        exact hphaseInv
      have hresolves := hsteady tick readSet proposals mention entityType work
        ids htick hphase
      split
      · rename_i id hid
        intro _
        exact h.rephase htick hplain trivial rfl rfl (.inl rfl) rfl
          { hinv with phase := hresolving.known hid }
      · rename_i id hids hid
        intro _
        have hnamed : σ.Named J log id (J.name mention) := by
          obtain ⟨l₁, l₂, hsplit, -⟩ := List.lookup_eq_some_iff.mp hid
          refine hinv.cached (mention, id) ?_
          rw [hsplit]
          simp
        exact h.rephase htick hplain trivial rfl rfl (.inl rfl) rfl
          { hinv with phase := hresolving.resolved hnamed }
      · rename_i id hids hcache
        intro _
        have hnamed := (hresolves hids hcache).named hinv
        refine h.rephase htick hplain trivial rfl rfl (.inl rfl) rfl
          { hinv with cached := ?_, indexed := ?_,
                      phase := hresolving.resolved hnamed }
        · intro p hp
          rcases List.mem_cons.mp hp with rfl | hold
          · exact hnamed
          · exact hinv.cached p hold
        · intro p hp hvector
          by_cases heq : p.2 = mention
          · exact .inr ⟨id, by rw [heq, List.lookup_cons_self]⟩
          · rw [List.lookup_cons, beq_eq_false_iff_ne.mpr heq]
            exact hinv.indexed p hp hvector
      · rename_i m hids hcache
        have hmints := hresolves hids hcache
        split
        · rename_i happend
          intro hcut
          refine h.abort (hcut ⟨?_, rfl⟩)
          rw [htick]
          simp
        · rename_i log' id happend
          intro _
          obtain ⟨rfl, stored, hs, rfl⟩ := append_ok happend
          have hnew : J.stands mention = none ∧
              (∀ id ∈ tick.index, (id, mention) ∉ σ.minted) ∧
              σ.Unused J (entityNodeId m.id) := by
            unfold Judgement.Resolves at hmints
            cases hstands : J.stands mention with
            | some i =>
                rw [hstands] at hmints
                cases hmints
            | none =>
                rw [hstands] at hmints
                rcases hmints with ⟨i, -, -, heq⟩ | ⟨hnone, m', heq, hunused⟩
                · cases heq
                · cases heq
                  exact ⟨rfl, hnone, hunused⟩
          obtain ⟨hstands, hindex, hunused⟩ := hnew
          obtain ⟨memory, hmemory, hwanted⟩ := hresolving.wanted hstands
          have hgraph := h.graph.mintEntity hs hunused
            ⟨memory, hprogress.mem_queue hmemory, hwanted⟩
            (some { tick with
              phase := .minting readSet proposals mention (entityNodeId m.id)
                work ids })
          refine .of_tick hgraph rfl (hinv.mintEntity hgraph.mint hresolving
            hunused hindex hcache) ?_
          refine Alike.progress ?_ hplain ?_ hprogress
          · exact Alike.mintEntity h.graph hs hgraph.mint hinv.active rfl rfl
              rfl rfl
          · trivial
    · intro _
      exact h
  · intro _
    exact h

/-! ## Its vector is stored -/

/-- The state with the vector of an entity stored. -/
def EvolveState.storeVector (σ : EvolveState) (t : Option EvolveTick)
    (id : String) : EvolveState :=
  { σ with
    tick := t
    vectors := id :: σ.vectors }

theorem extends_storeVector (σ : EvolveState) (t : Option EvolveTick)
    (id : String) : σ.Extends (σ.storeVector t id) :=
  ⟨fun _ hp => hp, fun _ hid => List.mem_cons_of_mem _ hid⟩

theorem MintInv.storeVector (h : MintInv J log σ) {id mention : String}
    (hminted : (id, mention) ∈ σ.minted)
    (hfirst : ∀ p ∈ σ.minted, p.2 = mention → p.1 ∉ σ.vectors)
    (t : Option EvolveTick) : MintInv J log (σ.storeVector t id) where
  unique := h.unique
  vector := by
    have hother : ∀ p ∈ σ.minted, ∀ q ∈ σ.minted, p.2 = q.2 → p.1 = id →
        q.1 ∈ σ.vectors → False := by
      intro p hp q hq heq hpid hqv
      have hsame := h.unique p hp (id, mention) hminted hpid
      rw [hsame] at heq
      exact hfirst q hq heq.symm hqv
    intro p hp q hq heq hpv hqv
    rcases List.mem_cons.mp hpv with hpid | hpold
    · rcases List.mem_cons.mp hqv with hqid | hqold
      · exact hpid.trans hqid.symm
      · exact (hother p hp q hq heq hpid hqold).elim
    · rcases List.mem_cons.mp hqv with hqid | hqold
      · exact (hother q hq p hp heq.symm hqid hpold).elim
      · exact h.vector p hp q hq heq hpold hqold
  fresh := h.fresh
  entities := h.entities

theorem GraphInv.storeVector (h : GraphInv J log queue σ) {id mention : String}
    (hminted : (id, mention) ∈ σ.minted)
    (hfirst : ∀ p ∈ σ.minted, p.2 = mention → p.1 ∉ σ.vectors)
    (t : Option EvolveTick) : GraphInv J log queue (σ.storeVector t id) := by
  have hmint := h.mint.storeVector hminted hfirst t
  have hext := extends_storeVector σ t id
  exact
    { mint := hmint
      grows := h.grows
      active := fun k hk => hext.known hmint (h.active k hk)
      folded := fun k hk => hext.known hmint (h.folded k hk)
      retired := fun k hk => hext.known hmint (h.retired k hk)
      wanted := h.wanted }

theorem TickInv.storeVector {readSet : List String}
    {proposals : ExtractProposals} {mention id : String}
    {work ids : List (String × String)} (h : TickInv J log σ tick)
    (hmint : MintInv J log σ)
    (hresolving : Resolving J log σ tick.batch proposals
      (mention :: work.map Prod.fst) ids)
    (hminted : (id, mention) ∈ σ.minted)
    (hfirst : ∀ p ∈ σ.minted, p.2 = mention → p.1 ∉ σ.vectors)
    (t : Option EvolveTick) :
    TickInv J log (σ.storeVector t id)
      { tick with
        cache := (mention, id) :: tick.cache
        wrote := true
        phase := .resolving readSet proposals work ((mention, id) :: ids) } := by
  have hmint' := hmint.storeVector hminted hfirst t
  have hext := extends_storeVector σ t id
  obtain ⟨-, hstands, -⟩ := hmint.fresh (id, mention) hminted
  have hnamed : (σ.storeVector t id).Named J log id (J.name mention) := by
    rw [Judgement.name, hstands]
    exact ⟨hminted, List.mem_cons_self⟩
  refine ⟨?_, ?_, ?_, ?_, ?_⟩
  · exact fun k hk => hext.known hmint' (h.active k hk)
  · intro p hp
    rcases List.mem_cons.mp hp with rfl | hold
    · exact hnamed
    · exact (h.cached p hold).mono hext.minted hext.vectors
  · exact fun i hi => List.mem_cons_of_mem id (h.stored i hi)
  · intro p hp hvector
    by_cases hmention : p.2 = mention
    · exact .inr ⟨id, by rw [hmention, List.lookup_cons_self]⟩
    · rw [List.lookup_cons, beq_eq_false_iff_ne.mpr hmention]
      rcases List.mem_cons.mp hvector with hid | hold
      · have hsame := hmint.unique p hp (id, mention) hminted hid
        rw [hsame] at hmention
        exact absurd rfl hmention
      · exact h.indexed p hp hold
  · exact (hresolving.mono hext).resolved hnamed

theorem RestartInv.deriveEntityVector
    (h : RestartInv whole J log queue s σ) :
    RestartInv whole J log queue s σ.deriveEntityVector := by
  unfold EvolveState.deriveEntityVector
  split
  · rename_i tick htick
    obtain ⟨hinv, hprogress⟩ := h.running tick htick
    split
    · rename_i readSet proposals mention id work ids hphase
      have hplain : tick.phase.Plain := by
        rw [hphase]
        trivial
      have hminting := hinv.phase
      rw [PhaseInv, hphase] at hminting
      obtain ⟨hresolving, hminted, hfirst⟩ := hminting
      refine .of_tick (h.graph.storeVector hminted hfirst _) rfl
        (hinv.storeVector h.graph.mint hresolving hminted hfirst _) ?_
      refine Alike.progress ?_ hplain ?_ hprogress
      · exact
          { cursor := rfl, queue := rfl, batch := rfl, committed := rfl
            wrote := .inr rfl, minted := fun _ hp => hp
            active := fun _ => rfl, keys := fun _ => rfl
            graph := fun _ => rfl, retired := fun _ => Iff.rfl }
      · trivial
    · exact h
  · exact h

/-! ## Pass B -/

/-- A mention of a relation or a retraction is resolved. -/
theorem mem_resolveWork {proposals : ExtractProposals} {x : String}
    (h : (∃ r ∈ proposals.relations, x ∈ [r.src, r.dst]) ∨
      ∃ r ∈ proposals.retractions, x ∈ [r.src, r.dst]) :
    ∃ p ∈ resolveWork proposals, p.1 = x := by
  refine ⟨(x, unresolvedEntityType), ?_, rfl⟩
  simp only [resolveWork, List.mem_append, List.mem_map, List.mem_flatMap]
  exact .inr ⟨x, h, rfl⟩

section Resolved

variable {batch : List QueuedMemory} {proposals : ExtractProposals}
  {ids : List (String × String)} {x : String} {k : EdgeKey}

theorem Resolving.lookup (h : Resolving J log σ batch proposals [] ids)
    (hx : ∃ p ∈ resolveWork proposals, p.1 = x) :
    ∃ id, ids.lookup x = some id ∧ σ.Named J log id (J.name x) := by
  obtain ⟨p, hp, rfl⟩ := hx
  rcases h.covers p hp with hpending | ⟨id, hid⟩
  · simp at hpending
  · refine ⟨id, hid, ?_⟩
    obtain ⟨l₁, l₂, hsplit, -⟩ := List.lookup_eq_some_iff.mp hid
    refine h.named (p.1, id) ?_
    rw [hsplit]
    simp

/-- With every mention resolved, the key of an edge between mentions goes by
the name of the edge. -/
theorem Resolving.remap (h : Resolving J log σ batch proposals [] ids)
    (hk : (∃ p ∈ resolveWork proposals, p.1 = k.src) ∧
      ∃ p ∈ resolveWork proposals, p.1 = k.dst) :
    σ.NamedKey J log (k.remap ids) (J.nameEdge k) := by
  obtain ⟨i, hi, hsrc⟩ := h.lookup hk.1
  obtain ⟨j, hj, hdst⟩ := h.lookup hk.2
  refine ⟨?_, rfl, ?_⟩
  · simp only [EdgeKey.remap, mapMention, hi]
    exact hsrc
  · simp only [EdgeKey.remap, mapMention, hj]
    exact hdst

theorem Resolving.covered {memory : QueuedMemory}
    (h : Resolving J log σ batch (J.proposals memory) [] ids) :
    σ.Covered J memory := by
  rintro mention ⟨hwork, hstands⟩
  obtain ⟨id, -, hnamed⟩ := h.lookup hwork
  rw [Judgement.name, hstands] at hnamed
  exact ⟨id, hnamed.1⟩

end Resolved

/-- Confirming the retractions leaves out those whose edge is not there. -/
theorem marks_confirm (hmint : MintInv J log σ) {retractions active :
    List EdgeKey} (hretractions : ∀ k ∈ retractions, σ.Known J log k)
    (hactive : ∀ k ∈ active, σ.Known J log k) (κ : NamedEdge) :
    marks κ ((confirmRetractions retractions active).map σ.nameEdge) false =
      if σ.hasEdge active κ then marks κ (retractions.map σ.nameEdge) false
      else [] := by
  unfold marks confirmRetractions
  rw [List.filter_map, List.filter_map, List.filter_filter]
  have hmem : ∀ k ∈ retractions, σ.nameEdge k = κ →
      (k ∈ active ↔ σ.hasEdge active κ = true) := by
    intro k hk hname
    rw [← hname]
    exact (hasEdge_nameEdge hmint (hretractions k hk) hactive).symm
  split
  · rename_i htrue
    congr 2
    refine List.filter_congr ?_
    intro k hk
    by_cases hname : σ.nameEdge k = κ
    · simp [hname, hmem k hk hname, htrue]
    · simp [hname]
  · rename_i hfalse
    have hnone : (retractions.filter fun k =>
        ((fun e => e == κ) ∘ σ.nameEdge) k && active.contains k) = [] := by
      rw [List.filter_eq_nil_iff]
      intro k hk
      by_cases hname : σ.nameEdge k = κ
      · simp [hname, hmem k hk hname, hfalse]
      · simp [hname]
    rw [hnone]
    rfl

/-! ### What the critique leaves to emit -/

section Emitting

variable {memory : QueuedMemory} {rest : List QueuedMemory}
  {ids : List (String × String)}

/-- What is refined is still to be emitted: the retractions of edges that are
there, and the links. -/
def EvolveTick.emitting (tick : EvolveTick) (readSet : List String)
    (ids : List (String × String)) (refined : ExtractProposals) :
    EvolveTick :=
  { tick with
    phase := .emitting readSet
      (confirmRetractions
        (refined.retractions.map fun r => r.mentions.remap ids)
        tick.activeKeys)
      (refined.relations.map fun r => (r.mentions.remap ids, r.confidence)) }

/-- The mentions of what is refined are resolved. -/
theorem Resolving.refined_retractions
    (h : Resolving J log σ tick.batch (J.proposals memory) [] ids) :
    ∀ r ∈ (J.refined memory).retractions,
      σ.NamedKey J log (r.mentions.remap ids) (J.nameEdge r.mentions) := by
  intro r hr
  obtain ⟨p, hp, hmentions⟩ := critiqueWithReasoner_retractions hr
  have hwork : ∀ x ∈ [p.src, p.dst],
      ∃ q ∈ resolveWork (J.proposals memory), q.1 = x :=
    fun x hx => mem_resolveWork (.inr ⟨p, hp, hx⟩)
  rw [← hmentions]
  exact h.remap ⟨hwork p.src (by simp), hwork p.dst (by simp)⟩

theorem Resolving.refined_relations
    (h : Resolving J log σ tick.batch (J.proposals memory) [] ids) :
    ∀ r ∈ (J.refined memory).relations,
      σ.NamedKey J log (r.mentions.remap ids) (J.nameEdge r.mentions) := by
  intro r hr
  obtain ⟨p, hp, hmentions⟩ := critiqueWithReasoner_relations hr
  have hwork : ∀ x ∈ [p.src, p.dst],
      ∃ q ∈ resolveWork (J.proposals memory), q.1 = x :=
    fun x hx => mem_resolveWork (.inl ⟨p, hp, hx⟩)
  rw [← hmentions]
  exact h.remap ⟨hwork p.src (by simp), hwork p.dst (by simp)⟩

theorem Resolving.known_retractions (hmint : MintInv J log σ)
    (h : Resolving J log σ tick.batch (J.proposals memory) [] ids) :
    ∀ k ∈ (J.refined memory).retractions.map fun r => r.mentions.remap ids,
      σ.Known J log k := by
  intro k hk
  obtain ⟨r, hr, rfl⟩ := List.mem_map.mp hk
  exact (h.refined_retractions r hr).known hmint

theorem TickInv.emitting (hinv : TickInv J log σ tick)
    (hmint : MintInv J log σ) (hbatch : tick.batch = memory :: rest)
    (h : Resolving J log σ tick.batch (J.proposals memory) [] ids)
    (readSet : List String) :
    TickInv J log σ (tick.emitting readSet ids (J.refined memory)) := by
  refine { hinv with phase := ⟨⟨memory, rest, hbatch, h.covered⟩, ?_, ?_⟩ }
  · intro k hk
    obtain ⟨hin, hcontains⟩ := List.mem_filter.mp hk
    exact ⟨h.known_retractions hmint k hin,
      .inl (List.contains_iff_mem.mp hcontains)⟩
  · intro l hl
    obtain ⟨r, hr, rfl⟩ := List.mem_map.mp hl
    exact (h.refined_relations r hr).known hmint

/-- What is left to assign to an edge: of the retractions, those of an edge
that is there. -/
theorem restValues_emitting (hinv : TickInv J log σ tick)
    (hmint : MintInv J log σ) (hbatch : tick.batch = memory :: rest)
    (h : Resolving J log σ tick.batch (J.proposals memory) [] ids)
    (readSet : List String) (κ : NamedEdge) :
    restValues J σ (tick.emitting readSet ids (J.refined memory)) κ =
      (if σ.hasEdge tick.activeKeys κ then
        marks κ ((J.refined memory).retractions.map fun r =>
          J.nameEdge r.mentions) false else []) ++
      (marks κ ((J.refined memory).relations.map fun r =>
        J.nameEdge r.mentions) true ++ J.allValues κ rest) := by
  have hretracted : ((J.refined memory).retractions.map fun r =>
      r.mentions.remap ids).map σ.nameEdge =
      (J.refined memory).retractions.map fun r => J.nameEdge r.mentions := by
    rw [List.map_map]
    exact List.map_congr_left fun r hr =>
      (h.refined_retractions r hr).nameEdge hmint
  have hlinked : ((J.refined memory).relations.map fun r =>
      (r.mentions.remap ids, r.confidence)).map (fun l => σ.nameEdge l.1) =
      (J.refined memory).relations.map fun r => J.nameEdge r.mentions := by
    rw [List.map_map]
    exact List.map_congr_left fun r hr =>
      (h.refined_relations r hr).nameEdge hmint
  rw [← hretracted, ← marks_confirm hmint (h.known_retractions hmint)
    hinv.active κ, ← hlinked]
  simp only [restValues, EvolveTick.emitting, hbatch, List.tail_cons]

/-- Where the edge is not there, what would retract it is skipped. -/
theorem Cell.emitting {before past beyond : List QueuedMemory} {κ : NamedEdge}
    (hcell : Cell whole J s σ tick before past beyond κ)
    (hinv : TickInv J log σ tick) (hmint : MintInv J log σ)
    (hplain : tick.phase.Plain) (hbatch : tick.batch = memory :: rest)
    (h : Resolving J log σ tick.batch (J.proposals memory) [] ids)
    (readSet : List String) :
    Cell whole J s (σ.put (tick.emitting readSet ids (J.refined memory)))
      (tick.emitting readSet ids (J.refined memory)) before past beyond κ := by
  obtain ⟨done, p, hdone, hpassing, hcopied⟩ := hcell
  have hcopy : σ.hasEdge σ.graph.edges κ = p := by
    rcases hcopied with ⟨hcopy, -⟩ | ⟨-, hadvancing⟩
    · exact hcopy
    · exact absurd hadvancing hplain.ne_advancing
  have hvalues : restValues J σ tick κ =
      marks κ ((J.refined memory).retractions.map fun r =>
        J.nameEdge r.mentions) false ++
      (marks κ ((J.refined memory).relations.map fun r =>
        J.nameEdge r.mentions) true ++ J.allValues κ rest) := by
    rw [restValues_plain hplain, hbatch, allValues_cons, Judgement.values,
      List.append_assoc]
  have hleft : restValues J
      (σ.put (tick.emitting readSet ids (J.refined memory)))
      (tick.emitting readSet ids (J.refined memory)) κ = _ :=
    restValues_emitting hinv hmint hbatch h readSet κ
  rw [hvalues] at hdone hpassing
  cases hthere : σ.hasEdge tick.activeKeys κ with
  | true =>
      rw [hthere, if_pos rfl] at hleft
      refine ⟨done, p, ?_, ?_, .inl ⟨hcopy, ?_⟩⟩
      · rw [hleft]
        exact hdone
      · rw [hleft]
        exact hpassing
      · intro hadvancing
        cases hadvancing
  | false =>
      rw [hthere, if_neg (by simp), List.nil_append] at hleft
      refine ⟨done ++ marks κ ((J.refined memory).retractions.map fun r =>
        J.nameEdge r.mentions) false, p, ?_, ?_, .inl ⟨hcopy, ?_⟩⟩
      · rw [hleft, List.append_assoc]
        exact hdone
      · rw [hleft]
        rw [List.append_assoc] at hpassing
        refine Passing.skips ?_ hpassing
        intro v hv
        rw [eq_of_mem_marks hv]
        exact hthere.symm
      · intro hadvancing
        cases hadvancing

end Emitting

theorem RestartInv.critique (h : RestartInv whole J log queue s σ)
    {answer : Option ExtractProposals}
    (hsteady : Steady J σ (.critique answer)) :
    RestartInv whole J log queue s (σ.critique answer) := by
  unfold EvolveState.critique
  split
  · rename_i tick htick
    split
    · rename_i readSet proposals ids memory rest critique hphase hbatch
      have hplain : tick.phase.Plain := by
        rw [hphase]
        trivial
      have hcritique :=
        hsteady tick memory rest htick hbatch critique rfl
      obtain ⟨hinv, before, past, beyond, hqueue, hrest, hcommitted, hcovered,
        hcells⟩ := h.running tick htick
      have hresolving := hinv.phase
      rw [PhaseInv, hphase] at hresolving
      obtain ⟨memory', rest', hhead, hproposals⟩ := hresolving.memory
      rw [hbatch] at hhead
      cases hhead
      have hrefined : critiqueWithReasoner (truncateForReasoner memory.text)
          proposals critique = J.refined memory := by
        rw [hcritique, hproposals]
        rfl
      rw [hrefined]
      rw [hproposals] at hresolving
      have hemitting :=
        hinv.emitting h.graph.mint hbatch hresolving readSet
      exact .of_tick (h.graph.put _) rfl (hemitting.move _ _ _)
        ⟨before, past, beyond, hqueue, hrest, hcommitted, hcovered, fun κ =>
          (hcells κ).emitting hinv h.graph.mint hplain hbatch hresolving
            readSet⟩
    · rename_i hphase _
      refine h.give_up htick ?_
      rw [hphase]
      trivial
    · exact h
  · exact h

/-! ## Links and invalidations -/

/-- The step assigns the edge its next value. -/
structure Writes (J : Judgement) (σ : EvolveState) (tick : EvolveTick)
    (σ' : EvolveState) (tick' : EvolveTick) (v : Bool) (κ : NamedEdge) :
    Prop where
  rest : restValues J σ tick κ = v :: restValues J σ' tick' κ
  active : σ'.hasEdge (activeEdges σ'.log) κ = v
  keys : σ'.hasEdge tick'.activeKeys κ = v
  retired : κ ∈ σ'.retiredEdges ↔ κ ∈ σ.retiredEdges ∨ v = false
  raised : v = false →
    σ.hasEdge tick.activeKeys κ = true ∨ κ ∈ σ.retiredEdges

/-- The step leaves the edge alone. -/
structure Leaves (J : Judgement) (σ : EvolveState) (tick : EvolveTick)
    (σ' : EvolveState) (tick' : EvolveTick) (κ : NamedEdge) : Prop where
  rest : restValues J σ tick κ = restValues J σ' tick' κ
  active : σ'.hasEdge (activeEdges σ'.log) κ =
    σ.hasEdge (activeEdges σ.log) κ
  keys : σ'.hasEdge tick'.activeKeys κ = σ.hasEdge tick.activeKeys κ
  retired : κ ∈ σ'.retiredEdges ↔ κ ∈ σ.retiredEdges

/-- One edge is assigned its next value, and the others are left alone. -/
theorem Progress.assign {v : Bool} (h : Progress whole J queue s σ tick)
    (hphase : tick.phase ≠ .advancing) (hphase' : tick'.phase ≠ .advancing)
    (hcursor : σ'.cursor = σ.cursor)
    (hqueue : evolveQueue σ'.log σ.cursor = evolveQueue σ.log σ.cursor)
    (hbatch : tick'.batch = tick.batch)
    (hcommitted : tick'.committed = tick.committed)
    (hwrote : tick'.wrote = true) (hminted : σ'.minted = σ.minted)
    (hgraph : ∀ κ, σ'.hasEdge σ'.graph.edges κ = σ.hasEdge σ.graph.edges κ)
    (hwrites : ∀ κ, Writes J σ tick σ' tick' v κ ∨ Leaves J σ tick σ' tick' κ) :
    Progress whole J queue s σ' tick' := by
  obtain ⟨before, past, beyond, hbefore, hrest, hat, hcovered, hcells⟩ := h
  refine ⟨before, past, beyond, ?_, ?_, ?_, ?_, ?_⟩
  · rw [hcursor, hqueue]
    exact hbefore
  · rw [hcursor, hqueue, hbatch]
    exact hrest
  · rw [CommittedAt, hcommitted, hcursor]
    exact hat
  · intro memory hmem mention hmints
    rw [hminted]
    exact hcovered memory hmem mention hmints
  · intro κ
    obtain ⟨done, p, hdone, hpassing, hcopied⟩ := hcells κ
    have hcopy : Copied σ' tick' κ p := by
      rcases hcopied with ⟨hcopy, -⟩ | ⟨-, hadvancing⟩
      · exact .inl ⟨(hgraph κ).trans hcopy, fun heq => absurd heq hphase'⟩
      · exact absurd hadvancing hphase
    rcases hwrites κ with hwrite | hleave
    · rw [hwrite.rest] at hdone hpassing
      refine ⟨done ++ [v], p, ?_, ?_, hcopy⟩
      · rw [hbatch, List.append_assoc]
        exact hdone
      · rw [hwrite.active, hwrite.keys, hwrote, propext hwrite.retired]
        exact hpassing.write v hwrite.raised
    · rw [hleave.rest] at hdone hpassing
      refine ⟨done, p, ?_, ?_, hcopy⟩
      · rw [hbatch]
        exact hdone
      · rw [hleave.active, hleave.keys, hwrote, propext hleave.retired]
        exact hpassing.other

theorem GraphInv.extend (h : GraphInv J log queue σ) {stored : Event}
    {retired : List EdgeKey}
    (hentities : foldEntities (σ.log ++ [stored]) = foldEntities σ.log)
    (hactive : ∀ k ∈ activeEdges (σ.log ++ [stored]), σ.Known J log k)
    (hretired : ∀ k ∈ retired, σ.Known J log k) (t : Option EvolveTick) :
    GraphInv J log queue
      { σ with tick := t, log := σ.log ++ [stored], retired := retired } where
  mint :=
    { unique := h.mint.unique
      vector := h.mint.vector
      fresh := h.mint.fresh
      entities := by
        intro id
        change (∃ e ∈ foldEntities (σ.log ++ [stored]), e.entityId = id) ↔ _
        rw [hentities]
        exact h.mint.entities id }
  grows := h.grows.trans (List.prefix_append _ _)
  active := hactive
  folded := h.folded
  retired := hretired
  wanted := h.wanted

theorem RestartInv.invalidate {m : Mint} {stored : Event}
    {readSet : List String} {key : EdgeKey} {retractions : List EdgeKey}
    {links : List (EdgeKey × Int)} (h : RestartInv whole J log queue s σ)
    (htick : σ.tick = some tick)
    (hphase : tick.phase = .emitting readSet (key :: retractions) links)
    (hs : Stored m σ.log (invalidateEvent key readSet) stored) :
    RestartInv whole J log queue s
      { σ.put { tick with
          activeKeys := tick.activeKeys.filter fun k => k != key
          wrote := true
          phase := .emitting readSet retractions links } with
        log := σ.log ++ [stored]
        retired := key :: σ.retired } := by
  obtain ⟨hinv, hprogress⟩ := h.running tick htick
  have hemitting := hinv.phase
  rw [PhaseInv, hphase] at hemitting
  obtain ⟨hhead, hkeys, hlinks⟩ := hemitting
  obtain ⟨hkey, hthere⟩ := hkeys key List.mem_cons_self
  have hmint := h.graph.mint
  have hfresh : activeEdges (σ.log ++ [stored]) =
      (activeEdges σ.log).filter fun k => k != key :=
    activeEdges_invalidate hs
  have hentities : foldEntities (σ.log ++ [stored]) = foldEntities σ.log :=
    foldEntities_of_ne hs (show invalidateEventType ≠ entityEventType by decide)
  refine .of_tick (h.graph.extend hentities ?_ ?_ _) rfl ⟨?_, ?_, ?_, ?_, ?_⟩ ?_
  · intro k hk
    rw [hfresh] at hk
    exact h.graph.active k (List.mem_filter.mp hk).1
  · intro k hk
    rcases List.mem_cons.mp hk with rfl | hold
    · exact hkey
    · exact h.graph.retired k hold
  · exact fun k hk => hinv.active k (List.mem_filter.mp hk).1
  · exact hinv.cached
  · exact hinv.stored
  · exact hinv.indexed
  · refine ⟨hhead, ?_, hlinks⟩
    intro k hk
    obtain ⟨hknown, hopen⟩ := hkeys k (List.mem_cons_of_mem key hk)
    refine ⟨hknown, ?_⟩
    by_cases heq : k = key
    · exact .inr (List.mem_cons.mpr (.inl heq))
    · rcases hopen with hactive | hretired
      · exact .inl (List.mem_filter.mpr ⟨hactive, by simpa using heq⟩)
      · exact .inr (List.mem_cons_of_mem key hretired)
  · refine hprogress.assign (v := false) (by simp [hphase]) (by simp) rfl
      (evolveQueue_append hs
        (show invalidateEventType ≠ memoryEventType by decide)
        (show invalidateEventType ≠ fileIngestedEventType by decide) _)
      rfl rfl rfl rfl (fun _ => rfl) ?_
    intro κ
    by_cases hname : σ.nameEdge key = κ
    · left
      subst hname
      refine ⟨?_, ?_, ?_, ?_, ?_⟩
      · simp only [restValues, hphase, List.map_cons, marks_cons_self]
        rfl
      · change σ.hasEdge (activeEdges (σ.log ++ [stored])) (σ.nameEdge key) = _
        rw [hfresh]
        exact hasEdge_filter_self hmint hkey h.graph.active
      · exact hasEdge_filter_self hmint hkey hinv.active
      · exact ⟨fun _ => .inr rfl, fun _ => List.mem_cons_self⟩
      · intro _
        rcases hthere with hactive | hretired
        · left
          exact (hasEdge_nameEdge hmint hkey hinv.active).mpr hactive
        · right
          exact List.mem_map_of_mem hretired
    · right
      refine ⟨?_, ?_, ?_, ?_⟩
      · simp only [restValues, hphase, List.map_cons, marks_cons_ne hname]
        rfl
      · change σ.hasEdge (activeEdges (σ.log ++ [stored])) κ = _
        rw [hfresh]
        exact hasEdge_filter_ne hname _
      · exact hasEdge_filter_ne hname _
      · constructor
        · intro hmem
          rcases List.mem_cons.mp hmem with heq | hold
          · exact absurd heq.symm hname
          · exact hold
        · exact fun hold => List.mem_cons_of_mem _ hold

theorem RestartInv.link {m : Mint} {stored : Event} {readSet : List String}
    {key : EdgeKey} {confidence : Int} {producer : String}
    {links : List (EdgeKey × Int)} (h : RestartInv whole J log queue s σ)
    (htick : σ.tick = some tick)
    (hphase : tick.phase = .emitting readSet [] ((key, confidence) :: links))
    (hs : Stored m σ.log (linkMachineEvent key confidence producer readSet)
      stored) :
    RestartInv whole J log queue s
      { σ.put { tick with
          activeKeys := key :: tick.activeKeys
          wrote := true
          phase := .emitting readSet [] links } with
        log := σ.log ++ [stored] } := by
  obtain ⟨hinv, hprogress⟩ := h.running tick htick
  have hemitting := hinv.phase
  rw [PhaseInv, hphase] at hemitting
  obtain ⟨hhead, -, hlinks⟩ := hemitting
  have hkey : σ.Known J log key := hlinks (key, confidence) List.mem_cons_self
  have hfresh : activeEdges (σ.log ++ [stored]) = activeEdges σ.log ++ [key] :=
    activeEdges_link hs
  have hentities : foldEntities (σ.log ++ [stored]) = foldEntities σ.log :=
    foldEntities_of_ne hs (show linkEventType ≠ entityEventType by decide)
  refine .of_tick (h.graph.extend hentities ?_ h.graph.retired _) rfl
    ⟨?_, ?_, ?_, ?_, ?_⟩ ?_
  · intro k hk
    rw [hfresh] at hk
    rcases List.mem_append.mp hk with hold | hnew
    · exact h.graph.active k hold
    · rw [List.mem_singleton.mp hnew]
      exact hkey
  · intro k hk
    rcases List.mem_cons.mp hk with rfl | hold
    · exact hkey
    · exact hinv.active k hold
  · exact hinv.cached
  · exact hinv.stored
  · exact hinv.indexed
  · refine ⟨hhead, by simp, ?_⟩
    exact fun l hl => hlinks l (List.mem_cons_of_mem _ hl)
  · refine hprogress.assign (v := true) (by simp [hphase]) (by simp) rfl
      (evolveQueue_append hs
        (show linkEventType ≠ memoryEventType by decide)
        (show linkEventType ≠ fileIngestedEventType by decide) _)
      rfl rfl rfl rfl (fun _ => rfl) ?_
    intro κ
    by_cases hname : σ.nameEdge key = κ
    · left
      subst hname
      refine ⟨?_, ?_, ?_, ?_, ?_⟩
      · simp only [restValues, hphase, List.map_nil, marks_nil,
          List.nil_append, List.map_cons, marks_cons_self]
        rfl
      · change σ.hasEdge (activeEdges (σ.log ++ [stored])) (σ.nameEdge key) = _
        rw [hfresh, hasEdge_concat]
        exact hasEdge_cons_self key _
      · exact hasEdge_cons_self key _
      · exact ⟨.inl, fun hold => hold.resolve_right (by simp)⟩
      · intro hfalse
        cases hfalse
    · right
      refine ⟨?_, ?_, ?_, Iff.rfl⟩
      · simp only [restValues, hphase, List.map_nil, marks_nil,
          List.nil_append, List.map_cons, marks_cons_ne hname]
        rfl
      · change σ.hasEdge (activeEdges (σ.log ++ [stored])) κ = _
        rw [hfresh, hasEdge_concat]
        exact hasEdge_cons_ne hname _
      · exact hasEdge_cons_ne hname _

/-- A link whose edge is there is not appended. -/
theorem RestartInv.linked {readSet : List String} {key : EdgeKey}
    {confidence : Int} {links : List (EdgeKey × Int)}
    (h : RestartInv whole J log queue s σ) (htick : σ.tick = some tick)
    (hphase : tick.phase = .emitting readSet [] ((key, confidence) :: links))
    (hthere : key ∈ tick.activeKeys) :
    RestartInv whole J log queue s
      (σ.put { tick with phase := .emitting readSet [] links }) := by
  obtain ⟨hinv, before, past, beyond, hqueue, hrest, hat, hcovered, hcells⟩ :=
    h.running tick htick
  have hemitting := hinv.phase
  rw [PhaseInv, hphase] at hemitting
  obtain ⟨hhead, -, hlinks⟩ := hemitting
  have hkey : σ.Known J log key := hlinks (key, confidence) List.mem_cons_self
  have hskipped : TickInv J log σ
      { tick with phase := .emitting readSet [] links } :=
    { hinv with
      phase := ⟨hhead, by simp,
        fun l hl => hlinks l (List.mem_cons_of_mem _ hl)⟩ }
  refine .of_tick (h.graph.put _) rfl (hskipped.move _ _ _)
    ⟨before, past, beyond, hqueue, hrest, hat, hcovered, ?_⟩
  intro κ
  obtain ⟨done, p, hdone, hpassing, hcopied⟩ := hcells κ
  have hcopy : Copied σ { tick with phase := .emitting readSet [] links } κ
      p := by
    rcases hcopied with ⟨hcopy, -⟩ | ⟨-, hadvancing⟩
    · exact .inl ⟨hcopy, by simp⟩
    · rw [hphase] at hadvancing
      cases hadvancing
  by_cases hname : σ.nameEdge key = κ
  · have hvalue : restValues J σ tick κ = true :: restValues J σ
        { tick with phase := .emitting readSet [] links } κ := by
      subst hname
      simp only [restValues, hphase, List.map_nil, marks_nil,
        List.nil_append, List.map_cons, marks_cons_self]
      rfl
    have hraised : σ.hasEdge tick.activeKeys κ = true := by
      rw [← hname]
      exact (hasEdge_nameEdge h.graph.mint hkey hinv.active).mpr hthere
    rw [hvalue] at hdone hpassing
    refine ⟨done ++ [true], p, ?_, ?_, hcopy⟩
    · rw [List.append_assoc]
      exact hdone
    · rw [hraised] at hpassing
      have hskip := hpassing.skip
      change Passing whole _ _ _ _ _ _ (σ.hasEdge tick.activeKeys κ) _ _
      rw [hraised]
      exact hskip
  · have hvalue : restValues J σ tick κ = restValues J σ
        { tick with phase := .emitting readSet [] links } κ := by
      simp only [restValues, hphase, List.map_nil, marks_nil,
        List.nil_append, List.map_cons, marks_cons_ne hname]
    rw [hvalue] at hdone hpassing
    exact ⟨done, p, hdone, hpassing, hcopy⟩

/-- The memory is done. -/
theorem RestartInv.done {readSet : List String} {memory : QueuedMemory}
    {rest : List QueuedMemory} (h : RestartInv whole J log queue s σ)
    (htick : σ.tick = some tick) (hphase : tick.phase = .emitting readSet [] [])
    (hbatch : tick.batch = memory :: rest) :
    RestartInv whole J log queue s
      (σ.put { tick with
        batch := rest
        committed := memory.seq
        phase := .next }) := by
  obtain ⟨hinv, before, past, beyond, hqueue, hrest, -, hcovered, hcells⟩ :=
    h.running tick htick
  have hemitting := hinv.phase
  rw [PhaseInv, hphase] at hemitting
  obtain ⟨⟨memory', rest', hhead, hcover⟩, -⟩ := hemitting
  rw [hbatch] at hhead
  cases hhead
  have hnext : TickInv J log σ { tick with
      batch := rest
      committed := memory.seq
      phase := .next } :=
    ⟨hinv.active, hinv.cached, hinv.stored, hinv.indexed, trivial⟩
  refine .of_tick (h.graph.put _) rfl (hnext.move _ _ _)
    ⟨before, past ++ [memory], beyond, hqueue, ?_,
      .inr ⟨past, memory, rfl, rfl⟩, ?_, ?_⟩
  · rw [List.append_assoc, List.singleton_append, ← List.cons_append, ← hbatch]
    exact hrest
  · intro m hm
    rw [← List.append_assoc] at hm
    rcases List.mem_append.mp hm with hold | hnew
    · exact hcovered m hold
    · rw [List.mem_singleton.mp hnew]
      exact hcover
  · intro κ
    obtain ⟨done, p, hdone, hpassing, hcopied⟩ := hcells κ
    have hvalue : restValues J σ tick κ = J.allValues κ rest := by
      simp only [restValues, hphase, hbatch, List.map_nil, marks_nil,
        List.nil_append, List.tail_cons]
    rw [hvalue] at hdone hpassing
    refine ⟨done, p, ?_, hpassing, ?_⟩
    · change done ++ J.allValues κ rest = J.allValues κ (past ++ [memory] ++ rest)
      rw [List.append_assoc, List.singleton_append, ← hbatch]
      exact hdone
    · rcases hcopied with ⟨hcopy, -⟩ | ⟨-, hadvancing⟩
      · exact .inl ⟨hcopy, by simp⟩
      · rw [hphase] at hadvancing
        cases hadvancing

theorem RestartInv.emit {producer : String}
    (h : RestartInv whole J log queue s σ) (m : Mint)
    (huncut : whole → Uncut producer σ (.emit m)) :
    RestartInv whole J log queue s (σ.emit producer m) := by
  have hcut : (σ.tick ≠ none ∧ (σ.emit producer m).tick = none) →
      ¬ whole := by
    rintro ⟨hsome, hnone⟩ hw
    exact (huncut hw).2.2 (by simp) hsome hnone
  revert hcut
  unfold EvolveState.emit
  split
  · rename_i tick htick
    have hsome : σ.tick ≠ none := by
      rw [htick]
      simp
    split
    · rename_i readSet key retractions links hphase
      split
      · intro hcut
        exact h.abort (hcut ⟨hsome, rfl⟩)
      · rename_i log' id happend
        obtain ⟨-, stored, hs, rfl⟩ := append_ok happend
        intro _
        exact h.invalidate htick hphase hs
    · rename_i readSet key confidence links hphase
      split
      · rename_i hthere
        intro _
        exact h.linked htick hphase (List.contains_iff_mem.mp hthere)
      · split
        · intro hcut
          exact h.abort (hcut ⟨hsome, rfl⟩)
        · rename_i log' id happend
          obtain ⟨-, stored, hs, rfl⟩ := append_ok happend
          intro _
          exact h.link htick hphase hs
    · rename_i hphase
      split
      · rename_i memory rest hbatch
        intro _
        exact h.done htick hphase hbatch
      · intro _
        exact h
    · intro _
      exact h
  · intro _
    exact h

/-! ## Runs -/

theorem RestartInv.exec {producer : String}
    (h : RestartInv whole J log queue s σ) (step : EvolveStep)
    (hsteady : Steady J σ step) (huncut : whole → Uncut producer σ step) :
    RestartInv whole J log queue s (σ.exec producer step) := by
  cases step with
  | begin => exact h.begin
  | propose recalled answer => exact h.propose hsteady
  | resolve answer => exact h.resolveMention hsteady huncut
  | deriveVector => exact h.deriveEntityVector
  | critique answer => exact h.critique hsteady
  | emit m => exact h.emit m huncut
  | fold => exact h.fold
  | advance => exact h.advance
  | rebuild => exact h.rebuild
  | fail => exact h.abort fun hw => (huncut hw).1 rfl
  | crash => exact h.crash fun hw => (huncut hw).2.1 rfl

/-- An edge of the log as it was. -/
def startEdge (log : EventLog) (κ : NamedEdge) : Bool :=
  (activeEdges log).any fun k => ⟨.node k.src, k.relation, .node k.dst⟩ == κ

theorem mem_activeEdges {k : EdgeKey} (h : k ∈ activeEdges log) :
    ∃ ev ∈ log, parseLinkContent ev.content = some k := by
  induction log using List.reverseRecOn with
  | nil => cases h
  | append_singleton log event ih =>
      rw [activeEdges_concat, foldEdge] at h
      have hold : k ∈ activeEdges log →
          ∃ ev ∈ log ++ [event], parseLinkContent ev.content = some k := by
        intro hmem
        obtain ⟨ev, hev, hk⟩ := ih hmem
        exact ⟨ev, List.mem_append_left _ hev, hk⟩
      split at h
      · exact hold h
      · rename_i key hkey
        split at h
        · rcases List.mem_append.mp h with hthere | hnew
          · exact hold hthere
          · rw [List.mem_singleton.mp hnew]
            exact ⟨event, by simp, hkey⟩
        · split at h
          · exact hold (List.mem_filter.mp h).1
          · exact hold h

theorem restartInv_opened (whole : Prop) (J : Judgement) (log : EventLog)
    (cursor : Nat) (vectors : List String) :
    RestartInv whole J log (evolveQueue log cursor) (startEdge log)
      (.opened log cursor vectors) := by
  have hmint : MintInv J log (.opened log cursor vectors) :=
    { unique := by simp [EvolveState.opened]
      vector := by simp [EvolveState.opened]
      fresh := by simp [EvolveState.opened]
      entities := by simp [EvolveState.opened] }
  have hknown : ∀ k ∈ activeEdges log,
      (EvolveState.opened log cursor vectors).Known J log k := by
    intro k hk
    obtain ⟨ev, hev, hparse⟩ := mem_activeEdges hk
    exact ⟨⟨rfl, .inl (.inl ⟨ev, hev, k, hparse, .inl rfl⟩)⟩, rfl,
      ⟨rfl, .inl (.inl ⟨ev, hev, k, hparse, .inr rfl⟩)⟩⟩
  refine .of_rest ⟨hmint, List.prefix_refl log, hknown, hknown, ?_, ?_⟩ rfl
    ⟨[], rfl, ?_, ?_⟩
  · simp [EvolveState.opened]
  · simp [EvolveState.opened]
  · simp
  · intro κ
    have hnone : (κ ∈ (EvolveState.opened log cursor vectors).retiredEdges) =
        False := by
      simp [EvolveState.opened, EvolveState.retiredEdges]
    rw [hnone]
    exact resting_start whole _ (startEdge log κ)

end AirNote
