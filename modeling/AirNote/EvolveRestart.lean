import AirNote.EvolveReplay

/-!
# Evolve, cut off and run again

Runs that empty the queue are compared with one another, and with runs in which
no tick is cut off.

## Main results

* `evolve_restartable` — with answers that depend on the memory alone, all runs
  that empty the queue end with the same entities and the same edges, and with
  at least the invalidations of a run without interruptions; and no edge is
  asserted twice by ticks that begin on the graph as it stands.
* `evolve_not_restartable` — what goes wrong otherwise.
-/

namespace AirNote

open Lib.Trace Lib.Replay

variable {whole : Prop} {J : Judgement} {log : EventLog}
  {queue : List QueuedMemory} {s : NamedEdge → Bool} {σ σ' : EvolveState}
  {tick tick' : EvolveTick}

/-! ## What a drained run leaves -/

theorem mem_currentEntities {n : NodeName} :
    n ∈ σ.currentEntities ↔ ∃ e ∈ foldEntities σ.log,
      σ.nameOf e.entityId = n := List.mem_map

/-- The entities are those of the log, and what the queue mentions. -/
theorem RestartInv.entities (h : RestartInv whole J log queue s σ)
    (hdrained : Drained σ) {n : NodeName} :
    n ∈ σ.currentEntities ↔
      (∃ e ∈ foldEntities log, n = .node e.entityId) ∨
        ∃ memory ∈ queue, ∃ mention, J.Mints memory mention ∧
          n = .mention mention := by
  have hmint := h.graph.mint
  obtain ⟨before, hqueue, hcovered, -⟩ := h.resting hdrained.1
  rw [hdrained.2, List.append_nil] at hqueue
  rw [mem_currentEntities]
  constructor
  · rintro ⟨e, he, rfl⟩
    rcases (hmint.entities e.entityId).mp ⟨e, he, rfl⟩ with
      ⟨e', he', hid⟩ | ⟨p, hp, hid⟩
    · refine .inl ⟨e', he', ?_⟩
      rw [hid]
      refine nameOf_of_not_minted ?_
      intro p hp hpid
      refine (hmint.fresh p hp).1 (.inr ⟨e', he', ?_⟩)
      rw [hid, hpid]
    · obtain ⟨memory, hmemory, hmints⟩ := h.graph.wanted p hp
      refine .inr ⟨memory, hmemory, p.2, hmints, ?_⟩
      rw [← hid]
      exact hmint.nameOf_minted hp
  · rintro (⟨e, he, rfl⟩ | ⟨memory, hmemory, mention, hmints, rfl⟩)
    · obtain ⟨e', he', hid⟩ := (hmint.entities e.entityId).mpr
        (.inl ⟨e, he, rfl⟩)
      refine ⟨e', he', ?_⟩
      rw [hid]
      refine nameOf_of_not_minted ?_
      intro p hp hpid
      exact (hmint.fresh p hp).1 (.inr ⟨e, he, hpid.symm⟩)
    · rw [hqueue] at hmemory
      obtain ⟨id, hid⟩ := hcovered memory hmemory mention hmints
      obtain ⟨e, he, heid⟩ := (hmint.entities id).mpr (.inr ⟨_, hid, rfl⟩)
      refine ⟨e, he, ?_⟩
      rw [heid]
      exact hmint.nameOf_minted hid

/-- The edges are what the values of the queue leave. -/
theorem RestartInv.edges (h : RestartInv whole J log queue s σ)
    (hdrained : Drained σ) {κ : NamedEdge} :
    κ ∈ σ.currentEdges ↔ final (J.allValues κ queue) (s κ) = true := by
  obtain ⟨before, hqueue, -, hresting⟩ := h.resting hdrained.1
  rw [hdrained.2, List.append_nil] at hqueue
  have hsettles := (hresting κ).settles
  rw [hdrained.2, allValues_nil] at hsettles
  rw [hqueue, ← hsettles.done, hasEdge_eq_true]
  exact List.mem_map

/-- What the values of the queue lower was invalidated; and nothing else was,
where no tick was cut off. -/
theorem RestartInv.retired (h : RestartInv whole J log queue s σ)
    (hdrained : Drained σ) (κ : NamedEdge) :
    (Drops (J.allValues κ queue) (s κ) → κ ∈ σ.retiredEdges) ∧
      (whole → κ ∈ σ.retiredEdges → Drops (J.allValues κ queue) (s κ)) := by
  obtain ⟨before, hqueue, -, hresting⟩ := h.resting hdrained.1
  rw [hdrained.2, List.append_nil] at hqueue
  rw [hqueue]
  exact ⟨(hresting κ).drops, fun hw => ((hresting κ).follows hw).drops⟩

/-! ## Edges asserted twice -/

/-- The edges a tick keeps are those that are open, and none was opened again.
-/
structure FoldedInv (log : EventLog) (σ : EvolveState) : Prop where
  once : ∀ k, (activeEdges σ.log).count k ≤
    max 1 ((activeEdges log).count k)
  keys : ∀ tick, σ.tick = some tick → ∀ k,
    k ∈ tick.activeKeys ↔ k ∈ activeEdges σ.log

/-- A step that leaves the edges, and what the tick keeps of them. -/
theorem FoldedInv.keep (h : FoldedInv log σ)
    (hedges : activeEdges σ'.log = activeEdges σ.log)
    (hkeys : ∀ tick', σ'.tick = some tick' → ∃ tick, σ.tick = some tick ∧
      tick'.activeKeys = tick.activeKeys) : FoldedInv log σ' where
  once := by
    rw [hedges]
    exact h.once
  keys := by
    intro tick' htick'
    obtain ⟨tick, htick, hsame⟩ := hkeys tick' htick'
    rw [hedges, hsame]
    exact h.keys tick htick

theorem FoldedInv.put (h : FoldedInv log σ) (htick : σ.tick = some tick)
    (hsame : tick'.activeKeys = tick.activeKeys) :
    FoldedInv log (σ.put tick') := by
  refine h.keep rfl ?_
  intro t ht
  cases ht
  exact ⟨tick, htick, hsame⟩

theorem FoldedInv.rest (h : FoldedInv log σ) (c : Nat) (g : GraphTables) :
    FoldedInv log { σ with tick := none, cursor := c, graph := g } := by
  refine h.keep rfl ?_
  intro t ht
  cases ht

theorem FoldedInv.begin (h : FoldedInv log σ)
    (hfolded : σ.graph.edges = activeEdges σ.log) : FoldedInv log σ.begin := by
  unfold EvolveState.begin
  split
  · exact h
  · refine ⟨h.once, ?_⟩
    intro t ht k
    cases ht
    rw [hfolded]
    rfl

theorem FoldedInv.propose (h : FoldedInv log σ) (recalled : List String)
    (answer : Option ExtractProposals) :
    FoldedInv log (σ.propose recalled answer) := by
  unfold EvolveState.propose
  split
  · rename_i tick htick
    split
    · exact h.put htick rfl
    · exact h.put htick rfl
    · exact h
  · exact h

theorem FoldedInv.resolveMention (h : FoldedInv log σ) (producer : String)
    (answer : Resolved) : FoldedInv log (σ.resolveMention producer answer) := by
  unfold EvolveState.resolveMention
  split
  · rename_i tick htick
    split
    · split
      · exact h.put htick rfl
      · exact h.put htick rfl
      · exact h.put htick rfl
      · split
        · exact h.rest σ.cursor σ.graph
        · rename_i happend
          obtain ⟨-, stored, hs, rfl⟩ := append_ok happend
          refine h.keep (activeEdges_entity hs) ?_
          intro t ht
          cases ht
          exact ⟨tick, htick, rfl⟩
    · exact h
  · exact h

theorem FoldedInv.deriveEntityVector (h : FoldedInv log σ) :
    FoldedInv log σ.deriveEntityVector := by
  unfold EvolveState.deriveEntityVector
  split
  · rename_i tick htick
    split
    · refine h.keep rfl ?_
      intro t ht
      cases ht
      exact ⟨tick, htick, rfl⟩
    · exact h
  · exact h

theorem FoldedInv.critique (h : FoldedInv log σ)
    (answer : Option ExtractProposals) : FoldedInv log (σ.critique answer) := by
  unfold EvolveState.critique
  split
  · rename_i tick htick
    split
    · exact h.put htick rfl
    · exact h.put htick rfl
    · exact h
  · exact h

theorem FoldedInv.emit (h : FoldedInv log σ) (producer : String) (m : Mint) :
    FoldedInv log (σ.emit producer m) := by
  unfold EvolveState.emit
  split
  · rename_i tick htick
    have hkeys := h.keys tick htick
    split
    · rename_i readSet key retractions links hphase
      split
      · exact h.rest σ.cursor σ.graph
      · rename_i happend
        obtain ⟨-, stored, hs, rfl⟩ := append_ok happend
        have hfresh := activeEdges_invalidate hs
        refine ⟨?_, ?_⟩
        · intro k
          change (activeEdges (σ.log ++ [stored])).count k ≤ _
          rw [hfresh]
          exact ((List.filter_sublist).count_le k).trans (h.once k)
        · intro t ht k
          cases ht
          change k ∈ tick.activeKeys.filter _ ↔
            k ∈ activeEdges (σ.log ++ [stored])
          rw [hfresh, List.mem_filter, List.mem_filter, hkeys k]
    · rename_i readSet key confidence links hphase
      split
      · exact h.put htick rfl
      · rename_i hthere
        split
        · exact h.rest σ.cursor σ.graph
        · rename_i happend
          obtain ⟨-, stored, hs, rfl⟩ := append_ok happend
          have hfresh := activeEdges_link hs
          have habsent : key ∉ activeEdges σ.log := by
            rw [← hkeys key]
            simpa using hthere
          refine ⟨?_, ?_⟩
          · intro k
            change (activeEdges (σ.log ++ [stored])).count k ≤ _
            rw [hfresh, List.count_append]
            by_cases hk : k = key
            · rw [hk, List.count_eq_zero.mpr habsent]
              simp
            · rw [List.count_singleton, if_neg (by simpa using Ne.symm hk)]
              exact h.once k
          · intro t ht k
            cases ht
            change k ∈ key :: tick.activeKeys ↔
              k ∈ activeEdges (σ.log ++ [stored])
            rw [hfresh, List.mem_cons, List.mem_append, List.mem_singleton,
              hkeys k, or_comm]
    · split
      · exact h.put htick rfl
      · exact h
    · exact h
  · exact h

theorem FoldedInv.exec (h : FoldedInv log σ) (producer : String)
    (step : EvolveStep) (hfolded : Folded σ step) :
    FoldedInv log (σ.exec producer step) := by
  cases step with
  | begin => exact h.begin (hfolded rfl)
  | propose recalled answer => exact h.propose recalled answer
  | resolve answer => exact h.resolveMention producer answer
  | deriveVector => exact h.deriveEntityVector
  | critique answer => exact h.critique answer
  | emit m => exact h.emit producer m
  | fold =>
      change FoldedInv log σ.fold
      unfold EvolveState.fold
      split
      · rename_i tick htick
        split
        · refine h.keep rfl ?_
          intro t ht
          cases ht
          exact ⟨tick, htick, rfl⟩
        · exact h
      · exact h
  | advance =>
      change FoldedInv log σ.advance
      unfold EvolveState.advance
      split
      · split
        · exact h.rest _ σ.graph
        · exact h
      · exact h
  | rebuild =>
      change FoldedInv log σ.rebuild
      unfold EvolveState.rebuild
      split
      · exact h
      · exact h.keep rfl fun t ht => ⟨t, ht, rfl⟩
  | fail => exact h.rest σ.cursor σ.graph
  | crash => exact h.rest σ.cursor (foldGraph σ.log)

theorem foldedInv_opened (log : EventLog) (cursor : Nat)
    (vectors : List String) : FoldedInv log (.opened log cursor vectors) where
  once := fun _ => Nat.le_max_right _ _
  keys := by
    intro t ht
    cases ht

/-! ## The result -/

/-- The runs that empty the queue, with answers that depend on the memory
alone, end with one graph, and invalidate at least what a run without
interruptions does; ticks that begin on the graph as it stands assert no edge
that is open. -/
theorem evolve_restartable (producer : String) (J : Judgement)
    (log : EventLog) (cursor : Nat) (vectors : List String) :
    (∀ steps steps' : List EvolveStep,
      Meets (EvolveState.exec producer) (Steady J)
        (.opened log cursor vectors) steps →
      Meets (EvolveState.exec producer) (Steady J)
        (.opened log cursor vectors) steps' →
      Drained (run (EvolveState.exec producer)
        (.opened log cursor vectors) steps) →
      Drained (run (EvolveState.exec producer)
        (.opened log cursor vectors) steps') →
      (∀ n, n ∈ (run (EvolveState.exec producer)
          (.opened log cursor vectors) steps).currentEntities ↔
        n ∈ (run (EvolveState.exec producer)
          (.opened log cursor vectors) steps').currentEntities) ∧
      (∀ κ, κ ∈ (run (EvolveState.exec producer)
          (.opened log cursor vectors) steps).currentEdges ↔
        κ ∈ (run (EvolveState.exec producer)
          (.opened log cursor vectors) steps').currentEdges) ∧
      (Meets (EvolveState.exec producer) (Uncut producer)
          (.opened log cursor vectors) steps' →
        ∀ κ ∈ (run (EvolveState.exec producer)
            (.opened log cursor vectors) steps').retiredEdges,
          κ ∈ (run (EvolveState.exec producer)
            (.opened log cursor vectors) steps).retiredEdges)) ∧
    ∀ steps : List EvolveStep,
      Meets (EvolveState.exec producer) Folded (.opened log cursor vectors)
        steps →
      ∀ k, (activeEdges (run (EvolveState.exec producer)
          (.opened log cursor vectors) steps).log).count k ≤
        max 1 ((activeEdges log).count k) := by
  have hinv : ∀ (whole : Prop) (steps : List EvolveStep),
      Meets (EvolveState.exec producer) (fun σ step => Steady J σ step ∧
        (whole → Uncut producer σ step)) (.opened log cursor vectors) steps →
      RestartInv whole J log (evolveQueue log cursor) (startEdge log)
        (run (EvolveState.exec producer) (.opened log cursor vectors)
          steps) := by
    intro whole steps hmeets
    refine run_inv_of_meets _ ?_ (restartInv_opened whole J log cursor vectors)
      hmeets
    exact fun σ step h hok => h.exec step hok.1 hok.2
  have hbroken : ∀ steps : List EvolveStep,
      Meets (EvolveState.exec producer) (Steady J)
        (.opened log cursor vectors) steps →
      RestartInv False J log (evolveQueue log cursor) (startEdge log)
        (run (EvolveState.exec producer) (.opened log cursor vectors)
          steps) := by
    intro steps hsteady
    exact hinv False steps (hsteady.mono fun σ step hok => ⟨hok, False.elim⟩)
  refine ⟨?_, ?_⟩
  · intro steps steps' hsteady hsteady' hdrained hdrained'
    have h := hbroken steps hsteady
    have h' := hbroken steps' hsteady'
    refine ⟨?_, ?_, ?_⟩
    · intro n
      rw [h.entities hdrained, h'.entities hdrained']
    · intro κ
      rw [h.edges hdrained, h'.edges hdrained']
    · intro huncut κ hκ
      have hboth : Meets (EvolveState.exec producer)
          (fun σ step => Steady J σ step ∧ (True → Uncut producer σ step))
          (.opened log cursor vectors) steps' := by
        exact hsteady'.and (huncut.mono fun σ step hok _ => hok)
      have hwhole := hinv True steps' hboth
      exact (h.retired hdrained κ).1
        ((hwhole.retired hdrained' κ).2 trivial hκ)
  · intro steps hfolded
    have h : FoldedInv log (run (EvolveState.exec producer)
        (.opened log cursor vectors) steps) :=
      run_inv_of_meets _
        (fun σ step hinv hok => hinv.exec producer step hok)
        (foldedInv_opened log cursor vectors) hfolded
    exact h.once

/-! ## Runs -/

/-- An edge, and a memory that replaces it. -/
def replacingLog : EventLog :=
  [{ linkMachineEvent ⟨"A", "r", "C"⟩ 900 "p" [] with id := "l1" },
    { Event.draft memoryEventType (.obj [("text", .str "t")]) none with
      id := "m1" }]

def replacing : ExtractProposals :=
  { entities := []
    relations := [⟨"a", "r", "b", 900, "t"⟩]
    retractions := [⟨"a", "r", "c", "replaced", 900⟩] }

def nothingProposed : ExtractProposals := ⟨[], [], []⟩

/-- Every mention stands for an entity. -/
def capitals (mention : String) : Option String :=
  if mention = "a" then some "A"
  else if mention = "b" then some "B"
  else some "C"

def replacingJudgement : Judgement :=
  ⟨fun _ => replacing, fun _ => replacing, capitals⟩

/-- A tick up to its invalidation. -/
def replacingStart : List EvolveStep :=
  [.begin, .propose [] (some replacing), .resolve (.merge "A"),
    .resolve (.merge "B"), .resolve (.merge "A"), .resolve (.merge "C"),
    .critique (some replacing), .emit (.plain "x1")]

def replacingWhole : List EvolveStep :=
  replacingStart ++ [.emit (.plain "x2"), .emit (.plain "x3"),
    .propose [] none, .fold, .advance]

/-- The process stops after the invalidation; the next tick proposes `again`.
-/
def replacingCut (again : ExtractProposals) : List EvolveStep :=
  replacingStart ++ [.crash, .begin, .propose [] (some replacing),
    .resolve (.merge "A"), .resolve (.merge "B"), .resolve (.merge "A"),
    .resolve (.merge "C"), .critique (some again), .emit (.plain "x4"),
    .emit (.plain "x5"), .propose [] none, .fold, .advance]

section Samples

variable {memory : QueuedMemory} {rest : List QueuedMemory}
  {recalled : List String} {answer : ExtractProposals} {readSet : List String}
  {proposals : ExtractProposals} {mention entityType : String}
  {work ids : List (String × String)} {resolved : Resolved} {producer : String}

theorem steady_propose (htick : σ.tick = some tick)
    (hbatch : tick.batch = memory :: rest)
    (hanswer : answer = J.proposals memory) :
    Steady J σ (.propose recalled (some answer)) := by
  intro tick' memory' rest' htick' hbatch' p hp
  rw [htick] at htick'
  cases htick'
  rw [hbatch] at hbatch'
  cases hbatch'
  cases hp
  exact hanswer

theorem steady_propose_none : Steady J σ (.propose recalled none) := by
  intro _ _ _ _ _ p hp
  cases hp

theorem steady_resolve (htick : σ.tick = some tick)
    (hphase : tick.phase =
      .resolving readSet proposals ((mention, entityType) :: work) ids)
    (hanswer : ids.lookup mention = none →
      J.Resolves σ tick mention resolved) : Steady J σ (.resolve resolved) := by
  intro tick' _ _ _ _ _ _ htick' hphase' hids _
  rw [htick] at htick'
  cases htick'
  rw [hphase] at hphase'
  cases hphase'
  exact hanswer hids

theorem steady_critique (htick : σ.tick = some tick)
    (hbatch : tick.batch = memory :: rest)
    (hanswer : answer = J.critiques (truncateForReasoner memory.text)) :
    Steady J σ (.critique (some answer)) := by
  intro tick' memory' rest' htick' hbatch' p hp
  rw [htick] at htick'
  cases htick'
  rw [hbatch] at hbatch'
  cases hbatch'
  cases hp
  exact hanswer

theorem uncut_of {step : EvolveStep} (hfail : step ≠ .fail)
    (hcrash : step ≠ .crash)
    (htick : step = .advance ∨ (σ.exec producer step).tick.isSome) :
    Uncut producer σ step := by
  refine ⟨hfail, hcrash, ?_⟩
  intro hadvance _ hnone
  rcases htick with heq | hsome
  · exact hadvance heq
  · rw [hnone] at hsome
    cases hsome

end Samples

/-- What Pass B keeps depends on the edges it is shown. -/
def Answers (critiques : String → List EdgeKey → ExtractProposals)
    (J : Judgement) (σ : EvolveState) : EvolveStep → Prop
  | .critique answer => ∀ tick memory rest readSet proposals ids,
      σ.tick = some tick → tick.batch = memory :: rest →
      tick.phase = .resolving readSet proposals [] ids → ∀ p, answer = some p →
        p = critiques (truncateForReasoner memory.text)
          (neighborhood σ.graph ids)
  | step => Steady J σ step

/-- The edge is replaced where it is shown. -/
def whereShown (_ : String) (lines : List EdgeKey) : ExtractProposals :=
  if lines.contains ⟨"a", "r", "c"⟩ then replacing else nothingProposed

theorem replacingWhole_steady :
    Meets (EvolveState.exec "p") (Steady replacingJudgement)
      (.opened replacingLog 0 []) replacingWhole :=
  ⟨trivial, steady_propose rfl rfl rfl, steady_resolve rfl rfl fun _ => rfl,
    steady_resolve rfl rfl fun _ => rfl,
    steady_resolve rfl rfl fun _ => rfl, steady_resolve rfl rfl fun _ => rfl,
    steady_critique rfl rfl rfl, trivial, trivial, trivial,
    steady_propose_none, trivial, trivial, trivial⟩

theorem replacingCut_steady :
    Meets (EvolveState.exec "p") (Steady replacingJudgement)
      (.opened replacingLog 0 []) (replacingCut replacing) :=
  ⟨trivial, steady_propose rfl rfl rfl, steady_resolve rfl rfl fun _ => rfl,
    steady_resolve rfl rfl fun _ => rfl,
    steady_resolve rfl rfl fun _ => rfl, steady_resolve rfl rfl fun _ => rfl,
    steady_critique rfl rfl rfl, trivial, trivial, trivial,
    steady_propose rfl rfl rfl, steady_resolve rfl rfl fun _ => rfl,
    steady_resolve rfl rfl fun _ => rfl, steady_resolve rfl rfl fun _ => rfl,
    steady_resolve rfl rfl fun _ => rfl, steady_critique rfl rfl rfl, trivial,
    trivial, steady_propose_none, trivial, trivial, trivial⟩

theorem replacingWhole_uncut :
    Meets (EvolveState.exec "p") (Uncut "p") (.opened replacingLog 0 [])
      replacingWhole := by
  refine ⟨?_, ?_, ?_, ?_, ?_, ?_, ?_, ?_, ?_, ?_, ?_, ?_, ?_, trivial⟩
  case refine_13 => exact uncut_of (by simp) (by simp) (.inl rfl)
  all_goals exact uncut_of (by simp) (by simp) (.inr rfl)

theorem evolve_restartable_sample :
    ((∀ κ, κ ∈ (run (EvolveState.exec "p") (.opened replacingLog 0 [])
          (replacingCut replacing)).currentEdges ↔
        κ ∈ (run (EvolveState.exec "p") (.opened replacingLog 0 [])
          replacingWhole).currentEdges) ∧
      ∀ κ ∈ (run (EvolveState.exec "p") (.opened replacingLog 0 [])
          replacingWhole).retiredEdges,
        κ ∈ (run (EvolveState.exec "p") (.opened replacingLog 0 [])
          (replacingCut replacing)).retiredEdges) ∧
      (run (EvolveState.exec "p") (.opened replacingLog 0 [])
        replacingWhole).currentEdges = [⟨.node "A", "r", .node "B"⟩] := by
  have hruns := (evolve_restartable "p" replacingJudgement replacingLog 0
    []).1 (replacingCut replacing) replacingWhole replacingCut_steady
    replacingWhole_steady ⟨rfl, by decide +kernel⟩ ⟨rfl, by decide +kernel⟩
  exact ⟨⟨hruns.2.1, hruns.2.2 replacingWhole_uncut⟩, by decide +kernel⟩

/-! ## What goes wrong otherwise -/

/-- A fold that fails leaves the tables the tick began on. -/
def foldFails : List EvolveStep :=
  replacingStart ++ [.emit (.plain "x2"), .emit (.plain "x3"),
    .propose [] none, .fail, .begin, .propose [] (some replacing),
    .resolve (.merge "A"), .resolve (.merge "B"), .resolve (.merge "A"),
    .resolve (.merge "C"), .critique (some replacing), .emit (.plain "x4"),
    .emit (.plain "x5"), .emit (.plain "x6"), .propose [] none, .fold,
    .advance]

/-- A memory that retracts an edge, and one that states it. -/
def wrongOrderLog : EventLog :=
  [{ Event.draft memoryEventType (.obj [("text", .str "t")]) none with
      id := "m1" },
    { Event.draft memoryEventType (.obj [("text", .str "u")]) none with
      id := "m2" }]

def retracting : ExtractProposals :=
  ⟨[], [], [⟨"a", "r", "b", "wrong", 900⟩]⟩

def stating : ExtractProposals :=
  ⟨[], [⟨"a", "r", "b", 900, "u"⟩], []⟩

def wrongOrderJudgement : Judgement :=
  ⟨fun text => if text = "t" then retracting else stating,
    fun text => if text = "t" then retracting else stating, capitals⟩

/-- Both memories, up to the link. -/
def wrongOrderStart : List EvolveStep :=
  [.begin, .propose [] (some retracting), .resolve (.merge "A"),
    .resolve (.merge "B"), .critique (some retracting), .emit (.plain "x1"),
    .propose [] (some stating), .resolve (.merge "A"), .resolve (.merge "B"),
    .critique (some stating), .emit (.plain "x2")]

def wrongOrderWhole : List EvolveStep :=
  wrongOrderStart ++ [.emit (.plain "x3"), .propose [] none, .fold, .advance]

/-- The process stops after the link. -/
def wrongOrderCut : List EvolveStep :=
  wrongOrderStart ++ [.crash, .begin, .propose [] (some retracting),
    .resolve (.merge "A"), .resolve (.merge "B"), .critique (some retracting),
    .emit (.plain "x4"), .emit (.plain "x5"), .propose [] (some stating),
    .resolve (.merge "A"), .resolve (.merge "B"), .critique (some stating),
    .emit (.plain "x6"), .emit (.plain "x7"), .propose [] none, .fold,
    .advance]

theorem answers_critique {critiques : String → List EdgeKey → ExtractProposals}
    {memory : QueuedMemory} {rest : List QueuedMemory} {readSet : List String}
    {proposals : ExtractProposals} {ids : List (String × String)}
    {answer : ExtractProposals} (htick : σ.tick = some tick)
    (hbatch : tick.batch = memory :: rest)
    (hphase : tick.phase = .resolving readSet proposals [] ids)
    (hanswer : answer = critiques (truncateForReasoner memory.text)
      (neighborhood σ.graph ids)) :
    Answers critiques J σ (.critique (some answer)) := by
  intro tick' _ _ _ _ _ htick' hbatch' hphase' p hp
  rw [htick] at htick'
  cases htick'
  rw [hbatch] at hbatch'
  cases hbatch'
  rw [hphase] at hphase'
  cases hphase'
  cases hp
  exact hanswer

theorem replacingWhole_answers :
    Meets (EvolveState.exec "p") (Answers whereShown replacingJudgement)
      (.opened replacingLog 0 []) replacingWhole := by
  obtain ⟨h₁, h₂, h₃, h₄, h₅, h₆, -, h₈, h₉, h₁₀, h₁₁, h₁₂, h₁₃, -⟩ :=
    replacingWhole_steady
  exact ⟨h₁, h₂, h₃, h₄, h₅, h₆, answers_critique rfl rfl rfl rfl, h₈, h₉,
    h₁₀, h₁₁, h₁₂, h₁₃, trivial⟩

theorem Steady.answers {critiques : String → List EdgeKey → ExtractProposals}
    {step : EvolveStep} (h : Steady J σ step)
    (hstep : ∀ answer, step ≠ .critique answer) :
    Answers critiques J σ step := by
  cases step with
  | critique answer => exact absurd rfl (hstep answer)
  | _ => exact h

theorem replacingCut_answers :
    Meets (EvolveState.exec "p") (Answers whereShown replacingJudgement)
      (.opened replacingLog 0 []) (replacingCut nothingProposed) :=
  ⟨trivial, (steady_propose rfl rfl rfl).answers (by simp),
    Steady.answers (steady_resolve rfl rfl fun _ => rfl) (by simp),
    Steady.answers (steady_resolve rfl rfl fun _ => rfl) (by simp),
    Steady.answers (steady_resolve rfl rfl fun _ => rfl) (by simp),
    Steady.answers (steady_resolve rfl rfl fun _ => rfl) (by simp),
    answers_critique rfl rfl rfl rfl, trivial, trivial, trivial,
    (steady_propose rfl rfl rfl).answers (by simp),
    Steady.answers (steady_resolve rfl rfl fun _ => rfl) (by simp),
    Steady.answers (steady_resolve rfl rfl fun _ => rfl) (by simp),
    Steady.answers (steady_resolve rfl rfl fun _ => rfl) (by simp),
    Steady.answers (steady_resolve rfl rfl fun _ => rfl) (by simp),
    answers_critique rfl rfl rfl rfl, trivial, trivial,
    steady_propose_none.answers (by simp), trivial, trivial, trivial⟩

theorem wrongOrderWhole_steady :
    Meets (EvolveState.exec "p") (Steady wrongOrderJudgement)
      (.opened wrongOrderLog 0 []) wrongOrderWhole :=
  ⟨trivial, steady_propose rfl rfl rfl, steady_resolve rfl rfl fun _ => rfl,
    steady_resolve rfl rfl fun _ => rfl, steady_critique rfl rfl rfl, trivial,
    steady_propose rfl rfl rfl, steady_resolve rfl rfl fun _ => rfl,
    steady_resolve rfl rfl fun _ => rfl, steady_critique rfl rfl rfl, trivial,
    trivial, steady_propose_none, trivial, trivial, trivial⟩

theorem wrongOrderWhole_uncut :
    Meets (EvolveState.exec "p") (Uncut "p") (.opened wrongOrderLog 0 [])
      wrongOrderWhole := by
  refine ⟨?_, ?_, ?_, ?_, ?_, ?_, ?_, ?_, ?_, ?_, ?_, ?_, ?_, ?_, ?_, trivial⟩
  case refine_15 => exact uncut_of (by simp) (by simp) (.inl rfl)
  all_goals exact uncut_of (by simp) (by simp) (.inr rfl)

theorem wrongOrderCut_steady :
    Meets (EvolveState.exec "p") (Steady wrongOrderJudgement)
      (.opened wrongOrderLog 0 []) wrongOrderCut :=
  ⟨trivial, steady_propose rfl rfl rfl, steady_resolve rfl rfl fun _ => rfl,
    steady_resolve rfl rfl fun _ => rfl, steady_critique rfl rfl rfl, trivial,
    steady_propose rfl rfl rfl, steady_resolve rfl rfl fun _ => rfl,
    steady_resolve rfl rfl fun _ => rfl, steady_critique rfl rfl rfl, trivial,
    trivial, trivial, steady_propose rfl rfl rfl,
    steady_resolve rfl rfl fun _ => rfl, steady_resolve rfl rfl fun _ => rfl,
    steady_critique rfl rfl rfl, trivial, trivial,
    steady_propose rfl rfl rfl, steady_resolve rfl rfl fun _ => rfl,
    steady_resolve rfl rfl fun _ => rfl, steady_critique rfl rfl rfl, trivial,
    trivial, steady_propose_none, trivial, trivial, trivial⟩

/-- A reasoner that is shown fewer edges after a stop links nothing in place of
the edge it has retracted. A fold that fails leaves an edge linked twice. And
an edge is invalidated on behalf of an earlier memory after a later one has
linked it. -/
theorem evolve_not_restartable :
    (Meets (EvolveState.exec "p") (Answers whereShown replacingJudgement)
        (.opened replacingLog 0 []) replacingWhole ∧
      Meets (EvolveState.exec "p") (Uncut "p") (.opened replacingLog 0 [])
        replacingWhole ∧
      Meets (EvolveState.exec "p") (Answers whereShown replacingJudgement)
        (.opened replacingLog 0 []) (replacingCut nothingProposed) ∧
      Drained (run (EvolveState.exec "p") (.opened replacingLog 0 [])
        replacingWhole) ∧
      Drained (run (EvolveState.exec "p") (.opened replacingLog 0 [])
        (replacingCut nothingProposed)) ∧
      (run (EvolveState.exec "p") (.opened replacingLog 0 [])
        replacingWhole).currentEdges = [⟨.node "A", "r", .node "B"⟩] ∧
      (run (EvolveState.exec "p") (.opened replacingLog 0 [])
        (replacingCut nothingProposed)).currentEdges = []) ∧
    (activeEdges replacingLog).count ⟨"A", "r", "B"⟩ = 0 ∧
    (activeEdges (run (EvolveState.exec "p") (.opened replacingLog 0 [])
      foldFails).log).count ⟨"A", "r", "B"⟩ = 2 ∧
    Meets (EvolveState.exec "p") (Steady wrongOrderJudgement)
      (.opened wrongOrderLog 0 []) wrongOrderWhole ∧
    Meets (EvolveState.exec "p") (Uncut "p") (.opened wrongOrderLog 0 [])
      wrongOrderWhole ∧
    Meets (EvolveState.exec "p") (Steady wrongOrderJudgement)
      (.opened wrongOrderLog 0 []) wrongOrderCut ∧
    Drained (run (EvolveState.exec "p") (.opened wrongOrderLog 0 [])
      wrongOrderWhole) ∧
    Drained (run (EvolveState.exec "p") (.opened wrongOrderLog 0 [])
      wrongOrderCut) ∧
    (run (EvolveState.exec "p") (.opened wrongOrderLog 0 [])
      wrongOrderWhole).retiredEdges = [] ∧
    (run (EvolveState.exec "p") (.opened wrongOrderLog 0 [])
      wrongOrderCut).retiredEdges = [⟨.node "A", "r", .node "B"⟩] := by
  refine ⟨⟨replacingWhole_answers, replacingWhole_uncut, replacingCut_answers,
    ⟨rfl, by decide +kernel⟩, ⟨rfl, by decide +kernel⟩, by decide +kernel,
    by decide +kernel⟩, by decide +kernel, by decide +kernel,
    wrongOrderWhole_steady, wrongOrderWhole_uncut, wrongOrderCut_steady,
    ⟨rfl, by decide +kernel⟩, ⟨rfl, by decide +kernel⟩, by decide +kernel,
    by decide +kernel⟩

end AirNote
