import AirNote.Dossier
import AirNote.Lib.Keyed
import AirNote.Lib.Trace

/-!
# Reflection

Reflection keeps a backlog of queries that recall had nothing for. A tick
seeds the new ones, attempts the oldest that are open, refreshes the pages
that cite what is gone, adds to the counters and prunes the backlog. An
attempt asks recall again, refreshes the dossiers of the topics the query
names, and replays recall; what is still missing is counted and parked when
its budget is spent.

An error of the storage ends the tick where it stands: what was written stays
written, and the rest of the tick, the counters among it, is left out. What
recall, the reasoner and the storage answer are arguments, by position.
-/

namespace AirNote.Reflection

open Dossier Lib

/-! ## The backlog -/

/-- `REFLECT_MISS_ATTEMPT_BUDGET`. -/
def reflectMissAttemptBudget : Nat := 3

/-- `REFLECT_MISSES_PER_TICK`. -/
def reflectMissesPerTick : Nat := 4

/-- `REFLECT_REFRESH_PER_TICK`. -/
def reflectRefreshPerTick : Nat := 4

/-- `REFLECT_BACKLOG_TERMINAL_TTL_SECS`. -/
def reflectBacklogTerminalTtlSecs : Int := 30 * 86400

/-- `MissState`. -/
inductive MissState where
  | opened
  | repairedByTime
  | candidateRepaired
  | noMaterial
  | parked
  deriving DecidableEq, Repr

/-- A row of `reflect_miss_backlog`. The last field is no column: it counts
the attempts of the miss that returned. -/
structure MissRow where
  key : String
  queryText : String
  firstSeen : Int
  attempts : Nat
  state : MissState
  updatedAt : Int
  completed : Nat
  deriving DecidableEq, Repr

/-- `ORDER BY first_seen ASC, normalized_query_key ASC`. -/
def MissRow.Before (a b : MissRow) : Prop :=
  a.firstSeen < b.firstSeen ∨ a.firstSeen = b.firstSeen ∧ a.key ≤ b.key

instance : DecidableRel MissRow.Before := fun _ _ =>
  inferInstanceAs (Decidable (_ ∨ _))

/-- `seed_miss`: a key that is there is left as it is. -/
def seedMiss (key query : String) (now : Int) (backlog : List MissRow) :
    List MissRow :=
  if key ∈ backlog.map MissRow.key then backlog
  else backlog ++ [⟨key, query, now, 0, .opened, now, 0⟩]

/-- `open_misses`. -/
def openMisses (limit : Nat) (backlog : List MissRow) : List MissRow :=
  ((backlog.filter fun row => row.state = .opened).insertionSort
    MissRow.Before).take limit

/-- The row `set_miss_state` leaves. -/
def MissRow.moved (state : MissState) (now : Int) (row : MissRow) : MissRow :=
  { row with state := state, updatedAt := now }

/-- `set_miss_state`. -/
def setMissState (key : String) (state : MissState) (now : Int)
    (backlog : List MissRow) : List MissRow :=
  Keyed.update MissRow.key key (MissRow.moved state now) backlog

/-- The row `bump_miss_attempt` leaves. -/
def MissRow.bumped (now : Int) (row : MissRow) : MissRow :=
  { row with attempts := row.attempts + 1, updatedAt := now }

/-- `bump_miss_attempt`, with the new count; without a row it is an error. -/
def bumpMissAttempt (key : String) (now : Int) (backlog : List MissRow) :
    Except BossclawError (List MissRow × Nat) :=
  match backlog.find? fun row => decide (row.key = key) with
  | none => .error (.store "Query returned no rows")
  | some row =>
      .ok (Keyed.update MissRow.key key (MissRow.bumped now) backlog,
        row.attempts + 1)

/-- `prune_reflect_backlog`. -/
def pruneReflectBacklog (now : Int) (backlog : List MissRow) :
    List MissRow :=
  backlog.filter fun row =>
    !((row.state = .repairedByTime ∨ row.state = .candidateRepaired) ∧
      row.updatedAt < now - reflectBacklogTerminalTtlSecs)

/-- What reflection reads and writes. -/
structure ReflectState where
  dossier : DossierState
  backlog : List MissRow
  refreshedTotal : Nat
  noMaterialTotal : Nat

/-! ## One attempt -/

/-- `MissOutcome`. -/
inductive MissOutcome where
  | repairedByTime
  | noMaterial
  | candidateRepaired
  | stillMissing
  | parked
  | reasonerError
  | transientError
  deriving DecidableEq, Repr

/-- `MissAttempt`. -/
structure MissAttempt where
  outcome : MissOutcome
  dossiersEmitted : Nat
  deriving DecidableEq, Repr

/-- What an attempt finds: whether recall has a hit, at first and at the
replay, the topics of the query, which refreshes come to what, and which
reads and writes fail. -/
structure AttemptEnv where
  hits : Except BossclawError Bool
  topics : Except BossclawError (List String)
  entitiesFail : Option BossclawError
  refresh : Nat → RefreshEnv
  rebuildFails : Option BossclawError
  indexFails : Option BossclawError
  replay : Except BossclawError Bool
  bumpFails : Option BossclawError
  stateFails : Option BossclawError

/-- The three variables the refreshes of an attempt write. -/
structure Tally where
  emitted : Nat
  reasonerErrored : Bool
  transientErrored : Bool
  deriving DecidableEq, Repr

def Tally.add (t : Tally) : TopicRefreshOutcome → Tally
  | .emitted _ => { t with emitted := t.emitted + 1 }
  | .reasonerError => { t with reasonerErrored := true }
  | .transientError => { t with transientErrored := true }
  | .skippedUnchanged => t
  | .skippedThin => t

/-- Step 3: the dossier of each resolved topic that has an entity. -/
def refreshTopics (env : Nat → RefreshEnv) (entities : List GraphEntity) :
    List String → Nat → DossierState → Tally →
      DossierState × Except BossclawError Tally
  | [], _, s, t => (s, .ok t)
  | tid :: topics, i, s, t =>
      match entities.find? fun e => e.entityId == tid with
      | none => refreshTopics env entities topics (i + 1) s t
      | some entity =>
          match refreshTopicPage (env i) s entity with
          | .error e => (s, .error e)
          | .ok (log, outcome) =>
              refreshTopics env entities topics (i + 1) { s with log := log }
                (t.add outcome)

/-- The tables after an emit, and the keyword index. -/
def indexEmitted (parseRfc3339 : String → Option String) (env : AttemptEnv)
    (emitted : Nat) (s : DossierState) :
    DossierState × Except BossclawError Unit :=
  if emitted = 0 then (s, .ok ())
  else
    match env.rebuildFails, env.indexFails with
    | some e, _ => (s, .error e)
    | none, some e => (s.rebuild parseRfc3339, .error e)
    | none, none => (s.rebuild parseRfc3339, .ok ())

/-- An attempt that ends with a state of its miss. -/
def settleMiss (env : AttemptEnv) (key : String) (state : MissState)
    (now : Int) (attempt : MissAttempt) (s : ReflectState) :
    ReflectState × Except BossclawError MissAttempt :=
  match env.stateFails with
  | some e => (s, .error e)
  | none =>
      ({ s with backlog := setMissState key state now s.backlog },
        .ok attempt)

/-- Step 4: the replay, and the bump of what is still missing. -/
def replayMiss (env : AttemptEnv) (key : String) (now : Int) (t : Tally)
    (s : ReflectState) : ReflectState × Except BossclawError MissAttempt :=
  match env.replay, env.bumpFails, bumpMissAttempt key now s.backlog with
  | .error e, _, _ => (s, .error e)
  | .ok true, _, _ =>
      settleMiss env key .candidateRepaired now ⟨.candidateRepaired, t.emitted⟩
        s
  | .ok false, some e, _ => (s, .error e)
  | .ok false, none, .error e => (s, .error e)
  | .ok false, none, .ok (backlog, attempts) =>
      let s := { s with backlog := backlog }
      if reflectMissAttemptBudget ≤ attempts then
        settleMiss env key .parked now ⟨.parked, t.emitted⟩ s
      else if t.reasonerErrored then (s, .ok ⟨.reasonerError, t.emitted⟩)
      else if t.transientErrored then (s, .ok ⟨.transientError, t.emitted⟩)
      else (s, .ok ⟨.stillMissing, t.emitted⟩)

/-- `attempt_miss`, with the state it leaves. -/
def attemptMiss (parseRfc3339 : String → Option String) (env : AttemptEnv)
    (key : String) (now : Int) (s : ReflectState) :
    ReflectState × Except BossclawError MissAttempt :=
  match env.hits, env.topics, env.entitiesFail with
  | .error e, _, _ => (s, .error e)
  | .ok true, _, _ =>
      settleMiss env key .repairedByTime now ⟨.repairedByTime, 0⟩ s
  | .ok false, .error e, _ => (s, .error e)
  | .ok false, .ok [], _ =>
      settleMiss env key .noMaterial now ⟨.noMaterial, 0⟩ s
  | .ok false, .ok (_ :: _), some e => (s, .error e)
  | .ok false, .ok (tid :: topics), none =>
      match refreshTopics env.refresh s.dossier.entities (tid :: topics) 0
          s.dossier ⟨0, false, false⟩ with
      | (dossier, .error e) => ({ s with dossier := dossier }, .error e)
      | (dossier, .ok t) =>
          match indexEmitted parseRfc3339 env t.emitted dossier with
          | (dossier, .error e) => ({ s with dossier := dossier }, .error e)
          | (dossier, .ok ()) =>
              replayMiss env key now t { s with dossier := dossier }

/-! ## The stale pages -/

/-- `StaleRefreshReport`. -/
structure StaleRefreshReport where
  healed : Nat
  unchanged : Nat
  unhealableThin : Nat
  reasonerErrors : Nat
  transientErrors : Nat
  deriving DecidableEq, Repr

/-- `StaleRefreshReport::default`. -/
def StaleRefreshReport.empty : StaleRefreshReport := ⟨0, 0, 0, 0, 0⟩

def StaleRefreshReport.add (r : StaleRefreshReport) :
    TopicRefreshOutcome → StaleRefreshReport
  | .emitted _ => { r with healed := r.healed + 1 }
  | .skippedUnchanged => { r with unchanged := r.unchanged + 1 }
  | .skippedThin => { r with unhealableThin := r.unhealableThin + 1 }
  | .reasonerError => { r with reasonerErrors := r.reasonerErrors + 1 }
  | .transientError => { r with transientErrors := r.transientErrors + 1 }

/-- What counts towards the cap. -/
def StaleRefreshReport.total (r : StaleRefreshReport) : Nat :=
  r.healed + r.unchanged + r.unhealableThin + r.reasonerErrors +
    r.transientErrors

/-- What the pass over the stale pages finds. -/
structure StaleEnv where
  foldFails : Option BossclawError
  entitiesFail : Option BossclawError
  pagesFail : Option BossclawError
  pageFails : Nat → Option BossclawError
  refresh : Nat → RefreshEnv

/-- `superseded ∪ retired_notes`. -/
def gone (log : EventLog) (id : String) : Bool :=
  let fold := foldSessions (sessionEventsOrdered log)
  decide (id ∈ fold.superseded ∨ id ∈ fold.retiredNotes)

/-- `current_pages`: by topic. -/
def currentPages (s : DossierState) : List Page :=
  s.pages.insertionSort fun a b => a.topicId ≤ b.topicId

/-- The entity of a page that cites what is gone. -/
def staleEntity (isGone : String → Bool) (entities : List GraphEntity)
    (s : DossierState) (page : Page) : Option GraphEntity :=
  (currentPageForTopic s page.topicId).bind fun (_, cites) =>
    if cites.any isGone then
      entities.find? fun e => e.entityId == page.topicId
    else none

/-- The loop of `refresh_stale_pages`. -/
def refreshPages (env : StaleEnv) (isGone : String → Bool)
    (entities : List GraphEntity) (cap : Nat) :
    List Page → Nat → DossierState → StaleRefreshReport →
      DossierState × Except BossclawError StaleRefreshReport
  | [], _, s, r => (s, .ok r)
  | page :: pages, i, s, r =>
      if cap ≤ r.total then (s, .ok r)
      else
        match env.pageFails i with
        | some e => (s, .error e)
        | none =>
            match staleEntity isGone entities s page with
            | none => refreshPages env isGone entities cap pages (i + 1) s r
            | some entity =>
                match refreshTopicPage (env.refresh i) s entity with
                | .error e => (s, .error e)
                | .ok (log, outcome) =>
                    refreshPages env isGone entities cap pages (i + 1)
                      { s with log := log } (r.add outcome)

/-- `refresh_stale_pages`, with the state it leaves. Nothing gone, nothing
stale. -/
def refreshStalePages (env : StaleEnv) (cap : Nat) (s : DossierState) :
    DossierState × Except BossclawError StaleRefreshReport :=
  let fold := foldSessions (sessionEventsOrdered s.log)
  match env.foldFails with
  | some e => (s, .error e)
  | none =>
      if fold.superseded = ∅ ∧ fold.retiredNotes = ∅ then (s, .ok .empty)
      else
        match env.entitiesFail, env.pagesFail with
        | some e, _ => (s, .error e)
        | none, some e => (s, .error e)
        | none, none =>
            refreshPages env (gone s.log) s.entities cap (currentPages s) 0 s
              .empty

/-! ## One tick -/

/-- `ReflectReport`. -/
structure ReflectReport where
  attempted : Nat
  candidateRepaired : Nat
  repairedByTime : Nat
  noMaterial : Nat
  parked : Nat
  dossiersRefreshed : Nat
  unhealableThin : Nat
  mergeProposed : Nat
  skippedDisabled : Bool
  reasonerErrors : Nat
  transientErrors : Nat
  deriving DecidableEq, Repr

/-- `ReflectReport::default`. -/
def ReflectReport.empty : ReflectReport := ⟨0, 0, 0, 0, 0, 0, 0, 0, false, 0, 0⟩

def ReflectReport.add (r : ReflectReport) : MissOutcome → ReflectReport
  | .repairedByTime => { r with repairedByTime := r.repairedByTime + 1 }
  | .noMaterial => { r with noMaterial := r.noMaterial + 1 }
  | .candidateRepaired =>
      { r with candidateRepaired := r.candidateRepaired + 1 }
  | .parked => { r with parked := r.parked + 1 }
  | .reasonerError => { r with reasonerErrors := r.reasonerErrors + 1 }
  | .transientError => { r with transientErrors := r.transientErrors + 1 }
  | .stillMissing => r

/-- The report with what the pass over the stale pages came to. -/
def ReflectReport.tidied (r : ReflectReport) (missEmits : Nat)
    (stale : StaleRefreshReport) : ReflectReport :=
  { r with
    dossiersRefreshed := missEmits + stale.healed
    unhealableThin := stale.unhealableThin
    reasonerErrors := r.reasonerErrors + stale.reasonerErrors
    transientErrors := r.transientErrors + stale.transientErrors }

/-- What a tick finds. -/
structure TickEnv where
  enabled : Except BossclawError Bool
  newMisses : List String
  seedFails : Nat → Option BossclawError
  openFails : Option BossclawError
  attempt : Nat → AttemptEnv
  stale : StaleEnv
  countersFail : Option BossclawError
  pruneFails : Option BossclawError
  now : Int

/-- The seeds of a tick; `keyOf` is `normalized_query_key`. -/
def seedMisses (keyOf : String → String) (fails : Nat → Option BossclawError)
    (now : Int) : List String → Nat → List MissRow →
      List MissRow × Except BossclawError Unit
  | [], _, backlog => (backlog, .ok ())
  | q :: queries, i, backlog =>
      match fails i with
      | some e => (backlog, .error e)
      | none =>
          seedMisses keyOf fails now queries (i + 1)
            (seedMiss (keyOf q) q now backlog)

/-- One more attempt of the miss returned. -/
def MissRow.counted (row : MissRow) : MissRow :=
  { row with completed := row.completed + 1 }

/-- One turn of the loop over the open misses: `attempt_miss`, counted where
it returns. -/
def attemptOne (parseRfc3339 : String → Option String) (env : AttemptEnv)
    (key : String) (now : Int) (s : ReflectState) :
    ReflectState × Except BossclawError MissAttempt :=
  match attemptMiss parseRfc3339 env key now s with
  | (s, .error e) => (s, .error e)
  | (s, .ok attempt) =>
      ({ s with
          backlog := Keyed.update MissRow.key key MissRow.counted s.backlog },
        .ok attempt)

/-- The loop over the open misses, with the report and `miss_emits`. -/
def attemptMisses (parseRfc3339 : String → Option String)
    (env : Nat → AttemptEnv) (now : Int) :
    List MissRow → Nat → ReflectState → ReflectReport → Nat →
      ReflectState × Except BossclawError (ReflectReport × Nat)
  | [], _, s, r, emits => (s, .ok (r, emits))
  | m :: misses, i, s, r, emits =>
      match attemptOne parseRfc3339 (env i) m.key now s with
      | (s, .error e) => (s, .error e)
      | (s, .ok attempt) =>
          attemptMisses parseRfc3339 env now misses (i + 1) s
            (({ r with attempted := r.attempted + 1 } : ReflectReport).add
              attempt.outcome)
            (emits + attempt.dossiersEmitted)

/-- The end of a tick: the counters, then the backlog pruned. -/
def closeTick (env : TickEnv) (r : ReflectReport) (s : ReflectState) :
    ReflectState × Except BossclawError ReflectReport :=
  match env.countersFail, env.pruneFails with
  | some e, _ => (s, .error e)
  | none, fails =>
      let s :=
        { s with
          refreshedTotal := s.refreshedTotal + r.dossiersRefreshed
          noMaterialTotal := s.noMaterialTotal + r.noMaterial }
      match fails with
      | some e => (s, .error e)
      | none =>
          ({ s with backlog := pruneReflectBacklog env.now s.backlog }, .ok r)

/-- `reflect_once`, with the state it leaves. -/
def reflectOnce (parseRfc3339 : String → Option String)
    (keyOf : String → String) (env : TickEnv) (s : ReflectState) :
    ReflectState × Except BossclawError ReflectReport :=
  match env.enabled with
  | .error e => (s, .error e)
  | .ok false => (s, .ok { ReflectReport.empty with skippedDisabled := true })
  | .ok true =>
      match seedMisses keyOf env.seedFails env.now env.newMisses 0
          s.backlog with
      | (backlog, .error e) => ({ s with backlog := backlog }, .error e)
      | (backlog, .ok ()) =>
          match env.openFails with
          | some e => ({ s with backlog := backlog }, .error e)
          | none =>
              match attemptMisses parseRfc3339 env.attempt env.now
                  (openMisses reflectMissesPerTick backlog) 0
                  { s with backlog := backlog } .empty 0 with
              | (s, .error e) => (s, .error e)
              | (s, .ok (r, emits)) =>
                  match refreshStalePages env.stale reflectRefreshPerTick
                      s.dossier with
                  | (dossier, .error e) =>
                      ({ s with dossier := dossier }, .error e)
                  | (dossier, .ok stale) =>
                      closeTick env (r.tidied emits stale)
                        { s with dossier := dossier }

end AirNote.Reflection
