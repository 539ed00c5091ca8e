import AirNote.Conflicts
import AirNote.Provider

/-!
# Switching the embedding model

A switch writes a signed record of consent, embeds every event under the new
model, completes the record, publishes the model and collects the vectors of
all others, each in a step of its own. The writers read the model to embed
with before they append, append before they embed, and take no part in the
switch. The daemon may stop after any step; the log, the vectors and the
record are what it finds on its next start.

## Main results

* `model_switch` — in runs whose switches do not overlap, whose events from
  the scan of a switch on are embedded by its model, and in which no restored
  note lacks a vector under it, the complete record's model has the vector of
  every event, those apart whose call has stored none since the last switch;
  and no restart serves a model whose vectors were collected.
* `model_switch_incomplete` — what goes wrong in other runs.
-/

namespace AirNote

open Lib Lib.Trace

/-! ## What a switch reads -/

def hasVector (rows : List VectorRow) (eventId modelId : String) : Bool :=
  rows.any fun v => v.eventId == eventId && v.modelId == modelId

/-- The completeness list of `reembed_prepare`, whose excluded events are read
from an earlier state of the log. -/
def embeddableUnder (seen log : EventLog) : List (String × String) :=
  (log.filterMap fun ev => (embeddableText ev).map fun t => (ev.id, t)).filter
    fun p => !embedExcluded seen p.1

/-- `collect_pending`, whose excluded events are read from an earlier state of
the log. -/
def pendingUnder (seen : EventLog) (st : Store) (modelId : String) :
    List Event :=
  st.log.filter fun ev =>
    embeddableEventTypes.contains ev.eventType
      && !hasVector st.vectors ev.id modelId
      && !embedExcluded seen ev.id

/-- `count_missing_vectors`. -/
def countMissingVectors (rows : List VectorRow) (modelId : String)
    (embeddable : List (String × String)) : Nat :=
  (embeddable.filter fun p => !hasVector rows p.1 modelId).length

/-! ## The daemon -/

/-- Where a switch is; `sweeping` is the collection a start makes up for. -/
inductive JobPhase where
  | accepted
  | spawned
  | sawExcluded (seen : EventLog)
  | listed (embeddable : List (String × String))
  | sawAgain (embeddable : List (String × String)) (seen : EventLog)
  | embedding (embeddable : List (String × String)) (pending : List Event)
  | prepared
  | completed
  | published
  | sweeping

/-- A switch to a model. -/
structure Job where
  model : String
  sha : String
  phase : JobPhase

/-- Where a writer is: it found no model in the cell, it resolved one, it
holds one, or it has appended its event. -/
inductive Writer where
  | asked
  | resolved (model : String)
  | holds (model : String)
  | appended (model eventId : String)

/-- The persisted store and record, and what the process keeps: the cell of
the provider and its state, the switches and the writers. `underived` lists
the events whose call has stored no vector and that no switch has found with
one since, `collected` the models that lost vectors and were not embedded under
again. -/
structure Daemon where
  store : Store
  record : Option LanguagePackRecord
  cell : Option String
  state : ModelState
  jobs : Nat → Option Job
  writers : Nat → Option Writer
  underived : List String
  collected : List String

def Daemon.empty : Daemon :=
  { store := .empty
    record := none
    cell := none
    state := .ok
    jobs := fun _ => none
    writers := fun _ => none
    underived := []
    collected := [] }

def Daemon.putJob (σ : Daemon) (task : Nat) (job : Option Job) : Daemon :=
  { σ with jobs := fun t => if t = task then job else σ.jobs t }

def Daemon.putWriter (σ : Daemon) (thread : Nat) (writer : Option Writer) :
    Daemon :=
  { σ with writers := fun t => if t = thread then writer else σ.writers t }

/-- `gc_stale_vectors`. -/
def Daemon.collect (σ : Daemon) (keep : String) : Daemon :=
  { σ with
    store := gcStaleVectors σ.store keep
    collected := σ.collected ++
      (σ.store.vectors.map VectorRow.modelId).filter fun m => m != keep }

/-! ## The steps of a switch -/

/-- The task ends with an error; a migration reports it. -/
def Daemon.failJob (σ : Daemon) (task : Nat) (reason : String) : Daemon :=
  match σ.jobs task with
  | none => σ
  | some job =>
      match job.phase with
      | .accepted => σ.putJob task none
      | .sweeping => σ.putJob task none
      | _ => { σ.putJob task none with state := .failed reason }

/-- The checks of `set_active_model`, where they pass: the healthy model of a
complete record is not switched to again. -/
def Daemon.request (σ : Daemon) (task : Nat) (model sha : String) : Daemon :=
  match σ.jobs task with
  | some _ => σ
  | none =>
      if σ.state = .ok ∧ completeModel σ.record = some model then σ
      else σ.putJob task (some ⟨model, sha, .accepted⟩)

/-- `resume_migration_if_pending`. -/
def Daemon.resume (σ : Daemon) (task : Nat) : Daemon :=
  match σ.jobs task, σ.record with
  | none, some r =>
      match r.migration with
      | .inProgress =>
          σ.putJob task (some ⟨r.modelId, r.safetensorsSha, .spawned⟩)
      | .complete =>
          σ.putJob task (some ⟨r.modelId, r.safetensorsSha, .sweeping⟩)
  | _, _ => σ

/-- The next step of `set_active_model`, `run_language_migration` and
`reembed_prepare`, the embeddings excepted. -/
def Daemon.advance (σ : Daemon) (task : Nat) (consentedAt : String) : Daemon :=
  match σ.jobs task with
  | none => σ
  | some job =>
      match job.phase with
      | .accepted =>
          { σ.putJob task (some { job with phase := .spawned }) with
            record := some ⟨job.model, job.sha, .inProgress, consentedAt⟩ }
      | .spawned =>
          σ.putJob task (some { job with phase := .sawExcluded σ.store.log })
      | .sawExcluded seen =>
          σ.putJob task (some { job with
            phase := .listed (embeddableUnder seen σ.store.log) })
      | .listed embeddable =>
          σ.putJob task (some { job with
            phase := .sawAgain embeddable σ.store.log })
      | .sawAgain embeddable seen =>
          σ.putJob task (some { job with
            phase := .embedding embeddable
              (pendingUnder seen σ.store job.model) })
      | .embedding embeddable [] =>
          let missing :=
            countMissingVectors σ.store.vectors job.model embeddable
          if missing > 0 then
            σ.failJob task
              s!"re-embed incomplete: {missing} of {embeddable.length} embeddable events still lack a vector under {job.model} — no vectors were garbage-collected; retry"
          else
            { σ.putJob task (some { job with phase := .prepared }) with
              underived := σ.underived.filter fun id =>
                !(embeddable.map Prod.fst).contains id
              collected := σ.collected.filter fun m => m != job.model }
      | .embedding _ (_ :: _) => σ
      | .prepared =>
          { σ.putJob task (some { job with phase := .completed }) with
            record := some ⟨job.model, job.sha, .complete, consentedAt⟩ }
      | .completed =>
          { σ.putJob task (some { job with phase := .published }) with
            cell := some job.model
            state := .ok }
      | .published => (σ.collect job.model).putJob task none
      | .sweeping => (σ.collect job.model).putJob task none

/-- The store after `embed_and_upsert`, on what the model answers: a dimension
and a blob, or a failure. -/
def storeVector (st : Store) (model : String) (event : Event)
    (vector : Option (Nat × Bytes)) : Store :=
  match embeddableText event, vector with
  | some _, some (dim, blob) =>
      let row : VectorRow :=
        { eventId := event.id, modelId := model, dim := dim,
          embedding := blob }
      { st with vectors := upsertVector row st.vectors }
  | _, _ => st

/-- The next pending event of a switch is embedded; a failure is passed
over. -/
def Daemon.embedNext (σ : Daemon) (task : Nat)
    (vector : Option (Nat × Bytes)) : Daemon :=
  match σ.jobs task with
  | some ⟨model, sha, .embedding embeddable (event :: rest)⟩ =>
      { σ.putJob task (some ⟨model, sha, .embedding embeddable rest⟩) with
        store := storeVector σ.store model event vector }
  | _ => σ

/-! ## The steps of the writers -/

/-- What a writer appends. Its own checks only decide whether it does. -/
inductive WriterCall where
  | remember (text : String)
  | edit (target text : String)
  | capture (dateLabel : Int → String) (sm : SessionMeta)
  | recapture (dateLabel : Int → String) (sm : SessionMeta) (prior : String)

/-- The log after the append, and the identifier of the event to embed. -/
def WriterCall.append (m₁ m₂ : Mint) (log : EventLog) :
    WriterCall → Except BossclawError (EventLog × String)
  | .remember text => AirNote.append m₁ log (externalNoteEvent text)
  | .edit target text =>
      (AirNote.appendPair m₁ m₂ log (groundTruthSupersedeEvent target)
        (externalNoteEvent text)).map fun r => (r.1, r.2.2)
  | .capture dateLabel sm =>
      AirNote.append m₁ log (sessionCapturedEvent dateLabel sm)
  | .recapture dateLabel sm prior =>
      (AirNote.appendPair m₁ m₂ log (groundTruthSupersedeEvent prior)
        (sessionCapturedEvent dateLabel sm)).map fun r => (r.1, r.2.2)

/-- A marker that is appended alone. -/
inductive Marker where
  | retire (target : String) (src : Option String)
  | unretire (target : String)
  | deleteSession (sid : String)

def Marker.event : Marker → Event
  | .retire target src => noteRetiredEvent target src
  | .unretire target => unretireEvent target
  | .deleteSession sid => sessionDeletedEvent sid

/-- The first read of `embedder_for`. -/
def Daemon.ask (σ : Daemon) (thread : Nat) : Daemon :=
  match σ.writers thread with
  | some _ => σ
  | none =>
      match σ.cell with
      | some model => σ.putWriter thread (some (.holds model))
      | none => σ.putWriter thread (some .asked)

/-- `embedder_for` resolves the model of an empty cell. -/
def Daemon.resolve (cfg : Resolution) (σ : Daemon) (thread : Nat)
    (weights : Weights) : Daemon :=
  match σ.writers thread with
  | some .asked =>
      match AirNote.resolve cfg σ.record weights σ.state with
      | (state, .ok model) =>
          { σ.putWriter thread (some (.resolved model)) with state := state }
      | (state, .error _) => { σ.putWriter thread none with state := state }
  | _ => σ

/-- `embedder_for` loads the model and puts it in the cell. -/
def Daemon.load (σ : Daemon) (thread : Nat) : Daemon :=
  match σ.writers thread with
  | some (.resolved model) =>
      { σ.putWriter thread (some (.holds model)) with cell := some model }
  | _ => σ

def Daemon.append (σ : Daemon) (thread : Nat) (m₁ m₂ : Mint)
    (call : WriterCall) : Daemon :=
  match σ.writers thread with
  | some (.holds model) =>
      match call.append m₁ m₂ σ.store.log with
      | .ok (log, id) =>
          { σ.putWriter thread (some (.appended model id)) with
            store := { σ.store with log := log }
            underived := id :: σ.underived }
      | .error _ => σ.putWriter thread none
  | _ => σ

/-- `derive_vector_for`; a failed embedding ends the call. -/
def Daemon.derive (σ : Daemon) (thread : Nat)
    (vector : Option (Nat × Bytes)) : Daemon :=
  match σ.writers thread with
  | some (.appended model id) =>
      match eventById σ.store.log id, vector with
      | some event, some _ =>
          { σ.putWriter thread none with
            store := storeVector σ.store model event vector
            underived := σ.underived.filter fun x => x != id }
      | _, _ => σ.putWriter thread none
  | _ => σ

/-! ## Runs -/

/-- One step of the daemon; `crash` stops the process and starts it again. -/
inductive DaemonStep where
  | request (task : Nat) (model sha : String)
  | resume (task : Nat)
  | advance (task : Nat) (consentedAt : String)
  | embed (task : Nat) (vector : Option (Nat × Bytes))
  | fail (task : Nat) (reason : String)
  | ask (thread : Nat)
  | resolve (thread : Nat) (weights : Weights)
  | load (thread : Nat)
  | append (thread : Nat) (m₁ m₂ : Mint) (call : WriterCall)
  | derive (thread : Nat) (vector : Option (Nat × Bytes))
  | stop (thread : Nat)
  | mark (m : Mint) (marker : Marker)
  | crash

def Daemon.exec (cfg : Resolution) (σ : Daemon) : DaemonStep → Daemon
  | .request task model sha => σ.request task model sha
  | .resume task => σ.resume task
  | .advance task consentedAt => σ.advance task consentedAt
  | .embed task vector => σ.embedNext task vector
  | .fail task reason => σ.failJob task reason
  | .ask thread => σ.ask thread
  | .resolve thread weights => σ.resolve cfg thread weights
  | .load thread => σ.load thread
  | .append thread m₁ m₂ call => σ.append thread m₁ m₂ call
  | .derive thread vector => σ.derive thread vector
  | .stop thread => σ.putWriter thread none
  | .mark m marker =>
      { σ with store := (σ.store.append m marker.event).1 }
  | .crash =>
      { σ with
        cell := none
        state := .ok
        jobs := fun _ => none
        writers := fun _ => none }

/-! ## What has to hold -/

/-- The switch has written its record, or the sweep has begun. -/
def JobPhase.underWay : JobPhase → Bool
  | .accepted => false
  | _ => true

def JobPhase.migrates : JobPhase → Bool
  | .accepted => false
  | .sweeping => false
  | _ => true

/-- The events whose vectors the switch has yet to find, once it has listed
them. -/
def JobPhase.listedIds : JobPhase → Option (List String)
  | .listed embeddable => some (embeddable.map Prod.fst)
  | .sawAgain embeddable _ => some (embeddable.map Prod.fst)
  | .embedding embeddable _ => some (embeddable.map Prod.fst)
  | .prepared => some []
  | .completed => some []
  | .published => some []
  | _ => none

def Daemon.Migrating (σ : Daemon) : Prop :=
  ∃ t job, σ.jobs t = some job ∧ job.phase.migrates = true

/-- The vectors have to be complete under the model, the listed events
excepted: a switch to it has listed them, or its record is complete and no
migration runs. -/
def Daemon.Obliged (σ : Daemon) (model : String) (listed : List String) :
    Prop :=
  (∃ t job, σ.jobs t = some job ∧ job.model = model ∧
    job.phase.listedIds = some listed) ∨
  (¬ σ.Migrating ∧ completeModel σ.record = some model ∧ listed = [])

/-- A switch to the model has read the excluded events, and no more. -/
def Daemon.Scanning (σ : Daemon) (model : String) : Prop :=
  ∃ t job seen, σ.jobs t = some job ∧ job.model = model ∧
    job.phase = .sawExcluded seen

def Daemon.Idle (σ : Daemon) : Prop :=
  ∀ t job, σ.jobs t = some job → job.phase.underWay = false

/-- Switches and sweeps do not overlap, and a switch begins while the model
served without one has lost no vectors; what a collection keeps is served
under an override too; an event that the scan of the switch does not see is
embedded by its model; a note restored since has its vector. -/
def OrderlySwitch (cfg : Resolution) (σ : Daemon) : DaemonStep → Prop
  | .advance task _ => ∀ job, σ.jobs task = some job →
      (job.phase = .accepted → σ.Idle ∧ servedModel cfg none ∉ σ.collected) ∧
      (job.phase = .published ∨ job.phase = .sweeping →
        ∀ id, cfg.envOverride = some id → id = job.model)
  | .resume _ => σ.Idle
  | .append thread _ _ _ => ∀ held, σ.writers thread = some (.holds held) →
      ∀ model listed, σ.Obliged model listed → held = model
  | .mark _ (.unretire id) => ∀ model,
      σ.Scanning model ∨ (∃ listed, σ.Obliged model listed) →
        hasVector σ.store.vectors id model = true
  | _ => True

/-- Where the record is complete and no migration runs, every embeddable event
that is not excluded or exempt has its vector under the model. -/
def VectorsComplete (σ : Daemon) (exempt : List String) : Prop :=
  ¬ σ.Migrating → ∀ model, completeModel σ.record = some model →
    ∀ ev ∈ σ.store.log, (embeddableText ev).isSome = true →
      embedExcluded σ.store.log ev.id = false → ev.id ∉ exempt →
      hasVector σ.store.vectors ev.id model = true

/-- What a start of the daemon resolves to has not lost its vectors. -/
def RestartKept (cfg : Resolution) (σ : Daemon) : Prop :=
  ∀ weights model, (AirNote.resolve cfg σ.record weights .ok).2 = .ok model →
    model ∉ σ.collected

/-! ## Vectors -/

theorem hasVector_iff {rows : List VectorRow} {id model : String} :
    hasVector rows id model = true ↔
      ∃ v ∈ rows, v.eventId = id ∧ v.modelId = model := by
  simp only [hasVector, List.any_eq_true, Bool.and_eq_true, beq_iff_eq]

theorem hasVector_upsert {row : VectorRow} {rows : List VectorRow}
    {id model : String} :
    hasVector (upsertVector row rows) id model = true ↔
      hasVector rows id model = true ∨
        (row.eventId = id ∧ row.modelId = model) := by
  rw [hasVector_iff, hasVector_iff]
  constructor
  · rintro ⟨v, hv, hid, hmodel⟩
    rcases List.mem_append.mp hv with hold | hnew
    · exact .inl ⟨v, (List.mem_filter.mp hold).1, hid, hmodel⟩
    · rw [List.mem_singleton.mp hnew] at hid hmodel
      exact .inr ⟨hid, hmodel⟩
  · rintro (⟨v, hv, hid, hmodel⟩ | ⟨hid, hmodel⟩)
    · by_cases hsame : v.eventId = row.eventId ∧ v.modelId = row.modelId
      · refine ⟨row, List.mem_append_right _ (by simp), ?_, ?_⟩
        · rw [← hsame.1, hid]
        · rw [← hsame.2, hmodel]
      · refine ⟨v, List.mem_append_left _ ?_, hid, hmodel⟩
        rw [List.mem_filter]
        refine ⟨hv, ?_⟩
        rw [Bool.not_eq_true', ← Bool.not_eq_true, Bool.and_eq_true,
          beq_iff_eq, beq_iff_eq]
        exact hsame
    · exact ⟨row, List.mem_append_right _ (by simp), hid, hmodel⟩

theorem storeVector_log (st : Store) (model : String) (event : Event)
    (vector : Option (Nat × Bytes)) :
    (storeVector st model event vector).log = st.log := by
  unfold storeVector
  split
  · rfl
  · rfl

theorem hasVector_storeVector {st : Store} {model model' id : String}
    {event : Event} {vector : Option (Nat × Bytes)}
    (h : hasVector st.vectors id model' = true) :
    hasVector (storeVector st model event vector).vectors id model' = true := by
  unfold storeVector
  split
  · exact hasVector_upsert.2 (.inl h)
  · exact h

theorem hasVector_storeVector_self {st : Store} {model : String}
    {event : Event} {vector : Option (Nat × Bytes)}
    (htext : (embeddableText event).isSome = true)
    (hvector : vector.isSome = true) :
    hasVector (storeVector st model event vector).vectors event.id model =
      true := by
  obtain ⟨text, htext⟩ := Option.isSome_iff_exists.mp htext
  obtain ⟨pair, hpair⟩ := Option.isSome_iff_exists.mp hvector
  simp only [storeVector, htext, hpair]
  exact hasVector_upsert.2 (.inr ⟨rfl, rfl⟩)

theorem hasVector_gc {st : Store} {id keep : String}
    (h : hasVector st.vectors id keep = true) :
    hasVector (gcStaleVectors st keep).vectors id keep = true := by
  obtain ⟨v, hv, hid, hmodel⟩ := hasVector_iff.1 h
  refine hasVector_iff.2 ⟨v, List.mem_filter.mpr ⟨hv, ?_⟩, hid, hmodel⟩
  rw [beq_iff_eq]
  exact hmodel

/-! ## Excluded events -/

theorem embedExcluded_iff {log : EventLog} {id : String} :
    embedExcluded log id = true ↔
      (∃ e ∈ log, Supersedes id e) ∨
      Fold.LastSets (RetiresNote id) (UnretiresNote id) log ∨
      ∃ e ∈ log, e.id = id ∧ ∃ sid, IsCaptureOf sid e ∧
        ∃ d ∈ log, Deletes sid d := by
  unfold embedExcluded
  simp only [Bool.or_eq_true, decide_eq_true_iff, mem_superseded_log,
    mem_retiredNotes_log, List.any_eq_true, Bool.and_eq_true, beq_iff_eq,
    or_assoc]
  refine or_congr_right (or_congr_right ?_)
  constructor
  · rintro ⟨e, he, ⟨htype, hid⟩, hdel⟩
    cases hsid : e.content.getStr? "session_id" with
    | none => simp [hsid] at hdel
    | some sid =>
        simp only [hsid, decide_eq_true_iff] at hdel
        exact ⟨e, (List.mem_filter.mp he).1, hid, sid, ⟨htype, hsid⟩,
          mem_deleted_log.1 hdel⟩
  · rintro ⟨e, he, hid, sid, hcap, hdel⟩
    refine ⟨e, ?_, ⟨hcap.1, hid⟩, ?_⟩
    · rw [sessionEventsOrdered, List.mem_filter]
      exact ⟨he, isSessionStreamType_of_mem (by simp [hcap.1])⟩
    · simp only [hcap.2, decide_eq_true_iff]
      exact mem_deleted_log.2 hdel

/-- Only a restored note is no longer excluded. -/
theorem embedExcluded_append {log suffix : EventLog} {id : String}
    (h : embedExcluded log id = true)
    (hkept : ∀ e ∈ suffix, ¬ UnretiresNote id e) :
    embedExcluded (log ++ suffix) id = true := by
  rw [embedExcluded_iff] at h ⊢
  rcases h with ⟨e, he, hs⟩ | hret | ⟨e, he, hid, sid, hcap, d, hd, hdel⟩
  · exact .inl ⟨e, List.mem_append_left suffix he, hs⟩
  · exact .inr (.inl ((Fold.lastSets_append _ _ _ _).mpr
      (.inr ⟨hret, hkept⟩)))
  · exact .inr (.inr ⟨e, List.mem_append_left suffix he, hid, sid, hcap, d,
      List.mem_append_left suffix hd, hdel⟩)

/-! ## The invariant -/

/-- Every embeddable event that is not excluded is listed, has its vector, or
waits for it from a writer that embeds under the model. -/
def Daemon.Secured (σ : Daemon) (model : String) (listed : List String) :
    Prop :=
  ∀ ev ∈ σ.store.log, (embeddableText ev).isSome = true →
    embedExcluded σ.store.log ev.id = false →
    ev.id ∈ listed ∨ hasVector σ.store.vectors ev.id model = true ∨
      (ev.id ∈ σ.underived ∧ ∀ t held,
        σ.writers t = some (.appended held ev.id) → held = model)

/-- What the record says in each phase. -/
def JobPhase.Recorded (phase : JobPhase) (model : String)
    (record : Option LanguagePackRecord) : Prop :=
  match phase with
  | .accepted => True
  | .completed => completeModel record = some model
  | .published => completeModel record = some model
  | .sweeping => completeModel record = some model
  | _ => completeModel record = none

structure SwitchInv (cfg : Resolution) (σ : Daemon) : Prop where
  uniqueIds : UniqueIds σ.store.log
  appended : ∀ t model id, σ.writers t = some (.appended model id) →
    ∃ ev ∈ σ.store.log, ev.id = id
  single : ∀ t t' job job', σ.jobs t = some job → σ.jobs t' = some job' →
    job.phase.underWay = true → job'.phase.underWay = true → t = t'
  recorded : ∀ t job, σ.jobs t = some job →
    job.phase.Recorded job.model σ.record
  scanning : ∀ t job seen, σ.jobs t = some job →
    job.phase = .sawExcluded seen → ∀ id,
      embedExcluded σ.store.log id = false →
      embedExcluded seen id = false ∨
        hasVector σ.store.vectors id job.model = true
  secured : ∀ model listed, σ.Obliged model listed → σ.Secured model listed
  served : servedModel cfg σ.record ∉ σ.collected
  prepared : ∀ t job, σ.jobs t = some job → job.phase = .prepared →
    job.model ∉ σ.collected

theorem switchInv_empty (cfg : Resolution) : SwitchInv cfg .empty where
  uniqueIds := uniqueIds_nil
  appended := by
    intro t model id h
    cases h
  single := by
    intro t t' job job' h
    cases h
  recorded := by
    intro t job h
    cases h
  scanning := by
    intro t job seen h
    cases h
  secured := by
    rintro model listed - ev hev
    cases hev
  served := List.not_mem_nil
  prepared := by
    intro t job h
    cases h

/-- The invariant is what is asked for. -/
theorem SwitchInv.vectorsComplete {cfg : Resolution} {σ : Daemon}
    (h : SwitchInv cfg σ) : VectorsComplete σ σ.underived := by
  intro hnone model hmodel ev hev htext hexcl hderived
  rcases h.secured model [] (.inr ⟨hnone, hmodel, rfl⟩) ev hev htext hexcl with
    hlisted | hvector | ⟨hunder, -⟩
  · cases hlisted
  · exact hvector
  · exact absurd hunder hderived

theorem SwitchInv.restartKept {cfg : Resolution} {σ : Daemon}
    (h : SwitchInv cfg σ) : RestartKept cfg σ := by
  intro weights model hmodel
  rw [resolve_ok hmodel]
  exact h.served

theorem JobPhase.underWay_eq_false {phase : JobPhase} :
    phase.underWay = false ↔ phase = .accepted := by
  cases phase <;> simp [JobPhase.underWay]

/-- A step that touches nothing the invariant speaks of, but for writers that
have not appended. -/
theorem SwitchInv.of_writers {cfg : Resolution} {σ σ' : Daemon}
    (h : SwitchInv cfg σ) (hstore : σ'.store = σ.store)
    (hrecord : σ'.record = σ.record) (hjobs : σ'.jobs = σ.jobs)
    (hunder : σ'.underived = σ.underived)
    (hcollected : σ'.collected = σ.collected)
    (hwriters : ∀ t model id, σ'.writers t = some (.appended model id) →
      σ.writers t = some (.appended model id)) : SwitchInv cfg σ' where
  uniqueIds := by
    rw [hstore]
    exact h.uniqueIds
  appended := by
    intro t model id ht
    rw [hstore]
    exact h.appended t model id (hwriters t model id ht)
  single := by
    rw [hjobs]
    exact h.single
  recorded := by
    rw [hjobs, hrecord]
    exact h.recorded
  scanning := by
    rw [hjobs, hstore]
    exact h.scanning
  secured := by
    intro model listed hobliged ev hev htext hexcl
    have hobliged' : σ.Obliged model listed := by
      unfold Daemon.Obliged Daemon.Migrating at hobliged ⊢
      rw [hjobs, hrecord] at hobliged
      exact hobliged
    rw [hstore] at hev hexcl ⊢
    rw [hunder]
    rcases h.secured model listed hobliged' ev hev htext hexcl with
      hlisted | hvector | ⟨hwait, hheld⟩
    · exact .inl hlisted
    · exact .inr (.inl hvector)
    · exact .inr (.inr ⟨hwait, fun t held ht =>
        hheld t held (hwriters t held ev.id ht)⟩)
  served := by
    rw [hrecord, hcollected]
    exact h.served
  prepared := by
    rw [hjobs, hcollected]
    exact h.prepared

/-! ## Writers keep the invariant -/

/-- What a writer's append does to the log: one event may be embedded, under a
fresh identifier, and no note is restored. -/
structure Appended (log log' : EventLog) (id : String) : Prop where
  grows : ∃ suffix, log' = log ++ suffix ∧
    (∀ e ∈ suffix, ∀ x, ¬ UnretiresNote x e) ∧
    ∀ e ∈ suffix, (embeddableText e).isSome = true → e.id = id
  present : ∃ e ∈ log', e.id = id
  fresh : ∀ e ∈ log, e.id ≠ id
  unique : UniqueIds log → UniqueIds log'

theorem appended_of_append {m : Mint} {log log' : EventLog} {draft : Event}
    {id : String} (h : AirNote.append m log draft = .ok (log', id))
    (htype : draft.eventType ≠ unretireEventType) : Appended log log' id := by
  obtain ⟨rfl, stored, hs, rfl⟩ := append_ok h
  refine
    { grows := ⟨[stored], rfl, ?_, ?_⟩
      present := ⟨stored, by simp, hs.id_eq⟩
      fresh := hs.fresh
      unique := fun hu => hu.stored hs }
  · intro e he x hun
    rw [List.mem_singleton.mp he] at hun
    exact htype (hs.eventType_eq.symm.trans hun.1)
  · intro e he _
    rw [List.mem_singleton.mp he]
    exact hs.id_eq

theorem embeddableText_eq_none {ev : Event}
    (h : ev.eventType ∉ embeddableEventTypes) : embeddableText ev = none := by
  unfold embeddableText
  rw [if_neg (by rwa [List.contains_iff_mem])]

theorem appended_of_appendPair {m₁ m₂ : Mint} {log log' : EventLog}
    {first second : Event} {ids : String × String}
    (h : AirNote.appendPair m₁ m₂ log first second = .ok (log', ids))
    (hfirst : first.eventType = supersedeEventType)
    (hsecond : second.eventType ≠ unretireEventType) :
    Appended log log' ids.2 := by
  obtain ⟨log₁, h₁, h₂⟩ := appendPair_ok h
  obtain ⟨-, marker, hs₁, rfl⟩ := appendEventInTx_ok h₁
  obtain ⟨hid, stored, hs₂, rfl⟩ := appendEventInTx_ok h₂
  have hmarker : marker.eventType = supersedeEventType :=
    hs₁.eventType_eq.trans hfirst
  refine
    { grows := ⟨[marker, stored], by simp, ?_, ?_⟩
      present := ⟨stored, by simp, hs₂.id_eq.trans hid.symm⟩
      fresh := ?_
      unique := fun hu => (hu.stored hs₁).stored hs₂ }
  · intro e he x hun
    rcases List.mem_cons.mp he with hsame | hmem
    · rw [hsame] at hun
      exact absurd (hmarker.symm.trans hun.1) (by decide)
    · rw [List.mem_singleton.mp hmem] at hun
      exact hsecond (hs₂.eventType_eq.symm.trans hun.1)
  · intro e he htext
    rcases List.mem_cons.mp he with hsame | hmem
    · have hnone : embeddableText marker = none := by
        refine embeddableText_eq_none ?_
        rw [hmarker]
        decide
      rw [hsame, hnone] at htext
      cases htext
    · rw [List.mem_singleton.mp hmem, hid]
      exact hs₂.id_eq
  · intro e he
    rw [hid]
    exact hs₂.fresh e (List.mem_append_left [marker] he)

theorem WriterCall.append_ok {m₁ m₂ : Mint} {log log' : EventLog}
    {call : WriterCall} {id : String}
    (h : call.append m₁ m₂ log = .ok (log', id)) : Appended log log' id := by
  cases call with
  | remember text =>
      have happend : AirNote.append m₁ log (externalNoteEvent text) =
          .ok (log', id) := h
      refine appended_of_append happend ?_
      show memoryEventType ≠ unretireEventType
      decide
  | capture dateLabel sm =>
      have happend : AirNote.append m₁ log (sessionCapturedEvent dateLabel sm) =
          .ok (log', id) := h
      refine appended_of_append happend ?_
      show sessionCapturedEventType ≠ unretireEventType
      decide
  | edit target text =>
      simp only [WriterCall.append] at h
      cases hpair : AirNote.appendPair m₁ m₂ log
          (groundTruthSupersedeEvent target) (externalNoteEvent text) with
      | error err =>
          rw [hpair] at h
          cases h
      | ok r =>
          rw [hpair] at h
          cases h
          refine appended_of_appendPair hpair rfl ?_
          show memoryEventType ≠ unretireEventType
          decide
  | recapture dateLabel sm prior =>
      simp only [WriterCall.append] at h
      cases hpair : AirNote.appendPair m₁ m₂ log
          (groundTruthSupersedeEvent prior)
          (sessionCapturedEvent dateLabel sm) with
      | error err =>
          rw [hpair] at h
          cases h
      | ok r =>
          rw [hpair] at h
          cases h
          refine appended_of_appendPair hpair rfl ?_
          show sessionCapturedEventType ≠ unretireEventType
          decide

/-- Where no note is restored, what is not excluded was not excluded. -/
theorem not_excluded_of_append {log suffix : EventLog} {id : String}
    (h : embedExcluded (log ++ suffix) id = false)
    (hkept : ∀ e ∈ suffix, ¬ UnretiresNote id e) :
    embedExcluded log id = false := by
  by_contra hne
  rw [Bool.not_eq_false] at hne
  rw [embedExcluded_append hne hkept] at h
  cases h

theorem SwitchInv.append {cfg : Resolution} {σ : Daemon}
    (h : SwitchInv cfg σ) (thread : Nat) (m₁ m₂ : Mint) (call : WriterCall)
    (hok : OrderlySwitch cfg σ (.append thread m₁ m₂ call)) :
    SwitchInv cfg (σ.append thread m₁ m₂ call) := by
  unfold Daemon.append
  split
  · next model hholds =>
      split
      · next log id happend =>
          have hlog := WriterCall.append_ok happend
          obtain ⟨suffix, hsuffix, hkept, honly⟩ := hlog.grows
          refine
            { uniqueIds := hlog.unique h.uniqueIds
              appended := ?_
              single := h.single
              recorded := h.recorded
              scanning := ?_
              secured := ?_
              served := h.served
              prepared := h.prepared }
          · intro t held id' ht
            by_cases hthread : t = thread
            · simp only [hthread, Daemon.putWriter, if_true] at ht
              cases ht
              exact hlog.present
            · simp only [Daemon.putWriter, hthread, if_false] at ht
              obtain ⟨e, he, hid⟩ := h.appended t held id' ht
              refine ⟨e, ?_, hid⟩
              show e ∈ log
              rw [hsuffix]
              exact List.mem_append_left suffix he
          · intro t job seen hjob hphase id' hexcl
            have hexcl' : embedExcluded (σ.store.log ++ suffix) id' = false := by
              rw [← hsuffix]
              exact hexcl
            exact h.scanning t job seen hjob hphase id'
              (not_excluded_of_append hexcl' fun e he => hkept e he id')
          · intro target listed hobliged ev hev htext hexcl
            have hev' : ev ∈ σ.store.log ++ suffix := by
              rw [← hsuffix]
              exact hev
            have hexcl' : embedExcluded (σ.store.log ++ suffix) ev.id =
                false := by
              rw [← hsuffix]
              exact hexcl
            rcases List.mem_append.mp hev' with hold | hnew
            · have hne : ev.id ≠ id := hlog.fresh ev hold
              rcases h.secured target listed hobliged ev hold htext
                  (not_excluded_of_append hexcl' fun e he =>
                    hkept e he ev.id) with
                hlisted | hvector | ⟨hwait, hheld⟩
              · exact .inl hlisted
              · exact .inr (.inl hvector)
              · refine .inr (.inr ⟨List.mem_cons_of_mem id hwait, ?_⟩)
                intro t held ht
                by_cases hthread : t = thread
                · simp only [hthread, Daemon.putWriter, if_true] at ht
                  cases ht
                  exact absurd rfl hne
                · simp only [Daemon.putWriter, hthread, if_false] at ht
                  exact hheld t held ht
            · have hid : ev.id = id := honly ev hnew htext
              rw [hid]
              refine .inr (.inr ⟨List.mem_cons_self, ?_⟩)
              intro t held ht
              by_cases hthread : t = thread
              · simp only [hthread, Daemon.putWriter, if_true] at ht
                cases ht
                exact hok _ hholds target listed hobliged
              · simp only [Daemon.putWriter, hthread, if_false] at ht
                obtain ⟨e, he, heid⟩ := h.appended t held id ht
                exact absurd heid (hlog.fresh e he)
      · next err happend =>
          refine h.of_writers rfl rfl rfl rfl rfl ?_
          intro t held id ht
          by_cases hthread : t = thread
          · simp [hthread, Daemon.putWriter] at ht
          · simpa [hthread, Daemon.putWriter] using ht
  · exact h

theorem SwitchInv.derive {cfg : Resolution} {σ : Daemon}
    (h : SwitchInv cfg σ) (thread : Nat) (vector : Option (Nat × Bytes)) :
    SwitchInv cfg (σ.derive thread vector) := by
  have hleft : ∀ t held id,
      (σ.putWriter thread none).writers t = some (.appended held id) →
        σ.writers t = some (.appended held id) := by
    intro t held id ht
    by_cases hthread : t = thread
    · simp [hthread, Daemon.putWriter] at ht
    · simpa [hthread, Daemon.putWriter] using ht
  unfold Daemon.derive
  split
  · next model id hwriter =>
      split
      · next event pair hevent =>
          obtain ⟨hmem, hid⟩ := mem_of_eventById hevent
          have hlog := storeVector_log σ.store model event (some pair)
          refine
            { uniqueIds := ?_
              appended := ?_
              single := h.single
              recorded := h.recorded
              scanning := ?_
              secured := ?_
              served := h.served
              prepared := h.prepared }
          · show UniqueIds (storeVector σ.store model event (some pair)).log
            rw [hlog]
            exact h.uniqueIds
          · intro t held id' ht
            show ∃ ev ∈ (storeVector σ.store model event (some pair)).log, _
            rw [hlog]
            exact h.appended t held id' (hleft t held id' ht)
          · intro t job seen hjob hphase id' hexcl
            have hexcl' : embedExcluded σ.store.log id' = false := by
              rw [← hlog]
              exact hexcl
            rcases h.scanning t job seen hjob hphase id' hexcl' with
              hseen | hvector
            · exact .inl hseen
            · exact .inr (hasVector_storeVector hvector)
          · intro target listed hobliged ev hev htext hexcl
            have hev' : ev ∈ σ.store.log := by
              rw [← hlog]
              exact hev
            have hexcl' : embedExcluded σ.store.log ev.id = false := by
              rw [← hlog]
              exact hexcl
            rcases h.secured target listed hobliged ev hev' htext hexcl' with
              hlisted | hvector | ⟨hwait, hheld⟩
            · exact .inl hlisted
            · exact .inr (.inl (hasVector_storeVector hvector))
            · by_cases hsame : ev.id = id
              · -- this writer's own event
                have htarget : model = target := by
                  rw [hsame] at hheld
                  exact hheld thread model hwriter
                have hevent' : event = ev := by
                  have hfound := eventById_of_mem h.uniqueIds hev'
                  rw [hsame, hevent] at hfound
                  exact Option.some.inj hfound
                rw [← hevent'] at htext
                refine .inr (.inl ?_)
                rw [← hevent', ← htarget]
                exact hasVector_storeVector_self htext rfl
              · refine .inr (.inr ⟨?_, ?_⟩)
                · exact List.mem_filter.mpr ⟨hwait, by simpa using hsame⟩
                · intro t held ht
                  exact hheld t held (hleft t held ev.id ht)
      · exact h.of_writers rfl rfl rfl rfl rfl hleft
  · exact h

theorem unretiresNote_of_stored {m : Mint} {log : EventLog}
    {target id : String} {stored : Event}
    (hs : Stored m log (unretireEvent target) stored)
    (h : UnretiresNote id stored) : id = target := by
  have hcontent := hs.content_of_none rfl
  have hid := h.2
  rw [hcontent] at hid
  exact (Option.some.inj hid).symm

/-- What a marker restores has its vectors. -/
theorem restored_of_orderlySwitch {cfg : Resolution} {σ : Daemon} {m : Mint}
    {marker : Marker} {stored : Event}
    (hok : OrderlySwitch cfg σ (.mark m marker))
    (hs : Stored m σ.store.log marker.event stored) {id : String}
    (hun : UnretiresNote id stored) {model : String}
    (hmodel : σ.Scanning model ∨ ∃ listed, σ.Obliged model listed) :
    hasVector σ.store.vectors id model = true := by
  have htype := hs.eventType_eq.symm.trans hun.1
  cases marker with
  | retire target src =>
      have : noteRetiredEventType = unretireEventType := htype
      exact absurd this (by decide)
  | deleteSession sid =>
      have : sessionDeletedEventType = unretireEventType := htype
      exact absurd this (by decide)
  | unretire target =>
      rw [unretiresNote_of_stored hs hun]
      exact hok model hmodel

theorem SwitchInv.mark {cfg : Resolution} {σ : Daemon}
    (h : SwitchInv cfg σ) (m : Mint) (marker : Marker)
    (hok : OrderlySwitch cfg σ (.mark m marker)) :
    SwitchInv cfg { σ with store := (σ.store.append m marker.event).1 } := by
  rcases σ.store.append_cases m marker.event with ⟨e, he⟩ | ⟨stored, hs, he⟩
  · rw [he]
    exact h
  · rw [he]
    have hnone : embeddableText stored = none := by
      refine embeddableText_eq_none ?_
      rw [hs.eventType_eq]
      cases marker with
      | retire target src =>
          show noteRetiredEventType ∉ embeddableEventTypes
          decide
      | unretire target =>
          show unretireEventType ∉ embeddableEventTypes
          decide
      | deleteSession sid =>
          show sessionDeletedEventType ∉ embeddableEventTypes
          decide
    refine
      { uniqueIds := h.uniqueIds.stored hs
        appended := ?_
        single := h.single
        recorded := h.recorded
        scanning := ?_
        secured := ?_
        served := h.served
        prepared := h.prepared }
    · intro t model id ht
      obtain ⟨ev, hev, hid⟩ := h.appended t model id ht
      exact ⟨ev, List.mem_append_left [stored] hev, hid⟩
    · intro t job seen hjob hphase id hexcl
      by_cases hun : UnretiresNote id stored
      · exact .inr (restored_of_orderlySwitch hok hs hun
          (.inl ⟨t, job, seen, hjob, rfl, hphase⟩))
      · refine h.scanning t job seen hjob hphase id
          (not_excluded_of_append hexcl ?_)
        intro e he'
        rw [List.mem_singleton.mp he']
        exact hun
    · intro model listed hobliged ev hev htext hexcl
      rcases List.mem_append.mp hev with hold | hnew
      · by_cases hun : UnretiresNote ev.id stored
        · exact .inr (.inl (restored_of_orderlySwitch hok hs hun
            (.inr ⟨listed, hobliged⟩)))
        · refine h.secured model listed hobliged ev hold htext
            (not_excluded_of_append hexcl ?_)
          intro e he'
          rw [List.mem_singleton.mp he']
          exact hun
      · rw [List.mem_singleton.mp hnew, hnone] at htext
        cases htext

/-! ## Switches keep the invariant -/

/-- All other switches have only been accepted. -/
def Daemon.Alone (σ : Daemon) (task : Nat) : Prop :=
  ∀ t job, σ.jobs t = some job → t ≠ task → job.phase = .accepted

theorem Daemon.Idle.alone {σ : Daemon} (h : σ.Idle) (task : Nat) :
    σ.Alone task := by
  intro t job hjob _
  exact JobPhase.underWay_eq_false.1 (h t job hjob)

theorem SwitchInv.alone {cfg : Resolution} {σ : Daemon}
    (h : SwitchInv cfg σ) {task : Nat} {job : Job}
    (hjob : σ.jobs task = some job) (hway : job.phase.underWay = true) :
    σ.Alone task := by
  intro t job' hjob' hne
  rw [← JobPhase.underWay_eq_false]
  by_contra hnot
  rw [Bool.not_eq_false] at hnot
  exact hne (h.single t task job' job hjob' hjob hnot hway)

@[simp] theorem Daemon.putJob_jobs_self (σ : Daemon) (task : Nat)
    (job : Option Job) : (σ.putJob task job).jobs task = job := if_pos rfl

theorem Daemon.putJob_jobs_ne (σ : Daemon) {task t : Nat} (hne : t ≠ task)
    (job : Option Job) : (σ.putJob task job).jobs t = σ.jobs t := if_neg hne

theorem Daemon.Alone.putJob {σ : Daemon} {task : Nat} (h : σ.Alone task)
    (job : Option Job) : (σ.putJob task job).Alone task := by
  intro t job' hjob' hne
  rw [Daemon.putJob_jobs_ne σ hne] at hjob'
  exact h t job' hjob' hne

/-- With one switch at most under way, its obligations are all there are. -/
theorem SwitchInv.of_alone {cfg : Resolution} {σ : Daemon} (task : Nat)
    (halone : σ.Alone task) (huniqueIds : UniqueIds σ.store.log)
    (happended : ∀ t model id, σ.writers t = some (.appended model id) →
      ∃ ev ∈ σ.store.log, ev.id = id)
    (hserved : servedModel cfg σ.record ∉ σ.collected)
    (hrecorded : ∀ job, σ.jobs task = some job →
      job.phase.Recorded job.model σ.record)
    (hscanning : ∀ job seen, σ.jobs task = some job →
      job.phase = .sawExcluded seen → ∀ id,
        embedExcluded σ.store.log id = false →
        embedExcluded seen id = false ∨
          hasVector σ.store.vectors id job.model = true)
    (hlisted : ∀ job listed, σ.jobs task = some job →
      job.phase.listedIds = some listed → σ.Secured job.model listed)
    (hcomplete : (∀ job, σ.jobs task = some job →
        job.phase.migrates = false) → ∀ model,
      completeModel σ.record = some model → σ.Secured model [])
    (hprepared : ∀ job, σ.jobs task = some job → job.phase = .prepared →
      job.model ∉ σ.collected) : SwitchInv cfg σ where
  uniqueIds := huniqueIds
  appended := happended
  single := by
    have hself : ∀ t job, σ.jobs t = some job → job.phase.underWay = true →
        t = task := by
      intro t job hjob hway
      by_contra hne
      rw [halone t job hjob hne] at hway
      cases hway
    intro t t' job job' hjob hjob' hway hway'
    rw [hself t job hjob hway, hself t' job' hjob' hway']
  recorded := by
    intro t job hjob
    by_cases hself : t = task
    · rw [hself] at hjob
      exact hrecorded job hjob
    · rw [halone t job hjob hself]
      trivial
  scanning := by
    intro t job seen hjob hphase
    by_cases hself : t = task
    · rw [hself] at hjob
      exact hscanning job seen hjob hphase
    · rw [halone t job hjob hself] at hphase
      cases hphase
  secured := by
    rintro model listed (⟨t, job, hjob, rfl, hids⟩ | ⟨hnone, hmodel, rfl⟩)
    · by_cases hself : t = task
      · rw [hself] at hjob
        exact hlisted job listed hjob hids
      · rw [halone t job hjob hself] at hids
        cases hids
    · refine hcomplete ?_ model hmodel
      intro job hjob
      by_contra hnot
      rw [Bool.not_eq_false] at hnot
      exact hnone ⟨task, job, hjob, hnot⟩
  served := hserved
  prepared := by
    intro t job hjob hphase
    by_cases hself : t = task
    · rw [hself] at hjob
      exact hprepared job hjob hphase
    · rw [halone t job hjob hself] at hphase
      cases hphase

/-- A task whose switch is only accepted, before the step and after it. -/
theorem SwitchInv.of_accepted {cfg : Resolution} {σ : Daemon}
    (h : SwitchInv cfg σ) (task : Nat) (job : Option Job)
    (hbefore : ∀ j, σ.jobs task = some j → j.phase = .accepted)
    (hafter : ∀ j, job = some j → j.phase = .accepted) :
    SwitchInv cfg (σ.putJob task job) := by
  have hother : ∀ t j, (σ.putJob task job).jobs t = some j →
      j.phase = .accepted ∨ σ.jobs t = some j := by
    intro t j hj
    by_cases hself : t = task
    · rw [hself, Daemon.putJob_jobs_self] at hj
      exact .inl (hafter j hj)
    · rw [Daemon.putJob_jobs_ne σ hself] at hj
      exact .inr hj
  have hback : ∀ t j, σ.jobs t = some j → j.phase = .accepted ∨
      (σ.putJob task job).jobs t = some j := by
    intro t j hj
    by_cases hself : t = task
    · rw [hself] at hj
      exact .inl (hbefore j hj)
    · refine .inr ?_
      rw [Daemon.putJob_jobs_ne σ hself]
      exact hj
  refine
    { uniqueIds := h.uniqueIds
      appended := h.appended
      single := ?_
      recorded := ?_
      scanning := ?_
      secured := ?_
      served := h.served
      prepared := ?_ }
  · intro t t' j j' hj hj' hway hway'
    rcases hother t j hj with hacc | hold
    · rw [hacc] at hway
      cases hway
    · rcases hother t' j' hj' with hacc' | hold'
      · rw [hacc'] at hway'
        cases hway'
      · exact h.single t t' j j' hold hold' hway hway'
  · intro t j hj
    rcases hother t j hj with hacc | hold
    · rw [hacc]
      trivial
    · exact h.recorded t j hold
  · intro t j seen hj hphase
    rcases hother t j hj with hacc | hold
    · rw [hacc] at hphase
      cases hphase
    · exact h.scanning t j seen hold hphase
  · rintro model listed (⟨t, j, hj, rfl, hids⟩ | ⟨hnone, hmodel, rfl⟩)
    · rcases hother t j hj with hacc | hold
      · rw [hacc] at hids
        cases hids
      · exact h.secured j.model listed (.inl ⟨t, j, hold, rfl, hids⟩)
    · refine h.secured model [] (.inr ⟨?_, hmodel, rfl⟩)
      rintro ⟨t, j, hj, hmigrates⟩
      rcases hback t j hj with hacc | hnew
      · rw [hacc] at hmigrates
        cases hmigrates
      · exact hnone ⟨t, j, hnew, hmigrates⟩
  · intro t j hj hphase
    rcases hother t j hj with hacc | hold
    · rw [hacc] at hphase
      cases hphase
    · exact h.prepared t j hold hphase

/-- Whatever runs, the vectors are complete under the model of a complete
record. -/
theorem SwitchInv.secured_complete {cfg : Resolution} {σ : Daemon}
    (h : SwitchInv cfg σ) {model : String}
    (hmodel : completeModel σ.record = some model) : σ.Secured model [] := by
  by_cases hmigrating : σ.Migrating
  · obtain ⟨t, job, hjob, hmigrates⟩ := hmigrating
    have hrecorded := h.recorded t job hjob
    have hlisted : ∀ ids, job.phase.listedIds = some ids →
        σ.Secured job.model ids :=
      fun ids hids => h.secured job.model ids (.inl ⟨t, job, hjob, rfl, hids⟩)
    -- before the record is completed there is no model of a complete record
    cases hphase : job.phase with
    | accepted =>
        rw [hphase] at hmigrates
        cases hmigrates
    | sweeping =>
        rw [hphase] at hmigrates
        cases hmigrates
    | completed =>
        rw [hphase] at hrecorded hlisted
        rw [show completeModel σ.record = some job.model from hrecorded]
          at hmodel
        rw [← Option.some.inj hmodel]
        exact hlisted [] rfl
    | published =>
        rw [hphase] at hrecorded hlisted
        rw [show completeModel σ.record = some job.model from hrecorded]
          at hmodel
        rw [← Option.some.inj hmodel]
        exact hlisted [] rfl
    | spawned =>
        rw [hphase] at hrecorded
        rw [show completeModel σ.record = none from hrecorded] at hmodel
        cases hmodel
    | sawExcluded seen =>
        rw [hphase] at hrecorded
        rw [show completeModel σ.record = none from hrecorded] at hmodel
        cases hmodel
    | listed embeddable =>
        rw [hphase] at hrecorded
        rw [show completeModel σ.record = none from hrecorded] at hmodel
        cases hmodel
    | sawAgain embeddable seen =>
        rw [hphase] at hrecorded
        rw [show completeModel σ.record = none from hrecorded] at hmodel
        cases hmodel
    | embedding embeddable pending =>
        rw [hphase] at hrecorded
        rw [show completeModel σ.record = none from hrecorded] at hmodel
        cases hmodel
    | prepared =>
        rw [hphase] at hrecorded
        rw [show completeModel σ.record = none from hrecorded] at hmodel
        cases hmodel
  · exact h.secured model [] (.inr ⟨hmigrating, hmodel, rfl⟩)

/-- The end of the only switch under way leaves the obligations of the
record. -/
theorem SwitchInv.ended {cfg : Resolution} {σ : Daemon}
    (h : SwitchInv cfg σ) {task : Nat} (halone : σ.Alone task)
    (state : ModelState) :
    SwitchInv cfg { σ.putJob task none with state := state } := by
  have hnone : ({ σ.putJob task none with state := state } : Daemon).jobs
      task = none := σ.putJob_jobs_self task none
  refine SwitchInv.of_alone task (halone.putJob none) h.uniqueIds
    h.appended h.served ?_ ?_ ?_ ?_ ?_
  · intro job hjob
    rw [hnone] at hjob
    cases hjob
  · intro job seen hjob
    rw [hnone] at hjob
    cases hjob
  · intro job listed hjob
    rw [hnone] at hjob
    cases hjob
  · intro _ model hmodel
    exact h.secured_complete hmodel
  · intro job hjob
    rw [hnone] at hjob
    cases hjob

theorem SwitchInv.failJob {cfg : Resolution} {σ : Daemon}
    (h : SwitchInv cfg σ) (task : Nat) (reason : String) :
    SwitchInv cfg (σ.failJob task reason) := by
  unfold Daemon.failJob
  split
  · exact h
  · next job hjob =>
      split
      · next hphase =>
          refine h.of_accepted task none ?_ ?_
          · intro j hj
            rw [hjob] at hj
            rw [← Option.some.inj hj]
            exact hphase
          · intro j hj
            cases hj
      · next hphase =>
          exact h.ended (h.alone hjob (by rw [hphase]; rfl)) σ.state
      · next hnot _ =>
          refine h.ended (h.alone hjob ?_) (.failed reason)
          rw [← Bool.not_eq_false, JobPhase.underWay_eq_false]
          exact hnot

theorem SwitchInv.request {cfg : Resolution} {σ : Daemon}
    (h : SwitchInv cfg σ) (task : Nat) (model sha : String) :
    SwitchInv cfg (σ.request task model sha) := by
  unfold Daemon.request
  split
  · exact h
  · next hnone =>
      split
      · exact h
      · refine h.of_accepted task _ ?_ ?_
        · intro j hj
          rw [hnone] at hj
          cases hj
        · intro j hj
          rw [← Option.some.inj hj]

theorem SwitchInv.crash {cfg : Resolution} {σ : Daemon}
    (h : SwitchInv cfg σ) : SwitchInv cfg (σ.exec cfg .crash) := by
  refine SwitchInv.of_alone 0 ?_ h.uniqueIds ?_ h.served ?_ ?_ ?_ ?_
    ?_
  · intro t job hjob
    cases hjob
  · intro t model id ht
    cases ht
  · intro job hjob
    cases hjob
  · intro job seen hjob
    cases hjob
  · intro job listed hjob
    cases hjob
  · intro _ model hmodel ev hev htext hexcl
    rcases h.secured_complete hmodel ev hev htext hexcl with
      hlisted | hvector | ⟨hwait, -⟩
    · exact .inl hlisted
    · exact .inr (.inl hvector)
    · refine .inr (.inr ⟨hwait, ?_⟩)
      intro t held ht
      cases ht
  · intro job hjob
    cases hjob

/-- The only switch under way moves on, and the store stays as it is. -/
theorem SwitchInv.moved {cfg : Resolution} {σ : Daemon}
    (h : SwitchInv cfg σ) {task : Nat} (halone : σ.Alone task) (job : Job)
    (record : Option LanguagePackRecord) (collected : List String)
    (cell : Option String) (state : ModelState)
    (hserved : servedModel cfg record ∉ collected)
    (hrecorded : job.phase.Recorded job.model record)
    (hscanning : ∀ seen, job.phase = .sawExcluded seen → ∀ id,
      embedExcluded σ.store.log id = false →
      embedExcluded seen id = false ∨
        hasVector σ.store.vectors id job.model = true)
    (hlisted : ∀ listed, job.phase.listedIds = some listed →
      σ.Secured job.model listed)
    (hcomplete : job.phase.migrates = false → ∀ model,
      completeModel record = some model → σ.Secured model [])
    (hprepared : job.phase = .prepared → job.model ∉ collected) :
    SwitchInv cfg { σ.putJob task (some job) with
      record := record, collected := collected, cell := cell
      state := state } := by
  have hself : ∀ j, ({ σ.putJob task (some job) with
      record := record, collected := collected, cell := cell
      state := state } : Daemon).jobs task = some j → j = job := by
    intro j hj
    have hjob := σ.putJob_jobs_self task (some job)
    exact (Option.some.inj (hjob.symm.trans hj)).symm
  refine SwitchInv.of_alone task (halone.putJob (some job))
    h.uniqueIds h.appended hserved ?_ ?_ ?_ ?_ ?_
  · intro j hj
    rw [hself j hj]
    exact hrecorded
  · intro j seen hj hphase
    rw [hself j hj] at hphase ⊢
    exact hscanning seen hphase
  · intro j listed hj hids
    rw [hself j hj] at hids ⊢
    exact hlisted listed hids
  · intro hmigrates model hmodel
    exact hcomplete (hmigrates job (σ.putJob_jobs_self task (some job))) model
      hmodel
  · intro j hj hphase
    rw [hself j hj] at hphase ⊢
    exact hprepared hphase

theorem SwitchInv.resume {cfg : Resolution} {σ : Daemon}
    (h : SwitchInv cfg σ) (task : Nat) (hidle : σ.Idle) :
    SwitchInv cfg (σ.resume task) := by
  have halone : σ.Alone task := hidle.alone task
  unfold Daemon.resume
  split
  · next r hnone hrecord =>
      split
      · next hprogress =>
          refine h.moved halone ⟨r.modelId, r.safetensorsSha, .spawned⟩ σ.record
            σ.collected σ.cell σ.state h.served ?_ ?_ ?_ ?_ ?_
          · show completeModel σ.record = none
            simp [hrecord, completeModel, hprogress]
          · intro seen hphase
            cases hphase
          · intro listed hids
            cases hids
          · intro _ model hmodel
            exact h.secured_complete hmodel
          · intro hphase
            cases hphase
      · next hcomplete =>
          refine h.moved halone ⟨r.modelId, r.safetensorsSha, .sweeping⟩
            σ.record σ.collected σ.cell σ.state h.served ?_ ?_ ?_ ?_ ?_
          · show completeModel σ.record = some r.modelId
            simp [hrecord, completeModel, hcomplete]
          · intro seen hphase
            cases hphase
          · intro listed hids
            cases hids
          · intro _ model hmodel
            exact h.secured_complete hmodel
          · intro hphase
            cases hphase
  · exact h

/-- An embedded event is stored beside the others. -/
theorem SwitchInv.embedNext {cfg : Resolution} {σ : Daemon}
    (h : SwitchInv cfg σ) (task : Nat) (vector : Option (Nat × Bytes)) :
    SwitchInv cfg (σ.embedNext task vector) := by
  unfold Daemon.embedNext
  split
  · next model sha embeddable event rest hjob =>
      have halone : σ.Alone task := h.alone hjob rfl
      have hlog := storeVector_log σ.store model event vector
      have hsecured : ∀ m listed, σ.Secured m listed → Daemon.Secured
          { σ.putJob task (some ⟨model, sha, .embedding embeddable rest⟩) with
            store := storeVector σ.store model event vector } m listed := by
        intro m listed hold ev hev htext hexcl
        have hev' : ev ∈ σ.store.log := by
          rw [← hlog]
          exact hev
        have hexcl' : embedExcluded σ.store.log ev.id = false := by
          rw [← hlog]
          exact hexcl
        rcases hold ev hev' htext hexcl' with hlisted | hvector | hwait
        · exact .inl hlisted
        · exact .inr (.inl (hasVector_storeVector hvector))
        · exact .inr (.inr hwait)
      have hself : ∀ j, ({ σ.putJob task
          (some ⟨model, sha, .embedding embeddable rest⟩) with
            store := storeVector σ.store model event vector } :
          Daemon).jobs task = some j →
          j = ⟨model, sha, .embedding embeddable rest⟩ := by
        intro j hj
        have hput := σ.putJob_jobs_self task
          (some ⟨model, sha, .embedding embeddable rest⟩)
        exact (Option.some.inj (hput.symm.trans hj)).symm
      refine SwitchInv.of_alone task (halone.putJob _) ?_ ?_ h.served
        ?_ ?_ ?_ ?_ ?_
      · show UniqueIds (storeVector σ.store model event vector).log
        rw [hlog]
        exact h.uniqueIds
      · intro t held id ht
        show ∃ ev ∈ (storeVector σ.store model event vector).log, _
        rw [hlog]
        exact h.appended t held id ht
      · intro j hj
        rw [hself j hj]
        have hrecorded := h.recorded task _ hjob
        show completeModel σ.record = none
        exact hrecorded
      · intro j seen hj hphase
        rw [hself j hj] at hphase
        cases hphase
      · intro j listed hj hids
        rw [hself j hj] at hids ⊢
        exact hsecured model listed
          (h.secured model listed (.inl ⟨task, _, hjob, rfl, hids⟩))
      · intro hnot m hm
        exact hsecured m [] (h.secured_complete hm)
      · intro j hj hphase
        rw [hself j hj] at hphase
        cases hphase
  · exact h

/-- The collection keeps what the record says is complete. -/
theorem SwitchInv.collected {cfg : Resolution} {σ : Daemon}
    (h : SwitchInv cfg σ) {task : Nat} {keep : String} (halone : σ.Alone task)
    (hrecord : completeModel σ.record = some keep)
    (henv : ∀ id, cfg.envOverride = some id → id = keep) :
    SwitchInv cfg ((σ.collect keep).putJob task none) := by
  have hserved : servedModel cfg σ.record = keep := by
    unfold servedModel
    rw [hrecord, Option.getD_some]
    cases hcfg : cfg.envOverride with
    | none => rfl
    | some id => exact henv id hcfg
  have hnone : ((σ.collect keep).putJob task none).jobs task = none :=
    Daemon.putJob_jobs_self _ task none
  refine SwitchInv.of_alone task ?_ h.uniqueIds h.appended ?_ ?_ ?_ ?_
    ?_ ?_
  · intro t job hjob hne
    rw [Daemon.putJob_jobs_ne _ hne] at hjob
    exact halone t job hjob hne
  · intro hmem
    have hmem' : keep ∈ σ.collected ++
        (σ.store.vectors.map VectorRow.modelId).filter fun m => m != keep := by
      rw [← hserved] at hmem ⊢
      exact hmem
    rcases List.mem_append.mp hmem' with hold | hnew
    · exact h.served (hserved ▸ hold)
    · have hne := (List.mem_filter.mp hnew).2
      simp at hne
  · intro job hjob
    rw [hnone] at hjob
    cases hjob
  · intro job seen hjob
    rw [hnone] at hjob
    cases hjob
  · intro job listed hjob
    rw [hnone] at hjob
    cases hjob
  · intro _ model hmodel ev hev htext hexcl
    have hkeep : model = keep :=
      Option.some.inj (hmodel.symm.trans hrecord)
    rcases h.secured_complete hrecord ev hev htext hexcl with
      hlisted | hvector | hwait
    · exact .inl hlisted
    · rw [hkeep]
      exact .inr (.inl (hasVector_gc hvector))
    · rw [hkeep]
      exact .inr (.inr hwait)
  · intro job hjob
    rw [hnone] at hjob
    cases hjob

/-! ## The steps of a switch keep the invariant -/

/-- What the scan of a switch lists covers every embeddable event. -/
theorem SwitchInv.secured_listed {cfg : Resolution} {σ : Daemon}
    (h : SwitchInv cfg σ) {task : Nat} {job : Job} {seen : EventLog}
    (hjob : σ.jobs task = some job) (hphase : job.phase = .sawExcluded seen) :
    σ.Secured job.model
      ((embeddableUnder seen σ.store.log).map Prod.fst) := by
  intro ev hev htext hexcl
  rcases h.scanning task job seen hjob hphase ev.id hexcl with hseen | hvector
  · refine .inl ?_
    obtain ⟨text, htext⟩ := Option.isSome_iff_exists.mp htext
    have hpair : (ev.id, text) ∈ σ.store.log.filterMap fun e =>
        (embeddableText e).map fun t => (e.id, t) := by
      rw [List.mem_filterMap]
      exact ⟨ev, hev, by rw [htext, Option.map_some]⟩
    have hlisted : (ev.id, text) ∈ embeddableUnder seen σ.store.log := by
      rw [embeddableUnder, List.mem_filter]
      exact ⟨hpair, by rw [hseen]; rfl⟩
    exact List.mem_map_of_mem hlisted
  · exact .inr (.inl hvector)

theorem hasVector_of_countMissing {rows : List VectorRow} {model : String}
    {embeddable : List (String × String)}
    (hcount : countMissingVectors rows model embeddable = 0) :
    ∀ id ∈ embeddable.map Prod.fst, hasVector rows id model = true := by
  intro id hid
  obtain ⟨p, hp, rfl⟩ := List.mem_map.mp hid
  by_contra hnot
  have hmissing : p ∈ embeddable.filter fun q =>
      !hasVector rows q.1 model := by
    rw [List.mem_filter]
    exact ⟨hp, by simpa using hnot⟩
  rw [List.length_eq_zero_iff.mp hcount] at hmissing
  cases hmissing

/-- Where the count finds none missing, the switch is prepared. -/
theorem SwitchInv.prepare {cfg : Resolution} {σ : Daemon}
    (h : SwitchInv cfg σ) {task : Nat} {model sha : String}
    {embeddable : List (String × String)}
    (hjob : σ.jobs task = some ⟨model, sha, .embedding embeddable []⟩)
    (hcount : countMissingVectors σ.store.vectors model embeddable = 0) :
    SwitchInv cfg { σ.putJob task (some ⟨model, sha, .prepared⟩) with
      underived := σ.underived.filter fun id =>
        !(embeddable.map Prod.fst).contains id
      collected := σ.collected.filter fun m => m != model } := by
  have hall := hasVector_of_countMissing hcount
  have hrecorded : completeModel σ.record = none := h.recorded task _ hjob
  have hself : ∀ j, (σ.putJob task (some ⟨model, sha, .prepared⟩)).jobs task =
      some j → j = ⟨model, sha, .prepared⟩ := by
    intro j hj
    rw [Daemon.putJob_jobs_self] at hj
    exact (Option.some.inj hj).symm
  refine SwitchInv.of_alone task ((h.alone hjob rfl).putJob _) h.uniqueIds
    h.appended ?_ ?_ ?_ ?_ ?_ ?_
  · intro hmem
    exact h.served (List.mem_filter.mp hmem).1
  · intro j hj
    rw [hself j hj]
    exact hrecorded
  · intro j seen hj hphase
    rw [hself j hj] at hphase
    cases hphase
  · intro j listed hj hids ev hev htext hexcl
    rw [hself j hj] at hids ⊢
    cases hids
    rcases h.secured model _ (.inl ⟨task, _, hjob, rfl, rfl⟩) ev hev htext
        hexcl with hlisted | hvector | ⟨hwait, hheld⟩
    · exact .inr (.inl (hall ev.id hlisted))
    · exact .inr (.inl hvector)
    · by_cases hlisted : ev.id ∈ embeddable.map Prod.fst
      · exact .inr (.inl (hall ev.id hlisted))
      · refine .inr (.inr ⟨List.mem_filter.mpr ⟨hwait, ?_⟩, hheld⟩)
        rw [Bool.not_eq_true', ← Bool.not_eq_true, List.contains_iff_mem]
        exact hlisted
  · intro _ m hm
    cases hrecorded.symm.trans hm
  · intro j hj _ hmem
    rw [hself j hj] at hmem
    have hne := (List.mem_filter.mp hmem).2
    simp at hne

/-- Completing a record serves its model, unless an override serves as
before. -/
theorem servedModel_complete_not_mem {cfg : Resolution}
    {record : Option LanguagePackRecord} {collected : List String}
    {model sha at_ : String} (hserved : servedModel cfg record ∉ collected)
    (hmodel : model ∉ collected) :
    servedModel cfg (some ⟨model, sha, .complete, at_⟩) ∉ collected := by
  unfold servedModel at hserved ⊢
  cases henv : cfg.envOverride with
  | none =>
      rw [completeModel_complete]
      exact hmodel
  | some id =>
      rw [henv] at hserved
      exact hserved

theorem SwitchInv.advance {cfg : Resolution} {σ : Daemon}
    (h : SwitchInv cfg σ) (task : Nat) (consentedAt : String)
    (hok : OrderlySwitch cfg σ (.advance task consentedAt)) :
    SwitchInv cfg (σ.advance task consentedAt) := by
  unfold Daemon.advance
  cases hjob : σ.jobs task with
  | none => exact h
  | some job =>
      have hrecorded := h.recorded task job hjob
      have hlisted : ∀ ids, job.phase.listedIds = some ids →
          σ.Secured job.model ids :=
        fun ids hids =>
          h.secured job.model ids (.inl ⟨task, job, hjob, rfl, hids⟩)
      rcases job with ⟨model, sha, phase⟩
      cases phase with
      | accepted =>
          obtain ⟨hidle, hbundled⟩ := (hok _ hjob).1 rfl
          refine h.moved (hidle.alone task) ⟨model, sha, .spawned⟩
            (some ⟨model, sha, .inProgress, consentedAt⟩) σ.collected
            σ.cell σ.state hbundled rfl ?_ ?_ ?_ ?_
          · intro seen hphase
            cases hphase
          · intro listed hids
            cases hids
          · intro hmigrates
            cases hmigrates
          · intro hphase
            cases hphase
      | spawned =>
          refine h.moved (h.alone hjob rfl)
            ⟨model, sha, .sawExcluded σ.store.log⟩ σ.record σ.collected
            σ.cell σ.state h.served hrecorded ?_ ?_ ?_ ?_
          · intro seen hseen id hexcl
            cases hseen
            exact .inl hexcl
          · intro listed hids
            cases hids
          · intro hmigrates
            cases hmigrates
          · intro hphase
            cases hphase
      | sawExcluded seen =>
          refine h.moved (h.alone hjob rfl)
            ⟨model, sha, .listed (embeddableUnder seen σ.store.log)⟩ σ.record
            σ.collected σ.cell σ.state h.served hrecorded ?_ ?_ ?_ ?_
          · intro other hother
            cases hother
          · intro listed hids
            cases hids
            have hsecured := h.secured_listed hjob rfl
            exact hsecured
          · intro hmigrates
            cases hmigrates
          · intro hphase
            cases hphase
      | listed embeddable =>
          refine h.moved (h.alone hjob rfl)
            ⟨model, sha, .sawAgain embeddable σ.store.log⟩ σ.record
            σ.collected σ.cell σ.state h.served hrecorded ?_ hlisted ?_ ?_
          · intro seen hseen
            cases hseen
          · intro hmigrates
            cases hmigrates
          · intro hphase
            cases hphase
      | sawAgain embeddable seen =>
          refine h.moved (h.alone hjob rfl)
            ⟨model, sha, .embedding embeddable
              (pendingUnder seen σ.store model)⟩ σ.record
            σ.collected σ.cell σ.state h.served hrecorded ?_ hlisted ?_ ?_
          · intro seen hseen
            cases hseen
          · intro hmigrates
            cases hmigrates
          · intro hphase
            cases hphase
      | embedding embeddable pending =>
          cases pending with
          | cons event rest => exact h
          | nil =>
              by_cases hcount :
                  countMissingVectors σ.store.vectors model embeddable > 0
              · simp only [hcount, if_true]
                exact h.failJob task _
              · simp only [hcount, if_false]
                exact h.prepare hjob (Nat.eq_zero_of_not_pos hcount)
      | prepared =>
          refine h.moved (h.alone hjob rfl) ⟨model, sha, .completed⟩
            (some ⟨model, sha, .complete, consentedAt⟩) σ.collected
            σ.cell σ.state ?_ rfl ?_ hlisted ?_ ?_
          · exact servedModel_complete_not_mem h.served
              (h.prepared task _ hjob rfl)
          · intro seen hseen
            cases hseen
          · intro hmigrates
            cases hmigrates
          · intro hphase
            cases hphase
      | completed =>
          refine h.moved (h.alone hjob rfl) ⟨model, sha, .published⟩ σ.record
            σ.collected (some model) .ok h.served hrecorded ?_ hlisted ?_ ?_
          · intro seen hseen
            cases hseen
          · intro hmigrates
            cases hmigrates
          · intro hphase
            cases hphase
      | published =>
          exact h.collected (h.alone hjob rfl) hrecorded
            ((hok _ hjob).2 (.inl rfl))
      | sweeping =>
          exact h.collected (h.alone hjob rfl) hrecorded
            ((hok _ hjob).2 (.inr rfl))

/-! ## Runs -/

theorem Daemon.putWriter_appended {σ : Daemon} {thread : Nat}
    {writer : Option Writer} (hwriter : ∀ model id,
      writer ≠ some (.appended model id)) {t : Nat} {model id : String}
    (ht : (σ.putWriter thread writer).writers t = some (.appended model id)) :
    σ.writers t = some (.appended model id) := by
  by_cases hthread : t = thread
  · simp only [Daemon.putWriter, hthread, if_true] at ht
    exact absurd ht (hwriter model id)
  · simpa [Daemon.putWriter, hthread] using ht

/-- A writer that has not appended finds a model. -/
theorem SwitchInv.of_putWriter {cfg : Resolution} {σ : Daemon}
    (h : SwitchInv cfg σ) (thread : Nat) (writer : Option Writer)
    (hwriter : ∀ model id, writer ≠ some (.appended model id))
    (cell : Option String) (state : ModelState) :
    SwitchInv cfg { σ.putWriter thread writer with
      cell := cell, state := state } :=
  h.of_writers rfl rfl rfl rfl rfl fun _ _ _ ht =>
    Daemon.putWriter_appended hwriter ht

theorem SwitchInv.exec {cfg : Resolution} {σ : Daemon}
    (h : SwitchInv cfg σ) (step : DaemonStep) (hok : OrderlySwitch cfg σ step) :
    SwitchInv cfg (σ.exec cfg step) := by
  cases step with
  | request task model sha => exact h.request task model sha
  | resume task => exact h.resume task hok
  | advance task consentedAt => exact h.advance task consentedAt hok
  | embed task vector => exact h.embedNext task vector
  | fail task reason => exact h.failJob task reason
  | append thread m₁ m₂ call => exact h.append thread m₁ m₂ call hok
  | derive thread vector => exact h.derive thread vector
  | mark m marker => exact h.mark m marker hok
  | crash => exact h.crash
  | stop thread =>
      exact h.of_putWriter thread none (by simp) σ.cell σ.state
  | ask thread =>
      show SwitchInv cfg (σ.ask thread)
      unfold Daemon.ask
      split
      · exact h
      · split
        · exact h.of_putWriter thread _ (by simp) σ.cell σ.state
        · exact h.of_putWriter thread _ (by simp) σ.cell σ.state
  | resolve thread weights =>
      show SwitchInv cfg (σ.resolve cfg thread weights)
      unfold Daemon.resolve
      split
      · split
        · next state model hmodel =>
            exact h.of_putWriter thread _ (by simp) σ.cell state
        · next state err herr =>
            exact h.of_putWriter thread _ (by simp) σ.cell state
      · exact h
  | load thread =>
      show SwitchInv cfg (σ.load thread)
      unfold Daemon.load
      split
      · next model hresolved =>
          exact h.of_putWriter thread _ (by simp) (some model) σ.state
      · exact h

theorem orderlySwitch_advance {cfg : Resolution} {σ : Daemon} {task : Nat}
    (consentedAt : String) (henv : cfg.envOverride = none)
    (hphase : ((σ.jobs task).all fun job => job.phase.underWay) = true) :
    OrderlySwitch cfg σ (.advance task consentedAt) := by
  intro job hjob
  rw [hjob, Option.all_some] at hphase
  constructor
  · intro haccepted
    rw [haccepted] at hphase
    cases hphase
  · intro _ id hid
    rw [henv] at hid
    cases hid

theorem orderlySwitch_append {cfg : Resolution} {σ : Daemon} {thread : Nat}
    (m₁ m₂ : Mint) (call : WriterCall) (hjobs : σ.jobs = fun _ => none)
    (hrecord : completeModel σ.record = none) :
    OrderlySwitch cfg σ (.append thread m₁ m₂ call) := by
  rintro held _ model listed (⟨t, job, hjob, -⟩ | ⟨-, hmodel, -⟩)
  · rw [hjobs] at hjob
    cases hjob
  · rw [hrecord] at hmodel
    cases hmodel

theorem not_vectorsComplete {σ : Daemon} {exempt : List String}
    (id model : String) (hjobs : σ.jobs = fun _ => none)
    (hrecord : completeModel σ.record = some model)
    (hevent : (σ.store.log.any fun ev =>
      ev.id == id && (embeddableText ev).isSome) = true)
    (hexcl : embedExcluded σ.store.log id = false) (hexempt : id ∉ exempt)
    (hvector : hasVector σ.store.vectors id model = false) :
    ¬ VectorsComplete σ exempt := by
  intro h
  have hnone : ¬ σ.Migrating := by
    rintro ⟨t, job, hjob, -⟩
    rw [hjobs] at hjob
    cases hjob
  obtain ⟨ev, hev, hboth⟩ := List.any_eq_true.mp hevent
  rw [Bool.and_eq_true, beq_iff_eq] at hboth
  obtain ⟨rfl, htext⟩ := hboth
  rw [h hnone model hrecord ev hev htext hexcl hexempt] at hvector
  cases hvector

namespace SwitchRuns

def cfg : Resolution := { envOverride := none, bundledId := "en" }

def remembered (id : String) : List DaemonStep :=
  [.ask 0, .resolve 0 .absent, .load 0,
    .append 0 (.plain id) (.plain "") (.remember "note"),
    .derive 0 (some (1, []))]

/-- A switch up to its scan; `embeds` is the number of events it embeds. -/
def scan (task : Nat) (model : String) : List DaemonStep :=
  .request task model "sha" :: List.replicate 5 (.advance task "")

def finish (task embeds : Nat) : List DaemonStep :=
  List.replicate embeds (.embed task (some (1, []))) ++
    List.replicate 4 (.advance task "")

def switched : List DaemonStep :=
  remembered "n1" ++ scan 0 "de" ++ finish 0 1

/-- The daemon stops between the append of a note and its vector. -/
def cutOff : List DaemonStep :=
  switched ++ [.ask 0, .append 0 (.plain "n2") (.plain "") (.remember "note"),
    .crash]

/-- A note is remembered between the scan of a switch and its end. -/
def heldOver : List DaemonStep :=
  remembered "n1" ++ scan 0 "de" ++ remembered "n2" ++ finish 0 1 ++ [.crash]

/-- A note is retired before a switch and restored after it. -/
def restored : List DaemonStep :=
  remembered "n1" ++ [.mark (.plain "r1") (.retire "n1" none)] ++
    scan 0 "de" ++ finish 0 0 ++
    [.mark (.plain "u1") (.unretire "n1"), .crash]

/-- Two switches overlap; the collection of the first comes last. -/
def overlapped : List DaemonStep :=
  remembered "n1" ++ scan 0 "de" ++ scan 1 "fr" ++
    List.replicate 1 (.embed 0 (some (1, []))) ++
    List.replicate 2 (.advance 0 "") ++ finish 1 1 ++
    List.replicate 2 (.advance 0 "") ++ [.crash]

/-- The daemon stops when a second switch has begun. -/
def reverted : List DaemonStep :=
  switched ++ [.request 1 "fr" "sha", .advance 1 "", .crash]

end SwitchRuns

end AirNote
