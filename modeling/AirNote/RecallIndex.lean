import AirNote.ModelSwitch

/-!
# Recall and the index in memory

A recall takes the embedding model from the provider's cell, makes sure that
the index is built, and searches it. Whether the index is current is one flag:
`ensure_indexed` reads and sets it under a lock it keeps while it rebuilds, the
writers clear it when they are done, an ingest sets it after a rebuild of its
own, and an evolve tick and the end of a switch replace the index without
looking at it. A publication replaces the model in the cell and then clears the
flag.

The guards that refuse a second ingest or tick are left out, so calls interleave
here in more ways than there.

## Main results

* `recall_reads_writes` — in runs in which neither a publication nor a rebuild
  outside the lock crosses a call that depends on what it replaces, a recall
  searches an index of its own model with every memory that had returned when
  it started.
* `recall_misses_writes` — what goes wrong in other runs.
-/

namespace AirNote

open Lib Lib.Trace

/-! ## The engine -/

/-- What `rebuild_indexes` builds: the model and the events whose vectors it
read. -/
structure RecallVectors where
  model : String
  ids : List String
  deriving DecidableEq, Repr

/-- `vectors_for_model`, the identifiers. -/
def vectorsForModel (rows : List VectorRow) (model : String) : List String :=
  (rows.filter fun v => v.modelId == model).map VectorRow.eventId

/-- The calls that read or replace the index; `remember` stands for a note's
edit too, `publish` for a switch to a model. -/
inductive EngineOp where
  | recall
  | evolve
  | ingest
  | remember
  | publish (model : String)
  deriving DecidableEq

/-- Where a call is. In the phases `locked` to `lockedStored` it holds the lock
of the flag; `read` and `folded` are a rebuild without it. -/
inductive EnginePhase where
  | started
  | asked
  | holds (model : String)
  | locked (model : String)
  | lockedRead (model : String) (ids : List String)
  | lockedStored (model : String)
  | ready (model : String)
  | read (model : String) (ids : List String)
  | folded (model : String)
  | swapped (model : String)
  | invalidated (model : String)
  | collected (model : String)

/-- A call: `since` are the memories that had returned when it started,
`stored` those it has stored the vectors of. -/
structure EngineCall where
  op : EngineOp
  phase : EnginePhase
  since : List String
  stored : List String

/-- The stored vectors, the cell of the provider, the index with its flag and
the holder of the flag's lock, and the calls. `returned` lists the memories
whose calls have returned, `superseded` those replaced since. -/
structure Engine where
  vectors : List VectorRow
  cell : Option String
  index : Option RecallVectors
  indexed : Bool
  holder : Option Nat
  calls : Nat → Option EngineCall
  returned : List String
  superseded : List String

def Engine.opened (vectors : List VectorRow) : Engine :=
  { vectors := vectors
    cell := none
    index := none
    indexed := false
    holder := none
    calls := fun _ => none
    returned := []
    superseded := [] }

def Engine.put (σ : Engine) (task : Nat) (call : Option EngineCall) : Engine :=
  { σ with calls := fun t => if t = task then call else σ.calls t }

def Engine.move (σ : Engine) (task : Nat) (call : EngineCall)
    (phase : EnginePhase) : Engine :=
  σ.put task (some { call with phase := phase })

/-! ## The steps -/

/-- A publication begins with the candidate it has built. -/
def EngineOp.firstPhase : EngineOp → EnginePhase
  | .publish model => .holds model
  | _ => .started

/-- The calls that go through `ensure_indexed`. -/
def EngineOp.ensures : EngineOp → Bool
  | .recall => true
  | .evolve => true
  | _ => false

/-- The model a call embeds its events with, where it is at that. -/
def EngineCall.embedsWith (call : EngineCall) : Option String :=
  match call.op, call.phase with
  | .remember, .holds model => some model
  | .ingest, .holds model => some model
  | .publish _, .holds model => some model
  | .evolve, .ready model => some model
  | _, _ => none

def Engine.start (σ : Engine) (task : Nat) (op : EngineOp) : Engine :=
  match σ.calls task with
  | some _ => σ
  | none => σ.put task (some ⟨op, op.firstPhase, σ.returned, []⟩)

/-- `embedder_for`, up to the model it finds in the cell. -/
def Engine.ask (σ : Engine) (task : Nat) : Engine :=
  match σ.calls task with
  | some call =>
      match call.phase, σ.cell with
      | .started, some model => σ.move task call (.holds model)
      | .started, none => σ.move task call .asked
      | _, _ => σ
  | none => σ

/-- `embedder_for`, from the empty cell on: the model it resolves is put there.
-/
def Engine.load (σ : Engine) (task : Nat) (model : String) : Engine :=
  match σ.calls task with
  | some call =>
      match call.phase with
      | .asked => { σ.move task call (.holds model) with cell := some model }
      | _ => σ
  | none => σ

/-- `ensure_indexed` takes the lock; where the flag is set it lets it go at
once. -/
def Engine.check (σ : Engine) (task : Nat) : Engine :=
  match σ.calls task, σ.holder with
  | some call, none =>
      match call.op.ensures, call.phase with
      | true, .holds model =>
          if σ.indexed then σ.move task call (.ready model)
          else { σ.move task call (.locked model) with holder := some task }
      | _, _ => σ
  | _, _ => σ

/-- `rebuild_indexes` reads the vectors of its model. -/
def Engine.readRows (σ : Engine) (task : Nat) : Engine :=
  match σ.calls task with
  | some call =>
      match call.op, call.phase with
      | _, .locked model =>
          σ.move task call
            (.lockedRead model (vectorsForModel σ.vectors model))
      | .ingest, .holds model =>
          σ.move task call (.read model (vectorsForModel σ.vectors model))
      | .evolve, .ready model =>
          σ.move task call (.read model (vectorsForModel σ.vectors model))
      | _, .collected model =>
          σ.move task call (.read model (vectorsForModel σ.vectors model))
      | _, _ => σ
  | none => σ

/-- `rebuild_indexes` replaces the index. -/
def Engine.storeIndex (σ : Engine) (task : Nat) : Engine :=
  match σ.calls task with
  | some call =>
      match call.phase with
      | .lockedRead model ids =>
          { σ.move task call (.lockedStored model) with
            index := some ⟨model, ids⟩ }
      | .read model ids =>
          { σ.move task call (.folded model) with index := some ⟨model, ids⟩ }
      | _ => σ
  | none => σ

/-- `ensure_indexed` sets the flag and lets the lock go. -/
def Engine.release (σ : Engine) (task : Nat) : Engine :=
  match σ.calls task with
  | some call =>
      match call.phase with
      | .lockedStored model =>
          { σ.move task call (.ready model) with
            indexed := true
            holder := none }
      | _ => σ
  | none => σ

/-- An event is appended, in place of another or not, and its vector stored. -/
def Engine.derive (σ : Engine) (task : Nat) (id : String)
    (supersedes : Option String) (dim : Nat) (embedding : Bytes) : Engine :=
  match σ.calls task with
  | some call =>
      match call.embedsWith with
      | some model =>
          let row : VectorRow :=
            { eventId := id, modelId := model, dim := dim,
              embedding := embedding }
          { σ.put task (some { call with stored := id :: call.stored }) with
            vectors := upsertVector row σ.vectors
            superseded := supersedes.toList ++ σ.superseded }
      | none => σ
  | none => σ

/-- A writer clears the flag and returns; an ingest sets it and returns. -/
def Engine.answer (σ : Engine) (task : Nat) : Engine :=
  match σ.calls task, σ.holder with
  | some call, none =>
      match call.op, call.phase with
      | .remember, .holds _ =>
          { σ.put task none with
            indexed := false
            returned := call.stored ++ σ.returned }
      | .ingest, .folded _ =>
          { σ.put task none with
            indexed := true
            returned := call.stored ++ σ.returned }
      | _, _ => σ
  | _, _ => σ

/-- The first half of `publish_and_invalidate`. -/
def Engine.publish (σ : Engine) (task : Nat) : Engine :=
  match σ.calls task with
  | some call =>
      match call.op, call.phase with
      | .publish _, .holds model =>
          { σ.move task call (.swapped model) with cell := some model }
      | _, _ => σ
  | none => σ

/-- The second half of `publish_and_invalidate`. -/
def Engine.invalidate (σ : Engine) (task : Nat) : Engine :=
  match σ.calls task, σ.holder with
  | some call, none =>
      match call.phase with
      | .swapped model =>
          { σ.move task call (.invalidated model) with indexed := false }
      | _ => σ
  | _, _ => σ

/-- `gc_stale_vectors`, after a publication. -/
def Engine.collect (σ : Engine) (task : Nat) : Engine :=
  match σ.calls task with
  | some call =>
      match call.phase with
      | .invalidated model =>
          { σ.move task call (.collected model) with
            vectors := σ.vectors.filter fun v => v.modelId == model }
      | _ => σ
  | none => σ

/-- A recall searches and returns; a tick and a switch return. -/
def Engine.finish (σ : Engine) (task : Nat) : Engine :=
  match σ.calls task with
  | some call =>
      match call.op, call.phase with
      | .recall, .ready _ => σ.put task none
      | .evolve, .folded _ => σ.put task none
      | .publish _, .folded _ => σ.put task none
      | _, _ => σ
  | none => σ

/-- A call ends with an error; a rebuild under the lock lets it go. Between its
two halves `publish_and_invalidate` does not fail. -/
def Engine.fail (σ : Engine) (task : Nat) : Engine :=
  match σ.calls task with
  | some call =>
      match call.phase with
      | .locked _ => { σ.put task none with holder := none }
      | .lockedRead _ _ => { σ.put task none with holder := none }
      | .lockedStored _ => { σ.put task none with holder := none }
      | .swapped _ => σ
      | _ => σ.put task none
  | none => σ

inductive EngineStep where
  | start (task : Nat) (op : EngineOp)
  | ask (task : Nat)
  | load (task : Nat) (model : String)
  | check (task : Nat)
  | readRows (task : Nat)
  | storeIndex (task : Nat)
  | release (task : Nat)
  | derive (task : Nat) (id : String) (supersedes : Option String) (dim : Nat)
      (embedding : Bytes)
  | answer (task : Nat)
  | publish (task : Nat)
  | invalidate (task : Nat)
  | collect (task : Nat)
  | finish (task : Nat)
  | fail (task : Nat)

def Engine.exec (σ : Engine) : EngineStep → Engine
  | .start task op => σ.start task op
  | .ask task => σ.ask task
  | .load task model => σ.load task model
  | .check task => σ.check task
  | .readRows task => σ.readRows task
  | .storeIndex task => σ.storeIndex task
  | .release task => σ.release task
  | .derive task id supersedes dim embedding =>
      σ.derive task id supersedes dim embedding
  | .answer task => σ.answer task
  | .publish task => σ.publish task
  | .invalidate task => σ.invalidate task
  | .collect task => σ.collect task
  | .finish task => σ.finish task
  | .fail task => σ.fail task

/-! ## What has to hold -/

/-- Some publication has replaced the model and not cleared the flag yet. -/
def Engine.Pending (σ : Engine) : Prop :=
  ∃ t call model, σ.calls t = some call ∧ call.phase = .swapped model

/-- The memory has returned and was not superseded. -/
def Engine.Kept (σ : Engine) (id : String) : Prop :=
  id ∈ σ.returned ∧ id ∉ σ.superseded

/-- An index under the model in the cell, with every memory kept. -/
def Engine.Fits (σ : Engine) (index : RecallVectors) : Prop :=
  σ.cell = some index.model ∧ ∀ id, σ.Kept id → id ∈ index.ids

/-- An index under the call's model, with the memories that had returned when
the call started and were not superseded since. -/
def Engine.Suits (σ : Engine) (call : EngineCall) (model : String)
    (index : RecallVectors) : Prop :=
  index.model = model ∧
    ∀ id ∈ call.since, id ∉ σ.superseded → id ∈ index.ids

/-- Every recall that is about to search finds an index that suits it. -/
def ReadsWrites (σ : Engine) : Prop :=
  ∀ t call model, σ.calls t = some call → call.op = .recall →
    call.phase = .ready model → ∃ index, σ.index = some index ∧
      σ.Suits call model index

/-- The rebuild under the lock has replaced the index, or is over. -/
def EnginePhase.Relies (phase : EnginePhase) (model : String) : Prop :=
  phase = .lockedStored model ∨ phase = .ready model

/-- A writer or an ingest is about to return. -/
def EngineCall.Answers (call : EngineCall) : Prop :=
  (call.op = .remember ∧ ∃ model, call.phase = .holds model) ∨
    (call.op = .ingest ∧ ∃ model, call.phase = .folded model)

/-- What no step crosses. A model is loaded in a cell that is still empty. A
call finds the flag set only under the model in the cell, and while its
publication has cleared the flag; it rebuilds under that model, or before the
flag is cleared. A rebuild replaces no index that a recall relies on by one that
does not suit it, nor, without the lock, one that the flag declares current by
one that does not fit. A memory returns when its vector is stored under the
model in the cell, an ingest also when the index fits. A publication finds the
vectors of all memories kept; a collection keeps those of the model in the cell,
which is the model of every recall that has yet to rebuild. -/
def Uncrossed (σ : Engine) : EngineStep → Prop
  | .load _ model => σ.cell = none ∨ σ.cell = some model
  | .check t => ∀ call model, σ.calls t = some call →
      call.op.ensures = true → call.phase = .holds model →
      (σ.indexed = true → σ.cell = some model ∧ ¬ σ.Pending) ∧
      (σ.indexed = false → σ.cell = some model ∨ σ.Pending)
  | .storeIndex t => ∀ call model ids, σ.calls t = some call →
      call.phase = .lockedRead model ids ∨ call.phase = .read model ids →
      (∀ t' other model', t' ≠ t → σ.calls t' = some other →
        other.op = .recall → other.phase.Relies model' →
        σ.Suits other model' ⟨model, ids⟩) ∧
      (call.phase = .read model ids →
        σ.indexed = true ∨ (∃ t' other model', σ.calls t' = some other ∧
          other.phase = .lockedStored model') →
        σ.Pending ∨ σ.Fits ⟨model, ids⟩)
  | .answer t => ∀ call, σ.calls t = some call → call.Answers →
      (∃ model, σ.cell = some model ∧ ∀ id ∈ call.stored,
        id ∉ σ.superseded → hasVector σ.vectors id model = true) ∧
      (call.op = .ingest → ∃ index, σ.index = some index ∧
        (σ.Pending ∨ (σ.Fits index ∧
          ∀ id ∈ call.stored, id ∉ σ.superseded → id ∈ index.ids)))
  | .publish t => ∀ call target model, σ.calls t = some call →
      call.op = .publish target → call.phase = .holds model →
      ∀ id, σ.Kept id → hasVector σ.vectors id model = true
  | .collect t => ∀ call model, σ.calls t = some call →
      call.phase = .invalidated model →
      σ.cell = some model ∧ ∀ t' other model', σ.calls t' = some other →
        other.op = .recall →
        other.phase = .holds model' ∨ other.phase = .locked model' →
        model' = model
  | _ => True

/-! ## The invariant -/

def EnginePhase.underLock : EnginePhase → Bool
  | .locked _ => true
  | .lockedRead _ _ => true
  | .lockedStored _ => true
  | _ => false

/-- A recall that has yet to rebuild finds the vectors it needs. -/
def Engine.Finds (σ : Engine) (call : EngineCall) (model : String) : Prop :=
  call.op = .recall → ∀ id ∈ call.since, id ∉ σ.superseded →
    hasVector σ.vectors id model = true

/-- What holds of a call in each of its phases. -/
def Engine.CallInv (σ : Engine) (call : EngineCall) : Prop :=
  match call.phase with
  | .holds model => σ.Finds call model
  | .locked model =>
      (σ.Pending ∨ σ.cell = some model) ∧ σ.Finds call model
  | .lockedRead model ids =>
      (σ.Pending ∨ σ.Fits ⟨model, ids⟩) ∧
      (call.op = .recall → σ.Suits call model ⟨model, ids⟩)
  | .lockedStored model => ∃ index, σ.index = some index ∧
      (σ.Pending ∨ σ.Fits index) ∧
      (call.op = .recall → σ.Suits call model index)
  | .ready model => call.op = .recall →
      ∃ index, σ.index = some index ∧ σ.Suits call model index
  | _ => True

structure RecallInv (σ : Engine) : Prop where
  empty : σ.cell = none → σ.returned = []
  vectors : ∀ model, σ.cell = some model → ∀ id, σ.Kept id →
    hasVector σ.vectors id model = true
  current : σ.indexed = true → ∃ index, σ.index = some index ∧
    (σ.Pending ∨ σ.Fits index)
  unlocked : σ.indexed = true → σ.holder = none
  locked : ∀ t call, σ.calls t = some call → call.phase.underLock = true →
    σ.holder = some t
  since : ∀ t call, σ.calls t = some call → ∀ id ∈ call.since,
    id ∈ σ.returned
  calls : ∀ t call, σ.calls t = some call → σ.CallInv call

theorem recallInv_opened (vectors : List VectorRow) :
    RecallInv (.opened vectors) where
  empty := fun _ => rfl
  vectors := by
    intro model h
    cases h
  current := by
    intro h
    cases h
  unlocked := fun _ => rfl
  locked := by
    intro t call h
    cases h
  since := by
    intro t call h
    cases h
  calls := by
    intro t call h
    cases h

theorem RecallInv.readsWrites {σ : Engine} (h : RecallInv σ) :
    ReadsWrites σ := by
  intro t call model hcall hop hphase
  have hinv := h.calls t call hcall
  rw [Engine.CallInv, hphase] at hinv
  exact hinv hop

/-! ## What a step leaves -/

@[simp] theorem Engine.put_self (σ : Engine) (task : Nat)
    (call : Option EngineCall) : (σ.put task call).calls task = call :=
  if_pos rfl

theorem Engine.put_ne (σ : Engine) {task t : Nat} (hne : t ≠ task)
    (call : Option EngineCall) : (σ.put task call).calls t = σ.calls t :=
  if_neg hne

/-- A publication stays pending while its own call stays. -/
theorem Engine.Pending.of_put {σ σ' : Engine} (h : σ.Pending) {task : Nat}
    {call' : Option EngineCall}
    (hcalls : σ'.calls = (σ.put task call').calls)
    (hother : ∀ call, σ.calls task = some call →
      ∀ model, call.phase ≠ .swapped model) : σ'.Pending := by
  obtain ⟨t, call, model, hcall, hphase⟩ := h
  by_cases hself : t = task
  · rw [hself] at hcall
    exact absurd hphase (hother call hcall model)
  · refine ⟨t, call, model, ?_, hphase⟩
    rw [hcalls, σ.put_ne hself]
    exact hcall

theorem Engine.Suits.mono {σ σ' : Engine} {call call' : EngineCall}
    {model : String} {index : RecallVectors} (h : σ.Suits call model index)
    (hsince : call'.since = call.since)
    (hsuperseded : ∀ id, id ∉ σ'.superseded → id ∉ σ.superseded) :
    σ'.Suits call' model index := by
  refine ⟨h.1, ?_⟩
  intro id hid hnot
  rw [hsince] at hid
  exact h.2 id hid (hsuperseded id hnot)

/-- The index and the vectors a call needs stay, and what it needs does not
grow. -/
theorem Engine.CallInv.mono {σ σ' : Engine} {call : EngineCall}
    (h : σ.CallInv call) (hindex : σ'.index = σ.index)
    (hsuperseded : ∀ id, id ∉ σ'.superseded → id ∉ σ.superseded)
    (hvectors : ∀ model, call.op = .recall →
      call.phase = .holds model ∨ call.phase = .locked model →
      ∀ id, hasVector σ.vectors id model = true →
        hasVector σ'.vectors id model = true)
    (hpending : call.phase.underLock = true → σ.Pending → σ'.Pending)
    (hcell : call.phase.underLock = true → ∀ model, σ.cell = some model →
      σ'.Pending ∨ σ'.cell = some model)
    (hkept : call.phase.underLock = true → ∀ id, σ'.Kept id → σ.Kept id) :
    σ'.CallInv call := by
  have hfits : call.phase.underLock = true → ∀ index,
      σ.Pending ∨ σ.Fits index → σ'.Pending ∨ σ'.Fits index := by
    intro hlock index hor
    rcases hor with hpend | hfits
    · exact .inl (hpending hlock hpend)
    · rcases hcell hlock index.model hfits.1 with hpend | hmodel
      · exact .inl hpend
      · exact .inr ⟨hmodel, fun id hid => hfits.2 id (hkept hlock id hid)⟩
  have hfinds : ∀ model,
      call.phase = .holds model ∨ call.phase = .locked model →
      σ.Finds call model → σ'.Finds call model := by
    intro model hphase hold hop id hid hnot
    exact hvectors model hop hphase id (hold hop id hid (hsuperseded id hnot))
  unfold Engine.CallInv at h ⊢
  cases hphase : call.phase with
  | holds model =>
      rw [hphase] at h
      exact hfinds model (.inl hphase) h
  | locked model =>
      rw [hphase] at h
      refine ⟨?_, hfinds model (.inr hphase) h.2⟩
      have hlock : call.phase.underLock = true := by rw [hphase]; rfl
      rcases h.1 with hpend | hmodel
      · exact .inl (hpending hlock hpend)
      · exact hcell hlock model hmodel
  | lockedRead model ids =>
      rw [hphase] at h
      refine ⟨hfits (by rw [hphase]; rfl) _ h.1, ?_⟩
      intro hop
      exact (h.2 hop).mono rfl hsuperseded
  | lockedStored model =>
      rw [hphase] at h
      obtain ⟨index, hsome, hor, hsuits⟩ := h
      refine ⟨index, hindex.trans hsome, hfits (by rw [hphase]; rfl) _ hor, ?_⟩
      intro hop
      exact (hsuits hop).mono rfl hsuperseded
  | ready model =>
      rw [hphase] at h
      intro hop
      obtain ⟨index, hsome, hsuits⟩ := h hop
      exact ⟨index, hindex.trans hsome, hsuits.mono rfl hsuperseded⟩
  | started => trivial
  | asked => trivial
  | read model ids => trivial
  | folded model => trivial
  | swapped model => trivial
  | invalidated model => trivial
  | collected model => trivial

/-- The invariant after a step of one call, from what holds of that call and of
the others. -/
theorem RecallInv.of_put {σ σ' : Engine} (h : RecallInv σ) {task : Nat}
    {call' : Option EngineCall}
    (hcalls : σ'.calls = (σ.put task call').calls)
    (hempty : σ'.cell = none → σ'.returned = [])
    (hvectors : ∀ model, σ'.cell = some model → ∀ id, σ'.Kept id →
      hasVector σ'.vectors id model = true)
    (hcurrent : σ'.indexed = true → ∃ index, σ'.index = some index ∧
      (σ'.Pending ∨ σ'.Fits index))
    (hunlocked : σ'.indexed = true → σ'.holder = none)
    (hreturned : ∀ id ∈ σ.returned, id ∈ σ'.returned)
    (hown : ∀ c, call' = some c →
      (c.phase.underLock = true → σ'.holder = some task) ∧
      (∀ id ∈ c.since, id ∈ σ'.returned) ∧ σ'.CallInv c)
    (hlocked : ∀ t c, t ≠ task → σ.calls t = some c →
      c.phase.underLock = true → σ'.holder = some t)
    (hothers : ∀ t c, t ≠ task → σ.calls t = some c → σ.CallInv c →
      σ'.CallInv c) : RecallInv σ' where
  empty := hempty
  vectors := hvectors
  current := hcurrent
  unlocked := hunlocked
  locked := by
    intro t c hc
    rw [hcalls] at hc
    by_cases hself : t = task
    · rw [hself, Engine.put_self] at hc
      rw [hself]
      exact (hown c hc).1
    · rw [σ.put_ne hself] at hc
      exact hlocked t c hself hc
  since := by
    intro t c hc
    rw [hcalls] at hc
    by_cases hself : t = task
    · rw [hself, Engine.put_self] at hc
      exact (hown c hc).2.1
    · rw [σ.put_ne hself] at hc
      intro id hid
      exact hreturned id (h.since t c hc id hid)
  calls := by
    intro t c hc
    rw [hcalls] at hc
    by_cases hself : t = task
    · rw [hself, Engine.put_self] at hc
      exact (hown c hc).2.2
    · rw [σ.put_ne hself] at hc
      exact hothers t c hself hc (h.calls t c hc)

theorem mem_vectorsForModel {rows : List VectorRow} {model id : String} :
    id ∈ vectorsForModel rows model ↔ hasVector rows id model = true := by
  rw [vectorsForModel, List.mem_map, hasVector_iff]
  constructor
  · rintro ⟨v, hv, hid⟩
    rw [List.mem_filter, beq_iff_eq] at hv
    exact ⟨v, hv.1, hid, hv.2⟩
  · rintro ⟨v, hv, hid, hmodel⟩
    refine ⟨v, ?_, hid⟩
    rw [List.mem_filter, beq_iff_eq]
    exact ⟨hv, hmodel⟩

/-- With the lock held, the flag is not set. -/
theorem RecallInv.indexed_of_locked {σ : Engine} (h : RecallInv σ) {t : Nat}
    {call : EngineCall} (hcall : σ.calls t = some call)
    (hlock : call.phase.underLock = true) : σ.indexed = false := by
  by_contra hset
  rw [Bool.not_eq_false] at hset
  have hnone := h.unlocked hset
  rw [h.locked t call hcall hlock] at hnone
  cases hnone

/-- The lock has one holder. -/
theorem RecallInv.locked_unique {σ : Engine} (h : RecallInv σ) {t t' : Nat}
    {call call' : EngineCall} (hcall : σ.calls t = some call)
    (hlock : call.phase.underLock = true) (hcall' : σ.calls t' = some call')
    (hlock' : call'.phase.underLock = true) : t' = t := by
  have heq := h.locked t call hcall hlock
  rw [h.locked t' call' hcall' hlock'] at heq
  exact Option.some.inj heq

/-- A step that only moves its call on. -/
theorem RecallInv.put {σ : Engine} (h : RecallInv σ) {task : Nat}
    {call' : Option EngineCall}
    (hother : ∀ call, σ.calls task = some call →
      ∀ model, call.phase ≠ .swapped model)
    (hown : ∀ c, call' = some c →
      (c.phase.underLock = true → σ.holder = some task) ∧
      (∀ id ∈ c.since, id ∈ σ.returned) ∧ (σ.put task call').CallInv c) :
    RecallInv (σ.put task call') := by
  have hpending : σ.Pending → (σ.put task call').Pending :=
    fun hp => hp.of_put rfl hother
  refine h.of_put rfl h.empty h.vectors ?_ h.unlocked (fun _ hid => hid) hown
    (fun t c _ hc => h.locked t c hc) ?_
  · intro hset
    obtain ⟨index, hsome, hor⟩ := h.current hset
    refine ⟨index, hsome, ?_⟩
    rcases hor with hpend | hfits
    · exact .inl (hpending hpend)
    · exact .inr hfits
  · intro t c _ _ hinv
    exact hinv.mono rfl (fun _ hnot => hnot) (fun _ _ _ _ hv => hv)
      (fun _ => hpending) (fun _ _ hmodel => .inr hmodel) (fun _ _ hid => hid)

theorem RecallInv.start {σ : Engine} (h : RecallInv σ) (task : Nat)
    (op : EngineOp) : RecallInv (σ.start task op) := by
  unfold Engine.start
  split
  · exact h
  · next hnone =>
      refine h.put ?_ ?_
      · intro call hcall
        rw [hnone] at hcall
        cases hcall
      · intro c hc
        cases hc
        refine ⟨?_, fun id hid => hid, ?_⟩
        · intro hlock
          cases op <;> cases hlock
        · cases op with
          | publish model =>
              intro hop
              cases hop
          | _ => trivial

theorem RecallInv.ask {σ : Engine} (h : RecallInv σ) (task : Nat) :
    RecallInv (σ.ask task) := by
  unfold Engine.ask
  split
  · next call hcall =>
      have hold : call.phase = .started → ∀ c, σ.calls task = some c →
          ∀ model, c.phase ≠ .swapped model := by
        intro hphase c hc model
        rw [hcall] at hc
        rw [← Option.some.inj hc, hphase]
        simp
      split
      · next model hphase hcell =>
          refine h.put (hold hphase) ?_
          intro c hc
          cases hc
          refine ⟨nofun, h.since task call hcall, ?_⟩
          intro hop id hid hnot
          exact h.vectors model hcell id
            ⟨h.since task call hcall id hid, hnot⟩
      · next hphase hcell =>
          refine h.put (hold hphase) ?_
          intro c hc
          cases hc
          exact ⟨nofun, h.since task call hcall, trivial⟩
      · exact h
  · exact h

theorem RecallInv.load {σ : Engine} (h : RecallInv σ) (task : Nat)
    (model : String) (hok : Uncrossed σ (.load task model)) :
    RecallInv (σ.load task model) := by
  unfold Engine.load
  split
  · next call hcall =>
      split
      · next hphase =>
          have hvectors : ∀ id, σ.Kept id →
              hasVector σ.vectors id model = true := by
            intro id hid
            rcases hok with hnone | hsome
            · rw [Engine.Kept, h.empty hnone] at hid
              cases hid.1
            · exact h.vectors model hsome id hid
          have hpending : σ.Pending → Engine.Pending
              { σ.move task call (.holds model) with cell := some model } := by
            intro hp
            refine hp.of_put rfl ?_
            intro c hc model'
            rw [hcall] at hc
            rw [← Option.some.inj hc, hphase]
            simp
          have hcell : ∀ model', σ.cell = some model' → model = model' := by
            intro model' hmodel'
            rcases hok with hnone | hsome
            · rw [hnone] at hmodel'
              cases hmodel'
            · rw [hsome] at hmodel'
              exact Option.some.inj hmodel'
          refine h.of_put rfl nofun ?_ ?_ h.unlocked (fun _ hid => hid) ?_
            (fun t c _ hc => h.locked t c hc) ?_
          · intro model' hmodel' id hid
            cases hmodel'
            exact hvectors id hid
          · intro hset
            obtain ⟨index, hsome, hor⟩ := h.current hset
            refine ⟨index, hsome, ?_⟩
            rcases hor with hpend | hfits
            · exact .inl (hpending hpend)
            · refine .inr ⟨?_, hfits.2⟩
              show some model = some index.model
              rw [hcell index.model hfits.1]
          · intro c hc
            cases hc
            refine ⟨nofun, h.since task call hcall, ?_⟩
            intro hop id hid hnot
            exact hvectors id ⟨h.since task call hcall id hid, hnot⟩
          · intro t c _ _ hinv
            refine hinv.mono rfl (fun _ hnot => hnot) (fun _ _ _ _ hv => hv)
              (fun _ => hpending) ?_ (fun _ _ hid => hid)
            intro _ model' hmodel'
            refine .inr ?_
            show some model = some model'
            rw [hcell model' hmodel']
      · exact h
  · exact h

theorem RecallInv.readRows {σ : Engine} (h : RecallInv σ) (task : Nat) :
    RecallInv (σ.readRows task) := by
  unfold Engine.readRows
  split
  · next call hcall =>
      have hsince := h.since task call hcall
      have hinv := h.calls task call hcall
      have hold : (∀ model, call.phase ≠ .swapped model) →
          ∀ c, σ.calls task = some c → ∀ model, c.phase ≠ .swapped model := by
        intro hphase c hc
        rw [hcall] at hc
        rw [← Option.some.inj hc]
        exact hphase
      have houtside : ∀ model ids, (∀ m, call.phase ≠ .swapped m) →
          RecallInv (σ.move task call (.read model ids)) := by
        intro model ids hphase
        refine h.put (hold hphase) ?_
        intro c hc
        cases hc
        exact ⟨nofun, hsince, trivial⟩
      split
      · next model hphase =>
          have hne : ∀ m, call.phase ≠ .swapped m := by
            intro m
            rw [hphase]
            simp
          rw [Engine.CallInv, hphase] at hinv
          refine h.put (hold hne) ?_
          intro c hc
          cases hc
          refine ⟨fun _ => h.locked task call hcall (by rw [hphase]; rfl),
            hsince, ?_, ?_⟩
          · rcases hinv.1 with hpend | hmodel
            · exact .inl (hpend.of_put rfl (hold hne))
            · refine .inr ⟨hmodel, ?_⟩
              intro id hid
              exact mem_vectorsForModel.2 (h.vectors model hmodel id hid)
          · intro hop
            refine ⟨rfl, ?_⟩
            intro id hid hnot
            exact mem_vectorsForModel.2 (hinv.2 hop id hid hnot)
      · next model _ hphase => exact houtside model _ (by rw [hphase]; simp)
      · next model _ hphase => exact houtside model _ (by rw [hphase]; simp)
      · next model hphase => exact houtside model _ (by rw [hphase]; simp)
      · exact h
  · exact h

theorem RecallInv.check {σ : Engine} (h : RecallInv σ) (task : Nat)
    (hok : Uncrossed σ (.check task)) : RecallInv (σ.check task) := by
  unfold Engine.check
  split
  · next call hcall hholder =>
      have hsince := h.since task call hcall
      have hinv := h.calls task call hcall
      split
      · next model hensures hphase =>
          obtain ⟨hset, hunset⟩ := hok call model hcall hensures hphase
          have hold : ∀ c, σ.calls task = some c →
              ∀ m, c.phase ≠ .swapped m := by
            intro c hc m
            rw [hcall] at hc
            rw [← Option.some.inj hc, hphase]
            simp
          rw [Engine.CallInv, hphase] at hinv
          split
          · next hindexed =>
              -- the flag is right about the index, and the model is the cell's
              refine h.put hold ?_
              intro c hc
              cases hc
              refine ⟨nofun, hsince, ?_⟩
              intro hop
              obtain ⟨hmodel, hquiet⟩ := hset hindexed
              obtain ⟨index, hsome, hor⟩ := h.current hindexed
              refine ⟨index, hsome, ?_⟩
              rcases hor with hpend | hfits
              · exact absurd hpend hquiet
              · refine ⟨?_, ?_⟩
                · exact Option.some.inj (hfits.1.symm.trans hmodel)
                · intro id hid hnot
                  exact hfits.2 id ⟨hsince id hid, hnot⟩
          · next hindexed =>
              have hindexed : σ.indexed = false := by simpa using hindexed
              have hpending : σ.Pending → Engine.Pending
                  { σ.move task call (.locked model) with
                    holder := some task } :=
                fun hp => hp.of_put rfl hold
              refine h.of_put rfl h.empty h.vectors ?_ ?_ (fun _ hid => hid) ?_
                ?_ ?_
              · intro hset
                rw [show σ.indexed = true from hset] at hindexed
                cases hindexed
              · intro hset
                rw [show σ.indexed = true from hset] at hindexed
                cases hindexed
              · intro c hc
                cases hc
                refine ⟨fun _ => rfl, hsince, ?_, hinv⟩
                rcases hunset hindexed with hmodel | hpend
                · exact .inr hmodel
                · exact .inl (hpending hpend)
              · intro t c _ hc hlock
                rw [h.locked t c hc hlock] at hholder
                cases hholder
              · intro t c _ _ hinv
                exact hinv.mono rfl (fun _ hnot => hnot)
                  (fun _ _ _ _ hv => hv) (fun _ => hpending)
                  (fun _ _ hmodel => .inr hmodel) (fun _ _ hid => hid)
      · exact h
  · exact h

/-- The index is replaced: what the step asks of the recalls that rely on it
and of the flag. -/
theorem RecallInv.replaced {σ : Engine} (h : RecallInv σ) {task : Nat}
    {call : EngineCall} (hcall : σ.calls task = some call)
    (hswapped : ∀ m, call.phase ≠ .swapped m) (phase : EnginePhase)
    (index : RecallVectors)
    (hrelies : ∀ t other model, t ≠ task → σ.calls t = some other →
      other.op = .recall → other.phase.Relies model →
      σ.Suits other model index)
    (hfits : (σ.indexed = true ∨ ∃ t other model, t ≠ task ∧
        σ.calls t = some other ∧ other.phase = .lockedStored model) →
      σ.Pending ∨ σ.Fits index)
    (hlock : phase.underLock = true → σ.holder = some task)
    (hown : (σ.Pending → Engine.Pending
        { σ.move task call phase with index := some index }) →
      Engine.CallInv { σ.move task call phase with index := some index }
        { call with phase := phase }) :
    RecallInv { σ.move task call phase with index := some index } := by
  have hpending : σ.Pending → Engine.Pending
      { σ.move task call phase with index := some index } := by
    intro hp
    refine hp.of_put rfl ?_
    intro c hc
    rw [hcall] at hc
    rw [← Option.some.inj hc]
    exact hswapped
  have hor : σ.Pending ∨ σ.Fits index → Engine.Pending
      { σ.move task call phase with index := some index } ∨ Engine.Fits
      { σ.move task call phase with index := some index } index := by
    rintro (hpend | hfits)
    · exact .inl (hpending hpend)
    · exact .inr hfits
  refine h.of_put rfl h.empty h.vectors ?_ h.unlocked (fun _ hid => hid) ?_
    (fun t c _ hc => h.locked t c hc) ?_
  · intro hset
    exact ⟨index, rfl, hor (hfits (.inl hset))⟩
  · intro c hc
    cases hc
    exact ⟨hlock, h.since task call hcall, hown hpending⟩
  · intro t c hne hc hinv
    unfold Engine.CallInv at hinv ⊢
    cases hphase : c.phase with
    | holds model =>
        rw [hphase] at hinv
        exact hinv
    | locked model =>
        rw [hphase] at hinv
        exact ⟨hinv.1.imp_left hpending, hinv.2⟩
    | lockedRead model ids =>
        rw [hphase] at hinv
        exact ⟨hinv.1.imp_left hpending, hinv.2⟩
    | lockedStored model =>
        refine ⟨index, rfl, hor (hfits (.inr ⟨t, c, model, hne, hc, hphase⟩)),
          ?_⟩
        intro hop
        exact hrelies t c model hne hc hop (.inl hphase)
    | ready model =>
        intro hop
        exact ⟨index, rfl, hrelies t c model hne hc hop (.inr hphase)⟩
    | started => trivial
    | asked => trivial
    | read model ids => trivial
    | folded model => trivial
    | swapped model => trivial
    | invalidated model => trivial
    | collected model => trivial

theorem RecallInv.storeIndex {σ : Engine} (h : RecallInv σ) (task : Nat)
    (hok : Uncrossed σ (.storeIndex task)) :
    RecallInv (σ.storeIndex task) := by
  unfold Engine.storeIndex
  split
  · next call hcall =>
      have hinv := h.calls task call hcall
      split
      · next model ids hphase =>
          have hlock : call.phase.underLock = true := by rw [hphase]; rfl
          rw [Engine.CallInv, hphase] at hinv
          refine h.replaced hcall (by simp [hphase]) _ _
            (hok call model ids hcall (.inl hphase)).1 ?_
            (fun _ => h.locked task call hcall hlock) ?_
          · rintro (hset | ⟨t, other, m, hne, hother, hstored⟩)
            · rw [h.indexed_of_locked hcall hlock] at hset
              cases hset
            · exact absurd (h.locked_unique hcall hlock hother
                (by rw [hstored]; rfl)) hne
          · intro hpending
            refine ⟨_, rfl, ?_, ?_⟩
            · rcases hinv.1 with hpend | hfits
              · exact .inl (hpending hpend)
              · exact .inr hfits
            · exact hinv.2
      · next model ids hphase =>
          obtain ⟨hrelies, hfits⟩ := hok call model ids hcall (.inr hphase)
          refine h.replaced hcall (by simp [hphase]) _ _ hrelies ?_ nofun
            (fun _ => trivial)
          rintro (hset | ⟨t, other, m, -, hother, hstored⟩)
          · exact hfits hphase (.inl hset)
          · exact hfits hphase (.inr ⟨t, other, m, hother, hstored⟩)
      · exact h
  · exact h

theorem RecallInv.release {σ : Engine} (h : RecallInv σ) (task : Nat) :
    RecallInv (σ.release task) := by
  unfold Engine.release
  split
  · next call hcall =>
      have hinv := h.calls task call hcall
      split
      · next model hphase =>
          have hlock : call.phase.underLock = true := by rw [hphase]; rfl
          rw [Engine.CallInv, hphase] at hinv
          obtain ⟨index, hsome, hor, hsuits⟩ := hinv
          have hpending : σ.Pending → Engine.Pending
              { σ.move task call (.ready model) with
                indexed := true, holder := none } := by
            intro hp
            refine hp.of_put rfl ?_
            intro c hc m
            rw [hcall] at hc
            rw [← Option.some.inj hc, hphase]
            simp
          refine h.of_put rfl h.empty h.vectors ?_ (fun _ => rfl)
            (fun _ hid => hid) ?_ ?_ ?_
          · intro _
            exact ⟨index, hsome, hor.imp_left hpending⟩
          · intro c hc
            cases hc
            refine ⟨nofun, h.since task call hcall, ?_⟩
            intro hop
            exact ⟨index, hsome, hsuits hop⟩
          · intro t c hne hc hlock'
            exact absurd (h.locked_unique hcall hlock hc hlock') hne
          · intro t c _ _ hinv
            exact hinv.mono rfl (fun _ hnot => hnot) (fun _ _ _ _ hv => hv)
              (fun _ => hpending) (fun _ _ hmodel => .inr hmodel)
              (fun _ _ hid => hid)
      · exact h
  · exact h

/-- A vector is stored beside the others. -/
theorem RecallInv.derive {σ : Engine} (h : RecallInv σ) (task : Nat)
    (id : String) (supersedes : Option String) (dim : Nat)
    (embedding : Bytes) :
    RecallInv (σ.derive task id supersedes dim embedding) := by
  unfold Engine.derive
  split
  · next call hcall =>
      split
      · next model hembeds =>
          have hphase : call.phase = .holds model ∨
              call.phase = .ready model := by
            unfold EngineCall.embedsWith at hembeds
            split at hembeds <;> simp_all
          have hold : ∀ c, σ.calls task = some c →
              ∀ m, c.phase ≠ .swapped m := by
            intro c hc m
            rw [hcall] at hc
            rw [← Option.some.inj hc]
            rcases hphase with hphase | hphase
            · rw [hphase]
              simp
            · rw [hphase]
              simp
          have hpending : σ.Pending → Engine.Pending
              { σ.put task (some { call with stored := id :: call.stored }) with
                vectors := upsertVector
                  { eventId := id, modelId := model, dim := dim,
                    embedding := embedding } σ.vectors
                superseded := supersedes.toList ++ σ.superseded } :=
            fun hp => hp.of_put rfl hold
          have hfewer : ∀ x, x ∉ supersedes.toList ++ σ.superseded →
              x ∉ σ.superseded :=
            fun x hnot hx => hnot (List.mem_append_right _ hx)
          have hstored : ∀ x m, hasVector σ.vectors x m = true →
              hasVector (upsertVector
                { eventId := id, modelId := model, dim := dim,
                  embedding := embedding } σ.vectors) x m = true :=
            fun _ _ hv => hasVector_upsert.2 (.inl hv)
          have hmono : ∀ c, σ.CallInv c → Engine.CallInv
              { σ.put task (some { call with stored := id :: call.stored }) with
                vectors := upsertVector
                  { eventId := id, modelId := model, dim := dim,
                    embedding := embedding } σ.vectors
                superseded := supersedes.toList ++ σ.superseded } c := by
            intro c hinv
            exact hinv.mono rfl hfewer (fun m _ _ x hv => hstored x m hv)
              (fun _ => hpending) (fun _ _ hmodel => .inr hmodel)
              (fun _ x hx => ⟨hx.1, hfewer x hx.2⟩)
          refine h.of_put rfl h.empty ?_ ?_ h.unlocked (fun _ hx => hx) ?_
            (fun t c _ hc => h.locked t c hc) (fun t c _ _ hinv => hmono c hinv)
          · intro m hm x hx
            exact hstored x m (h.vectors m hm x ⟨hx.1, hfewer x hx.2⟩)
          · intro hset
            obtain ⟨index, hsome, hor⟩ := h.current hset
            refine ⟨index, hsome, ?_⟩
            rcases hor with hpend | hfits
            · exact .inl (hpending hpend)
            · exact .inr ⟨hfits.1, fun x hx =>
                hfits.2 x ⟨hx.1, hfewer x hx.2⟩⟩
          · intro c hc
            cases hc
            exact ⟨h.locked task call hcall, h.since task call hcall,
              hmono call (h.calls task call hcall)⟩
      · exact h
  · exact h

/-- A call returns: the flag is cleared, or the index fits what returns. -/
theorem RecallInv.returns {σ : Engine} (h : RecallInv σ) {task : Nat}
    {call : EngineCall} (hcall : σ.calls task = some call)
    (hholder : σ.holder = none) (hswapped : ∀ m, call.phase ≠ .swapped m)
    {model : String} (hcell : σ.cell = some model)
    (hvectors : ∀ id ∈ call.stored, id ∉ σ.superseded →
      hasVector σ.vectors id model = true) (set : Bool)
    (hset : set = true → ∃ index, σ.index = some index ∧
      (σ.Pending ∨ (σ.Fits index ∧ ∀ id ∈ call.stored, id ∉ σ.superseded →
        id ∈ index.ids))) :
    RecallInv { σ.put task none with
      indexed := set
      returned := call.stored ++ σ.returned } := by
  have hpending : σ.Pending → Engine.Pending { σ.put task none with
      indexed := set, returned := call.stored ++ σ.returned } := by
    intro hp
    refine hp.of_put rfl ?_
    intro c hc
    rw [hcall] at hc
    rw [← Option.some.inj hc]
    exact hswapped
  have hfree : ∀ t c, σ.calls t = some c → c.phase.underLock = false := by
    intro t c hc
    by_contra hlock
    rw [Bool.not_eq_false] at hlock
    rw [h.locked t c hc hlock] at hholder
    cases hholder
  refine h.of_put rfl ?_ ?_ ?_ (fun _ => hholder)
    (fun _ hid => List.mem_append_right _ hid) nofun ?_ ?_
  · intro hnone
    rw [show σ.cell = none from hnone] at hcell
    cases hcell
  · intro m hm id hid
    have hmodel : m = model := Option.some.inj (hm.symm.trans hcell)
    rw [hmodel]
    rcases List.mem_append.mp hid.1 with hnew | hold
    · exact hvectors id hnew hid.2
    · exact h.vectors model hcell id ⟨hold, hid.2⟩
  · intro htrue
    obtain ⟨index, hsome, hor⟩ := hset htrue
    refine ⟨index, hsome, ?_⟩
    rcases hor with hpend | ⟨hfits, hnew⟩
    · exact .inl (hpending hpend)
    · refine .inr ⟨hfits.1, ?_⟩
      intro id hid
      rcases List.mem_append.mp hid.1 with hmem | hold
      · exact hnew id hmem hid.2
      · exact hfits.2 id ⟨hold, hid.2⟩
  · intro t c _ hc hlock
    rw [hfree t c hc] at hlock
    cases hlock
  · intro t c _ hc hinv
    have hnot : ¬ c.phase.underLock = true := by
      rw [hfree t c hc]
      simp
    exact hinv.mono rfl (fun _ hx => hx) (fun _ _ _ _ hv => hv)
      (fun hlock => absurd hlock hnot) (fun hlock => absurd hlock hnot)
      (fun hlock => absurd hlock hnot)

theorem RecallInv.answer {σ : Engine} (h : RecallInv σ) (task : Nat)
    (hok : Uncrossed σ (.answer task)) : RecallInv (σ.answer task) := by
  unfold Engine.answer
  split
  · next call hcall hholder =>
      split
      · next model hop hphase =>
          obtain ⟨⟨m, hcell, hvectors⟩, -⟩ :=
            hok call hcall (.inl ⟨hop, model, hphase⟩)
          exact h.returns hcall hholder (by simp [hphase]) hcell hvectors false
            nofun
      · next model hop hphase =>
          obtain ⟨⟨m, hcell, hvectors⟩, hindex⟩ :=
            hok call hcall (.inr ⟨hop, model, hphase⟩)
          exact h.returns hcall hholder (by simp [hphase]) hcell hvectors true
            (fun _ => hindex hop)
      · exact h
  · exact h

theorem RecallInv.publish {σ : Engine} (h : RecallInv σ) (task : Nat)
    (hok : Uncrossed σ (.publish task)) : RecallInv (σ.publish task) := by
  unfold Engine.publish
  split
  · next call hcall =>
      split
      · next target model hop hphase =>
          have hpending : Engine.Pending
              { σ.move task call (.swapped model) with cell := some model } :=
            ⟨task, _, model, σ.put_self task _, rfl⟩
          refine h.of_put rfl nofun ?_ ?_ h.unlocked (fun _ hid => hid) ?_
            (fun t c _ hc => h.locked t c hc) ?_
          · intro m hm id hid
            cases hm
            exact hok call target model hcall hop hphase id hid
          · intro hset
            obtain ⟨index, hsome, -⟩ := h.current hset
            exact ⟨index, hsome, .inl hpending⟩
          · intro c hc
            cases hc
            exact ⟨nofun, h.since task call hcall, trivial⟩
          · intro t c _ _ hinv
            exact hinv.mono rfl (fun _ hnot => hnot) (fun _ _ _ _ hv => hv)
              (fun _ _ => hpending) (fun _ _ _ => .inl hpending)
              (fun _ _ hid => hid)
      · exact h
  · exact h

theorem RecallInv.invalidate {σ : Engine} (h : RecallInv σ) (task : Nat) :
    RecallInv (σ.invalidate task) := by
  unfold Engine.invalidate
  split
  · next call hcall hholder =>
      split
      · next model hphase =>
          have hfree : ∀ t c, σ.calls t = some c →
              ¬ c.phase.underLock = true := by
            intro t c hc hlock
            rw [h.locked t c hc hlock] at hholder
            cases hholder
          refine h.of_put rfl h.empty h.vectors nofun nofun (fun _ hid => hid)
            ?_ (fun t c _ hc => h.locked t c hc) ?_
          · intro c hc
            cases hc
            exact ⟨nofun, h.since task call hcall, trivial⟩
          · intro t c _ hc hinv
            exact hinv.mono rfl (fun _ hnot => hnot) (fun _ _ _ _ hv => hv)
              (fun hlock => absurd hlock (hfree t c hc))
              (fun hlock => absurd hlock (hfree t c hc))
              (fun hlock => absurd hlock (hfree t c hc))
      · exact h
  · exact h

theorem RecallInv.collect {σ : Engine} (h : RecallInv σ) (task : Nat)
    (hok : Uncrossed σ (.collect task)) : RecallInv (σ.collect task) := by
  unfold Engine.collect
  split
  · next call hcall =>
      split
      · next model hphase =>
          obtain ⟨hcell, hrecalls⟩ := hok call model hcall hphase
          have hold : ∀ c, σ.calls task = some c →
              ∀ m, c.phase ≠ .swapped m := by
            intro c hc m
            rw [hcall] at hc
            rw [← Option.some.inj hc, hphase]
            simp
          have hkeeps : ∀ id, hasVector σ.vectors id model = true → hasVector
              (σ.vectors.filter fun v => v.modelId == model) id model = true := by
            intro id hid
            obtain ⟨v, hv, hvid, hvmodel⟩ := hasVector_iff.1 hid
            refine hasVector_iff.2
              ⟨v, List.mem_filter.mpr ⟨hv, ?_⟩, hvid, hvmodel⟩
            rw [beq_iff_eq]
            exact hvmodel
          have hpending : σ.Pending → Engine.Pending
              { σ.move task call (.collected model) with
                vectors := σ.vectors.filter fun v => v.modelId == model } :=
            fun hp => hp.of_put rfl hold
          refine h.of_put rfl h.empty ?_ ?_ h.unlocked (fun _ hid => hid) ?_
            (fun t c _ hc => h.locked t c hc) ?_
          · intro m hm id hid
            have hmodel : m = model := Option.some.inj (hm.symm.trans hcell)
            rw [hmodel]
            exact hkeeps id (h.vectors model hcell id hid)
          · intro hset
            obtain ⟨index, hsome, hor⟩ := h.current hset
            exact ⟨index, hsome, hor.imp_left hpending⟩
          · intro c hc
            cases hc
            exact ⟨nofun, h.since task call hcall, trivial⟩
          · intro t c _ hc hinv
            refine hinv.mono rfl (fun _ hnot => hnot) ?_ (fun _ => hpending)
              (fun _ _ hmodel => .inr hmodel) (fun _ _ hid => hid)
            intro m hop hm id hid
            rw [hrecalls t c m hc hop hm] at hid ⊢
            exact hkeeps id hid
      · exact h
  · exact h

/-- A call that has not swapped the model ends. -/
theorem RecallInv.ends {σ : Engine} (h : RecallInv σ) {task : Nat}
    {call : EngineCall} (hcall : σ.calls task = some call)
    (hswapped : ∀ m, call.phase ≠ .swapped m) :
    RecallInv (σ.put task none) := by
  refine h.put ?_ nofun
  intro c hc
  rw [hcall] at hc
  rw [← Option.some.inj hc]
  exact hswapped

theorem RecallInv.finish {σ : Engine} (h : RecallInv σ) (task : Nat) :
    RecallInv (σ.finish task) := by
  unfold Engine.finish
  split
  · next call hcall =>
      split
      · next model _ hphase => exact h.ends hcall (by simp [hphase])
      · next model _ hphase => exact h.ends hcall (by simp [hphase])
      · next target model _ hphase => exact h.ends hcall (by simp [hphase])
      · exact h
  · exact h

/-- A rebuild under the lock fails and lets it go. -/
theorem RecallInv.unlock {σ : Engine} (h : RecallInv σ) {task : Nat}
    {call : EngineCall} (hcall : σ.calls task = some call)
    (hlock : call.phase.underLock = true)
    (hswapped : ∀ m, call.phase ≠ .swapped m) :
    RecallInv { σ.put task none with holder := none } := by
  have hends := h.ends hcall hswapped
  refine
    { empty := hends.empty
      vectors := hends.vectors
      current := hends.current
      unlocked := fun _ => rfl
      locked := ?_
      since := hends.since
      calls := hends.calls }
  intro t c hc hlock'
  have hholder := hends.locked t c hc hlock'
  rw [show (σ.put task none).holder = some task from
    h.locked task call hcall hlock] at hholder
  rw [← Option.some.inj hholder] at hc
  cases (σ.put_self task none).symm.trans hc

theorem RecallInv.fail {σ : Engine} (h : RecallInv σ) (task : Nat) :
    RecallInv (σ.fail task) := by
  unfold Engine.fail
  split
  · next call hcall =>
      split
      · next hphase =>
          exact h.unlock hcall (by rw [hphase]; rfl) (by simp [hphase])
      · next hphase =>
          exact h.unlock hcall (by rw [hphase]; rfl) (by simp [hphase])
      · next hphase =>
          exact h.unlock hcall (by rw [hphase]; rfl) (by simp [hphase])
      · exact h
      · next hswapped => exact h.ends hcall hswapped
  · exact h

/-! ## Runs -/

theorem RecallInv.exec {σ : Engine} (h : RecallInv σ) (step : EngineStep)
    (hok : Uncrossed σ step) : RecallInv (σ.exec step) := by
  cases step with
  | start task op => exact h.start task op
  | ask task => exact h.ask task
  | load task model => exact h.load task model hok
  | check task => exact h.check task hok
  | readRows task => exact h.readRows task
  | storeIndex task => exact h.storeIndex task hok
  | release task => exact h.release task
  | derive task id supersedes dim embedding =>
      exact h.derive task id supersedes dim embedding
  | answer task => exact h.answer task hok
  | publish task => exact h.publish task hok
  | invalidate task => exact h.invalidate task
  | collect task => exact h.collect task hok
  | finish task => exact h.finish task
  | fail task => exact h.fail task

theorem not_readsWrites {σ : Engine} {t : Nat} {model : String}
    {since stored : List String} {index : RecallVectors}
    (hcall : σ.calls t = some ⟨.recall, .ready model, since, stored⟩)
    (hindex : σ.index = some index)
    (hbad : index.model ≠ model ∨
      ∃ id ∈ since, id ∉ σ.superseded ∧ id ∉ index.ids) :
    ¬ ReadsWrites σ := by
  intro h
  obtain ⟨found, hfound, hmodel, hids⟩ := h t _ model hcall rfl rfl
  have hsame : found = index := Option.some.inj (hfound.symm.trans hindex)
  rw [hsame] at hmodel hids
  rcases hbad with hne | ⟨id, hid, hnot, hmissing⟩
  · exact hne hmodel
  · exact hmissing (hids id hid hnot)

namespace RecallRuns

/-- A note is remembered; `asking` is how the call comes by its model. -/
def remembers (task : Nat) (id : String) (asking : List EngineStep) :
    List EngineStep :=
  [.start task .remember, .ask task] ++ asking ++
    [.derive task id none 1 [], .answer task]

/-- `ensure_indexed` finds the flag unset. -/
def rebuilds (task : Nat) : List EngineStep :=
  [.check task, .readRows task, .storeIndex task, .release task]

/-- A note is remembered and recalled. -/
def recalled : List EngineStep :=
  remembers 0 "n1" [.load 0 "en"] ++ [.start 1 .recall, .ask 1] ++ rebuilds 1

/-- A note is remembered while an ingest rebuilds the index. -/
def lateIngest : List EngineStep :=
  [.start 0 .ingest, .ask 0, .load 0 "en", .readRows 0] ++
    remembers 1 "n1" [] ++
    [.storeIndex 0, .answer 0, .start 2 .recall, .ask 2, .check 2]

/-- A tick replaces the index by one it read before a note was remembered. -/
def lateTick : List EngineStep :=
  [.start 0 .evolve, .ask 0, .load 0 "en"] ++ rebuilds 0 ++ [.readRows 0] ++
    remembers 1 "n1" [] ++ [.start 2 .recall, .ask 2] ++ rebuilds 2 ++
    [.storeIndex 0]

/-- A recall takes the model between the halves of a publication. -/
def earlyRecall : List EngineStep :=
  recalled ++ [.start 2 (.publish "de"), .derive 2 "n1" none 1 [], .publish 2,
    .start 3 .recall, .ask 3, .check 3]

/-- A recall that took its model before a publication rebuilds after it. -/
def lateRecall : List EngineStep :=
  remembers 0 "n1" [.load 0 "en"] ++
    [.start 1 .recall, .ask 1, .start 2 (.publish "de"),
      .derive 2 "n1" none 1 [], .publish 2, .invalidate 2] ++
    rebuilds 1 ++ [.start 3 .recall, .ask 3, .check 3]

end RecallRuns

end AirNote
