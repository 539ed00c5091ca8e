import AirNote.Chain

/-!
# Concurrent appends

Any number of threads append to one log. A call takes the lock, opens a
transaction, inserts its one or two events and commits; whatever fails on the
way, the transaction is rolled back. An insertion reads the tip of the chain
inside the transaction, and takes any failure of that read for an empty log.
`verify_chain_since` starts from the stored hash of an event instead of the
origin.

## Main results

* `appends_linearise_iff` — in every state of a run the stored log is one
  sequence of the events of the successful calls, links and verifies, exactly
  when no call commits that failed to read the tip of a log with events.
* `misread_tip_breaks_chain` — a failed read of the tip breaks the chain.
-/

namespace AirNote

open Lib Lib.Trace

/-! ## One insertion -/

/-- What fails of an insertion: the read of the tip, the read of a source, or
the insertion itself. -/
structure RowFaults where
  tip : Bool
  source : String → Bool
  insert : Bool

/-- The link an insertion reads: a failed read counts as an empty log. -/
def readTip (f : RowFaults) (table : List Row) : String :=
  if f.tip then genesis else tipRowHash table

variable (P : Primitives)

/-- The event as it is hashed, where its reads may fail: a source that cannot
be read counts as external. -/
def linkedRowAmid (st : Stamp) (f : RowFaults) (table : List Row)
    (event : Event) : Event :=
  { event with
    content :=
      if event.sources.any
          (fun id => f.source id || sourceRowIsExternal P table id) then
        event.content.insertIfObject "origin" (.str externalOrigin)
      else event.content
    id := st.id
    ts := st.ts
    prevHash := readTip f table
    hash := none
    signature := none }

/-- `append_event_in_tx`, where its reads and its insertion may fail: the row
it inserts. -/
def insertRow (st : Stamp) (f : RowFaults) (table : List Row) (event : Event) :
    Except BossclawError Row :=
  match computeHash P (linkedRowAmid P st f table event) with
  | .error err => .error err
  | .ok digest =>
      let hashHex := Hex.encode digest
      if f.insert then .error (.store "")
      else if table.any (fun r => r.id == st.id) then
        .error (.store "UNIQUE constraint failed: events.id")
      else if table.any (fun r => r.hash == hashHex) then
        .error (.store "UNIQUE constraint failed: events.hash")
      else
        .ok (rowOf P { linkedRowAmid P st f table event with
                        hash := some hashHex
                        signature := some (P.signHash digest) })

/-- Where nothing fails, it is the insertion of the sequential log. -/
theorem appendRowInTx_eq_insertRow (st : Stamp) (table : List Row)
    (event : Event) :
    appendRowInTx P st table event =
      (insertRow P st ⟨false, fun _ => false, false⟩ table event).map
        fun row => (table ++ [row], st.id) := by
  have hlinked : linkedRowAmid P st ⟨false, fun _ => false, false⟩ table event =
      linkedRowEvent P st table event := by
    unfold linkedRowAmid linkedRowEvent readTip
    simp
  unfold appendRowInTx insertRow
  rw [hlinked]
  cases computeHash P (linkedRowEvent P st table event) with
  | error err => rfl
  | ok digest =>
      simp only [Bool.false_eq_true, if_false]
      split
      · rfl
      · split
        · rfl
        · rfl

/-! ## The threads -/

/-- The events of a call. -/
inductive Drafts where
  | append (event : Event)
  | appendPair (first second : Event)

def Drafts.events : Drafts → List Event
  | .append event => [event]
  | .appendPair first second => [first, second]

/-- The transaction of the thread that holds the lock; `misread` says that one
of its insertions took a log with events for an empty one. -/
structure OpenTx where
  thread : Nat
  drafts : Drafts
  inserted : List Row
  misread : Bool

/-- A call that answered, and the rows it stored. -/
structure Returned where
  thread : Nat
  drafts : Drafts
  rows : List Row

/-- The committed table, the open transaction, and the calls that
succeeded. -/
structure LogState where
  stored : List Row
  openTx : Option OpenTx
  returned : List Returned

def LogState.empty : LogState := ⟨[], none, []⟩

/-- A step of a thread; `stop` is a failure anywhere, or a crash. -/
inductive CallStep where
  | begin (thread : Nat) (drafts : Drafts)
  | insert (thread : Nat) (st : Stamp) (f : RowFaults)
  | commit (thread : Nat) (fails : Bool)
  | stop (thread : Nat)

/-- The transaction, where this thread holds the lock. -/
def LogState.txOf (σ : LogState) (thread : Nat) : Option OpenTx :=
  σ.openTx.filter fun tx => tx.thread == thread

/-- The transaction after an insertion. -/
def OpenTx.push (tx : OpenTx) (stored : List Row) (f : RowFaults) (row : Row) :
    OpenTx :=
  { tx with
    inserted := tx.inserted ++ [row]
    misread := tx.misread ||
      (f.tip && tipRowHash (stored ++ tx.inserted) != genesis) }

/-- The state after a step. -/
def LogState.exec (σ : LogState) : CallStep → LogState
  | .begin thread drafts =>
      if σ.openTx.isNone &&
          drafts.events.all (fun e => (rejectEmptyTierB e).isOk) then
        { σ with openTx := some ⟨thread, drafts, [], false⟩ }
      else σ
  | .insert thread st f =>
      match σ.txOf thread with
      | none => σ
      | some tx =>
          match tx.drafts.events[tx.inserted.length]? with
          | none => σ
          | some event =>
              match insertRow P st f (σ.stored ++ tx.inserted) event with
              | .error _ => { σ with openTx := none }
              | .ok row =>
                  { σ with openTx := some (tx.push σ.stored f row) }
  | .commit thread fails =>
      match σ.txOf thread with
      | none => σ
      | some tx =>
          if tx.inserted.length ≠ tx.drafts.events.length then σ
          else if fails then { σ with openTx := none }
          else
            { stored := σ.stored ++ tx.inserted
              openTx := none
              returned := σ.returned ++ [⟨thread, tx.drafts, tx.inserted⟩] }
  | .stop thread =>
      match σ.txOf thread with
      | none => σ
      | some _ => { σ with openTx := none }

/-! ## The incremental verification -/

/-- The row with this identifier, and the rows after it. -/
def cursorRow (id : String) : List Row → Option (Row × List Row)
  | [] => none
  | row :: rest => if row.id = id then some (row, rest) else cursorRow id rest

/-- `verify_chain_since`. -/
def verifyChainSince (table : List Row) : Option String →
    Except BossclawError Unit
  | none => verifyChain P table
  | some id =>
      match cursorRow id table with
      | none => .error (.chain
          ("verify_chain_since: cursor event " ++ id ++ " not found"))
      | some (row, rest) => verifyRows P rest row.hash

/-! ## What has to hold -/

/-- The row stores the event, which may have been stamped. -/
def RowFor (draft : Event) (row : Row) : Prop :=
  ∃ e, row = rowOf P e ∧ e.eventType = draft.eventType ∧
    e.modelMeta = draft.modelMeta ∧ e.validTime = draft.validTime ∧
    e.signedByDid = draft.signedByDid ∧
    (e.content = draft.content ∨
      e.content =
        draft.content.insertIfObject "origin" (.str externalOrigin))

/-- The stored log is one sequence of the events of the successful calls, a
pair next to each other; it links and verifies, as a whole and from each of
its events on. -/
structure Linearised (σ : LogState) : Prop where
  sequence : σ.stored = σ.returned.flatMap Returned.rows
  complete : ∀ r ∈ σ.returned,
    List.Forall₂ (RowFor P) r.drafts.events r.rows
  once : (σ.stored.map Row.id).Nodup
  linked : HashChain.Linked Row.prevHash Row.hash genesis σ.stored
  verified : ReadsBack P σ.stored → verifyChain P σ.stored = .ok ()
  since : verifyChain P σ.stored = .ok () → ∀ k,
    (∀ id, k = some id → ∃ row ∈ σ.stored, row.id = id) →
      verifyChainSince P σ.stored k = .ok ()

/-- A call commits only if it has not failed to read the tip of a log with
events. -/
def TipRead (σ : LogState) (step : CallStep) : Prop :=
  ∀ thread tx, step = .commit thread false → σ.txOf thread = some tx →
    tx.inserted.length = tx.drafts.events.length → tx.misread = false

/-! ## What an insertion stores -/

variable {P}

/-- Where its text reads back, the row verifies. -/
def Sealed (P : Primitives) (row : Row) : Prop :=
  (∀ e, row.payload = P.toText e → P.ofText row.payload = .ok e) →
    ∃ a, Verifies P row a

/-- What is known of an inserted row. -/
structure Inserted (P : Primitives) (f : RowFaults) (table : List Row)
    (event : Event) (row : Row) : Prop where
  fresh : ∀ r ∈ table, r.id ≠ row.id
  prev_eq : row.prevHash = readTip f table
  rowFor : RowFor P event row
  isSealed : Sealed P row

theorem insertRow_ok {st : Stamp} {f : RowFaults} {table : List Row}
    {event : Event} {row : Row} (h : insertRow P st f table event = .ok row) :
    Inserted P f table event row := by
  unfold insertRow at h
  cases hcomp : computeHash P (linkedRowAmid P st f table event) with
  | error err => simp [hcomp] at h
  | ok digest =>
      simp only [hcomp] at h
      split at h
      · cases h
      · split at h
        · cases h
        · next hid =>
            split at h
            · cases h
            · cases h
              set stored : Event :=
                { linkedRowAmid P st f table event with
                  hash := some (Hex.encode digest)
                  signature := some (P.signHash digest) } with hstored
              refine
                { fresh := ?_
                  prev_eq := rfl
                  rowFor := ?_
                  isSealed := ?_ }
              · intro r hr heq
                exact hid (List.any_eq_true.mpr ⟨r, hr, beq_iff_eq.mpr heq⟩)
              · have hcontent : (linkedRowAmid P st f table event).content =
                    event.content ∨
                    (linkedRowAmid P st f table event).content =
                      event.content.insertIfObject "origin"
                        (.str externalOrigin) := by
                  unfold linkedRowAmid
                  dsimp only
                  split
                  · exact .inr rfl
                  · exact .inl rfl
                exact ⟨stored, rfl, rfl, rfl, rfl, rfl, hcontent⟩
              · intro hback
                have hof : P.ofText (rowOf P stored).payload = .ok stored :=
                  hback stored rfl
                have hcomp' : computeHash P stored = .ok digest := by
                  rw [hstored, computeHash_seal, hcomp]
                obtain ⟨prev, canon, hdec, hlen, hcanon, hdig⟩ :=
                  computeHash_ok_iff.1 hcomp'
                refine ⟨(prev, canon), ?_⟩
                exact
                  { entry := by simp [rowEntry, hof, hdec, hcanon]
                    width := hlen
                    hash_eq := by
                      rw [Primitives.digest, ← hdig]
                      rfl
                    signed := by
                      refine ⟨stored, P.signHash digest, hof, rfl, ?_⟩
                      rw [Primitives.digest, ← hdig]
                      exact P.verify_sign digest }

/-- The insertion continues the chain exactly when it reads the tip. -/
theorem readTip_eq_iff {f : RowFaults} {table : List Row} :
    readTip f table = tipRowHash table ↔
      (f.tip && tipRowHash table != genesis) = false := by
  unfold readTip
  cases f.tip with
  | false => simp only [Bool.false_eq_true, if_false, Bool.false_and]
  | true =>
      simp only [if_true, Bool.true_and, bne_eq_false_iff_eq]
      exact eq_comm

/-! ## The invariant -/

/-- What the open transaction has inserted; it continues the chain exactly
where no tip was misread. -/
structure TxInv (P : Primitives) (stored : List Row) (tx : OpenTx) : Prop where
  records : List.Forall₂ (RowFor P)
    (tx.drafts.events.take tx.inserted.length) tx.inserted
  once : ((stored ++ tx.inserted).map Row.id).Nodup
  sealedRows : ∀ row ∈ tx.inserted, Sealed P row
  linked : tx.misread = false ↔
    HashChain.Linked Row.prevHash Row.hash (tipRowHash stored) tx.inserted

structure CallsInv (P : Primitives) (σ : LogState) : Prop where
  sequence : σ.stored = σ.returned.flatMap Returned.rows
  complete : ∀ r ∈ σ.returned,
    List.Forall₂ (RowFor P) r.drafts.events r.rows
  once : (σ.stored.map Row.id).Nodup
  sealedRows : ∀ row ∈ σ.stored, Sealed P row
  tx : ∀ tx, σ.openTx = some tx → TxInv P σ.stored tx

theorem callsInv_empty : CallsInv P .empty :=
  { sequence := rfl
    complete := by
      intro r hr
      cases hr
    once := List.nodup_nil
    sealedRows := by
      intro row hrow
      cases hrow
    tx := by
      intro tx htx
      cases htx }

/-- Giving the transaction up leaves the table alone. -/
theorem CallsInv.close {σ : LogState} (h : CallsInv P σ) :
    CallsInv P { σ with openTx := none } :=
  { sequence := h.sequence
    complete := h.complete
    once := h.once
    sealedRows := h.sealedRows
    tx := by
      intro tx htx
      cases htx }

theorem TxInv.push {stored : List Row} {tx : OpenTx} {f : RowFaults}
    {event : Event} {row : Row} (h : TxInv P stored tx)
    (hevent : tx.drafts.events[tx.inserted.length]? = some event)
    (hrow : Inserted P f (stored ++ tx.inserted) event row) :
    TxInv P stored (tx.push stored f row) := by
  have htip : HashChain.tip Row.hash (tipRowHash stored) tx.inserted =
      tipRowHash (stored ++ tx.inserted) := by
    rw [tipRowHash_eq_tip, tipRowHash_eq_tip, HashChain.tip_append]
  refine
    { records := ?_
      once := ?_
      sealedRows := ?_
      linked := ?_ }
  · show List.Forall₂ (RowFor P)
      (tx.drafts.events.take (tx.inserted ++ [row]).length)
      (tx.inserted ++ [row])
    rw [List.length_append, List.length_singleton, List.take_add_one, hevent]
    exact List.rel_append h.records (.cons hrow.rowFor .nil)
  · show ((stored ++ (tx.inserted ++ [row])).map Row.id).Nodup
    rw [← List.append_assoc, List.map_append, List.nodup_append]
    refine ⟨h.once, List.nodup_singleton _, ?_⟩
    intro a ha b hb heq
    obtain ⟨r, hr, hid⟩ := List.mem_map.mp ha
    rw [List.map_singleton, List.mem_singleton] at hb
    exact hrow.fresh r hr (by rw [hid, heq, hb])
  · intro r hr
    rcases List.mem_append.mp hr with hold | hnew
    · exact h.sealedRows r hold
    · rw [List.mem_singleton.mp hnew]
      exact hrow.isSealed
  · show (tx.misread ||
      (f.tip && tipRowHash (stored ++ tx.inserted) != genesis)) = false ↔
        HashChain.Linked Row.prevHash Row.hash (tipRowHash stored)
          (tx.inserted ++ [row])
    rw [HashChain.linked_append, htip, Bool.or_eq_false_iff, h.linked,
      ← readTip_eq_iff]
    simp only [HashChain.Linked, and_true, hrow.prev_eq]

theorem txOf_eq_some {σ : LogState} {thread : Nat} {tx : OpenTx}
    (h : σ.txOf thread = some tx) : σ.openTx = some tx :=
  (Option.filter_eq_some_iff.mp h).1

/-- Every step keeps the invariant. -/
theorem CallsInv.exec {σ : LogState} (h : CallsInv P σ) (step : CallStep) :
    CallsInv P (σ.exec P step) := by
  cases step with
  | begin thread drafts =>
      simp only [LogState.exec]
      split
      · refine
          { sequence := h.sequence
            complete := h.complete
            once := h.once
            sealedRows := h.sealedRows
            tx := ?_ }
        intro tx htx
        cases htx
        refine
          { records := .nil
            once := ?_
            sealedRows := ?_
            linked := ⟨fun _ => trivial, fun _ => rfl⟩ }
        · show ((σ.stored ++ []).map Row.id).Nodup
          rw [List.append_nil]
          exact h.once
        · intro row hrow
          cases hrow
      · exact h
  | insert thread st f =>
      simp only [LogState.exec]
      split
      · exact h
      · next tx htx =>
          split
          · exact h
          · next event hevent =>
              split
              · exact h.close
              · next row hrow =>
                  refine
                    { sequence := h.sequence
                      complete := h.complete
                      once := h.once
                      sealedRows := h.sealedRows
                      tx := ?_ }
                  intro tx' htx'
                  cases htx'
                  exact (h.tx tx (txOf_eq_some htx)).push hevent
                    (insertRow_ok hrow)
  | commit thread fails =>
      simp only [LogState.exec]
      split
      · exact h
      · next tx htx =>
          split
          · exact h
          · next hdone =>
              rw [not_not] at hdone
              split
              · exact h.close
              · have htxInv := h.tx tx (txOf_eq_some htx)
                refine
                  { sequence := ?_
                    complete := ?_
                    once := htxInv.once
                    sealedRows := ?_
                    tx := ?_ }
                · rw [List.flatMap_append, ← h.sequence, List.flatMap_singleton]
                · intro r hr
                  rcases List.mem_append.mp hr with hold | hnew
                  · exact h.complete r hold
                  · rw [List.mem_singleton.mp hnew]
                    have hrecords := htxInv.records
                    rw [hdone, List.take_length] at hrecords
                    exact hrecords
                · intro row hrow
                  rcases List.mem_append.mp hrow with hold | hnew
                  · exact h.sealedRows row hold
                  · exact htxInv.sealedRows row hnew
                · intro tx' htx'
                  cases htx'
  | stop thread =>
      simp only [LogState.exec]
      split
      · exact h
      · exact h.close

/-! ## The two verifiers -/

theorem verifyRows_of_linked {rows : List Row} {d : String}
    (hlinked : HashChain.Linked Row.prevHash Row.hash d rows)
    (hall : ∀ row ∈ rows, ∃ a, Verifies P row a) :
    verifyRows P rows d = .ok () := by
  induction rows generalizing d with
  | nil => rfl
  | cons row rest ih =>
      obtain ⟨hprev, hrest⟩ := hlinked
      refine verifyRows_cons_ok.2 ⟨hprev, hall row List.mem_cons_self, ?_⟩
      exact ih hrest fun r hr => hall r (List.mem_cons_of_mem row hr)

theorem cursorRow_of_mem {table : List Row} {id : String}
    (h : ∃ row ∈ table, row.id = id) :
    ∃ front row rest, table = front ++ row :: rest ∧
      cursorRow id table = some (row, rest) := by
  induction table with
  | nil =>
      obtain ⟨row, hrow, -⟩ := h
      cases hrow
  | cons first others ih =>
      by_cases hfirst : first.id = id
      · exact ⟨[], first, others, rfl, if_pos hfirst⟩
      · obtain ⟨row, hrow, hid⟩ := h
        have hother : ∃ row ∈ others, row.id = id := by
          rcases List.mem_cons.mp hrow with hsame | hmem
          · rw [hsame] at hid
            exact absurd hid hfirst
          · exact ⟨row, hmem, hid⟩
        obtain ⟨front, found, rest, hsplit, hcursor⟩ := ih hother
        refine ⟨first :: front, found, rest, by rw [hsplit]; rfl, ?_⟩
        rw [cursorRow, if_neg hfirst]
        exact hcursor

/-- Where the whole log verifies, it verifies from each of its events on. -/
theorem verifyChainSince_of_verifyChain {table : List Row}
    (h : verifyChain P table = .ok ()) (k : Option String)
    (hk : ∀ id, k = some id → ∃ row ∈ table, row.id = id) :
    verifyChainSince P table k = .ok () := by
  cases k with
  | none => exact h
  | some id =>
      obtain ⟨front, row, rest, hsplit, hcursor⟩ :=
        cursorRow_of_mem (hk id rfl)
      unfold verifyChain at h
      rw [hsplit] at h
      have htail := (verifyRows_append.1 h).2
      simp only [verifyChainSince, hcursor]
      exact (verifyRows_cons_ok.1 htail).2.2

/-! ## Runs -/

theorem linearised_iff_linked {σ : LogState} (h : CallsInv P σ) :
    Linearised P σ ↔
      HashChain.Linked Row.prevHash Row.hash genesis σ.stored := by
  constructor
  · intro hlin
    exact hlin.linked
  · intro hlinked
    refine
      { sequence := h.sequence
        complete := h.complete
        once := h.once
        linked := hlinked
        verified := ?_
        since := fun hok k hk => verifyChainSince_of_verifyChain hok k hk }
    intro hread
    refine verifyRows_of_linked hlinked ?_
    intro row hrow
    exact h.sealedRows row hrow (hread row hrow)

/-- A step keeps the log linked exactly when it does not commit a misread
tip. -/
theorem linked_exec_iff {σ : LogState} (h : CallsInv P σ)
    (hlinked : HashChain.Linked Row.prevHash Row.hash genesis σ.stored)
    (step : CallStep) :
    HashChain.Linked Row.prevHash Row.hash genesis (σ.exec P step).stored ↔
      TipRead σ step := by
  cases step with
  | begin thread drafts =>
      have hsame : (σ.exec P (.begin thread drafts)).stored = σ.stored := by
        simp only [LogState.exec]
        split
        · rfl
        · rfl
      rw [hsame]
      exact ⟨fun _ t tx heq => (by cases heq), fun _ => hlinked⟩
  | insert thread st f =>
      have hsame : (σ.exec P (.insert thread st f)).stored = σ.stored := by
        simp only [LogState.exec]
        split
        · rfl
        · split
          · rfl
          · split
            · rfl
            · rfl
      rw [hsame]
      exact ⟨fun _ t tx heq => (by cases heq), fun _ => hlinked⟩
  | stop thread =>
      have hsame : (σ.exec P (.stop thread)).stored = σ.stored := by
        simp only [LogState.exec]
        split
        · rfl
        · rfl
      rw [hsame]
      exact ⟨fun _ t tx heq => (by cases heq), fun _ => hlinked⟩
  | commit thread fails =>
      simp only [LogState.exec]
      split
      · next hnone =>
          refine ⟨?_, fun _ => hlinked⟩
          intro _ t tx heq htx
          cases heq
          rw [hnone] at htx
          cases htx
      · next tx htx =>
          have hother : ∀ t tx', CallStep.commit thread fails =
              .commit t false → σ.txOf t = some tx' →
                fails = false ∧ tx' = tx := by
            intro t tx' heq htx'
            cases heq
            rw [htx] at htx'
            exact ⟨rfl, (Option.some.inj htx').symm⟩
          split
          · next hnot =>
              refine ⟨?_, fun _ => hlinked⟩
              intro _ t tx' heq htx' hdone
              obtain ⟨-, hsame⟩ := hother t tx' heq htx'
              rw [hsame] at hdone
              exact absurd hdone hnot
          · next hdone =>
              rw [not_not] at hdone
              split
              · next hfails =>
                  refine ⟨?_, fun _ => hlinked⟩
                  intro _ t tx' heq htx'
                  have hnot := (hother t tx' heq htx').1
                  rw [hfails] at hnot
                  cases hnot
              · next hcommits =>
                  rw [Bool.not_eq_true] at hcommits
                  show HashChain.Linked Row.prevHash Row.hash genesis
                    (σ.stored ++ tx.inserted) ↔ _
                  rw [HashChain.linked_append, ← tipRowHash_eq_tip,
                    ← (h.tx tx (txOf_eq_some htx)).linked]
                  constructor
                  · rintro ⟨-, hread⟩ t tx' heq htx' -
                    rw [(hother t tx' heq htx').2]
                    exact hread
                  · intro hread
                    refine ⟨hlinked, hread thread tx ?_ htx hdone⟩
                    rw [hcommits]

/-- In every state of a run the stored log is one sequence of the events of
the successful calls, links and verifies, exactly when no call commits that
failed to read the tip of a log with events. -/
theorem appends_linearise_iff (P : Primitives) (steps : List CallStep) :
    (∀ n, Linearised P (run (LogState.exec P) .empty (steps.take n))) ↔
      Meets (LogState.exec P) TipRead .empty steps := by
  have hinv : ∀ σ step, CallsInv P σ → CallsInv P (σ.exec P step) :=
    fun σ step h => h.exec step
  have hstep : ∀ σ step, (CallsInv P σ ∧ Linearised P σ) →
      ((CallsInv P (σ.exec P step) ∧ Linearised P (σ.exec P step)) ↔
        TipRead σ step) := by
    rintro σ step ⟨h, hlin⟩
    rw [← linked_exec_iff h hlin.linked step,
      ← linearised_iff_linked (h.exec step)]
    exact and_iff_right (h.exec step)
  have hempty : CallsInv P .empty ∧ Linearised P .empty :=
    ⟨callsInv_empty, (linearised_iff_linked callsInv_empty).mpr trivial⟩
  rw [← forall_take_iff_meets
    (fun σ => CallsInv P σ ∧ Linearised P σ) hstep hempty steps]
  constructor
  · intro hall n
    exact ⟨run_inv (CallsInv P) hinv callsInv_empty _, hall n⟩
  · intro hall n
    exact (hall n).2

/-! ## A misread tip -/

namespace Misread

/-- A note with this identifier, as it is hashed on an empty log. -/
def note (id : String) : Event :=
  { Event.draft memoryEventType (.obj []) none with
    id := id
    prevHash := genesis }

/-- The members of a note that are hashed. -/
def value (id : String) : Json :=
  .obj (Json.removeKey "signature" (Json.removeKey "hash" (note id).toFields))

/-- A hash that tells the two notes apart. -/
def hash (bytes : Bytes) : Bytes :=
  List.replicate 32 (bytes.getLastD 0)

def primitives : Primitives where
  nfc := id
  jcs := knownAt (value "a") (value "b") (.ok [1]) (.ok [2])
    (.error "unknown value")
  sha256 := hash
  signHash := fun _ => ""
  verifyHash := fun _ _ => .ok ()
  toText := Event.id
  ofText := fun _ => .error (.serde "unknown text")
  sha256_length bytes := List.length_replicate
  verify_sign _ := rfl
  nfc_ascii := id_ascii
  jcs_member v w bytes k hv hw := by
    unfold knownAt at hv hw
    split_ifs at hv hw with h₁ h₂ h₃ h₄ h₅
    · rw [h₁, h₂]
    · cases hv.trans hw.symm
    · cases hv.trans hw.symm
    · rw [h₄, ‹w = _›]

/-- Two appends; the second one fails to read the tip. -/
def steps : List CallStep :=
  [.begin 0 (.append (.draft memoryEventType (.obj []) none)),
    .insert 0 ⟨"a", ""⟩ ⟨false, fun _ => false, false⟩, .commit 0 false,
    .begin 1 (.append (.draft memoryEventType (.obj []) none)),
    .insert 1 ⟨"b", ""⟩ ⟨true, fun _ => false, false⟩, .commit 1 false]

end Misread

open Misread in
theorem misread_columns :
    (run (LogState.exec primitives) .empty steps).stored.map
        (fun row => (row.prevHash, row.hash)) =
      [(genesis, Hex.encode (List.replicate 32 1)),
        (genesis, Hex.encode (List.replicate 32 2))] := by
  decide +kernel

open Misread in
/-- A failed read of the tip of a log with events breaks the chain. -/
theorem misread_tip_breaks_chain :
    ¬ Linearised primitives (run (LogState.exec primitives) .empty steps) := by
  intro h
  have hlinked := h.linked
  obtain ⟨first, rest, hstored, hfirst, hrest⟩ :=
    List.map_eq_cons_iff.mp misread_columns
  obtain ⟨second, nothing, hrest', hsecond, -⟩ := List.map_eq_cons_iff.mp hrest
  rw [hstored, hrest'] at hlinked
  -- the second row does not record the hash of the first
  have hlink : second.prevHash = first.hash := hlinked.2.1
  rw [(Prod.mk.inj hsecond).1, (Prod.mk.inj hfirst).2] at hlink
  exact absurd hlink (by decide)

end AirNote
