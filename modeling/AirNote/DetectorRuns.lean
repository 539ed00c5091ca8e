import AirNote.Detector
import AirNote.Emissions

/-!
# Runs of the conflict sweep

What a sweep guarantees over any run: steps of the cycle, calls of the owner
between any two of them, errors and restarts, with any answers of the judge.

The cursor is moved past a subject by one step only, and that step records
what became of every pair the finder had returned. A proposal is never made
twice, provided no call of the owner takes a memory away while a cycle is
between its scan and its lookups: the pairs it will judge are then all current
when it reads which of them are open. A memory that comes back is ahead of the
cursor again once the rewind is carried out, and stays ahead until a cycle has
examined it, unless a cycle that had scanned before was still running.

## Main results

* `own_grows`, `CycleStep.of_exec` — what a call of the owner, and a step of
  the cycle, may do to the store.
* `SweepInv.exec`, `FreshInv.exec`, `AheadInv.exec` — the invariants, a step.
* `sweepInv_run`, `freshInv_run`, `aheadInv_run` — over runs.
-/

namespace AirNote

open Lib

variable {D : Type}

/-! ## Positions -/

theorem PosLe.refl (p : Nat × Nat) : PosLe p p := .inr ⟨rfl, Nat.le_refl _⟩

theorem PosLe.trans {p q r : Nat × Nat} (h : PosLe p q) (h' : PosLe q r) :
    PosLe p r := by
  unfold PosLe at *
  omega

/-- Strictly before. -/
def PosLt (p q : Nat × Nat) : Prop := p.1 < q.1 ∨ (p.1 = q.1 ∧ p.2 < q.2)

/-- The cursor behind a subject is not behind a later one. -/
theorem PosLt.succ_le {p q : Nat × Nat} (h : PosLt p q) :
    PosLe (p.1, p.2 + 1) q := by
  unfold PosLt at h
  unfold PosLe
  dsimp only
  omega

/-! ## References and their texts -/

/-- A reference reads back as itself, or not at all. -/
theorem ConflictRef.eq_of_fromJson {r r' : ConflictRef}
    (h : ConflictRef.fromJson r.toJson = some r') : r' = r := by
  cases r with
  | note id =>
      have hread : ConflictRef.fromJson (ConflictRef.note id).toJson =
          some (.note id) := rfl
      rw [hread, Option.some.injEq] at h
      exact h.symm
  | passage sid pid =>
      let j := (ConflictRef.passage sid pid).toJson
      have hkind : j.getStr? "kind" = some "passage" := rfl
      have hsid : j.getStr? "session_id" = some sid := rfl
      have hget : j.get? "passage_id" = some (.num pid) := rfl
      change ConflictRef.fromJson j = some r' at h
      unfold ConflictRef.fromJson at h
      rw [hkind] at h
      dsimp only at h
      rw [if_neg (by decide), if_pos rfl, hsid, Option.bind_some,
        Json.getU64?, hget, Option.bind_some, Option.map_eq_some_iff] at h
      obtain ⟨p, hp, rfl⟩ := h
      obtain ⟨hnum, -⟩ := Json.asU64_eq_some hp
      have hpid : (pid : Int) = (p : Int) := Json.num.inj hnum
      rw [Int.ofNat_inj.mp hpid]

/-! ## The calls of the owner -/

/-- The passages of a capture and a model are numbered without gaps. -/
def PassagesDense (st : Store) : Prop :=
  ∀ r ∈ st.passages, ∀ j < r.passageIx, ∃ r' ∈ st.passages,
    r'.eventId = r.eventId ∧ r'.modelId = r.modelId ∧ r'.passageIx = j

/-- What a call of the owner may do: the log grows by events that are no
proposals, the cursor moves back or stays, the passages stay numbered. -/
structure Grown (st st' : Store) : Prop where
  log : ∃ suffix, st'.log = st.log ++ suffix ∧
    ∀ ev ∈ suffix, ev.eventType ≠ conflictProposalEventType
  cursor : PosLe (conflictCursor st') (conflictCursor st)
  dense : PassagesDense st → PassagesDense st'

theorem Grown.refl (st : Store) : Grown st st :=
  ⟨⟨[], by simp, by simp⟩, .refl _, id⟩

theorem Grown.trans {a b c : Store} (h : Grown a b) (h' : Grown b c) :
    Grown a c := by
  obtain ⟨suffix, hlog, htypes⟩ := h.log
  obtain ⟨suffix', hlog', htypes'⟩ := h'.log
  refine ⟨⟨suffix ++ suffix', ?_, ?_⟩, h'.cursor.trans h.cursor,
    fun hdense => h'.dense (h.dense hdense)⟩
  · rw [hlog', hlog, List.append_assoc]
  · intro ev hev
    rcases List.mem_append.mp hev with hold | hnew
    · exact htypes ev hold
    · exact htypes' ev hnew

/-- The tables of the sweep are untouched. -/
structure SameTables (st st' : Store) : Prop where
  passages : st'.passages = st.passages
  cursor : st'.conflictCursor = st.conflictCursor

theorem SameTables.refl (st : Store) : SameTables st st := ⟨rfl, rfl⟩

theorem SameTables.trans {a b c : Store} (h : SameTables a b)
    (h' : SameTables b c) : SameTables a c :=
  ⟨h'.passages.trans h.passages, h'.cursor.trans h.cursor⟩

theorem SameTables.cursor_le {st st' : Store} (h : SameTables st st') :
    PosLe (conflictCursor st') (conflictCursor st) := by
  rw [conflictCursor, h.cursor]
  exact .refl _

theorem SameTables.dense {st st' : Store} (h : SameTables st st')
    (hdense : PassagesDense st) : PassagesDense st' := by
  rw [PassagesDense, h.passages]
  exact hdense

theorem sameTables_append (m : Mint) (st : Store) (event : Event) :
    SameTables st (st.append m event).1 := by
  rcases st.append_cases m event with ⟨e, h⟩ | ⟨stored, -, h⟩
  · rw [h]
    exact .refl st
  · rw [h]
    exact ⟨rfl, rfl⟩

theorem sameTables_appendPair (m₁ m₂ : Mint) (st : Store)
    (first second : Event) :
    SameTables st (st.appendPair m₁ m₂ first second).1 := by
  unfold Store.appendPair
  split
  · exact ⟨rfl, rfl⟩
  · exact .refl st

theorem sameTables_deriveVector (emb : Embedder) (st : Store) (ev : Event) :
    SameTables st (deriveVector emb st ev).1 := by
  unfold deriveVector
  split
  · exact .refl st
  · split
    · exact .refl st
    · exact ⟨rfl, rfl⟩

theorem sameTables_derived (emb : Embedder) (r : Outcome String) :
    SameTables r.1 (derived emb r).1 := by
  obtain ⟨st, res⟩ := r
  cases res with
  | error e => exact .refl st
  | ok id =>
      simp only [derived, deriveVectorFor]
      cases hfind : eventById st.log id with
      | none => exact .refl st
      | some ev =>
          have hsame := sameTables_deriveVector emb st ev
          dsimp only
          generalize deriveVector emb st ev = out at hsame
          obtain ⟨st', res⟩ := out
          cases res <;> exact hsame

/-- The cursor is only ever moved back. -/
theorem cursor_rewind (st : Store) (seq within : Nat) :
    PosLe (conflictCursor (rewindConflictCursor st seq within))
      (conflictCursor st) := by
  unfold rewindConflictCursor
  dsimp only
  split
  · next h =>
      show PosLe (seq, within) (conflictCursor st)
      unfold PosLe conflictCursor
      dsimp only
      omega
  · exact .refl _

theorem passages_rewind (st : Store) (seq within : Nat) :
    (rewindConflictCursor st seq within).passages = st.passages := by
  unfold rewindConflictCursor
  dsimp only
  split <;> rfl

/-- The cursor stands at or before the position it is rewound to. -/
theorem rewind_le (st : Store) (seq within : Nat) :
    PosLe (conflictCursor (rewindConflictCursor st seq within))
      (seq, within) := by
  unfold rewindConflictCursor
  dsimp only
  split
  · exact .refl _
  · next h =>
      show PosLe (conflictCursor st) (seq, within)
      unfold PosLe conflictCursor
      dsimp only
      omega

/-- From beyond a position the cursor is rewound to it. -/
theorem rewind_eq {st : Store} {seq within : Nat}
    (h : PosLe (seq, within) (conflictCursor st)) :
    conflictCursor (rewindConflictCursor st seq within) = (seq, within) := by
  unfold rewindConflictCursor
  dsimp only
  split
  · rfl
  · next hnot =>
      show conflictCursor st = (seq, within)
      unfold PosLe conflictCursor at *
      dsimp only at *
      exact Prod.ext (by dsimp only; omega) (by dsimp only; omega)

/-! ### Passages -/

theorem mem_upsertPassage {rows : List PassageRow} {row r : PassageRow} :
    r ∈ upsertPassage rows row ↔ r = row ∨
      (r ∈ rows ∧ ¬ (r.eventId = row.eventId ∧ r.passageIx = row.passageIx ∧
        r.modelId = row.modelId)) := by
  unfold upsertPassage
  simp only [List.mem_append, List.mem_filter, List.mem_singleton,
    Bool.not_eq_true', Bool.and_eq_false_iff, beq_eq_false_iff_ne, ne_eq]
  constructor
  · rintro (⟨hmem, hne⟩ | rfl)
    · refine .inr ⟨hmem, ?_⟩
      rintro ⟨h₁, h₂, h₃⟩
      rcases hne with (hne | hne) | hne
      · exact hne h₁
      · exact hne h₂
      · exact hne h₃
    · exact .inl rfl
  · rintro (rfl | ⟨hmem, hne⟩)
    · exact .inr rfl
    · refine .inl ⟨hmem, ?_⟩
      by_contra hall
      simp only [not_or, not_not] at hall
      exact hne ⟨hall.1.1, hall.1.2, hall.2⟩

/-- A key of the table has a row. -/
def HasRow (rows : List PassageRow) (eventId modelId : String) (ix : Nat) :
    Prop :=
  ∃ r ∈ rows, r.eventId = eventId ∧ r.modelId = modelId ∧ r.passageIx = ix

theorem hasRow_upsert {rows : List PassageRow} {row : PassageRow}
    {eventId modelId : String} {ix : Nat} :
    HasRow (upsertPassage rows row) eventId modelId ix ↔
      HasRow rows eventId modelId ix ∨
        (row.eventId = eventId ∧ row.modelId = modelId ∧
          row.passageIx = ix) := by
  unfold HasRow
  constructor
  · rintro ⟨r, hr, h₁, h₂, h₃⟩
    rcases mem_upsertPassage.1 hr with rfl | ⟨hmem, -⟩
    · exact .inr ⟨h₁, h₂, h₃⟩
    · exact .inl ⟨r, hmem, h₁, h₂, h₃⟩
  · rintro (⟨r, hr, rfl, rfl, rfl⟩ | ⟨h₁, h₂, h₃⟩)
    · by_cases hsame : r.eventId = row.eventId ∧
          r.passageIx = row.passageIx ∧ r.modelId = row.modelId
      · exact ⟨row, mem_upsertPassage.2 (.inl rfl), hsame.1.symm,
          hsame.2.2.symm, hsame.2.1.symm⟩
      · exact ⟨r, mem_upsertPassage.2 (.inr ⟨hr, hsame⟩), rfl, rfl, rfl⟩
    · exact ⟨row, mem_upsertPassage.2 (.inl rfl), h₁, h₂, h₃⟩

theorem hasRow_foldl {rows new : List PassageRow} {eventId modelId : String}
    {ix : Nat} :
    HasRow (new.foldl upsertPassage rows) eventId modelId ix ↔
      HasRow rows eventId modelId ix ∨ ∃ row ∈ new,
        row.eventId = eventId ∧ row.modelId = modelId ∧
          row.passageIx = ix :=
  Fold.foldl_iff_exists (fun rows => HasRow rows eventId modelId ix)
    (fun row => row.eventId = eventId ∧ row.modelId = modelId ∧
      row.passageIx = ix) (fun _ _ => hasRow_upsert) rows new

/-- No gaps, by keys. -/
theorem passagesDense_iff {st : Store} :
    PassagesDense st ↔ ∀ eventId modelId ix,
      HasRow st.passages eventId modelId ix →
        ∀ j < ix, HasRow st.passages eventId modelId j := by
  constructor
  · rintro h eventId modelId ix ⟨r, hr, rfl, rfl, rfl⟩ j hj
    exact h r hr j hj
  · intro h r hr j hj
    exact h _ _ _ ⟨r, hr, rfl, rfl, rfl⟩ j hj

theorem dense_storePassages {emb : Embedder} {st : Store} {eventId : String}
    {chunks : List String} (h : PassagesDense st) :
    PassagesDense (storeSessionPassages emb st eventId chunks).1 := by
  unfold storeSessionPassages
  split
  · exact h
  · next blobs hblobs =>
      rw [passagesDense_iff] at h ⊢
      intro eid mid ix hrow j hj
      rw [hasRow_foldl] at hrow ⊢
      rcases hrow with hold | ⟨row, hrow, rfl, rfl, rfl⟩
      · exact .inl (h _ _ _ hold j hj)
      · right
        obtain ⟨⟨blob, ix⟩, hzip, rfl⟩ := List.mem_map.mp hrow
        obtain ⟨-, hlt, -⟩ := List.mem_zipIdx hzip
        have hj' : j < blobs.length := by
          dsimp only at hj
          omega
        exact ⟨_, List.mem_map.mpr ⟨(blobs[j], j),
          List.mk_mem_zipIdx_iff_getElem?.mpr
            (List.getElem?_eq_getElem hj'), rfl⟩, rfl, rfl, rfl⟩

/-! ### The log -/

/-- A transaction appends events of the types of its drafts. -/
theorem logged_types {log log' : EventLog} {drafts : List Event}
    (h : Logged log drafts log') :
    ∃ suffix, log' = log ++ suffix ∧
      ∀ ev ∈ suffix, ∃ draft ∈ drafts, ev.eventType = draft.eventType := by
  induction h with
  | nil => exact ⟨[], by simp, by simp⟩
  | @cons m log log' draft stored drafts hs rest ih =>
      obtain ⟨suffix, hlog, htypes⟩ := ih
      refine ⟨stored :: suffix, by rw [hlog, List.append_assoc]; rfl, ?_⟩
      intro ev hev
      rcases List.mem_cons.mp hev with rfl | hrest
      · exact ⟨draft, List.mem_cons_self, hs.eventType_eq⟩
      · obtain ⟨d, hd, heq⟩ := htypes ev hrest
        exact ⟨d, List.mem_cons_of_mem draft hd, heq⟩

/-- The types of what the memory operations draft. -/
def memoryOpTypes : List String :=
  [memoryEventType, supersedeEventType, noteRetiredEventType,
    unretireEventType, sessionCapturedEventType, sessionDeletedEventType,
    passageRetiredEventType]

theorem ne_proposal_of_memoryOp {t : String} (h : t ∈ memoryOpTypes) :
    t ≠ conflictProposalEventType := by
  have hall : ∀ t ∈ memoryOpTypes, t ≠ conflictProposalEventType := by decide
  exact hall t h

/-- No memory operation drafts a proposal. -/
theorem appends_no_proposal {st : Store} {op : MemoryOp}
    {drafts : List Event} (happ : op.Appends st drafts)
    (hop : op.LeavesProposals) :
    ∀ d ∈ drafts, d.eventType ≠ conflictProposalEventType := by
  have hone : ∀ draft : Event, draft.eventType ∈ memoryOpTypes →
      ∀ d ∈ [draft], d.eventType ≠ conflictProposalEventType := by
    intro draft hdraft d hd
    obtain rfl := List.mem_singleton.mp hd
    exact ne_proposal_of_memoryOp hdraft
  have htwo : ∀ first second : Event, first.eventType ∈ memoryOpTypes →
      second.eventType ∈ memoryOpTypes → ∀ d ∈ [first, second],
        d.eventType ≠ conflictProposalEventType := by
    intro first second hfirst hsecond d hd
    rcases List.mem_pair.mp hd with rfl | rfl
    · exact ne_proposal_of_memoryOp hfirst
    · exact ne_proposal_of_memoryOp hsecond
  have hin : ∀ t ∈ memoryOpTypes, t ∈ memoryOpTypes := fun _ h => h
  cases happ with
  | nothing => simp
  | call c => exact hop
  | remember emb m text =>
      exact hone _ (hin memoryEventType (by decide))
  | supersedeNote emb m₁ m₂ target text ev hev hmemory =>
      exact htwo _ _ (hin supersedeEventType (by decide))
        (hin memoryEventType (by decide))
  | retireMemory m target src =>
      exact hone _ (hin noteRetiredEventType (by decide))
  | unretire m target => exact hone _ (hin unretireEventType (by decide))
  | capture dateLabel emb m₁ m₂ sm hdel hnone =>
      exact hone _ (hin sessionCapturedEventType (by decide))
  | recapture dateLabel emb m₁ m₂ sm prev hprev hsha =>
      exact htwo _ _ (hin supersedeEventType (by decide))
        (hin sessionCapturedEventType (by decide))
  | deleteSession m sid =>
      exact hone _ (hin sessionDeletedEventType (by decide))
  | retirePassage m sid pid src =>
      exact hone _ (hin passageRetiredEventType (by decide))
  | unretirePassage m sid pid =>
      exact hone _ (hin unretireEventType (by decide))

theorem log_memory {st : Store} {op : MemoryOp} (hop : op.LeavesProposals) :
    ∃ suffix, (op.exec st).log = st.log ++ suffix ∧
      ∀ ev ∈ suffix, ev.eventType ≠ conflictProposalEventType := by
  obtain ⟨drafts, happ, hlogged⟩ := op.exec_appends st
  obtain ⟨suffix, hlog, htypes⟩ := logged_types hlogged
  refine ⟨suffix, hlog, fun ev hev => ?_⟩
  obtain ⟨d, hd, heq⟩ := htypes ev hev
  rw [heq]
  exact appends_no_proposal happ hop d hd

/-! ### Each call -/

theorem sameTables_supersedeNote (emb : Embedder) (m₁ m₂ : Mint)
    (st : Store) (target text : String) :
    SameTables st (supersedeNote emb m₁ m₂ st target text).1 := by
  have hpair := sameTables_appendPair m₁ m₂ st
    (groundTruthSupersedeEvent target) (externalNoteEvent text)
  unfold supersedeNote
  split
  · exact .refl st
  · split
    · exact .refl st
    · split
      · exact .refl st
      · split
        · exact .refl st
        · generalize st.appendPair m₁ m₂ _ _ = out at hpair
          obtain ⟨st', res⟩ := out
          cases res with
          | error e => exact hpair
          | ok ids =>
              exact hpair.trans (sameTables_derived emb (st', .ok ids.2))

theorem sameTables_captureSession (dateLabel : Int → String)
    (emb : Embedder) (m₁ m₂ : Mint) (st : Store) (sm : SessionMeta) :
    SameTables st (captureSession dateLabel emb m₁ m₂ st sm).1 := by
  unfold captureSession
  split
  · exact .refl st
  · split
    · next prev hprev =>
        split
        · exact .refl st
        · have hpair := sameTables_appendPair m₁ m₂ st
            (groundTruthSupersedeEvent prev.eventId)
            (sessionCapturedEvent dateLabel sm)
          generalize st.appendPair m₁ m₂ _ _ = out at hpair
          obtain ⟨st', res⟩ := out
          cases res with
          | error e => exact hpair
          | ok ids =>
              exact hpair.trans (sameTables_derived emb (st', .ok ids.2))
    · exact (sameTables_append m₁ st _).trans (sameTables_derived emb _)

theorem sameTables_rederivePending (emb : Embedder) (st : Store) :
    SameTables st (rederivePending emb st) :=
  Fold.foldl_inv (SameTables st) (.refl st) fun s ev _ hs =>
    hs.trans (sameTables_deriveVector emb s ev)

/-- Restoring a memory: its marker, and the rewind. -/
theorem unretire_tables (m : Mint) (st : Store) (target : String) :
    PosLe (conflictCursor (unretire m st target).1) (conflictCursor st) ∧
      (unretire m st target).1.passages = st.passages := by
  have happ := sameTables_append m st (unretireEvent target)
  unfold unretire
  split
  · generalize st.append m (unretireEvent target) = out at happ
    obtain ⟨st', res⟩ := out
    cases res with
    | error e => exact ⟨happ.cursor_le, happ.passages⟩
    | ok id =>
        dsimp only
        split
        · exact ⟨(cursor_rewind _ _ _).trans happ.cursor_le,
            (passages_rewind _ _ _).trans happ.passages⟩
        · exact ⟨happ.cursor_le, happ.passages⟩
  · exact ⟨.refl _, rfl⟩

theorem unretirePassage_tables (m : Mint) (st : Store) (sid : String)
    (pid : Nat) :
    PosLe (conflictCursor (unretirePassage m st sid pid).1)
        (conflictCursor st) ∧
      (unretirePassage m st sid pid).1.passages = st.passages := by
  have happ := sameTables_append m st (unretirePassageEvent sid pid)
  unfold unretirePassage
  split
  · generalize st.append m (unretirePassageEvent sid pid) = out at happ
    obtain ⟨st', res⟩ := out
    cases res with
    | error e => exact ⟨happ.cursor_le, happ.passages⟩
    | ok id =>
        dsimp only
        split
        · exact ⟨happ.cursor_le, happ.passages⟩
        · split
          · exact ⟨(cursor_rewind _ _ _).trans happ.cursor_le,
              (passages_rewind _ _ _).trans happ.passages⟩
          · exact ⟨happ.cursor_le, happ.passages⟩
  · exact ⟨.refl _, rfl⟩

/-- A memory operation, in full. -/
theorem grown_memory {st : Store} {op : MemoryOp}
    (hop : op.LeavesProposals) : Grown st (op.exec st) := by
  have hsame : SameTables st (op.exec st) → Grown st (op.exec st) := fun h =>
    ⟨log_memory hop, h.cursor_le, h.dense⟩
  have hmoved : PosLe (conflictCursor (op.exec st)) (conflictCursor st) ∧
      (op.exec st).passages = st.passages → Grown st (op.exec st) := fun h =>
    ⟨log_memory hop, h.1, fun hdense => by
      rw [PassagesDense, h.2]
      exact hdense⟩
  cases op with
  | call c => exact hsame ⟨rfl, rfl⟩
  | remember emb m text =>
      refine hsame ?_
      show SameTables st (remember emb m st text).1
      unfold remember
      split
      · exact .refl st
      · exact (sameTables_append m st _).trans (sameTables_derived emb _)
  | supersedeNote emb m₁ m₂ target text =>
      exact hsame (sameTables_supersedeNote emb m₁ m₂ st target text)
  | retireMemory m target src =>
      refine hsame ?_
      show SameTables st (retireMemory m st target src).1
      unfold retireMemory
      split
      · exact .refl st
      · exact sameTables_append m st _
  | unretire m target => exact hmoved (unretire_tables m st target)
  | captureSession dateLabel emb m₁ m₂ sm =>
      exact hsame (sameTables_captureSession dateLabel emb m₁ m₂ st sm)
  | deleteSession m sid =>
      refine hsame ?_
      show SameTables st (deleteSession m st sid).1
      unfold deleteSession
      split
      · exact .refl st
      · exact sameTables_append m st _
  | storeSessionPassages emb eventId chunks =>
      refine ⟨log_memory hop, ?_, dense_storePassages⟩
      show PosLe (conflictCursor
        (storeSessionPassages emb st eventId chunks).1) _
      unfold storeSessionPassages
      split
      · exact .refl _
      · exact .refl _
  | retirePassage m sid pid src =>
      refine hsame ?_
      show SameTables st (retirePassage m st sid pid src).1
      unfold retirePassage
      split
      · exact .refl st
      · dsimp only
        split
        · exact .refl st
        · split
          · exact .refl st
          · exact sameTables_append m st _
  | unretirePassage m sid pid =>
      exact hmoved (unretirePassage_tables m st sid pid)
  | rederivePending emb => exact hsame (sameTables_rederivePending emb st)
  | gcStaleVectors keepModelId => exact hsame ⟨rfl, rfl⟩

/-- One more event that is no proposal. -/
theorem grown_push {st : Store} {ev : Event}
    (h : ev.eventType ≠ conflictProposalEventType) : Grown st (st.push ev) :=
  ⟨⟨[ev], rfl, fun e he => by
      obtain rfl := List.mem_singleton.mp he
      exact h⟩, .refl _, id⟩

theorem ne_proposal_of_terminal {ev : Event}
    (h : isTerminalType ev.eventType = true) :
    ev.eventType ≠ conflictProposalEventType := by
  intro heq
  rw [heq] at h
  exact absurd h (by decide)

/-- A resolution, whether or not it stops before its terminal marker. -/
theorem grown_resolve (pid : String) (st : Store) (call : ResolveCall) :
    Grown st (call.exec pid st) := by
  have hmarker : ∀ {m : Mint} {loser : ConflictRef} {s : Event},
      Stored m st.log (retireMarker pid loser) s →
      s.eventType ≠ conflictProposalEventType := by
    intro m loser s hs
    rw [hs.eventType_eq]
    refine ne_proposal_of_memoryOp ?_
    cases loser with
    | note id => exact (by decide : noteRetiredEventType ∈ memoryOpTypes)
    | passage sid p =>
        exact (by decide : passageRetiredEventType ∈ memoryOpTypes)
  cases hrefs : conflictProposalById st.log pid with
  | none =>
      have hnothing : call.exec pid st = st := by
        unfold ResolveCall.exec stopBeforeTerminal resolveConflict
        rw [hrefs]
        split <;> rfl
      rw [hnothing]
      exact .refl st
  | some refs =>
      obtain ⟨a, b⟩ := refs
      have hsteps := CallSteps.of_exec hrefs call
      generalize call.exec pid st = st' at hsteps
      cases hsteps with
      | unchanged => exact .refl st
      | terminal s hterm => exact grown_push (ne_proposal_of_terminal hterm)
      | torn loser s₁ hside hunmarked hlive h₁ =>
          exact grown_push (hmarker h₁)
      | retired loser s₁ s₂ hside hunmarked hlive h₁ hterm =>
          exact (grown_push (hmarker h₁)).trans
            (grown_push (ne_proposal_of_terminal hterm))

/-- A marker without its rewind. -/
theorem grown_mark (s : SweepState) (m : Mint) (event : Event)
    (position : EventLog → Option (Nat × Nat))
    (htype : event.eventType ≠ conflictProposalEventType) :
    Grown s.store (s.mark m event position).store := by
  unfold SweepState.mark
  rcases s.store.append_cases m event with ⟨e, h⟩ | ⟨stored, hs, h⟩
  · rw [h]
    exact .refl _
  · rw [h]
    refine grown_push ?_
    rw [hs.eventType_eq]
    exact htype

/-- **A call of the owner, in full.** -/
theorem own_grows (s : SweepState) (op : OwnerOp) :
    Grown s.store (s.own op).store := by
  cases op with
  | memory op hop => exact grown_memory hop
  | unretireMarker m target =>
      unfold SweepState.own
      dsimp only
      split
      · exact grown_mark s m _ _
          (ne_proposal_of_memoryOp (t := unretireEventType) (by decide))
      · exact .refl _
  | unretirePassageMarker m sid pid =>
      unfold SweepState.own
      dsimp only
      split
      · exact grown_mark s m _ _
          (ne_proposal_of_memoryOp (t := unretireEventType) (by decide))
      · exact .refl _
  | rewind =>
      unfold SweepState.own
      dsimp only
      split
      · exact .refl _
      · next seq within rest hrewinds =>
          refine ⟨⟨[], by simp, by simp⟩, cursor_rewind _ _ _, ?_⟩
          intro hdense
          rw [PassagesDense, passages_rewind]
          exact hdense
  | resolve pid call => exact grown_resolve pid s.store call

/-- A call of the owner leaves the cycle as it is. -/
theorem own_frame (s : SweepState) (op : OwnerOp) :
    (s.own op).phase = s.phase ∧ (s.own op).examined = s.examined := by
  cases op with
  | memory op hop => exact ⟨rfl, rfl⟩
  | unretireMarker m target =>
      unfold SweepState.own SweepState.mark
      dsimp only
      split
      · split <;> exact ⟨rfl, rfl⟩
      · exact ⟨rfl, rfl⟩
  | unretirePassageMarker m sid pid =>
      unfold SweepState.own SweepState.mark
      dsimp only
      split
      · split <;> exact ⟨rfl, rfl⟩
      · exact ⟨rfl, rfl⟩
  | rewind =>
      unfold SweepState.own
      dsimp only
      split <;> exact ⟨rfl, rfl⟩
  | resolve pid call => exact ⟨rfl, rfl⟩

/-! ## What became of the pairs -/

/-- The log holds a proposal of the pair. -/
def ProposedIn (log : EventLog) (pair : CandidatePair) : Prop :=
  ∃ ev ∈ log, ev.eventType = conflictProposalEventType ∧
    ∃ a b : ConflictRef, ev.content.get? "a_ref" = some a.toJson ∧
      ev.content.get? "b_ref" = some b.toJson ∧
      a.unorderedPairKey b = pairKeyOf pair

/-- What the fate of a pair says of the log: a contradiction got its
proposal, or the cycle counted a full ceiling of open ones. -/
def Fate.Answered (log : EventLog) (pair : CandidatePair) : Fate → Prop
  | .atCeiling openCount => conflictOpenCeiling ≤ openCount
  | .suppressed => ProposedIn log pair
  | .proposed _ => ProposedIn log pair
  | _ => True

theorem ProposedIn.mono {log log' : EventLog} {pair : CandidatePair}
    (h : ProposedIn log pair) (hlog : ∃ suffix, log' = log ++ suffix) :
    ProposedIn log' pair := by
  obtain ⟨suffix, rfl⟩ := hlog
  obtain ⟨ev, hev, hrest⟩ := h
  exact ⟨ev, List.mem_append_left suffix hev, hrest⟩

theorem Fate.Answered.mono {log log' : EventLog} {pair : CandidatePair}
    {fate : Fate} (h : fate.Answered log pair)
    (hlog : ∃ suffix, log' = log ++ suffix) : fate.Answered log' pair := by
  cases fate with
  | suppressed => exact ProposedIn.mono h hlog
  | proposed id => exact ProposedIn.mono h hlog
  | exhausted => trivial
  | textless => trivial
  | declined => trivial
  | failed errors => trivial
  | atCeiling openCount => exact h

/-- The subject in hand: every pair is still to be judged or has its fate,
and one that is not settled blocks the subject. -/
structure HandOk (log : EventLog) (h : InHand) : Prop where
  covers : h.fates.map Prod.fst ++ h.left = h.found
  settled : h.blocked = false → ∀ p ∈ h.fates, p.2.Settled
  answered : ∀ p ∈ h.fates, p.2.Answered log p.1

/-- The two references stand for the next pair. -/
def AtPair (h : InHand) (older newer : ConflictRef) : Prop :=
  ∃ pair rest, h.left = pair :: rest ∧
    ((older = pair.1 ∧ newer = pair.2) ∨ (older = pair.2 ∧ newer = pair.1))

theorem AtPair.key {h : InHand} {older newer : ConflictRef}
    (hat : AtPair h older newer) : ∃ pair rest, h.left = pair :: rest ∧
      older.unorderedPairKey newer = pairKeyOf pair := by
  obtain ⟨pair, rest, hleft, ⟨rfl, rfl⟩ | ⟨rfl, rfl⟩⟩ := hat
  · exact ⟨pair, rest, hleft, rfl⟩
  · exact ⟨pair, rest, hleft, ConflictRef.unorderedPairKey_comm _ _⟩

/-- The hand of a cycle that has one. -/
def PhaseOk (log : EventLog) : Phase → Prop
  | .judging _ h _ => HandOk log h
  | .contradicted _ h _ older newer _ => HandOk log h ∧ AtPair h older newer
  | .cleared _ h _ older newer _ => HandOk log h ∧ AtPair h older newer
  | _ => True

/-- The invariant of every run. -/
structure SweepInv (s : SweepState) : Prop where
  recorded : ∀ ev ∈ s.store.log, ev.eventType = conflictProposalEventType →
    ∃ a b : ConflictRef, ev.content.get? "a_ref" = some a.toJson ∧
      ev.content.get? "b_ref" = some b.toJson
  phase : PhaseOk s.store.log s.phase
  examined : ∀ x ∈ s.examined, x.fates.map Prod.fst = x.found ∧
    ∀ p ∈ x.fates, p.2.Settled ∧ p.2.Answered s.store.log p.1

theorem HandOk.mono {log log' : EventLog} {h : InHand} (hok : HandOk log h)
    (hlog : ∃ suffix, log' = log ++ suffix) : HandOk log' h :=
  ⟨hok.covers, hok.settled, fun p hp => (hok.answered p hp).mono hlog⟩

theorem PhaseOk.mono {log log' : EventLog} {phase : Phase}
    (h : PhaseOk log phase) (hlog : ∃ suffix, log' = log ++ suffix) :
    PhaseOk log' phase := by
  cases phase with
  | idle => trivial
  | scanned => trivial
  | indexed => trivial
  | sweeping => trivial
  | judging c hand todo => exact HandOk.mono h hlog
  | contradicted c hand todo older newer v => exact ⟨h.1.mono hlog, h.2⟩
  | cleared c hand todo older newer v => exact ⟨h.1.mono hlog, h.2⟩

theorem handOk_take (log : EventLog) (cs : ConflictSubject)
    (found : List CandidatePair) : HandOk log (.take cs found) :=
  ⟨rfl, fun _ p hp => (by cases hp), fun p hp => (by cases hp)⟩

/-- The next pair gets a fate that settles it, or blocks the subject. -/
theorem HandOk.settle {log : EventLog} {h : InHand} {pair : CandidatePair}
    {rest : List CandidatePair} {fate : Fate} (hok : HandOk log h)
    (hleft : h.left = pair :: rest) (hanswered : fate.Answered log pair)
    (blocked : Bool) (hkeep : h.blocked = true → blocked = true)
    (hsettled : blocked = false → fate.Settled) :
    HandOk log { h.settle fate with blocked := blocked } := by
  have hshape : h.settle fate =
      { h with left := rest, fates := h.fates ++ [(pair, fate)] } := by
    rw [InHand.settle, hleft]
  rw [hshape]
  have hcovers := hok.covers
  rw [hleft] at hcovers
  refine ⟨?_, ?_, ?_⟩
  · show (h.fates ++ [(pair, fate)]).map Prod.fst ++ rest = h.found
    rw [← hcovers, List.map_append, List.append_assoc]
    rfl
  · intro hnot p hp
    have hfree : h.blocked = false := by
      rw [Bool.eq_false_iff]
      intro hb
      rw [hkeep hb] at hnot
      cases hnot
    rcases List.mem_append.mp hp with hold | hnew
    · exact hok.settled hfree p hold
    · obtain rfl := List.mem_singleton.mp hnew
      exact hsettled hnot
  · intro p hp
    rcases List.mem_append.mp hp with hold | hnew
    · exact hok.answered p hold
    · obtain rfl := List.mem_singleton.mp hnew
      exact hanswered

/-- A fate that settles its pair. -/
theorem HandOk.settle_settled {log : EventLog} {h : InHand}
    {pair : CandidatePair} {rest : List CandidatePair} {fate : Fate}
    (hok : HandOk log h) (hleft : h.left = pair :: rest)
    (hanswered : fate.Answered log pair) (hsettled : fate.Settled) :
    HandOk log (h.settle fate) := by
  have hsame : h.settle fate =
      { h.settle fate with blocked := h.blocked } := by
    rw [InHand.settle, hleft]
  rw [hsame]
  exact hok.settle hleft hanswered h.blocked id fun _ => hsettled

/-! ### The steps -/

/-- The log and the record stay, the phase keeps its hand in order. -/
theorem SweepInv.rephase {s s' : SweepState} (hinv : SweepInv s)
    (hlog : s'.store.log = s.store.log) (hexam : s'.examined = s.examined)
    (hphase : PhaseOk s.store.log s'.phase) : SweepInv s' := by
  refine ⟨?_, ?_, ?_⟩
  · rw [hlog]
    exact hinv.recorded
  · rw [hlog]
    exact hphase
  · rw [hlog, hexam]
    exact hinv.examined

theorem SweepInv.own {s : SweepState} (hinv : SweepInv s) (op : OwnerOp) :
    SweepInv (s.own op) := by
  obtain ⟨suffix, hlog, htypes⟩ := (own_grows s op).log
  obtain ⟨hphase, hexam⟩ := own_frame s op
  refine ⟨?_, ?_, ?_⟩
  · intro ev hev htype
    rw [hlog] at hev
    rcases List.mem_append.mp hev with hold | hnew
    · exact hinv.recorded ev hold htype
    · exact absurd htype (htypes ev hnew)
  · rw [hphase]
    exact hinv.phase.mono ⟨suffix, hlog⟩
  · rw [hexam]
    intro x hx
    obtain ⟨hcovers, hfates⟩ := hinv.examined x hx
    exact ⟨hcovers, fun p hp =>
      ⟨(hfates p hp).1, (hfates p hp).2.mono ⟨suffix, hlog⟩⟩⟩

theorem SweepInv.judge {s : SweepState} (hinv : SweepInv s)
    (d : Detector D) (passageText : String → Nat → Option String)
    (reasoner : Judge) : SweepInv (s.judge d passageText reasoner) := by
  unfold SweepState.judge
  split
  · next c h todo hphase =>
      have hok : HandOk s.store.log h := by
        have := hinv.phase
        rw [hphase] at this
        exact this
      split
      · exact hinv
      · next pair rest hleft =>
          have hat : AtPair h (c.ordered d s.store.log pair).1
              (c.ordered d s.store.log pair).2 := by
            refine ⟨pair, rest, hleft, ?_⟩
            unfold Cycle.ordered
            split
            · exact .inl ⟨rfl, rfl⟩
            · exact .inr ⟨rfl, rfl⟩
          dsimp only
          split
          · exact hinv.rephase rfl rfl
              (hok.settle_settled hleft trivial trivial)
          · split
            · split
              · exact hinv.rephase rfl rfl ⟨hok, hat⟩
              · exact hinv.rephase rfl rfl
                  (hok.settle_settled hleft trivial trivial)
              · refine hinv.rephase rfl rfl
                  (hok.settle hleft (show Fate.Answered s.store.log pair
                    (.failed _) from trivial) _ ?_ ?_)
                · intro hb
                  rw [hb, Bool.true_or]
                · intro hfree
                  rw [Bool.or_eq_false_iff, decide_eq_false_iff_not] at hfree
                  exact Nat.le_of_not_lt hfree.2
            · exact hinv.rephase rfl rfl
                (hok.settle_settled hleft trivial trivial)
  · exact hinv

/-- An open proposal of the pair is in the log. -/
theorem proposedIn_of_suppressed {st : Store} {older newer : ConflictRef}
    {pair : CandidatePair}
    (hrecorded : ∀ ev ∈ st.log, ev.eventType = conflictProposalEventType →
      ∃ a b : ConflictRef, ev.content.get? "a_ref" = some a.toJson ∧
        ev.content.get? "b_ref" = some b.toJson)
    (hkey : older.unorderedPairKey newer = pairKeyOf pair)
    (h : isConflictProposalSuppressed st older newer = true) :
    ProposedIn st.log pair := by
  rw [isConflictProposalSuppressed, List.any_eq_true] at h
  obtain ⟨p, hp, hsame⟩ := h
  rw [openConflictProposals, List.mem_filter, List.mem_filterMap] at hp
  obtain ⟨⟨ev, hev, hof⟩, -⟩ := hp
  obtain ⟨hmem, htype⟩ := mem_eventsOfTypes.1 hev
  have htype' := List.mem_singleton.mp htype
  obtain ⟨a, b, ha, hb⟩ := hrecorded ev hmem htype'
  obtain ⟨-, hrefs⟩ := proposalOf_some hof
  refine ⟨ev, hmem, htype', a, b, ha, hb, ?_⟩
  obtain ⟨rfl, rfl⟩ : p.aRef = a ∧ p.bRef = b := by
    unfold proposalRefs at hrefs
    rw [ha, hb, Option.bind_some, Option.bind_some] at hrefs
    split at hrefs
    · next a' b' ha' hb' =>
        rw [Option.some.injEq, Prod.mk.injEq] at hrefs
        rw [← hrefs.1, ← hrefs.2]
        exact ⟨ConflictRef.eq_of_fromJson ha',
          ConflictRef.eq_of_fromJson hb'⟩
    · cases hrefs
  rw [← hkey]
  exact beq_iff_eq.mp hsame

theorem SweepInv.check {s : SweepState} (hinv : SweepInv s) :
    SweepInv s.check := by
  unfold SweepState.check
  split
  · next c h todo older newer v hphase =>
      obtain ⟨hok, hat⟩ : HandOk s.store.log h ∧ AtPair h older newer := by
        have := hinv.phase
        rw [hphase] at this
        exact this
      obtain ⟨pair, rest, hleft, hkey⟩ := hat.key
      split
      · next hfull =>
          exact hinv.rephase rfl rfl
            (hok.settle_settled hleft (show Fate.Answered s.store.log pair
              (.atCeiling c.openCount) from hfull) trivial)
      · split
        · next hsup =>
            exact hinv.rephase rfl rfl
              (hok.settle_settled hleft (show Fate.Answered s.store.log pair
                .suppressed from proposedIn_of_suppressed hinv.recorded hkey
                  hsup) trivial)
        · exact hinv.rephase rfl rfl ⟨hok, hat⟩
  · exact hinv

/-- The references of a stored proposal. -/
theorem refs_of_stored {m : Mint} {log : EventLog} {c : Cycle}
    {older newer : ConflictRef} {v : Verdict} {stored : Event}
    (hs : Stored m log (verdictEvent c older newer v) stored) :
    stored.eventType = conflictProposalEventType ∧
      stored.content.get? "a_ref" = some older.toJson ∧
      stored.content.get? "b_ref" = some newer.toJson := by
  refine ⟨hs.eventType_eq, ?_, ?_⟩
  · rw [hs.content_eq, get?_stampedContent (by decide)]
    rfl
  · rw [hs.content_eq, get?_stampedContent (by decide)]
    rfl

/-- The append of a verdict: the cycle stops, or the proposal is stored. -/
theorem append_steps (m : Mint) {s : SweepState} {c : Cycle} {h : InHand}
    {todo : List ConflictSubject} {older newer : ConflictRef} {v : Verdict}
    (hphase : s.phase = .cleared c h todo older newer v) :
    s.append m = { s with phase := .idle c.report } ∨
      ∃ stored, Stored m s.store.log (verdictEvent c older newer v) stored ∧
        s.append m =
          { s with
            store := s.store.push stored
            phase := .judging (c.propose (older.unorderedPairKey newer))
              (h.settle (.proposed m.id)) todo } := by
  unfold SweepState.append
  rw [hphase]
  dsimp only
  rcases s.store.append_cases m (verdictEvent c older newer v) with
    ⟨e, happ⟩ | ⟨stored, hs, happ⟩
  · rw [happ]
    exact .inl rfl
  · rw [happ]
    exact .inr ⟨stored, hs, rfl⟩

theorem SweepInv.append {s : SweepState} (hinv : SweepInv s) (m : Mint) :
    SweepInv (s.append m) := by
  cases hphase : s.phase with
  | cleared c h todo older newer v =>
      obtain ⟨hok, hat⟩ : HandOk s.store.log h ∧ AtPair h older newer := by
        have := hinv.phase
        rw [hphase] at this
        exact this
      obtain ⟨pair, rest, hleft, hkey⟩ := hat.key
      rcases append_steps m hphase with heq | ⟨stored, hs, heq⟩
      · rw [heq]
        exact hinv.rephase rfl rfl trivial
      · obtain ⟨htype, ha, hb⟩ := refs_of_stored hs
        have hgrown : ∃ suffix,
            s.store.log ++ [stored] = s.store.log ++ suffix := ⟨_, rfl⟩
        rw [heq]
        refine ⟨?_, ?_, ?_⟩
        · intro ev hev hev'
          rcases List.mem_append.mp hev with hold | hnew
          · exact hinv.recorded ev hold hev'
          · obtain rfl := List.mem_singleton.mp hnew
            exact ⟨older, newer, ha, hb⟩
        · have hproposed : ProposedIn (s.store.log ++ [stored]) pair :=
            ⟨stored, List.mem_append_right _ List.mem_cons_self, htype,
              older, newer, ha, hb, hkey⟩
          exact (hok.mono hgrown).settle_settled hleft
            (show Fate.Answered (s.store.log ++ [stored]) pair
              (.proposed m.id) from hproposed) trivial
        · intro x hx
          obtain ⟨hcovers, hfates⟩ := hinv.examined x hx
          exact ⟨hcovers, fun p hp =>
            ⟨(hfates p hp).1, (hfates p hp).2.mono hgrown⟩⟩
  | idle | scanned | indexed | sweeping | judging | contradicted =>
      rwa [SweepState.append, hphase]

theorem SweepInv.advance {s : SweepState} (hinv : SweepInv s) :
    SweepInv s.advance := by
  unfold SweepState.advance
  split
  · next c h todo hphase =>
      have hok : HandOk s.store.log h := by
        have := hinv.phase
        rw [hphase] at this
        exact this
      split
      · exact hinv
      · next hleft =>
          split
          · exact hinv.rephase rfl rfl trivial
          · next hfree =>
              have hcovers := hok.covers
              rw [hleft, List.append_nil] at hcovers
              refine ⟨hinv.recorded, trivial, fun x hx => ?_⟩
              rcases List.mem_append.mp hx with hold | hnew
              · exact hinv.examined x hold
              · obtain rfl := List.mem_singleton.mp hnew
                exact ⟨hcovers, fun p hp =>
                  ⟨hok.settled (Bool.eq_false_iff.mpr hfree) p hp,
                    hok.answered p hp⟩⟩
  · exact hinv

theorem SweepInv.take {s : SweepState} (hinv : SweepInv s)
    (d : Detector D) : SweepInv (s.take d) := by
  unfold SweepState.take
  split
  · exact hinv.rephase rfl rfl trivial
  · split
    · exact hinv.rephase rfl rfl trivial
    · exact hinv.rephase rfl rfl (handOk_take _ _ _)
    · dsimp only
      split
      · exact hinv.rephase rfl rfl trivial
      · exact hinv.rephase rfl rfl (handOk_take _ _ _)
  · exact hinv

/-- The invariant, a step of any kind. -/
theorem SweepInv.exec {s : SweepState} (hinv : SweepInv s) (d : Detector D)
    (i : SweepStep) : SweepInv (s.exec d i) := by
  cases i with
  | owner op => exact hinv.own op
  | scan enabled detectedAt =>
      show SweepInv (s.scan enabled detectedAt)
      unfold SweepState.scan
      split
      · split
        · dsimp only
          split
          · exact hinv.rephase rfl rfl trivial
          · exact hinv.rephase rfl rfl trivial
        · exact hinv.rephase rfl rfl trivial
      · exact hinv
  | rebuild =>
      show SweepInv (s.rebuild d)
      unfold SweepState.rebuild
      split
      · split
        · exact hinv.rephase rfl rfl trivial
        · exact hinv.rephase rfl rfl trivial
      · exact hinv
  | lookup =>
      show SweepInv (s.lookup d)
      unfold SweepState.lookup
      split
      · exact hinv.rephase rfl rfl trivial
      · exact hinv
  | take => exact hinv.take d
  | judge passageText reasoner => exact hinv.judge d passageText reasoner
  | check => exact hinv.check
  | append m => exact hinv.append m
  | advance => exact hinv.advance
  | abort => exact hinv.rephase rfl rfl trivial
  | restart => exact hinv.rephase rfl rfl trivial

theorem sweepInv_start : SweepInv .start :=
  ⟨fun ev hev => (by cases hev), trivial, fun x hx => (by cases hx)⟩

theorem sweepInv_run (d : Detector D) (steps : List SweepStep) :
    SweepInv (Trace.run (SweepState.exec d) .start steps) :=
  Trace.run_inv SweepInv (fun _ i h => h.exec d i) sweepInv_start steps

/-- A step that is not of the cycle is the owner's, or a restart. -/
theorem SweepStep.owner_or_restart {i : SweepStep} (hi : ¬ i.OfCycle) :
    (∃ op, i = .owner op) ∨ i = .restart := by
  cases i with
  | owner op => exact .inl ⟨op, rfl⟩
  | restart => exact .inr rfl
  | scan => exact absurd trivial hi
  | rebuild => exact absurd trivial hi
  | lookup => exact absurd trivial hi
  | take => exact absurd trivial hi
  | judge => exact absurd trivial hi
  | check => exact absurd trivial hi
  | append => exact absurd trivial hi
  | advance => exact absurd trivial hi
  | abort => exact absurd trivial hi

/-- What a step of the cycle does to the store and the record. -/
inductive CycleStep (s s' : SweepState) : Prop where
  | rests (hstore : s'.store = s.store) (hexam : s'.examined = s.examined)
  | proposes (m : Mint) (draft stored : Event)
      (hs : Stored m s.store.log draft stored)
      (hstore : s'.store = s.store.push stored)
      (hexam : s'.examined = s.examined)
  | passes (x : Examined)
      (hstore : s'.store = setConflictCursor s.store x.subject.seq
        (x.subject.withinSeqId + 1))
      (hexam : s'.examined = s.examined ++ [x])

theorem CycleStep.append (m : Mint) (s : SweepState) :
    CycleStep s (s.append m) := by
  cases hphase : s.phase with
  | cleared c h todo older newer v =>
      rcases append_steps m hphase with heq | ⟨stored, hs, heq⟩
      · rw [heq]
        exact .rests rfl rfl
      · rw [heq]
        exact .proposes m _ stored hs rfl rfl
  | idle | scanned | indexed | sweeping | judging | contradicted =>
      rw [SweepState.append, hphase]
      exact .rests rfl rfl

/-- **A step of the cycle**, in full: the subject it passes is recorded. -/
theorem CycleStep.of_exec (d : Detector D) (s : SweepState) {i : SweepStep}
    (hi : i.OfCycle) : CycleStep s (s.exec d i) := by
  cases i with
  | owner op => exact absurd hi id
  | restart => exact absurd hi id
  | scan enabled detectedAt =>
      simp only [SweepState.exec, SweepState.scan]
      split
      · split
        · split <;> exact .rests rfl rfl
        · exact .rests rfl rfl
      · exact .rests rfl rfl
  | rebuild =>
      simp only [SweepState.exec, SweepState.rebuild]
      split
      · split <;> exact .rests rfl rfl
      · exact .rests rfl rfl
  | lookup =>
      simp only [SweepState.exec, SweepState.lookup]
      split <;> exact .rests rfl rfl
  | take =>
      simp only [SweepState.exec, SweepState.take]
      split
      · exact .rests rfl rfl
      · split
        · exact .rests rfl rfl
        · exact .rests rfl rfl
        · split <;> exact .rests rfl rfl
      · exact .rests rfl rfl
  | judge passageText reasoner =>
      simp only [SweepState.exec, SweepState.judge]
      split
      · split
        · exact .rests rfl rfl
        · split
          · exact .rests rfl rfl
          · split
            · split <;> exact .rests rfl rfl
            · exact .rests rfl rfl
      · exact .rests rfl rfl
  | check =>
      simp only [SweepState.exec, SweepState.check]
      split
      · split
        · exact .rests rfl rfl
        · split <;> exact .rests rfl rfl
      · exact .rests rfl rfl
  | append m => exact .append m s
  | advance =>
      simp only [SweepState.exec, SweepState.advance]
      split
      · split
        · exact .rests rfl rfl
        · split
          · exact .rests rfl rfl
          · exact .passes _ rfl rfl
      · exact .rests rfl rfl
  | abort => exact .rests rfl rfl

/-- A step of the cycle writes the cursor behind a subject it records, or not
at all. -/
theorem cursor_of_cycle (d : Detector D) (s : SweepState) {i : SweepStep}
    (hi : i.OfCycle) :
    (conflictCursor (s.exec d i).store = conflictCursor s.store ∧
        (s.exec d i).examined = s.examined) ∨
      ∃ x, (s.exec d i).examined = s.examined ++ [x] ∧
        conflictCursor (s.exec d i).store =
          (x.subject.seq, x.subject.withinSeqId + 1) := by
  cases CycleStep.of_exec d s hi with
  | rests hstore hexam => exact .inl ⟨by rw [hstore], hexam⟩
  | proposes m draft stored hs hstore hexam =>
      exact .inl ⟨by rw [hstore]; rfl, hexam⟩
  | passes x hstore hexam => exact .inr ⟨x, hexam, by rw [hstore]; rfl⟩

/-! ## No pair twice -/

/-- The event proposes the two references. -/
def IsProposalOf (ev : Event) (refs : ConflictRef × ConflictRef) : Prop :=
  ev.eventType = conflictProposalEventType ∧ proposalRefs ev = some refs

/-- One unordered pair. -/
def SamePair (p q : ConflictRef × ConflictRef) : Prop :=
  (p.1 = q.1 ∧ p.2 = q.2) ∨ (p.1 = q.2 ∧ p.2 = q.1)

theorem SamePair.key {p q : ConflictRef × ConflictRef} (h : SamePair p q) :
    p.1.unorderedPairKey p.2 = q.1.unorderedPairKey q.2 := by
  rcases h with ⟨h₁, h₂⟩ | ⟨h₁, h₂⟩
  · rw [h₁, h₂]
  · rw [h₁, h₂]
    exact ConflictRef.unorderedPairKey_comm _ _

/-- No two proposals of the log are of one pair. -/
def DistinctPairs (log : EventLog) : Prop :=
  log.Pairwise fun e e' => ∀ p q, IsProposalOf e p → IsProposalOf e' q →
    ¬ SamePair p q

/-- The references a cycle has yet to judge. -/
def Sees (index : List (ConflictRef × Bytes))
    (subjects : List ConflictSubject) (r : ConflictRef) : Prop :=
  (∃ t ∈ subjects, t.subject = r) ∨ ∃ vec, (r, vec) ∈ index

/-- The keys hold those of the proposals between references that are seen. -/
def KnowsOpen (log : EventLog) (openPairs : List String)
    (sees : ConflictRef → Prop) : Prop :=
  ∀ ev ∈ log, ∀ refs, IsProposalOf ev refs → sees refs.1 → sees refs.2 →
    refs.1.unorderedPairKey refs.2 ∈ openPairs

/-- The pairs in hand are of the subject and the index, not open, and
distinct. -/
structure HandFresh (c : Cycle) (h : InHand) : Prop where
  pairs : ∀ pair ∈ h.left, pair.1 = h.subject.subject ∧
    (∃ vec, (pair.2, vec) ∈ c.index) ∧ pairKeyOf pair ∉ c.openPairs
  keys : (h.left.map pairKeyOf).Nodup

/-- What a cycle knows of the proposals, phase by phase. -/
def FreshPhase (st : Store) : Phase → Prop
  | .idle _ => True
  | .scanned _ subjects => ∀ t ∈ subjects, refIsCurrent st t.subject = true
  | .indexed _ subjects index =>
      ∀ r, Sees index subjects r → refIsCurrent st r = true
  | .sweeping c todo => KnowsOpen st.log c.openPairs (Sees c.index todo)
  | .judging c h todo =>
      KnowsOpen st.log c.openPairs (Sees c.index (h.subject :: todo)) ∧
        HandFresh c h
  | .contradicted c h todo _ _ _ =>
      KnowsOpen st.log c.openPairs (Sees c.index (h.subject :: todo)) ∧
        HandFresh c h
  | .cleared c h todo _ _ _ =>
      KnowsOpen st.log c.openPairs (Sees c.index (h.subject :: todo)) ∧
        HandFresh c h

/-- The invariant of the runs in which no memory is taken away between a scan
and its lookups. -/
structure FreshInv (s : SweepState) : Prop where
  distinct : DistinctPairs s.store.log
  dense : PassagesDense s.store
  phase : FreshPhase s.store s.phase

/-- The step takes no memory away between a scan and its lookups. -/
def LeavesCurrent (s : SweepState) : SweepStep → Prop
  | .owner op =>
      match s.phase with
      | .scanned _ _ => ∀ r, refIsCurrent s.store r = true →
          refIsCurrent (s.own op).store r = true
      | .indexed _ _ _ => ∀ r, refIsCurrent s.store r = true →
          refIsCurrent (s.own op).store r = true
      | _ => True
  | _ => True

/-! ### What is current -/

/-- A capture among the current ones is the current capture of its
session. -/
theorem findCurrent_of_find {log : EventLog} {id : String}
    {cs : CurrentSession}
    (h : (currentSessions log).find? (fun c => c.eventId == id) = some cs) :
    findCurrent log cs.sessionId = some cs ∧ cs.eventId = id := by
  have hmem := List.mem_of_find?_eq_some h
  have hid : cs.eventId = id := by
    have := List.find?_some h
    simpa using this
  have hnodup : ((currentSessions log).map
      CurrentSession.sessionId).Nodup := nodup_current_sessionId _
  refine ⟨?_, hid⟩
  rw [findCurrent, List.find?_eq_some_iff_append]
  obtain ⟨pre, post, hsplit⟩ := List.append_of_mem hmem
  refine ⟨by simp, pre, post, hsplit, fun c hc => ?_⟩
  rw [hsplit, List.map_append, List.nodup_append] at hnodup
  have hne := hnodup.2.2 c.sessionId (List.mem_map_of_mem hc) cs.sessionId
    (by simp)
  simpa using hne

/-- A passage with a row lies within the count of its capture. -/
theorem lt_sessionPassageCount {st : Store} (hdense : PassagesDense st)
    {row : PassageRow} (hrow : row ∈ st.passages) :
    row.passageIx < sessionPassageCount st row.eventId := by
  have hsub : List.range (row.passageIx + 1) ⊆
      (st.passages.filter fun r => r.eventId == row.eventId).map
        PassageRow.passageIx := by
    intro j hj
    rw [List.mem_range] at hj
    rw [List.mem_map]
    rcases Nat.lt_or_ge j row.passageIx with hlt | hge
    · obtain ⟨r, hr, heid, -, rfl⟩ := hdense row hrow j hlt
      exact ⟨r, List.mem_filter.mpr ⟨hr, beq_iff_eq.mpr heid⟩, rfl⟩
    · have heq : j = row.passageIx := by omega
      exact ⟨row, List.mem_filter.mpr ⟨hrow, beq_self_eq_true _⟩, heq.symm⟩
  have hlen := (List.subperm_of_subset List.nodup_range hsub).length_le
  rw [List.length_range, List.length_map] at hlen
  exact hlen

theorem refIsCurrent_passage {st : Store} {sid : String} {pid : Nat}
    {cs : CurrentSession} (hcs : findCurrent st.log sid = some cs)
    (hlive : (sid, pid) ∉
      (foldSessions (sessionEventsOrdered st.log)).retiredPassages)
    (hpid : pid < sessionPassageCount st cs.eventId) :
    refIsCurrent st (.passage sid pid) = true := by
  simp only [refIsCurrent, hcs, Bool.and_eq_true, decide_eq_true_eq]
  exact ⟨hlive, hpid⟩

/-- A subject of a scan is current. -/
theorem current_of_isSubject {st : Store} {t : ConflictSubject}
    (h : IsSubject st t) : refIsCurrent st t.subject = true := by
  obtain ⟨row, -, hsub⟩ := h
  cases hsub with
  | note seq ev htype hcur => exact hcur
  | passage seq ev cs pid htype hcs hpid hlive =>
      obtain ⟨hfind, hid⟩ := findCurrent_of_find hcs
      refine refIsCurrent_passage hfind hlive ?_
      rw [hid]
      exact hpid

theorem mem_noteEntries {d : Detector D} {notes : List Event}
    {entries : List (ConflictRef × Bytes)}
    (h : noteEntries d notes = .ok entries) {r : ConflictRef} {vec : Bytes}
    (hr : (r, vec) ∈ entries) : ∃ note ∈ notes, r = .note note.id := by
  induction notes generalizing entries with
  | nil =>
      rw [noteEntries, Except.ok.injEq] at h
      subst h
      cases hr
  | cons note rest ih =>
      unfold noteEntries at h
      split at h
      · obtain ⟨n, hn, heq⟩ := ih h hr
        exact ⟨n, List.mem_cons_of_mem note hn, heq⟩
      · split at h
        · cases h
        · split at h
          · cases h
          · next entries' hrest =>
              rw [Except.ok.injEq] at h
              subst h
              rcases List.mem_cons.mp hr with heq | hmem
              · rw [Prod.mk.injEq] at heq
                exact ⟨note, List.mem_cons_self, heq.1⟩
              · obtain ⟨n, hn, heq⟩ := ih hrest hmem
                exact ⟨n, List.mem_cons_of_mem note hn, heq⟩

/-- What the index holds is current. -/
theorem current_of_index {d : Detector D} {st : Store}
    (hdense : PassagesDense st) {index : List (ConflictRef × Bytes)}
    (h : rebuildConflictIndex d st = .ok index) {r : ConflictRef}
    {vec : Bytes} (hr : (r, vec) ∈ index) : refIsCurrent st r = true := by
  unfold rebuildConflictIndex at h
  split at h
  · cases h
  · next notes hnotes =>
      rw [Except.ok.injEq] at h
      subst h
      rcases List.mem_append.mp hr with hpassage | hnote
      · rw [passageEntries, List.mem_filterMap] at hpassage
        obtain ⟨⟨⟨sid, pid⟩, v⟩, hcur, hentry⟩ := hpassage
        rw [currentPassages, List.mem_filterMap] at hcur
        obtain ⟨row, hrow, hfind⟩ := hcur
        rw [Option.map_eq_some_iff] at hfind
        obtain ⟨cs, hcs, heq⟩ := hfind
        simp only [Prod.mk.injEq] at heq
        obtain ⟨⟨rfl, rfl⟩, rfl⟩ := heq
        dsimp only at hentry
        split at hentry
        · cases hentry
        · next hlive =>
            rw [Option.some.injEq, Prod.mk.injEq] at hentry
            rw [← hentry.1]
            obtain ⟨hfind, hid⟩ := findCurrent_of_find hcs
            have hmem : row ∈ st.passages := by
              have := (List.perm_insertionSort PassageRow.le _).mem_iff.mp
                hrow
              exact (List.mem_filter.mp this).1
            refine refIsCurrent_passage hfind hlive ?_
            rw [hid]
            exact lt_sessionPassageCount hdense hmem
      · obtain ⟨note, hcur, rfl⟩ := mem_noteEntries hnotes hnote
        rw [refIsCurrent, List.any_eq_true]
        exact ⟨note, hcur, beq_self_eq_true _⟩

/-- The lookups know the proposals between current references. -/
theorem knowsOpen_lookup {st : Store} {sees : ConflictRef → Prop}
    (hcur : ∀ r, sees r → refIsCurrent st r = true)
    (more : List String) :
    KnowsOpen st.log (openPairKeys st ++ more) sees := by
  rintro ev hev ⟨a, b⟩ ⟨htype, hrefs⟩ ha hb
  refine List.mem_append_left more ?_
  have hof : ∃ p, proposalOf ev = some p ∧ p.aRef = a ∧ p.bRef = b := by
    rw [proposalOf, hrefs]
    exact ⟨_, rfl, rfl, rfl⟩
  obtain ⟨p, hp, rfl, rfl⟩ := hof
  rw [openPairKeys, List.mem_map]
  refine ⟨p, ?_, rfl⟩
  rw [openConflictProposals, List.mem_filter, List.mem_filterMap]
  refine ⟨⟨ev, mem_eventsOfTypes.2 ⟨hev, by simp [htype]⟩, hp⟩, ?_⟩
  rw [Bool.and_eq_true]
  exact ⟨hcur _ ha, hcur _ hb⟩

/-! ### The steps -/

theorem KnowsOpen.mono {log : EventLog} {openPairs : List String}
    {sees sees' : ConflictRef → Prop} (h : KnowsOpen log openPairs sees)
    (hsees : ∀ r, sees' r → sees r) : KnowsOpen log openPairs sees' :=
  fun ev hev refs hprop h₁ h₂ =>
    h ev hev refs hprop (hsees _ h₁) (hsees _ h₂)

/-- Events that are no proposals change nothing of what is known. -/
theorem KnowsOpen.grow {log : EventLog} {openPairs : List String}
    {sees : ConflictRef → Prop} (h : KnowsOpen log openPairs sees)
    {suffix : List Event}
    (htypes : ∀ ev ∈ suffix, ev.eventType ≠ conflictProposalEventType) :
    KnowsOpen (log ++ suffix) openPairs sees := by
  intro ev hev refs hprop h₁ h₂
  rcases List.mem_append.mp hev with hold | hnew
  · exact h ev hold refs hprop h₁ h₂
  · exact absurd hprop.1 (htypes ev hnew)

theorem DistinctPairs.grow {log : EventLog} (h : DistinctPairs log)
    {suffix : List Event}
    (htypes : ∀ ev ∈ suffix, ev.eventType ≠ conflictProposalEventType) :
    DistinctPairs (log ++ suffix) := by
  rw [DistinctPairs, List.pairwise_append]
  refine ⟨h, ?_, ?_⟩
  · exact List.Pairwise.imp_of_mem (fun hev _ _ p q hp _ =>
      absurd hp.1 (htypes _ hev)) (List.pairwise_of_forall (fun _ _ =>
        trivial : ∀ _ _ : Event, True))
  · intro e he e' he' p q _ hq
    exact absurd hq.1 (htypes e' he')

/-- A new pair, not of any proposal. -/
theorem DistinctPairs.push {log : EventLog} (h : DistinctPairs log)
    {ev : Event} (hnew : ∀ q, IsProposalOf ev q →
      ∀ e ∈ log, ∀ p, IsProposalOf e p → ¬ SamePair p q) :
    DistinctPairs (log ++ [ev]) := by
  rw [DistinctPairs, List.pairwise_append]
  refine ⟨h, List.pairwise_singleton _ _, ?_⟩
  intro e he e' he' p q hp hq
  obtain rfl := List.mem_singleton.mp he'
  exact hnew q hq e he p hp

theorem HandFresh.settle {c : Cycle} {h : InHand} (hf : HandFresh c h)
    (fate : Fate) : HandFresh c (h.settle fate) := by
  unfold InHand.settle
  split
  · exact hf
  · next pair rest hleft =>
      have hpairs := hf.pairs
      have hkeys := hf.keys
      rw [hleft] at hpairs hkeys
      rw [List.map_cons, List.nodup_cons] at hkeys
      exact ⟨fun q hq => hpairs q (List.mem_cons_of_mem pair hq), hkeys.2⟩

theorem settle_subject (h : InHand) (fate : Fate) :
    (h.settle fate).subject = h.subject := by
  unfold InHand.settle
  split <;> rfl

/-- The log and the passages stay, the phase knows what it has to know. -/
theorem FreshInv.rephase {s s' : SweepState} (hinv : FreshInv s)
    (hlog : s'.store.log = s.store.log)
    (hpass : s'.store.passages = s.store.passages)
    (hphase : FreshPhase s'.store s'.phase) : FreshInv s' := by
  refine ⟨?_, ?_, hphase⟩
  · rw [hlog]
    exact hinv.distinct
  · rw [PassagesDense, hpass]
    exact hinv.dense

theorem FreshInv.own {s : SweepState} (hinv : FreshInv s) {op : OwnerOp}
    (hok : LeavesCurrent s (.owner op)) : FreshInv (s.own op) := by
  obtain ⟨⟨suffix, hlog, htypes⟩, -, hdense⟩ := own_grows s op
  obtain ⟨hphase, -⟩ := own_frame s op
  refine ⟨?_, hdense hinv.dense, ?_⟩
  · rw [hlog]
    exact hinv.distinct.grow htypes
  · have hfresh := hinv.phase
    rw [hphase]
    simp only [LeavesCurrent] at hok
    cases hp : s.phase with
    | idle report => trivial
    | scanned detectedAt subjects =>
        rw [hp] at hfresh hok
        exact fun t ht => hok _ (hfresh t ht)
    | indexed detectedAt subjects index =>
        rw [hp] at hfresh hok
        exact fun r hr => hok r (hfresh r hr)
    | sweeping c todo =>
        rw [hp] at hfresh
        show KnowsOpen _ _ _
        rw [hlog]
        exact KnowsOpen.grow hfresh htypes
    | judging c h todo =>
        rw [hp] at hfresh
        show KnowsOpen _ _ _ ∧ _
        rw [hlog]
        exact ⟨hfresh.1.grow htypes, hfresh.2⟩
    | contradicted c h todo older newer v =>
        rw [hp] at hfresh
        show KnowsOpen _ _ _ ∧ _
        rw [hlog]
        exact ⟨hfresh.1.grow htypes, hfresh.2⟩
    | cleared c h todo older newer v =>
        rw [hp] at hfresh
        show KnowsOpen _ _ _ ∧ _
        rw [hlog]
        exact ⟨hfresh.1.grow htypes, hfresh.2⟩

theorem FreshInv.scan {s : SweepState} (hinv : FreshInv s) (enabled : Bool)
    (detectedAt : Int) : FreshInv (s.scan enabled detectedAt) := by
  unfold SweepState.scan
  split
  · split
    · dsimp only
      split
      · exact hinv.rephase rfl rfl trivial
      · next subjects hlist =>
          refine hinv.rephase rfl rfl fun t ht => ?_
          exact current_of_isSubject (mem_subjects_iff.1 ht).1
    · exact hinv.rephase rfl rfl trivial
  · exact hinv

theorem FreshInv.rebuild {s : SweepState} (hinv : FreshInv s)
    (d : Detector D) : FreshInv (s.rebuild d) := by
  unfold SweepState.rebuild
  split
  · next detectedAt subjects hphase =>
      split
      · exact hinv.rephase rfl rfl trivial
      · next index hindex =>
          have hsubjects := hinv.phase
          rw [hphase] at hsubjects
          refine hinv.rephase rfl rfl fun r hr => ?_
          rcases hr with ⟨t, ht, rfl⟩ | ⟨vec, hvec⟩
          · exact hsubjects t ht
          · exact current_of_index hinv.dense hindex hvec
  · exact hinv

theorem FreshInv.lookup {s : SweepState} (hinv : FreshInv s)
    (d : Detector D) : FreshInv (s.lookup d) := by
  unfold SweepState.lookup
  split
  · next detectedAt subjects index hphase =>
      have hcur := hinv.phase
      rw [hphase] at hcur
      exact hinv.rephase rfl rfl (knowsOpen_lookup hcur _)
  · exact hinv

theorem FreshInv.take {s : SweepState} (hinv : FreshInv s)
    (d : Detector D) : FreshInv (s.take d) := by
  unfold SweepState.take
  split
  · exact hinv.rephase rfl rfl trivial
  · next c cs todo hphase =>
      have hknows := hinv.phase
      rw [hphase] at hknows
      have hnone : HandFresh c (.take cs []) :=
        ⟨fun pair hpair => (by cases hpair), List.nodup_nil⟩
      split
      · exact hinv.rephase rfl rfl trivial
      · exact hinv.rephase rfl rfl ⟨hknows, hnone⟩
      · next qv _ =>
          dsimp only
          split
          · exact hinv.rephase rfl rfl trivial
          · refine hinv.rephase rfl rfl ⟨hknows, ?_, ?_⟩
            · intro pair hpair
              exact mem_candidatePairs hpair
            · exact decideConflictSweep_keys d _
  · exact hinv

theorem FreshInv.judge {s : SweepState} (hinv : FreshInv s)
    (d : Detector D) (passageText : String → Nat → Option String)
    (reasoner : Judge) : FreshInv (s.judge d passageText reasoner) := by
  unfold SweepState.judge
  split
  · next c h todo hphase =>
      obtain ⟨hknows, hfresh⟩ :
          KnowsOpen s.store.log c.openPairs
              (Sees c.index (h.subject :: todo)) ∧ HandFresh c h := by
        have := hinv.phase
        rw [hphase] at this
        exact this
      have hsettled : ∀ fate, KnowsOpen s.store.log c.openPairs
          (Sees c.index ((h.settle fate).subject :: todo)) := by
        intro fate
        rw [settle_subject]
        exact hknows
      have hleft : ∀ fate, HandFresh c (h.settle fate) := hfresh.settle
      split
      · exact hinv
      · dsimp only
        split
        · exact hinv.rephase rfl rfl ⟨hsettled _, hleft _⟩
        · split
          · split
            · exact hinv.rephase rfl rfl
                ⟨hknows, hfresh.pairs, hfresh.keys⟩
            · exact hinv.rephase rfl rfl
                ⟨hsettled _, (hleft _).pairs, (hleft _).keys⟩
            · exact hinv.rephase rfl rfl
                ⟨hsettled _, (hleft _).pairs, (hleft _).keys⟩
          · exact hinv.rephase rfl rfl
              ⟨hsettled _, (hleft _).pairs, (hleft _).keys⟩
  · exact hinv

theorem FreshInv.check {s : SweepState} (hinv : FreshInv s) :
    FreshInv s.check := by
  unfold SweepState.check
  split
  · next c h todo older newer v hphase =>
      obtain ⟨hknows, hfresh⟩ :
          KnowsOpen s.store.log c.openPairs
              (Sees c.index (h.subject :: todo)) ∧ HandFresh c h := by
        have := hinv.phase
        rw [hphase] at this
        exact this
      have hsettled : ∀ fate, KnowsOpen s.store.log c.openPairs
          (Sees c.index ((h.settle fate).subject :: todo)) := by
        intro fate
        rw [settle_subject]
        exact hknows
      split
      · exact hinv.rephase rfl rfl
          ⟨hsettled _, (hfresh.settle _).pairs, (hfresh.settle _).keys⟩
      · split
        · exact hinv.rephase rfl rfl ⟨hsettled _, hfresh.settle _⟩
        · exact hinv.rephase rfl rfl ⟨hknows, hfresh⟩
  · exact hinv

/-- The references a stored proposal proposes. -/
theorem refs_of_isProposalOf {older newer : ConflictRef} {stored : Event}
    (ha : stored.content.get? "a_ref" = some older.toJson)
    (hb : stored.content.get? "b_ref" = some newer.toJson)
    {q : ConflictRef × ConflictRef} (h : IsProposalOf stored q) :
    q = (older, newer) := by
  have hrefs := h.2
  unfold proposalRefs at hrefs
  rw [ha, hb, Option.bind_some, Option.bind_some] at hrefs
  split at hrefs
  · next a b ha' hb' =>
      rw [Option.some.injEq] at hrefs
      rw [← hrefs, ConflictRef.eq_of_fromJson ha',
        ConflictRef.eq_of_fromJson hb']
  · cases hrefs

theorem FreshInv.append {s : SweepState} (hinv : FreshInv s)
    (hsweep : SweepInv s) (m : Mint) : FreshInv (s.append m) := by
  cases hphase : s.phase with
  | cleared c h todo older newer v =>
      obtain ⟨hknows, hfresh⟩ :
          KnowsOpen s.store.log c.openPairs
              (Sees c.index (h.subject :: todo)) ∧ HandFresh c h := by
        have := hinv.phase
        rw [hphase] at this
        exact this
      have hat : AtPair h older newer := by
        have := hsweep.phase
        rw [hphase] at this
        exact this.2
      obtain ⟨pair, rest, hleft, hpair⟩ := hat
      have hkey : older.unorderedPairKey newer = pairKeyOf pair := by
        rcases hpair with ⟨rfl, rfl⟩ | ⟨rfl, rfl⟩
        · rfl
        · exact ConflictRef.unorderedPairKey_comm _ _
      obtain ⟨hsubject, hindex, hnotOpen⟩ := hfresh.pairs pair
        (by rw [hleft]; exact List.mem_cons_self)
      have hsees : Sees c.index (h.subject :: todo) pair.1 ∧
          Sees c.index (h.subject :: todo) pair.2 :=
        ⟨.inl ⟨h.subject, List.mem_cons_self, hsubject.symm⟩, .inr hindex⟩
      rcases append_steps m hphase with heq | ⟨stored, hs, heq⟩
      · rw [heq]
        exact hinv.rephase rfl rfl trivial
      · obtain ⟨htype, ha, hb⟩ := refs_of_stored hs
        have hnew : ∀ q, IsProposalOf stored q →
            ∀ e ∈ s.store.log, ∀ p, IsProposalOf e p → ¬ SamePair p q := by
          intro q hq e he p hp hsame
          obtain rfl := refs_of_isProposalOf ha hb hq
          have hseen : Sees c.index (h.subject :: todo) p.1 ∧
              Sees c.index (h.subject :: todo) p.2 := by
            rcases hsame with ⟨h₁, h₂⟩ | ⟨h₁, h₂⟩ <;>
              rcases hpair with ⟨rfl, rfl⟩ | ⟨rfl, rfl⟩ <;>
                rw [h₁, h₂]
            · exact hsees
            · exact hsees.symm
            · exact hsees.symm
            · exact hsees
          have hin := hknows e he p hp hseen.1 hseen.2
          rw [hsame.key, hkey] at hin
          exact hnotOpen hin
        have hkeys := hfresh.keys
        rw [hleft, List.map_cons, List.nodup_cons] at hkeys
        have hsettle : h.settle (.proposed m.id) =
            { h with left := rest
                     fates := h.fates ++ [(pair, .proposed m.id)] } := by
          rw [InHand.settle, hleft]
        rw [heq, hsettle]
        refine ⟨hinv.distinct.push hnew, hinv.dense, ?_, ?_, hkeys.2⟩
        · intro ev hev refs hprop h₁ h₂
          rcases List.mem_append.mp hev with hold | hlast
          · exact List.mem_cons_of_mem _ (hknows ev hold refs hprop h₁ h₂)
          · obtain rfl := List.mem_singleton.mp hlast
            obtain rfl := refs_of_isProposalOf ha hb hprop
            exact List.mem_cons_self
        · intro q hq
          obtain ⟨h₁, h₂, h₃⟩ := hfresh.pairs q
            (by rw [hleft]; exact List.mem_cons_of_mem pair hq)
          refine ⟨h₁, h₂, fun hin => ?_⟩
          rcases List.mem_cons.mp hin with hsame | hold
          · refine hkeys.1 ?_
            rw [← hkey, ← hsame]
            exact List.mem_map_of_mem hq
          · exact h₃ hold
  | idle | scanned | indexed | sweeping | judging | contradicted =>
      rwa [SweepState.append, hphase]

theorem FreshInv.advance {s : SweepState} (hinv : FreshInv s) :
    FreshInv s.advance := by
  unfold SweepState.advance
  split
  · next c h todo hphase =>
      have hknows := hinv.phase
      rw [hphase] at hknows
      split
      · exact hinv
      · split
        · exact hinv.rephase rfl rfl trivial
        · refine hinv.rephase rfl rfl (hknows.1.mono fun r hr => ?_)
          rcases hr with ⟨t, ht, rfl⟩ | hvec
          · exact .inl ⟨t, List.mem_cons_of_mem _ ht, rfl⟩
          · exact .inr hvec
  · exact hinv

/-- The invariant, a step that leaves the memories of a scan current. -/
theorem FreshInv.exec {s : SweepState} (hinv : FreshInv s)
    (hsweep : SweepInv s) (d : Detector D) {i : SweepStep}
    (hok : LeavesCurrent s i) : FreshInv (s.exec d i) := by
  cases i with
  | owner op => exact hinv.own hok
  | scan enabled detectedAt => exact hinv.scan enabled detectedAt
  | rebuild => exact hinv.rebuild d
  | lookup => exact hinv.lookup d
  | take => exact hinv.take d
  | judge passageText reasoner => exact hinv.judge d passageText reasoner
  | check => exact hinv.check
  | append m => exact hinv.append hsweep m
  | advance => exact hinv.advance
  | abort => exact hinv.rephase rfl rfl trivial
  | restart => exact hinv.rephase rfl rfl trivial

theorem freshInv_run (d : Detector D) {steps : List SweepStep}
    (h : Trace.Meets (SweepState.exec d) LeavesCurrent .start steps) :
    FreshInv (Trace.run (SweepState.exec d) .start steps) := by
  have hstart : SweepInv .start ∧ FreshInv .start :=
    ⟨sweepInv_start, List.Pairwise.nil,
      fun r hr => (by cases hr), trivial⟩
  refine (Trace.run_inv_of_meets (fun s => SweepInv s ∧ FreshInv s)
    (fun s i hs hok => ⟨hs.1.exec d i, hs.2.exec hs.1 d hok⟩) hstart h).2

/-- No two open proposals are of one pair. -/
theorem open_distinct {st : Store} (h : DistinctPairs st.log) :
    (openConflictProposals st).Pairwise fun p q =>
      ¬ SamePair (p.aRef, p.bRef) (q.aRef, q.bRef) := by
  refine List.Pairwise.filter _ ?_
  have hlog := List.Pairwise.filter
    (fun ev : Event => [conflictProposalEventType].contains ev.eventType) h
  refine List.Pairwise.filterMap proposalOf ?_
    (List.Pairwise.and_mem.mp hlog)
  rintro e e' ⟨he, he', hne⟩ p hp q hq
  have htype : ∀ {ev : Event}, ev ∈ st.log.filter
      (fun ev => [conflictProposalEventType].contains ev.eventType) →
      ev.eventType = conflictProposalEventType := by
    intro ev hev
    have := (List.mem_filter.mp hev).2
    simpa using this
  exact hne _ _ ⟨htype he, (proposalOf_some hp).2⟩
    ⟨htype he', (proposalOf_some hq).2⟩

/-! ## A memory ahead of the cursor -/

/-- A list of subjects in order, which lists `cs` or ends before it. -/
def Due (cs : ConflictSubject) (todo : List ConflictSubject) : Prop :=
  todo.Pairwise (fun t t' => PosLt t.position t'.position) ∧
    (cs ∈ todo ∨ ∀ t ∈ todo, PosLt t.position cs.position)

/-- The subject in hand is `cs`, or comes before it. -/
def DueInHand (cs : ConflictSubject) (h : InHand)
    (todo : List ConflictSubject) : Prop :=
  h.subject = cs ∨ (PosLt h.subject.position cs.position ∧ Due cs todo)

/-- The cycle has `cs` before it, phase by phase. -/
def DuePhase (cs : ConflictSubject) : Phase → Prop
  | .idle _ => True
  | .scanned _ subjects => Due cs subjects
  | .indexed _ subjects _ => Due cs subjects
  | .sweeping _ todo => Due cs todo
  | .judging _ h todo => DueInHand cs h todo
  | .contradicted _ h todo _ _ _ => DueInHand cs h todo
  | .cleared _ h todo _ _ _ => DueInHand cs h todo

/-- Since the record had `n` entries `cs` was examined, or it is still
ahead. -/
def AheadInv (cs : ConflictSubject) (n : Nat) (s : SweepState) : Prop :=
  (∃ x ∈ s.examined.drop n, x.subject = cs) ∨
    (PosLe (conflictCursor s.store) cs.position ∧ DuePhase cs s.phase)

/-! ### The order of a scan -/

theorem pairwise_subjectsOfRow (st : Store) (q offset : Nat)
    (row : Nat × Event) :
    (subjectsOfRow st q offset row).Pairwise fun t t' =>
      PosLt t.position t'.position := by
  unfold subjectsOfRow
  dsimp only
  generalize (if row.1 = q then offset else 0) = skip
  split
  · split
    · exact List.pairwise_singleton _ _
    · exact List.Pairwise.nil
  · split
    · exact List.Pairwise.nil
    · have hlt : (List.range' skip
          (sessionPassageCount st row.2.id - skip)).Pairwise (· < ·) :=
        List.pairwise_lt_range'
      rw [List.pairwise_map]
      exact (hlt.filter _).imp fun h => .inr ⟨rfl, h⟩

/-- A scan lists its subjects in the order of their positions. -/
theorem pairwise_subjects (st : Store) (q offset limit : Nat) :
    (unprocessedConflictSubjectsSince st q offset limit).Pairwise
      fun t t' => PosLt t.position t'.position := by
  rw [unprocessedConflictSubjectsSince, List.pairwise_flatMap]
  refine ⟨fun row _ => pairwise_subjectsOfRow st q offset row, ?_⟩
  have hrows := List.Pairwise.and_mem.mp
    ((pairwise_rowsSince st.log q).sublist (List.take_sublist limit _))
  refine hrows.imp ?_
  rintro row row' ⟨hrow, hrow', hlt⟩ t ht t' ht'
  have htype := (mem_rowsSince.1 (List.mem_of_mem_take hrow)).2.1
  have htype' := (mem_rowsSince.1 (List.mem_of_mem_take hrow')).2.1
  have hseq := ((mem_subjectsOfRow htype).mp ht).1.seq_eq
  have hseq' := ((mem_subjectsOfRow htype').mp ht').1.seq_eq
  refine .inl ?_
  show t.seq < t'.seq
  omega

theorem rowsUpTo_mono (log : EventLog) (q : Nat) {a b : Nat} (h : a ≤ b) :
    rowsUpTo log q a ≤ rowsUpTo log q b := by
  refine List.countP_mono_left fun row _ hrow => ?_
  rw [decide_eq_true_eq] at hrow ⊢
  omega

/-- A scan from before a subject lists it, or ends before it. -/
theorem due_scan {st : Store} {cs : ConflictSubject} (hcs : IsSubject st cs)
    (hle : PosLe (conflictCursor st) cs.position) :
    Due cs (nextSubjects st) := by
  refine ⟨pairwise_subjects _ _ _ _, ?_⟩
  by_cases hreach :
      rowsUpTo st.log (conflictCursor st).1 cs.seq ≤ conflictScanBound
  · exact .inl (mem_subjects_iff.2 ⟨hcs, hle, hreach⟩)
  · refine .inr fun t ht => .inl ?_
    have htReach := (mem_subjects_iff.1 ht).2.2
    show t.seq < cs.seq
    by_contra hnot
    have := rowsUpTo_mono st.log (conflictCursor st).1
      (Nat.le_of_not_lt hnot)
    omega

/-- Where the cursor stands at a subject, the scan lists it first. -/
theorem head_scan {st : Store} {cs : ConflictSubject} (hcs : IsSubject st cs)
    (hat : conflictCursor st = cs.position) :
    (nextSubjects st).head? = some cs := by
  have hone : rowsUpTo st.log (conflictCursor st).1 cs.seq ≤
      conflictScanBound := by
    obtain ⟨row, hnum, hsub⟩ := hcs
    have hseq := hsub.seq_eq
    have hq : (conflictCursor st).1 = cs.seq := by rw [hat]; rfl
    have hrow : row ∈ rowsSince st.log cs.seq :=
      mem_rowsSince.2 ⟨hnum, hsub.type, by omega⟩
    obtain ⟨pre, post, hsplit⟩ := List.append_of_mem hrow
    have hpair := pairwise_rowsSince st.log cs.seq
    rw [hsplit, List.pairwise_append, List.pairwise_cons] at hpair
    have hpre : pre = [] := by
      rw [List.eq_nil_iff_forall_not_mem]
      intro r hr
      have hlt := hpair.2.2 r hr row List.mem_cons_self
      have hge : cs.seq ≤ r.1 := by
        have : r ∈ rowsSince st.log cs.seq := by
          rw [hsplit]
          exact List.mem_append_left _ hr
        exact (mem_rowsSince.1 this).2.2
      omega
    have hpost : post.countP (fun r => decide (r.1 ≤ cs.seq)) = 0 := by
      rw [List.countP_eq_zero]
      intro r hr
      have hlt := hpair.2.1.1 r hr
      rw [decide_eq_true_eq]
      omega
    rw [hq, rowsUpTo, hsplit, hpre, List.nil_append, List.countP_cons, hpost]
    split <;> exact (by decide)
  have hmem : cs ∈ nextSubjects st :=
    mem_subjects_iff.2 ⟨hcs, by rw [← hat]; exact .refl _, hone⟩
  have hpair := pairwise_subjects st (conflictCursor st).1
    (conflictCursor st).2 conflictScanBound
  cases hlist : nextSubjects st with
  | nil =>
      rw [hlist] at hmem
      cases hmem
  | cons t rest =>
      rw [List.head?_cons]
      have ht : t ∈ nextSubjects st := by
        rw [hlist]
        exact List.mem_cons_self
      rw [hlist] at hmem
      rcases List.mem_cons.mp hmem with rfl | hrest
      · rfl
      · have hlt : PosLt t.position cs.position := by
          have hcons : (t :: rest).Pairwise fun t t' =>
              PosLt t.position t'.position := by
            rw [← hlist]
            exact hpair
          exact List.rel_of_pairwise_cons hcons hrest
        have hge : PosLe cs.position t.position := by
          have := (mem_subjects_iff.1 ht).2.1
          rw [← hat]
          exact this
        unfold PosLt at hlt
        unfold PosLe at hge
        omega

/-! ### The steps -/

theorem Due.tail {cs t : ConflictSubject} {rest : List ConflictSubject}
    (h : Due cs (t :: rest)) :
    t = cs ∨ (PosLt t.position cs.position ∧ Due cs rest) := by
  obtain ⟨hpair, hin⟩ := h
  rw [List.pairwise_cons] at hpair
  rcases hin with hmem | hbefore
  · rcases List.mem_cons.mp hmem with rfl | hrest
    · exact .inl rfl
    · exact .inr ⟨hpair.1 cs hrest, hpair.2, .inl hrest⟩
  · exact .inr ⟨hbefore t List.mem_cons_self, hpair.2,
      .inr fun t' ht' => hbefore t' (List.mem_cons_of_mem t ht')⟩

/-- The record only grows. -/
theorem examined_mono (d : Detector D) (s : SweepState) (i : SweepStep) :
    ∃ more, (s.exec d i).examined = s.examined ++ more := by
  by_cases hi : i.OfCycle
  · rcases cursor_of_cycle d s hi with ⟨-, heq⟩ | ⟨x, heq, -⟩
    · exact ⟨[], by rw [heq, List.append_nil]⟩
    · exact ⟨[x], heq⟩
  · refine ⟨[], ?_⟩
    rw [List.append_nil]
    rcases SweepStep.owner_or_restart hi with ⟨op, rfl⟩ | rfl
    · exact (own_frame s op).2
    · rfl

/-- The cycle still has the subject before it after a step that leaves the
cursor. -/
theorem duePhase_exec (d : Detector D) {s : SweepState} {cs : ConflictSubject}
    (hcs : IsSubject s.store cs)
    (hle : PosLe (conflictCursor s.store) cs.position)
    (hdue : DuePhase cs s.phase) {i : SweepStep} (hi : i.OfCycle) :
    (∃ x, (s.exec d i).examined = s.examined ++ [x] ∧ x.subject = cs) ∨
      (PosLe (conflictCursor (s.exec d i).store) cs.position ∧
        DuePhase cs (s.exec d i).phase) := by
  have hsettled : ∀ {h : InHand} {todo : List ConflictSubject} (fate : Fate),
      DueInHand cs h todo → DueInHand cs (h.settle fate) todo := by
    intro h todo fate hhand
    unfold DueInHand
    rw [settle_subject]
    exact hhand
  cases i with
  | owner op => exact absurd hi id
  | restart => exact absurd hi id
  | scan enabled detectedAt =>
      right
      simp only [SweepState.exec, SweepState.scan]
      split
      · split
        · have hscan := due_scan hcs hle
          split
          · exact ⟨hle, trivial⟩
          · exact ⟨hle, hscan⟩
        · exact ⟨hle, trivial⟩
      · exact ⟨hle, hdue⟩
  | rebuild =>
      right
      simp only [SweepState.exec, SweepState.rebuild]
      split
      · next detectedAt subjects hphase =>
          rw [hphase] at hdue
          split
          · exact ⟨hle, trivial⟩
          · exact ⟨hle, hdue⟩
      · exact ⟨hle, hdue⟩
  | lookup =>
      right
      simp only [SweepState.exec, SweepState.lookup]
      split
      · next detectedAt subjects index hphase =>
          rw [hphase] at hdue
          exact ⟨hle, hdue⟩
      · exact ⟨hle, hdue⟩
  | take =>
      right
      simp only [SweepState.exec, SweepState.take]
      split
      · exact ⟨hle, trivial⟩
      · next c t todo hphase =>
          rw [hphase] at hdue
          have hhand : ∀ found, DueInHand cs (.take t found) todo :=
            fun _ => Due.tail hdue
          split
          · exact ⟨hle, trivial⟩
          · exact ⟨hle, hhand _⟩
          · split
            · exact ⟨hle, trivial⟩
            · exact ⟨hle, hhand _⟩
      · exact ⟨hle, hdue⟩
  | judge passageText reasoner =>
      right
      simp only [SweepState.exec, SweepState.judge]
      split
      · next c h todo hphase =>
          have hhand : DueInHand cs h todo := by
            rw [hphase] at hdue
            exact hdue
          split
          · exact ⟨hle, hdue⟩
          · split
            · exact ⟨hle, hsettled _ hhand⟩
            · split
              · split
                · exact ⟨hle, hhand⟩
                · exact ⟨hle, hsettled _ hhand⟩
                · exact ⟨hle, hsettled (.failed _) hhand⟩
              · exact ⟨hle, hsettled _ hhand⟩
      · exact ⟨hle, hdue⟩
  | check =>
      right
      simp only [SweepState.exec, SweepState.check]
      split
      · next c h todo older newer v hphase =>
          rw [hphase] at hdue
          split
          · exact ⟨hle, hsettled _ hdue⟩
          · split
            · exact ⟨hle, hsettled _ hdue⟩
            · exact ⟨hle, hdue⟩
      · exact ⟨hle, hdue⟩
  | append m =>
      right
      show PosLe (conflictCursor (s.append m).store) cs.position ∧
        DuePhase cs (s.append m).phase
      cases hphase : s.phase with
      | cleared c h todo older newer v =>
          rw [hphase] at hdue
          rcases append_steps m hphase with heq | ⟨stored, hs, heq⟩
          · rw [heq]
            exact ⟨hle, trivial⟩
          · rw [heq]
            exact ⟨hle, hsettled _ hdue⟩
      | idle | scanned | indexed | sweeping | judging | contradicted =>
          rw [SweepState.append, hphase]
          exact ⟨hle, hdue⟩
  | advance =>
      simp only [SweepState.exec, SweepState.advance]
      split
      · next c h todo hphase =>
          have hhand : DueInHand cs h todo := by
            rw [hphase] at hdue
            exact hdue
          split
          · exact .inr ⟨hle, hdue⟩
          · split
            · exact .inr ⟨hle, trivial⟩
            · rcases hhand with heq | ⟨hlt, hrest⟩
              · exact .inl ⟨_, rfl, heq⟩
              · exact .inr ⟨hlt.succ_le, hrest⟩
      · exact .inr ⟨hle, hdue⟩
  | abort => exact .inr ⟨hle, trivial⟩

/-- The invariant, a step from a state in which the memory is current. -/
theorem AheadInv.exec {s : SweepState} {cs : ConflictSubject} {n : Nat}
    (hn : n ≤ s.examined.length) (hinv : AheadInv cs n s)
    (hcs : IsSubject s.store cs) (d : Detector D) (i : SweepStep) :
    AheadInv cs n (s.exec d i) := by
  rcases hinv with ⟨x, hx, hsub⟩ | ⟨hle, hdue⟩
  · obtain ⟨more, hmore⟩ := examined_mono d s i
    left
    refine ⟨x, ?_, hsub⟩
    rw [hmore, List.drop_append_of_le_length hn]
    exact List.mem_append_left more hx
  · by_cases hi : i.OfCycle
    · rcases duePhase_exec d hcs hle hdue hi with ⟨x, hexam, hx⟩ | hright
      · left
        refine ⟨x, ?_, hx⟩
        rw [hexam, List.drop_append_of_le_length hn]
        exact List.mem_append_right _ List.mem_cons_self
      · exact .inr hright
    · right
      rcases SweepStep.owner_or_restart hi with ⟨op, rfl⟩ | rfl
      · refine ⟨(own_grows s op).cursor.trans hle, ?_⟩
        show DuePhase cs (s.own op).phase
        rw [(own_frame s op).1]
        exact hdue
      · exact ⟨hle, trivial⟩

/-- No run moves the cursor past the memory without examining it, as long as
the memory stays current. -/
def Revisits (d : Detector D) (s : SweepState) (cs : ConflictSubject) :
    Prop :=
  ∀ rest : List SweepStep,
    (∀ n, IsSubject
      (Trace.run (SweepState.exec d) s (rest.take n)).store cs) →
    PosLe (conflictCursor (Trace.run (SweepState.exec d) s rest).store)
        cs.position ∨
      ∃ x ∈ (Trace.run (SweepState.exec d) s rest).examined.drop
        s.examined.length, x.subject = cs

theorem aheadInv_run (d : Detector D) {cs : ConflictSubject} {n : Nat}
    (rest : List SweepStep) : ∀ {s : SweepState}, n ≤ s.examined.length →
      AheadInv cs n s →
      (∀ k, IsSubject
        (Trace.run (SweepState.exec d) s (rest.take k)).store cs) →
      AheadInv cs n (Trace.run (SweepState.exec d) s rest) := by
  induction rest with
  | nil => exact fun _ hinv _ => hinv
  | cons i rest ih =>
      intro s hn hinv hcur
      obtain ⟨more, hmore⟩ := examined_mono d s i
      refine ih (s := s.exec d i) ?_ (hinv.exec hn (hcur 0) d i)
        fun k => hcur (k + 1)
      rw [hmore, List.length_append]
      omega

theorem revisits_of_idle (d : Detector D) {s : SweepState}
    {cs : ConflictSubject} {report : ConflictDetectReport}
    (hidle : s.phase = .idle report)
    (hle : PosLe (conflictCursor s.store) cs.position) :
    Revisits d s cs := by
  intro rest hcur
  have hinv : AheadInv cs s.examined.length s := by
    refine .inr ⟨hle, ?_⟩
    rw [hidle]
    trivial
  rcases aheadInv_run d rest (Nat.le_refl _) hinv hcur with hexam | ⟨h, -⟩
  · exact .inr hexam
  · exact .inl h

end AirNote
