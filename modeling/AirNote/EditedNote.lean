import AirNote.Detector

/-!
# A note edited again and again

An edit supersedes the note it replaces, and both stay in the log. A note
that was edited `n` times leaves `n` memories that are not current before the
one that is. The readers of the log that look at a bounded number of events,
or of candidates, see the old ones first.

The mints are those of a run: the identifiers are distinct by their lengths.

## Main results

* `edited_run` — the log after a note and `n` edits of it.
* `Edited.current_iff` — the only current note is the last.
-/

namespace AirNote

open Lib

/-! ## The identifiers of a run -/

/-- The identifier of the `k`-th event. -/
def chainId (k : Nat) : String := String.ofList (List.replicate k 'x')

/-- The mint of the `k`-th event. -/
def chainMint (k : Nat) : Mint := .plain (chainId k)

theorem chainId_injective {j k : Nat} (h : chainId j = chainId k) :
    j = k := by
  have hlist : List.replicate j 'x' = List.replicate k 'x' :=
    String.ofList_inj.mp h
  have hlen := congrArg List.length hlist
  simpa using hlen

/-- The events of the log carry the first `k` identifiers. -/
def Chain (k : Nat) (log : EventLog) : Prop :=
  ∀ e ∈ log, ∃ j < k, e.id = chainId j ∧ hashColumn e = chainId j

/-- The event stored under the `k`-th mint. -/
def chained (k : Nat) (log : EventLog) (event : Event) : Event :=
  { linkedEvent (chainMint k) log event with
    hash := some (chainId k), signature := some (chainId k) }

theorem appendEventInTx_chain {k : Nat} {log : EventLog} (h : Chain k log)
    (event : Event) :
    appendEventInTx (chainMint k) log event =
      .ok (log ++ [chained k log event], chainId k) := by
  have hid : ¬ (log.any fun e => e.id == chainId k) = true := by
    rw [List.any_eq_true]
    rintro ⟨e, he, heq⟩
    obtain ⟨j, hj, hej, -⟩ := h e he
    have := chainId_injective (hej.symm.trans (beq_iff_eq.mp heq))
    omega
  have hhash : ¬ (log.any fun e => hashColumn e == chainId k) = true := by
    rw [List.any_eq_true]
    rintro ⟨e, he, heq⟩
    obtain ⟨j, hj, -, hej⟩ := h e he
    have := chainId_injective (hej.symm.trans (beq_iff_eq.mp heq))
    omega
  show (if (log.any fun e => e.id == chainId k) = true then _ else _) = _
  rw [if_neg hid]
  show (if (log.any fun e => hashColumn e == chainId k) = true then _
    else _) = _
  rw [if_neg hhash]
  rfl

theorem Chain.append {k : Nat} {log : EventLog} (h : Chain k log)
    (event : Event) : Chain (k + 1) (log ++ [chained k log event]) := by
  intro e he
  rcases List.mem_append.mp he with hold | hnew
  · obtain ⟨j, hj, hids⟩ := h e hold
    exact ⟨j, by omega, hids⟩
  · obtain rfl := List.mem_singleton.mp hnew
    exact ⟨k, by omega, rfl, rfl⟩

/-- A draft without lineage is stored with its content. -/
theorem chained_content {k : Nat} {log : EventLog} {event : Event}
    (h : event.modelMeta = none) :
    (chained k log event).content = event.content :=
  stampedContent_of_none h

/-! ## The log of an edited note -/

theorem numbered_append (log : EventLog) (ev : Event) :
    numbered (log ++ [ev]) = numbered log ++ [(log.length + 1, ev)] := by
  simp [numbered, List.zipIdx_append, Nat.add_comm]

theorem rowsSince_append {log : EventLog} {ev : Event} :
    rowsSince (log ++ [ev]) 0 = rowsSince log 0 ++
      if isSubjectType ev.eventType then [(log.length + 1, ev)] else [] := by
  unfold rowsSince
  rw [numbered_append, List.filter_append]
  congr 1
  cases h : isSubjectType ev.eventType <;> simp [h]

/-- The store after a note and `n` edits: `olds` are the rows of the notes
that were replaced, `head` is the row of the last. -/
structure Edited (n : Nat) (st : Store) (olds : List (Nat × Event))
    (head : Nat × Event) : Prop where
  chain : Chain (2 * n + 1) st.log
  unique : UniqueIds st.log
  rows : rowsSince st.log 0 = olds ++ [head]
  length_eq : olds.length = n
  replaced : ∀ row ∈ olds, ∃ s ∈ st.log, Supersedes row.2.id s
  head_mem : head.2 ∈ st.log
  head_id : head.2.id = chainId (2 * n)
  head_type : head.2.eventType = memoryEventType
  standing : ∀ s ∈ st.log, ∀ k, Supersedes (chainId k) s → k < 2 * n
  kinds : ∀ e ∈ st.log,
    e.eventType = memoryEventType ∨ e.eventType = supersedeEventType
  cursor : st.conflictCursor = none

/-- The text of the note. -/
def editedText : String := "deploy on fly"

/-- The note is remembered. -/
def rememberOnce (emb : Embedder) : MemoryOp :=
  .remember emb (chainMint 0) editedText

/-- The `n`-th edit. -/
def editAgain (emb : Embedder) (n : Nat) : MemoryOp :=
  .supersedeNote emb (chainMint (2 * n + 1)) (chainMint (2 * n + 2))
    (chainId (2 * n)) editedText

/-- A note and `n` edits of it. -/
def editsOf (emb : Embedder) : Nat → List MemoryOp
  | 0 => [rememberOnce emb]
  | n + 1 => editsOf emb n ++ [editAgain emb n]

theorem derived_cursor (emb : Embedder) (r : Outcome String) :
    (derived emb r).1.conflictCursor = r.1.conflictCursor := by
  obtain ⟨st, res⟩ := r
  cases res with
  | error e => rfl
  | ok id =>
      simp only [derived, deriveVectorFor]
      cases eventById st.log id with
      | none => rfl
      | some ev =>
          simp only [deriveVector]
          cases embeddableText ev with
          | none => rfl
          | some text =>
              dsimp only
              cases emb.embed text <;> rfl

theorem rejectBlank_editedText : rejectBlankNoteText editedText = .ok () := by
  decide +kernel

theorem exec_unique {st : Store} (h : UniqueIds st.log) (op : MemoryOp) :
    UniqueIds (op.exec st).log := by
  obtain ⟨drafts, -, hlogged⟩ := op.exec_appends st
  exact hlogged.uniqueIds h

theorem edited_zero (emb : Embedder) :
    ∃ head, Edited 0 ((rememberOnce emb).exec .empty) [] head := by
  let ev := chained 0 [] (externalNoteEvent editedText)
  have hnil : Chain 0 [] := fun e he => by cases he
  have happ : Store.empty.append (chainMint 0) (externalNoteEvent editedText) =
      ({ Store.empty with log := [ev] }, .ok (chainId 0)) := by
    have hok : append (chainMint 0) [] (externalNoteEvent editedText) =
        .ok ([ev], chainId 0) := appendEventInTx_chain hnil _
    rw [Store.append, show Store.empty.log = [] from rfl, hok]
  have hexec : (rememberOnce emb).exec .empty =
      (derived emb ({ Store.empty with log := [ev] }, .ok (chainId 0))).1 := by
    show (remember emb (chainMint 0) .empty editedText).1 = _
    rw [remember, rejectBlank_editedText]
    dsimp only
    rw [happ]
  have hlog : ((rememberOnce emb).exec .empty).log = [ev] := by
    rw [hexec, derived_log]
  refine ⟨(1, ev), ?_⟩
  constructor
  case chain => rw [hlog]; exact hnil.append _
  case unique => exact exec_unique uniqueIds_nil _
  case rows => rw [hlog]; rfl
  case length_eq => rfl
  case replaced => intro row hrow; cases hrow
  case head_mem => rw [hlog]; exact List.mem_singleton.mpr rfl
  case head_id => rfl
  case head_type => rfl
  case standing =>
    rw [hlog]
    intro s hs k hsup
    obtain rfl := List.mem_singleton.mp hs
    exact absurd hsup.1 (by decide)
  case kinds =>
    rw [hlog]
    intro e he
    obtain rfl := List.mem_singleton.mp he
    exact .inl rfl
  case cursor => rw [hexec, derived_cursor]; rfl

/-- What the `n`-th edit leaves. -/
theorem Edited.exec_eq {n : Nat} {st : Store} {olds : List (Nat × Event)}
    {head : Nat × Event} (h : Edited n st olds head) (emb : Embedder) :
    ∃ mark ev : Event,
      mark = chained (2 * n + 1) st.log
        (groundTruthSupersedeEvent (chainId (2 * n))) ∧
      ev = chained (2 * n + 2) (st.log ++ [mark])
        (externalNoteEvent editedText) ∧
      (editAgain emb n).exec st =
        (derived emb ({ st with log := st.log ++ [mark] ++ [ev] },
          .ok (chainId (2 * n + 2)))).1 := by
  refine ⟨_, _, rfl, rfl, ?_⟩
  let mark := chained (2 * n + 1) st.log
    (groundTruthSupersedeEvent (chainId (2 * n)))
  let ev := chained (2 * n + 2) (st.log ++ [mark])
    (externalNoteEvent editedText)
  have hok : appendPair (chainMint (2 * n + 1)) (chainMint (2 * n + 2))
      st.log (groundTruthSupersedeEvent (chainId (2 * n)))
      (externalNoteEvent editedText) =
      .ok (st.log ++ [mark] ++ [ev], chainId (2 * n + 1),
        chainId (2 * n + 2)) := by
    have htier₁ : rejectEmptyTierB
        (groundTruthSupersedeEvent (chainId (2 * n))) = .ok () := rfl
    have htier₂ : rejectEmptyTierB (externalNoteEvent editedText) = .ok () :=
      rfl
    rw [appendPair, htier₁, htier₂]
    dsimp only
    rw [appendEventInTx_chain h.chain]
    dsimp only
    rw [appendEventInTx_chain (h.chain.append _)]
  have hfind : eventById st.log (chainId (2 * n)) = some head.2 := by
    rw [← h.head_id]
    exact eventById_of_mem h.unique h.head_mem
  have hlive : (supersededEventIds st.log).contains (chainId (2 * n)) =
      false := by
    rw [Bool.eq_false_iff]
    intro hin
    rw [List.contains_iff_mem, supersededEventIds, List.mem_filterMap] at hin
    obtain ⟨s, hs, hsup⟩ := hin
    obtain ⟨hmem, htype⟩ := mem_eventsOfTypes.1 hs
    have := h.standing s hmem _ ⟨List.mem_singleton.mp htype, hsup⟩
    omega
  show (supersedeNote emb (chainMint (2 * n + 1)) (chainMint (2 * n + 2)) st
    (chainId (2 * n)) editedText).1 = _
  rw [supersedeNote, rejectBlank_editedText]
  simp only [hfind, h.head_type, ne_eq, not_true, if_false, hlive,
    Bool.false_eq_true, Store.appendPair, hok]
  rfl

theorem Edited.succ {n : Nat} {st : Store} {olds : List (Nat × Event)}
    {head : Nat × Event} (h : Edited n st olds head) (emb : Embedder) :
    ∃ head', Edited (n + 1) ((editAgain emb n).exec st) (olds ++ [head])
      head' := by
  obtain ⟨mark, ev, hmark, hev, hexec⟩ := h.exec_eq emb
  have hlog : ((editAgain emb n).exec st).log =
      st.log ++ [mark] ++ [ev] := by
    rw [hexec, derived_log]
  have hmarkType : mark.eventType = supersedeEventType := by
    rw [hmark]
    rfl
  have hevType : ev.eventType = memoryEventType := by
    rw [hev]
    rfl
  have hmarks : ∀ id, Supersedes id mark ↔ id = chainId (2 * n) := by
    intro id
    have hcontent : mark.content.getStr? "supersedes" =
        some (chainId (2 * n)) := by
      rw [hmark, chained_content rfl]
      rfl
    simp only [Supersedes, hmarkType, hcontent, Option.some.injEq, true_and]
    exact eq_comm
  have hmem : ∀ e, e ∈ st.log ++ [mark] ++ [ev] ↔
      e ∈ st.log ∨ e = mark ∨ e = ev := by
    intro e
    simp
  refine ⟨(st.log.length + 2, ev), ?_⟩
  constructor
  case chain =>
    rw [hlog, hev, hmark]
    exact (h.chain.append _).append _
  case unique => exact exec_unique h.unique _
  case rows =>
    rw [hlog, rowsSince_append, rowsSince_append, h.rows, hmarkType, hevType]
    simp [isSubjectType, memoryEventType, supersedeEventType,
      sessionCapturedEventType]
  case length_eq => simp [h.length_eq]
  case replaced =>
    rw [hlog]
    intro row hrow
    rcases List.mem_append.mp hrow with hold | hhead
    · obtain ⟨s, hs, hsup⟩ := h.replaced row hold
      exact ⟨s, (hmem s).mpr (.inl hs), hsup⟩
    · obtain rfl := List.mem_singleton.mp hhead
      exact ⟨mark, (hmem mark).mpr (.inr (.inl rfl)),
        (hmarks _).mpr h.head_id⟩
  case head_mem =>
    rw [hlog]
    exact (hmem ev).mpr (.inr (.inr rfl))
  case head_id => rw [hev]; rfl
  case head_type => exact hevType
  case standing =>
    rw [hlog]
    intro s hs k hsup
    rcases (hmem s).mp hs with hold | rfl | rfl
    · have := h.standing s hold k hsup
      omega
    · have := chainId_injective ((hmarks _).mp hsup)
      omega
    · exact absurd (hsup.1.symm.trans hevType) (by decide)
  case kinds =>
    rw [hlog]
    intro e he
    rcases (hmem e).mp he with hold | rfl | rfl
    · exact h.kinds e hold
    · exact .inr hmarkType
    · exact .inl hevType
  case cursor => rw [hexec, derived_cursor]; exact h.cursor

/-- A note and its edits, in full. -/
theorem edited_run (emb : Embedder) (n : Nat) :
    ∃ olds head,
      Edited n (Trace.run MemoryOp.exec .empty (editsOf emb n)) olds head := by
  induction n with
  | zero =>
      obtain ⟨head, h⟩ := edited_zero emb
      exact ⟨[], head, h⟩
  | succ n ih =>
      obtain ⟨olds, head, h⟩ := ih
      obtain ⟨head', h'⟩ := h.succ emb
      rw [editsOf, Trace.run_append]
      exact ⟨olds ++ [head], head', h'⟩

/-! ## What is current -/

/-- A note that was replaced is not current. -/
theorem Edited.old_not_current {n : Nat} {st : Store}
    {olds : List (Nat × Event)} {head : Nat × Event}
    (h : Edited n st olds head) {row : Nat × Event} (hrow : row ∈ olds) :
    ¬ (currentNotes st.log).any (fun ev => ev.id == row.2.id) = true := by
  rw [List.any_eq_true]
  rintro ⟨ev, hev, hid⟩
  obtain ⟨-, -, hstanding, -⟩ := mem_currentNotes.1 hev
  rw [beq_iff_eq.mp hid] at hstanding
  exact hstanding (h.replaced row hrow)

/-- The last note is current. -/
theorem Edited.head_current {n : Nat} {st : Store}
    {olds : List (Nat × Event)} {head : Nat × Event}
    (h : Edited n st olds head) : head.2 ∈ currentNotes st.log := by
  rw [mem_currentNotes]
  refine ⟨h.head_mem, h.head_type, ?_, ?_⟩
  · rintro ⟨s, hs, hsup⟩
    rw [h.head_id] at hsup
    have := h.standing s hs _ hsup
    omega
  · rw [Bool.eq_false_iff]
    intro hret
    obtain ⟨e, he, htype, -⟩ :=
      Fold.exists_of_lastSets (refRetired_iff.1 hret)
    rcases h.kinds e he with hkind | hkind <;>
      exact absurd (hkind.symm.trans htype) (by decide)

/-- The last note is the only subject. -/
theorem Edited.subject_iff {n : Nat} {st : Store}
    {olds : List (Nat × Event)} {head : Nat × Event}
    (h : Edited n st olds head) {cs : ConflictSubject} :
    IsSubject st cs ↔ cs = ⟨head.1, 0, .note head.2.id⟩ := by
  have hhead : head ∈ rowsSince st.log 0 := by
    rw [h.rows]
    simp
  constructor
  · rintro ⟨row, hnum, hsub⟩
    have hrow : row ∈ rowsSince st.log 0 :=
      mem_rowsSince.2 ⟨hnum, hsub.type, Nat.zero_le _⟩
    rw [h.rows] at hrow
    cases hsub with
    | note seq ev htype hcur =>
        rcases List.mem_append.mp hrow with hold | hlast
        · exact absurd hcur (h.old_not_current hold)
        · obtain rfl := List.mem_singleton.mp hlast
          rfl
    | passage seq ev cur pid htype hcs hpid hlive =>
        obtain ⟨-, hget⟩ := mem_numbered.1 hnum
        rcases h.kinds ev (List.mem_of_getElem? hget) with hkind | hkind <;>
          exact absurd (hkind.symm.trans htype) (by decide)
  · rintro rfl
    refine ⟨head, (mem_rowsSince.1 hhead).1, ?_⟩
    exact .note head.1 head.2 h.head_type
      (List.any_eq_true.mpr ⟨head.2, h.head_current, beq_self_eq_true _⟩)

/-- Every event that was replaced stands before the last. -/
theorem Edited.rowsUpTo_head {n : Nat} {st : Store}
    {olds : List (Nat × Event)} {head : Nat × Event}
    (h : Edited n st olds head) : rowsUpTo st.log 0 head.1 = n + 1 := by
  have hpair := pairwise_rowsSince st.log 0
  rw [h.rows, List.pairwise_append] at hpair
  have hall : ∀ row ∈ olds ++ [head], decide (row.1 ≤ head.1) = true := by
    intro row hrow
    rw [decide_eq_true_eq]
    rcases List.mem_append.mp hrow with hold | hlast
    · exact Nat.le_of_lt (hpair.2.2 row hold head List.mem_cons_self)
    · obtain rfl := List.mem_singleton.mp hlast
      exact Nat.le_refl _
  rw [rowsUpTo, h.rows, List.countP_eq_length.mpr hall, List.length_append,
    h.length_eq]
  rfl

end AirNote
