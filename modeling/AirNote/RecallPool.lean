import AirNote.EditedNote
import AirNote.Projections
import AirNote.Recall

/-!
# Recall over the indexes

The candidates of a recall come from two indexes, each asked for a fixed
number of the best matches. Both are copies of the log as it was at their last
rebuild, superseded, retired and deleted entries included; what must not
surface is dropped from the candidates, before the truncation to `k`. The
pages and the files are current as of the last rebuild of their projections.

The nearest-neighbour search, the full-text search and the ranking are
arguments. Of the searches it is known that they answer entries of their
index, and no more of them than were asked for.

## Main results

* `recall_sound` — over runs: a recall answers current events, each once, and
  as many of those its arms surfaced as `k` allows.
* `recall_crowded_out` — superseded entries can fill what the arms fetch.
-/

namespace AirNote

open Lib

/-! ## Where the vectors come from -/

/-- An event of the log with a text to embed. -/
def EmbeddableIn (log : EventLog) (id : String) : Prop :=
  ∃ ev ∈ log, ev.id = id ∧ embeddableText ev ≠ none

theorem EmbeddableIn.mono {log log' : EventLog} {id : String}
    (h : EmbeddableIn log id) (hlog : ∃ suffix, log' = log ++ suffix) :
    EmbeddableIn log' id := by
  obtain ⟨suffix, rfl⟩ := hlog
  obtain ⟨ev, hev, hrest⟩ := h
  exact ⟨ev, List.mem_append_left suffix hev, hrest⟩

/-- The log grows, and every new vector is of an event of the log. -/
structure Fed (st st' : Store) : Prop where
  log : ∃ suffix, st'.log = st.log ++ suffix
  vectors : ∀ row ∈ st'.vectors,
    row ∈ st.vectors ∨ EmbeddableIn st'.log row.eventId

theorem Fed.of_vectors {st st' : Store}
    (hlog : ∃ suffix, st'.log = st.log ++ suffix)
    (hvectors : st'.vectors = st.vectors) : Fed st st' :=
  ⟨hlog, fun row hrow => .inl (by rwa [hvectors] at hrow)⟩

theorem Fed.refl (st : Store) : Fed st st := .of_vectors ⟨[], by simp⟩ rfl

theorem Fed.trans {a b c : Store} (h : Fed a b) (h' : Fed b c) : Fed a c := by
  obtain ⟨suffix, hlog⟩ := h.log
  obtain ⟨suffix', hlog'⟩ := h'.log
  refine ⟨⟨suffix ++ suffix', ?_⟩, fun row hrow => ?_⟩
  · rw [hlog', hlog, List.append_assoc]
  · rcases h'.vectors row hrow with hold | hnew
    · rcases h.vectors row hold with holder | hmid
      · exact .inl holder
      · exact .inr (hmid.mono h'.log)
    · exact .inr hnew

theorem fed_append (m : Mint) (st : Store) (event : Event) :
    Fed st (st.append m event).1 := by
  rcases st.append_cases m event with ⟨e, h⟩ | ⟨stored, -, h⟩
  · rw [h]
    exact .refl st
  · rw [h]
    exact .of_vectors ⟨[stored], rfl⟩ rfl

theorem fed_appendPair (m₁ m₂ : Mint) (st : Store) (first second : Event) :
    Fed st (st.appendPair m₁ m₂ first second).1 := by
  unfold Store.appendPair
  split
  · next log' ids h =>
      obtain ⟨log₁, h₁, h₂⟩ := appendPair_ok h
      obtain ⟨-, stored₁, -, rfl⟩ := appendEventInTx_ok h₁
      obtain ⟨-, stored₂, -, rfl⟩ := appendEventInTx_ok h₂
      exact .of_vectors ⟨[stored₁] ++ [stored₂], List.append_assoc _ _ _⟩ rfl
  · exact .refl st

theorem fed_deriveVector (emb : Embedder) {st : Store} {ev : Event}
    (hev : ev ∈ st.log) : Fed st (deriveVector emb st ev).1 := by
  unfold deriveVector
  cases htext : embeddableText ev with
  | none => exact .refl st
  | some text =>
      dsimp only
      cases emb.embed text with
      | error e => exact .refl st
      | ok blob =>
          refine ⟨⟨[], by simp⟩, fun row hrow => ?_⟩
          rcases List.mem_append.mp hrow with hold | hnew
          · exact .inl (List.mem_filter.mp hold).1
          · obtain rfl := List.mem_singleton.mp hnew
            exact .inr ⟨ev, hev, rfl, by rw [htext]; simp⟩

theorem fed_deriveVectorFor (emb : Embedder) (st : Store) (id : String) :
    Fed st (deriveVectorFor emb st id).1 := by
  unfold deriveVectorFor
  cases hev : eventById st.log id with
  | none => exact .refl st
  | some ev =>
      have hfed := fed_deriveVector emb (mem_of_eventById hev).1
      dsimp only
      generalize deriveVector emb st ev = out at hfed
      obtain ⟨st', res⟩ := out
      cases res <;> exact hfed

theorem fed_derived (emb : Embedder) (r : Outcome String) :
    Fed r.1 (derived emb r).1 := by
  obtain ⟨st, res⟩ := r
  cases res with
  | error e => exact .refl st
  | ok id =>
      have hfed := fed_deriveVectorFor emb st id
      unfold derived
      dsimp only
      generalize deriveVectorFor emb st id = out at hfed
      obtain ⟨st', res⟩ := out
      cases res <;> exact hfed

theorem fed_rederivePending (emb : Embedder) (st : Store) :
    Fed st (rederivePending emb st) := by
  unfold rederivePending
  refine Fold.foldl_inv (Fed st) (.refl st) fun s ev hev hs => ?_
  obtain ⟨suffix, hlog⟩ := hs.log
  have hmem : ev ∈ s.log := by
    rw [hlog]
    exact List.mem_append_left suffix (List.mem_filter.mp hev).1
  exact hs.trans (fed_deriveVector emb hmem)

theorem fed_supersedeNote (emb : Embedder) (m₁ m₂ : Mint) (st : Store)
    (target text : String) :
    Fed st (supersedeNote emb m₁ m₂ st target text).1 := by
  have hpair := fed_appendPair m₁ m₂ st (groundTruthSupersedeEvent target)
    (externalNoteEvent text)
  unfold supersedeNote
  split
  · exact .refl st
  · split
    · exact .refl st
    · split
      · exact .refl st
      · split
        · exact .refl st
        · generalize st.appendPair m₁ m₂ _ _ = out at hpair
          obtain ⟨st', res⟩ := out
          cases res with
          | error e => exact hpair
          | ok ids => exact hpair.trans (fed_derived emb (st', .ok ids.2))

theorem fed_captureSession (dateLabel : Int → String) (emb : Embedder)
    (m₁ m₂ : Mint) (st : Store) (sm : SessionMeta) :
    Fed st (captureSession dateLabel emb m₁ m₂ st sm).1 := by
  unfold captureSession
  split
  · exact .refl st
  · split
    · next prev hprev =>
        split
        · exact .refl st
        · have hpair := fed_appendPair m₁ m₂ st
            (groundTruthSupersedeEvent prev.eventId)
            (sessionCapturedEvent dateLabel sm)
          generalize st.appendPair m₁ m₂ _ _ = out at hpair
          obtain ⟨st', res⟩ := out
          cases res with
          | error e => exact hpair
          | ok ids => exact hpair.trans (fed_derived emb (st', .ok ids.2))
    · exact (fed_append m₁ st _).trans (fed_derived emb _)

theorem fed_rewind (st : Store) (seq within : Nat) :
    Fed st (rewindConflictCursor st seq within) := by
  unfold rewindConflictCursor
  dsimp only
  split
  · exact .of_vectors ⟨[], by simp⟩ rfl
  · exact .refl st

theorem fed_unretire (m : Mint) (st : Store) (target : String) :
    Fed st (unretire m st target).1 := by
  have happ := fed_append m st (unretireEvent target)
  unfold unretire
  split
  · generalize st.append m (unretireEvent target) = out at happ
    obtain ⟨st', res⟩ := out
    cases res with
    | error e => exact happ
    | ok id =>
        dsimp only
        split
        · exact happ.trans (fed_rewind st' _ _)
        · exact happ
  · exact .refl st

theorem fed_unretirePassage (m : Mint) (st : Store) (sid : String)
    (pid : Nat) : Fed st (unretirePassage m st sid pid).1 := by
  have happ := fed_append m st (unretirePassageEvent sid pid)
  unfold unretirePassage
  split
  · generalize st.append m (unretirePassageEvent sid pid) = out at happ
    obtain ⟨st', res⟩ := out
    cases res with
    | error e => exact happ
    | ok id =>
        dsimp only
        split
        · exact happ
        · split
          · exact happ.trans (fed_rewind st' _ _)
          · exact happ
  · exact .refl st

/-- A memory operation, in full. -/
theorem fed_memory (st : Store) (op : MemoryOp) : Fed st (op.exec st) := by
  cases op with
  | call c =>
      obtain ⟨drafts, -, hlogged⟩ := MemoryOp.exec_appends st (.call c)
      exact .of_vectors hlogged.suffix rfl
  | remember emb m text =>
      show Fed st (remember emb m st text).1
      unfold remember
      split
      · exact .refl st
      · exact (fed_append m st _).trans (fed_derived emb _)
  | supersedeNote emb m₁ m₂ target text =>
      exact fed_supersedeNote emb m₁ m₂ st target text
  | retireMemory m target src =>
      show Fed st (retireMemory m st target src).1
      unfold retireMemory
      split
      · exact .refl st
      · exact fed_append m st _
  | unretire m target => exact fed_unretire m st target
  | captureSession dateLabel emb m₁ m₂ sm =>
      exact fed_captureSession dateLabel emb m₁ m₂ st sm
  | deleteSession m sid =>
      show Fed st (deleteSession m st sid).1
      unfold deleteSession
      split
      · exact .refl st
      · exact fed_append m st _
  | storeSessionPassages emb eventId chunks =>
      show Fed st (storeSessionPassages emb st eventId chunks).1
      unfold storeSessionPassages
      split
      · exact .refl st
      · exact .of_vectors ⟨[], by simp⟩ rfl
  | retirePassage m sid pid src =>
      show Fed st (retirePassage m st sid pid src).1
      unfold retirePassage
      split
      · exact .refl st
      · dsimp only
        split
        · exact .refl st
        · split
          · exact .refl st
          · exact fed_append m st _
  | unretirePassage m sid pid => exact fed_unretirePassage m st sid pid
  | rederivePending emb => exact fed_rederivePending emb st
  | gcStaleVectors keepModelId =>
      exact ⟨⟨[], by simp [MemoryOp.exec, gcStaleVectors]⟩, fun row hrow =>
        .inl (List.mem_filter.mp hrow).1⟩

/-! ## The indexes -/

/-- `FUSION_FETCH`. -/
def fusionFetch : Nat := 200

/-- The store, the two projections recall reads with the grants, and the
indexes. `vector` is the index in memory, `keyword` the full-text table;
`toIndex` are the rows a rebuild of that table has read and not yet added. -/
structure RecallState where
  store : Store
  pages : List Page
  files : List FileRecord
  grants : List Grant
  vector : Option (List (String × Bytes))
  toIndex : List (String × String)
  keyword : List (String × String)

/-- A new engine. -/
def RecallState.start : RecallState :=
  ⟨.empty, [], [], [], none, [], []⟩

/-- The rows `vectors_for_model` reads, by their identifiers. -/
def vectorRowsForModel (st : Store) (modelId : String) :
    List (String × Bytes) :=
  ((st.vectors.filter fun v => v.modelId == modelId).map
    fun v => (v.eventId, v.embedding)).insertionSort
      fun x y => x.1 ≤ y.1

/-- `collect_embeddable_events_ordered`. -/
def collectEmbeddableEventsOrdered (log : EventLog) :
    List (String × String) :=
  log.filterMap fun ev => (embeddableText ev).map fun text => (ev.id, text)

/-- `keyword_add`: an event that is indexed already is left. -/
def keywordAdd (rows : List (String × String)) (row : String × String) :
    List (String × String) :=
  if rows.any fun r => r.1 == row.1 then rows else rows ++ [row]

/-- A step: an operation, the vector of one more event, or a part of a
rebuild. A reopened engine has no index in memory. -/
inductive RecallStep where
  | memory (op : MemoryOp)
  | derive (emb : Embedder) (id : String)
  | rebuildGraph
  | rebuildVectors (emb : Embedder)
  | collectKeyword
  | wipeKeyword
  | addKeyword
  | reopen

/-- The state a step leads to. -/
def RecallState.exec (s : RecallState) : RecallStep → RecallState
  | .memory op => { s with store := op.exec s.store }
  | .derive emb id => { s with store := (deriveVectorFor emb s.store id).1 }
  | .rebuildGraph =>
      { s with
        pages := foldPages (pageAndSupersedeEventsOrdered s.store.log)
        files := foldFiles (fileAndSupersedeEventsOrdered s.store.log)
        grants := foldGrants (grantEventsOrdered s.store.log) }
  | .rebuildVectors emb =>
      { s with vector := some (vectorRowsForModel s.store emb.modelId) }
  | .collectKeyword =>
      { s with toIndex := collectEmbeddableEventsOrdered s.store.log }
  | .wipeKeyword => { s with keyword := [] }
  | .addKeyword =>
      match s.toIndex with
      | [] => s
      | row :: rest =>
          { s with keyword := keywordAdd s.keyword row, toIndex := rest }
  | .reopen => { s with vector := none, toIndex := [] }

/-! ## Recall -/

/-- What recall takes from outside. -/
structure RecallEngine where
  emb : Embedder
  nearest : List (String × Bytes) → Bytes → Nat → List String
  nearest_mem : ∀ index qv n, ∀ id ∈ nearest index qv n,
    id ∈ index.map Prod.fst
  nearest_length : ∀ index qv n, (nearest index qv n).length ≤ n
  matching : List (String × String) → String → Nat →
    Except BossclawError (List String)
  matching_mem : ∀ rows query n ids, matching rows query n = .ok ids →
    ∀ id ∈ ids, id ∈ rows.map Prod.fst
  matching_length : ∀ rows query n ids, matching rows query n = .ok ids →
    ids.length ≤ n
  ranking : Ranking

/-- `vector_search`, after the embedding of the query. -/
def RecallEngine.vectorArm (e : RecallEngine) (s : RecallState)
    (query : String) : Except BossclawError (List String) :=
  match e.emb.embed query with
  | .error err => .error err
  | .ok qv =>
      match s.vector with
      | some index => .ok (e.nearest index qv fusionFetch)
      | none => .error (.invalidInput
          "vector index not built — call rebuild_indexes")

/-- `keyword_search`. -/
def RecallEngine.keywordArm (e : RecallEngine) (s : RecallState)
    (query : String) : Except BossclawError (List String) :=
  if isBlank query then .ok []
  else e.matching s.keyword query fusionFetch

/-- `recall`, over the indexes and the projections. -/
def RecallEngine.recall (e : RecallEngine) (s : RecallState) (query : String)
    (k : Nat) (opts : RecallOptions) : Except BossclawError (List Hit) :=
  recallHits s.store.log opts (s.pages.map Page.pageEventId).toFinset
    (currentFilesActive s.files s.grants).toFinset
    (e.vectorArm s query) (e.keywordArm s query) e.ranking k

/-! ## The invariant -/

/-- The projections are those of a log. -/
def RecallState.ProjectedFrom (s : RecallState) (log : EventLog) : Prop :=
  s.pages = foldPages (pageAndSupersedeEventsOrdered log) ∧
    s.files = foldFiles (fileAndSupersedeEventsOrdered log) ∧
    s.grants = foldGrants (grantEventsOrdered log)

/-- Every index holds events of the log with a text; the projections are of
the log as it was at some time. -/
structure PoolInv (s : RecallState) : Prop where
  unique : UniqueIds s.store.log
  vectors : ∀ row ∈ s.store.vectors, EmbeddableIn s.store.log row.eventId
  vector : ∀ index, s.vector = some index →
    ∀ entry ∈ index, EmbeddableIn s.store.log entry.1
  toIndex : ∀ row ∈ s.toIndex, EmbeddableIn s.store.log row.1
  keyword : ∀ row ∈ s.keyword, EmbeddableIn s.store.log row.1
  projected : ∃ earlier suffix, s.store.log = earlier ++ suffix ∧
    s.ProjectedFrom earlier

theorem poolInv_start : PoolInv .start := by
  refine ⟨uniqueIds_nil, ?_, ?_, ?_, ?_, [], [], rfl, rfl, rfl, rfl⟩
  · intro row hrow
    cases hrow
  · intro index hindex
    cases hindex
  · intro row hrow
    cases hrow
  · intro row hrow
    cases hrow

/-- The store changes and the indexes stay. -/
theorem PoolInv.fed {s : RecallState} (hinv : PoolInv s) {st : Store}
    (hu : UniqueIds st.log) (hfed : Fed s.store st) :
    PoolInv { s with store := st } := by
  refine ⟨hu, fun row hrow => ?_, fun index hindex entry hentry => ?_,
    fun row hrow => ?_, fun row hrow => ?_, ?_⟩
  · rcases hfed.vectors row hrow with hold | hnew
    · exact (hinv.vectors row hold).mono hfed.log
    · exact hnew
  · exact (hinv.vector index hindex entry hentry).mono hfed.log
  · exact (hinv.toIndex row hrow).mono hfed.log
  · exact (hinv.keyword row hrow).mono hfed.log
  · obtain ⟨earlier, suffix, hlog, hproj⟩ := hinv.projected
    obtain ⟨more, hmore⟩ := hfed.log
    refine ⟨earlier, suffix ++ more, ?_, hproj⟩
    rw [hmore, hlog, List.append_assoc]

theorem embeddableIn_collected {log : EventLog} {row : String × String}
    (h : row ∈ collectEmbeddableEventsOrdered log) :
    EmbeddableIn log row.1 := by
  obtain ⟨ev, hev, hrow⟩ := List.mem_filterMap.mp h
  obtain ⟨text, htext, rfl⟩ := Option.map_eq_some_iff.mp hrow
  exact ⟨ev, hev, rfl, by rw [htext]; simp⟩

theorem mem_vectorRowsForModel {st : Store} {modelId : String}
    {entry : String × Bytes} (h : entry ∈ vectorRowsForModel st modelId) :
    ∃ row ∈ st.vectors, row.eventId = entry.1 := by
  unfold vectorRowsForModel at h
  rw [List.mem_insertionSort] at h
  obtain ⟨row, hrow, rfl⟩ := List.mem_map.mp h
  exact ⟨row, (List.mem_filter.mp hrow).1, rfl⟩

/-- The invariant, a step. -/
theorem PoolInv.exec {s : RecallState} (hinv : PoolInv s)
    (i : RecallStep) : PoolInv (s.exec i) := by
  cases i with
  | memory op =>
      exact hinv.fed (exec_unique hinv.unique op) (fed_memory s.store op)
  | derive emb id =>
      refine hinv.fed ?_ (fed_deriveVectorFor emb s.store id)
      rw [deriveVectorFor_log]
      exact hinv.unique
  | rebuildGraph =>
      exact ⟨hinv.unique, hinv.vectors, hinv.vector, hinv.toIndex,
        hinv.keyword, s.store.log, [], by simp [RecallState.exec], rfl, rfl,
        rfl⟩
  | rebuildVectors emb =>
      refine ⟨hinv.unique, hinv.vectors, ?_, hinv.toIndex, hinv.keyword,
        hinv.projected⟩
      intro index hindex entry hentry
      obtain rfl := Option.some.inj hindex
      obtain ⟨row, hrow, heq⟩ := mem_vectorRowsForModel hentry
      rw [← heq]
      exact hinv.vectors row hrow
  | collectKeyword =>
      exact ⟨hinv.unique, hinv.vectors, hinv.vector,
        fun row hrow => embeddableIn_collected hrow, hinv.keyword,
        hinv.projected⟩
  | wipeKeyword =>
      exact ⟨hinv.unique, hinv.vectors, hinv.vector, hinv.toIndex,
        fun row hrow => (by cases hrow), hinv.projected⟩
  | addKeyword =>
      show PoolInv (s.exec .addKeyword)
      unfold RecallState.exec
      dsimp only
      split
      · exact hinv
      · next row rest htoIndex =>
          have hhead := hinv.toIndex row (by rw [htoIndex]; simp)
          refine ⟨hinv.unique, hinv.vectors, hinv.vector, ?_, ?_,
            hinv.projected⟩
          · intro r hr
            exact hinv.toIndex r (by rw [htoIndex]; simp [hr])
          · intro r hr
            dsimp only [keywordAdd] at hr
            split at hr
            · exact hinv.keyword r hr
            · rcases List.mem_append.mp hr with hold | hnew
              · exact hinv.keyword r hold
              · obtain rfl := List.mem_singleton.mp hnew
                exact hhead
  | reopen =>
      exact ⟨hinv.unique, hinv.vectors, fun index hindex => (by cases hindex),
        fun row hrow => (by cases hrow), hinv.keyword, hinv.projected⟩

theorem poolInv_run (steps : List RecallStep) :
    PoolInv (Trace.run RecallState.exec .start steps) :=
  Trace.run_inv PoolInv (fun _ i h => h.exec i) poolInv_start steps

/-! ## What may surface -/

/-- The event is a note that is current, the current capture of its session,
the current page of its topic, or the current version of a file whose folder
is granted. -/
inductive Surfaces (s : RecallState) (opts : RecallOptions) (ev : Event) :
    Prop where
  | note (hcur : ev ∈ currentNotes s.store.log)
  | session (cs : CurrentSession)
      (htype : ev.eventType = sessionCapturedEventType)
      (hcs : cs ∈ currentSessions s.store.log) (hid : cs.eventId = ev.id)
  | page (p : Page) (htype : ev.eventType = pageEventType)
      (hopts : opts.excludePages = false) (hp : p ∈ s.pages)
      (hid : p.pageEventId = ev.id)
  | file (htype : ev.eventType = fileIngestedEventType)
      (hopts : opts.excludeFiles = false)
      (hid : ev.id ∈ currentFilesActive s.files s.grants)

theorem mem_currentNotes_iff {log : EventLog} {ev : Event} (hev : ev ∈ log)
    (htype : ev.eventType = memoryEventType) :
    ev ∈ currentNotes log ↔
      ev.id ∉ (foldSessions (sessionEventsOrdered log)).superseded ∧
        ev.id ∉ (foldSessions (sessionEventsOrdered log)).retiredNotes := by
  rw [mem_currentNotes, mem_superseded_log]
  constructor
  · rintro ⟨-, -, hsup, hret⟩
    exact ⟨hsup, of_decide_eq_false hret⟩
  · rintro ⟨hsup, hret⟩
    exact ⟨hev, htype, hsup, decide_eq_false hret⟩

/-- The filter keeps a candidate with a text iff its event may surface. -/
theorem recallKeeps_iff {s : RecallState} {opts : RecallOptions} {ev : Event}
    (hev : ev ∈ s.store.log) (htext : embeddableText ev ≠ none) {h : Hit}
    (hid : h.eventId = ev.id) (hkind : h.kind = ev.eventType) :
    recallKeeps s.store.log opts (s.pages.map Page.pageEventId).toFinset
        (currentFilesActive s.files s.grants).toFinset h = true ↔
      Surfaces s opts ev := by
  have htypes : ev.eventType ∈ embeddableEventTypes := by
    by_contra hnot
    apply htext
    rw [embeddableText, if_neg]
    simpa using hnot
  unfold recallKeeps
  rw [hkind, hid]
  dsimp only
  simp only [embeddableEventTypes, List.mem_cons, List.not_mem_nil,
    or_false] at htypes
  rcases htypes with ht | ht | ht | ht
  · rw [ht, if_neg (by decide), if_neg (by decide), if_neg (by decide),
      if_pos rfl, Bool.and_eq_true, decide_eq_true_eq, decide_eq_true_eq,
      ← mem_currentNotes_iff hev ht]
    constructor
    · exact .note
    · intro hs
      cases hs with
      | note hcur => exact hcur
      | session cs htype => exact absurd (ht.symm.trans htype) (by decide)
      | page p htype => exact absurd (ht.symm.trans htype) (by decide)
      | file htype => exact absurd (ht.symm.trans htype) (by decide)
  · rw [ht, if_pos rfl, Bool.and_eq_true, Bool.not_eq_true',
      decide_eq_true_eq, List.mem_toFinset, List.mem_map]
    constructor
    · rintro ⟨hopts, p, hp, hpid⟩
      exact .page p ht hopts hp hpid
    · intro hs
      cases hs with
      | note hcur =>
          exact absurd (ht.symm.trans (mem_currentNotes.1 hcur).2.1)
            (by decide)
      | session cs htype => exact absurd (ht.symm.trans htype) (by decide)
      | page p htype hopts hp hpid => exact ⟨hopts, p, hp, hpid⟩
      | file htype => exact absurd (ht.symm.trans htype) (by decide)
  · rw [ht, if_neg (by decide), if_pos rfl, Bool.and_eq_true,
      Bool.not_eq_true', decide_eq_true_eq, List.mem_toFinset]
    constructor
    · rintro ⟨hopts, hmem⟩
      exact .file ht hopts hmem
    · intro hs
      cases hs with
      | note hcur =>
          exact absurd (ht.symm.trans (mem_currentNotes.1 hcur).2.1)
            (by decide)
      | session cs htype => exact absurd (ht.symm.trans htype) (by decide)
      | page p htype => exact absurd (ht.symm.trans htype) (by decide)
      | file htype hopts hmem => exact ⟨hopts, hmem⟩
  · rw [ht, if_neg (by decide), if_neg (by decide), if_pos rfl,
      List.any_eq_true]
    constructor
    · rintro ⟨cs, hcs, hcsid⟩
      exact .session cs ht hcs (beq_iff_eq.mp hcsid)
    · intro hs
      cases hs with
      | note hcur =>
          exact absurd (ht.symm.trans (mem_currentNotes.1 hcur).2.1)
            (by decide)
      | session cs htype hcs hcsid => exact ⟨cs, hcs, beq_iff_eq.mpr hcsid⟩
      | page p htype => exact absurd (ht.symm.trans htype) (by decide)
      | file htype => exact absurd (ht.symm.trans htype) (by decide)

/-! ### What is current -/

/-- Superseded, a retired note, or a capture of a deleted session. -/
def Withdrawn (log : EventLog) (ev : Event) : Prop :=
  (∃ e ∈ log, Supersedes ev.id e) ∨
    (ev.eventType = memoryEventType ∧
      refRetired log (.note ev.id) = true) ∨
    ∃ sid, IsCaptureOf sid ev ∧ SessionDeleted log sid

/-- The log that says whether an event is current: `earlier`, the log of the
projections, for a page or a file. -/
def judgedBy (log earlier : EventLog) (ev : Event) : EventLog :=
  if ev.eventType = pageEventType ∨ ev.eventType = fileIngestedEventType then
    earlier
  else log

theorem mem_supersededTargets {events : List Event} {id : String} :
    id ∈ supersededTargets events ↔ ∃ e ∈ events, Supersedes id e := by
  unfold supersededTargets
  rw [List.mem_filterMap]
  constructor
  · rintro ⟨e, he, heq⟩
    split at heq
    · next htype => exact ⟨e, he, htype, heq⟩
    · cases heq
  · rintro ⟨e, he, htype, hid⟩
    exact ⟨e, he, by rw [if_pos htype, hid]⟩

/-- A row that a projection holds is of an event that nothing supersedes. -/
theorem not_superseded_of_mem {α : Type} {log : EventLog} {types : List String}
    {eventType : String} {row : Event → Option (String × α)} {v : α}
    (htypes : supersedeEventType ∈ types)
    (h : v ∈ Fold.latest (countedRow eventType
      (supersededTargets (eventsOfTypes log types)) row)
      (eventsOfTypes log types)) :
    ∃ ev k, row ev = some (k, v) ∧ ¬ ∃ e ∈ log, Supersedes ev.id e := by
  obtain ⟨k, -, ev, -, hrow⟩ := Fold.exists_of_mem_latest h
  unfold countedRow at hrow
  split at hrow
  · cases hrow
  · next hcounts =>
      refine ⟨ev, k, hrow, ?_⟩
      rintro ⟨e, he, hsup⟩
      apply hcounts
      right
      rw [mem_supersededTargets]
      refine ⟨e, mem_eventsOfTypes.2 ⟨he, ?_⟩, hsup⟩
      rw [hsup.1]
      exact htypes

/-- What surfaces is current. -/
theorem Surfaces.current {s : RecallState} {opts : RecallOptions} {ev : Event}
    (h : Surfaces s opts ev) (hu : UniqueIds s.store.log)
    (hev : ev ∈ s.store.log) {earlier : EventLog}
    (hproj : s.ProjectedFrom earlier) :
    ¬ Withdrawn (judgedBy s.store.log earlier ev) ev := by
  obtain ⟨hpages, hfiles, -⟩ := hproj
  -- a page or a file has to be superseded
  have hother : ∀ {t : String}, ev.eventType = t →
      t ∈ [pageEventType, fileIngestedEventType] →
      (¬ ∃ e ∈ earlier, Supersedes ev.id e) →
      ¬ Withdrawn (judgedBy s.store.log earlier ev) ev := by
    intro t ht hmem hsup
    have hjudged : judgedBy s.store.log earlier ev = earlier := by
      rw [judgedBy, if_pos]
      rw [ht]
      simpa using hmem
    rw [hjudged]
    rintro (hs | ⟨htype, -⟩ | ⟨sid, hcap, -⟩)
    · exact hsup hs
    · rw [← ht, htype] at hmem
      exact absurd hmem (by decide)
    · rw [← ht, hcap.1] at hmem
      exact absurd hmem (by decide)
  cases h with
  | note hcur =>
      obtain ⟨-, htype, hsup, hret⟩ := mem_currentNotes.1 hcur
      rw [judgedBy, htype, if_neg (by decide)]
      rintro (hs | ⟨-, hr⟩ | ⟨sid, hcap, -⟩)
      · exact hsup hs
      · rw [hret] at hr
        cases hr
      · exact absurd (htype.symm.trans hcap.1) (by decide)
  | session cs htype hcs hid =>
      rw [judgedBy, htype, if_neg (by decide)]
      obtain ⟨ev', hev', hlive⟩ := exists_of_mem_current hcs
      obtain ⟨hparsedId, hparsedSid⟩ := parseSessionContent_some hlive.parsed
      have hsame : ev' = ev := by
        have hmem := (List.mem_filter.mp hev').1
        have hfind := eventById_of_mem hu hmem
        rw [← hparsedId, hid, eventById_of_mem hu hev] at hfind
        exact (Option.some.inj hfind).symm
      subst hsame
      rintro (hs | ⟨hmem, -⟩ | ⟨sid, hcap, hdel⟩)
      · exact hlive.notSuperseded (mem_superseded_log.2 hs)
      · exact absurd (htype.symm.trans hmem) (by decide)
      · have hsid : cs.sessionId = sid := by
          have := hparsedSid.symm.trans hcap.2
          exact Option.some.inj this
        apply hlive.notDeleted
        rw [hsid]
        exact mem_deleted_log.2 hdel
  | page p htype hopts hp hid =>
      rw [hpages] at hp
      obtain ⟨ev', k, hrow, hsup⟩ := not_superseded_of_mem (by decide) hp
      obtain ⟨parsed, -, heq⟩ := Option.map_eq_some_iff.mp hrow
      have hpid : p.pageEventId = ev'.id := by
        rw [← (Prod.mk.inj heq).2]
      rw [← hpid, hid] at hsup
      exact hother htype (by decide) hsup
  | file htype hopts hid =>
      obtain ⟨f, hf, hfid⟩ := List.mem_map.mp hid
      have hmem := (List.mem_filter.mp hf).1
      rw [hfiles] at hmem
      obtain ⟨ev', k, hrow, hsup⟩ := not_superseded_of_mem (by decide) hmem
      obtain ⟨parsed, -, heq⟩ := Option.map_eq_some_iff.mp hrow
      have hfile : f.fileEventId = ev'.id := by
        rw [← (Prod.mk.inj heq).2]
      rw [← hfile, hfid] at hsup
      exact hother htype (by decide) hsup

/-! ## The arms -/

theorem vectorArm_embeddable {e : RecallEngine} {s : RecallState}
    (hinv : PoolInv s) {query : String} {ids : List String}
    (h : e.vectorArm s query = .ok ids) :
    ∀ id ∈ ids, EmbeddableIn s.store.log id := by
  intro id hid
  unfold RecallEngine.vectorArm at h
  split at h
  · cases h
  · next qv hqv =>
      split at h
      · next index hindex =>
          obtain rfl := Except.ok.inj h
          have hmem := e.nearest_mem _ _ _ id hid
          obtain ⟨entry, hentry, rfl⟩ := List.mem_map.mp hmem
          exact hinv.vector index hindex entry hentry
      · cases h

theorem keywordArm_embeddable {e : RecallEngine} {s : RecallState}
    (hinv : PoolInv s) {query : String} {ids : List String}
    (h : e.keywordArm s query = .ok ids) :
    ∀ id ∈ ids, EmbeddableIn s.store.log id := by
  intro id hid
  unfold RecallEngine.keywordArm at h
  split at h
  · obtain rfl := Except.ok.inj h
    cases hid
  · have hmem := e.matching_mem _ _ _ _ h id hid
    obtain ⟨row, hrow, rfl⟩ := List.mem_map.mp hmem
    exact hinv.keyword row hrow

/-- An arm that fails answers nothing. -/
theorem resolveArms_ok {vector keyword : Except BossclawError (List String)}
    {v kw : List String} (h : resolveArms vector keyword = .ok (v, kw)) :
    (v = [] ∨ vector = .ok v) ∧ (kw = [] ∨ keyword = .ok kw) := by
  unfold resolveArms at h
  split at h <;> cases h <;> simp

theorem candidateKind_of_mem {log : EventLog} (hu : UniqueIds log)
    {ev : Event} (hev : ev ∈ log) :
    candidateKind log ev.id = ev.eventType := by
  rw [candidateKind, eventById_of_mem hu hev]

/-- The hits a recall truncates: those of the candidates that may surface. -/
theorem recall_kept {e : RecallEngine} {s : RecallState} (hinv : PoolInv s)
    {query : String} {opts : RecallOptions} {v kw : List String}
    (harms : resolveArms (e.vectorArm s query) (e.keywordArm s query) =
      .ok (v, kw)) (k : Nat) :
    ∃ kept : List Hit, e.recall s query k opts = .ok (kept.take k) ∧
      (kept.map Hit.eventId).Nodup ∧
      ∀ h, h ∈ kept ↔ ∃ ev ∈ s.store.log, (ev.id ∈ v ∨ ev.id ∈ kw) ∧
        hitOf s.store.log v kw ev.id = h ∧ Surfaces s opts ev := by
  obtain ⟨hv, hkw⟩ := resolveArms_ok harms
  have hpool : ∀ id, id ∈ v ∨ id ∈ kw → EmbeddableIn s.store.log id := by
    rintro id (hid | hid)
    · rcases hv with rfl | hok
      · cases hid
      · exact vectorArm_embeddable hinv hok id hid
    · rcases hkw with rfl | hok
      · cases hid
      · exact keywordArm_embeddable hinv hok id hid
  refine ⟨(e.ranking.order
    ((v ++ kw).dedup.map (hitOf s.store.log v kw))).filter
      (recallKeeps s.store.log opts (s.pages.map Page.pageEventId).toFinset
        (currentFilesActive s.files s.grants).toFinset), ?_, ?_, ?_⟩
  · rw [RecallEngine.recall, recallHits, harms]
  · refine List.Nodup.sublist (List.Sublist.map _ List.filter_sublist) ?_
    refine ((e.ranking.perm _).map Hit.eventId).nodup_iff.mpr ?_
    rw [List.map_map]
    show (((v ++ kw).dedup).map id).Nodup
    rw [List.map_id]
    exact List.nodup_dedup _
  · intro h
    rw [List.mem_filter, (e.ranking.perm _).mem_iff, List.mem_map]
    constructor
    · rintro ⟨⟨id, hid, rfl⟩, hkeeps⟩
      have hcand : id ∈ v ∨ id ∈ kw :=
        List.mem_append.mp (List.mem_dedup.mp hid)
      obtain ⟨ev, hev, rfl, htext⟩ := hpool id hcand
      exact ⟨ev, hev, hcand, rfl, (recallKeeps_iff hev htext rfl
        (candidateKind_of_mem hinv.unique hev)).mp hkeeps⟩
    · rintro ⟨ev, hev, hcand, rfl, hsurf⟩
      refine ⟨⟨ev.id, List.mem_dedup.mpr (List.mem_append.mpr hcand), rfl⟩,
        ?_⟩
      obtain ⟨ev', hev', hid, htext⟩ := hpool ev.id hcand
      have hsame : ev' = ev := by
        have hfind := eventById_of_mem hinv.unique hev'
        rw [hid, eventById_of_mem hinv.unique hev] at hfind
        exact (Option.some.inj hfind).symm
      subst hsame
      exact (recallKeeps_iff hev' htext rfl
        (candidateKind_of_mem hinv.unique hev')).mpr hsurf

/-- The rest of a rebuild of the keyword index adds the rows it has read. -/
theorem run_addKeyword (s : RecallState)
    (hnodup : ((s.keyword ++ s.toIndex).map Prod.fst).Nodup) :
    Trace.run RecallState.exec s
        (List.replicate s.toIndex.length .addKeyword) =
      { s with keyword := s.keyword ++ s.toIndex, toIndex := [] } := by
  generalize hrows : s.toIndex = rows at hnodup
  induction rows generalizing s with
  | nil =>
      obtain ⟨store, pages, files, grants, vector, toIndex, keyword⟩ := s
      obtain rfl : toIndex = [] := hrows
      simp
  | cons row rest ih =>
      have hfresh : (s.keyword.any fun r => r.1 == row.1) = false := by
        rw [Bool.eq_false_iff]
        intro hany
        obtain ⟨r, hr, heq⟩ := List.any_eq_true.mp hany
        rw [List.map_append, List.map_cons, List.nodup_append] at hnodup
        exact hnodup.2.2 r.1 (List.mem_map_of_mem hr) row.1
          List.mem_cons_self (beq_iff_eq.mp heq)
      have hstep : s.exec .addKeyword =
          { s with keyword := s.keyword ++ [row], toIndex := rest } := by
        simp only [RecallState.exec, hrows, keywordAdd, hfresh]
        rfl
      rw [List.length_cons, List.replicate_succ, Trace.run_cons, hstep]
      have hnodup' : ((s.keyword ++ [row] ++ rest).map Prod.fst).Nodup := by
        rw [List.append_assoc]
        exact hnodup
      have hrest := ih { s with keyword := s.keyword ++ [row], toIndex := rest }
        rfl hnodup'
      rw [hrest, List.append_assoc]
      rfl

/-- What a transaction appends are its drafts, stored. -/
theorem logged_stored {log log' : EventLog} {drafts : List Event}
    (h : Logged log drafts log') :
    ∃ suffix, log' = log ++ suffix ∧ ∀ ev ∈ suffix, ∃ draft ∈ drafts,
      ∃ m earlier, Stored m earlier draft ev := by
  induction h with
  | nil => exact ⟨[], by simp, by simp⟩
  | @cons m log log' draft stored drafts hs rest ih =>
      obtain ⟨suffix, hlog, hall⟩ := ih
      refine ⟨stored :: suffix, by rw [hlog, List.append_assoc]; rfl, ?_⟩
      intro ev hev
      rcases List.mem_cons.mp hev with rfl | hrest
      · exact ⟨draft, List.mem_cons_self, m, log, hs⟩
      · obtain ⟨d, hd, hstored⟩ := hall ev hrest
        exact ⟨d, List.mem_cons_of_mem draft hd, hstored⟩

/-- The events of the log that have a text have the one text. -/
def OneText (log : EventLog) : Prop :=
  ∀ ev ∈ log, embeddableText ev =
    if ev.eventType = memoryEventType then some editedText else none

theorem embeddableText_note {m : Mint} {log : EventLog} {stored : Event}
    (hs : Stored m log (externalNoteEvent editedText) stored) :
    embeddableText stored = some editedText := by
  have htype : stored.eventType = memoryEventType := hs.eventType_eq
  rw [embeddableText, htype, if_pos (by decide), hs.content_of_none rfl]
  rfl

theorem embeddableText_marker {m : Mint} {log : EventLog} {stored : Event}
    {target : String}
    (hs : Stored m log (groundTruthSupersedeEvent target) stored) :
    embeddableText stored = none := by
  have htype : stored.eventType = supersedeEventType := hs.eventType_eq
  rw [embeddableText, htype, if_neg (by decide)]

theorem OneText.exec {st : Store} (h : OneText st.log) {op : MemoryOp}
    (hop : ∀ drafts, op.Appends st drafts → ∀ d ∈ drafts,
      d = externalNoteEvent editedText ∨
        ∃ target, d = groundTruthSupersedeEvent target) :
    OneText (op.exec st).log := by
  obtain ⟨drafts, happ, hlogged⟩ := op.exec_appends st
  obtain ⟨suffix, hlog, hall⟩ := logged_stored hlogged
  rw [hlog]
  intro ev hev
  rcases List.mem_append.mp hev with hold | hnew
  · exact h ev hold
  · obtain ⟨d, hd, m, earlier, hs⟩ := hall ev hnew
    rcases hop drafts happ d hd with rfl | ⟨target, rfl⟩
    · have htype : ev.eventType = memoryEventType := hs.eventType_eq
      rw [if_pos htype]
      exact embeddableText_note hs
    · have htype : ev.eventType = supersedeEventType := hs.eventType_eq
      rw [htype, if_neg (by decide)]
      exact embeddableText_marker hs

theorem oneText_edits (emb : Embedder) (n : Nat) :
    OneText (Trace.run MemoryOp.exec .empty (editsOf emb n)).log := by
  induction n with
  | zero =>
      have hempty : OneText Store.empty.log := fun ev hev => (by cases hev)
      show OneText ((rememberOnce emb).exec .empty).log
      refine hempty.exec ?_
      intro drafts happ d hd
      cases happ with
      | nothing => cases hd
      | remember => exact .inl (List.mem_singleton.mp hd)
  | succ n ih =>
      rw [editsOf, Trace.run_append]
      show OneText ((editAgain emb n).exec
        (Trace.run MemoryOp.exec .empty (editsOf emb n))).log
      refine ih.exec ?_
      intro drafts happ d hd
      cases happ with
      | nothing => cases hd
      | supersedeNote =>
          rcases List.mem_cons.mp hd with rfl | hrest
          · exact .inr ⟨_, rfl⟩
          · exact .inl (List.mem_singleton.mp hrest)

theorem rowsSince_snd (log : EventLog) :
    (rowsSince log 0).map Prod.snd =
      log.filter fun ev => isSubjectType ev.eventType := by
  rw [rowsSince, numbered, List.filter_map, List.map_map]
  have hsnd : log = (log.zipIdx 1).map Prod.fst := by simp
  conv_rhs => rw [hsnd, List.filter_map]
  simp [Function.comp_def]

/-- The rows of an edited note, as the keyword index reads them. -/
theorem collect_edited {st : Store} (htext : OneText st.log)
    (hkinds : ∀ e ∈ st.log,
      e.eventType = memoryEventType ∨ e.eventType = supersedeEventType) :
    collectEmbeddableEventsOrdered st.log =
      (rowsSince st.log 0).map fun row => (row.2.id, editedText) := by
  have hmap : ((rowsSince st.log 0).map fun row => (row.2.id, editedText)) =
      ((rowsSince st.log 0).map Prod.snd).map fun ev =>
        (ev.id, editedText) := by
    rw [List.map_map]
    rfl
  rw [hmap, rowsSince_snd, collectEmbeddableEventsOrdered]
  clear hmap
  generalize st.log = log at htext hkinds
  induction log with
  | nil => rfl
  | cons ev rest ih =>
      have hrest := ih (fun e he => htext e (List.mem_cons_of_mem ev he))
        fun e he => hkinds e (List.mem_cons_of_mem ev he)
      have hev := htext ev List.mem_cons_self
      rcases hkinds ev List.mem_cons_self with ht | ht
      · rw [ht, if_pos rfl] at hev
        rw [List.filterMap_cons, hev, List.filter_cons_of_pos, List.map_cons,
          ← hrest]
        · rfl
        · rw [ht]
          rfl
      · rw [ht, if_neg (by decide)] at hev
        rw [List.filterMap_cons, hev, List.filter_cons_of_neg, ← hrest]
        · rfl
        · rw [ht]
          decide

/-- An engine whose model answers errors, and whose keyword search answers
the rows with the text of the query, the oldest first. -/
def keywordEngine : RecallEngine :=
  { emb := { modelId := "static", dim := 1
             embed := fun _ => .error (.invalidInput "no model") }
    nearest := fun index _ n => (index.map Prod.fst).take n
    nearest_mem := fun _ _ _ _ h => List.mem_of_mem_take h
    nearest_length := fun _ _ n => by simp
    matching := fun rows query n =>
      .ok (((rows.filter fun row => row.2 == query).map Prod.fst).take n)
    matching_mem := fun rows query n ids h id hid => by
      obtain rfl := Except.ok.inj h
      obtain ⟨row, hrow, rfl⟩ := List.mem_map.mp (List.mem_of_mem_take hid)
      exact List.mem_map_of_mem (List.mem_filter.mp hrow).1
    matching_length := fun rows query n ids h => by
      obtain rfl := Except.ok.inj h
      simp
    ranking := ⟨id, fun _ => .refl _⟩ }

/-- A note is edited `n` times, and the keyword index is rebuilt. -/
def crowdedSteps (n : Nat) : List RecallStep :=
  (editsOf keywordEngine.emb n).map .memory ++
    [.collectKeyword, .wipeKeyword] ++ List.replicate (n + 1) .addKeyword

theorem run_memory (ops : List MemoryOp) (s : RecallState) :
    Trace.run RecallState.exec s (ops.map .memory) =
      { s with store := Trace.run MemoryOp.exec s.store ops } := by
  induction ops generalizing s with
  | nil => rfl
  | cons op rest ih =>
      rw [List.map_cons, Trace.run_cons, ih]
      rfl

/-- The rows of the keyword index of an edited note. -/
def editedRows (rows : List (Nat × Event)) : List (String × String) :=
  rows.map fun row => (row.2.id, editedText)

theorem run_crowdedSteps {n : Nat} {st : Store}
    (hst : st = Trace.run MemoryOp.exec .empty
      (editsOf keywordEngine.emb n)) {olds : List (Nat × Event)}
    {head : Nat × Event} (h : Edited n st olds head) :
    Trace.run RecallState.exec .start (crowdedSteps n) =
      { RecallState.start with
        store := st
        keyword := editedRows (olds ++ [head]) } := by
  let read : RecallState :=
    { RecallState.start with
      store := st
      toIndex := editedRows (olds ++ [head]) }
  have htext : OneText st.log := by
    rw [hst]
    exact oneText_edits keywordEngine.emb n
  have hcollect : collectEmbeddableEventsOrdered st.log =
      editedRows (olds ++ [head]) := by
    rw [collect_edited htext h.kinds, h.rows]
    rfl
  have hread : Trace.run RecallState.exec .start
      ((editsOf keywordEngine.emb n).map .memory ++
        [.collectKeyword, .wipeKeyword]) = read := by
    rw [Trace.run_append, run_memory]
    show ({ RecallState.start with
      store := Trace.run MemoryOp.exec .empty (editsOf keywordEngine.emb n)
      toIndex := collectEmbeddableEventsOrdered
        (Trace.run MemoryOp.exec .empty
          (editsOf keywordEngine.emb n)).log } : RecallState) = _
    rw [← hst, hcollect]
  have hids : ((read.keyword ++ read.toIndex).map Prod.fst).Nodup := by
    have hrows : (editedRows (olds ++ [head])).map Prod.fst =
        ((olds ++ [head]).map Prod.snd).map Event.id := by
      rw [editedRows, List.map_map, List.map_map]
      rfl
    show ((editedRows (olds ++ [head])).map Prod.fst).Nodup
    rw [hrows, ← h.rows, rowsSince_snd]
    exact List.Nodup.sublist (List.filter_sublist.map _) h.unique
  have hlen : read.toIndex.length = n + 1 := by
    show (editedRows (olds ++ [head])).length = n + 1
    rw [editedRows, List.length_map, List.length_append, h.length_eq]
    rfl
  have hadded := run_addKeyword read hids
  rw [hlen] at hadded
  rw [crowdedSteps, Trace.run_append, hread, hadded]
  rfl

/-- The keyword arm answers the oldest rows. -/
theorem keywordArm_edited {s : RecallState} {olds : List (Nat × Event)}
    {head : Nat × Event} (hlen : olds.length = fusionFetch)
    (hrows : s.keyword = editedRows (olds ++ [head])) :
    keywordEngine.keywordArm s editedText =
      .ok (olds.map fun row => row.2.id) := by
  have hblank : isBlank editedText = false := by decide +kernel
  have hall : (s.keyword.filter fun row => row.2 == editedText) =
      s.keyword := by
    rw [List.filter_eq_self, hrows]
    intro row hrow
    obtain ⟨r, -, rfl⟩ := List.mem_map.mp hrow
    exact beq_self_eq_true _
  rw [RecallEngine.keywordArm, hblank]
  show Except.ok (((s.keyword.filter fun row => row.2 == editedText).map
    Prod.fst).take fusionFetch) = _
  rw [hall, hrows, editedRows, List.map_map, List.map_append, ← hlen]
  simp [Function.comp_def]

/-- No note that was replaced may surface. -/
theorem Edited.not_surfaces {n : Nat} {s : RecallState}
    {olds : List (Nat × Event)} {head : Nat × Event}
    (h : Edited n s.store olds head) {row : Nat × Event} (hrow : row ∈ olds)
    {ev : Event} (hev : ev ∈ s.store.log) (hid : row.2.id = ev.id)
    (opts : RecallOptions) : ¬ Surfaces s opts ev := by
  intro hsurf
  have hkind := h.kinds ev hev
  cases hsurf with
  | note hcur =>
      apply h.old_not_current hrow
      exact List.any_eq_true.mpr ⟨ev, hcur, beq_iff_eq.mpr hid.symm⟩
  | session cs ht =>
      rw [ht] at hkind
      exact absurd hkind (by decide)
  | page p ht =>
      rw [ht] at hkind
      exact absurd hkind (by decide)
  | file ht =>
      rw [ht] at hkind
      exact absurd hkind (by decide)

/-- A note edited as often as an arm fetches is not recalled. -/
theorem crowded_out {n : Nat} (hn : n = fusionFetch) {s : RecallState}
    (hs : s = Trace.run RecallState.exec .start (crowdedSteps n)) :
    (∃ ev ∈ s.store.log, Surfaces s ⟨false, false⟩ ev ∧
      (ev.id, editedText) ∈ s.keyword) ∧
    keywordEngine.recall s editedText 1 ⟨false, false⟩ = .ok [] := by
  obtain ⟨olds, head, h⟩ := edited_run keywordEngine.emb n
  have hinv : PoolInv s := by
    rw [hs]
    exact poolInv_run _
  rw [run_crowdedSteps rfl h] at hs
  have hedited : Edited n s.store olds head := by
    rw [hs]
    exact h
  have hkeyword : s.keyword = editedRows (olds ++ [head]) := by rw [hs]
  refine ⟨⟨head.2, hedited.head_mem, .note hedited.head_current, ?_⟩, ?_⟩
  · rw [hkeyword]
    exact List.mem_map.mpr ⟨head, by simp, rfl⟩
  · have harms : resolveArms (keywordEngine.vectorArm s editedText)
        (keywordEngine.keywordArm s editedText) =
        .ok ([], olds.map fun row => row.2.id) := by
      rw [keywordArm_edited (hedited.length_eq.trans hn) hkeyword]
      rfl
    obtain ⟨kept, hrecall, -, hkept⟩ := recall_kept hinv harms 1
    have hnone : kept = [] := by
      rw [List.eq_nil_iff_forall_not_mem]
      intro hit hhit
      obtain ⟨ev, hev, hcand, -, hsurf⟩ := (hkept hit).mp hhit
      rcases hcand with hnil | hold
      · cases hnil
      · obtain ⟨row, hrow, hid⟩ := List.mem_map.mp hold
        exact hedited.not_surfaces hrow hev hid _ hsurf
    rw [hrecall, hnone]
    rfl

end AirNote
