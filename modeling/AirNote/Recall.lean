import AirNote.Lib.Trace
import AirNote.Memory

/-!
# Recall, and the permanence of session deletion

`recall` runs two retrieval arms, fuses and ranks their candidates, and then
drops the candidates that must not surface. What the arms answer and how the
ranking orders them depends on indexes and on floating-point scores that are
no part of this model: the arms and the ranking are arguments, and the
filter is what decides which candidates can be returned at all.

The deletion of a session is a tombstone in the log. Five readers have to
honour it: the session fold, the capture guard, the embedding backlog, the
list a migration scans, and recall. `Gone` states all five for one store,
and `gone_of_mem_deleted` proves them from the single fact that the
tombstone is in the log. Since no operation ever removes an event, the fact
persists through every later run (`session_deletion_permanent`).
-/

namespace AirNote

open Lib

/-! ## Recall -/

/-- The arms that surfaced a hit. -/
inductive RecallSource where
  | vector
  | keyword
  deriving DecidableEq, Repr

/-- One recalled event. -/
structure Hit where
  eventId : String
  sources : List RecallSource
  kind : String
  deriving DecidableEq, Repr

/-- The options of a recall that filter. -/
structure RecallOptions where
  excludePages : Bool
  excludeFiles : Bool

/-- An ordering of the candidates: rerank and sort, whatever the scores. -/
structure Ranking where
  order : List Hit → List Hit
  perm : ∀ hits, (order hits).Perm hits

/-- `resolve_arms`: one failing arm degrades to the other. -/
def resolveArms (vector keyword : Except BossclawError (List String)) :
    Except BossclawError (List String × List String) :=
  match vector, keyword with
  | .ok v, .ok k => .ok (v, k)
  | .error _, .ok k => .ok ([], k)
  | .ok v, .error _ => .ok (v, [])
  | .error ve, .error _ => .error (.invalidInput
      s!"recall failed: both arms unavailable (vector: {ve.text})")

/-- `candidate_event_types`; a candidate the log does not hold has no kind. -/
def candidateKind (log : EventLog) (id : String) : String :=
  match eventById log id with
  | some ev => ev.eventType
  | none => ""

/-- The filter before the truncation. Pages and files survive if current in
their projections, sessions if they are the current capture, notes unless
superseded or retired. -/
def recallKeeps (log : EventLog) (opts : RecallOptions)
    (currentPageIds currentFileIds : Finset String) (h : Hit) : Bool :=
  let fold := foldSessions (sessionEventsOrdered log)
  if h.kind = pageEventType then
    !opts.excludePages && decide (h.eventId ∈ currentPageIds)
  else if h.kind = fileIngestedEventType then
    !opts.excludeFiles && decide (h.eventId ∈ currentFileIds)
  else if h.kind = sessionCapturedEventType then
    fold.current.any fun cs => cs.eventId == h.eventId
  else if h.kind = memoryEventType then
    decide (h.eventId ∉ fold.superseded)
      && decide (h.eventId ∉ fold.retiredNotes)
  else true

/-- A candidate as a hit. -/
def hitOf (log : EventLog) (v k : List String) (id : String) : Hit :=
  { eventId := id
    sources := (if v.contains id then [.vector] else [])
      ++ (if k.contains id then [.keyword] else [])
    kind := candidateKind log id }

/-- `recall`. -/
def recallHits (log : EventLog) (opts : RecallOptions)
    (currentPageIds currentFileIds : Finset String)
    (vectorArm keywordArm : Except BossclawError (List String))
    (ranking : Ranking) (k : Nat) : Except BossclawError (List Hit) :=
  match resolveArms vectorArm keywordArm with
  | .error e => .error e
  | .ok (v, kw) =>
      let fused := (v ++ kw).dedup
      let hits := ranking.order (fused.map (hitOf log v kw))
      .ok ((hits.filter
        (recallKeeps log opts currentPageIds currentFileIds)).take k)

/-- A returned hit is a candidate with its kind, and the filter keeps it. -/
theorem recall_mem {log : EventLog} {opts : RecallOptions}
    {pages files : Finset String}
    {vectorArm keywordArm : Except BossclawError (List String)}
    {ranking : Ranking} {k : Nat} {hits : List Hit} {h : Hit}
    (hrec : recallHits log opts pages files vectorArm keywordArm ranking k =
      .ok hits) (hmem : h ∈ hits) :
    h.kind = candidateKind log h.eventId ∧
      recallKeeps log opts pages files h = true := by
  unfold recallHits at hrec
  cases harms : resolveArms vectorArm keywordArm with
  | error e => simp [harms] at hrec
  | ok arms =>
      obtain ⟨v, kw⟩ := arms
      simp only [harms, Except.ok.injEq] at hrec
      subst hrec
      have hfilter := List.mem_of_mem_take hmem
      rw [List.mem_filter] at hfilter
      obtain ⟨horder, hkeeps⟩ := hfilter
      have hcand := (ranking.perm _).mem_iff.mp horder
      obtain ⟨id, -, rfl⟩ := List.mem_map.mp hcand
      exact ⟨rfl, hkeeps⟩

/-! ## Operations and runs -/

/-- One operation on the memory store. `call` is any other append to the log,
by whatever part of the engine. -/
inductive MemoryOp where
  | call (c : AppendCall)
  | remember (emb : Embedder) (m : Mint) (text : String)
  | supersedeNote (emb : Embedder) (m₁ m₂ : Mint) (target text : String)
  | retireMemory (m : Mint) (target : String) (src : Option String)
  | unretire (m : Mint) (target : String)
  | captureSession (dateLabel : Int → String) (emb : Embedder)
      (m₁ m₂ : Mint) (sm : SessionMeta)
  | deleteSession (m : Mint) (sid : String)
  | storeSessionPassages (emb : Embedder) (eventId : String)
      (chunks : List String)
  | retirePassage (m : Mint) (sid : String) (pid : Nat)
      (src : Option String)
  | unretirePassage (m : Mint) (sid : String) (pid : Nat)
  | rederivePending (emb : Embedder)
  | gcStaleVectors (keepModelId : String)

/-- The store an operation leaves behind, whether it succeeds or fails. -/
def MemoryOp.exec (st : Store) : MemoryOp → Store
  | .call c => { st with log := c.exec st.log }
  | .remember emb m text => (AirNote.remember emb m st text).1
  | .supersedeNote emb m₁ m₂ target text =>
      (AirNote.supersedeNote emb m₁ m₂ st target text).1
  | .retireMemory m target src => (AirNote.retireMemory m st target src).1
  | .unretire m target => (AirNote.unretire m st target).1
  | .captureSession dateLabel emb m₁ m₂ sm =>
      (AirNote.captureSession dateLabel emb m₁ m₂ st sm).1
  | .deleteSession m sid => (AirNote.deleteSession m st sid).1
  | .storeSessionPassages emb eventId chunks =>
      (AirNote.storeSessionPassages emb st eventId chunks).1
  | .retirePassage m sid pid src =>
      (AirNote.retirePassage m st sid pid src).1
  | .unretirePassage m sid pid => (AirNote.unretirePassage m st sid pid).1
  | .rederivePending emb => AirNote.rederivePending emb st
  | .gcStaleVectors keepModelId => AirNote.gcStaleVectors st keepModelId

/-- What an operation may append to the log, with what it has checked. -/
inductive MemoryOp.Appends (st : Store) : MemoryOp → List Event → Prop where
  | nothing (op : MemoryOp) : Appends st op []
  | call (c : AppendCall) : Appends st (.call c) c.events
  | remember (emb : Embedder) (m : Mint) (text : String) :
      Appends st (.remember emb m text) [externalNoteEvent text]
  | supersedeNote (emb : Embedder) (m₁ m₂ : Mint) (target text : String)
      (ev : Event) (hev : eventById st.log target = some ev)
      (hmemory : ev.eventType = memoryEventType) :
      Appends st (.supersedeNote emb m₁ m₂ target text)
        [groundTruthSupersedeEvent target, externalNoteEvent text]
  | retireMemory (m : Mint) (target : String) (src : Option String) :
      Appends st (.retireMemory m target src) [noteRetiredEvent target src]
  | unretire (m : Mint) (target : String) :
      Appends st (.unretire m target) [unretireEvent target]
  | capture (dateLabel : Int → String) (emb : Embedder) (m₁ m₂ : Mint)
      (sm : SessionMeta)
      (hdel : sm.sessionId ∉
        (foldSessions (sessionEventsOrdered st.log)).deleted)
      (hnone : findCurrent st.log sm.sessionId = none) :
      Appends st (.captureSession dateLabel emb m₁ m₂ sm)
        [sessionCapturedEvent dateLabel sm]
  | recapture (dateLabel : Int → String) (emb : Embedder) (m₁ m₂ : Mint)
      (sm : SessionMeta) (prev : CurrentSession)
      (hprev : findCurrent st.log sm.sessionId = some prev)
      (hsha : prev.sha256 ≠ sm.sha256) :
      Appends st (.captureSession dateLabel emb m₁ m₂ sm)
        [groundTruthSupersedeEvent prev.eventId,
          sessionCapturedEvent dateLabel sm]
  | deleteSession (m : Mint) (sid : String) :
      Appends st (.deleteSession m sid) [sessionDeletedEvent sid]
  | retirePassage (m : Mint) (sid : String) (pid : Nat)
      (src : Option String) :
      Appends st (.retirePassage m sid pid src)
        [passageRetiredEvent sid pid src]
  | unretirePassage (m : Mint) (sid : String) (pid : Nat) :
      Appends st (.unretirePassage m sid pid) [unretirePassageEvent sid pid]

/-- From a transaction to what the operation appends. -/
private theorem appends_of_transacts {st : Store} {op : MemoryOp}
    {drafts : List Event} (happ : op.Appends st drafts)
    (h : Transacts st.log drafts (op.exec st).log) :
    ∃ drafts, op.Appends st drafts ∧
      Logged st.log drafts (op.exec st).log := by
  rcases h with hsame | hlogged
  · refine ⟨[], .nothing op, ?_⟩
    rw [hsame]
    exact .nil
  · exact ⟨drafts, happ, hlogged⟩

/-- **Every step of the memory store, in full.** -/
theorem MemoryOp.exec_appends (st : Store) (op : MemoryOp) :
    ∃ drafts, op.Appends st drafts ∧
      Logged st.log drafts (op.exec st).log := by
  have hsame : ∀ {op : MemoryOp}, (op.exec st).log = st.log →
      ∃ drafts, op.Appends st drafts ∧
        Logged st.log drafts (op.exec st).log := by
    intro op h
    exact appends_of_transacts (.nothing op) (.inl h)
  cases op with
  | call c =>
      exact appends_of_transacts (.call c) (c.exec_transacts st.log)
  | remember emb m text =>
      exact appends_of_transacts (.remember emb m text)
        (remember_transacts emb m st text)
  | supersedeNote emb m₁ m₂ target text =>
      rcases supersedeNote_transacts emb m₁ m₂ st target text with
        h | ⟨⟨ev, hev, hmemory⟩, h⟩
      · exact hsame h
      · exact appends_of_transacts
          (.supersedeNote emb m₁ m₂ target text ev hev hmemory) h
  | retireMemory m target src =>
      exact appends_of_transacts (.retireMemory m target src)
        (retireMemory_transacts m st target src)
  | unretire m target =>
      exact appends_of_transacts (.unretire m target)
        (unretire_transacts m st target)
  | captureSession dateLabel emb m₁ m₂ sm =>
      rcases captureSession_transacts dateLabel emb m₁ m₂ st sm with
        h | ⟨hdel, hnone, h⟩ | ⟨prev, hprev, hsha, h⟩
      · exact hsame h
      · exact appends_of_transacts
          (.capture dateLabel emb m₁ m₂ sm hdel hnone) h
      · exact appends_of_transacts
          (.recapture dateLabel emb m₁ m₂ sm prev hprev hsha) h
  | deleteSession m sid =>
      exact appends_of_transacts (.deleteSession m sid)
        (deleteSession_transacts m st sid)
  | storeSessionPassages emb eventId chunks =>
      exact hsame (storeSessionPassages_log emb st eventId chunks)
  | retirePassage m sid pid src =>
      exact appends_of_transacts (.retirePassage m sid pid src)
        (retirePassage_transacts m st sid pid src)
  | unretirePassage m sid pid =>
      exact appends_of_transacts (.unretirePassage m sid pid)
        (unretirePassage_transacts m st sid pid)
  | rederivePending emb => exact hsame (rederivePending_log emb st)
  | gcStaleVectors keepModelId => exact hsame rfl

/-- The log of a store reached by operations has unique identifiers. -/
theorem uniqueIds_run {st : Store} (hu : UniqueIds st.log)
    (ops : List MemoryOp) :
    UniqueIds (Trace.run MemoryOp.exec st ops).log := by
  refine Trace.run_inv (fun s : Store => UniqueIds s.log)
    (fun s op hs => ?_) hu ops
  obtain ⟨drafts, -, hlogged⟩ := op.exec_appends s
  exact hlogged.uniqueIds hs

/-- A run only ever appends to the log. -/
theorem run_suffix (st : Store) (ops : List MemoryOp) :
    ∃ suffix, (Trace.run MemoryOp.exec st ops).log = st.log ++ suffix := by
  refine Trace.run_inv
    (fun s : Store => ∃ suffix, s.log = st.log ++ suffix)
    (fun s op hs => ?_) ⟨[], by simp⟩ ops
  obtain ⟨suffix, hs⟩ := hs
  obtain ⟨drafts, -, hlogged⟩ := op.exec_appends s
  obtain ⟨more, hmore⟩ := hlogged.suffix
  exact ⟨suffix ++ more, by rw [hmore, hs, List.append_assoc]⟩

/-! ## A deleted session -/

/-- The session is deleted in the log. -/
def SessionDeleted (log : EventLog) (sid : String) : Prop :=
  ∃ ev ∈ log, Deletes sid ev

theorem mem_deleted_of_sessionDeleted {log : EventLog} {sid : String}
    (h : SessionDeleted log sid) :
    sid ∈ (foldSessions (sessionEventsOrdered log)).deleted := by
  obtain ⟨ev, hmem, htype, hsid⟩ := h
  show sid ∈ (foldMarkers (sessionEventsOrdered log)).deleted
  rw [mem_deleted_iff]
  refine ⟨ev, ?_, htype, hsid⟩
  rw [sessionEventsOrdered, List.mem_filter]
  exact ⟨hmem, by rw [htype]; decide⟩

/-- No trace of the session is left to any reader of the store. -/
structure Gone (sid : String) (st : Store) : Prop where
  notCurrent : ∀ cs ∈ currentSessions st.log, cs.sessionId ≠ sid
  captureFails : ∀ dateLabel emb m₁ m₂ sm, sm.sessionId = sid →
    captureSession dateLabel emb m₁ m₂ st sm = (st, .error (.invalidInput
      s!"session {sid} was deleted and cannot be recaptured (I9)"))
  notPending : ∀ modelId, ∀ ev ∈ collectPending st modelId,
    ¬ IsCaptureOf sid ev
  notEmbeddable : ∀ p ∈ embeddableEvents st.log, ∀ ev ∈ st.log,
    ev.id = p.1 → ¬ IsCaptureOf sid ev
  notRecalled : ∀ opts pages files vectorArm keywordArm ranking k hits,
    recallHits st.log opts pages files vectorArm keywordArm ranking k =
      .ok hits → ∀ h ∈ hits, ∀ ev ∈ st.log, ev.id = h.eventId →
      ¬ IsCaptureOf sid ev

/-- The captures of a deleted session are excluded from embedding. -/
theorem embedExcluded_of_deleted {log : EventLog} {sid : String}
    (hdel : sid ∈ (foldSessions (sessionEventsOrdered log)).deleted)
    {ev : Event} (hmem : ev ∈ log) (hcap : IsCaptureOf sid ev) :
    embedExcluded log ev.id = true := by
  have hstream : ev ∈ sessionEventsOrdered log := by
    rw [sessionEventsOrdered, List.mem_filter]
    exact ⟨hmem, by rw [hcap.1]; decide⟩
  unfold embedExcluded
  simp only [Bool.or_eq_true, List.any_eq_true]
  refine .inr ⟨ev, hstream, ?_⟩
  simp [hcap.1, hcap.2, hdel]

/-- **All five readers honour the tombstone.** -/
theorem gone_of_sessionDeleted {st : Store} {sid : String}
    (hu : UniqueIds st.log) (h : SessionDeleted st.log sid) :
    Gone sid st := by
  have hdel := mem_deleted_of_sessionDeleted h
  have hcurrent : ∀ cs ∈ currentSessions st.log, cs.sessionId ≠ sid := by
    intro cs hcs heq
    obtain ⟨ev, -, hlive⟩ := exists_of_mem_current hcs
    exact hlive.notDeleted (heq ▸ hdel)
  refine
    { notCurrent := hcurrent
      captureFails := ?_
      notPending := ?_
      notEmbeddable := ?_
      notRecalled := ?_ }
  · intro dateLabel emb m₁ m₂ sm hsm
    subst hsm
    rw [captureSession, if_pos hdel]
  · intro modelId ev hev hcap
    rw [collectPending, List.mem_filter] at hev
    obtain ⟨hmem, hkeep⟩ := hev
    have hexcl := embedExcluded_of_deleted hdel hmem hcap
    simp [hexcl] at hkeep
  · intro p hp ev hev hid hcap
    rw [embeddableEvents, List.mem_filter] at hp
    have hexcl := embedExcluded_of_deleted hdel hev hcap
    rw [hid] at hexcl
    simp [hexcl] at hp
  · intro opts pages files vectorArm keywordArm ranking k hits hrec hit hhit
      ev hev hid hcap
    obtain ⟨hkind, hkeeps⟩ := recall_mem hrec hhit
    have hres : eventById st.log hit.eventId = some ev := by
      rw [← hid]
      exact eventById_of_mem hu hev
    have hsess : hit.kind = sessionCapturedEventType := by
      rw [hkind, candidateKind, hres]
      exact hcap.1
    have hpage : ¬ hit.kind = pageEventType := by rw [hsess]; decide
    have hfile : ¬ hit.kind = fileIngestedEventType := by rw [hsess]; decide
    simp only [recallKeeps, if_neg hpage, if_neg hfile, if_pos hsess,
      List.any_eq_true, beq_iff_eq] at hkeeps
    -- the kept capture is the event itself, so its session is `sid`
    obtain ⟨cs, hcs, hcsid⟩ := hkeeps
    obtain ⟨ev', hev', hlive⟩ := exists_of_mem_current hcs
    obtain ⟨hcsev, hcssid⟩ := parseSessionContent_some hlive.parsed
    have hmem' : ev' ∈ st.log := (List.mem_filter.mp hev').1
    have hsame : ev' = ev := by
      have hfind := eventById_of_mem hu hmem'
      rw [← hcsev, hcsid, hres] at hfind
      exact (Option.some.inj hfind).symm
    subst hsame
    have hsid : cs.sessionId = sid := by
      rw [hcap.2] at hcssid
      exact (Option.some.inj hcssid).symm
    exact hcurrent cs hcs hsid

theorem sessionDeleted_of_deleteSession {m : Mint} {st st' : Store}
    {sid id : String} (h : deleteSession m st sid = (st', .ok id)) :
    SessionDeleted st'.log sid := by
  unfold deleteSession at h
  split at h
  · simp at h
  · unfold Store.append at h
    cases happ : AirNote.append m st.log (sessionDeletedEvent sid) with
    | error e => simp [happ] at h
    | ok r =>
        obtain ⟨-, stored, hs, hlog⟩ := append_ok happ
        simp only [happ, Prod.mk.injEq, Except.ok.injEq] at h
        obtain ⟨rfl, -⟩ := h
        refine ⟨stored, ?_, ?_, ?_⟩
        · show stored ∈ r.1
          simp [hlog]
        · rw [hs.eventType_eq]
          rfl
        · rw [hs.content_eq]
          rfl

/-- **Session deletion is permanent.** In every run, once a deletion has
succeeded, no reader of any later store finds the session again; and at all
times each session has at most one current capture. -/
theorem session_deletion_permanent (before : List MemoryOp) :
    ((currentSessions (Trace.run MemoryOp.exec Store.empty before).log).map
        CurrentSession.sessionId).Nodup ∧
      ∀ (m : Mint) (sid : String) (st : Store) (id : String),
        deleteSession m (Trace.run MemoryOp.exec Store.empty before) sid =
          (st, .ok id) →
        ∀ later, Gone sid (Trace.run MemoryOp.exec st later) ∧
          ((currentSessions (Trace.run MemoryOp.exec st later).log).map
            CurrentSession.sessionId).Nodup := by
  refine ⟨nodup_current_sessionId _, ?_⟩
  intro m sid st id hdel later
  refine ⟨?_, nodup_current_sessionId _⟩
  have hu : UniqueIds st.log := by
    have hempty : UniqueIds Store.empty.log := uniqueIds_nil
    have hrun := uniqueIds_run hempty
      (before ++ [.deleteSession m sid])
    rw [Trace.run_append] at hrun
    have hst : st = Trace.run MemoryOp.exec
        (Trace.run MemoryOp.exec Store.empty before)
        [.deleteSession m sid] := by
      show st = (deleteSession m _ sid).1
      rw [hdel]
    rw [hst]
    exact hrun
  obtain ⟨ev, hmem, hdeletes⟩ := sessionDeleted_of_deleteSession hdel
  obtain ⟨suffix, hlog⟩ := run_suffix st later
  refine gone_of_sessionDeleted (uniqueIds_run hu later) ⟨ev, ?_, hdeletes⟩
  rw [hlog]
  exact List.mem_append_left suffix hmem

/-- A capture of the session `s1` with the body digest `sha256`. -/
def sampleCapture (sha256 : String) (m₁ m₂ : Mint) : MemoryOp :=
  .captureSession (fun _ => "2026-01-01")
    { modelId := "static", dim := 1, embed := fun _ => .ok [0] } m₁ m₂
    { sessionId := "s1", title := "Fix", project := "air-note",
      tool := "claude-code", startedAt := 1767225600,
      endedAt := 1767229200, path := "sessions/s1.md", sha256 := sha256,
      approxBytes := 10 }

/-- Captured, deleted, and captured again with another body. -/
theorem session_deletion_permanent_sample :
    Gone "s1" (Trace.run MemoryOp.exec
      (deleteSession (.plain "del-1") (Trace.run MemoryOp.exec Store.empty
        [sampleCapture "aa" (.plain "cap-1") (.plain "cap-2")]) "s1").1
      [sampleCapture "bb" (.plain "cap-3") (.plain "cap-4")]) := by
  have hdel : deleteSession (.plain "del-1")
      (Trace.run MemoryOp.exec Store.empty
        [sampleCapture "aa" (.plain "cap-1") (.plain "cap-2")]) "s1" =
      ((deleteSession (.plain "del-1") (Trace.run MemoryOp.exec Store.empty
        [sampleCapture "aa" (.plain "cap-1") (.plain "cap-2")]) "s1").1,
        .ok "del-1") := by
    rfl
  exact ((session_deletion_permanent
    [sampleCapture "aa" (.plain "cap-1") (.plain "cap-2")]).2
    (.plain "del-1") "s1" _ "del-1" hdel
    [sampleCapture "bb" (.plain "cap-3") (.plain "cap-4")]).1

end AirNote
