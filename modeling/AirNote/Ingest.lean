import AirNote.Lib.Trace
import AirNote.Memory
import AirNote.Projections
import AirNote.Walk

/-!
# Ingest

An ingest walks the granted folders and, for each file that can be read as
text, compares its hash with the record of its path: a file that is new is
appended, one that has changed is appended together with an event that
supersedes its record. The records are read from a table, which is rebuilt
from the log at the end of each folder only. The vector of an event is derived
after it was appended, and an error there ends the ingest before the table is
rebuilt: a retry compares with a table that does not have what was appended.

A path is written into its record with what is not valid UTF-8 replaced, so
that two files may have one path.

Which grants are active and what the clock says is asked before each file;
the answers are parameters, as are the reads and the parsers. Left out are the
recall indexes.

## Main results

* `getElem?_foldFiles` — the record of a path is that of the last event that
  counts.
* `ingest_idempotent` — after any run of ingests, failed ones among them, one
  that completes leaves one record of each file and a further one appends
  nothing, if each began with the table of its log and had no two files of
  one path.
* `ingest_repeats` — a retry after an error, and two files with one path.
-/

namespace AirNote

open Lib

/-! ## The records of a path -/

/-- The records of the `file_ingested` events of a path that no event
supersedes. -/
def currentRecords (log : EventLog) (path : String) : List FileRecord :=
  log.filterMap (Fold.rowAt
    (countedRow fileIngestedEventType (supersededTargets log) fileRow) path)

/-- `current_file_for_path`, on the table alone. -/
def fileOfPath (files : List FileRecord) (path : String) :
    Option FileRecord :=
  files.find? fun r => r.canonicalPath == path

theorem supersededTargets_append (log more : List Event) :
    supersededTargets (log ++ more) =
      supersededTargets log ++ supersededTargets more :=
  List.filterMap_append

/-- The events of a projection have the superseded identifiers of the log. -/
theorem supersededTargets_eventsOfTypes (log : EventLog) (types : List String)
    (htypes : supersedeEventType ∈ types) :
    supersededTargets (eventsOfTypes log types) = supersededTargets log := by
  induction log with
  | nil => rfl
  | cons ev rest ih =>
      unfold eventsOfTypes at ih ⊢
      by_cases hin : types.contains ev.eventType = true
      · rw [List.filter_cons, if_pos hin]
        unfold supersededTargets at ih ⊢
        rw [List.filterMap_cons, List.filterMap_cons, ih]
      · rw [List.filter_cons, if_neg hin, ih]
        have hne : ev.eventType ≠ supersedeEventType := by
          intro heq
          rw [heq] at hin
          exact hin (List.contains_iff_mem.mpr htypes)
        unfold supersededTargets
        rw [List.filterMap_cons, if_neg hne]

theorem fileRow_path {ev : Event} {k : String} {r : FileRecord}
    (h : fileRow ev = some (k, r)) :
    r.canonicalPath = k ∧ r.fileEventId = ev.id := by
  unfold fileRow at h
  obtain ⟨⟨path, hash, root⟩, -, heq⟩ := Option.map_eq_some_iff.mp h
  cases heq
  exact ⟨rfl, rfl⟩

theorem countedRow_path {log : List Event} {ev : Event} {k : String}
    {r : FileRecord}
    (h : countedRow fileIngestedEventType (supersededTargets log) fileRow ev =
      some (k, r)) : r.canonicalPath = k ∧ r.fileEventId = ev.id := by
  unfold countedRow at h
  split at h
  · cases h
  · exact fileRow_path h

/-- Only the events of a projection have records. -/
theorem currentRecords_eventsOfTypes (log : EventLog) (path : String) :
    (fileAndSupersedeEventsOrdered log).filterMap (Fold.rowAt
      (countedRow fileIngestedEventType (supersededTargets log) fileRow)
        path) = currentRecords log path := by
  have hgen : ∀ (superseded : List String) (l : List Event),
      (eventsOfTypes l [fileIngestedEventType, supersedeEventType]).filterMap
        (Fold.rowAt (countedRow fileIngestedEventType superseded fileRow)
          path) =
      l.filterMap (Fold.rowAt
        (countedRow fileIngestedEventType superseded fileRow) path) := by
    intro superseded l
    induction l with
    | nil => rfl
    | cons ev rest ih =>
        unfold eventsOfTypes at ih ⊢
        by_cases hin : [fileIngestedEventType, supersedeEventType].contains
            ev.eventType = true
        · rw [List.filter_cons, if_pos hin, List.filterMap_cons,
            List.filterMap_cons, ih]
        · rw [List.filter_cons, if_neg hin, ih, List.filterMap_cons]
          have hne : ev.eventType ≠ fileIngestedEventType := by
            intro heq
            rw [heq] at hin
            exact hin (by decide)
          have hnone : Fold.rowAt (countedRow fileIngestedEventType superseded
              fileRow) path ev = none := by
            unfold Fold.rowAt countedRow
            rw [if_pos (Or.inl hne)]
            rfl
          rw [hnone]
  exact hgen (supersededTargets log) log

/-- The record that the projection has of a path is the last one of the log.
-/
theorem getElem?_foldFiles (log : EventLog) (path : String) :
    fileOfPath (foldFiles (fileAndSupersedeEventsOrdered log)) path =
      (currentRecords log path).getLast? := by
  let row := countedRow fileIngestedEventType
    (supersededTargets (fileAndSupersedeEventsOrdered log)) fileRow
  have hget : (Fold.latestMap row (fileAndSupersedeEventsOrdered log))[path]? =
      (currentRecords log path).getLast? := by
    rw [Fold.getElem?_latestMap, ← List.getLast?_filterMap,
      ← currentRecords_eventsOfTypes]
    show ((fileAndSupersedeEventsOrdered log).filterMap (Fold.rowAt
      (countedRow fileIngestedEventType
        (supersededTargets (eventsOfTypes log
          [fileIngestedEventType, supersedeEventType])) fileRow)
      path)).getLast? = _
    rw [supersededTargets_eventsOfTypes log _ (by decide)]
  rw [← hget]
  exact Fold.find?_latest (fun _ _ _ hrow => (countedRow_path hrow).1)
    (fileAndSupersedeEventsOrdered log) path


/-! ## A draft of a file -/

/-- `Parser`. -/
structure Parser where
  convert : Bytes → PathHint → Except IngestError String
  parserId : String

/-- `NativeTextParser`. -/
def nativeTextParser : Parser :=
  { convert := fun raw _ =>
      match String.fromUTF8? ⟨raw.toArray⟩ with
      | some text => .ok text
      | none => .error .nonUtf8
    parserId := "native-text-v1" }

/-- `NullRichParser`. -/
def nullRichParser : Parser :=
  { convert := fun _ _ =>
      .error (.sandboxUnavailable "markitdown parser not available")
    parserId := "null-rich" }

/-- `ParserRouter`. -/
structure ParserRouter where
  native : Parser
  rich : Parser

/-- `ParserRouter::native_only`. -/
def ParserRouter.nativeOnly : ParserRouter :=
  { native := nativeTextParser, rich := nullRichParser }

/-- `ParserRouter::pick`. -/
def ParserRouter.pick (router : ParserRouter) (hint : PathHint) : Parser :=
  if isRichExt hint.ext then router.rich else router.native

/-- `IngestError::is_skip`. -/
def IngestError.isSkip : IngestError → Bool
  | nonUtf8 | tooLarge | sandboxUnavailable _ => true
  | _ => false

/-- The text of an absolute path. -/
def pathText (path : List String) : String :=
  String.ofList ('/' :: relText path)

/-- What an ingest reads of an open file, and the hexadecimal digest. -/
structure IngestHost where
  readAllCapped : ContainedFile → Nat → Except IngestError Bytes
  modifiedAt : ContainedFile → String
  sha256 : Bytes → String

/-- `file_ingested_content`. -/
def fileIngestedContent (sha256 : Bytes → String)
    (text canonicalPath : String) (raw : Bytes)
    (grantRoot parserId modifiedAt : String) : Json :=
  .obj [("text", .str text), ("origin", .str externalOrigin),
    ("provenance", .obj
      [("canonical_path", .str canonicalPath),
        ("content_hash", .str (sha256 raw)),
        ("text_hash", .str (sha256 text.toUTF8.toList)),
        ("size_bytes", .num raw.length), ("modified_at", .str modifiedAt),
        ("parser_id", .str parserId), ("grant_root", .str grantRoot)])]

/-- What is appended of a file: the record that is read from its content is
that of the path and the hash. -/
structure FileDraft where
  path : String
  contentHash : String
  grantRoot : String
  content : Json
  parses : parseFileIngestedContent content =
    some (path, contentHash, grantRoot)

/-- `file_ingested_content` of a file, with what the ingest compares. -/
def FileDraft.of (sha256 : Bytes → String) (text canonicalPath : String)
    (raw : Bytes) (grantRoot parserId modifiedAt : String) : FileDraft :=
  { path := canonicalPath
    contentHash := sha256 raw
    grantRoot := grantRoot
    content := fileIngestedContent sha256 text canonicalPath raw grantRoot
      parserId modifiedAt
    parses := rfl }

/-- Why nothing is appended of a file. -/
inductive Unread where
  | skipped (reason : String)
  | failed (reason : String)

/-- A file is read, within the cap of its kind, and converted. -/
def draftFile (host : IngestHost) (router : ParserRouter)
    (limits : WalkLimits) (grantRoot : List String) (wf : WalkedFile) :
    Except Unread FileDraft :=
  let cap := if isRichExt wf.hint.ext then limits.maxRichFileBytes
    else limits.maxFileBytes
  match host.readAllCapped wf.file cap with
  | .error .tooLarge => .error (.skipped "oversize")
  | .error e => .error (.failed e.display)
  | .ok raw =>
      let parser := router.pick wf.hint
      match parser.convert raw wf.hint with
      | .error e =>
          if e.isSkip then .error (.skipped e.display)
          else .error (.failed e.display)
      | .ok text =>
          if isBlank text then .error (.skipped "no extractable text")
          else .ok (.of host.sha256 text (pathText wf.canonicalPath) raw
            (pathText grantRoot) parser.parserId (host.modifiedAt wf.file))

/-- `ground_truth_file_ingested`. -/
def groundTruthFileIngested (content : Json) : Event :=
  .draft fileIngestedEventType content none

/-! ## The ingest -/

/-- The events with the tables derived beside them, the inodes seen in a run
and its report. -/
structure IngestState where
  store : Store
  files : List FileRecord
  seen : List FileIdentity
  report : IngestReport

/-- The report of nothing. -/
def IngestReport.blank : IngestReport := ⟨0, 0, 0, [], []⟩

/-- What is reported after what was. -/
def IngestReport.join (r more : IngestReport) : IngestReport :=
  { ingested := r.ingested + more.ingested
    superseded := r.superseded + more.superseded
    deduped := r.deduped + more.deduped
    skipped := r.skipped ++ more.skipped
    failed := r.failed ++ more.failed }

/-- Nothing is appended of a file, which the report says. -/
def IngestState.leave (st : IngestState) (path : List String) :
    Unread → IngestState
  | .skipped reason =>
      { st with
        report := st.report.join ⟨0, 0, 0, [(path, reason)], []⟩ }
  | .failed reason =>
      { st with
        report := st.report.join ⟨0, 0, 0, [], [(path, reason)]⟩ }

/-- `rebuild_graph`, as far as the records of files go. -/
def IngestState.rebuildGraph (st : IngestState) : IngestState :=
  { st with files := foldFiles (fileAndSupersedeEventsOrdered st.store.log) }

/-- The store an append has left, and the report where its vector was
derived. -/
def IngestState.appended (st : IngestState) (counted : IngestReport)
    (r : Outcome String) : IngestState × Except BossclawError Unit :=
  match r with
  | (store, .error e) => ({ st with store := store }, .error e)
  | (store, .ok _) =>
      ({ st with store := store, report := st.report.join counted }, .ok ())

/-- A draft is compared with the record of its path. -/
def ingestDraft (emb : Embedder) (m₁ m₂ : Mint) (d : FileDraft)
    (st : IngestState) : IngestState × Except BossclawError Unit :=
  match fileOfPath st.files d.path with
  | some prev =>
      if prev.contentHash = d.contentHash then
        ({ st with report := st.report.join ⟨0, 0, 1, [], []⟩ }, .ok ())
      else
        st.appended ⟨0, 1, 0, [], []⟩
          (match st.store.appendPair m₁ m₂
              (groundTruthSupersedeEvent prev.fileEventId)
              (groundTruthFileIngested d.content) with
          | (store, .error e) => (store, .error e)
          | (store, .ok (_, newId)) => derived emb (store, .ok newId))
  | none =>
      st.appended ⟨1, 0, 0, [], []⟩
        (derived emb (st.store.append m₁ (groundTruthFileIngested d.content)))

/-- One granted folder in a run: how it is walked, what the clock and the
grants say before each of its files, and what its appends take from their
environment. -/
structure GrantRun (δ : Type) where
  walk : Walk δ
  elapsed : Nat → Nat
  active : Nat → Bool
  embedder : Nat → Embedder
  mints : Nat → Mint × Mint

section

variable {δ : Type} (host : IngestHost) (router : ParserRouter)

/-- What is drafted of the `i`-th file of a folder. -/
def GrantRun.draft (g : GrantRun δ) (i : Nat) (wf : WalkedFile) :
    Except Unread FileDraft :=
  if g.walk.limits.wallClock < g.elapsed i then
    .error (.skipped "wall-clock budget exceeded")
  else if g.active i = false then
    .error (.skipped "grant revoked mid-ingest")
  else draftFile host router g.walk.limits g.walk.grantRoot wf

/-- The `i`-th file of a folder. -/
def GrantRun.ingestFile (g : GrantRun δ) (i : Nat) (wf : WalkedFile)
    (st : IngestState) : IngestState × Except BossclawError Unit :=
  match g.draft host router i wf with
  | .error why => (st.leave wf.canonicalPath why, .ok ())
  | .ok d =>
      ingestDraft (g.embedder i) (g.mints i).1 (g.mints i).2 d st

/-- The files of a folder from the `i`-th on; an error ends the run. -/
def GrantRun.ingestFiles (g : GrantRun δ) :
    Nat → List WalkedFile → IngestState →
      IngestState × Except BossclawError Unit
  | _, [], st => (st, .ok ())
  | i, wf :: rest, st =>
      match g.ingestFile host router i wf st with
      | (st', .error e) => (st', .error e)
      | (st', .ok ()) => GrantRun.ingestFiles g (i + 1) rest st'

/-- `ingest_grant_inner`. -/
def ingestGrantInner (g : GrantRun δ) (st : IngestState) :
    IngestState × Except BossclawError Unit :=
  let walked := walkGrant g.walk st.seen .blank
  let st := { st with seen := walked.seen
                      report := st.report.join walked.report }
  match walked.ended with
  | some (.failed e) => (st, .error e)
  | _ =>
      match g.ingestFiles host router 0 walked.walked st with
      | (st', .error e) => (st', .error e)
      | (st', .ok ()) => (st'.rebuildGraph, .ok ())

/-- The granted folders, one after the other. -/
def ingestGrants : List (GrantRun δ) → IngestState →
    IngestState × Except BossclawError Unit
  | [], st => (st, .ok ())
  | g :: rest, st =>
      match ingestGrantInner host router g st with
      | (st', .error e) => (st', .error e)
      | (st', .ok ()) => ingestGrants rest st'

end

/-- One run over the granted folders. -/
structure IngestRun (δ : Type) where
  host : IngestHost
  router : ParserRouter
  grants : List (GrantRun δ)

/-- `ingest_all`. -/
def ingestAll {δ : Type} (run : IngestRun δ) (st : IngestState) :
    IngestState × Except BossclawError Unit :=
  ingestGrants run.host run.router run.grants
    { st with seen := [], report := .blank }

/-- The drafts of the files of a folder from the `i`-th on. -/
def GrantRun.drafts {δ : Type} (host : IngestHost) (router : ParserRouter)
    (g : GrantRun δ) : Nat → List WalkedFile → List FileDraft
  | _, [] => []
  | i, wf :: rest =>
      match g.draft host router i wf with
      | .error _ => GrantRun.drafts host router g (i + 1) rest
      | .ok d => d :: GrantRun.drafts host router g (i + 1) rest

/-- The drafts of the files of the granted folders. -/
def grantDrafts {δ : Type} (host : IngestHost) (router : ParserRouter) :
    List (GrantRun δ) → List FileIdentity → List FileDraft
  | [], _ => []
  | g :: rest, seen =>
      let walked := walkGrant g.walk seen .blank
      g.drafts host router 0 walked.walked ++
        grantDrafts host router rest walked.seen

/-- The drafts of the eligible files of a run. -/
def IngestRun.drafts {δ : Type} (run : IngestRun δ) : List FileDraft :=
  grantDrafts run.host run.router run.grants []

/-- What changes the log or the table. -/
inductive IngestOp (δ : Type) where
  | ingest (run : IngestRun δ)
  | rebuild
  | other (m : Mint) (event : Event)

/-- One operation; an append that is refused changes nothing. -/
def IngestState.exec {δ : Type} (st : IngestState) :
    IngestOp δ → IngestState
  | .ingest run => (ingestAll run st).1
  | .rebuild => st.rebuildGraph
  | .other m event => { st with store := (st.store.append m event).1 }

/-- Nothing was ingested. -/
def IngestState.empty : IngestState := ⟨.empty, [], [], .blank⟩


/-! ## What an append does to the records -/

theorem mem_currentRecords {log : EventLog} {path : String} {r : FileRecord}
    (h : r ∈ currentRecords log path) :
    ∃ ev ∈ log, ev.eventType = fileIngestedEventType ∧
      fileRow ev = some (path, r) := by
  obtain ⟨ev, hmem, hrow⟩ := List.mem_filterMap.mp h
  have hcounted := Fold.rowAt_eq_some.1 hrow
  unfold countedRow at hcounted
  by_cases hout : ev.eventType ≠ fileIngestedEventType ∨
      ev.id ∈ supersededTargets log
  · rw [if_pos hout] at hcounted
    cases hcounted
  · rw [if_neg hout] at hcounted
    exact ⟨ev, hmem, not_not.mp (not_or.mp hout).1, hcounted⟩

/-- Two records of one event are the same. -/
theorem path_of_fileEventId {log : EventLog} {path path₂ : String}
    {r r₂ : FileRecord} (hu : UniqueIds log)
    (h : r ∈ currentRecords log path) (h₂ : r₂ ∈ currentRecords log path₂)
    (hid : r.fileEventId = r₂.fileEventId) : path = path₂ := by
  obtain ⟨ev, hev, -, hrow⟩ := mem_currentRecords h
  obtain ⟨ev₂, hev₂, -, hrow₂⟩ := mem_currentRecords h₂
  have hsame : ev.id = ev₂.id := by
    rw [← (fileRow_path hrow).2, hid, (fileRow_path hrow₂).2]
  have hfind := eventById_of_mem hu hev
  rw [hsame, eventById_of_mem hu hev₂] at hfind
  rw [Option.some.inj hfind, hrow] at hrow₂
  exact congrArg Prod.fst (Option.some.inj hrow₂)

/-- More superseded identifiers take the records of those away. -/
theorem rowAt_superseded (old more : List String) (path : String)
    (ev : Event) :
    Fold.rowAt (countedRow fileIngestedEventType (old ++ more) fileRow) path
        ev =
      (Fold.rowAt (countedRow fileIngestedEventType old fileRow) path
        ev).filter fun r => decide (r.fileEventId ∉ more) := by
  unfold Fold.rowAt countedRow
  by_cases hout : ev.eventType ≠ fileIngestedEventType ∨ ev.id ∈ old
  · have hmore : ev.eventType ≠ fileIngestedEventType ∨
        ev.id ∈ old ++ more := by
      apply hout.imp_right
      intro hold
      exact List.mem_append_left _ hold
    rw [if_pos hout, if_pos hmore]
    rfl
  · rw [if_neg hout]
    cases hrow : fileRow ev with
    | none =>
        split
        · rfl
        · rfl
    | some row =>
        obtain ⟨k, r⟩ := row
        have hid := (fileRow_path hrow).2
        by_cases hnew : ev.id ∈ more
        · rw [if_pos (Or.inr (List.mem_append_right _ hnew))]
          rw [← hid] at hnew
          by_cases hk : k = path
          · simp [hk, hnew, Option.filter]
          · simp [hk]
        · have hin : ¬ (ev.eventType ≠ fileIngestedEventType ∨
              ev.id ∈ old ++ more) := by
            intro hor
            apply hout
            apply hor.imp_right
            intro hmem
            exact (List.mem_append.mp hmem).resolve_right hnew
          rw [if_neg hin]
          rw [← hid] at hnew
          by_cases hk : k = path
          · simp [hk, hnew, Option.filter]
          · simp [hk]

/-- The records after an append: those before that it does not supersede, and
its own. -/
theorem currentRecords_append (log : EventLog) (ev : Event) (path : String) :
    currentRecords (log ++ [ev]) path =
      (currentRecords log path).filter
          (fun r => decide (r.fileEventId ∉ supersededTargets [ev])) ++
        (Fold.rowAt (countedRow fileIngestedEventType
          (supersededTargets (log ++ [ev])) fileRow) path ev).toList := by
  unfold currentRecords
  rw [List.filterMap_append, List.filter_filterMap]
  congr 1
  apply List.filterMap_congr
  intro e _
  rw [supersededTargets_append]
  exact rowAt_superseded _ _ path e

/-- What the rest of the program appends: no record of a file, and what it
supersedes is an event of another kind. -/
def KeepsFiles (log : EventLog) (event : Event) : Prop :=
  event.eventType ≠ fileIngestedEventType ∧
    ∀ id ∈ supersededTargets [event],
      ∃ e ∈ log, e.id = id ∧ e.eventType ≠ fileIngestedEventType

/-- What holds of the records of a log: what is superseded is one of its
events, and no path has two records. -/
structure OneRecord (log : EventLog) : Prop where
  unique : UniqueIds log
  targets : ∀ id ∈ supersededTargets log, ∃ e ∈ log, e.id = id
  single : ∀ path, (currentRecords log path).length ≤ 1

/-- The log has one record of the file, with its hash. -/
def HasRecord (log : EventLog) (d : FileDraft) : Prop :=
  ∃ r, currentRecords log d.path = [r] ∧ r.contentHash = d.contentHash

theorem oneRecord_nil : OneRecord [] :=
  { unique := uniqueIds_nil
    targets := fun _ h => absurd h List.not_mem_nil
    single := fun _ => Nat.zero_le _ }

section

variable {m : Mint} {log : EventLog} {draft stored : Event}

/-- A stored event supersedes what its draft does. -/
theorem Stored.supersededTargets_eq (hs : Stored m log draft stored) :
    supersededTargets [stored] = supersededTargets [draft] := by
  have hstr : stored.content.getStr? "supersedes" =
      draft.content.getStr? "supersedes" := by
    rw [hs.content_eq]
    unfold stampedContent
    split
    · exact Json.getStr?_insertIfObject_ne (by decide) _ _
    · rfl
  show (if stored.eventType = supersedeEventType then
      stored.content.getStr? "supersedes" else none).toList = 
    (if draft.eventType = supersedeEventType then
      draft.content.getStr? "supersedes" else none).toList
  rw [hs.eventType_eq, hstr]

/-- An event of another kind has no record. -/
theorem rowAt_of_type {ev : Event} (superseded : List String) (path : String)
    (h : ev.eventType ≠ fileIngestedEventType) :
    Fold.rowAt (countedRow fileIngestedEventType superseded fileRow) path ev =
      none := by
  unfold Fold.rowAt countedRow
  rw [if_pos (Or.inl h)]
  rfl

/-- What supersedes no record leaves the records as they are. -/
theorem currentRecords_kept (hu : UniqueIds log)
    (hs : Stored m log draft stored) (hkeeps : KeepsFiles log draft)
    (path : String) :
    currentRecords (log ++ [stored]) path = currentRecords log path := by
  have htype : stored.eventType ≠ fileIngestedEventType := by
    rw [hs.eventType_eq]
    exact hkeeps.1
  rw [currentRecords_append, rowAt_of_type _ _ htype, Option.toList_none,
    List.append_nil, List.filter_eq_self]
  intro r hr
  apply decide_eq_true
  intro hin
  rw [hs.supersededTargets_eq] at hin
  obtain ⟨e, he, hid, hother⟩ := hkeeps.2 _ hin
  obtain ⟨ev, hev, hfile, hrow⟩ := mem_currentRecords hr
  have hfind := eventById_of_mem hu he
  rw [hid, (fileRow_path hrow).2, eventById_of_mem hu hev] at hfind
  rw [Option.some.inj hfind] at hfile
  exact hother hfile

/-- A supersede event takes the record it names away. -/
theorem currentRecords_supersede {target : String}
    (hs : Stored m log (groundTruthSupersedeEvent target) stored)
    (path : String) :
    currentRecords (log ++ [stored]) path =
      (currentRecords log path).filter fun r =>
        decide (r.fileEventId ≠ target) := by
  have htype : stored.eventType ≠ fileIngestedEventType := by
    rw [hs.eventType_eq]
    show supersedeEventType ≠ fileIngestedEventType
    decide
  have htargets : supersededTargets [stored] = [target] := by
    rw [hs.supersededTargets_eq]
    rfl
  rw [currentRecords_append, rowAt_of_type _ _ htype, Option.toList_none,
    List.append_nil, htargets]
  simp only [List.mem_singleton]

/-- A file's event adds its record. -/
theorem currentRecords_file {d : FileDraft}
    (htargets : ∀ id ∈ supersededTargets log, ∃ e ∈ log, e.id = id)
    (hs : Stored m log (groundTruthFileIngested d.content) stored)
    (path : String) :
    currentRecords (log ++ [stored]) path =
      currentRecords log path ++ if d.path = path then
        [⟨d.path, stored.id, d.contentHash, d.grantRoot⟩] else [] := by
  have hnone : supersededTargets [stored] = [] := by
    rw [hs.supersededTargets_eq]
    rfl
  have htype : stored.eventType = fileIngestedEventType := hs.eventType_eq
  have hin : ¬ (stored.eventType ≠ fileIngestedEventType ∨
      stored.id ∈ supersededTargets (log ++ [stored])) := by
    intro hor
    cases hor with
    | inl hne => exact hne htype
    | inr hmem =>
        rw [supersededTargets_append, hnone, List.append_nil] at hmem
        obtain ⟨e, he, hid⟩ := htargets _ hmem
        rw [hs.id_eq] at hid
        exact hs.fresh e he hid
  have hrow : fileRow stored =
      some (d.path, ⟨d.path, stored.id, d.contentHash, d.grantRoot⟩) := by
    unfold fileRow
    rw [hs.content_of_none rfl]
    show (parseFileIngestedContent d.content).map _ = _
    rw [d.parses]
    rfl
  rw [currentRecords_append, hnone]
  congr 1
  · rw [List.filter_eq_self]
    intro r _
    exact decide_eq_true List.not_mem_nil
  · unfold Fold.rowAt countedRow
    rw [if_neg hin, hrow, Option.bind_some]
    dsimp only
    split
    · rfl
    · rfl

/-- What is superseded stays an event of the log. -/
theorem OneRecord.targets_append (h : OneRecord log)
    (hs : Stored m log draft stored)
    (hdraft : ∀ id ∈ supersededTargets [draft], ∃ e ∈ log, e.id = id) :
    ∀ id ∈ supersededTargets (log ++ [stored]),
      ∃ e ∈ log ++ [stored], e.id = id := by
  intro id hid
  rw [supersededTargets_append, hs.supersededTargets_eq,
    List.mem_append] at hid
  obtain ⟨e, he, heq⟩ : ∃ e ∈ log, e.id = id := by
    cases hid with
    | inl hold => exact h.targets id hold
    | inr hnew => exact hdraft id hnew
  exact ⟨e, List.mem_append_left _ he, heq⟩

/-- The appends of the rest of the program. -/
theorem OneRecord.kept (h : OneRecord log) (hs : Stored m log draft stored)
    (hkeeps : KeepsFiles log draft) : OneRecord (log ++ [stored]) :=
  { unique := h.unique.stored hs
    targets := by
      apply h.targets_append hs
      intro id hid
      obtain ⟨e, he, heq, -⟩ := hkeeps.2 id hid
      exact ⟨e, he, heq⟩
    single := by
      intro path
      rw [currentRecords_kept h.unique hs hkeeps]
      exact h.single path }

/-- A file's event, where its path has no record. -/
theorem OneRecord.file {d : FileDraft} (h : OneRecord log)
    (hs : Stored m log (groundTruthFileIngested d.content) stored)
    (hnone : currentRecords log d.path = []) :
    OneRecord (log ++ [stored]) ∧ HasRecord (log ++ [stored]) d ∧
      ∀ path, d.path ≠ path →
        currentRecords (log ++ [stored]) path = currentRecords log path := by
  have hrecords := currentRecords_file h.targets hs
  have hown := hrecords d.path
  rw [hnone, if_pos rfl, List.nil_append] at hown
  have hothers : ∀ path, d.path ≠ path →
      currentRecords (log ++ [stored]) path = currentRecords log path := by
    intro path hne
    rw [hrecords, if_neg hne, List.append_nil]
  refine ⟨⟨h.unique.stored hs, ?_, ?_⟩, ⟨_, hown, rfl⟩, hothers⟩
  · apply h.targets_append hs
    intro id hid
    exact absurd hid List.not_mem_nil
  · intro path
    by_cases hpath : d.path = path
    · rw [← hpath, hown]
      exact Nat.le_refl 1
    · rw [hothers path hpath]
      exact h.single path

/-- A supersede event of the record of a path. -/
theorem OneRecord.superseded {prev : FileRecord} {path : String}
    (h : OneRecord log) (hprev : currentRecords log path = [prev])
    (hs : Stored m log (groundTruthSupersedeEvent prev.fileEventId) stored) :
    OneRecord (log ++ [stored]) ∧ currentRecords (log ++ [stored]) path = [] ∧
      ∀ other, path ≠ other →
        currentRecords (log ++ [stored]) other = currentRecords log other := by
  have hrecords := currentRecords_supersede hs
  have hmem : prev ∈ currentRecords log path := by
    rw [hprev]
    exact List.mem_singleton_self prev
  obtain ⟨ev, hev, -, hrow⟩ := mem_currentRecords hmem
  have hothers : ∀ other, path ≠ other →
      currentRecords (log ++ [stored]) other = currentRecords log other := by
    intro other hne
    rw [hrecords, List.filter_eq_self]
    intro r hr
    apply decide_eq_true
    intro heq
    exact hne (path_of_fileEventId h.unique hmem hr heq.symm)
  refine ⟨⟨h.unique.stored hs, ?_, ?_⟩, ?_, hothers⟩
  · apply h.targets_append hs
    intro id hid'
    have hin : id ∈ [prev.fileEventId] := hid'
    rw [List.mem_singleton.mp hin]
    exact ⟨ev, hev, (fileRow_path hrow).2.symm⟩
  · intro other
    rw [hrecords]
    exact (List.length_filter_le _ _).trans (h.single other)
  · rw [hrecords, hprev]
    simp

end

/-! ## What an ingest does -/

/-- The table says of the paths of the drafts what the log does. -/
def Agrees (st : IngestState) (ds : List FileDraft) : Prop :=
  ∀ d ∈ ds, fileOfPath st.files d.path =
    fileOfPath st.rebuildGraph.files d.path

theorem Agrees.fileOfPath_eq {st : IngestState} {ds : List FileDraft}
    (h : Agrees st ds) {d : FileDraft} (hd : d ∈ ds) :
    fileOfPath st.files d.path =
      (currentRecords st.store.log d.path).getLast? :=
  (h d hd).trans (getElem?_foldFiles st.store.log d.path)

/-- What an ingest of the drafts makes of the log. -/
structure Takes (log : EventLog) (ds : List FileDraft)
    (r : IngestState × Except BossclawError Unit) : Prop where
  one : OneRecord r.1.store.log
  frame : ∀ path, (∀ d ∈ ds, d.path ≠ path) →
    currentRecords r.1.store.log path = currentRecords log path
  recorded : r.2 = .ok () → ∀ d ∈ ds, HasRecord r.1.store.log d

theorem Takes.nil {st : IngestState} {result : Except BossclawError Unit}
    (h : OneRecord st.store.log) : Takes st.store.log [] (st, result) :=
  { one := h
    frame := fun _ _ => rfl
    recorded := fun _ _ hd => absurd hd List.not_mem_nil }

/-- An error ends the run. -/
theorem Takes.failed {log : EventLog} {ds more : List FileDraft}
    {st : IngestState} {e : BossclawError}
    (h : Takes log ds (st, .error e)) :
    Takes log (ds ++ more) (st, .error e) :=
  { one := h.one
    frame := by
      intro path hpath
      apply h.frame
      intro d hd
      exact hpath d (List.mem_append_left _ hd)
    recorded := fun hok => nomatch hok }

/-- One ingest after another, of other paths. -/
theorem Takes.trans {log : EventLog} {ds more : List FileDraft}
    {st : IngestState} {r : IngestState × Except BossclawError Unit}
    (h : Takes log ds (st, .ok ())) (hmore : Takes st.store.log more r)
    (hpaths : ∀ d ∈ ds, ∀ d₂ ∈ more, d₂.path ≠ d.path) :
    Takes log (ds ++ more) r :=
  { one := hmore.one
    frame := by
      intro path hpath
      rw [hmore.frame path, h.frame path]
      · intro d hd
        exact hpath d (List.mem_append_left _ hd)
      · intro d hd
        exact hpath d (List.mem_append_right _ hd)
    recorded := by
      intro hok d hd
      cases List.mem_append.mp hd with
      | inl hfirst =>
          obtain ⟨r', hr, hhash⟩ := h.recorded rfl d hfirst
          refine ⟨r', ?_, hhash⟩
          rw [hmore.frame d.path (hpaths d hfirst)]
          exact hr
      | inr hlast => exact hmore.recorded hok d hlast }

section

variable {st : IngestState}

/-- The last record of a path, where there is one at most. -/
theorem OneRecord.getLast? {log : EventLog} (h : OneRecord log)
    (path : String) :
    currentRecords log path = (currentRecords log path).getLast?.toList := by
  have hlen := h.single path
  cases hcur : currentRecords log path with
  | nil => rfl
  | cons r rest =>
      rw [hcur, List.length_cons] at hlen
      have hrest : rest = [] := List.eq_nil_of_length_eq_zero (by omega)
      rw [hrest]
      rfl

theorem appended_kept (counted : IngestReport) (r : Outcome String) :
    (st.appended counted r).1.files = st.files ∧
      (st.appended counted r).1.seen = st.seen := by
  obtain ⟨store, result⟩ := r
  cases result with
  | error e => exact ⟨rfl, rfl⟩
  | ok id => exact ⟨rfl, rfl⟩

/-- The store an append leaves is what counts of it. -/
theorem Takes.appended {log : EventLog} {ds : List FileDraft}
    {counted : IngestReport} {r : Outcome String} (hone : OneRecord r.1.log)
    (hframe : ∀ path, (∀ d ∈ ds, d.path ≠ path) →
      currentRecords r.1.log path = currentRecords log path)
    (hrecorded : ∀ id, r.2 = .ok id → ∀ d ∈ ds, HasRecord r.1.log d) :
    Takes log ds (st.appended counted r) := by
  obtain ⟨store, result⟩ := r
  cases result with
  | error e => exact ⟨hone, hframe, fun hok => nomatch hok⟩
  | ok id => exact ⟨hone, hframe, fun _ => hrecorded id rfl⟩

/-- A draft without a record is appended, unless the append is refused. -/
theorem takes_append (emb : Embedder) (m : Mint) (d : FileDraft)
    (counted : IngestReport) (h : OneRecord st.store.log)
    (hnone : currentRecords st.store.log d.path = []) :
    Takes st.store.log [d] (st.appended counted
      (derived emb
        (st.store.append m (groundTruthFileIngested d.content)))) := by
  cases st.store.append_cases m (groundTruthFileIngested d.content) with
  | inl hrefused =>
      obtain ⟨e, heq⟩ := hrefused
      rw [heq]
      exact Takes.appended h (fun _ _ => rfl) (fun _ hok => nomatch hok)
  | inr hstored =>
      obtain ⟨stored, hs, heq⟩ := hstored
      rw [heq]
      obtain ⟨hone, hrecorded, hothers⟩ := h.file hs hnone
      apply Takes.appended
      · rw [derived_log]
        exact hone
      · intro path hpath
        rw [derived_log]
        exact hothers path (hpath d (List.mem_singleton_self d))
      · intro id _ d₂ hd
        rw [derived_log, List.mem_singleton.mp hd]
        exact hrecorded

/-- A draft of other bytes is appended with the event that supersedes the
record of its path, unless the append is refused. -/
theorem takes_appendPair (emb : Embedder) (m₁ m₂ : Mint) (d : FileDraft)
    (prev : FileRecord) (counted : IngestReport) (h : OneRecord st.store.log)
    (hprev : currentRecords st.store.log d.path = [prev]) :
    Takes st.store.log [d] (st.appended counted
      (match st.store.appendPair m₁ m₂
          (groundTruthSupersedeEvent prev.fileEventId)
          (groundTruthFileIngested d.content) with
        | (store, .error e) => (store, .error e)
        | (store, .ok (_, newId)) => derived emb (store, .ok newId))) := by
  unfold Store.appendPair
  cases hpair : AirNote.appendPair m₁ m₂ st.store.log
      (groundTruthSupersedeEvent prev.fileEventId)
      (groundTruthFileIngested d.content) with
  | error e =>
      exact Takes.appended h (fun _ _ => rfl) (fun _ hok => nomatch hok)
  | ok ids =>
      obtain ⟨log₂, id₁, id₂⟩ := ids
      obtain ⟨log₁, hfirst, hsecond⟩ := appendPair_ok hpair
      obtain ⟨-, stored₁, hs₁, rfl⟩ := appendEventInTx_ok hfirst
      obtain ⟨-, stored₂, hs₂, rfl⟩ := appendEventInTx_ok hsecond
      obtain ⟨hone₁, hgone, hothers₁⟩ := h.superseded hprev hs₁
      obtain ⟨hone₂, hrecorded, hothers₂⟩ := hone₁.file hs₂ hgone
      dsimp only
      apply Takes.appended
      · rw [derived_log]
        exact hone₂
      · intro path hpath
        have hne := hpath d (List.mem_singleton_self d)
        rw [derived_log]
        exact (hothers₂ path hne).trans (hothers₁ path hne)
      · intro id _ d₂ hd
        rw [derived_log, List.mem_singleton.mp hd]
        exact hrecorded

/-- A draft is recorded, where the table says of its path what the log does.
-/
theorem takes_ingestDraft (emb : Embedder) (m₁ m₂ : Mint) (d : FileDraft)
    (h : OneRecord st.store.log) (hagrees : Agrees st [d]) :
    Takes st.store.log [d] (ingestDraft emb m₁ m₂ d st) := by
  have htable := hagrees.fileOfPath_eq (List.mem_singleton_self d)
  have hrecords := h.getLast? d.path
  rw [← htable] at hrecords
  unfold ingestDraft
  cases hfind : fileOfPath st.files d.path with
  | none =>
      rw [hfind] at hrecords
      exact takes_append emb m₁ d _ h hrecords
  | some prev =>
      rw [hfind] at hrecords
      dsimp only
      split
      · next hhash =>
          refine ⟨h, fun _ _ => rfl, ?_⟩
          intro _ d₂ hd
          rw [List.mem_singleton.mp hd]
          exact ⟨prev, hrecords, hhash⟩
      · exact takes_appendPair emb m₁ m₂ d prev _ h hrecords

/-- The table is not written. -/
theorem ingestDraft_kept (st : IngestState) (emb : Embedder) (m₁ m₂ : Mint)
    (d : FileDraft) :
    (ingestDraft emb m₁ m₂ d st).1.files = st.files ∧
      (ingestDraft emb m₁ m₂ d st).1.seen = st.seen := by
  unfold ingestDraft
  cases fileOfPath st.files d.path with
  | none => exact appended_kept _ _
  | some prev =>
      dsimp only
      split
      · exact ⟨rfl, rfl⟩
      · exact appended_kept _ _

/-- A recorded draft is not appended. -/
theorem ingestDraft_recorded (emb : Embedder) (m₁ m₂ : Mint) (d : FileDraft)
    (hrecorded : HasRecord st.store.log d) (hagrees : Agrees st [d]) :
    (ingestDraft emb m₁ m₂ d st).1.store = st.store ∧
      (ingestDraft emb m₁ m₂ d st).2 = .ok () := by
  obtain ⟨r, hr, hhash⟩ := hrecorded
  have htable := hagrees.fileOfPath_eq (List.mem_singleton_self d)
  rw [hr, List.getLast?_singleton] at htable
  unfold ingestDraft
  rw [htable]
  dsimp only
  rw [if_pos hhash]
  exact ⟨rfl, rfl⟩

end

/-! ## Runs over files and folders -/

theorem agrees_rebuildGraph (st : IngestState) (ds : List FileDraft) :
    Agrees st.rebuildGraph ds := fun _ _ => rfl

/-- The table goes on to agree where neither it nor the log changes. -/
theorem Agrees.frame {st st' : IngestState} {ds : List FileDraft}
    (h : Agrees st ds) (hfiles : st'.files = st.files)
    (hframe : ∀ d ∈ ds, currentRecords st'.store.log d.path =
      currentRecords st.store.log d.path) : Agrees st' ds := by
  intro d hd
  have hrebuilt : fileOfPath st'.rebuildGraph.files d.path =
      (currentRecords st'.store.log d.path).getLast? :=
    getElem?_foldFiles st'.store.log d.path
  rw [hrebuilt, hframe d hd, hfiles]
  exact h.fileOfPath_eq hd

theorem Agrees.mono {st : IngestState} {ds more : List FileDraft}
    (h : Agrees st more) (hsub : ∀ d ∈ ds, d ∈ more) : Agrees st ds :=
  fun d hd => h d (hsub d hd)

section

variable {δ : Type} (host : IngestHost) (router : ParserRouter)
  (g : GrantRun δ)

theorem leave_kept (st : IngestState) (path : List String) (why : Unread) :
    (st.leave path why).store = st.store ∧
      (st.leave path why).files = st.files ∧
      (st.leave path why).seen = st.seen := by
  cases why with
  | skipped reason => exact ⟨rfl, rfl, rfl⟩
  | failed reason => exact ⟨rfl, rfl, rfl⟩

/-- The table is not written until the folder is done. -/
theorem ingestFiles_kept (files : List WalkedFile) :
    ∀ (i : Nat) (st : IngestState),
      (g.ingestFiles host router i files st).1.files = st.files ∧
      (g.ingestFiles host router i files st).1.seen = st.seen := by
  induction files with
  | nil =>
      intro i st
      exact ⟨rfl, rfl⟩
  | cons wf rest ih =>
      intro i st
      have hfile : (g.ingestFile host router i wf st).1.files = st.files ∧
          (g.ingestFile host router i wf st).1.seen = st.seen := by
        unfold GrantRun.ingestFile
        cases g.draft host router i wf with
        | error why => exact (leave_kept st wf.canonicalPath why).2
        | ok d => exact ingestDraft_kept st _ _ _ d
      rw [GrantRun.ingestFiles]
      generalize g.ingestFile host router i wf st = r at hfile
      obtain ⟨st₁, result⟩ := r
      cases result with
      | error e => exact hfile
      | ok _ =>
          have hrest := ih (i + 1) st₁
          exact ⟨hrest.1.trans hfile.1, hrest.2.trans hfile.2⟩

/-- The files of a folder. The induction is on the files: the drafts of the
rest have other paths, so that the table still agrees on them. -/
theorem takes_ingestFiles (files : List WalkedFile) :
    ∀ (i : Nat) (st : IngestState), OneRecord st.store.log →
      ((g.drafts host router i files).map FileDraft.path).Nodup →
      Agrees st (g.drafts host router i files) →
      Takes st.store.log (g.drafts host router i files)
        (g.ingestFiles host router i files st) := by
  induction files with
  | nil =>
      intro i st h _ _
      exact Takes.nil h
  | cons wf rest ih =>
      intro i st h hnodup hagrees
      rw [GrantRun.drafts] at hnodup hagrees ⊢
      rw [GrantRun.ingestFiles, GrantRun.ingestFile]
      cases hdraft : g.draft host router i wf with
      | error why =>
          rw [hdraft] at hnodup hagrees
          have hleave := leave_kept st wf.canonicalPath why
          have hrest := ih (i + 1) (st.leave wf.canonicalPath why)
          rw [hleave.1] at hrest
          apply hrest h hnodup
          apply hagrees.frame hleave.2.1
          intro d _
          rw [hleave.1]
      | ok d =>
          rw [hdraft] at hnodup hagrees
          have hparts := List.nodup_cons.mp hnodup
          have hothers : ∀ d₂ ∈ g.drafts host router (i + 1) rest,
              d₂.path ≠ d.path := by
            intro d₂ hd₂ heq
            exact hparts.1 (heq ▸ List.mem_map_of_mem hd₂)
          have htakes := takes_ingestDraft (g.embedder i) (g.mints i).1
            (g.mints i).2 d h
            (hagrees.mono fun d₂ hd₂ => by
              rw [List.mem_singleton.mp hd₂]
              exact List.mem_cons_self)
          have hkept := ingestDraft_kept st (g.embedder i) (g.mints i).1
            (g.mints i).2 d
          dsimp only
          generalize ingestDraft (g.embedder i) (g.mints i).1 (g.mints i).2 d
            st = r at htakes hkept
          obtain ⟨st₁, result⟩ := r
          cases result with
          | error e => exact htakes.failed
          | ok _ =>
              have hagrees₁ : Agrees st₁
                  (g.drafts host router (i + 1) rest) := by
                apply (hagrees.mono _).frame hkept.1
                · intro d₂ hd₂
                  apply htakes.frame
                  intro d' hd'
                  rw [List.mem_singleton.mp hd']
                  exact (hothers d₂ hd₂).symm
                · intro d₂ hd₂
                  exact List.mem_cons_of_mem d hd₂
              apply htakes.trans (ih (i + 1) st₁ htakes.one hparts.2 hagrees₁)
              intro d' hd' d₂ hd₂
              rw [List.mem_singleton.mp hd']
              exact hothers d₂ hd₂

/-- Where all of its files are recorded, a folder adds nothing. -/
theorem ingestFiles_recorded (files : List WalkedFile) :
    ∀ (i : Nat) (st : IngestState),
      Agrees st (g.drafts host router i files) →
      (∀ d ∈ g.drafts host router i files, HasRecord st.store.log d) →
      (g.ingestFiles host router i files st).1.store = st.store := by
  induction files with
  | nil =>
      intro i st _ _
      rfl
  | cons wf rest ih =>
      intro i st hagrees hrecorded
      rw [GrantRun.drafts] at hagrees hrecorded
      rw [GrantRun.ingestFiles, GrantRun.ingestFile]
      cases hdraft : g.draft host router i wf with
      | error why =>
          rw [hdraft] at hagrees hrecorded
          have hleave := leave_kept st wf.canonicalPath why
          have hrest := ih (i + 1) (st.leave wf.canonicalPath why)
          rw [hleave.1] at hrest
          apply hrest _ hrecorded
          apply hagrees.frame hleave.2.1
          intro d _
          rw [hleave.1]
      | ok d =>
          rw [hdraft] at hagrees hrecorded
          have hhead : Agrees st [d] := hagrees.mono fun d₂ hd₂ => by
            rw [List.mem_singleton.mp hd₂]
            exact List.mem_cons_self
          have hsame := ingestDraft_recorded (g.embedder i) (g.mints i).1
            (g.mints i).2 d (hrecorded d List.mem_cons_self) hhead
          have hkept := ingestDraft_kept st (g.embedder i) (g.mints i).1
            (g.mints i).2 d
          dsimp only
          generalize ingestDraft (g.embedder i) (g.mints i).1 (g.mints i).2 d
            st = r at hsame hkept
          obtain ⟨st₁, result⟩ := r
          dsimp only at hsame hkept
          rw [hsame.2]
          dsimp only
          have hrest := ih (i + 1) st₁
          rw [hsame.1] at hrest
          apply hrest
          · apply (hagrees.mono _).frame hkept.1
            · intro d₂ _
              rw [hsame.1]
            · intro d₂ hd₂
              exact List.mem_cons_of_mem d hd₂
          · intro d₂ hd₂
            exact hrecorded d₂ (List.mem_cons_of_mem d hd₂)

/-- A folder that is done leaves a table that agrees with the log. -/
theorem ingestGrantInner_done (st : IngestState)
    (hok : (ingestGrantInner host router g st).2 = .ok ()) :
    (∀ ds, Agrees (ingestGrantInner host router g st).1 ds) ∧
      (ingestGrantInner host router g st).1.seen =
        (walkGrant g.walk st.seen .blank).seen := by
  unfold ingestGrantInner at hok ⊢
  generalize walkGrant g.walk st.seen .blank = walked at hok ⊢
  dsimp only at hok ⊢
  split at hok
  · cases hok
  · have hkept := ingestFiles_kept host router g walked.walked 0 { st with
        seen := walked.seen
        report := st.report.join walked.report }
    generalize g.ingestFiles host router 0 walked.walked
      { st with seen := walked.seen
                report := st.report.join walked.report } = r at hok hkept
    obtain ⟨st₁, result⟩ := r
    cases result with
    | error e => cases hok
    | ok _ => exact ⟨agrees_rebuildGraph st₁, hkept.2⟩

/-- A granted folder. -/
theorem takes_ingestGrantInner (st : IngestState)
    (h : OneRecord st.store.log)
    (hnodup : ((g.drafts host router 0
      (walkGrant g.walk st.seen .blank).walked).map FileDraft.path).Nodup)
    (hagrees : Agrees st (g.drafts host router 0
      (walkGrant g.walk st.seen .blank).walked)) :
    Takes st.store.log (g.drafts host router 0
        (walkGrant g.walk st.seen .blank).walked)
      (ingestGrantInner host router g st) := by
  unfold ingestGrantInner
  generalize walkGrant g.walk st.seen .blank = walked at hnodup hagrees ⊢
  dsimp only
  split
  · exact ⟨h, fun _ _ => rfl, fun hok => nomatch hok⟩
  · have htakes := takes_ingestFiles host router g walked.walked 0
      { st with seen := walked.seen
                report := st.report.join walked.report } h hnodup hagrees
    generalize g.ingestFiles host router 0 walked.walked
      { st with seen := walked.seen
                report := st.report.join walked.report } = r at htakes
    obtain ⟨st₁, result⟩ := r
    cases result with
    | error e => exact htakes
    | ok _ => exact ⟨htakes.one, htakes.frame, htakes.recorded⟩

/-- A folder whose files are all recorded. -/
theorem ingestGrantInner_recorded (st : IngestState)
    (hagrees : Agrees st (g.drafts host router 0
      (walkGrant g.walk st.seen .blank).walked))
    (hrecorded : ∀ d ∈ g.drafts host router 0
      (walkGrant g.walk st.seen .blank).walked, HasRecord st.store.log d) :
    (ingestGrantInner host router g st).1.store = st.store := by
  unfold ingestGrantInner
  generalize walkGrant g.walk st.seen .blank = walked at hagrees hrecorded ⊢
  dsimp only
  split
  · rfl
  · have hsame := ingestFiles_recorded host router g walked.walked 0
      { st with seen := walked.seen
                report := st.report.join walked.report } hagrees hrecorded
    generalize g.ingestFiles host router 0 walked.walked
      { st with seen := walked.seen
                report := st.report.join walked.report } = r at hsame
    obtain ⟨st₁, result⟩ := r
    cases result with
    | error e => exact hsame
    | ok _ => exact hsame

/-- Folders that are done leave a table that agrees with the log. -/
theorem ingestGrants_done (grants : List (GrantRun δ)) (hne : grants ≠ []) :
    ∀ st : IngestState, (ingestGrants host router grants st).2 = .ok () →
      ∀ ds, Agrees (ingestGrants host router grants st).1 ds := by
  induction grants with
  | nil => exact absurd rfl hne
  | cons g rest ih =>
      intro st hok ds
      rw [ingestGrants] at hok ⊢
      have hdone := ingestGrantInner_done host router g st
      generalize ingestGrantInner host router g st = r at hok hdone
      obtain ⟨st₁, result⟩ := r
      cases result with
      | error e => cases hok
      | ok _ =>
          cases rest with
          | nil => exact (hdone rfl).1 ds
          | cons g₂ rest => exact ih (List.cons_ne_nil _ _) st₁ hok ds

/-- The granted folders. The induction is on the folders: one that is done
leaves a table that agrees with the log on the files of the next. -/
theorem takes_ingestGrants (grants : List (GrantRun δ)) :
    ∀ st : IngestState, OneRecord st.store.log →
      ((grantDrafts host router grants st.seen).map FileDraft.path).Nodup →
      Agrees st (grantDrafts host router grants st.seen) →
      Takes st.store.log (grantDrafts host router grants st.seen)
        (ingestGrants host router grants st) := by
  induction grants with
  | nil =>
      intro st h _ _
      exact Takes.nil h
  | cons g rest ih =>
      intro st h hnodup hagrees
      rw [grantDrafts] at hnodup hagrees ⊢
      rw [ingestGrants]
      rw [List.map_append, List.nodup_append] at hnodup
      obtain ⟨hfirst, hlast, hapart⟩ := hnodup
      have htakes := takes_ingestGrantInner host router g st h hfirst
        (hagrees.mono fun _ hd => List.mem_append_left _ hd)
      have hdone := ingestGrantInner_done host router g st
      generalize ingestGrantInner host router g st = r at htakes hdone
      obtain ⟨st₁, result⟩ := r
      cases result with
      | error e => exact htakes.failed
      | ok _ =>
          obtain ⟨hagrees₁, hseen⟩ := hdone rfl
          dsimp only at hagrees₁ hseen ⊢
          rw [← hseen] at hlast hapart ⊢
          apply htakes.trans (ih st₁ htakes.one hlast (hagrees₁ _))
          intro d hd d₂ hd₂ heq
          exact hapart _ (List.mem_map_of_mem hd) _
            (List.mem_map_of_mem hd₂) heq.symm

/-- Folders whose files are all recorded. -/
theorem ingestGrants_recorded (grants : List (GrantRun δ)) :
    ∀ st : IngestState, Agrees st (grantDrafts host router grants st.seen) →
      (∀ d ∈ grantDrafts host router grants st.seen,
        HasRecord st.store.log d) →
      (ingestGrants host router grants st).1.store = st.store := by
  induction grants with
  | nil =>
      intro st _ _
      rfl
  | cons g rest ih =>
      intro st hagrees hrecorded
      rw [grantDrafts] at hagrees hrecorded
      rw [ingestGrants]
      have hsame := ingestGrantInner_recorded host router g st
        (hagrees.mono fun _ hd => List.mem_append_left _ hd)
        (fun d hd => hrecorded d (List.mem_append_left _ hd))
      have hdone := ingestGrantInner_done host router g st
      generalize ingestGrantInner host router g st = r at hsame hdone
      obtain ⟨st₁, result⟩ := r
      cases result with
      | error e => exact hsame
      | ok _ =>
          obtain ⟨hagrees₁, hseen⟩ := hdone rfl
          dsimp only at hsame hagrees₁ hseen ⊢
          rw [← hsame]
          apply ih st₁ (hagrees₁ _)
          intro d hd
          rw [hsame]
          rw [hseen] at hd
          exact hrecorded d (List.mem_append_right _ hd)

end

/-! ## Runs -/

variable {δ : Type}

/-- No two files of an ingest have one path, the table says of their paths
what the log does, and what others append supersedes no file. -/
def KeepsRecords (st : IngestState) : IngestOp δ → Prop
  | .ingest run =>
      (run.drafts.map FileDraft.path).Nodup ∧ Agrees st run.drafts
  | .rebuild => True
  | .other _ event => KeepsFiles st.store.log event

theorem takes_ingestAll (run : IngestRun δ) (st : IngestState)
    (h : OneRecord st.store.log)
    (hmeets : KeepsRecords st (.ingest run)) :
    Takes st.store.log run.drafts (ingestAll run st) :=
  takes_ingestGrants run.host run.router run.grants { st with seen := [], report := .blank } h
    hmeets.1 hmeets.2

/-- Every operation that meets the condition leaves one record of each path
at most. -/
theorem OneRecord.exec {st : IngestState} (h : OneRecord st.store.log)
    (op : IngestOp δ) (hmeets : KeepsRecords st op) :
    OneRecord (st.exec op).store.log := by
  cases op with
  | ingest run => exact (takes_ingestAll run st h hmeets).one
  | rebuild => exact h
  | other m event =>
      show OneRecord (st.store.append m event).1.log
      cases st.store.append_cases m event with
      | inl hrefused =>
          obtain ⟨e, heq⟩ := hrefused
          rw [heq]
          exact h
      | inr hstored =>
          obtain ⟨stored, hs, heq⟩ := hstored
          rw [heq]
          exact h.kept hs hmeets

/-- The log after a run that completes: each file has one record, with its
hash, and no two files have the same. A run over no other files appends
nothing. -/
def IngestedOnce (run : IngestRun δ) (st : IngestState) : Prop :=
  (∀ d ∈ run.drafts, HasRecord st.store.log d) ∧
    run.drafts.Pairwise (fun d d₂ =>
      ∀ r ∈ currentRecords st.store.log d.path,
        r ∉ currentRecords st.store.log d₂.path) ∧
    ∀ again : IngestRun δ,
      (∀ d ∈ again.drafts, ∃ d₂ ∈ run.drafts,
        d.path = d₂.path ∧ d.contentHash = d₂.contentHash) →
      (ingestAll again st).1.store = st.store

/-- After any run of ingests that meet the condition, failed ones among them,
one that completes leaves one record of each file, and a further one appends
nothing. -/
theorem ingest_idempotent (ops : List (IngestOp δ)) (run : IngestRun δ)
    (hmeets : Trace.Meets IngestState.exec KeepsRecords .empty
      (ops ++ [.ingest run]))
    (hdone : (ingestAll run (Trace.run IngestState.exec .empty ops)).2 =
      .ok ()) :
    IngestedOnce run
      (Trace.run IngestState.exec .empty (ops ++ [.ingest run])) := by
  obtain ⟨hbefore, hlast, -⟩ := Trace.meets_append.1 hmeets
  have hone : OneRecord (Trace.run IngestState.exec .empty ops).store.log :=
    Trace.run_inv_of_meets (fun st : IngestState => OneRecord st.store.log)
      (fun st op h hop => h.exec op hop) oneRecord_nil hbefore
  have htakes := takes_ingestAll run _ hone hlast
  have hrecorded := htakes.recorded hdone
  rw [Trace.run_append]
  show IngestedOnce run (ingestAll run (Trace.run IngestState.exec .empty ops)).1
  generalize Trace.run IngestState.exec .empty ops = st
    at hlast hdone htakes hrecorded ⊢
  refine ⟨hrecorded, ?_, ?_⟩
  · apply (List.pairwise_map.mp hlast.1).imp
    intro d d₂ hne r hr hr₂
    exact hne (path_of_fileEventId htakes.one.unique hr hr₂ rfl)
  · intro again hsame
    have hagain : ∀ d ∈ again.drafts,
        HasRecord (ingestAll run st).1.store.log d := by
      intro d hd
      obtain ⟨d₂, hd₂, hpath, hhash⟩ := hsame d hd
      obtain ⟨r, hr, hrhash⟩ := hrecorded d₂ hd₂
      refine ⟨r, ?_, hrhash.trans hhash.symm⟩
      rw [hpath]
      exact hr
    have hagrees : Agrees (ingestAll run st).1 again.drafts := by
      by_cases hgrants : run.grants = []
      · intro d hd
        obtain ⟨d₂, hd₂, -⟩ := hsame d hd
        unfold IngestRun.drafts at hd₂
        rw [hgrants] at hd₂
        cases hd₂
      · exact ingestGrants_done run.host run.router run.grants hgrants _ hdone _
    exact ingestGrants_recorded again.host again.router again.grants
      { (ingestAll run st).1 with seen := [], report := .blank } hagrees hagain

/-! ## A retry, and two files of one path -/

/-- A folder of files: a name that is not ASCII is not valid, and each file is
the inode its place says. -/
def notesWalk (names : List OsName) : Walk Unit :=
  { keysFolder with
    texts :=
      { keysFolder.texts with
        toStringLossy := fun raw => String.ofList (raw.map fun b =>
          if b < 128 then Char.ofNat b.toNat else Char.ofNat 0xfffd) }
    folders :=
      { keysFolder.folders with
        readFrom := fun _ => .ok (names.map .ok)
        carefulOpenFile := fun _ raw => .ok ⟨⟨1, names.idxOf raw⟩, 1⟩ }
    grantRoot := ["notes"] }

/-- The first file is an `a`, the others are a `b`. -/
def notesHost : IngestHost :=
  { readAllCapped := fun cf _ =>
      .ok (if cf.identity.ino = 0 then [97] else [98])
    modifiedAt := fun _ => "2026-01-01T00:00:00+00:00"
    sha256 := fun raw =>
      if raw = [97] then
        "ca978112ca1bbdcafac231b39a23dc4da786eff8147c4e72b9807785afee48bb"
      else
        "3e23e8160039594a33894f6564e1b1348bbd7a0088d42c4acb73eeaed59c009d" }

/-- An ingest of one folder, whose appends have identifiers of a letter. -/
def notesRun (names : List OsName) (letter : Char)
    (embed : String → Except BossclawError Bytes) : IngestRun Unit :=
  { host := notesHost
    router := .nativeOnly
    grants :=
      [{ walk := notesWalk names
         elapsed := fun _ => 0
         active := fun _ => true
         embedder := fun _ => ⟨"m", 1, embed⟩
         mints := fun i =>
           (.plain (String.ofList (List.replicate (2 * i + 1) letter)),
             .plain (String.ofList (List.replicate (2 * i + 2) letter))) }] }

/-- One file, in a run whose model is not there. -/
def failedRun : IngestRun Unit :=
  notesRun [[109]] 'x' fun _ => .error (.embed "model not loaded")

/-- The same file, in a run that completes. -/
def retriedRun : IngestRun Unit := notesRun [[109]] 'y' fun _ => .ok [1]

/-- Two files whose names are each one byte that is not valid. -/
def twinRun : IngestRun Unit := notesRun [[255], [254]] 'x' fun _ => .ok [1]

/-- An ingest that fails, the rebuild of the table and a retry. -/
theorem ingest_idempotent_rebuilt :
    IngestedOnce retriedRun (Trace.run IngestState.exec .empty
      ([.ingest failedRun, .rebuild] ++ [.ingest retriedRun])) := by
  apply ingest_idempotent
  · refine ⟨⟨?_, ?_⟩, trivial, ⟨?_, ?_⟩, trivial⟩
    · decide +kernel
    · unfold Agrees
      decide +kernel
    · decide +kernel
    · unfold Agrees
      decide +kernel
  · decide +kernel

/-- A retry of an ingest that failed, with no rebuild between, appends the
same file again; and of two files with one path the second supersedes the
record of the first. -/
theorem ingest_repeats :
    (¬ ∀ failed run : IngestRun Unit,
        failed.host = run.host → failed.router = run.router →
        failed.grants.map GrantRun.walk = run.grants.map GrantRun.walk →
        (ingestAll run (ingestAll failed .empty).1).2 = .ok () →
        IngestedOnce run (ingestAll run (ingestAll failed .empty).1).1) ∧
      ¬ ∀ run : IngestRun Unit, (ingestAll run .empty).2 = .ok () →
        IngestedOnce run (ingestAll run .empty).1 := by
  constructor
  · intro h
    have hsettles := h failedRun retriedRun rfl rfl rfl (by decide +kernel)
    obtain ⟨d, hd, hpath⟩ : ∃ d ∈ retriedRun.drafts, d.path = "/notes/m" := by
      decide +kernel
    obtain ⟨r, hr, -⟩ := hsettles.1 d hd
    have htwice : (currentRecords (ingestAll retriedRun
        (ingestAll failedRun .empty).1).1.store.log "/notes/m").length = 2 := by
      decide +kernel
    rw [← hpath, hr, List.length_singleton] at htwice
    omega
  · intro h
    have hsettles := h twinRun (by decide +kernel)
    obtain ⟨d, hd, d₂, hd₂, hpath, hhash⟩ : ∃ d ∈ twinRun.drafts,
        ∃ d₂ ∈ twinRun.drafts, d.path = d₂.path ∧
          d.contentHash ≠ d₂.contentHash := by
      decide +kernel
    obtain ⟨r, hr, hrhash⟩ := hsettles.1 d hd
    obtain ⟨r₂, hr₂, hrhash₂⟩ := hsettles.1 d₂ hd₂
    rw [hpath, hr₂] at hr
    have hsame : r₂ = r := (List.cons.inj hr).1
    rw [hsame, hrhash] at hrhash₂
    exact hhash hrhash₂

end AirNote
