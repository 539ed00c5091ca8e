import AirNote.Lib.FileTree
import AirNote.Permissions

/-!
# The actuator: gate, write, undo

A write is proposed and then executed. The proposal is judged without
touching the file system: its sources are resolved, its target is located,
and the verdict says whether the target is under a write grant, whether
anything external had a hand in it and what the file looked like. The
execution checks the verdict and the file system again, stores what is
needed to take the write back, changes the file, and appends the one
`file_written` event. An undo builds the inverse proposal out of the stored
row and sends it through the same two steps.

The rows of the undo store are in the order of their row ids, which only
grow. What one execution takes from outside — the environment of its append,
the identifier and the time of the undo row, the inode of the file written,
and the stage at which the store or the file system fails, if any — is
bundled in a `WriteEnv`. The text the operating system adds to a message is
left out, and so is a store that cannot be read while a verdict is computed:
such a call ends without one.
-/

namespace AirNote

open Lib.Paths Lib.FileTree

/-! ## Proposals and verdicts -/

/-- `WriteOp`. -/
inductive WriteOp where
  | create
  | edit
  | delete
  deriving DecidableEq, Repr

/-- The name of an operation in events and rows. -/
def WriteOp.str : WriteOp → String
  | .create => "create"
  | .edit => "edit"
  | .delete => "delete"

/-- `WriteProposal`. -/
structure WriteProposal where
  target : Path
  newContent : Bytes
  op : WriteOp
  sourceEventIds : List String
  rationale : String

/-- `Taint`. -/
inductive Taint where
  | clean
  | untrusted
  deriving DecidableEq, Repr

/-- `FileId`. -/
structure FileId where
  dev : Nat
  ino : Nat
  size : Nat
  deriving DecidableEq, Repr

/-- The identity of an entry. -/
def fileId (n : Node) : FileId := ⟨n.dev, n.ino, n.size⟩

/-- `Provenance`. -/
structure Provenance where
  eventId : String
  kind : String
  originPath : Option String
  ingestedAt : Option String
  isExternal : Bool
  deriving DecidableEq, Repr

/-- `DiffFlags`. -/
structure DiffFlags where
  touchesSecretShaped : Bool
  touchesValueShaped : Bool
  deriving DecidableEq, Repr

/-- `DiffFlags::any`. -/
def DiffFlags.any (f : DiffFlags) : Bool :=
  f.touchesSecretShaped || f.touchesValueShaped

/-- `WriteVerdict`. -/
structure WriteVerdict where
  targetCanonical : Option Place
  allowed : Bool
  taint : Taint
  provenance : List Provenance
  diffFlags : DiffFlags
  baseContentHash : Option String
  baseIdentity : Option FileId
  requiresLoudModal : Bool
  rejectReason : Option String

/-- `GatedProposal`. -/
structure GatedProposal where
  proposal : WriteProposal
  verdict : WriteVerdict

/-- `OpExistence`. -/
inductive OpExistence where
  | ok
  | createExisting
  | missingTarget
  | finalComponentSymlink
  deriving DecidableEq, Repr

/-- `OpExistence::reject_reason`. -/
def OpExistence.rejectReason : OpExistence → Option String
  | .ok => none
  | .createExisting => some "create target already exists"
  | .missingTarget => some "edit/delete target does not exist"
  | .finalComponentSymlink => some "final path component is a symlink"

/-- `classify_op_existence`. -/
def classifyOpExistence (op : WriteOp) (targetExists isSymlink : Bool) :
    OpExistence :=
  if isSymlink then .finalComponentSymlink
  else
    match op, targetExists with
    | .create, true => .createExisting
    | .edit, false => .missingTarget
    | .delete, false => .missingTarget
    | _, _ => .ok

/-! ### The advisory diff guard -/

/-- The text holds the needle. -/
def containsText (needle : String) (cs : List Char) : Bool :=
  cs.tails.any fun tail => needle.toList.isPrefixOf tail

/-- `has_money_amount`. -/
def hasMoneyAmount (cs : List Char) : Bool :=
  (cs.zip cs.tail).any fun pair => pair.1 == '$' && pair.2.isDigit

/-- `has_url`. -/
def hasUrl (cs : List Char) : Bool :=
  containsText "http://" cs || containsText "https://" cs

/-- `has_high_entropy_token`: thirty-two alphanumerics in a row. -/
def hasHighEntropyToken (cs : List Char) : Bool :=
  (cs.foldl (fun acc c =>
    let run := if c.isAlphanum then acc.1 + 1 else 0
    (run, acc.2 || decide (32 ≤ run))) (0, false)).2

/-- `has_curl_pipe_shell`, of one line. -/
def hasCurlPipeShell (line : List Char) : Bool :=
  containsText "curl" line && line.contains '|' &&
    (containsText "sh" line || containsText "bash" line)

/-- `is_crontab_line`. -/
def isCrontabLine (line : List Char) : Bool :=
  let fields := (line.splitOnP isWhitespace).filter (· ≠ [])
  let isCronField := fun f : List Char => f.all fun c =>
    c.isDigit || c == '*' || c == ',' || c == '-' || c == '/'
  decide (6 ≤ fields.length) && (fields.take 5).all isCronField

/-- `is_shell_rc_line`. -/
def isShellRcLine (line : List Char) : Bool :=
  let trimmed := line.dropWhile isWhitespace
  "#!".toList.isPrefixOf trimmed || "export ".toList.isPrefixOf trimmed

/-- `diff_guard`: it only reads content that is text. -/
def diffGuard (bytes : Bytes) : DiffFlags :=
  match String.fromUTF8? ⟨bytes.toArray⟩ with
  | none => ⟨false, false⟩
  | some text =>
      let cs := text.toList
      let lines := segments '\n' cs
      { touchesSecretShaped :=
          hasHighEntropyToken cs || lines.any hasCurlPipeShell ||
            lines.any isCrontabLine || lines.any isShellRcLine
        touchesValueShaped := hasMoneyAmount cs || hasUrl cs }

/-! ## The state -/

/-- `FileRecord`: a file the engine has ingested and tracks. -/
structure FileRecord where
  canonicalPath : String
  fileEventId : String
  contentHash : String
  grantRoot : String
  deriving DecidableEq, Repr

/-- A row of `undo_state`. The three columns of the identity are null
together. -/
structure UndoRow where
  undoId : String
  rowid : Nat
  fileWrittenId : Option String
  canonicalTarget : String
  op : String
  preBytes : Option Bytes
  baseContentHash : String
  post : Option FileId
  createdAt : String
  deriving DecidableEq

/-- The log, the tables the actuator reads, its undo rows, and the files. -/
structure BrainState where
  log : EventLog
  writeGrants : List Grant
  mandates : List Mandate
  files : List FileRecord
  undo : List UndoRow
  tree : Tree

/-- `active_mandates`. -/
def activeMandates (s : BrainState) : List Mandate :=
  s.mandates.filter fun m => !m.revoked

/-- `current_file_for_path`. -/
def currentFileForPath (s : BrainState) (canonicalPath : String) :
    Option FileRecord :=
  s.files.find? fun rec => rec.canonicalPath == canonicalPath

/-- The entry a record's path names has this device and inode number. -/
def hasIdentity (t : Tree) (dev ino : Nat) (rec : FileRecord) : Bool :=
  match t.lstat (ofString rec.canonicalPath) with
  | some n => n.dev == dev && n.ino == ino
  | none => false

/-- `tracked_file_with_identity`. -/
def trackedFileWithIdentity (s : BrainState) (dev ino : Nat) :
    Option FileRecord :=
  s.files.find? (hasIdentity s.tree dev ino)

/-- `canonicalize_target_or_parent`. -/
def canonicalizeTargetOrParent (t : Tree) (target : Path) : Option Place :=
  (parent target).bind fun p =>
  (t.canonicalize p).bind fun realParent =>
  (fileName target).map fun name => realParent ++ [name]

/-- The place is under an active write grant, by whole components. -/
def underWriteGrant (s : BrainState) (canonical : Place) : Bool :=
  s.writeGrants.any fun g =>
    !g.revoked && startsWith (absolute canonical) (ofString g.canonicalRoot)

/-- `is_write_allowed`. -/
def isWriteAllowed (s : BrainState) (path : Path) :
    Except BossclawError Bool :=
  match s.tree.canonicalize path with
  | some canonical => .ok (underWriteGrant s canonical)
  | none =>
      match parent path with
      | none => .error
          (.invalidInput "write target has no parent to resolve")
      | some p =>
          match s.tree.canonicalize p with
          | none => .error
              (.invalidInput "write target parent not resolvable: ")
          | some canonical => .ok (underWriteGrant s canonical)

/-! ## The gate -/

/-- `provenance_from_event`. -/
def provenanceFromEvent (ev : Event) : Provenance :=
  { eventId := ev.id
    kind := ev.eventType
    originPath := (ev.content.get? "provenance").bind
      fun p => p.getStr? "canonical_path"
    ingestedAt := if ev.ts = "" then none else some ev.ts
    isExternal := isExternal ev }

/-- The cited sources that resolve, in their order. -/
def citedProvenance (s : BrainState) (p : WriteProposal) :
    List Provenance :=
  p.sourceEventIds.filterMap fun id =>
    (eventById s.log id).map provenanceFromEvent

/-- A cited source does not resolve. -/
def citesUnresolvable (s : BrainState) (p : WriteProposal) : Bool :=
  p.sourceEventIds.any fun id => (eventById s.log id).isNone

/-- Where the target is: for a `Create` in its resolved folder. -/
def locateTarget (s : BrainState) (p : WriteProposal) : Option Place :=
  match p.op with
  | .create => canonicalizeTargetOrParent s.tree p.target
  | .edit | .delete => s.tree.canonicalize p.target

/-- An active mandate on the target authorises a source that was ingested
from this path. -/
def mandateAuthorizes (mandates : List Mandate) (canonicalTarget : String)
    (sourcePath : Option String) : Bool :=
  match sourcePath with
  | none => false
  | some src => mandates.any fun m =>
      m.target == canonicalTarget &&
        startsWith (ofString src) (ofString m.sourceScope)

/-- Some external source is not authorised; none is where the target does
not resolve. -/
def externalUnauthorized (s : BrainState) (canonical : Option Place)
    (provenance : List Provenance) : Bool :=
  (provenance.filter fun pr => pr.isExternal).any fun pr =>
    match canonical with
    | none => true
    | some real =>
        !mandateAuthorizes (activeMandates s) (toText real) pr.originPath

/-- The tracked file the target is, by path or else by inode. -/
def anchoredRecord (s : BrainState) (canonicalTarget : String)
    (identity : Option FileId) : Option FileRecord :=
  match currentFileForPath s canonicalTarget with
  | some rec => some rec
  | none => identity.bind fun id => trackedFileWithIdentity s id.dev id.ino

/-- The provenance with the event of the anchored file, where it was not
cited. -/
def withAnchored (s : BrainState) (provenance : List Provenance)
    (anchored : Option FileRecord) : List Provenance :=
  match anchored with
  | none => provenance
  | some rec =>
      if provenance.any (fun pr => pr.eventId == rec.fileEventId) then
        provenance
      else
        match eventById s.log rec.fileEventId with
        | some ev => provenance ++ [provenanceFromEvent ev]
        | none => provenance

/-- The first thing wrong with the proposal. -/
def proposalRejectReason (s : BrainState) (p : WriteProposal) :
    Option String :=
  let finalMeta := s.tree.lstat p.target
  [if p.sourceEventIds.isEmpty then some "source_event_ids is empty"
    else none,
   if (locateTarget s p).isNone then
    some "write target path is not resolvable" else none,
   match isWriteAllowed s p.target with
    | .error e => some ("write-grant check failed: " ++ e.text)
    | .ok _ => none,
   (classifyOpExistence p.op finalMeta.isSome
    (finalMeta.any Node.isSymlink)).rejectReason].findSome? id

variable (digest : Bytes → String)

/-- `propose_write`. -/
def proposeWrite (s : BrainState) (p : WriteProposal) : GatedProposal :=
  let canonical := locateTarget s p
  let cited := citedProvenance s p
  let identity := (s.tree.lstat p.target).map fileId
  let anchored := canonical.bind fun real =>
    anchoredRecord s (toText real) identity
  let taint : Taint :=
    if citesUnresolvable s p || externalUnauthorized s canonical cited ||
        anchored.isSome then .untrusted
    else .clean
  let diffFlags : DiffFlags :=
    match p.op with
    | .delete => ⟨false, false⟩
    | .create | .edit => diffGuard p.newContent
  { proposal := p
    verdict :=
      { targetCanonical := canonical
        allowed :=
          match isWriteAllowed s p.target with
          | .ok allowed => allowed
          | .error _ => false
        taint := taint
        provenance := withAnchored s cited anchored
        diffFlags := diffFlags
        baseContentHash :=
          match p.op with
          | .create => none
          | .edit | .delete => (s.tree.read p.target).map digest
        baseIdentity :=
          match p.op with
          | .create => none
          | .edit | .delete => identity
        requiresLoudModal :=
          taint == .untrusted || p.op == .delete || diffFlags.any
        rejectReason := proposalRejectReason s p } }

/-! ## Execution -/

/-- A stage of an execution or an undo that may fail for its own reasons. -/
inductive WriteStage where
  | openDir
  | openTarget
  | captureUndo
  | mutate
  | reopen
  | bindUndo
  | popUndo
  deriving DecidableEq, Repr

/-- What an execution takes from outside. -/
structure WriteEnv where
  mint : Mint
  undoId : String
  now : String
  dev : Nat
  ino : Nat
  fails : Option WriteStage

/-- `LOUD_ACK_REQUIRED_MSG`. -/
def loudAckRequiredMsg : String := "loud write requires acknowledged_loud"

/-- The reject helper of `execute_write_inner`. -/
def rejectError (why : String) : BossclawError :=
  .invalidInput ("execute_write fail-closed: " ++ why)

/-- Step 1a: the verdict itself. -/
def checkVerdict (verdict : WriteVerdict) (acknowledgedLoud : Bool) :
    Except BossclawError Unit :=
  match verdict.rejectReason with
  | some reason => .error
      (rejectError ("verdict carries reject_reason: " ++ reason))
  | none =>
      if !verdict.allowed then .error (rejectError
        "verdict.allowed is false (target not under an active write grant)")
      else if verdict.requiresLoudModal && !acknowledgedLoud then
        .error (rejectError (loudAckRequiredMsg ++ " (refused fail-closed)"))
      else .ok ()

/-- Step 1b: the folder and the name. -/
def resolveTarget (s : BrainState) (proposal : WriteProposal) :
    Except BossclawError (Place × Name) :=
  match proposal.op with
  | .create =>
      match parent proposal.target with
      | none => .error (rejectError "create target has no parent")
      | some p =>
          match s.tree.canonicalize p with
          | none => .error (rejectError "create parent not resolvable: ")
          | some realParent =>
              match fileName proposal.target with
              | none => .error
                  (rejectError "create target has no final component")
              | some name => .ok (realParent, name)
  | .edit | .delete =>
      match s.tree.canonicalize proposal.target with
      | none => .error (rejectError "target not resolvable: ")
      | some real =>
          match real.getLast? with
          | none => .error (rejectError "target has no parent")
          | some name => .ok (real.dropLast, name)

/-- Step 1b: the grant, on the resolved target. -/
def recheckGrant (s : BrainState) (target : Place) :
    Except BossclawError Unit :=
  match isWriteAllowed s (absolute target) with
  | .error e => .error
      (rejectError ("write-grant re-check errored: " ++ e.text))
  | .ok false => .error
      (rejectError "target is no longer under an active write grant")
  | .ok true => .ok ()

/-- Step 2: the folder is opened without following a link. -/
def openDirForWrite (s : BrainState) (env : WriteEnv) (dir : Place) :
    Except BossclawError Unit :=
  if env.fails = some .openDir || !s.tree.isRealDir dir then
    .error (rejectError "parent dir careful-open failed: ")
  else .ok ()

/-- Step 3: the file is the one the verdict saw; its bytes and identity. -/
def baseGuard (s : BrainState) (env : WriteEnv) (gated : GatedProposal)
    (target : Place) :
    Except BossclawError (Option Bytes × Option FileId) :=
  match gated.proposal.op with
  | .create => .ok (none, none)
  | .edit | .delete =>
      match gated.verdict.baseIdentity, gated.verdict.baseContentHash with
      | none, _ => .error
          (rejectError "edit/delete verdict missing base_identity")
      | some _, none => .error
          (rejectError "edit/delete verdict missing base_content_hash")
      | some wantIdentity, some wantHash =>
          if env.fails = some .openTarget then
            .error (rejectError "target re-open failed: ")
          else
            match s.tree.node target with
            | none => .error (rejectError "target re-open failed: ")
            | some n =>
                match n.kind with
                | .symlink _ => .error (rejectError "target re-open failed: ")
                | .directory | .other => .error
                    (rejectError "target is no longer a regular file")
                | .regular current =>
                    if fileId n ≠ wantIdentity then .error (rejectError
                      "base identity (dev,ino,size) diverged since propose (TOCTOU swap)")
                    else if digest current ≠ wantHash then .error (rejectError
                      "base content hash diverged since propose")
                    else .ok (some current, some (fileId n))

/-- Step 4: the cited sources, and the ingestion of the target where the
engine tracks it. -/
def deriveSources (s : BrainState) (gated : GatedProposal) (target : Place) :
    List String :=
  let identity :=
    match gated.proposal.op with
    | .create => none
    | .edit | .delete => gated.verdict.baseIdentity
  match anchoredRecord s (toText target) identity with
  | some rec =>
      if gated.proposal.sourceEventIds.contains rec.fileEventId then
        gated.proposal.sourceEventIds
      else gated.proposal.sourceEventIds ++ [rec.fileEventId]
  | none => gated.proposal.sourceEventIds

/-- What the gates of an execution have established. -/
structure WritePlan where
  parentDir : Place
  finalName : Name
  preBytes : Option Bytes
  guardIdentity : Option FileId
  sources : List String

/-- The canonical target. -/
def WritePlan.target (plan : WritePlan) : Place :=
  plan.parentDir ++ [plan.finalName]

/-- Steps 1a to 4 of `execute_write_inner`. -/
def executeGate (s : BrainState) (env : WriteEnv) (gated : GatedProposal)
    (acknowledgedLoud : Bool) : Except BossclawError WritePlan := do
  checkVerdict gated.verdict acknowledgedLoud
  let (parentDir, finalName) ← resolveTarget s gated.proposal
  let target := parentDir ++ [finalName]
  recheckGrant s target
  openDirForWrite s env parentDir
  let (preBytes, guardIdentity) ← baseGuard digest s env gated target
  let sources := deriveSources s gated target
  if sources.isEmpty then
    .error (rejectError "file_written would have empty source_event_ids")
  else
    .ok { parentDir := parentDir, finalName := finalName,
          preBytes := preBytes, guardIdentity := guardIdentity,
          sources := sources }

/-- What a passed gate says, check by check. -/
structure GatePassed (s : BrainState) (env : WriteEnv)
    (gated : GatedProposal) (acknowledgedLoud : Bool) (plan : WritePlan) :
    Prop where
  verdict : checkVerdict gated.verdict acknowledgedLoud = .ok ()
  resolved : resolveTarget s gated.proposal =
    .ok (plan.parentDir, plan.finalName)
  granted : recheckGrant s plan.target = .ok ()
  opened : openDirForWrite s env plan.parentDir = .ok ()
  guarded : baseGuard digest s env gated plan.target =
    .ok (plan.preBytes, plan.guardIdentity)
  sources_eq : plan.sources = deriveSources s gated plan.target
  sources_ne : plan.sources ≠ []

theorem executeGate_ok_iff {s : BrainState} {env : WriteEnv}
    {gated : GatedProposal} {acknowledgedLoud : Bool} {plan : WritePlan} :
    executeGate digest s env gated acknowledgedLoud = .ok plan ↔
      GatePassed digest s env gated acknowledgedLoud plan := by
  unfold executeGate
  constructor
  · intro h
    cases hv : checkVerdict gated.verdict acknowledgedLoud with
    | error e => simp [hv, bind, Except.bind] at h
    | ok u =>
        cases hr : resolveTarget s gated.proposal with
        | error e => simp [hv, hr, bind, Except.bind] at h
        | ok loc =>
            obtain ⟨parentDir, finalName⟩ := loc
            cases hg : recheckGrant s (parentDir ++ [finalName]) with
            | error e => simp [hv, hr, hg, bind, Except.bind] at h
            | ok u =>
                cases ho : openDirForWrite s env parentDir with
                | error e => simp [hv, hr, hg, ho, bind, Except.bind] at h
                | ok u =>
                    cases hb : baseGuard digest s env gated
                        (parentDir ++ [finalName]) with
                    | error e =>
                        simp [hv, hr, hg, ho, hb, bind, Except.bind] at h
                    | ok base =>
                        simp only [hv, hr, hg, ho, hb, bind, Except.bind]
                          at h
                        split at h
                        · cases h
                        · next hne =>
                            cases h
                            exact
                              { verdict := hv, resolved := hr, granted := hg,
                                opened := ho, guarded := hb,
                                sources_eq := rfl,
                                sources_ne := by simpa using hne }
  · intro h
    have hne : (deriveSources s gated plan.target).isEmpty = false := by
      rw [← h.sources_eq, List.isEmpty_eq_false_iff]
      exact h.sources_ne
    have hg := h.granted
    have hb := h.guarded
    unfold WritePlan.target at hne hg hb
    simp only [h.verdict, h.resolved, hg, h.opened, hb, hne, bind,
      Except.bind, Bool.false_eq_true, if_false]
    have hsources := h.sources_eq
    unfold WritePlan.target at hsources
    rw [← hsources]

/-! ### The undo store -/

/-- `UNDO_DEPTH`. -/
def undoDepth : Nat := 16

/-- The row id the next row gets. -/
def nextRowid (rows : List UndoRow) : Nat :=
  rows.foldl (fun acc r => max acc r.rowid) 0 + 1

/-- `MAX(rowid)` of the rows of a target. -/
def topRowid (rows : List UndoRow) (target : String) : Option Nat :=
  ((rows.filter fun r => r.canonicalTarget == target).map
    UndoRow.rowid).max?

/-- The hash the row of a write records. -/
def undoRecordHash (gated : GatedProposal) : Except BossclawError String :=
  match gated.verdict.baseContentHash, gated.proposal.op with
  | some h, _ => .ok h
  | none, .create => .ok (digest gated.proposal.newContent)
  | none, _ => .error
      (rejectError "edit/delete missing base_content_hash for undo capture")

/-- The row of a write, before its event is known. -/
def undoRowOf (s : BrainState) (env : WriteEnv) (gated : GatedProposal)
    (plan : WritePlan) (recordHash : String) : UndoRow :=
  { undoId := env.undoId
    rowid := nextRowid s.undo
    fileWrittenId := none
    canonicalTarget := toText plan.target
    op := gated.proposal.op.str
    preBytes := plan.preBytes
    baseContentHash := recordHash
    post := none
    createdAt := env.now }

/-- Step 4.5: the row is stored before the file changes. -/
def captureUndo (s : BrainState) (env : WriteEnv) (gated : GatedProposal)
    (plan : WritePlan) : Except BossclawError BrainState :=
  match undoRecordHash digest gated with
  | .error e => .error e
  | .ok recordHash =>
      if env.fails = some .captureUndo then .error (.store "")
      else if s.undo.any (fun r => r.undoId == env.undoId) then
        .error (.store "UNIQUE constraint failed: undo_state.undo_id")
      else
        .ok { s with
          undo := s.undo ++ [undoRowOf s env gated plan recordHash] }

/-- `r` was written after `r'`, by time and then by row id. -/
def isNewer (r r' : UndoRow) : Bool :=
  decide (r'.createdAt < r.createdAt) ||
    (r'.createdAt == r.createdAt && decide (r'.rowid < r.rowid))

/-- Keep the newest rows of a target. -/
def gcUndo (rows : List UndoRow) (target : String) : List UndoRow :=
  rows.filter fun r => r.canonicalTarget != target ||
    decide ((rows.filter fun r' =>
      r'.canonicalTarget == target && isNewer r' r).length < undoDepth)

/-- `bind_and_gc_undo`. -/
def bindAndGcUndo (rows : List UndoRow) (undoId fileWrittenId target : String)
    (post : Option FileId) : List UndoRow :=
  gcUndo (rows.map fun r =>
    if r.undoId = undoId then
      { r with fileWrittenId := some fileWrittenId, post := post }
    else r) target

/-- `pop_and_handoff_undo`. -/
def popAndHandoffUndo (rows : List UndoRow) (undoId target : String)
    (newPost : Option FileId) : List UndoRow :=
  let rest := rows.filter fun r => r.undoId != undoId
  rest.map fun r =>
    if some r.rowid = topRowid rest target then { r with post := newPost }
    else r

/-! ### The change of the file -/

/-- `restat_identity_matches`. -/
def restatIdentityMatches (t : Tree) (target : Place)
    (expected : Option FileId) : Bool :=
  match expected with
  | none => true
  | some id =>
      match t.node target with
      | some n => n.dev == id.dev && n.ino == id.ino
      | none => false

/-- The file an atomic write leaves behind. -/
def writtenNode (env : WriteEnv) (content : Bytes) : Node :=
  { kind := .regular content, dev := env.dev, ino := env.ino, otherSize := 0 }

/-- `atomic_write`: a temporary file is renamed onto the name. -/
def atomicWrite (t : Tree) (env : WriteEnv) (target : Place)
    (content : Bytes) (noClobber : Bool) (expected : Option FileId) :
    Option Tree :=
  if env.fails = some .mutate then none
  else if noClobber then
    if (t.node target).isSome then none
    else some (t.put target (some (writtenNode env content)))
  else if restatIdentityMatches t target expected then
    some (t.put target (some (writtenNode env content)))
  else none

/-- Step 5. -/
def mutate (t : Tree) (env : WriteEnv) (proposal : WriteProposal)
    (plan : WritePlan) : Except BossclawError Tree :=
  match proposal.op with
  | .create =>
      match atomicWrite t env plan.target proposal.newContent true none with
      | some t' => .ok t'
      | none => .error (rejectError "atomic create failed: ")
  | .edit =>
      match atomicWrite t env plan.target proposal.newContent false
          plan.guardIdentity with
      | some t' => .ok t'
      | none => .error (rejectError "atomic edit failed: ")
  | .delete =>
      if !restatIdentityMatches t plan.target plan.guardIdentity then
        .error (rejectError "pre-unlink re-stat: ")
      else if env.fails = some .mutate then
        .error (rejectError "unlinkat (hard-delete) failed: ")
      else .ok (t.put plan.target none)

/-! ### The event of the write -/

/-- `ACTUATOR_PRODUCER`. -/
def actuatorProducer : String := "m6a-actuator"

/-- The hash, the previous hash and the size an event records. -/
def recordedHashes (gated : GatedProposal) :
    Except BossclawError (String × Option String × Nat) :=
  let p := gated.proposal
  match p.op with
  | .create => .ok (digest p.newContent, none, p.newContent.length)
  | .edit => .ok (digest p.newContent, gated.verdict.baseContentHash,
      p.newContent.length)
  | .delete =>
      match gated.verdict.baseContentHash with
      | some h => .ok (h, some h, 0)
      | none => .error
          (rejectError "delete missing base_content_hash for record")

/-- The member of an object for a value that is there. -/
def textMember (key : String) (value : Option String) :
    List (String × Json) :=
  match value with
  | some v => [(key, .str v)]
  | none => []

/-- The one constructor of a `file_written` event. -/
def fileWrittenEvent (gated : GatedProposal) (plan : WritePlan)
    (undoOf resolvesProposal : Option String) :
    Except BossclawError Event :=
  match recordedHashes digest gated with
  | .error e => .error e
  | .ok (contentHash, prevContentHash, byteSize) =>
      .ok (.draft fileWrittenEventType
        (.obj ([("target", .str (toText plan.target)),
            ("op", .str gated.proposal.op.str),
            ("content_hash", .str contentHash)] ++
          textMember "prev_content_hash" prevContentHash ++
          [("byte_size", .num byteSize)] ++
          textMember "undo_of" undoOf ++
          textMember "resolves_proposal" resolvesProposal))
        (some { modelId := actuatorProducer, promptHash := "",
                sourceEventIds := plan.sources }))

/-- The identity the write left, of a file that is there. -/
def postIdentity (t : Tree) (op : WriteOp) (target : Place) :
    Option FileId :=
  match op with
  | .delete => none
  | .create | .edit => (t.node target).map fileId

/-- Steps 5.5 to 6.5, after the file has changed. -/
def recordWrite (s : BrainState) (env : WriteEnv) (gated : GatedProposal)
    (plan : WritePlan) (undoOf resolvesProposal : Option String) :
    Except BossclawError String × BrainState :=
  if undoOf.isNone && gated.proposal.op != .delete &&
      env.fails == some .reopen then
    (.error (rejectError "post-write re-open failed: "), s)
  else
    match fileWrittenEvent digest gated plan undoOf resolvesProposal with
    | .error e => (.error e, s)
    | .ok ev =>
        match append env.mint s.log ev with
        | .error e => (.error e, s)
        | .ok (log', fileWrittenId) =>
            let s' := { s with log := log' }
            if undoOf.isSome then (.ok fileWrittenId, s')
            else if env.fails = some .bindUndo then (.error (.store ""), s')
            else
              (.ok fileWrittenId, { s' with
                undo := bindAndGcUndo s.undo env.undoId fileWrittenId
                  (toText plan.target)
                  (postIdentity s.tree gated.proposal.op plan.target) })

/-- `execute_write_inner`: the answer, and the state it leaves. -/
def executeWriteInner (s : BrainState) (env : WriteEnv)
    (gated : GatedProposal) (undoOf resolvesProposal : Option String)
    (acknowledgedLoud : Bool) :
    Except BossclawError String × BrainState :=
  match executeGate digest s env gated acknowledgedLoud with
  | .error e => (.error e, s)
  | .ok plan =>
      -- an undo stores no row of its own
      match (if undoOf.isNone then captureUndo digest s env gated plan
          else .ok s) with
      | .error e => (.error e, s)
      | .ok s₁ =>
          match mutate s₁.tree env gated.proposal plan with
          | .error e => (.error e, s₁)
          | .ok tree =>
              recordWrite digest { s₁ with tree := tree } env gated plan
                undoOf resolvesProposal

/-- `execute_write`. -/
def executeWrite (s : BrainState) (env : WriteEnv) (gated : GatedProposal)
    (acknowledgedLoud : Bool) : Except BossclawError String × BrainState :=
  executeWriteInner digest s env gated none none acknowledgedLoud

/-- `execute_write_resolving`. -/
def executeWriteResolving (s : BrainState) (env : WriteEnv)
    (gated : GatedProposal) (resolvesProposal : String)
    (acknowledgedLoud : Bool) : Except BossclawError String × BrainState :=
  executeWriteInner digest s env gated none (some resolvesProposal)
    acknowledgedLoud

/-! ## Undo -/

/-- The reject helper of `undo_write`. -/
def undoError (why : String) : BossclawError :=
  .invalidInput ("undo_write fail-closed: " ++ why)

/-- The row is the newest of its target, the file is the one the write left,
and the stored bytes are the ones recorded. -/
def checkFrame (s : BrainState) (row : UndoRow) :
    Except BossclawError Unit :=
  if some row.rowid ≠ topRowid s.undo row.canonicalTarget then
    .error (undoError
      "not the most recent write to this target — undo is LIFO (undo newer writes first)")
  else
    let now := (s.tree.lstat (ofString row.canonicalTarget)).map fileId
    if row.post.isSome && now.isNone then
      .error (undoError
        "undo target no longer stat-able (diverged/removed since the write): ")
    else if row.post.isSome && now != row.post then
      .error (undoError
        "target identity (dev,ino,size) diverged since the write (foreign swap) — refusing undo")
    else
      match row.preBytes with
      | none => .ok ()
      | some bytes =>
          if digest bytes ≠ row.baseContentHash then
            .error (undoError
              "captured pre_bytes hash != recorded base_content_hash (tampered undo row)")
          else .ok ()

/-- The inverse operation and its content. -/
def inverseOp (row : UndoRow) : Except BossclawError (WriteOp × Bytes) :=
  if row.op = "edit" then
    match row.preBytes with
    | some bytes => .ok (.edit, bytes)
    | none => .error (undoError "edit undo row missing pre_bytes")
  else if row.op = "create" then .ok (.delete, [])
  else if row.op = "delete" then
    match row.preBytes with
    | some bytes => .ok (.create, bytes)
    | none => .error (undoError "delete undo row missing pre_bytes")
  else .error (undoError ("unknown undo op '" ++ row.op ++ "'"))

/-- The proposal that takes a write back. -/
def inverseProposal (row : UndoRow) (fileWrittenId : String)
    (op : WriteOp) (content : Bytes) : WriteProposal :=
  { target := ofString row.canonicalTarget
    newContent := content
    op := op
    sourceEventIds := [fileWrittenId]
    rationale := "undo of " ++ fileWrittenId }

/-- `undo_write`: the answer, and the state it leaves. -/
def undoWrite (s : BrainState) (env : WriteEnv) (fileWrittenId : String) :
    Except BossclawError String × BrainState :=
  match s.undo.find? (fun r => r.fileWrittenId == some fileWrittenId) with
  | none => (.error (undoError
      "no undo record for this file_written id (GC'd past N-deep, or unknown id)"), s)
  | some row =>
      match checkFrame digest s row, inverseOp row with
      | .error e, _ => (.error e, s)
      | .ok (), .error e => (.error e, s)
      | .ok (), .ok (op, content) =>
          let gated := proposeWrite digest s
            (inverseProposal row fileWrittenId op content)
          match gated.verdict.rejectReason with
          | some reason => (.error (undoError
              ("re-gated undo proposal rejected: " ++ reason)), s)
          | none =>
              match executeWriteInner digest s env gated (some fileWrittenId)
                  none true with
              | (.error e, s') => (.error e, s')
              | (.ok undoEventId, s') =>
                  if env.fails = some .popUndo then (.error (.store ""), s')
                  else
                    (.ok undoEventId, { s' with
                      undo := popAndHandoffUndo s'.undo row.undoId
                        row.canonicalTarget
                        ((s'.tree.lstat (ofString row.canonicalTarget)).map
                          fileId) })

end AirNote
