import AirNote.Actuator
import AirNote.Reasoner
import Mathlib.Data.List.Sort

/-!
# Proposed writes and their review

A standing mandate and the reconciler propose writes. A proposal is an event
that carries the hash of the proposed bytes, the key of what induced it and a
summary of the verdict; the bytes are kept in a table of their own. It is
pending until a `file_written` or a `write_declined` resolves it, or a
`write_rejected` for its target and key makes the pair terminal. Before a
tick proposes, it asks whether the target and the key are suppressed.

A proposal is applied by the user or by the sweep: the file is compared with
the fingerprint the summary carries, the write is judged anew and executed.
An apply reads the files at several points; `Access` names them, so that the
files may be different at each of them.

What the model answers is given to a tick from outside, so the prompts are
left out; only the length of the fenced sources matters, which the tick
compares with its cap. The walk of the reconciler over its lineage is left
out too: it decides about one file at a time, and it is given the file. The
text of a key is `render`, of which nothing is used.
-/

namespace AirNote

open Lib.Paths Lib.FileTree

/-! ## Events -/

def writeProposalEventType : String := "write_proposal"
def writeRejectedEventType : String := "write_rejected"
def writeDeclinedEventType : String := "write_declined"

/-- `M6B_PROPOSER_PRODUCER`. -/
def m6bProposerProducer : String := "m6b-reconciler"

/-- `M6C_PROPOSER_PRODUCER`. -/
def m6cProposerProducer : String := "m6c-mandate-proposer"

/-- The types the three folds read. -/
def lifecycleTypes : List String :=
  [writeProposalEventType, writeRejectedEventType, writeDeclinedEventType,
    fileWrittenEventType]

/-- `build_proposer_event`. -/
def buildProposerEvent (producer eventType : String) (content : Json)
    (sourceEventIds : List String) : Event :=
  .draft eventType content
    (some { modelId := producer, promptHash := "",
            sourceEventIds := sourceEventIds })

/-- A write a tick proposes, with the fields of its event. -/
structure ProposalDraft where
  target : String
  op : WriteOp
  content : Bytes
  contentHash : String
  rationale : String
  inducingKey : Json
  verdictSummary : Json
  lineage : List String
  producer : String

/-- The event of `append_write_proposal_with`. -/
def writeProposalEvent (d : ProposalDraft) : Event :=
  buildProposerEvent d.producer writeProposalEventType
    (.obj [("target", .str d.target), ("op", .str d.op.str),
      ("new_content_hash", .str d.contentHash),
      ("byte_size", .num d.content.length), ("rationale", .str d.rationale),
      ("inducing_key", d.inducingKey),
      ("verdict_summary", d.verdictSummary)])
    d.lineage

/-- A refusal a tick records. -/
structure RejectionDraft where
  target : String
  reason : String
  inducingKey : Json
  lineage : List String
  producer : String

/-- The event of `append_write_rejected_with`. -/
def writeRejectedEvent (r : RejectionDraft) : Event :=
  buildProposerEvent r.producer writeRejectedEventType
    (.obj [("target", .str r.target), ("reason", .str r.reason),
      ("inducing_key", r.inducingKey)])
    r.lineage

/-! ## The folds -/

/-- `PendingProposal`. -/
structure PendingProposal where
  id : String
  target : String
  op : String
  newContentHash : String
  rationale : String
  inducingKey : Json
  sourceEventIds : List String
  producer : String
  verdictSummary : Json
  baseContentHash : Option String

/-- The row of a `write_proposal`. -/
def pendingOf (ev : Event) : PendingProposal :=
  let summary := (ev.content.get? "verdict_summary").getD .null
  { id := ev.id
    target := (ev.content.getStr? "target").getD ""
    op := (ev.content.getStr? "op").getD ""
    newContentHash := (ev.content.getStr? "new_content_hash").getD ""
    rationale := (ev.content.getStr? "rationale").getD ""
    inducingKey := (ev.content.get? "inducing_key").getD .null
    sourceEventIds := ev.sources
    producer :=
      match ev.modelMeta with
      | some m => m.modelId
      | none => ""
    verdictSummary := summary
    baseContentHash := summary.getStr? "base_content_hash" }

/-- The event is about this target and this key. -/
def matchesKey (canonicalPath : String) (inducingKey : Json) (ev : Event) :
    Bool :=
  ev.content.getStr? "target" == some canonicalPath &&
    decide (ev.content.get? "inducing_key" = some inducingKey)

/-- The proposals the log resolves. -/
def resolvedProposals (log : EventLog) : List String :=
  (eventsOfTypes log [writeDeclinedEventType, fileWrittenEventType]).filterMap
    fun ev => ev.content.getStr? "resolves_proposal"

/-- The proposals the log declines. -/
def declinedProposals (log : EventLog) : List String :=
  (eventsOfTypes log [writeDeclinedEventType]).filterMap
    fun ev => ev.content.getStr? "resolves_proposal"

/-- The target and the key were terminally rejected. -/
def rejectedKey (log : EventLog) (canonicalPath : String)
    (inducingKey : Json) : Bool :=
  (eventsOfTypes log [writeRejectedEventType]).any
    (matchesKey canonicalPath inducingKey)

/-- The proposals for the target and the key. -/
def matchingProposals (log : EventLog) (canonicalPath : String)
    (inducingKey : Json) : List Event :=
  (eventsOfTypes log [writeProposalEventType]).filter
    (matchesKey canonicalPath inducingKey)

/-- `is_proposal_suppressed`. -/
def isProposalSuppressed (log : EventLog) (canonicalPath : String)
    (inducingKey : Json) : Bool :=
  rejectedKey log canonicalPath inducingKey ||
    (matchingProposals log canonicalPath inducingKey).any fun ev =>
      !(resolvedProposals log).contains ev.id

/-- `is_mandate_proposal_suppressed`. -/
def isMandateProposalSuppressed (log : EventLog) (canonicalPath : String)
    (inducingKey : Json) : Bool :=
  rejectedKey log canonicalPath inducingKey ||
    (matchingProposals log canonicalPath inducingKey).any fun ev =>
      !(resolvedProposals log).contains ev.id ||
        (declinedProposals log).contains ev.id

section Pending

variable (render : Json → String)

/-- The terminally rejected pairs, keys by their text. -/
def rejectedKeys (log : EventLog) : List (String × String) :=
  (eventsOfTypes log [writeRejectedEventType]).map fun ev =>
    ((ev.content.getStr? "target").getD "",
      render ((ev.content.get? "inducing_key").getD .null))

/-- `pending_proposals`, oldest first. -/
def pendingProposals (log : EventLog) : List PendingProposal :=
  ((eventsOfTypes log [writeProposalEventType]).map pendingOf).filter fun p =>
    !(resolvedProposals log).contains p.id &&
      !(rejectedKeys render log).contains (p.target, render p.inducingKey)

end Pending

/-! ## The tables -/

/-- A row of `proposal_bytes`. -/
structure ProposalBytes where
  proposalId : String
  content : Bytes
  contentHash : String
  deriving DecidableEq

/-- A row of `mandate_synthesis_cache`. -/
structure SynthesisRow where
  mandateGrantId : String
  sourcesHash : String
  expectedBytes : Bytes
  sourceEventIdsAtSynth : List String
  deriving DecidableEq

/-- The brain with the two tables. -/
structure ReviewState where
  brain : BrainState
  proposalBytes : List ProposalBytes
  synthesis : List SynthesisRow

/-- `put_proposal_bytes`. -/
def putProposalBytes (s : ReviewState) (proposalId : String) (content : Bytes)
    (contentHash : String) : ReviewState :=
  { s with
    proposalBytes :=
      (s.proposalBytes.filter fun row => row.proposalId != proposalId) ++
        [⟨proposalId, content, contentHash⟩] }

/-- `put_synthesis_cache`: the other states of the mandate are evicted. -/
def putSynthesisCache (s : ReviewState) (row : SynthesisRow) : ReviewState :=
  { s with
    synthesis :=
      (s.synthesis.filter fun r => r.mandateGrantId != row.mandateGrantId) ++
        [row] }

/-- `get_synthesis_cache`. -/
def getSynthesisCache (s : ReviewState) (mandateId sourcesHash : String) :
    Option SynthesisRow :=
  s.synthesis.find? fun r =>
    r.mandateGrantId == mandateId && r.sourcesHash == sourcesHash

variable (digest : Bytes → String)

/-- `get_proposal_bytes_checked`. -/
def getProposalBytesChecked (s : ReviewState)
    (proposalId expectedHash : String) : Except BossclawError Bytes :=
  match s.proposalBytes.find? fun row => row.proposalId == proposalId with
  | none => .error (.invalidInput
      "proposal_bytes fail-closed: no cached bytes for this proposal id (unknown or GC'd)")
  | some row =>
      if digest row.content ≠ row.contentHash then .error (.invalidInput
        "proposal_bytes fail-closed: cached bytes no longer match their stored content_hash (row tampered)")
      else if digest row.content ≠ expectedHash then .error (.invalidInput
        "proposal_bytes fail-closed: cached bytes do not match the signed proposal's recorded hash")
      else .ok row.content

/-! ## The decision of a tick -/

/-- What a tick emits for one target: nothing, a refusal or a proposal. -/
inductive Emission where
  | nothing
  | elidedByCap
  | rejected (r : RejectionDraft)
  | proposed (d : ProposalDraft)

/-- `MAX_PROPOSALS_PER_TICK`. -/
def maxProposalsPerTick : Nat := 8

/-- `MAX_SOURCES_PER_MANDATE`. -/
def maxSourcesPerMandate : Nat := 256

/-- `MAX_INPUT_TEXT_BYTES`. -/
def maxInputTextBytes : Nat := 16384

/-- `MAX_SYNCED_CONTENT_BYTES`. -/
def maxSyncedContentBytes : Nat := 10 * 1024 * 1024

/-- `gate_reject_reason`. -/
def gateRejectReason (v : WriteVerdict) : Option String :=
  match v.rejectReason with
  | some reason => some reason
  | none =>
      if v.allowed then none
      else some "target not under an active write grant"

/-- The name of a taint in a summary. -/
def Taint.str : Taint → String
  | .clean => "Clean"
  | .untrusted => "Untrusted"

/-- Sorted, without repetitions. -/
def sortDedup (ids : List String) : List String :=
  (ids.insertionSort fun a b => a ≤ b).eraseDups

/-! ### Mandates -/

/-- `MandateAction`. -/
inductive MandateAction where
  | elide
  | reject (reason sourcesHash : String)
  | propose (expected : Bytes) (lineage : List String) (op : WriteOp)
      (sourcesHash : String)

/-- The tracked files below the scope, the target excepted. -/
def mandateSources (s : ReviewState) (m : Mandate) : List FileRecord :=
  s.brain.files.filter fun rec =>
    startsWith (ofString rec.canonicalPath) (ofString m.sourceScope) &&
      decide (ofString rec.canonicalPath ≠ ofString m.target)

/-- The digest of the sources, in order of their paths. -/
def sourcesHash (sources : List FileRecord) : String :=
  let pairs := (sources.map fun rec =>
    (rec.canonicalPath, rec.contentHash)).insertionSort
      fun a b => a.1 < b.1 ∨ (a.1 = b.1 ∧ a.2 ≤ b.2)
  digest (pairs.flatMap fun p =>
    p.1.toUTF8.data.toList ++ [0] ++ p.2.toUTF8.data.toList ++ [0])

/-- The text with every occurrence of a pattern replaced, from the left; the
count is of the characters of an occurrence still to be skipped. -/
def replaceText (pattern replacement : List Char) :
    Nat → List Char → List Char
  | _, [] => []
  | skip + 1, _ :: cs => replaceText pattern replacement skip cs
  | 0, c :: cs =>
      if pattern.isPrefixOf (c :: cs) then
        replacement ++
          replaceText pattern replacement (pattern.length - 1) cs
      else c :: replaceText pattern replacement 0 cs

/-- `neutralize_fence_markers`. -/
def neutralizeFenceMarkers (text : String) : String :=
  String.ofList
    (replaceText "<<<SOURCE_BEGIN>>>".toList
      "<<<SOURCE_BEGIN\u200b>>>".toList 0
      (replaceText "<<<SOURCE_END>>>".toList
        "<<<SOURCE_END\u200b>>>".toList 0 text.toList))

/-- `push_fenced_source`. -/
def pushFencedSource (fenced source : String) : String :=
  fenced ++ "<<<SOURCE_BEGIN>>>\n" ++ neutralizeFenceMarkers source ++
    "\n<<<SOURCE_END>>>\n"

/-- The fenced text of all sources; none where one is unreadable or no
text. -/
def fencedSources (t : Tree) (sources : List FileRecord) : Option String :=
  sources.foldlM (fun fenced rec =>
    (t.read (ofString rec.canonicalPath)).bind fun bytes =>
      (String.fromUTF8? ⟨bytes.toArray⟩).map (pushFencedSource fenced)) ""

/-- The cached synthesis of the sources, or a new one out of what the model
answers; otherwise the action the phase ends with. -/
def synthesize (s : ReviewState) (m : Mandate)
    (answer : Except BossclawError Json) (sources : List FileRecord)
    (hash : String) :
    Except BossclawError (MandateAction ⊕ (Bytes × List String)) ×
      ReviewState :=
  match getSynthesisCache s m.mandateGrantId hash with
  | some row => (.ok (.inr (row.expectedBytes, row.sourceEventIdsAtSynth)), s)
  | none =>
      match fencedSources s.brain.tree sources with
      | none => (.ok (.inl .elide), s)
      | some fenced =>
          if maxInputTextBytes < fenced.utf8ByteSize then
            (.ok (.inl .elide), s)
          else
            match answer with
            | .error e => (.error e, s)
            | .ok out =>
                let synced := (out.getStr? "synced_content").getD ""
                if synced = "" then
                  (.ok (.inl (.reject "empty synthesis" hash)), s)
                else if maxSyncedContentBytes < synced.utf8ByteSize then
                  (.ok (.inl .elide), s)
                else
                  let bytes := synced.toUTF8.data.toList
                  let ids := sources.map FileRecord.fileEventId
                  (.ok (.inr (bytes, ids)),
                    putSynthesisCache s ⟨m.mandateGrantId, hash, bytes, ids⟩)

/-- `mandate_phase_for`. -/
def mandatePhaseFor (s : ReviewState) (m : Mandate)
    (answer : Except BossclawError Json) :
    Except BossclawError MandateAction × ReviewState :=
  let sources := mandateSources s m
  if maxSourcesPerMandate < sources.length ∨ sources = [] then
    (.ok .elide, s)
  else
    let hash := sourcesHash digest sources
    match synthesize s m answer sources hash with
    | (.error e, s') => (.error e, s')
    | (.ok (.inl action), s') => (.ok action, s')
    | (.ok (.inr (expected, synthIds)), s') =>
        if s'.brain.tree.read (ofString m.target) = some expected then
          (.ok .elide, s')
        else
          let op :=
            if (s'.brain.tree.canonicalize (ofString m.target)).isSome then
              WriteOp.edit
            else WriteOp.create
          let union := sortDedup
            (synthIds ++ sources.map FileRecord.fileEventId)
          -- `mandate_lineage`
          let lineage := sortDedup (m.mandateGrantId :: union)
          (.ok (.propose expected lineage op hash), s')

/-- The key of a mandate's proposal: the state of its sources. -/
def mandateKey (m : Mandate) (hash : String) : Json :=
  .obj [("mandate", .str m.mandateGrantId), ("target", .str m.target),
    ("sources_hash", .str hash)]

/-- What `run_mandate` decides, up to the first append. -/
def decideMandate (s : ReviewState) (m : Mandate)
    (answer : Except BossclawError Json) (emitted : Nat) :
    Except BossclawError Emission × ReviewState :=
  match mandatePhaseFor digest s m answer with
  | (.error e, s') => (.error e, s')
  | (.ok .elide, s') => (.ok .nothing, s')
  | (.ok (.reject reason hash), s') =>
      -- this branch does not ask whether the key is suppressed
      (.ok (.rejected
        { target := m.target, reason := reason,
          inducingKey := mandateKey m hash, lineage := [m.mandateGrantId],
          producer := m6cProposerProducer }), s')
  | (.ok (.propose expected lineage op hash), s') =>
      if isMandateProposalSuppressed s'.brain.log m.target
          (mandateKey m hash) then (.ok .nothing, s')
      else if maxProposalsPerTick ≤ emitted then (.ok .elidedByCap, s')
      else
        let gated := proposeWrite digest s'.brain
          { target := ofString m.target, newContent := expected, op := op,
            sourceEventIds := lineage, rationale := m.recipe }
        match gateRejectReason gated.verdict with
        | some reason => (.ok (.rejected
            { target := m.target, reason := reason,
              inducingKey := mandateKey m hash, lineage := lineage,
              producer := m6cProposerProducer }), s')
        | none => (.ok (.proposed
            { target := m.target
              op := op
              content := expected
              contentHash := digest expected
              rationale := m.recipe
              inducingKey := mandateKey m hash
              verdictSummary := .obj
                [("requires_loud_modal",
                    .bool gated.verdict.requiresLoudModal),
                  ("taint", .str gated.verdict.taint.str),
                  ("allowed", .bool gated.verdict.allowed)]
              lineage := lineage
              producer := m6cProposerProducer }), s')

/-! ### The reconciler -/

/-- `ProposedRetraction`, by the resolved entities. -/
structure ProposedRetraction where
  src : String
  relation : String
  dst : String

/-- The key of a reconciliation: the contradiction. -/
def reconcileKey (r : ProposedRetraction) : Json :=
  .obj [("src", .str r.src), ("relation", .str r.relation),
    ("dst", .str r.dst)]

/-- What `reconcile_confirmed_contradiction` decides about one file of its
lineage, up to the first append. -/
def decideReconcile (s : ReviewState) (r : ProposedRetraction)
    (rec : FileRecord) (lineage : List String)
    (answer : Except BossclawError Json) (emitted : Nat) :
    Except BossclawError Emission :=
  let target := ofString rec.canonicalPath
  let key := reconcileKey r
  let rejection := fun reason : String =>
    Emission.rejected
      { target := rec.canonicalPath, reason := reason, inducingKey := key,
        lineage := lineage, producer := m6bProposerProducer }
  match isWriteAllowed s.brain target with
  | .error e => .error e
  | .ok false => .ok .nothing
  | .ok true =>
      if isProposalSuppressed s.brain.log rec.canonicalPath key then
        .ok .nothing
      else if maxProposalsPerTick ≤ emitted then .ok .elidedByCap
      else
        let liveText :=
          (s.brain.tree.read target).bind fun bytes =>
            if bytes.length ≤ maxInputTextBytes then
              String.fromUTF8? ⟨bytes.toArray⟩
            else none
        if liveText.isNone then .ok (rejection "unrenderable_target")
        else
          match answer with
          | .error e => .error e
          | .ok out =>
              let corrected := (out.getStr? "corrected_content").getD ""
              if corrected = "" then .ok (rejection "empty_rewrite")
              else
                let engineFact :=
                  r.src ++ " -" ++ r.relation ++ "-> " ++ r.dst
                let gated := proposeWrite digest s.brain
                  { target := target
                    newContent := corrected.toUTF8.data.toList
                    op := .edit
                    sourceEventIds := lineage
                    rationale := engineFact }
                match gated.verdict.rejectReason with
                | some reason => .ok (rejection reason)
                | none =>
                    if !gated.verdict.allowed then .ok .nothing
                    else .ok (.proposed
                      { target := rec.canonicalPath
                        op := .edit
                        content := corrected.toUTF8.data.toList
                        contentHash := digest corrected.toUTF8.data.toList
                        rationale := engineFact
                        inducingKey := key
                        verdictSummary := .obj
                          [("requires_loud_modal",
                              .bool gated.verdict.requiresLoudModal),
                            ("taint", .str gated.verdict.taint.str),
                            ("allowed", .bool gated.verdict.allowed),
                            ("base_content_hash",
                              match gated.verdict.baseContentHash with
                              | some h => .str h
                              | none => .null)]
                        lineage := lineage
                        producer := m6bProposerProducer })

/-! ### Recording -/

/-- The append an emission makes. -/
def appendEmission (m : Mint) (s : ReviewState) (e : Emission) :
    Except BossclawError (ReviewState × Option (String × ProposalDraft)) :=
  match e with
  | .nothing => .ok (s, none)
  | .elidedByCap => .ok (s, none)
  | .rejected r =>
      match append m s.brain.log (writeRejectedEvent r) with
      | .error e => .error e
      | .ok (log', _) =>
          .ok ({ s with brain := { s.brain with log := log' } }, none)
  | .proposed d =>
      match append m s.brain.log (writeProposalEvent d) with
      | .error e => .error e
      | .ok (log', id) =>
          .ok ({ s with brain := { s.brain with log := log' } },
            some (id, d))

/-- The event an emission is recorded by. -/
def Emission.event : Emission → Option Event
  | .nothing => none
  | .elidedByCap => none
  | .rejected r => some (writeRejectedEvent r)
  | .proposed d => some (writeProposalEvent d)

/-- The proposal of an emission. -/
def Emission.proposal : Emission → Option ProposalDraft
  | .nothing => none
  | .elidedByCap => none
  | .rejected _ => none
  | .proposed d => some d

/-- The state with a longer log. -/
def ReviewState.logged (s : ReviewState) (log : EventLog) : ReviewState :=
  { s with brain := { s.brain with log := log } }

@[simp] theorem logged_log (s : ReviewState) (log : EventLog) :
    (s.logged log).brain.log = log := rfl

@[simp] theorem logged_proposalBytes (s : ReviewState) (log : EventLog) :
    (s.logged log).proposalBytes = s.proposalBytes := rfl

/-- An emission is not recorded, or it has no event, or its event is stored. -/
theorem appendEmission_cases (m : Mint) (s : ReviewState) (e : Emission) :
    (∃ err, appendEmission m s e = .error err) ∨
    (e.event = none ∧ appendEmission m s e = .ok (s, none)) ∨
    ∃ draft stored, e.event = some draft ∧
      Stored m s.brain.log draft stored ∧
      appendEmission m s e = .ok (s.logged (s.brain.log ++ [stored]),
        e.proposal.map fun d => (m.id, d)) := by
  cases e with
  | nothing => exact .inr (.inl ⟨rfl, rfl⟩)
  | elidedByCap => exact .inr (.inl ⟨rfl, rfl⟩)
  | rejected r =>
      cases happend : append m s.brain.log (writeRejectedEvent r) with
      | error e => exact .inl ⟨e, by simp only [appendEmission, happend]⟩
      | ok out =>
          obtain ⟨hid, stored, hs, hlog⟩ := append_ok happend
          refine .inr (.inr ⟨_, stored, rfl, hs, ?_⟩)
          simp only [appendEmission, happend, hlog]
          rfl
  | proposed d =>
      cases happend : append m s.brain.log (writeProposalEvent d) with
      | error e => exact .inl ⟨e, by simp only [appendEmission, happend]⟩
      | ok out =>
          obtain ⟨hid, stored, hs, hlog⟩ := append_ok happend
          refine .inr (.inr ⟨_, stored, rfl, hs, ?_⟩)
          simp only [appendEmission, happend, hlog, hid]
          rfl

/-- Append, and then store the bytes of a proposal; `stores` says whether the
store takes them. -/
def recordEmission (m : Mint) (stores : Bool) (s : ReviewState)
    (e : Emission) : Except BossclawError Unit × ReviewState :=
  match appendEmission m s e with
  | .error e => (.error e, s)
  | .ok (s', none) => (.ok (), s')
  | .ok (s', some (id, d)) =>
      if stores then (.ok (), putProposalBytes s' id d.content d.contentHash)
      else (.error (.store ""), s')

/-- `run_mandate`. -/
def runMandate (mint : Mint) (stores : Bool) (s : ReviewState) (m : Mandate)
    (answer : Except BossclawError Json) (emitted : Nat) :
    Except BossclawError Unit × ReviewState :=
  match decideMandate digest s m answer emitted with
  | (.error e, s') => (.error e, s')
  | (.ok e, s') => recordEmission mint stores s' e

/-- `source_ids_of_event`. -/
def sourceIdsOfEvent (log : EventLog) (id : String) : Option (List String) :=
  (eventById log id).bind fun ev => ev.modelMeta.map ModelMeta.sourceEventIds

/-- `decline_write_proposal`. -/
def declineWriteProposal (m : Mint) (s : ReviewState)
    (proposalId reason : String) :
    Except BossclawError String × ReviewState :=
  let sources := (sourceIdsOfEvent s.brain.log proposalId).getD []
  if sources = [] then
    (.error (.invalidInput "unknown or non-Tier-B proposal id"), s)
  else
    match append m s.brain.log
        (buildProposerEvent m6bProposerProducer writeDeclinedEventType
          (.obj [("resolves_proposal", .str proposalId),
            ("reason", .str reason)]) sources) with
    | .error e => (.error e, s)
    | .ok (log', id) =>
        (.ok id, { s with brain := { s.brain with log := log' } })

/-! ## Applying a proposal -/

/-- The errors of an apply (`EngineOpError`). -/
inductive EngineOpError where
  | stale (msg : String)
  | revoked (msg : String)
  | needsLoudConfirm (msg : String)
  | core (msg : String)
  deriving DecidableEq

/-- `execute_error_to_engine_op_error`. -/
def executeErrorToEngineOpError (msg : String) : EngineOpError :=
  if containsText loudAckRequiredMsg msg.toList then .needsLoudConfirm msg
  else .core msg

/-- The accesses of an apply to the files, in their order: the comparison
with the fingerprint, the look of the gate at the target, its read of the
base, the lookup of the target by the execution, the guard on the open file,
and the change. -/
inductive Access where
  | fresh
  | gate
  | base
  | resolve
  | guard
  | change
  deriving DecidableEq

/-- The brain as one access sees it. -/
def BrainState.seen (s : BrainState) (view : Access → Tree) (a : Access) :
    BrainState := { s with tree := view a }

/-- `propose_write`, its last access apart from the others. -/
def proposeWriteAmid (s : BrainState) (view : Access → Tree)
    (p : WriteProposal) : GatedProposal :=
  let gated := proposeWrite digest (s.seen view .gate) p
  { gated with
    verdict := { gated.verdict with
      baseContentHash :=
        match p.op with
        | .create => none
        | .edit | .delete => ((view .base).read p.target).map digest } }

/-- Steps 1a to 4 of `execute_write_inner`, the guard apart. -/
def executeGateAmid (s : BrainState) (view : Access → Tree) (env : WriteEnv)
    (gated : GatedProposal) (acknowledgedLoud : Bool) :
    Except BossclawError WritePlan := do
  checkVerdict gated.verdict acknowledgedLoud
  let (parentDir, finalName) ←
    resolveTarget (s.seen view .resolve) gated.proposal
  let target := parentDir ++ [finalName]
  recheckGrant (s.seen view .resolve) target
  openDirForWrite (s.seen view .resolve) env parentDir
  let (preBytes, guardIdentity) ←
    baseGuard digest (s.seen view .guard) env gated target
  let sources := deriveSources (s.seen view .guard) gated target
  if sources.isEmpty then
    .error (rejectError "file_written would have empty source_event_ids")
  else
    .ok { parentDir := parentDir, finalName := finalName,
          preBytes := preBytes, guardIdentity := guardIdentity,
          sources := sources }

/-- `execute_write_resolving`, each access with the files it sees. -/
def executeWriteAmid (s : BrainState) (view : Access → Tree) (env : WriteEnv)
    (gated : GatedProposal) (resolvesProposal : String)
    (acknowledgedLoud : Bool) : Except BossclawError String × BrainState :=
  match executeGateAmid digest s view env gated acknowledgedLoud with
  | .error e => (.error e, s.seen view .guard)
  | .ok plan =>
      match captureUndo digest (s.seen view .guard) env gated plan with
      | .error e => (.error e, s.seen view .guard)
      | .ok s₁ =>
          match mutate (view .change) env gated.proposal plan with
          | .error e => (.error e, { s₁ with tree := view .change })
          | .ok tree =>
              recordWrite digest { s₁ with tree := tree } env gated plan none
                (some resolvesProposal)

variable (render : Json → String)

/-- The operation a pending proposal names. -/
def parseOp (op : String) : Option WriteOp :=
  if op = "edit" then some .edit
  else if op = "create" then some .create
  else if op = "delete" then some .delete
  else none

/-- The comparison of the file with the fingerprint; a `Create` has none. -/
def checkFresh (t : Tree) (p : PendingProposal) (op : WriteOp) :
    Except EngineOpError Unit :=
  match op with
  | .create => .ok ()
  | .edit | .delete =>
      match t.read (ofString p.target) with
      | none => .error (.stale "could not read target: ")
      | some live =>
          match p.baseContentHash with
          | none => .error
              (.stale "proposal has no base fingerprint to verify against")
          | some base =>
              if base ≠ digest live then .error (.stale
                ("the file changed since this was suggested (base " ++ base ++
                  " != live " ++ digest live ++ ")"))
              else .ok ()

/-- The write a pending proposal asks for. -/
def writeProposalOf (p : PendingProposal) (op : WriteOp) (content : Bytes) :
    WriteProposal :=
  { target := ofString p.target, newContent := content, op := op,
    sourceEventIds := p.sourceEventIds, rationale := p.rationale }

/-- What an apply makes of the fresh verdict. -/
def checkFreshVerdict (v : WriteVerdict) (acknowledgedLoud : Bool) :
    Except EngineOpError Unit :=
  match v.rejectReason with
  | some reason => .error (.stale reason)
  | none =>
      if !v.allowed then
        .error (.revoked "target not under an active write grant")
      else if v.requiresLoudModal && !acknowledgedLoud then
        .error (.needsLoudConfirm
          "secret-/value-shaped or delete change — confirm review before applying")
      else .ok ()

/-- `apply_proposal`, each access with the files it sees: the event of the
write, and the state it leaves. -/
def applyProposalAmid (s : ReviewState) (view : Access → Tree)
    (env : WriteEnv) (id : String) (acknowledgedLoud : Bool) :
    Except EngineOpError String × ReviewState :=
  match (pendingProposals render s.brain.log).find? fun p => p.id == id with
  | none => (.error (.stale "proposal not found or already resolved"), s)
  | some p =>
      match parseOp p.op with
      | none => (.error (.core ("unknown proposal op: " ++ p.op)), s)
      | some op =>
          match checkFresh digest (view .fresh) p op with
          | .error e => (.error e, s)
          | .ok () =>
              match getProposalBytesChecked digest s p.id p.newContentHash with
              | .error e => (.error (.core e.text), s)
              | .ok content =>
                  let gated := proposeWriteAmid digest s.brain view
                    (writeProposalOf p op content)
                  match checkFreshVerdict gated.verdict acknowledgedLoud with
                  | .error e => (.error e, s)
                  | .ok () =>
                      match executeWriteAmid digest s.brain view env gated
                          p.id acknowledgedLoud with
                      | (.error e, brain) =>
                          (.error (executeErrorToEngineOpError e.text),
                            { s with brain := brain })
                      | (.ok fileWrittenId, brain) =>
                          (.ok fileWrittenId, { s with brain := brain })

/-- `apply_proposal`, while nothing else changes the files. -/
def applyProposal (s : ReviewState) (env : WriteEnv) (id : String)
    (acknowledgedLoud : Bool) : Except EngineOpError String × ReviewState :=
  applyProposalAmid digest render s (fun _ => s.brain.tree) env id
    acknowledgedLoud

/-! ## The sweep -/

/-- `MANDATE_AUTOAPPLY_PER_SWEEP`. -/
def mandateAutoapplyPerSweep : Nat := 8

/-- The pending proposals of mandates. -/
def mandateProposals (log : EventLog) : List PendingProposal :=
  (pendingProposals render log).filter fun p =>
    p.producer == m6cProposerProducer

/-- `sweep_candidates`. -/
def sweepCandidates (log : EventLog) : List String :=
  ((mandateProposals render log).take mandateAutoapplyPerSweep).map
    PendingProposal.id

/-- `mandates_enabled`: the newest explicit flag, or on. -/
def mandatesEnabled (log : EventLog) : Bool :=
  ((eventsOfTypes log [configEventType]).reverse.findSome? fun ev =>
    (ev.content.get? "mandates_enabled").bind Json.asBool).getD true

/-- The items of a sweep, one after the other: how many were applied. -/
def sweepItems (envs : String → WriteEnv) :
    ReviewState → List String → Nat × ReviewState
  | s, [] => (0, s)
  | s, id :: rest =>
      if !mandatesEnabled s.brain.log then (0, s)
      else
        match applyProposal digest render s (envs id) id false with
        | (.ok _, s') =>
            let (n, s'') := sweepItems envs s' rest
            (n + 1, s'')
        | (.error _, s') => sweepItems envs s' rest

/-- `mandate_autoapply_sweep`. -/
def mandateAutoapplySweep (envs : String → WriteEnv) (s : ReviewState) :
    Nat × ReviewState :=
  sweepItems digest render envs s (sweepCandidates render s.brain.log)

end AirNote
