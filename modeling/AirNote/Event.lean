import AirNote.Json

/-!
# Events

The signed event is the single authoritative record of the engine; every
table other than the log is a projection of the events. This module gives
the record with all of its fields, the error values the engine answers
with, the event-type discriminators, and the external-taint classifier.

The type of an event is an open string, as in the source: the log stores
events of types this development says nothing about, and a tampered table
may carry any text there.
-/

namespace AirNote

/-- The errors of the memory engine (`BossclawError`), each with its text. -/
inductive BossclawError where
  | canonical (msg : String)
  | signature (msg : String)
  | multibase (msg : String)
  | chain (msg : String)
  | truncation (msg : String)
  | store (msg : String)
  | serde (msg : String)
  | io (msg : String)
  | invalidInput (msg : String)
  | embed (msg : String)
  | reasoner (msg : String)
  deriving DecidableEq, Repr

/-- The `Display` text of an error. -/
def BossclawError.text : BossclawError → String
  | .canonical m => s!"canonical JSON error: {m}"
  | .signature m => s!"signature error: {m}"
  | .multibase m => s!"multibase error: {m}"
  | .chain m => s!"chain integrity error: {m}"
  | .truncation m => s!"truncation/rollback detected: {m}"
  | .store m => s!"store error: {m}"
  | .serde m => s!"serde error: {m}"
  | .io m => s!"io error: {m}"
  | .invalidInput m => s!"invalid input: {m}"
  | .embed m => s!"embed error: {m}"
  | .reasoner m => s!"reasoner error: {m}"

/-- A byte string. -/
abbrev Bytes := List UInt8

/-- Provenance of a model-derived (Tier-B) event. -/
structure ModelMeta where
  modelId : String
  promptHash : String
  sourceEventIds : List String
  deriving DecidableEq, Repr

/-- One signed, hash-chained event. `hash` and `signature` are computed over
the canonical bytes of the other fields and are `none` before the append. -/
structure Event where
  id : String
  ts : String
  validTime : Option String
  eventType : String
  content : Json
  modelMeta : Option ModelMeta
  prevHash : String
  hash : Option String
  signedByDid : String
  signature : Option String
  deriving DecidableEq, Repr, Inhabited

/-! ## Text -/

/-- `char::is_whitespace`. -/
def isWhitespace (c : Char) : Bool :=
  let n := c.toNat
  (9 ≤ n && n ≤ 13) || n == 32 || n == 0x85 || n == 0xA0 || n == 0x1680 ||
    (0x2000 ≤ n && n ≤ 0x200A) || n == 0x2028 || n == 0x2029 ||
    n == 0x202F || n == 0x205F || n == 0x3000

/-! ## Event types -/

def entityEventType : String := "entity"
def memoryEventType : String := "memory"
def configEventType : String := "config"
def pageEventType : String := "page"
def supersedeEventType : String := "supersede"
def sessionCapturedEventType : String := "session_captured"
def sessionDeletedEventType : String := "session_deleted"
def noteRetiredEventType : String := "note_retired"
def passageRetiredEventType : String := "passage_retired"
def unretireEventType : String := "unretire"
def fileIngestedEventType : String := "file_ingested"
def grantEventType : String := "grant"
def revokeEventType : String := "revoke"
def writeGrantEventType : String := "write_grant"
def writeRevokeEventType : String := "write_revoke"
def fileWrittenEventType : String := "file_written"
def conflictProposalEventType : String := "conflict_proposal"
def conflictResolvedEventType : String := "conflict_resolved"
def coexistAllowedEventType : String := "coexist_allowed"
def dismissedEventType : String := "dismissed"
def mandateGrantEventType : String := "mandate_grant"
def mandateRevokeEventType : String := "mandate_revoke"

/-- The taint stamp at `content["origin"]`. -/
def externalOrigin : String := "external"

/-- The signer recorded on the events the engine authors itself. -/
def engineSignerDid : String := "did:wba:bossclaw-engine"

/-! ## Building and classifying events -/

/-- An event as a caller hands it to `append`: the fields `append` assigns
are still blank. -/
def Event.draft (eventType : String) (content : Json)
    (modelMeta : Option ModelMeta) : Event :=
  { id := ""
    ts := ""
    validTime := none
    eventType := eventType
    content := content
    modelMeta := modelMeta
    prevHash := ""
    hash := none
    signedByDid := engineSignerDid
    signature := none }

/-- Does the event carry the external taint stamp? -/
def isExternal (event : Event) : Bool :=
  event.content.getStr? "origin" == some externalOrigin

/-- A model-derived event. -/
def Event.tierB (event : Event) : Bool := event.modelMeta.isSome

/-- The direct lineage of an event: `source_event_ids`, empty on Tier A. -/
def Event.sources (event : Event) : List String :=
  match event.modelMeta with
  | some m => m.sourceEventIds
  | none => []

theorem isExternal_iff {event : Event} :
    isExternal event = true ↔
      event.content.getStr? "origin" = some externalOrigin := by
  simp [isExternal]

end AirNote
