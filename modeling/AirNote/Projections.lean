import AirNote.Actuator
import AirNote.Lib.Fold

/-!
# The page and file projections

`rebuild_graph` folds the log into tables. Two of them keep the newest
version of a thing: the pages by topic, and the ingested files by path. An
event counts unless some event of the log supersedes it, wherever it stands,
and the last one that counts wins.

The tables are read until the next rebuild, and are of the log as it was then.
-/

namespace AirNote

open Lib

/-- The identifiers the `supersede` events of a list name. -/
def supersededTargets (events : List Event) : List String :=
  events.filterMap fun ev =>
    if ev.eventType = supersedeEventType then
      ev.content.getStr? "supersedes"
    else none

/-- `Page`. -/
structure Page where
  topicId : String
  pageEventId : String
  title : String
  text : String
  deriving DecidableEq, Repr

/-- `parse_page_content`. -/
def parsePageContent (content : Json) : Option (String × String × String) :=
  (content.getStr? "topic_id").bind fun topicId =>
  (content.getStr? "title").bind fun title =>
  (content.getStr? "text").map fun text => (topicId, title, text)

/-- The row of an event that counts for a projection. -/
def countedRow {α : Type} (eventType : String) (superseded : List String)
    (row : Event → Option (String × α)) (ev : Event) :
    Option (String × α) :=
  if ev.eventType ≠ eventType ∨ ev.id ∈ superseded then none else row ev

/-- `fold_pages`. -/
def foldPages (events : List Event) : List Page :=
  Fold.latest
    (countedRow pageEventType (supersededTargets events) fun ev =>
      (parsePageContent ev.content).map fun (topicId, title, text) =>
        (topicId, ⟨topicId, ev.id, title, text⟩))
    events

/-- `parse_file_ingested_content`. -/
def parseFileIngestedContent (content : Json) :
    Option (String × String × String) :=
  (content.get? "provenance").bind fun p =>
  (p.getStr? "canonical_path").bind fun canonicalPath =>
  (p.getStr? "content_hash").bind fun contentHash =>
  (p.getStr? "grant_root").map fun grantRoot =>
    (canonicalPath, contentHash, grantRoot)

/-- The record of a `file_ingested` event, by its path. -/
def fileRow (ev : Event) : Option (String × FileRecord) :=
  (parseFileIngestedContent ev.content).map
    fun (canonicalPath, contentHash, grantRoot) =>
      (canonicalPath, ⟨canonicalPath, ev.id, contentHash, grantRoot⟩)

/-- `fold_files`. -/
def foldFiles (events : List Event) : List FileRecord :=
  Fold.latest
    (countedRow fileIngestedEventType (supersededTargets events) fileRow)
    events

/-- `page_and_supersede_events_ordered`. -/
def pageAndSupersedeEventsOrdered (log : EventLog) : List Event :=
  eventsOfTypes log [pageEventType, supersedeEventType]

/-- `file_and_supersede_events_ordered`. -/
def fileAndSupersedeEventsOrdered (log : EventLog) : List Event :=
  eventsOfTypes log [fileIngestedEventType, supersedeEventType]

/-- `current_files_active`: the join of the two tables. -/
def currentFilesActive (files : List FileRecord) (grants : List Grant) :
    List String :=
  (files.filter fun f =>
    grants.any fun g => g.canonicalRoot == f.grantRoot && !g.revoked).map
    FileRecord.fileEventId

end AirNote
