import AirNote.Lib.Fold
import AirNote.Log
import Mathlib.Data.Finset.Basic

/-!
# The session fold

Captured coding-agent sessions live in the log as `session_captured` events;
a re-capture supersedes the previous one, the owner's deletion appends a
`session_deleted` tombstone, and the retire markers of notes and passages
travel in the same stream. `fold_sessions` reads that stream in two passes:
the first collects the marker sets, the second the current capture of each
session.

The marker sets are described fact by fact (`mem_deleted_iff` and its
siblings), each from one step lemma by the fold rules of `AirNote.Lib.Fold`.
What the second pass keeps is described by `exists_of_mem_current`, and
`nodup_current_sessionId` says that a session has at most one current
capture in any log.
-/

namespace AirNote

open Lib

/-! ## Data -/

/-- Metadata of one captured session, the input of a capture. -/
structure SessionMeta where
  sessionId : String
  title : String
  project : String
  tool : String
  startedAt : Int
  endedAt : Int
  path : String
  sha256 : String
  approxBytes : Nat
  deriving DecidableEq, Repr

/-- One current captured session. -/
structure CurrentSession where
  eventId : String
  sessionId : String
  title : String
  project : String
  tool : String
  startedAt : Int
  endedAt : Int
  path : String
  sha256 : String
  approxBytes : Nat
  deriving DecidableEq, Repr

/-- The sets collected from the markers: superseded *event* ids, deleted
*session* ids, and the notes and passages retired and not restored. -/
structure MarkerSets where
  superseded : Finset String
  deleted : Finset String
  retiredNotes : Finset String
  retiredPassages : Finset (String × Nat)

/-- The projection `fold_sessions` answers. -/
structure SessionFold extends MarkerSets where
  current : List CurrentSession

/-! ## Events -/

/-- The events `session_events_ordered` selects. -/
def isSessionStreamType (eventType : String) : Bool :=
  eventType == sessionCapturedEventType
    || eventType == sessionDeletedEventType
    || eventType == supersedeEventType
    || eventType == noteRetiredEventType
    || eventType == passageRetiredEventType
    || eventType == unretireEventType

/-- `session_events_ordered`. -/
def sessionEventsOrdered (log : EventLog) : List Event :=
  log.filter fun ev => isSessionStreamType ev.eventType

/-- The passage a marker names. -/
def passageOf (ev : Event) : Option (String × Nat) :=
  match ev.content.getStr? "session_id", ev.content.getU64? "passage_id" with
  | some s, some p => some (s, p)
  | _, _ => none

theorem passageOf_eq_some {ev : Event} {sid : String} {pid : Nat}
    (h : passageOf ev = some (sid, pid)) :
    ev.content.getStr? "session_id" = some sid ∧
      ev.content.getU64? "passage_id" = some pid := by
  unfold passageOf at h
  split at h
  · next s p hs hp =>
      rw [Option.some.injEq, Prod.mk.injEq] at h
      rw [← h.1, ← h.2]
      exact ⟨hs, hp⟩
  · cases h

/-- `parse_session_content`: all fields, or nothing. -/
def parseSessionContent (ev : Event) : Option CurrentSession :=
  let c := ev.content
  (c.getStr? "session_id").bind fun sessionId =>
  (c.getStr? "title").bind fun title =>
  (c.getStr? "project").bind fun project =>
  (c.getStr? "tool").bind fun tool =>
  (c.getI64? "started_at").bind fun startedAt =>
  (c.getI64? "ended_at").bind fun endedAt =>
  (c.getStr? "path").bind fun path =>
  (c.getStr? "sha256").bind fun sha256 =>
  (c.getU64? "approx_bytes").map fun approxBytes =>
    { eventId := ev.id
      sessionId := sessionId
      title := title
      project := project
      tool := tool
      startedAt := startedAt
      endedAt := endedAt
      path := path
      sha256 := sha256
      approxBytes := approxBytes }

/-- A capture of the session `sid`. -/
def IsCaptureOf (sid : String) (ev : Event) : Prop :=
  ev.eventType = sessionCapturedEventType ∧
    ev.content.getStr? "session_id" = some sid

theorem parseSessionContent_some {ev : Event} {cs : CurrentSession}
    (h : parseSessionContent ev = some cs) :
    cs.eventId = ev.id ∧
      ev.content.getStr? "session_id" = some cs.sessionId := by
  simp only [parseSessionContent, Option.bind_eq_some_iff,
    Option.map_eq_some_iff] at h
  obtain ⟨sid, hsid, _, -, _, -, _, -, _, -, _, -, _, -, _, -, _, -, rfl⟩ := h
  exact ⟨rfl, hsid⟩

/-! ## The first pass -/

/-- One event of the first pass. A restoring marker names a note, or else a
passage. -/
def foldMarker (acc : MarkerSets) (ev : Event) : MarkerSets :=
  if ev.eventType = supersedeEventType then
    match ev.content.getStr? "supersedes" with
    | some p => { acc with superseded := insert p acc.superseded }
    | none => acc
  else if ev.eventType = sessionDeletedEventType then
    match ev.content.getStr? "session_id" with
    | some s => { acc with deleted := insert s acc.deleted }
    | none => acc
  else if ev.eventType = noteRetiredEventType then
    match ev.content.getStr? "retires" with
    | some id => { acc with retiredNotes := insert id acc.retiredNotes }
    | none => acc
  else if ev.eventType = passageRetiredEventType then
    match passageOf ev with
    | some p => { acc with retiredPassages := insert p acc.retiredPassages }
    | none => acc
  else if ev.eventType = unretireEventType then
    match ev.content.getStr? "unretires" with
    | some id => { acc with retiredNotes := acc.retiredNotes.erase id }
    | none =>
        match passageOf ev with
        | some p =>
            { acc with retiredPassages := acc.retiredPassages.erase p }
        | none => acc
  else acc

/-- The marker sets of an empty stream. -/
def MarkerSets.empty : MarkerSets := ⟨∅, ∅, ∅, ∅⟩

/-- The first pass over the stream. -/
def foldMarkers (events : List Event) : MarkerSets :=
  events.foldl foldMarker MarkerSets.empty

/-- The event supersedes the event `id`. -/
def Supersedes (id : String) (ev : Event) : Prop :=
  ev.eventType = supersedeEventType ∧
    ev.content.getStr? "supersedes" = some id

/-- The event deletes the session `sid`. -/
def Deletes (sid : String) (ev : Event) : Prop :=
  ev.eventType = sessionDeletedEventType ∧
    ev.content.getStr? "session_id" = some sid

/-- The event retires the note `id`. -/
def RetiresNote (id : String) (ev : Event) : Prop :=
  ev.eventType = noteRetiredEventType ∧
    ev.content.getStr? "retires" = some id

/-- The event restores the note `id`. -/
def UnretiresNote (id : String) (ev : Event) : Prop :=
  ev.eventType = unretireEventType ∧
    ev.content.getStr? "unretires" = some id

/-- The event retires the passage `p`. -/
def RetiresPassage (p : String × Nat) (ev : Event) : Prop :=
  ev.eventType = passageRetiredEventType ∧ passageOf ev = some p

/-- The event restores the passage `p`. -/
def UnretiresPassage (p : String × Nat) (ev : Event) : Prop :=
  ev.eventType = unretireEventType ∧
    ev.content.getStr? "unretires" = none ∧ passageOf ev = some p

section FoldMarker

variable (acc : MarkerSets) (ev : Event)

theorem mem_foldMarker_superseded (id : String) :
    id ∈ (foldMarker acc ev).superseded ↔
      id ∈ acc.superseded ∨ Supersedes id ev := by
  by_cases h : ev.eventType = supersedeEventType
  · rw [foldMarker, if_pos h]
    cases hp : ev.content.getStr? "supersedes" with
    | none => simp [Supersedes, hp]
    | some p => simp [Supersedes, h, hp, or_comm, eq_comm]
  · have hsame : (foldMarker acc ev).superseded = acc.superseded := by
      rw [foldMarker, if_neg h]
      repeat' split
      all_goals rfl
    simp [hsame, Supersedes, h]

theorem mem_foldMarker_deleted (sid : String) :
    sid ∈ (foldMarker acc ev).deleted ↔
      sid ∈ acc.deleted ∨ Deletes sid ev := by
  by_cases h : ev.eventType = sessionDeletedEventType
  · have hne : ¬ ev.eventType = supersedeEventType := by
      rw [h]
      decide
    rw [foldMarker, if_neg hne, if_pos h]
    cases hp : ev.content.getStr? "session_id" with
    | none => simp [Deletes, hp]
    | some p => simp [Deletes, h, hp, or_comm, eq_comm]
  · have hsame : (foldMarker acc ev).deleted = acc.deleted := by
      rw [foldMarker]
      repeat' split
      all_goals rfl
    simp [hsame, Deletes, h]

theorem mem_foldMarker_retiredNotes (id : String) :
    id ∈ (foldMarker acc ev).retiredNotes ↔
      RetiresNote id ev ∨
        (id ∈ acc.retiredNotes ∧ ¬ UnretiresNote id ev) := by
  by_cases hr : ev.eventType = noteRetiredEventType
  · have h₁ : ¬ ev.eventType = supersedeEventType := by rw [hr]; decide
    have h₂ : ¬ ev.eventType = sessionDeletedEventType := by rw [hr]; decide
    have hnot : ¬ UnretiresNote id ev := by
      rintro ⟨hu, -⟩
      exact absurd (hr.symm.trans hu) (by decide)
    rw [foldMarker, if_neg h₁, if_neg h₂, if_pos hr]
    cases hp : ev.content.getStr? "retires" with
    | none => simp [RetiresNote, hnot, hp]
    | some p => simp [RetiresNote, hnot, hr, hp, eq_comm]
  · by_cases hu : ev.eventType = unretireEventType
    · have h₁ : ¬ ev.eventType = supersedeEventType := by rw [hu]; decide
      have h₂ : ¬ ev.eventType = sessionDeletedEventType := by rw [hu]; decide
      have h₃ : ¬ ev.eventType = passageRetiredEventType := by rw [hu]; decide
      have hnot : ¬ RetiresNote id ev := fun h => hr h.1
      rw [foldMarker, if_neg h₁, if_neg h₂, if_neg hr, if_neg h₃, if_pos hu]
      cases hp : ev.content.getStr? "unretires" with
      | none =>
          have hsame : ∀ o : Option (String × Nat),
              (match o with
                | some p => { acc with
                    retiredPassages := acc.retiredPassages.erase p }
                | none => acc).retiredNotes = acc.retiredNotes := by
            intro o
            cases o <;> rfl
          simp [hsame, hnot, UnretiresNote, hp]
      | some p => simp [hnot, UnretiresNote, hu, hp, and_comm, eq_comm]
    · have hsame : (foldMarker acc ev).retiredNotes = acc.retiredNotes := by
        rw [foldMarker]
        repeat' split
        all_goals rfl
      simp [hsame, RetiresNote, UnretiresNote, hr, hu]

theorem mem_foldMarker_retiredPassages (p : String × Nat) :
    p ∈ (foldMarker acc ev).retiredPassages ↔
      RetiresPassage p ev ∨
        (p ∈ acc.retiredPassages ∧ ¬ UnretiresPassage p ev) := by
  by_cases hr : ev.eventType = passageRetiredEventType
  · have h₁ : ¬ ev.eventType = supersedeEventType := by rw [hr]; decide
    have h₂ : ¬ ev.eventType = sessionDeletedEventType := by rw [hr]; decide
    have h₃ : ¬ ev.eventType = noteRetiredEventType := by rw [hr]; decide
    have hnot : ¬ UnretiresPassage p ev := by
      rintro ⟨hu, -⟩
      exact absurd (hr.symm.trans hu) (by decide)
    rw [foldMarker, if_neg h₁, if_neg h₂, if_neg h₃, if_pos hr]
    cases hp : passageOf ev with
    | none => simp [RetiresPassage, hnot, hp]
    | some q => simp [RetiresPassage, hnot, hr, hp, eq_comm]
  · by_cases hu : ev.eventType = unretireEventType
    · have h₁ : ¬ ev.eventType = supersedeEventType := by rw [hu]; decide
      have h₂ : ¬ ev.eventType = sessionDeletedEventType := by rw [hu]; decide
      have h₃ : ¬ ev.eventType = noteRetiredEventType := by rw [hu]; decide
      have hnot : ¬ RetiresPassage p ev := fun h => hr h.1
      rw [foldMarker, if_neg h₁, if_neg h₂, if_neg h₃, if_neg hr, if_pos hu]
      cases hn : ev.content.getStr? "unretires" with
      | some id => simp [hnot, UnretiresPassage, hn]
      | none =>
          cases hp : passageOf ev with
          | none => simp [hnot, UnretiresPassage, hp]
          | some q =>
              simp [hnot, UnretiresPassage, hu, hn, hp, and_comm, eq_comm]
    · have hsame :
          (foldMarker acc ev).retiredPassages = acc.retiredPassages := by
        rw [foldMarker]
        repeat' split
        all_goals rfl
      simp [hsame, RetiresPassage, UnretiresPassage, hr, hu]

end FoldMarker

/-! ### The marker sets, fact by fact -/

theorem mem_superseded_iff {events : List Event} {id : String} :
    id ∈ (foldMarkers events).superseded ↔
      ∃ ev ∈ events, Supersedes id ev := by
  have h := Fold.foldl_iff_exists (fun acc => id ∈ acc.superseded)
    (Supersedes id) (fun acc ev => mem_foldMarker_superseded acc ev id)
    MarkerSets.empty events
  simpa [foldMarkers, MarkerSets.empty] using h

theorem mem_deleted_iff {events : List Event} {sid : String} :
    sid ∈ (foldMarkers events).deleted ↔ ∃ ev ∈ events, Deletes sid ev := by
  have h := Fold.foldl_iff_exists (fun acc => sid ∈ acc.deleted)
    (Deletes sid) (fun acc ev => mem_foldMarker_deleted acc ev sid)
    MarkerSets.empty events
  simpa [foldMarkers, MarkerSets.empty] using h

theorem mem_retiredNotes_iff {events : List Event} {id : String} :
    id ∈ (foldMarkers events).retiredNotes ↔
      Fold.LastSets (RetiresNote id) (UnretiresNote id) events := by
  have h := Fold.foldl_iff_lastSets (fun acc => id ∈ acc.retiredNotes)
    (RetiresNote id) (UnretiresNote id)
    (fun acc ev => mem_foldMarker_retiredNotes acc ev id)
    MarkerSets.empty events
  simpa [foldMarkers, MarkerSets.empty] using h

theorem mem_retiredPassages_iff {events : List Event} {p : String × Nat} :
    p ∈ (foldMarkers events).retiredPassages ↔
      Fold.LastSets (RetiresPassage p) (UnretiresPassage p) events := by
  have h := Fold.foldl_iff_lastSets (fun acc => p ∈ acc.retiredPassages)
    (RetiresPassage p) (UnretiresPassage p)
    (fun acc ev => mem_foldMarker_retiredPassages acc ev p)
    MarkerSets.empty events
  simpa [foldMarkers, MarkerSets.empty] using h

/-! ## The second pass -/

/-- One event of the second pass: a capture neither superseded nor of a
deleted session replaces the one held for its session. -/
def foldCurrent (ms : MarkerSets) (acc : Std.TreeMap String CurrentSession)
    (ev : Event) : Std.TreeMap String CurrentSession :=
  if ev.eventType ≠ sessionCapturedEventType ∨ ev.id ∈ ms.superseded then acc
  else
    match parseSessionContent ev with
    | some cs =>
        if cs.sessionId ∈ ms.deleted then acc
        else acc.insert cs.sessionId cs
    | none => acc

/-- The current captures by session id. -/
def currentMap (events : List Event) : Std.TreeMap String CurrentSession :=
  events.foldl (foldCurrent (foldMarkers events)) ∅

/-- `fold_sessions`: the marker sets, and the current captures in the order
of their session ids. -/
def foldSessions (events : List Event) : SessionFold :=
  { foldMarkers events with
    current := (currentMap events).toList.map Prod.snd }

/-- The event counts for the second pass, and gives `cs`. -/
structure Live (ms : MarkerSets) (ev : Event) (cs : CurrentSession) :
    Prop where
  captured : ev.eventType = sessionCapturedEventType
  notSuperseded : ev.id ∉ ms.superseded
  parsed : parseSessionContent ev = some cs
  notDeleted : cs.sessionId ∉ ms.deleted

/-- One step of the second pass, in full. -/
theorem foldCurrent_cases (ms : MarkerSets)
    (acc : Std.TreeMap String CurrentSession) (ev : Event) :
    (∃ cs, Live ms ev cs ∧
      foldCurrent ms acc ev = acc.insert cs.sessionId cs) ∨
    ((¬ ∃ cs, Live ms ev cs) ∧ foldCurrent ms acc ev = acc) := by
  unfold foldCurrent
  split
  · next h =>
      refine .inr ⟨?_, rfl⟩
      rintro ⟨cs, hlive⟩
      rcases h with hne | hsup
      · exact hne hlive.captured
      · exact hlive.notSuperseded hsup
  · next h =>
      rw [not_or, not_not] at h
      cases hp : parseSessionContent ev with
      | none =>
          refine .inr ⟨?_, rfl⟩
          rintro ⟨cs, hlive⟩
          rw [hlive.parsed] at hp
          cases hp
      | some cs =>
          by_cases hdel : cs.sessionId ∈ ms.deleted
          · refine .inr ⟨?_, by simp [hdel]⟩
            rintro ⟨cs', hlive⟩
            have hcs : cs' = cs := by
              rw [hlive.parsed] at hp
              exact Option.some.inj hp
            exact hlive.notDeleted (hcs ▸ hdel)
          · refine .inl ⟨cs, ?_, by simp [hdel]⟩
            exact
              { captured := h.1, notSuperseded := h.2, parsed := hp,
                notDeleted := hdel }

/-- What the map holds: each session under its own id, from a live event. -/
theorem exists_of_getElem?_currentMap {events : List Event} {k : String}
    {cs : CurrentSession} (h : (currentMap events)[k]? = some cs) :
    cs.sessionId = k ∧
      ∃ ev ∈ events, Live (foldMarkers events) ev cs := by
  refine Fold.foldl_inv (fun acc => ∀ (k : String) (cs : CurrentSession),
    acc[k]? = some cs → cs.sessionId = k ∧
      ∃ ev ∈ events, Live (foldMarkers events) ev cs) ?_ ?_ k cs h
  · intro k cs hk
    simp at hk
  · intro acc ev hev hacc k cs hk
    rcases foldCurrent_cases (foldMarkers events) acc ev with
      ⟨cs', hlive, heq⟩ | ⟨-, heq⟩
    · rw [heq, Std.TreeMap.getElem?_insert] at hk
      split at hk
      · next hcmp =>
          have hkey : cs'.sessionId = k := Std.LawfulEqCmp.eq_of_compare hcmp
          have hcs : cs' = cs := Option.some.inj hk
          subst hcs
          exact ⟨hkey, ev, hev, hlive⟩
      · exact hacc k cs hk
    · rw [heq] at hk
      exact hacc k cs hk

/-- A current session comes from a live capture of the stream. -/
theorem exists_of_mem_current {events : List Event} {cs : CurrentSession}
    (h : cs ∈ (foldSessions events).current) :
    ∃ ev ∈ events, Live (foldMarkers events) ev cs := by
  obtain ⟨⟨k, cs'⟩, hmem, rfl⟩ := List.mem_map.mp h
  rw [Std.TreeMap.mem_toList_iff_getElem?_eq_some] at hmem
  exact (exists_of_getElem?_currentMap hmem).2

/-- **One current capture per session**, in every log. -/
theorem nodup_current_sessionId (events : List Event) :
    ((foldSessions events).current.map CurrentSession.sessionId).Nodup := by
  have hkeys : ((foldSessions events).current.map CurrentSession.sessionId) =
      (currentMap events).toList.map Prod.fst := by
    simp only [foldSessions, List.map_map]
    refine List.map_congr_left ?_
    rintro ⟨k, cs⟩ hmem
    rw [Std.TreeMap.mem_toList_iff_getElem?_eq_some] at hmem
    exact (exists_of_getElem?_currentMap hmem).1
  rw [hkeys, List.Nodup, List.pairwise_map]
  refine Std.TreeMap.distinct_keys_toList.imp ?_
  intro a b hne heq
  exact hne (by rw [heq]; exact Std.ReflCmp.compare_self)

/-! ## Reading the log

The same facts over the whole log: the events of other types do not count. -/

theorem isSessionStreamType_of_mem {t : String}
    (h : t ∈ [sessionCapturedEventType, sessionDeletedEventType,
      supersedeEventType, noteRetiredEventType, passageRetiredEventType,
      unretireEventType]) : isSessionStreamType t = true := by
  simp only [List.mem_cons, List.not_mem_nil, or_false] at h
  rcases h with rfl | rfl | rfl | rfl | rfl | rfl <;> decide

section ReadingTheLog

variable {log : EventLog}

theorem mem_superseded_log {id : String} :
    id ∈ (foldSessions (sessionEventsOrdered log)).superseded ↔
      ∃ ev ∈ log, Supersedes id ev := by
  show id ∈ (foldMarkers (sessionEventsOrdered log)).superseded ↔ _
  rw [mem_superseded_iff]
  constructor
  · rintro ⟨ev, hev, hs⟩
    exact ⟨ev, (List.mem_filter.mp hev).1, hs⟩
  · rintro ⟨ev, hev, hs⟩
    refine ⟨ev, List.mem_filter.mpr ⟨hev, ?_⟩, hs⟩
    exact isSessionStreamType_of_mem (by simp [hs.1])

theorem mem_deleted_log {sid : String} :
    sid ∈ (foldSessions (sessionEventsOrdered log)).deleted ↔
      ∃ ev ∈ log, Deletes sid ev := by
  show sid ∈ (foldMarkers (sessionEventsOrdered log)).deleted ↔ _
  rw [mem_deleted_iff]
  constructor
  · rintro ⟨ev, hev, hs⟩
    exact ⟨ev, (List.mem_filter.mp hev).1, hs⟩
  · rintro ⟨ev, hev, hs⟩
    refine ⟨ev, List.mem_filter.mpr ⟨hev, ?_⟩, hs⟩
    exact isSessionStreamType_of_mem (by simp [hs.1])

theorem mem_retiredNotes_log {id : String} :
    id ∈ (foldSessions (sessionEventsOrdered log)).retiredNotes ↔
      Fold.LastSets (RetiresNote id) (UnretiresNote id) log := by
  show id ∈ (foldMarkers (sessionEventsOrdered log)).retiredNotes ↔ _
  rw [mem_retiredNotes_iff, sessionEventsOrdered]
  refine Fold.lastSets_filter _ _ (fun ev h => ?_) (fun ev h => ?_) log
  · exact isSessionStreamType_of_mem (by simp [h.1])
  · exact isSessionStreamType_of_mem (by simp [h.1])

theorem mem_retiredPassages_log {p : String × Nat} :
    p ∈ (foldSessions (sessionEventsOrdered log)).retiredPassages ↔
      Fold.LastSets (RetiresPassage p) (UnretiresPassage p) log := by
  show p ∈ (foldMarkers (sessionEventsOrdered log)).retiredPassages ↔ _
  rw [mem_retiredPassages_iff, sessionEventsOrdered]
  refine Fold.lastSets_filter _ _ (fun ev h => ?_) (fun ev h => ?_) log
  · exact isSessionStreamType_of_mem (by simp [h.1])
  · exact isSessionStreamType_of_mem (by simp [h.1])

end ReadingTheLog

/-! ### The current capture of one session -/

/-- What the event contributes for the session `sid`. -/
def liveOf (ms : MarkerSets) (sid : String) (ev : Event) :
    Option CurrentSession :=
  if ev.eventType = sessionCapturedEventType ∧ ev.id ∉ ms.superseded then
    (parseSessionContent ev).filter fun cs =>
      decide (cs.sessionId = sid ∧ cs.sessionId ∉ ms.deleted)
  else none

theorem liveOf_eq_some_iff {ms : MarkerSets} {sid : String} {ev : Event}
    {cs : CurrentSession} :
    liveOf ms sid ev = some cs ↔ Live ms ev cs ∧ cs.sessionId = sid := by
  unfold liveOf
  constructor
  · intro h
    split at h
    · next hcap =>
        rw [Option.filter_eq_some_iff, decide_eq_true_iff] at h
        exact ⟨⟨hcap.1, hcap.2, h.1, h.2.2⟩, h.2.1⟩
    · cases h
  · rintro ⟨hlive, hsid⟩
    rw [if_pos ⟨hlive.captured, hlive.notSuperseded⟩,
      Option.filter_eq_some_iff, decide_eq_true_iff]
    exact ⟨hlive.parsed, hsid, hlive.notDeleted⟩

theorem liveOf_eq_none_of_not_capture {ms : MarkerSets} {sid : String}
    {ev : Event} (h : ¬ IsCaptureOf sid ev) : liveOf ms sid ev = none := by
  rw [Option.eq_none_iff_forall_ne_some]
  intro cs hcs
  obtain ⟨hlive, hsid⟩ := liveOf_eq_some_iff.1 hcs
  obtain ⟨-, hparsed⟩ := parseSessionContent_some hlive.parsed
  exact h ⟨hlive.captured, hsid ▸ hparsed⟩

/-- The last event that counts for the session is the one held. -/
theorem getElem?_foldl_foldCurrent (ms : MarkerSets) (sid : String)
    (acc : Std.TreeMap String CurrentSession) (events : List Event) :
    (events.foldl (foldCurrent ms) acc)[sid]? =
      (events.reverse.findSome? (liveOf ms sid)).or acc[sid]? := by
  induction events generalizing acc with
  | nil => simp
  | cons ev rest ih =>
      rw [List.foldl_cons, ih, List.reverse_cons, List.findSome?_append,
        Option.or_assoc]
      congr 1
      rcases foldCurrent_cases ms acc ev with
        ⟨cs, hlive, heq⟩ | ⟨hnone, heq⟩
      · rw [heq, Std.TreeMap.getElem?_insert]
        by_cases hsid : cs.sessionId = sid
        · subst hsid
          have hsome := liveOf_eq_some_iff.2
            ⟨hlive, (rfl : cs.sessionId = cs.sessionId)⟩
          simp [hsome]
        · have hnot : liveOf ms sid ev = none := by
            rw [Option.eq_none_iff_forall_ne_some]
            intro cs' hcs'
            obtain ⟨hlive', hsid'⟩ := liveOf_eq_some_iff.1 hcs'
            have hsame := hlive.parsed.symm.trans hlive'.parsed
            exact hsid (Option.some.inj hsame ▸ hsid')
          simp [hnot, hsid]
      · have hnot : liveOf ms sid ev = none := by
          rw [Option.eq_none_iff_forall_ne_some]
          intro cs' hcs'
          exact hnone ⟨cs', (liveOf_eq_some_iff.1 hcs').1⟩
        rw [heq]
        simp [hnot]

end AirNote
