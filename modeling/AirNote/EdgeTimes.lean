import Mathlib.Data.List.Sort
import Mathlib.Data.String.Basic
import AirNote.Graph

/-!
# The edge table and its clocks

The edge table keeps, for each assertion of an edge, the interval in which it
was known: the time of its `link` event, and that of the `invalidate` event
that closed it. A query at an instant reads the intervals, where the graph of
that instant is the fold of the events up to it. The two agree on every log
whose timestamps do not run backwards.

## Main results

* `foldEdges_eq` — the fold through the index of open assertions is the fold
  that closes every open assertion of a key.
* `foldEdges_open` — the open rows of the edge table are the open assertions
  of the entity graph.
* `asOf_known` — what was known at an instant is the graph folded up to it.
-/

namespace AirNote

/-- A row of the `edges` table. -/
structure Edge where
  edgeId : String
  src : String
  relation : String
  dst : String
  validFrom : String
  validTo : Option String
  ingestedAt : String
  invalidatedAt : Option String
  invalidatedBy : Option String
  origin : String
  confidenceMilli : Option Int
  deriving DecidableEq, Repr

/-- `AsOf`. -/
structure AsOf where
  validTime : Option String
  knownAsOf : Option String
  deriving DecidableEq, Repr

def Edge.key (e : Edge) : EdgeKey := ⟨e.src, e.relation, e.dst⟩

/-- `invalidated_at IS NULL`. -/
def Edge.isOpen (e : Edge) : Bool := e.invalidatedAt.isNone

/-- `origin_of`. -/
def originOf (modelId : String) : String :=
  if modelId = manualLinkProducer then "manual" else "machine"

section Clock

-- `DateTime::parse_from_rfc3339`, rendered in UTC with microseconds.
variable (parseRfc3339 : String → Option String)

/-- `normalize_ts`. -/
def normalizeTs (ts : String) : String :=
  match parseRfc3339 ts with
  | some utc => utc
  | none => ts

/-- The normalised time an event speaks of. -/
def eventValidTime (event : Event) : String :=
  normalizeTs parseRfc3339 (event.validTime.getD event.ts)

/-- The normalised time an event was recorded. -/
def eventKnownTime (event : Event) : String :=
  normalizeTs parseRfc3339 event.ts

/-! ## The fold -/

/-- The edges so far, and the indices into them that are still open for each
key. -/
structure EdgeFold where
  edges : List Edge
  active : EdgeKey → List Nat

/-- The row a `link` event opens. -/
def linkEdge (event : Event) (key : EdgeKey) : Edge :=
  let origin := match event.modelMeta with
    | some m => originOf m.modelId
    | none => "manual"
  { edgeId := event.id
    src := key.src
    relation := key.relation
    dst := key.dst
    validFrom := eventValidTime parseRfc3339 event
    validTo := none
    ingestedAt := eventKnownTime parseRfc3339 event
    invalidatedAt := none
    invalidatedBy := none
    origin := origin
    confidenceMilli :=
      if origin = "manual" then none
      else event.content.getI64? "confidence_milli" }

/-- What an `invalidate` event writes into a row. -/
def closeEdge (event : Event) (e : Edge) : Edge :=
  { e with
    validTo := some (eventValidTime parseRfc3339 event)
    invalidatedAt := some (eventKnownTime parseRfc3339 event)
    invalidatedBy := some event.id }

/-- One event of `fold_edges`. -/
def EdgeFold.step (st : EdgeFold) (event : Event) : EdgeFold :=
  match parseLinkContent event.content with
  | none => st
  | some key =>
      if event.eventType = linkEventType then
        { edges := st.edges ++ [linkEdge parseRfc3339 event key]
          active := fun k =>
            if k = key then st.active key ++ [st.edges.length]
            else st.active k }
      else if event.eventType = invalidateEventType then
        { edges := (st.active key).foldl
            (fun edges i => edges.modify i (closeEdge parseRfc3339 event))
            st.edges
          active := fun k => if k = key then [] else st.active k }
      else st

/-- `fold_edges`. -/
def foldEdges (events : List Event) : List Edge :=
  (events.foldl (EdgeFold.step parseRfc3339) ⟨[], fun _ => []⟩).edges

/-- `graph_events_ordered`. -/
def graphEventsOrdered (log : EventLog) : List Event :=
  log.filter fun event =>
    event.eventType = linkEventType || event.eventType = invalidateEventType

/-- The `edges` table `rebuild_graph` writes. -/
def rebuildEdges (log : EventLog) : List Edge :=
  foldEdges parseRfc3339 (graphEventsOrdered log)

/-! ## The queries -/

def Edge.touches (node : String) (e : Edge) : Bool :=
  e.src == node || e.dst == node

/-- `ORDER BY edge_id ASC`. -/
def orderByEdgeId (edges : List Edge) : List Edge :=
  edges.insertionSort fun a b => a.edgeId ≤ b.edgeId

/-- `neighbors`. -/
def neighbors (edges : List Edge) (node : String) : List Edge :=
  orderByEdgeId (edges.filter fun e => e.touches node && e.isOpen)

/-- `from <= t AND (to IS NULL OR t < to)`. -/
def withinInterval (opened : String) (closed : Option String)
    (t : String) : Bool :=
  decide (opened ≤ t) &&
    match closed with
    | none => true
    | some stop => decide (t < stop)

/-- `as_of`. -/
def asOf (edges : List Edge) (node : String) (query : AsOf) : List Edge :=
  let valid := query.validTime.map (normalizeTs parseRfc3339)
  let known := query.knownAsOf.map (normalizeTs parseRfc3339)
  orderByEdgeId <| edges.filter fun e => e.touches node &&
    match valid, known with
    | none, none => e.isOpen
    | _, _ =>
        (match valid with
          | none => true
          | some t => withinInterval e.validFrom e.validTo t) &&
        (match known with
          | none => true
          | some t => withinInterval e.ingestedAt e.invalidatedAt t)

/-! ## The fold without its index -/

/-- One event of the fold, as what it does to the rows. -/
def edgeStep (edges : List Edge) (event : Event) : List Edge :=
  match parseLinkContent event.content with
  | none => edges
  | some key =>
      if event.eventType = linkEventType then
        edges ++ [linkEdge parseRfc3339 event key]
      else if event.eventType = invalidateEventType then
        edges.map fun e =>
          if e.key = key ∧ e.isOpen then closeEdge parseRfc3339 event e else e
      else edges

/-- The index holds the positions of the open rows of each key. -/
def EdgeFold.Indexed (st : EdgeFold) : Prop :=
  ∀ key i, i ∈ st.active key ↔
    ∃ e, st.edges[i]? = some e ∧ e.key = key ∧ e.isOpen

theorem linkEdge_key (event : Event) (key : EdgeKey) :
    (linkEdge parseRfc3339 event key).key = key := rfl

theorem linkEdge_isOpen (event : Event) (key : EdgeKey) :
    (linkEdge parseRfc3339 event key).isOpen := rfl

theorem closeEdge_key (event : Event) (e : Edge) :
    (closeEdge parseRfc3339 event e).key = e.key := rfl

theorem closeEdge_isOpen (event : Event) (e : Edge) :
    (closeEdge parseRfc3339 event e).isOpen = false := rfl

/-- Closing the indexed rows one by one closes each of them. -/
theorem getElem?_foldl_close (event : Event) (indices : List Nat)
    (edges : List Edge) (j : Nat) :
    (indices.foldl
        (fun edges i => edges.modify i (closeEdge parseRfc3339 event))
        edges)[j]? =
      if j ∈ indices then edges[j]?.map (closeEdge parseRfc3339 event)
      else edges[j]? := by
  induction indices generalizing edges with
  | nil => simp
  | cons i indices ih =>
      rw [List.foldl_cons, ih, List.getElem?_modify]
      -- closing a row a second time writes the same values
      by_cases hij : i = j <;> by_cases hj : j ∈ indices <;>
        cases edges[j]? <;> simp [hij, hj, closeEdge, Ne.symm]

theorem EdgeFold.step_edges {st : EdgeFold} (hst : st.Indexed)
    (event : Event) :
    (st.step parseRfc3339 event).edges =
      edgeStep parseRfc3339 st.edges event := by
  unfold EdgeFold.step edgeStep
  cases hparse : parseLinkContent event.content with
  | none => rfl
  | some key =>
      by_cases hlink : event.eventType = linkEventType
      · simp only [if_pos hlink]
      by_cases hinv : event.eventType = invalidateEventType
      · simp only [if_neg hlink, if_pos hinv]
        apply List.ext_getElem?
        intro j
        rw [getElem?_foldl_close, List.getElem?_map]
        cases hj : st.edges[j]? with
        | none => simp
        | some e =>
            have hmem : j ∈ st.active key ↔ e.key = key ∧ e.isOpen := by
              rw [hst key j]
              simp [hj]
            by_cases hopen : e.key = key ∧ e.isOpen
            · simp [hmem.mpr hopen, hopen]
            · have hnot : j ∉ st.active key := fun h => hopen (hmem.mp h)
              rw [if_neg hnot, Option.map_some, if_neg hopen]
      · simp only [if_neg hlink, if_neg hinv]

theorem EdgeFold.Indexed.step {st : EdgeFold} (hst : st.Indexed)
    (event : Event) : (st.step parseRfc3339 event).Indexed := by
  intro k i
  rw [EdgeFold.step_edges parseRfc3339 hst]
  unfold EdgeFold.step edgeStep
  cases hparse : parseLinkContent event.content with
  | none => exact hst k i
  | some key =>
      by_cases hlink : event.eventType = linkEventType
      · simp only [if_pos hlink]
        have hbound : i ∈ st.active k → i < st.edges.length := by
          intro hi
          obtain ⟨e, he, -⟩ := (hst k i).mp hi
          exact (List.getElem?_eq_some_iff.mp he).1
        rcases Nat.lt_trichotomy i st.edges.length with hlt | heq | hgt
        · rw [List.getElem?_append_left hlt, ← hst k i]
          by_cases hk : k = key
          · subst hk
            simp [Nat.ne_of_lt hlt]
          · rw [if_neg hk]
        · -- the new row is open under its own key and under no other
          subst heq
          rw [List.getElem?_concat_length]
          by_cases hk : k = key
          · subst hk
            simp [linkEdge_key, linkEdge_isOpen]
          · have hnot : st.edges.length ∉ st.active k :=
              fun h => absurd (hbound h) (Nat.lt_irrefl _)
            simp [hk, hnot, linkEdge_key, Ne.symm hk]
        · have hnone : (st.edges ++ [linkEdge parseRfc3339 event key])[i]? =
              none := List.getElem?_eq_none (by simp; omega)
          have hnot : i ∉ st.active k := fun h => by
            have := hbound h
            omega
          by_cases hk : k = key
          · subst hk
            simp [hnot, hnone, Nat.ne_of_gt hgt]
          · simp [hk, hnot, hnone]
      by_cases hinv : event.eventType = invalidateEventType
      · simp only [if_neg hlink, if_pos hinv]
        rw [List.getElem?_map]
        by_cases hk : k = key
        · -- every row of the key is closed now
          subst hk
          rw [if_pos rfl]
          constructor
          · intro hi
            cases hi
          · rintro ⟨e, he, hkey, hopen⟩
            rw [Option.map_eq_some_iff] at he
            obtain ⟨e₀, -, he⟩ := he
            by_cases hclose : e₀.key = k ∧ e₀.isOpen
            · rw [if_pos hclose] at he
              rw [← he, closeEdge_isOpen] at hopen
              cases hopen
            · rw [if_neg hclose] at he
              subst he
              exact absurd ⟨hkey, hopen⟩ hclose
        · rw [if_neg hk, hst k i]
          cases hi : st.edges[i]? with
          | none => simp
          | some e =>
              by_cases hclose : e.key = key ∧ e.isOpen
              · have hne : e.key ≠ k := fun h => hk (h.symm.trans hclose.1)
                simp [hclose, closeEdge_key, Ne.symm hk]
              · simp [hclose]
      · simp only [if_neg hlink, if_neg hinv]
        exact hst k i

theorem EdgeFold.foldl_edges {st : EdgeFold} (hst : st.Indexed)
    (events : List Event) :
    (events.foldl (EdgeFold.step parseRfc3339) st).edges =
      events.foldl (edgeStep parseRfc3339) st.edges := by
  induction events generalizing st with
  | nil => rfl
  | cons event events ih =>
      rw [List.foldl_cons, List.foldl_cons,
        ih (hst.step parseRfc3339 event), step_edges parseRfc3339 hst]

theorem foldEdges_eq (events : List Event) :
    foldEdges parseRfc3339 events =
      events.foldl (edgeStep parseRfc3339) [] := by
  have hempty : EdgeFold.Indexed ⟨[], fun _ => []⟩ := by
    intro key i
    simp
  exact EdgeFold.foldl_edges parseRfc3339 hempty events

/-! ## The open rows -/

/-- The keys of the open rows. -/
def openKeys (edges : List Edge) : List EdgeKey :=
  (edges.filter Edge.isOpen).map Edge.key

theorem openKeys_edgeStep (edges : List Edge) {event : Event}
    (htype : event.eventType = linkEventType ∨
      event.eventType = invalidateEventType) :
    openKeys (edgeStep parseRfc3339 edges event) =
      foldEdge (openKeys edges) event := by
  unfold edgeStep foldEdge
  cases hparse : parseLinkContent event.content with
  | none => rfl
  | some key =>
      by_cases hlink : event.eventType = linkEventType
      · simp only [if_pos hlink, openKeys, List.filter_append,
          List.map_append]
        rfl
      · have hinv := htype.resolve_left hlink
        simp only [if_neg hlink, if_pos hinv]
        unfold openKeys
        induction edges with
        | nil => rfl
        | cons e edges ih =>
            rw [List.map_cons, List.filter_cons, List.filter_cons]
            by_cases hopen : e.isOpen
            · by_cases hkey : e.key = key
              · simpa [hopen, hkey, closeEdge_isOpen] using ih
              · simpa [hopen, hkey] using ih
            · simpa [hopen] using ih

/-- The open rows of the edge table are the open assertions of the graph. -/
theorem foldEdges_open (log : EventLog) :
    openKeys (rebuildEdges parseRfc3339 log) = activeEdges log := by
  have hfold : ∀ (log : EventLog) (edges : List Edge),
      openKeys ((graphEventsOrdered log).foldl (edgeStep parseRfc3339) edges) =
        log.foldl foldEdge (openKeys edges) := by
    intro log
    induction log with
    | nil => exact fun edges => rfl
    | cons event log ih =>
        intro edges
        unfold graphEventsOrdered at ih ⊢
        rw [List.filter_cons]
        by_cases htype : event.eventType = linkEventType ∨
            event.eventType = invalidateEventType
        · rw [if_pos (by simpa using htype), List.foldl_cons, List.foldl_cons,
            ih, openKeys_edgeStep parseRfc3339 edges htype]
        · have hskip : foldEdge (openKeys edges) event = openKeys edges := by
            unfold foldEdge
            rw [not_or] at htype
            cases parseLinkContent event.content with
            | none => rfl
            | some key => simp only [if_neg htype.1, if_neg htype.2]
          rw [if_neg (by simpa using htype), List.foldl_cons, ih, hskip]
  rw [rebuildEdges, foldEdges_eq, hfold]
  rfl

/-! ## The graph of an instant -/

/-- A row `as_of` returns for the instant `t`. -/
def Edge.knownAt (node t : String) (e : Edge) : Bool :=
  e.touches node && withinInterval e.ingestedAt e.invalidatedAt t

/-- An event after the instant changes nothing that was known then. -/
theorem knownAt_edgeStep {node t : String} (edges : List Edge) {event : Event}
    (ht : t < eventKnownTime parseRfc3339 event) :
    ((edgeStep parseRfc3339 edges event).filter (Edge.knownAt node t)).map
        Edge.edgeId =
      (edges.filter (Edge.knownAt node t)).map Edge.edgeId := by
  unfold edgeStep
  cases hparse : parseLinkContent event.content with
  | none => rfl
  | some key =>
      by_cases hlink : event.eventType = linkEventType
      · have hnew : (linkEdge parseRfc3339 event key).knownAt node t = false := by
          have hnot : ¬ eventKnownTime parseRfc3339 event ≤ t :=
            not_le.mpr ht
          simp [Edge.knownAt, withinInterval, linkEdge, hnot]
        simp [hlink, hnew]
      by_cases hinv : event.eventType = invalidateEventType
      · simp only [if_neg hlink, if_pos hinv]
        -- a row closed after `t` is known at `t` as it was when open
        have hclose : ∀ e : Edge, e.isOpen →
            (closeEdge parseRfc3339 event e).knownAt node t =
              e.knownAt node t := by
          intro e hopen
          have hnone : e.invalidatedAt = none := Option.isNone_iff_eq_none.mp hopen
          unfold Edge.knownAt withinInterval
          rw [hnone]
          show (e.touches node && (decide (e.ingestedAt ≤ t) &&
            decide (t < eventKnownTime parseRfc3339 event))) = _
          rw [decide_eq_true ht]
        induction edges with
        | nil => rfl
        | cons e edges ih =>
            rw [List.map_cons, List.filter_cons, List.filter_cons]
            by_cases hc : e.key = key ∧ e.isOpen
            · rw [if_pos hc, hclose e hc.2]
              by_cases hk : e.knownAt node t
              · simpa [hk, closeEdge] using ih
              · simpa [hk] using ih
            · rw [if_neg hc]
              by_cases hk : e.knownAt node t
              · simpa [hk] using ih
              · simpa [hk] using ih
      · simp only [if_neg hlink, if_neg hinv]

theorem knownAt_foldl {node t : String} {events : List Event}
    (hafter : ∀ event ∈ events, t < eventKnownTime parseRfc3339 event)
    (edges : List Edge) :
    ((events.foldl (edgeStep parseRfc3339) edges).filter
        (Edge.knownAt node t)).map Edge.edgeId =
      (edges.filter (Edge.knownAt node t)).map Edge.edgeId := by
  induction events generalizing edges with
  | nil => rfl
  | cons event events ih =>
      rw [List.forall_mem_cons] at hafter
      rw [List.foldl_cons, ih hafter.2,
        knownAt_edgeStep parseRfc3339 edges hafter.1]

/-- Both ends of a row's interval are at most `t`. -/
def Edge.Before (t : String) (e : Edge) : Prop :=
  e.ingestedAt ≤ t ∧ ∀ stop, e.invalidatedAt = some stop → stop ≤ t

theorem before_edgeStep {t : String} {edges : List Edge} {event : Event}
    (hedges : ∀ e ∈ edges, e.Before t)
    (ht : eventKnownTime parseRfc3339 event ≤ t) :
    ∀ e ∈ edgeStep parseRfc3339 edges event, e.Before t := by
  unfold edgeStep
  cases hparse : parseLinkContent event.content with
  | none => exact hedges
  | some key =>
      by_cases hlink : event.eventType = linkEventType
      · simp only [if_pos hlink]
        intro e he
        rcases List.mem_append.mp he with he | he
        · exact hedges e he
        · rw [List.mem_singleton.mp he]
          exact ⟨ht, fun stop h => by cases h⟩
      by_cases hinv : event.eventType = invalidateEventType
      · simp only [if_neg hlink, if_pos hinv]
        intro e he
        obtain ⟨e₀, he₀, rfl⟩ := List.mem_map.mp he
        by_cases hc : e₀.key = key ∧ e₀.isOpen
        · rw [if_pos hc]
          refine ⟨(hedges e₀ he₀).1, fun stop h => ?_⟩
          have hstop : eventKnownTime parseRfc3339 event = stop :=
            Option.some.inj h
          rw [← hstop]
          exact ht
        · rw [if_neg hc]
          exact hedges e₀ he₀
      · simpa only [if_neg hlink, if_neg hinv] using hedges

theorem before_foldl {t : String} {events : List Event} {edges : List Edge}
    (hedges : ∀ e ∈ edges, e.Before t)
    (hevents : ∀ event ∈ events, eventKnownTime parseRfc3339 event ≤ t) :
    ∀ e ∈ events.foldl (edgeStep parseRfc3339) edges, e.Before t := by
  induction events generalizing edges with
  | nil => exact hedges
  | cons event events ih =>
      rw [List.forall_mem_cons] at hevents
      exact ih (before_edgeStep parseRfc3339 hedges hevents.1) hevents.2

/-- Of rows whose intervals end by `t`, the known ones are the open ones. -/
theorem knownAt_of_before {node t : String} {e : Edge} (he : e.Before t) :
    e.knownAt node t = (e.touches node && e.isOpen) := by
  unfold Edge.knownAt withinInterval Edge.isOpen
  cases hinv : e.invalidatedAt with
  | none => simp [he.1]
  | some stop =>
      have hnot : ¬ t < stop := not_lt.mpr (he.2 stop hinv)
      simp [hnot]

/-- Events in the order of their times are those up to `t`, then those
after. -/
theorem split_at_instant {t : String} {events : List Event}
    (hmono : events.Pairwise fun a b =>
      eventKnownTime parseRfc3339 a ≤ eventKnownTime parseRfc3339 b) :
    events =
      events.filter (fun event => eventKnownTime parseRfc3339 event ≤ t) ++
        events.filter (fun event => t < eventKnownTime parseRfc3339 event) := by
  induction events with
  | nil => rfl
  | cons event events ih =>
      obtain ⟨hfirst, hrest⟩ := List.pairwise_cons.mp hmono
      by_cases ht : eventKnownTime parseRfc3339 event ≤ t
      · rw [List.filter_cons, List.filter_cons, if_pos (by simpa using ht),
          if_neg (by simpa using not_lt.mpr ht), List.cons_append, ← ih hrest]
      · have hlt := not_le.mp ht
        have hafter : ∀ later ∈ event :: events,
            t < eventKnownTime parseRfc3339 later := by
          rw [List.forall_mem_cons]
          exact ⟨hlt, fun later h => lt_of_lt_of_le hlt (hfirst later h)⟩
        have hnone : (event :: events).filter
            (fun event => eventKnownTime parseRfc3339 event ≤ t) = [] := by
          rw [List.filter_eq_nil_iff]
          intro later h
          simpa using hafter later h
        have hall : (event :: events).filter
            (fun event => t < eventKnownTime parseRfc3339 event) =
              event :: events := by
          rw [List.filter_eq_self]
          intro later h
          simpa using hafter later h
        rw [hnone, hall, List.nil_append]

theorem orderByEdgeId_ids (edges : List Edge) :
    (orderByEdgeId edges).map Edge.edgeId =
      (edges.map Edge.edgeId).insertionSort (· ≤ ·) :=
  List.map_insertionSort _ _ Edge.edgeId edges fun _ _ _ _ => Iff.rfl

/-- On a log whose edge events stand in the order of their times, what was
known at an instant is the graph folded from the events up to it, and the
query without an instant is the query of the current graph. -/
theorem asOf_known (log : EventLog) (node : String)
    (hmono : (graphEventsOrdered log).Pairwise fun a b =>
      eventKnownTime parseRfc3339 a ≤ eventKnownTime parseRfc3339 b) :
    (∀ t, (asOf parseRfc3339 (rebuildEdges parseRfc3339 log) node
          ⟨none, some t⟩).map Edge.edgeId =
        (neighbors (rebuildEdges parseRfc3339 (log.filter fun event =>
            eventKnownTime parseRfc3339 event ≤ normalizeTs parseRfc3339 t))
          node).map Edge.edgeId) ∧
      asOf parseRfc3339 (rebuildEdges parseRfc3339 log) node ⟨none, none⟩ =
        neighbors (rebuildEdges parseRfc3339 log) node := by
  constructor
  · intro t
    let now := normalizeTs parseRfc3339 t
    let past := (graphEventsOrdered log).filter fun event =>
      eventKnownTime parseRfc3339 event ≤ now
    let edges := past.foldl (edgeStep parseRfc3339) []
    have hpast : graphEventsOrdered (log.filter fun event =>
        eventKnownTime parseRfc3339 event ≤ now) = past :=
      List.filter_comm _ _ log
    have hbefore : ∀ e ∈ edges, e.Before now :=
      before_foldl parseRfc3339 (fun e he => by cases he) fun event he => by
        simpa using (List.mem_filter.mp he).2
    have hknown : edges.filter (Edge.knownAt node now) =
        edges.filter fun e => e.touches node && e.isOpen :=
      List.filter_congr fun e he => knownAt_of_before (hbefore e he)
    have hfull : ((rebuildEdges parseRfc3339 log).filter
        (Edge.knownAt node now)).map Edge.edgeId =
          (edges.filter (Edge.knownAt node now)).map Edge.edgeId := by
      rw [rebuildEdges, foldEdges_eq,
        split_at_instant (t := now) parseRfc3339 hmono, List.foldl_append]
      apply knownAt_foldl
      intro event he
      simpa using (List.mem_filter.mp he).2
    have hquery : asOf parseRfc3339 (rebuildEdges parseRfc3339 log) node
        ⟨none, some t⟩ = orderByEdgeId
          ((rebuildEdges parseRfc3339 log).filter (Edge.knownAt node now)) := by
      simp only [asOf, Option.map_none, Option.map_some, Bool.true_and]
      rfl
    rw [hquery, orderByEdgeId_ids, hfull, hknown, ← orderByEdgeId_ids]
    rw [rebuildEdges, hpast, foldEdges_eq]
    rfl
  · rfl

end Clock

/-! ## An edge that is withdrawn and asserted again -/

def edgeTestEvent (id ts eventType : String) : Event :=
  { id := id, ts := ts, validTime := none, eventType := eventType
    content := .obj [("src", .str "alice"), ("relation", .str "knows"),
      ("dst", .str "bob")]
    modelMeta := none, prevHash := "", hash := none
    signedByDid := "did:wba:alice", signature := none }

def withdrawnEdgeLog : EventLog :=
  [edgeTestEvent "01" "2020-01-01T00:00:00.000000Z" linkEventType,
    edgeTestEvent "02" "2020-02-01T00:00:00.000000Z" linkEventType,
    edgeTestEvent "03" "2020-03-01T00:00:00.000000Z" invalidateEventType,
    edgeTestEvent "04" "2020-04-01T00:00:00.000000Z" linkEventType]

/-- The timestamps of the log are in normal form, so that `some` parses
them. -/
theorem asOf_known_sample :
    (asOf some (rebuildEdges some withdrawnEdgeLog) "bob"
        ⟨none, some "2020-02-15T00:00:00.000000Z"⟩).map Edge.edgeId =
      (neighbors (rebuildEdges some (withdrawnEdgeLog.filter fun event =>
          eventKnownTime some event ≤
            normalizeTs some "2020-02-15T00:00:00.000000Z"))
        "bob").map Edge.edgeId ∧
    (asOf some (rebuildEdges some withdrawnEdgeLog) "bob"
        ⟨none, some "2020-02-15T00:00:00.000000Z"⟩).map Edge.edgeId =
      ["01", "02"] := by
  constructor
  · exact (asOf_known some withdrawnEdgeLog "bob" (by decide +kernel)).1 _
  · decide +kernel

end AirNote
