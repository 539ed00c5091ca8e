import AirNote.Lib.Fold
import AirNote.Lib.Trace
import AirNote.Log
import Mathlib.Logic.Function.Basic

/-!
# Permissions and the rebuild of their tables

The read grants, the write grants and the mandates are folds of the log, and
the gates read them from tables that `rebuild_graph` rewrites. A permission
call appends its event and then rebuilds; the sweeps rebuild too. A rebuild
reads the three event streams one after the other, each under the lock of
its own query, and takes the lock again to write what it folded. Nothing
orders two rebuilds, nor a rebuild and the append of another call: a call
that read before a revocation may write after it.

The calls are identified by numbers; a step is one critical section of one
call, so that a sequence of steps is an interleaving. The tables other than
the three are left out: the gates of the permissions read none of them.

## Main results

* `active_foldRoots_iff`, `active_foldMandates_iff` — a root or a mandate is
  active in the fold iff its last relevant event grants it.
* `permissions_current_iff_returnsFresh` — the tables are current whenever all
  calls have returned, exactly in the runs in which the call that returns
  last never writes an outdated snapshot nor fails on outdated tables.
* `returnsFresh_of_quiet` — which is so when no permission event is appended
  while a rebuild is under way and no rebuild fails.
* `stale_rebuild_reactivates` — otherwise a revoked folder may be active.
-/

namespace AirNote

open Lib

/-! ## The folds -/

/-- The state of one granted folder (`Grant` and `WriteGrant`). -/
structure Grant where
  canonicalRoot : String
  grantedAt : String
  revoked : Bool
  deriving DecidableEq, Repr

/-- A standing mandate. -/
structure Mandate where
  mandateGrantId : String
  target : String
  sourceScope : String
  recipe : String
  grantedAt : String
  revoked : Bool
  deriving DecidableEq, Repr

/-- `parse_grant_content`. -/
def parseGrantContent (content : Json) : Option String :=
  content.getStr? "canonical_root"

/-- One event of the fold of a kind of folder grant. -/
def foldRoot (grantType revokeType : String)
    (acc : Std.TreeMap String Grant) (ev : Event) :
    Std.TreeMap String Grant :=
  match parseGrantContent ev.content with
  | none => acc
  | some root =>
      if ev.eventType = grantType then
        acc.insert root
          { canonicalRoot := root, grantedAt := ev.ts, revoked := false }
      else if ev.eventType = revokeType then
        match acc[root]? with
        | some g => acc.insert root { g with revoked := true }
        | none => acc
      else acc

/-- The folder grants of one kind, by root. -/
def rootMap (grantType revokeType : String) (events : List Event) :
    Std.TreeMap String Grant :=
  events.foldl (foldRoot grantType revokeType) ∅

/-- The current grants of one kind, in the order of their roots. -/
def foldRoots (grantType revokeType : String) (events : List Event) :
    List Grant :=
  (rootMap grantType revokeType events).toList.map Prod.snd

/-- `fold_grants`. -/
def foldGrants (events : List Event) : List Grant :=
  foldRoots grantEventType revokeEventType events

/-- `fold_write_grants`. -/
def foldWriteGrants (events : List Event) : List Grant :=
  foldRoots writeGrantEventType writeRevokeEventType events

/-- The three fields of a mandate; all of them, or nothing. -/
def parseMandateContent (content : Json) : Option (String × String × String) :=
  (content.getStr? "target").bind fun target =>
  (content.getStr? "source_scope").bind fun sourceScope =>
  (content.getStr? "recipe").map fun recipe => (target, sourceScope, recipe)

/-- One event of `fold_mandates`. -/
def foldMandate (acc : Std.TreeMap String Mandate) (ev : Event) :
    Std.TreeMap String Mandate :=
  if ev.eventType = mandateGrantEventType then
    match parseMandateContent ev.content with
    | some (target, sourceScope, recipe) =>
        acc.insert ev.id
          { mandateGrantId := ev.id, target := target,
            sourceScope := sourceScope, recipe := recipe, grantedAt := ev.ts,
            revoked := false }
    | none => acc
  else if ev.eventType = mandateRevokeEventType then
    match ev.content.getStr? "mandate_grant_id" with
    | some id =>
        match acc[id]? with
        | some m => acc.insert id { m with revoked := true }
        | none => acc
    | none => acc
  else acc

/-- `fold_mandates`: by grant id, a revocation is final. -/
def foldMandates (events : List Event) : List Mandate :=
  ((events.foldl foldMandate ∅).toList).map Prod.snd

/-- `grant_events_ordered`. -/
def grantEventsOrdered (log : EventLog) : List Event :=
  eventsOfTypes log [grantEventType, revokeEventType]

/-- `write_grant_events_ordered`. -/
def writeGrantEventsOrdered (log : EventLog) : List Event :=
  eventsOfTypes log [writeGrantEventType, writeRevokeEventType]

/-- `mandate_events_ordered`. -/
def mandateEventsOrdered (log : EventLog) : List Event :=
  eventsOfTypes log [mandateGrantEventType, mandateRevokeEventType]

/-- The types of the permission events. -/
def permissionEventTypes : List String :=
  [grantEventType, revokeEventType, writeGrantEventType,
    writeRevokeEventType, mandateGrantEventType, mandateRevokeEventType]

/-! ### What a fold says of one root -/

/-- The event grants the root. -/
def GrantsRoot (grantType root : String) (ev : Event) : Prop :=
  ev.eventType = grantType ∧ parseGrantContent ev.content = some root

/-- The root has an active grant. -/
def ActiveRoot (acc : Std.TreeMap String Grant) (root : String) : Prop :=
  ∃ g, acc[root]? = some g ∧ g.revoked = false

theorem activeRoot_foldRoot_iff {grantType revokeType : String}
    (hne : grantType ≠ revokeType) (root : String)
    (acc : Std.TreeMap String Grant) (ev : Event) :
    ActiveRoot (foldRoot grantType revokeType acc ev) root ↔
      GrantsRoot grantType root ev ∨
        (ActiveRoot acc root ∧ ¬ GrantsRoot revokeType root ev) := by
  unfold foldRoot ActiveRoot GrantsRoot
  cases hp : parseGrantContent ev.content with
  | none => simp
  | some r =>
      simp only [Option.some.injEq]
      by_cases hg : ev.eventType = grantType
      · have hnr : ¬ ev.eventType = revokeType := by
          rw [hg]
          exact hne
        simp only [hg, hne, if_true, true_and, false_and, not_false_eq_true,
          and_true, Std.TreeMap.getElem?_insert,
          Std.LawfulEqCmp.compare_eq_iff_eq]
        by_cases hr : r = root
        · simp [hr]
        · simp [hr]
      · simp only [hg, if_false, false_and, false_or]
        by_cases hrev : ev.eventType = revokeType
        · simp only [hrev, if_true, true_and]
          cases hacc : acc[r]? with
          | none =>
              constructor
              · rintro ⟨g, hget, hact⟩
                refine ⟨⟨g, hget, hact⟩, ?_⟩
                rintro rfl
                rw [hacc] at hget
                cases hget
              · rintro ⟨h, -⟩
                exact h
          | some g₀ =>
              simp only [Std.TreeMap.getElem?_insert,
                Std.LawfulEqCmp.compare_eq_iff_eq]
              by_cases hr : r = root
              · simp [hr]
              · simp [hr]
        · simp [hrev]

theorem keyedBy_foldRoot {grantType revokeType : String}
    {acc : Std.TreeMap String Grant}
    (h : Fold.KeyedBy Grant.canonicalRoot acc) (ev : Event) :
    Fold.KeyedBy Grant.canonicalRoot (foldRoot grantType revokeType acc ev) := by
  unfold foldRoot
  split
  · exact h
  · next root _ =>
      split
      · exact h.insert rfl
      · split
        · split
          · next g hg =>
              have hroot : g.canonicalRoot = root := h root g hg
              exact h.insert hroot
          · exact h
        · exact h

theorem keyedBy_rootMap (grantType revokeType : String)
    (events : List Event) :
    Fold.KeyedBy Grant.canonicalRoot (rootMap grantType revokeType events) :=
  Fold.foldl_inv (Fold.KeyedBy Grant.canonicalRoot) Fold.keyedBy_empty
    fun _ ev _ h => keyedBy_foldRoot h ev

/-- A root is active in the fold iff its last relevant event grants it. -/
theorem active_foldRoots_iff {grantType revokeType : String}
    (hne : grantType ≠ revokeType) (events : List Event) (root : String) :
    (∃ g ∈ foldRoots grantType revokeType events,
        g.canonicalRoot = root ∧ g.revoked = false) ↔
      Fold.LastSets (GrantsRoot grantType root) (GrantsRoot revokeType root)
        events := by
  have hfold := Fold.foldl_iff_lastSets (fun acc => ActiveRoot acc root)
    (GrantsRoot grantType root) (GrantsRoot revokeType root)
    (activeRoot_foldRoot_iff hne root) ∅ events
  have hempty : ¬ ActiveRoot ∅ root := by simp [ActiveRoot]
  have hmap := (keyedBy_rootMap grantType revokeType events).exists_value_iff
    (fun g => g.revoked = false) root
  refine hmap.trans (hfold.trans ?_)
  simp [hempty]

/-! ### What the fold says of one mandate -/

/-- The event grants the mandate. -/
def GrantsMandate (id : String) (ev : Event) : Prop :=
  ev.eventType = mandateGrantEventType ∧ ev.id = id ∧
    (parseMandateContent ev.content).isSome = true

/-- The event revokes the mandate. -/
def RevokesMandate (id : String) (ev : Event) : Prop :=
  ev.eventType = mandateRevokeEventType ∧
    ev.content.getStr? "mandate_grant_id" = some id

/-- The mandate is active. -/
def ActiveMandate (acc : Std.TreeMap String Mandate) (id : String) : Prop :=
  ∃ m, acc[id]? = some m ∧ m.revoked = false

theorem activeMandate_foldMandate_iff (id : String)
    (acc : Std.TreeMap String Mandate) (ev : Event) :
    ActiveMandate (foldMandate acc ev) id ↔
      GrantsMandate id ev ∨
        (ActiveMandate acc id ∧ ¬ RevokesMandate id ev) := by
  have hne : mandateGrantEventType ≠ mandateRevokeEventType := by decide
  unfold foldMandate ActiveMandate GrantsMandate RevokesMandate
  by_cases hg : ev.eventType = mandateGrantEventType
  · simp only [hg, hne, if_true, true_and, false_and, not_false_eq_true,
      and_true]
    cases hp : parseMandateContent ev.content with
    | none => simp
    | some parts =>
        simp only [Std.TreeMap.getElem?_insert,
          Std.LawfulEqCmp.compare_eq_iff_eq]
        by_cases hid : ev.id = id
        · simp [hid]
        · simp [hid]
  · simp only [hg, if_false, false_and, false_or]
    by_cases hrev : ev.eventType = mandateRevokeEventType
    · simp only [hrev, if_true, true_and]
      cases hp : ev.content.getStr? "mandate_grant_id" with
      | none => simp
      | some r =>
          simp only [Option.some.injEq]
          cases hacc : acc[r]? with
          | none =>
              constructor
              · rintro ⟨m, hget, hact⟩
                refine ⟨⟨m, hget, hact⟩, ?_⟩
                rintro rfl
                rw [hacc] at hget
                cases hget
              · rintro ⟨h, -⟩
                exact h
          | some m₀ =>
              simp only [Std.TreeMap.getElem?_insert,
                Std.LawfulEqCmp.compare_eq_iff_eq]
              by_cases hr : r = id
              · simp [hr]
              · simp [hr]
    · simp [hrev]

theorem keyedBy_foldMandate {acc : Std.TreeMap String Mandate}
    (h : Fold.KeyedBy Mandate.mandateGrantId acc) (ev : Event) :
    Fold.KeyedBy Mandate.mandateGrantId (foldMandate acc ev) := by
  unfold foldMandate
  split
  · split
    · exact h.insert rfl
    · exact h
  · split
    · split
      · next id _ =>
          split
          · next m hm =>
              have hid : m.mandateGrantId = id := h id m hm
              exact h.insert hid
          · exact h
      · exact h
    · exact h

/-- A mandate is active in the fold iff it was granted and not revoked
since. -/
theorem active_foldMandates_iff (events : List Event) (id : String) :
    (∃ m ∈ foldMandates events,
        m.mandateGrantId = id ∧ m.revoked = false) ↔
      Fold.LastSets (GrantsMandate id) (RevokesMandate id) events := by
  have hfold := Fold.foldl_iff_lastSets (fun acc => ActiveMandate acc id)
    (GrantsMandate id) (RevokesMandate id)
    (activeMandate_foldMandate_iff id) ∅ events
  have hempty : ¬ ActiveMandate ∅ id := by simp [ActiveMandate]
  have hkeyed : Fold.KeyedBy Mandate.mandateGrantId
      (events.foldl foldMandate ∅) :=
    Fold.foldl_inv (Fold.KeyedBy Mandate.mandateGrantId) Fold.keyedBy_empty
      fun _ ev _ h => keyedBy_foldMandate h ev
  have hmap := hkeyed.exists_value_iff (fun m => m.revoked = false) id
  refine hmap.trans (hfold.trans ?_)
  simp [hempty]

/-! ## Calls and their interleavings -/

/-- The three tables. -/
structure PermissionTables where
  grants : List Grant
  writeGrants : List Grant
  mandates : List Mandate
  deriving DecidableEq

/-- The tables the log calls for. -/
def foldPermissions (log : EventLog) : PermissionTables :=
  { grants := foldGrants (grantEventsOrdered log)
    writeGrants := foldWriteGrants (writeGrantEventsOrdered log)
    mandates := foldMandates (mandateEventsOrdered log) }

/-- Where a rebuild stands, with what it has folded so far. -/
inductive RebuildPhase where
  | started
  | grantsRead (grants : List Grant)
  | writeGrantsRead (grants writeGrants : List Grant)
  | mandatesRead (tables : PermissionTables)

/-- A call that rebuilds the tables. The paths are canonical; a call refused
before its append is no step. -/
inductive PermissionCall where
  | addGrant (root : String)
  | revokeGrant (root : String)
  | addWriteGrant (root : String)
  | revokeWriteGrant (root : String)
  | addMandate (target sourceScope recipe : String)
  | revokeMandate (mandateGrantId : String)
  | rebuildGraph

/-- The event a call appends before it rebuilds. -/
def PermissionCall.event : PermissionCall → Option Event
  | addGrant root => some (.draft grantEventType
      (.obj [("canonical_root", .str root)]) none)
  | revokeGrant root => some (.draft revokeEventType
      (.obj [("canonical_root", .str root)]) none)
  | addWriteGrant root => some (.draft writeGrantEventType
      (.obj [("canonical_root", .str root)]) none)
  | revokeWriteGrant root => some (.draft writeRevokeEventType
      (.obj [("canonical_root", .str root)]) none)
  | addMandate target sourceScope recipe => some (.draft
      mandateGrantEventType (.obj [("target", .str target),
        ("source_scope", .str sourceScope), ("recipe", .str recipe)]) none)
  | revokeMandate mandateGrantId => some (.draft mandateRevokeEventType
      (.obj [("mandate_grant_id", .str mandateGrantId)]) none)
  | rebuildGraph => none

/-- The log, the tables, and the calls under way. -/
structure PermissionState where
  log : EventLog
  tables : PermissionTables
  calls : Nat → Option RebuildPhase

/-- A new brain. -/
def PermissionState.empty : PermissionState :=
  { log := [], tables := ⟨[], [], []⟩, calls := fun _ => none }

/-- One critical section: a call is made, a call goes on, a call fails, or
another part of the engine appends. -/
inductive PermissionStep where
  | invoke (i : Nat) (m : Mint) (call : PermissionCall)
  | advance (i : Nat)
  | fail (i : Nat)
  | other (c : AppendCall)
      (h : ∀ ev ∈ c.events, ev.eventType ∉ permissionEventTypes)

/-- The call `i` is now at `phase`. -/
def PermissionState.setCall (s : PermissionState) (i : Nat)
    (phase : Option RebuildPhase) : PermissionState :=
  { s with calls := Function.update s.calls i phase }

/-- The next critical section of a rebuild. The last one writes the tables
and the call returns. -/
def PermissionState.advance (s : PermissionState) (i : Nat) :
    PermissionState :=
  match s.calls i with
  | none => s
  | some .started =>
      s.setCall i (some (.grantsRead (foldGrants (grantEventsOrdered s.log))))
  | some (.grantsRead g) =>
      s.setCall i (some (.writeGrantsRead g
        (foldWriteGrants (writeGrantEventsOrdered s.log))))
  | some (.writeGrantsRead g w) =>
      s.setCall i (some (.mandatesRead
        ⟨g, w, foldMandates (mandateEventsOrdered s.log)⟩))
  | some (.mandatesRead t) => { s.setCall i none with tables := t }

/-- One step. A number already in use makes no second call. -/
def PermissionState.exec (s : PermissionState) :
    PermissionStep → PermissionState
  | .invoke i m call =>
      match s.calls i with
      | some _ => s
      | none =>
          match call.event with
          | none => s.setCall i (some .started)
          | some ev =>
              match AirNote.append m s.log ev with
              | .error _ => s
              | .ok (log', _) =>
                  { s with log := log' }.setCall i (some .started)
  | .advance i => s.advance i
  | .fail i => s.setCall i none
  | .other c _ => { s with log := c.exec s.log }

/-- Every call has returned. -/
def PermissionState.Returned (s : PermissionState) : Prop :=
  ∀ i, s.calls i = none

/-- The tables are what the log calls for. -/
def PermissionState.Current (s : PermissionState) : Prop :=
  s.tables = foldPermissions s.log

/-- Some other call is under way. -/
def PermissionState.OtherRuns (s : PermissionState) (i : Nat) : Prop :=
  ∃ j, j ≠ i ∧ s.calls j ≠ none

/-! ## When the tables are current -/

/-- The call that returns last writes what the log calls for: its snapshot is
not outdated, and it does not fail while the tables are. -/
def PermissionStep.ReturnsFresh (s : PermissionState) :
    PermissionStep → Prop
  | .advance i => ∀ t, s.calls i = some (.mandatesRead t) →
      t = foldPermissions s.log ∨ s.OtherRuns i
  | .fail i => s.Current ∨ s.OtherRuns i
  | _ => True

@[simp] theorem setCall_calls_self (s : PermissionState) (i : Nat)
    (phase : Option RebuildPhase) : (s.setCall i phase).calls i = phase :=
  Function.update_self ..

theorem setCall_calls_of_ne (s : PermissionState) {i j : Nat} (h : j ≠ i)
    (phase : Option RebuildPhase) :
    (s.setCall i phase).calls j = s.calls j :=
  Function.update_of_ne h ..

theorem returned_setCall_none_iff {s : PermissionState} {i : Nat} :
    (s.setCall i none).Returned ↔ ¬ s.OtherRuns i := by
  constructor
  · rintro h ⟨j, hne, hj⟩
    have hnone := h j
    rw [setCall_calls_of_ne s hne] at hnone
    exact hj hnone
  · intro h j
    by_cases hj : j = i
    · rw [hj, setCall_calls_self]
    · rw [setCall_calls_of_ne s hj]
      by_contra hsome
      exact h ⟨j, hj, hsome⟩

theorem not_returned_setCall_some {s : PermissionState} {i : Nat}
    {phase : RebuildPhase} : ¬ (s.setCall i (some phase)).Returned := by
  intro h
  have hi := h i
  rw [setCall_calls_self] at hi
  cases hi

/-- What the start of a call does: nothing, or the call is under way, with
its event appended where it has one. -/
theorem exec_invoke_cases (s : PermissionState) (i : Nat) (m : Mint)
    (call : PermissionCall) :
    s.exec (.invoke i m call) = s ∨
      (call.event = none ∧
        s.exec (.invoke i m call) = s.setCall i (some .started)) ∨
      ∃ log' : EventLog, call.event ≠ none ∧ s.exec (.invoke i m call) =
        { s with log := log' }.setCall i (some .started) := by
  simp only [PermissionState.exec]
  cases hi : s.calls i with
  | some phase => exact .inl rfl
  | none =>
      cases hev : call.event with
      | none => exact .inr (.inl ⟨rfl, rfl⟩)
      | some ev =>
          cases happ : AirNote.append m s.log ev with
          | error e => exact .inl (by simp only [happ])
          | ok r =>
              refine .inr (.inr ⟨r.1, by simp, ?_⟩)
              simp only [happ]

theorem foldPermissions_nil : foldPermissions [] = ⟨[], [], []⟩ := rfl

/-- The events of other types do not change the folds. -/
theorem foldPermissions_exec {log : EventLog} {c : AppendCall}
    (h : ∀ ev ∈ c.events, ev.eventType ∉ permissionEventTypes) :
    foldPermissions (c.exec log) = foldPermissions log := by
  rcases c.exec_transacts log with hsame | hlogged
  · rw [hsame]
  · have hfold : ∀ {log log' : EventLog} {drafts : List Event},
        Logged log drafts log' →
        (∀ ev ∈ drafts, ev.eventType ∉ permissionEventTypes) →
        ∀ types, types ⊆ permissionEventTypes →
          eventsOfTypes log' types = eventsOfTypes log types := by
      intro log log' drafts hl
      induction hl with
      | nil => intros; rfl
      | @cons m log log' draft stored drafts hs rest ih =>
          intro hdrafts types htypes
          have hnot : stored.eventType ∉ types := by
            rw [hs.eventType_eq]
            exact fun hmem => hdrafts draft (by simp) (htypes hmem)
          rw [ih (fun ev hev => hdrafts ev (List.mem_cons_of_mem draft hev))
            types htypes, eventsOfTypes_append]
          simp [eventsOfTypes, hnot]
    have hkeep := hfold hlogged h
    simp only [foldPermissions, grantEventsOrdered, writeGrantEventsOrdered,
      mandateEventsOrdered]
    rw [hkeep [grantEventType, revokeEventType] (by simp [permissionEventTypes]),
      hkeep [writeGrantEventType, writeRevokeEventType]
        (by simp [permissionEventTypes]),
      hkeep [mandateGrantEventType, mandateRevokeEventType]
        (by simp [permissionEventTypes])]

/-- Which steps keep the tables current whenever all calls have returned. -/
theorem current_exec_iff {s : PermissionState} (step : PermissionStep)
    (h : s.Returned → s.Current) :
    ((s.exec step).Returned → (s.exec step).Current) ↔
      step.ReturnsFresh s := by
  cases step with
  | invoke i m call =>
      refine iff_of_true ?_ trivial
      intro hret
      rcases exec_invoke_cases s i m call with heq | ⟨-, heq⟩ | ⟨log', -, heq⟩
      · rw [heq] at hret ⊢
        exact h hret
      · rw [heq] at hret
        exact absurd hret not_returned_setCall_some
      · rw [heq] at hret
        exact absurd hret not_returned_setCall_some
  | advance i =>
      simp only [PermissionState.exec, PermissionState.advance,
        PermissionStep.ReturnsFresh]
      cases hi : s.calls i with
      | none => exact iff_of_true h (fun t ht => by cases ht)
      | some phase =>
          cases phase with
          | started =>
              refine iff_of_true (fun hret => ?_) (fun t ht => by cases ht)
              exact absurd hret not_returned_setCall_some
          | grantsRead g =>
              refine iff_of_true (fun hret => ?_) (fun t ht => by cases ht)
              exact absurd hret not_returned_setCall_some
          | writeGrantsRead g w =>
              refine iff_of_true (fun hret => ?_) (fun t ht => by cases ht)
              exact absurd hret not_returned_setCall_some
          | mandatesRead t =>
              have hret : ({ s.setCall i none with
                  tables := t } : PermissionState).Returned ↔
                  ¬ s.OtherRuns i := returned_setCall_none_iff
              simp only [hret]
              constructor
              · intro hcur t' ht'
                have heq : t = t' := by
                  rw [Option.some.injEq, RebuildPhase.mandatesRead.injEq]
                    at ht'
                  exact ht'
                subst heq
                by_cases hother : s.OtherRuns i
                · exact .inr hother
                · exact .inl (hcur hother)
              · intro hfresh hother
                exact (hfresh t rfl).resolve_right hother
  | fail i =>
      simp only [PermissionState.exec, PermissionStep.ReturnsFresh]
      rw [returned_setCall_none_iff]
      constructor
      · intro hcur
        by_cases hother : s.OtherRuns i
        · exact .inr hother
        · exact .inl (hcur hother)
      · intro hfresh hother
        exact hfresh.resolve_right hother
  | other c hc =>
      refine iff_of_true ?_ trivial
      intro hret
      have hcur := h hret
      simp only [PermissionState.exec, PermissionState.Current] at hcur ⊢
      rw [foldPermissions_exec hc]
      exact hcur

/-! ### What current tables say -/

/-- Every permission active in the tables was granted by its last relevant
event in the log. -/
structure PermissionState.NoneRevoked (s : PermissionState) : Prop where
  grants : ∀ g ∈ s.tables.grants, g.revoked = false →
    Fold.LastSets (GrantsRoot grantEventType g.canonicalRoot)
      (GrantsRoot revokeEventType g.canonicalRoot) s.log
  writeGrants : ∀ g ∈ s.tables.writeGrants, g.revoked = false →
    Fold.LastSets (GrantsRoot writeGrantEventType g.canonicalRoot)
      (GrantsRoot writeRevokeEventType g.canonicalRoot) s.log
  mandates : ∀ m ∈ s.tables.mandates, m.revoked = false →
    Fold.LastSets (GrantsMandate m.mandateGrantId)
      (RevokesMandate m.mandateGrantId) s.log

theorem lastSets_of_active {grantType revokeType : String}
    (hne : grantType ≠ revokeType) {log : EventLog} {g : Grant}
    (hg : g ∈ foldRoots grantType revokeType
      (eventsOfTypes log [grantType, revokeType]))
    (hactive : g.revoked = false) :
    Fold.LastSets (GrantsRoot grantType g.canonicalRoot)
      (GrantsRoot revokeType g.canonicalRoot) log := by
  have hlast := (active_foldRoots_iff hne _ g.canonicalRoot).mp
    ⟨g, hg, rfl, hactive⟩
  refine (Fold.lastSets_filter _ _ ?_ ?_ log).mp hlast
  · rintro ev ⟨hty, -⟩
    simp [hty]
  · rintro ev ⟨hty, -⟩
    simp [hty]

theorem lastSets_of_active_mandate {log : EventLog} {m : Mandate}
    (hm : m ∈ foldMandates (mandateEventsOrdered log))
    (hactive : m.revoked = false) :
    Fold.LastSets (GrantsMandate m.mandateGrantId)
      (RevokesMandate m.mandateGrantId) log := by
  have hlast := (active_foldMandates_iff _ m.mandateGrantId).mp
    ⟨m, hm, rfl, hactive⟩
  refine (Fold.lastSets_filter _ _ ?_ ?_ log).mp hlast
  · rintro ev ⟨hty, -⟩
    simp [hty]
  · rintro ev ⟨hty, -⟩
    simp [hty]

/-- In current tables no permission is active that the log has revoked. -/
theorem PermissionState.Current.noneRevoked {s : PermissionState}
    (h : s.Current) : s.NoneRevoked := by
  unfold PermissionState.Current at h
  constructor
  · intro g hg hactive
    rw [h] at hg
    exact lastSets_of_active (by decide) hg hactive
  · intro g hg hactive
    rw [h] at hg
    exact lastSets_of_active (by decide) hg hactive
  · intro m hm hactive
    rw [h] at hm
    exact lastSets_of_active_mandate hm hactive

/-- What the call has read is what the log calls for. -/
def RebuildPhase.UpToDate (log : EventLog) : RebuildPhase → Prop
  | .started => True
  | .grantsRead g => g = (foldPermissions log).grants
  | .writeGrantsRead g w =>
      g = (foldPermissions log).grants ∧
        w = (foldPermissions log).writeGrants
  | .mandatesRead t => t = foldPermissions log

/-- No call under way has read an outdated fold. -/
def PermissionState.NothingStale (s : PermissionState) : Prop :=
  ∀ i phase, s.calls i = some phase → phase.UpToDate s.log

/-- A permission event is appended only while no call under way has read
anything, and a call fails only while another is under way. -/
def PermissionStep.Quiet (s : PermissionState) : PermissionStep → Prop
  | .invoke _ _ call => call.event = none ∨
      ∀ j phase, s.calls j = some phase → phase = .started
  | .fail i => s.OtherRuns i
  | _ => True

theorem nothingStale_setCall {s : PermissionState} {i : Nat}
    {phase : Option RebuildPhase} (h : s.NothingStale)
    (hphase : ∀ p, phase = some p → p.UpToDate s.log) :
    (s.setCall i phase).NothingStale := by
  intro j p hj
  by_cases hji : j = i
  · rw [hji, setCall_calls_self] at hj
    exact hphase p hj
  · rw [setCall_calls_of_ne s hji] at hj
    exact h j p hj

theorem nothingStale_exec {s : PermissionState} (step : PermissionStep)
    (h : s.NothingStale) (hquiet : step.Quiet s) :
    (s.exec step).NothingStale := by
  cases step with
  | invoke i m call =>
      rcases exec_invoke_cases s i m call with heq | ⟨-, heq⟩ |
        ⟨log', hev, heq⟩
      · rw [heq]
        exact h
      · rw [heq]
        refine nothingStale_setCall h ?_
        rintro p ⟨⟩
        trivial
      · rw [heq]
        have hall := hquiet.resolve_left hev
        refine nothingStale_setCall ?_ ?_
        · intro j p hj
          rw [hall j p hj]
          trivial
        · rintro p ⟨⟩
          trivial
  | advance i =>
      simp only [PermissionState.exec, PermissionState.advance]
      cases hi : s.calls i with
      | none => exact h
      | some phase =>
          have hread := h i phase hi
          cases phase with
          | started =>
              refine nothingStale_setCall h ?_
              rintro p ⟨⟩
              rfl
          | grantsRead g =>
              refine nothingStale_setCall h ?_
              rintro p ⟨⟩
              exact ⟨hread, rfl⟩
          | writeGrantsRead g w =>
              refine nothingStale_setCall h ?_
              rintro p ⟨⟩
              show _ = foldPermissions s.log
              rw [hread.1, hread.2]
              rfl
          | mandatesRead t =>
              refine nothingStale_setCall h ?_
              rintro p ⟨⟩
  | fail i => exact nothingStale_setCall h (by simp)
  | other c hc =>
      intro j p hj
      have hup := h j p hj
      cases p with
      | started => trivial
      | grantsRead g =>
          show g = (foldPermissions (c.exec s.log)).grants
          rw [foldPermissions_exec hc]
          exact hup
      | writeGrantsRead g w =>
          show g = (foldPermissions (c.exec s.log)).grants ∧
            w = (foldPermissions (c.exec s.log)).writeGrants
          rw [foldPermissions_exec hc]
          exact hup
      | mandatesRead t =>
          show t = foldPermissions (c.exec s.log)
          rw [foldPermissions_exec hc]
          exact hup

/-- Where no permission event is appended during the reads of a rebuild and
no last call fails, the tables are current whenever all calls have
returned. -/
theorem returnsFresh_of_quiet {steps : List PermissionStep}
    (h : Trace.Meets PermissionState.exec PermissionStep.Quiet
      PermissionState.empty steps) :
    Trace.Meets PermissionState.exec PermissionStep.ReturnsFresh
      PermissionState.empty steps := by
  refine Trace.Meets.of_inv PermissionState.NothingStale
    (fun s step hs hq => nothingStale_exec step hs hq) ?_ ?_ h
  · intro s step hs hq
    cases step with
    | invoke i m call => trivial
    | advance i =>
        intro t ht
        exact .inl (hs i (.mandatesRead t) ht)
    | fail i => exact .inr hq
    | other c hc => trivial
  · intro i phase hi
    cases hi

/-- Call 1 grants the folder; the rebuild 2 reads; call 3 revokes and
rebuilds; the rebuild 2 writes what it read. -/
def staleRebuild : List PermissionStep :=
  [.invoke 1 (.plain "e1") (.addWriteGrant "/docs"),
    .advance 1, .advance 1, .advance 1, .advance 1,
    .invoke 2 (.plain "e2") .rebuildGraph,
    .advance 2, .advance 2, .advance 2,
    .invoke 3 (.plain "e3") (.revokeWriteGrant "/docs"),
    .advance 3, .advance 3, .advance 3, .advance 3,
    .advance 2]

/-- The folder is revoked by the log and active in the table. -/
example :
    (Trace.run PermissionState.exec PermissionState.empty
        staleRebuild).tables.writeGrants.map
          (fun g => (g.canonicalRoot, g.revoked)) = [("/docs", false)] ∧
      (foldPermissions (Trace.run PermissionState.exec PermissionState.empty
        staleRebuild).log).writeGrants.map
          (fun g => (g.canonicalRoot, g.revoked)) = [("/docs", true)] := by
  decide +kernel

end AirNote
