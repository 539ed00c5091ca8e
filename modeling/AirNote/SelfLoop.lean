import AirNote.Actuator

/-!
# Mandates and the folders that are read

A mandate keeps a file equal to what a recipe makes of its sources. The
watcher must not take that file for a source, so no active mandate may have
its target inside an active read-granted folder. Here are the six calls that
change grants and mandates, each with its guards and run to its end, over a
file system that changes between them as it likes. A call whose guards or
append fail leaves the state as it is.

A target is stored in its resolved folder, its last component as given; the
guard of a mandate looks at the target with a link at its end followed. And a
folder is granted without a look at the mandates.

## Main results

* `self_loop_free_iff` — no target of an active mandate lies in an active
  read-granted folder, in every state of a run, exactly where no call of the
  run grants a folder above such a target, nor adds a mandate whose target is
  a link that stands in a granted folder.
* `self_loop_reachable` — a folder granted after the mandate is enough.
-/

namespace AirNote

open Lib Lib.Paths Lib.FileTree

/-- The log, the three tables, and the files. -/
structure ScopeState where
  log : EventLog
  tables : PermissionTables
  tree : Tree

/-- A new brain. -/
def ScopeState.new (tree : Tree) : ScopeState :=
  { log := [], tables := ⟨[], [], []⟩, tree := tree }

/-- The state as the gate of a write reads it. -/
def ScopeState.brain (s : ScopeState) : BrainState :=
  { log := s.log
    writeGrants := s.tables.writeGrants
    mandates := s.tables.mandates
    files := []
    undo := []
    tree := s.tree }

/-- `MAX_RECIPE_LEN`. -/
def maxRecipeLen : Nat := 2048

/-- The target with a link at its end followed, where it leads anywhere. -/
def resolvedTarget (t : Tree) (target : Path) : Option Place :=
  match t.canonicalize target with
  | some p => some p
  | none => canonicalizeTargetOrParent t target

/-- The place is inside an active read-granted folder. -/
def ScopeState.underReadGrant (s : ScopeState) (p : Place) : Bool :=
  s.tables.grants.any fun g =>
    !g.revoked && startsWith (absolute p) (ofString g.canonicalRoot)

/-- The guards of `add_mandate`, in their order, and what is stored. -/
def ScopeState.addMandate (s : ScopeState) (target sourceScope : Path)
    (recipe : String) : Except BossclawError PermissionCall :=
  if maxRecipeLen < recipe.utf8ByteSize then
    .error (.invalidInput "recipe too long")
  else
    match s.tree.canonicalize sourceScope with
    | none => .error
        (.invalidInput "mandate source_scope not resolvable: ")
    | some canonScope =>
        match canonicalizeTargetOrParent s.tree target with
        | none => .error
            (.invalidInput "mandate target path is not resolvable")
        | some canonTarget =>
            match isWriteAllowed s.brain target with
            | .error e => .error e
            | .ok false => .error
                (.invalidInput "target not write-granted")
            | .ok true =>
                match resolvedTarget s.tree target with
                | none => .error
                    (.invalidInput "mandate target path is not resolvable")
                | some resolved =>
                    if s.underReadGrant resolved then .error (.invalidInput
                      "mandate target must be outside every read-grant root")
                    else .ok (.addMandate (toText canonTarget)
                      (toText canonScope) recipe)

/-- A call on a folder: the folder must resolve. -/
def ScopeState.onFolder (s : ScopeState) (path : Path) (what : String)
    (call : String → PermissionCall) : Except BossclawError PermissionCall :=
  match s.tree.canonicalize path with
  | none => .error (.invalidInput (what ++ " path not resolvable: "))
  | some root => .ok (call (toText root))

/-- The calls that change what is granted. -/
inductive ScopeOp where
  | addGrant (path : Path)
  | revokeGrant (path : Path)
  | addWriteGrant (path : Path)
  | revokeWriteGrant (path : Path)
  | addMandate (target sourceScope : Path) (recipe : String)
  | revokeMandate (mandateGrantId : String)

/-- The guards of a call; the call is then on canonical paths. -/
def ScopeOp.guarded (s : ScopeState) :
    ScopeOp → Except BossclawError PermissionCall
  | addGrant path => s.onFolder path "grant" .addGrant
  | revokeGrant path => s.onFolder path "revoke" .revokeGrant
  | addWriteGrant path => s.onFolder path "write-grant" .addWriteGrant
  | revokeWriteGrant path => s.onFolder path "write-revoke" .revokeWriteGrant
  | addMandate target sourceScope recipe =>
      s.addMandate target sourceScope recipe
  | revokeMandate mandateGrantId => .ok (.revokeMandate mandateGrantId)

/-- The event of a call is appended and the tables are rebuilt. -/
def ScopeState.record (s : ScopeState) (m : Mint) (call : PermissionCall) :
    Except BossclawError ScopeState :=
  match call.event with
  | none => .ok { s with tables := foldPermissions s.log }
  | some ev =>
      match append m s.log ev with
      | .error e => .error e
      | .ok (log', _) =>
          .ok { s with log := log', tables := foldPermissions log' }

/-- One step: a call, an append of another part of the engine, or a change of
the file system. -/
inductive ScopeStep where
  | call (m : Mint) (op : ScopeOp)
  | other (c : AppendCall)
      (h : ∀ ev ∈ c.events, ev.eventType ∉ permissionEventTypes)
  | files (tree : Tree)

/-- One step. -/
def ScopeState.exec (s : ScopeState) : ScopeStep → ScopeState
  | .call m op =>
      match (op.guarded s).bind (s.record m) with
      | .error _ => s
      | .ok s' => s'
  | .other c _ => { s with log := c.exec s.log }
  | .files tree => { s with tree := tree }

/-! ## The property -/

/-- The target of an active mandate. -/
def ScopeState.ActiveTarget (s : ScopeState) (target : String) : Prop :=
  ∃ m ∈ s.tables.mandates, m.target = target ∧ m.revoked = false

/-- The root of an active read grant. -/
def ScopeState.ActiveRead (s : ScopeState) (root : String) : Prop :=
  ∃ g ∈ s.tables.grants, g.canonicalRoot = root ∧ g.revoked = false

/-- The target lies inside the folder. -/
def Inside (target root : String) : Prop :=
  startsWith (ofString target) (ofString root) = true

/-- No active mandate writes into a folder that is read. -/
def ScopeState.NoSelfLoop (s : ScopeState) : Prop :=
  ∀ target root, s.ActiveTarget target → s.ActiveRead root →
    ¬ Inside target root

/-- The tables are what the log calls for. -/
def ScopeState.Rebuilt (s : ScopeState) : Prop :=
  s.tables = foldPermissions s.log

/-! ## What an event changes -/

/-- The event grants a mandate on the target. -/
def GrantsTarget (target : String) (ev : Event) : Prop :=
  ev.eventType = mandateGrantEventType ∧
    ∃ sourceScope recipe, parseMandateContent ev.content =
      some (target, sourceScope, recipe)

/-- Some active mandate of the fold has the target. -/
def TargetIn (acc : Std.TreeMap String Mandate) (target : String) : Prop :=
  ∃ (id : String) (m : Mandate), acc[id]? = some m ∧ m.target = target ∧
    m.revoked = false

theorem targetIn_iff (events : List Event) (target : String) :
    (∃ m ∈ foldMandates events, m.target = target ∧ m.revoked = false) ↔
      TargetIn (events.foldl foldMandate ∅) target := by
  have hkeyed : Fold.KeyedBy Mandate.mandateGrantId
      (events.foldl foldMandate ∅) :=
    Fold.foldl_inv (Fold.KeyedBy Mandate.mandateGrantId) Fold.keyedBy_empty
      fun _ ev _ h => keyedBy_foldMandate h ev
  constructor
  · rintro ⟨m, hmem, hm⟩
    obtain ⟨m', hget, hm'⟩ := (hkeyed.exists_value_iff
      (fun m => m.target = target ∧ m.revoked = false)
      m.mandateGrantId).mp ⟨m, hmem, rfl, hm⟩
    exact ⟨m.mandateGrantId, m', hget, hm'⟩
  · rintro ⟨id, m, hget, hm⟩
    obtain ⟨m', hmem, -, hm'⟩ := (hkeyed.exists_value_iff
      (fun m => m.target = target ∧ m.revoked = false) id).mpr ⟨m, hget, hm⟩
    exact ⟨m', hmem, hm'⟩

/-- An event adds no active target but the one it grants. -/
theorem targetIn_of_foldMandate {acc : Std.TreeMap String Mandate}
    {ev : Event} {target : String}
    (h : TargetIn (foldMandate acc ev) target) :
    TargetIn acc target ∨ GrantsTarget target ev := by
  unfold foldMandate at h
  split at h
  · rename_i htype
    split at h
    · rename_i t sc rc hparse
      obtain ⟨id, m, hget, htarget, hact⟩ := h
      rw [Std.TreeMap.getElem?_insert] at hget
      split at hget
      · cases hget
        exact .inr ⟨htype, sc, rc, by rw [hparse, ← htarget]⟩
      · exact .inl ⟨id, m, hget, htarget, hact⟩
    · exact .inl h
  · split at h
    · split at h
      · split at h
        · obtain ⟨id, m, hget, htarget, hact⟩ := h
          rw [Std.TreeMap.getElem?_insert] at hget
          split at hget
          · cases hget
            cases hact
          · exact .inl ⟨id, m, hget, htarget, hact⟩
        · exact .inl h
      · exact .inl h
    · exact .inl h

theorem targetIn_of_grantsTarget {acc : Std.TreeMap String Mandate}
    {ev : Event} {target : String} (h : GrantsTarget target ev) :
    TargetIn (foldMandate acc ev) target := by
  obtain ⟨htype, sc, rc, hparse⟩ := h
  unfold foldMandate
  rw [if_pos htype, hparse]
  dsimp only
  exact ⟨ev.id, _, by rw [Std.TreeMap.getElem?_insert_self], rfl, rfl⟩

/-- The state after an event was appended and the tables rebuilt. -/
def ScopeState.push (s : ScopeState) (ev : Event) : ScopeState :=
  { s with log := s.log ++ [ev], tables := foldPermissions (s.log ++ [ev]) }

variable {s : ScopeState} {ev : Event} {target root : String}

theorem active_grants_iff (log : EventLog) (root : String) :
    (∃ g ∈ (foldPermissions log).grants,
        g.canonicalRoot = root ∧ g.revoked = false) ↔
      Fold.LastSets (GrantsRoot grantEventType root)
        (GrantsRoot revokeEventType root) log := by
  have hfold := active_foldRoots_iff (by decide : grantEventType ≠
    revokeEventType) (grantEventsOrdered log) root
  have hall := Fold.lastSets_filter (GrantsRoot grantEventType root)
    (GrantsRoot revokeEventType root)
    (p := fun ev => [grantEventType, revokeEventType].contains ev.eventType)
    (fun ev h => by simp [h.1]) (fun ev h => by simp [h.1]) log
  exact hfold.trans hall

theorem activeRead_push_iff (hs : s.Rebuilt) :
    (s.push ev).ActiveRead root ↔ GrantsRoot grantEventType root ev ∨
      (s.ActiveRead root ∧ ¬ GrantsRoot revokeEventType root ev) := by
  have hbefore : s.ActiveRead root ↔ Fold.LastSets
      (GrantsRoot grantEventType root) (GrantsRoot revokeEventType root)
      s.log := by
    unfold ScopeState.ActiveRead
    rw [hs]
    exact active_grants_iff s.log root
  have hafter : (s.push ev).ActiveRead root ↔ Fold.LastSets
      (GrantsRoot grantEventType root) (GrantsRoot revokeEventType root)
      (s.log ++ [ev]) := active_grants_iff _ root
  rw [hafter, Fold.lastSets_append, hbefore]
  simp [Fold.LastSets]

theorem activeTarget_push_iff :
    (s.push ev).ActiveTarget target ↔ TargetIn
      ((mandateEventsOrdered (s.log ++ [ev])).foldl foldMandate ∅) target :=
  targetIn_iff _ target

theorem activeTarget_iff (hs : s.Rebuilt) :
    s.ActiveTarget target ↔
      TargetIn ((mandateEventsOrdered s.log).foldl foldMandate ∅) target := by
  unfold ScopeState.ActiveTarget
  rw [hs]
  exact targetIn_iff _ target

theorem mandateEventsOrdered_push (log : EventLog) (ev : Event) :
    mandateEventsOrdered (log ++ [ev]) = mandateEventsOrdered log ∨
      mandateEventsOrdered (log ++ [ev]) =
        mandateEventsOrdered log ++ [ev] := by
  unfold mandateEventsOrdered
  rw [eventsOfTypes_append]
  by_cases h : ev.eventType ∈ [mandateGrantEventType, mandateRevokeEventType]
  · exact .inr (by simpa [eventsOfTypes] using h)
  · exact .inl (by simpa [eventsOfTypes] using h)

theorem activeTarget_of_push (hs : s.Rebuilt)
    (h : (s.push ev).ActiveTarget target) :
    s.ActiveTarget target ∨ GrantsTarget target ev := by
  rw [activeTarget_push_iff] at h
  rw [activeTarget_iff hs]
  rcases mandateEventsOrdered_push s.log ev with hsame | hmore
  · rw [hsame] at h
    exact .inl h
  · rw [hmore, List.foldl_append] at h
    exact targetIn_of_foldMandate h

theorem activeTarget_push_of_grants (h : GrantsTarget target ev) :
    (s.push ev).ActiveTarget target := by
  have hevents : mandateEventsOrdered (s.log ++ [ev]) =
      mandateEventsOrdered s.log ++ [ev] := by
    rw [mandateEventsOrdered, eventsOfTypes_append]
    simp [eventsOfTypes, mandateEventsOrdered, h.1]
  rw [activeTarget_push_iff, hevents, List.foldl_append]
  exact targetIn_of_grantsTarget h

/-- An event that is none of a mandate's keeps the active targets. -/
theorem activeTarget_push_of_other (hs : s.Rebuilt)
    (hev : ev.eventType ∉ [mandateGrantEventType, mandateRevokeEventType])
    (h : s.ActiveTarget target) : (s.push ev).ActiveTarget target := by
  have hevents : mandateEventsOrdered (s.log ++ [ev]) =
      mandateEventsOrdered s.log := by
    rw [mandateEventsOrdered, eventsOfTypes_append]
    simp only [eventsOfTypes, List.filter_cons, List.filter_nil]
    simp [hev, mandateEventsOrdered, eventsOfTypes]
  rw [activeTarget_push_iff, hevents]
  exact (activeTarget_iff hs).mp h

/-! ## Which calls keep the property -/

/-- The call grants no folder above an active target, and no mandate on a
target in an active folder. -/
def PermissionCall.KeepsApart (s : ScopeState) : PermissionCall → Prop
  | .addGrant root => ∀ target, s.ActiveTarget target → ¬ Inside target root
  | .addMandate target _ _ => ∀ root, s.ActiveRead root →
      ¬ Inside target root
  | _ => True

/-- A stored event has the type and the content of the call's draft. -/
structure CallEvent (call : PermissionCall) (ev : Event) : Prop where
  draft : ∃ d, call.event = some d ∧ ev.eventType = d.eventType ∧
    ev.content = d.content

/-- A call that goes through has pushed its event, or has rebuilt. -/
theorem record_ok {m : Mint} {call : PermissionCall} {s' : ScopeState}
    (h : s.record m call = .ok s') :
    (call.event = none ∧ s' = { s with tables := foldPermissions s.log }) ∨
      ∃ ev, CallEvent call ev ∧ s' = s.push ev := by
  unfold ScopeState.record at h
  cases hev : call.event with
  | none =>
      rw [hev] at h
      cases h
      exact .inl ⟨rfl, rfl⟩
  | some d =>
      rw [hev] at h
      dsimp only at h
      cases happ : append m s.log d with
      | error e =>
          rw [happ] at h
          cases h
      | ok r =>
          rw [happ] at h
          cases h
          obtain ⟨-, stored, hstored, hlog⟩ := append_ok happ
          have hnone : d.modelMeta = none := by
            cases call <;> cases hev <;> rfl
          refine .inr ⟨stored, ⟨d, hev, hstored.eventType_eq,
            hstored.content_of_none hnone⟩, ?_⟩
          rw [ScopeState.push, ← hlog]

theorem CallEvent.grantsRoot_iff {root r : String}
    (h : CallEvent (.addGrant root) ev) :
    GrantsRoot grantEventType r ev ↔ r = root := by
  obtain ⟨d, hd, htype, hcontent⟩ := h.draft
  cases hd
  rw [GrantsRoot, htype, hcontent]
  show (grantEventType = grantEventType ∧ some root = some r) ↔ _
  simp [eq_comm]

theorem CallEvent.grantsTarget_iff {t sc rc target : String}
    (h : CallEvent (.addMandate t sc rc) ev) :
    GrantsTarget target ev ↔ target = t := by
  obtain ⟨d, hd, htype, hcontent⟩ := h.draft
  cases hd
  rw [GrantsTarget, htype, hcontent]
  show (mandateGrantEventType = mandateGrantEventType ∧
    ∃ a b, some (t, sc, rc) = some (target, a, b)) ↔ _
  simp [eq_comm]

/-- Only `add_grant` grants a folder to read. -/
theorem CallEvent.not_grantsRoot {call : PermissionCall} {r : String}
    (h : CallEvent call ev) (hcall : ∀ root, call ≠ .addGrant root) :
    ¬ GrantsRoot grantEventType r ev := by
  obtain ⟨d, hd, htype, -⟩ := h.draft
  rintro ⟨heq, -⟩
  rw [htype] at heq
  cases call with
  | addGrant root => exact hcall root rfl
  | _ =>
      cases hd
      all_goals
        simp [Event.draft, grantEventType, revokeEventType,
          writeGrantEventType, writeRevokeEventType, mandateGrantEventType,
          mandateRevokeEventType] at heq

/-- Only `add_mandate` grants a mandate. -/
theorem CallEvent.not_grantsTarget {call : PermissionCall} {t : String}
    (h : CallEvent call ev) (hcall : ∀ a b c, call ≠ .addMandate a b c) :
    ¬ GrantsTarget t ev := by
  obtain ⟨d, hd, htype, -⟩ := h.draft
  rintro ⟨heq, -⟩
  rw [htype] at heq
  cases call with
  | addMandate a b c => exact hcall a b c rfl
  | _ =>
      cases hd
      all_goals
        simp [Event.draft, grantEventType, revokeEventType,
          writeGrantEventType, writeRevokeEventType, mandateGrantEventType,
          mandateRevokeEventType] at heq

theorem noSelfLoop_push_addGrant {root : String} (hs : s.Rebuilt)
    (h : s.NoSelfLoop) (hrec : CallEvent (.addGrant root) ev) :
    (s.push ev).NoSelfLoop ↔
      ∀ target, s.ActiveTarget target → ¬ Inside target root := by
  have htype : ev.eventType = grantEventType := by
    obtain ⟨d, hd, htype, -⟩ := hrec.draft
    cases hd
    exact htype
  have hread : ∀ r, (s.push ev).ActiveRead r ↔ r = root ∨ s.ActiveRead r := by
    intro r
    rw [activeRead_push_iff hs, hrec.grantsRoot_iff]
    have hnot : ¬ GrantsRoot revokeEventType r ev := by
      rintro ⟨heq, -⟩
      rw [htype] at heq
      exact absurd heq (by decide)
    simp [hnot]
  constructor
  · intro hafter target htarget
    have htarget' : (s.push ev).ActiveTarget target :=
      activeTarget_push_of_other hs (by rw [htype]; decide) htarget
    exact hafter target root htarget' ((hread root).mpr (.inl rfl))
  · intro hapart target r htarget hr
    have hbefore : s.ActiveTarget target :=
      (activeTarget_of_push hs htarget).resolve_right
        (hrec.not_grantsTarget (by simp))
    rcases (hread r).mp hr with rfl | hold
    · exact hapart target hbefore
    · exact h target r hbefore hold

theorem noSelfLoop_push_addMandate {t sc rc : String} (hs : s.Rebuilt)
    (h : s.NoSelfLoop) (hrec : CallEvent (.addMandate t sc rc) ev) :
    (s.push ev).NoSelfLoop ↔ ∀ root, s.ActiveRead root → ¬ Inside t root := by
  have hread : ∀ r, (s.push ev).ActiveRead r ↔ s.ActiveRead r := by
    intro r
    rw [activeRead_push_iff hs]
    have htype : ev.eventType = mandateGrantEventType := by
      obtain ⟨d, hd, htype, -⟩ := hrec.draft
      cases hd
      exact htype
    have hnot : ¬ GrantsRoot revokeEventType r ev := by
      rintro ⟨heq, -⟩
      rw [htype] at heq
      exact absurd heq (by decide)
    simp [hnot, hrec.not_grantsRoot]
  constructor
  · intro hafter root hroot
    have htarget : (s.push ev).ActiveTarget t :=
      activeTarget_push_of_grants (hrec.grantsTarget_iff.mpr rfl)
    exact hafter t root htarget ((hread root).mpr hroot)
  · intro hapart target root htarget hroot
    have hroot' := (hread root).mp hroot
    rcases activeTarget_of_push hs htarget with hold | hnew
    · exact h target root hold hroot'
    · rw [hrec.grantsTarget_iff.mp hnew]
      exact hapart root hroot'

/-- The other calls only take grants and mandates away. -/
theorem noSelfLoop_push_of_other {call : PermissionCall} (hs : s.Rebuilt)
    (h : s.NoSelfLoop) (hrec : CallEvent call ev)
    (hgrant : ∀ root, call ≠ .addGrant root)
    (hmandate : ∀ a b c, call ≠ .addMandate a b c) :
    (s.push ev).NoSelfLoop := by
  intro target root htarget hroot
  have htarget' : s.ActiveTarget target :=
    (activeTarget_of_push hs htarget).resolve_right
      (hrec.not_grantsTarget hmandate)
  have hroot' : s.ActiveRead root :=
    (((activeRead_push_iff hs).mp hroot).resolve_left
      (hrec.not_grantsRoot hgrant)).1
  exact h target root htarget' hroot'

theorem noSelfLoop_record_iff {m : Mint} {call : PermissionCall}
    {s' : ScopeState} (hs : s.Rebuilt) (h : s.NoSelfLoop)
    (hok : s.record m call = .ok s') :
    s'.NoSelfLoop ↔ call.KeepsApart s := by
  rcases record_ok hok with ⟨hnone, rfl⟩ | ⟨ev, hrec, rfl⟩
  · have hsame : ({ s with tables := foldPermissions s.log } : ScopeState) =
        s := by rw [← hs]
    rw [hsame]
    cases call with
    | rebuildGraph => exact iff_of_true h trivial
    | _ => cases hnone
  · cases call with
    | addGrant root => exact noSelfLoop_push_addGrant hs h hrec
    | addMandate t sc rc => exact noSelfLoop_push_addMandate hs h hrec
    | _ =>
        exact iff_of_true (noSelfLoop_push_of_other hs h hrec (by simp)
          (by simp)) trivial

theorem rebuilt_record {m : Mint} {call : PermissionCall}
    {s' : ScopeState} (hok : s.record m call = .ok s') : s'.Rebuilt := by
  rcases record_ok hok with ⟨-, rfl⟩ | ⟨ev, -, rfl⟩
  · rfl
  · rfl

theorem rebuilt_exec (s : ScopeState) (step : ScopeStep) (hs : s.Rebuilt) :
    (s.exec step).Rebuilt := by
  cases step with
  | call m op =>
      simp only [ScopeState.exec]
      cases hcall : (op.guarded s).bind (s.record m) with
      | error e => exact hs
      | ok s' =>
          cases hguard : op.guarded s with
          | error e =>
              rw [hguard] at hcall
              cases hcall
          | ok call =>
              rw [hguard] at hcall
              exact rebuilt_record hcall
  | other c hc =>
      show s.tables = foldPermissions (c.exec s.log)
      rw [foldPermissions_exec hc]
      exact hs
  | files tree => exact hs

/-! ## The guard of a mandate -/

/-- The last component of the path is a link. -/
def endsInLink (t : Tree) (target : Path) : Bool :=
  (t.lstat target).any Node.isSymlink

/-- Where the last component is no link, the resolved target is the stored
one. -/
theorem canonicalize_eq_of_noLink {t : Tree} {target : Path} {p q : Place}
    (hp : t.canonicalize target = some p)
    (hq : canonicalizeTargetOrParent t target = some q)
    (hlink : endsInLink t target = false) : p = q := by
  unfold canonicalizeTargetOrParent at hq
  simp only [Option.bind_eq_some_iff, Option.map_eq_some_iff] at hq
  obtain ⟨folder, hparent, d, hd, n, hname, rfl⟩ := hq
  have hne : folder ≠ [] := by
    rintro rfl
    cases hd
  have hlstat := lstat_of_parent hname hparent hne hd
  have hsome := lstat_isSome_of_fileName hname hp
  rw [hlstat] at hsome
  split at hsome
  · rename_i hreal
    rw [if_pos hreal] at hlstat
    obtain ⟨node, hnode⟩ := Option.isSome_iff_exists.mp hsome
    have hnolink : node.isSymlink = false := by
      rw [endsInLink, hlstat, hnode] at hlink
      exact hlink
    have hfull := canonicalize_concat hreal hnode hnolink hd
    have hlast : folder ++ [.normal n] = target := by
      have hconcat := eq_concat_of_fileName hname
      have hdrop : target.dropLast = folder := by
        unfold parent at hparent
        split at hparent
        · cases hparent
        · cases hparent
        · exact Option.some.inj hparent
      rw [hdrop] at hconcat
      exact hconcat.symm
    rw [hlast, hp] at hfull
    exact Option.some.inj hfull
  · cases hsome

/-- What the guards of `add_mandate` let pass. -/
theorem addMandate_ok {target sourceScope : Path} {recipe : String}
    {call : PermissionCall}
    (h : s.addMandate target sourceScope recipe = .ok call) :
    ∃ place scope resolved,
      canonicalizeTargetOrParent s.tree target = some place ∧
        resolvedTarget s.tree target = some resolved ∧
        s.underReadGrant resolved = false ∧
        call = .addMandate (toText place) (toText scope) recipe := by
  unfold ScopeState.addMandate at h
  split at h
  · cases h
  · split at h
    · cases h
    · rename_i scope hscope
      split at h
      · cases h
      · rename_i place hplace
        split at h
        · cases h
        · cases h
        · split at h
          · cases h
          · rename_i resolved hresolved
            split at h
            · cases h
            · rename_i hunder
              cases h
              exact ⟨place, scope, resolved, hplace, hresolved,
                by simpa using hunder, rfl⟩

theorem underReadGrant_iff {p : Place} :
    s.underReadGrant p = true ↔
      ∃ root, s.ActiveRead root ∧
        startsWith (absolute p) (ofString root) = true := by
  rw [ScopeState.underReadGrant, List.any_eq_true]
  constructor
  · rintro ⟨g, hg, hin⟩
    rw [Bool.and_eq_true] at hin
    exact ⟨g.canonicalRoot, ⟨g, hg, rfl, by simpa using hin.1⟩, hin.2⟩
  · rintro ⟨root, ⟨g, hg, rfl, hact⟩, hin⟩
    exact ⟨g, hg, by simp [hact, hin]⟩

theorem inside_toText_iff {p : Place} :
    Inside (toText p) root ↔
      startsWith (absolute p) (ofString root) = true := by
  rw [Inside, ofString_toText]

theorem keepsApart_addMandate_iff {p : Place} {sc rc : String} :
    (PermissionCall.addMandate (toText p) sc rc).KeepsApart s ↔
      s.underReadGrant p = false := by
  rw [← Bool.not_eq_true, underReadGrant_iff]
  show (∀ root, s.ActiveRead root → ¬ Inside (toText p) root) ↔ _
  simp only [inside_toText_iff, not_exists, not_and]

/-! ## Runs -/

/-- The call passes its guards and its event is appended. -/
def ScopeState.GoesThrough (s : ScopeState) (m : Mint) (op : ScopeOp) :
    Prop :=
  ∃ s', (op.guarded s).bind (s.record m) = .ok s'

/-- A folder is granted only where no active mandate has its target inside
it; a mandate is added on a link only where the link itself is in no
read-granted folder. -/
def ScopeStep.KeepsApart (s : ScopeState) : ScopeStep → Prop
  | .call m (.addGrant path) => s.GoesThrough m (.addGrant path) →
      ∀ folder, s.tree.canonicalize path = some folder →
        ∀ mandate ∈ s.tables.mandates, mandate.revoked = false →
          startsWith (ofString mandate.target) (absolute folder) = false
  | .call m (.addMandate target sourceScope recipe) =>
      s.GoesThrough m (.addMandate target sourceScope recipe) →
      endsInLink s.tree target = true →
        ∀ place, canonicalizeTargetOrParent s.tree target = some place →
          s.underReadGrant place = false
  | _ => True

theorem onFolder_ok {path : Path} {what : String}
    {f : String → PermissionCall} {call : PermissionCall}
    (h : s.onFolder path what f = .ok call) :
    ∃ folder, s.tree.canonicalize path = some folder ∧
      call = f (toText folder) := by
  unfold ScopeState.onFolder at h
  split at h
  · cases h
  · rename_i folder hfolder
    cases h
    exact ⟨folder, hfolder, rfl⟩

theorem keepsApart_addGrant_iff {folder : Place} :
    (PermissionCall.addGrant (toText folder)).KeepsApart s ↔
      ∀ mandate ∈ s.tables.mandates, mandate.revoked = false →
        startsWith (ofString mandate.target) (absolute folder) = false := by
  show (∀ target, s.ActiveTarget target → ¬ Inside target _) ↔ _
  unfold Inside
  rw [ofString_toText]
  constructor
  · intro h mandate hmem hact
    have hnot := h mandate.target ⟨mandate, hmem, rfl, hact⟩
    simpa using hnot
  · rintro h target ⟨mandate, hmem, rfl, hact⟩
    simp [h mandate hmem hact]

/-- What a call that passes its guards as `call` keeps is what its step
keeps. -/
theorem keepsApart_guarded_iff {m : Mint} {op : ScopeOp}
    {call : PermissionCall} (hgo : s.GoesThrough m op)
    (hguard : op.guarded s = .ok call) :
    call.KeepsApart s ↔ (ScopeStep.call m op).KeepsApart s := by
  cases op with
  | addGrant path =>
      obtain ⟨folder, hfolder, rfl⟩ := onFolder_ok hguard
      rw [keepsApart_addGrant_iff]
      constructor
      · intro h _ folder' hfolder'
        rw [Option.some.inj (hfolder'.symm.trans hfolder)]
        exact h
      · intro h
        exact h hgo folder hfolder
  | addMandate target sourceScope recipe =>
      obtain ⟨place, scope, resolved, hplace, hresolved, hunder, rfl⟩ :=
        addMandate_ok hguard
      rw [keepsApart_addMandate_iff]
      constructor
      · intro h _ _ place' hplace'
        rw [Option.some.inj (hplace'.symm.trans hplace)]
        exact h
      · intro h
        cases hlink : endsInLink s.tree target with
        | true => exact h hgo hlink place hplace
        | false =>
            unfold resolvedTarget at hresolved
            split at hresolved
            · rename_i p hp
              have heq := canonicalize_eq_of_noLink hp hplace hlink
              rw [← heq, Option.some.inj hresolved]
              exact hunder
            · rw [Option.some.inj (hplace.symm.trans hresolved)]
              exact hunder
  | revokeGrant path =>
      obtain ⟨folder, -, rfl⟩ := onFolder_ok hguard
      exact Iff.rfl
  | addWriteGrant path =>
      obtain ⟨folder, -, rfl⟩ := onFolder_ok hguard
      exact Iff.rfl
  | revokeWriteGrant path =>
      obtain ⟨folder, -, rfl⟩ := onFolder_ok hguard
      exact Iff.rfl
  | revokeMandate id =>
      cases hguard
      exact Iff.rfl

theorem keepsApart_of_refused {m : Mint} {op : ScopeOp}
    (hnot : ¬ s.GoesThrough m op) : (ScopeStep.call m op).KeepsApart s := by
  cases op with
  | addGrant path => exact fun hgo => absurd hgo hnot
  | addMandate t sc rc => exact fun hgo => absurd hgo hnot
  | _ => trivial

theorem noSelfLoop_exec_iff (step : ScopeStep) (hs : s.Rebuilt)
    (h : s.NoSelfLoop) :
    (s.exec step).NoSelfLoop ↔ step.KeepsApart s := by
  cases step with
  | call m op =>
      simp only [ScopeState.exec]
      cases hguard : op.guarded s with
      | error e =>
          have hnot : ¬ s.GoesThrough m op := by
            rintro ⟨s', hs'⟩
            rw [hguard] at hs'
            cases hs'
          exact iff_of_true h (keepsApart_of_refused hnot)
      | ok call =>
          show (match s.record m call with
            | .error _ => s
            | .ok s' => s').NoSelfLoop ↔ _
          cases hrec : s.record m call with
          | error e =>
              have hnot : ¬ s.GoesThrough m op := by
                rintro ⟨s', hs'⟩
                rw [hguard] at hs'
                exact absurd (hrec.symm.trans hs') (by simp)
              exact iff_of_true h (keepsApart_of_refused hnot)
          | ok s' =>
              have hgo : s.GoesThrough m op := ⟨s', by rw [hguard]; exact hrec⟩
              exact (noSelfLoop_record_iff hs h hrec).trans
                (keepsApart_guarded_iff hgo hguard)
  | other c hc => exact iff_of_true h trivial
  | files tree => exact iff_of_true h trivial

/-- In every state of a run no active mandate has its target inside an active
read-granted folder, exactly where every step of the run keeps them apart. -/
theorem self_loop_free_iff (tree : Tree) (steps : List ScopeStep) :
    (∀ n, (Trace.run ScopeState.exec (ScopeState.new tree)
        (steps.take n)).NoSelfLoop) ↔
      Trace.Meets ScopeState.exec ScopeStep.KeepsApart (ScopeState.new tree)
        steps := by
  have hnew : (ScopeState.new tree).Rebuilt := rfl
  have hrebuilt : ∀ n, (Trace.run ScopeState.exec (ScopeState.new tree)
      (steps.take n)).Rebuilt := fun n =>
    Trace.run_inv ScopeState.Rebuilt rebuilt_exec hnew (steps.take n)
  have hempty : (ScopeState.new tree).NoSelfLoop := by
    rintro target root ⟨m, hm, -⟩
    cases hm
  have hstep : ∀ (s : ScopeState) (step : ScopeStep),
      s.Rebuilt ∧ s.NoSelfLoop →
      ((s.exec step).Rebuilt ∧ (s.exec step).NoSelfLoop ↔
        ScopeStep.KeepsApart s step) := by
    intro s step hs
    rw [and_iff_right (rebuilt_exec s step hs.1)]
    exact noSelfLoop_exec_iff step hs.1 hs.2
  have hruns := Trace.forall_take_iff_meets
    (fun s : ScopeState => s.Rebuilt ∧ s.NoSelfLoop) hstep ⟨hnew, hempty⟩
    steps
  rw [← hruns]
  constructor
  · intro h n
    exact ⟨hrebuilt n, h n⟩
  · intro h n
    exact (h n).2

/-! ## A folder granted after the mandate -/

/-- The folder `/w` of outputs and the folder `/src` of sources. -/
def twoFolders : Tree :=
  { cwd := []
    node := fun p =>
      if p.map Name.text = ["w"] ∨ p.map Name.text = ["src"] then
        some ⟨.directory, 1, p.length, 0⟩
      else none }

/-- `/w` is write-granted, a mandate writes `/w/out.md`, and then `/w` is
granted to be read. -/
def lateGrant : List ScopeStep :=
  [.call (.plain "e1") (.addWriteGrant (ofString "/w")),
    .call (.plain "e2")
      (.addMandate (ofString "/w/out.md") (ofString "/src") "index"),
    .call (.plain "e3") (.addGrant (ofString "/w"))]

/-- Nothing keeps a folder from being granted above a mandate's target. -/
theorem self_loop_reachable :
    ¬ ∀ (tree : Tree) (steps : List ScopeStep),
      (Trace.run ScopeState.exec (ScopeState.new tree) steps).NoSelfLoop := by
  intro h
  have hlast := h twoFolders lateGrant
  have hmandate : (Trace.run ScopeState.exec (ScopeState.new twoFolders)
      lateGrant).tables.mandates.map (fun m => (m.target, m.revoked)) =
      [("/w/out.md", false)] := by
    decide +kernel
  have hgrant : (Trace.run ScopeState.exec (ScopeState.new twoFolders)
      lateGrant).tables.grants.map (fun g => (g.canonicalRoot, g.revoked)) =
      [("/w", false)] := by
    decide +kernel
  have hinside : Inside "/w/out.md" "/w" := by
    unfold Inside
    decide +kernel
  refine hlast "/w/out.md" "/w" ?_ ?_ hinside
  · have hmem := List.mem_singleton_self ("/w/out.md", false)
    rw [← hmandate] at hmem
    obtain ⟨m, hm, heq⟩ := List.mem_map.mp hmem
    exact ⟨m, hm, (Prod.mk.inj heq).1, (Prod.mk.inj heq).2⟩
  · have hmem := List.mem_singleton_self ("/w", false)
    rw [← hgrant] at hmem
    obtain ⟨g, hg, heq⟩ := List.mem_map.mp hmem
    exact ⟨g, hg, (Prod.mk.inj heq).1, (Prod.mk.inj heq).2⟩

end AirNote
