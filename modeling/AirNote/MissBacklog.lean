import AirNote.Lib.Ranked
import AirNote.Lib.Trace
import AirNote.Reflection
import Mathlib.Algebra.Order.BigOperators.Group.List

/-!
# The backlog of misses

What a tick of reflection does to the backlog, to the log and to the counter
of refreshed dossiers, over every run: ticks with any new misses and any
answers, and whatever else is written in between.

An attempt that an error ended has no effect but a bump, and neither the
attempts it began nor the pages it appended are counted anywhere. So what is
bounded is the attempts that return, and what the counter counts are the pages
of the ticks that reach it.

A miss waits behind the open misses that were seen before it. Each of them
takes at most the turns its budget leaves; a tick that completes takes one of
these turns at least, and misses seeded later wait behind.

## Main results

* `attemptOne_spec`, `attemptOne_keeps` — what one attempt does.
* `tick_spec` — what a tick does.
* `backlog_terminates` — the backlog over every run.
-/

namespace AirNote.Reflection

open Dossier Lib

/-! ## Pages of the log -/

/-- The pages of a log. -/
def pageCount (log : EventLog) : Nat :=
  log.countP fun ev => ev.eventType = pageEventType

/-- The pages a refresh appends, by its outcome. -/
def pagesOf : TopicRefreshOutcome → Nat
  | .emitted _ => 1
  | .skippedUnchanged => 0
  | .skippedThin => 0
  | .reasonerError => 0
  | .transientError => 0

theorem refreshTopicPage_pages {env : RefreshEnv} {s : DossierState}
    {entity : GraphEntity} {log' : EventLog} {outcome : TopicRefreshOutcome}
    (h : refreshTopicPage env s entity = .ok (log', outcome)) :
    pageCount log' = pageCount s.log + pagesOf outcome := by
  cases outcome with
  | emitted superseded =>
      obtain ⟨draft, rendered, log₁, stored, -, -, hs, rfl, hlog₁⟩ :=
        refreshTopicPage_emitted h
      have hpage : pageCount (log₁ ++ [stored]) = pageCount log₁ + 1 := by
        have htype : stored.eventType = pageEventType := hs.eventType_eq
        simp [pageCount, htype]
      have hbefore : pageCount log₁ = pageCount s.log := by
        rcases hlog₁ with rfl | ⟨prior, sup, -, hsup, rfl⟩
        · rfl
        · have htype : sup.eventType = supersedeEventType := hsup.eventType_eq
          simp [pageCount, htype, pageEventType, supersedeEventType]
      rw [hpage, hbefore, pagesOf]
  | _ =>
      rw [refreshTopicPage_quiet h fun _ => by simp]
      rfl

theorem Tally.add_emitted (t : Tally) (outcome : TopicRefreshOutcome) :
    (t.add outcome).emitted = t.emitted + pagesOf outcome := by
  cases outcome <;> rfl

theorem StaleRefreshReport.add_healed (r : StaleRefreshReport)
    (outcome : TopicRefreshOutcome) :
    (r.add outcome).healed = r.healed + pagesOf outcome := by
  cases outcome <;> rfl

/-- The refreshes of an attempt append the pages they tally. -/
theorem refreshTopics_pages (env : Nat → RefreshEnv)
    (entities : List GraphEntity) (topics : List String) (i : Nat)
    (s : DossierState) (t : Tally) :
    ∃ n, pageCount (refreshTopics env entities topics i s t).1.log =
        pageCount s.log + n ∧
      ∀ t', (refreshTopics env entities topics i s t).2 = .ok t' →
        t'.emitted = t.emitted + n := by
  induction topics generalizing i s t with
  | nil =>
      refine ⟨0, rfl, fun t' h => ?_⟩
      cases h
      rfl
  | cons tid topics ih =>
      unfold refreshTopics
      split
      · exact ih (i + 1) s t
      next entity _ =>
        split
        · exact ⟨0, rfl, fun t' h => nomatch h⟩
        next log outcome hrefresh =>
          obtain ⟨n, hpages, hok⟩ :=
            ih (i + 1) { s with log := log } (t.add outcome)
          have hone := refreshTopicPage_pages hrefresh
          refine ⟨pagesOf outcome + n, ?_, fun t' h => ?_⟩
          · rw [hpages, ← Nat.add_assoc, ← hone]
          · rw [hok t' h, Tally.add_emitted, Nat.add_assoc]

/-- The pass over the stale pages appends the pages it heals. -/
theorem refreshPages_pages (env : StaleEnv) (isGone : String → Bool)
    (entities : List GraphEntity) (cap : Nat) (pages : List Page) (i : Nat)
    (s : DossierState) (r : StaleRefreshReport) :
    ∃ n, pageCount (refreshPages env isGone entities cap pages i s r).1.log =
        pageCount s.log + n ∧
      ∀ r', (refreshPages env isGone entities cap pages i s r).2 = .ok r' →
        r'.healed = r.healed + n := by
  have hstop : ∃ n, pageCount s.log = pageCount s.log + n ∧
      ∀ r' : StaleRefreshReport,
        (Except.ok r : Except BossclawError _) = .ok r' →
          r'.healed = r.healed + n := by
    refine ⟨0, rfl, fun r' h => ?_⟩
    cases h
    rfl
  induction pages generalizing i s r with
  | nil => exact hstop
  | cons page pages ih =>
      unfold refreshPages
      split
      · exact hstop
      split
      · exact ⟨0, rfl, fun r' h => nomatch h⟩
      split
      · exact ih (i + 1) s r hstop
      next entity _ =>
        split
        · exact ⟨0, rfl, fun r' h => nomatch h⟩
        next log outcome hrefresh =>
          obtain ⟨n, hpages, hok⟩ :=
            ih (i + 1) { s with log := log } (r.add outcome)
              ⟨0, rfl, fun r' h => by cases h; rfl⟩
          have hone := refreshTopicPage_pages hrefresh
          refine ⟨pagesOf outcome + n, ?_, fun r' h => ?_⟩
          · rw [hpages, ← Nat.add_assoc, ← hone]
          · rw [hok r' h, StaleRefreshReport.add_healed, Nat.add_assoc]

theorem refreshStalePages_pages (env : StaleEnv) (cap : Nat)
    (s : DossierState) :
    ∃ n, pageCount (refreshStalePages env cap s).1.log =
        pageCount s.log + n ∧
      ∀ r, (refreshStalePages env cap s).2 = .ok r → r.healed = n := by
  unfold refreshStalePages
  simp only
  split
  · exact ⟨0, rfl, fun r h => nomatch h⟩
  split
  · refine ⟨0, rfl, fun r h => ?_⟩
    cases h
    rfl
  split
  · exact ⟨0, rfl, fun r h => nomatch h⟩
  · exact ⟨0, rfl, fun r h => nomatch h⟩
  · obtain ⟨n, hpages, hok⟩ := refreshPages_pages env (gone s.log) s.entities
      cap (currentPages s) 0 s .empty
    refine ⟨n, hpages, fun r h => ?_⟩
    rw [hok r h, StaleRefreshReport.empty, Nat.zero_add]

/-! ## One attempt -/

/-- What an attempt does to the row of its miss, by what it returns. -/
inductive Attempted (now : Int) (row : MissRow) :
    (MissRow → MissRow) → Except BossclawError MissAttempt → Prop where
  | aborted (e : BossclawError) : Attempted now row id (.error e)
  | bumped (e : BossclawError) :
      Attempted now row (MissRow.bumped now) (.error e)
  | settled (state : MissState) (a : MissAttempt) (h : state ≠ .opened) :
      Attempted now row (MissRow.moved state now) (.ok a)
  | parked (a : MissAttempt) :
      Attempted now row
        (fun r => (r.bumped now).moved .parked now) (.ok a)
  | again (a : MissAttempt)
      (h : row.attempts + 1 < reflectMissAttemptBudget) :
      Attempted now row (MissRow.bumped now) (.ok a)

/-- An attempt of a row: what it does to the row, to the log, and to nothing
else. -/
structure AttemptSpec (now : Int) (row : MissRow) (s s' : ReflectState)
    (result : Except BossclawError MissAttempt) : Prop where
  backlog : ∃ f, Attempted now row f result ∧
    s'.backlog = Keyed.update MissRow.key row.key f s.backlog
  refreshedTotal : s'.refreshedTotal = s.refreshedTotal
  pages : ∃ n, pageCount s'.dossier.log = pageCount s.dossier.log + n ∧
    ∀ a, result = .ok a → a.dossiersEmitted = n

variable {parseRfc3339 : String → Option String} {now : Int} {row : MissRow}
  {s : ReflectState}

theorem AttemptSpec.aborted (e : BossclawError) {dossier : DossierState}
    (hpages : ∃ n, pageCount dossier.log = pageCount s.dossier.log + n) :
    AttemptSpec now row s { s with dossier := dossier } (.error e) where
  backlog := ⟨id, .aborted e, (Keyed.update_id _ _).symm⟩
  refreshedTotal := rfl
  pages := hpages.imp fun _ hn => ⟨hn, fun _ h => nomatch h⟩

/-- With a state of its own the attempt ends; the pages were appended
before. -/
theorem settleMiss_spec (env : AttemptEnv) {state : MissState}
    (hstate : state ≠ .opened) (attempt : MissAttempt)
    {dossier : DossierState}
    (hpages : pageCount dossier.log =
      pageCount s.dossier.log + attempt.dossiersEmitted) :
    let r := settleMiss env row.key state now attempt
      { s with dossier := dossier }
    AttemptSpec now row s r.1 r.2 := by
  intro r
  have hr : settleMiss env row.key state now attempt
      { s with dossier := dossier } = r := rfl
  unfold settleMiss at hr
  cases hfails : env.stateFails with
  | some e =>
      rw [hfails] at hr
      rw [← hr]
      exact .aborted e ⟨_, hpages⟩
  | none =>
      rw [hfails] at hr
      rw [← hr]
      exact
        { backlog := ⟨_, .settled state attempt hstate, rfl⟩
          refreshedTotal := rfl
          pages := ⟨_, hpages, fun a h => by cases h; rfl⟩ }

theorem bumpMissAttempt_eq (hkeys : (s.backlog.map MissRow.key).Nodup)
    (hrow : row ∈ s.backlog) :
    bumpMissAttempt row.key now s.backlog =
      .ok (Keyed.update MissRow.key row.key (MissRow.bumped now) s.backlog,
        row.attempts + 1) := by
  rw [bumpMissAttempt, Keyed.find?_key hkeys hrow]

theorem replayMiss_spec (hkeys : (s.backlog.map MissRow.key).Nodup)
    (hrow : row ∈ s.backlog) (env : AttemptEnv) (t : Tally)
    {dossier : DossierState}
    (hpages : pageCount dossier.log = pageCount s.dossier.log + t.emitted) :
    let r := replayMiss env row.key now t { s with dossier := dossier }
    AttemptSpec now row s r.1 r.2 := by
  intro r
  have hr : replayMiss env row.key now t { s with dossier := dossier } = r :=
    rfl
  unfold replayMiss at hr
  rw [bumpMissAttempt_eq hkeys hrow] at hr
  split at hr
  · rw [← hr]
    exact .aborted _ ⟨_, hpages⟩
  · rw [← hr]
    exact settleMiss_spec env (by decide) _ hpages
  · rw [← hr]
    exact .aborted _ ⟨_, hpages⟩
  next heq => cases heq
  next heq =>
    cases heq
    simp only at hr
    by_cases hbudget : reflectMissAttemptBudget ≤ row.attempts + 1
    · rw [if_pos hbudget, settleMiss] at hr
      cases hfails : env.stateFails with
      | some e =>
          rw [hfails] at hr
          rw [← hr]
          exact
            { backlog := ⟨_, .bumped e, rfl⟩
              refreshedTotal := rfl
              pages := ⟨_, hpages, fun a h => nomatch h⟩ }
      | none =>
          have hmoved : setMissState row.key .parked now
              (Keyed.update MissRow.key row.key (MissRow.bumped now)
                s.backlog) =
              Keyed.update MissRow.key row.key
                (fun r => (r.bumped now).moved .parked now) s.backlog :=
            Keyed.update_update (f := MissRow.bumped now) (fun _ => rfl) _ _
          rw [hfails] at hr
          rw [← hr]
          exact
            { backlog := ⟨_, .parked _, hmoved⟩
              refreshedTotal := rfl
              pages := ⟨_, hpages, fun a h => by cases h; rfl⟩ }
    · have hagain : ∀ outcome, AttemptSpec now row s
          { s with
            dossier := dossier
            backlog := Keyed.update MissRow.key row.key (MissRow.bumped now)
              s.backlog }
          (.ok ⟨outcome, t.emitted⟩) := fun outcome =>
        { backlog := ⟨_, .again _ (Nat.lt_of_not_le hbudget), rfl⟩
          refreshedTotal := rfl
          pages := ⟨_, hpages, fun a h => by cases h; rfl⟩ }
      rw [if_neg hbudget] at hr
      split at hr
      · rw [← hr]; exact hagain _
      split at hr
      · rw [← hr]; exact hagain _
      · rw [← hr]; exact hagain _

variable (parseRfc3339) in
theorem indexEmitted_log (env : AttemptEnv) (emitted : Nat)
    (d : DossierState) :
    (indexEmitted parseRfc3339 env emitted d).1.log = d.log := by
  unfold indexEmitted
  split
  · rfl
  split <;> rfl

variable (parseRfc3339 now) in
/-- What an attempt does. -/
theorem attemptMiss_spec (hkeys : (s.backlog.map MissRow.key).Nodup)
    (hrow : row ∈ s.backlog) (env : AttemptEnv) :
    let r := attemptMiss parseRfc3339 env row.key now s
    AttemptSpec now row s r.1 r.2 := by
  intro r
  have hr : attemptMiss parseRfc3339 env row.key now s = r := rfl
  unfold attemptMiss at hr
  split at hr
  · rw [← hr]
    exact .aborted _ ⟨0, rfl⟩
  · rw [← hr]
    exact settleMiss_spec env (by decide) _ rfl
  · rw [← hr]
    exact .aborted _ ⟨0, rfl⟩
  · rw [← hr]
    exact settleMiss_spec env (by decide) _ rfl
  · rw [← hr]
    exact .aborted _ ⟨0, rfl⟩
  next tid topics _ _ _ =>
    obtain ⟨n, hpages, hok⟩ := refreshTopics_pages env.refresh
      s.dossier.entities (tid :: topics) 0 s.dossier ⟨0, false, false⟩
    split at hr
    next dossier e hrefresh =>
      rw [hrefresh] at hpages
      rw [← hr]
      exact .aborted e ⟨n, hpages⟩
    next dossier t hrefresh =>
      rw [hrefresh] at hpages hok
      have hemitted : t.emitted = n := by
        rw [hok t rfl, Nat.zero_add]
      have hlog := indexEmitted_log parseRfc3339 env
        t.emitted dossier
      split at hr
      next indexed e hindex =>
        rw [hindex] at hlog
        rw [← hr]
        exact .aborted e ⟨n, hlog ▸ hpages⟩
      next indexed hindex =>
        rw [hindex] at hlog
        rw [← hr]
        exact replayMiss_spec hkeys hrow env t
          (by rw [hlog, hpages, hemitted])

/-- The row after a turn: how it differs from the row before, by whether the
attempt returned. -/
structure Turned (row row' : MissRow) (returned : Bool) : Prop where
  key : row'.key = row.key
  firstSeen : row'.firstSeen = row.firstSeen
  attempts : row.attempts ≤ row'.attempts
  completed : row'.completed = row.completed + if returned then 1 else 0
  again : row'.state = .opened → returned →
    row'.attempts = row.attempts + 1 ∧
      row'.attempts < reflectMissAttemptBudget

theorem Attempted.turned {f : MissRow → MissRow}
    {result : Except BossclawError MissAttempt}
    (h : Attempted now row f result) :
    Turned row (if result.isOk then (f row).counted else f row)
      result.isOk := by
  cases h with
  | aborted e => exact ⟨rfl, rfl, le_rfl, rfl, fun _ h => nomatch h⟩
  | bumped e => exact ⟨rfl, rfl, Nat.le_succ _, rfl, fun _ h => nomatch h⟩
  | settled state a hstate =>
      exact ⟨rfl, rfl, le_rfl, rfl, fun h => absurd h hstate⟩
  | parked a => exact ⟨rfl, rfl, Nat.le_succ _, rfl, fun h => nomatch h⟩
  | again a hlt => exact ⟨rfl, rfl, Nat.le_succ _, rfl, fun _ _ => ⟨rfl, hlt⟩⟩

theorem Attempted.key {f : MissRow → MissRow}
    {result : Except BossclawError MissAttempt}
    (h : Attempted now row f result) (q : MissRow) : (f q).key = q.key := by
  cases h <;> rfl

variable (parseRfc3339 now) in
/-- One turn of the loop rewrites the row of its miss; the pages it appended
are those it returns. -/
theorem attemptOne_spec (hkeys : (s.backlog.map MissRow.key).Nodup)
    (hrow : row ∈ s.backlog) (env : AttemptEnv) :
    let r := attemptOne parseRfc3339 env row.key now s
    (∃ f, (∀ q, MissRow.key (f q) = q.key) ∧ Turned row (f row) r.2.isOk ∧
      r.1.backlog = Keyed.update MissRow.key row.key f s.backlog) ∧
      r.1.refreshedTotal = s.refreshedTotal ∧
      ∃ n, pageCount r.1.dossier.log = pageCount s.dossier.log + n ∧
        ∀ a, r.2 = .ok a → a.dossiersEmitted = n := by
  intro r
  have hr : attemptOne parseRfc3339 env row.key now s = r := rfl
  unfold attemptOne at hr
  have hspec := attemptMiss_spec parseRfc3339 now 
    hkeys hrow env
  split at hr
  next s' e heq =>
    rw [heq] at hspec
    obtain ⟨f, hf, hbacklog⟩ := hspec.backlog
    rw [← hr]
    exact ⟨⟨f, hf.key, hf.turned, hbacklog⟩, hspec.refreshedTotal,
      hspec.pages⟩
  next s' a heq =>
    rw [heq] at hspec
    obtain ⟨f, hf, hbacklog⟩ := hspec.backlog
    rw [← hr]
    refine ⟨⟨fun q => (f q).counted, hf.key, hf.turned, ?_⟩,
      hspec.refreshedTotal, hspec.pages⟩
    rw [← Keyed.update_update hf.key, ← hbacklog]

/-! ## What the backlog keeps -/

/-- Between the steps: one row for a key, its attempts within the budget, and
with one to go while it is open. -/
structure BacklogInv (backlog : List MissRow) : Prop where
  keys : (backlog.map MissRow.key).Nodup
  budget : ∀ row ∈ backlog, row.completed ≤ reflectMissAttemptBudget
  waiting : ∀ row ∈ backlog, row.state = .opened →
    row.completed ≤ row.attempts ∧ row.completed < reflectMissAttemptBudget

/-- The turns an open row may still take. -/
def MissRow.turnsLeft (row : MissRow) : Nat :=
  max 1 (reflectMissAttemptBudget - row.attempts)

/-- What a row adds to the wait of a miss. -/
def MissRow.share (miss row : MissRow) : Nat :=
  if row.state = .opened ∧ row.Before miss then row.turnsLeft else 0

/-- The turns that may be taken before a miss is attempted for the last time:
its own, and those of the open misses before it. -/
def patience (miss : MissRow) (backlog : List MissRow) : Nat :=
  (backlog.map miss.share).sum

/-- A row that a prune takes away. -/
def Pruned (now : Int) (row : MissRow) : Prop :=
  (row.state = .repairedByTime ∨ row.state = .candidateRepaired) ∧
    row.updatedAt < now - reflectBacklogTerminalTtlSecs

/-- What a step at a time keeps of a backlog: its invariant, the rows that are
not open unless they are pruned, and the wait of the misses seen before. -/
structure Keeps (now : Int) (before after : List MissRow) : Prop where
  inv : BacklogInv before → BacklogInv after
  closed : BacklogInv before → ∀ row ∈ before, row.state ≠ .opened →
    row ∈ after ∨ Pruned now row
  patience_le : BacklogInv before → ∀ miss : MissRow, miss.firstSeen < now →
    patience miss after ≤ patience miss before

theorem Keeps.refl (now : Int) (backlog : List MissRow) :
    Keeps now backlog backlog :=
  ⟨id, fun _ _ hrow _ => Or.inl hrow, fun _ _ _ => le_rfl⟩

theorem Keeps.trans {a b c : List MissRow} (h₁ : Keeps now a b)
    (h₂ : Keeps now b c) : Keeps now a c where
  inv := fun h => h₂.inv (h₁.inv h)
  closed := fun h row hrow hclosed =>
    (h₁.closed h row hrow hclosed).elim
      (fun hmid => h₂.closed (h₁.inv h) row hmid hclosed) Or.inr
  patience_le := fun h miss hseen =>
    (h₂.patience_le (h₁.inv h) miss hseen).trans (h₁.patience_le h miss hseen)

/-- A seed adds a row that is open, not attempted, and behind the misses seen
before. -/
theorem seedMiss_keeps (key query : String) (now : Int)
    (backlog : List MissRow) :
    Keeps now backlog (seedMiss key query now backlog) := by
  unfold seedMiss
  split
  · exact .refl now backlog
  next hnew =>
    have hmem : ∀ row ∈ backlog ++
        [⟨key, query, now, 0, .opened, now, 0⟩],
        row ∈ backlog ∨ row = ⟨key, query, now, 0, .opened, now, 0⟩ := by
      simp
    refine ⟨fun h => ⟨?_, fun row hrow => ?_, fun row hrow hopen => ?_⟩,
      fun _ row hrow _ => Or.inl (List.mem_append_left _ hrow),
      fun _ miss hseen => ?_⟩
    · rw [List.map_append]
      refine List.nodup_append.mpr ⟨h.keys, List.nodup_singleton _, ?_⟩
      intro k hk k' hk' heq
      rw [List.map_singleton, List.mem_singleton] at hk'
      rw [heq, hk'] at hk
      exact hnew hk
    · rcases hmem row hrow with hold | rfl
      · exact h.budget row hold
      · exact Nat.zero_le _
    · rcases hmem row hrow with hold | rfl
      · exact h.waiting row hold hopen
      · exact ⟨le_rfl, Nat.succ_pos 2⟩
    · have hshare : miss.share ⟨key, query, now, 0, .opened, now, 0⟩ = 0 := by
        refine if_neg fun h => ?_
        rcases h.2 with hlt | heq
        · exact absurd hlt (by simp only; omega)
        · exact absurd heq.1 (by simp only; omega)
      rw [patience, List.map_append, List.sum_append, List.map_singleton,
        hshare]
      exact le_rfl

theorem seedMisses_keeps (keyOf : String → String)
    (fails : Nat → Option BossclawError) (now : Int) (queries : List String)
    (i : Nat) (backlog : List MissRow) :
    Keeps now backlog (seedMisses keyOf fails now queries i backlog).1 := by
  induction queries generalizing i backlog with
  | nil => exact .refl now backlog
  | cons q queries ih =>
      unfold seedMisses
      split
      · exact .refl now backlog
      · exact (seedMiss_keeps (keyOf q) q now backlog).trans (ih (i + 1) _)

theorem pruneReflectBacklog_keeps (now : Int) (backlog : List MissRow) :
    Keeps now backlog (pruneReflectBacklog now backlog) := by
  have hsub : (pruneReflectBacklog now backlog).Sublist backlog :=
    List.filter_sublist
  refine ⟨fun h => ⟨h.keys.sublist (hsub.map _),
    fun row hrow => h.budget row (hsub.subset hrow),
    fun row hrow => h.waiting row (hsub.subset hrow)⟩, ?_, ?_⟩
  · intro _ row hrow _
    by_cases hpruned : Pruned now row
    · exact Or.inr hpruned
    · refine Or.inl (List.mem_filter.mpr ⟨hrow, ?_⟩)
      rw [Bool.not_eq_true', decide_eq_false_iff_not]
      exact hpruned
  · intro _ miss _
    exact (hsub.map _).sum_le_sum fun _ _ => Nat.zero_le _

/-- A turn that returned takes one of the turns its row had left. -/
theorem Turned.share_le {row' : MissRow} {returned : Bool}
    (h : Turned row row' returned) (hopen : row.state = .opened)
    (miss : MissRow) :
    miss.share row' ≤ miss.share row ∧
      (returned → row.Before miss → miss.share row' < miss.share row) := by
  have hbefore : row'.Before miss ↔ row.Before miss := by
    rw [MissRow.Before, MissRow.Before, h.key, h.firstSeen]
  have hattempts := h.attempts
  by_cases hrow' : row'.state = .opened ∧ row'.Before miss
  · have hrow := hbefore.mp hrow'.2
    rw [MissRow.share, MissRow.share, if_pos hrow', if_pos ⟨hopen, hrow⟩,
      MissRow.turnsLeft, MissRow.turnsLeft]
    refine ⟨by omega, fun hret _ => ?_⟩
    obtain ⟨hmore, hlt⟩ := h.again hrow'.1 hret
    omega
  · rw [MissRow.share, if_neg hrow']
    refine ⟨Nat.zero_le _, fun _ hrow => ?_⟩
    rw [MissRow.share, if_pos ⟨hopen, hrow⟩, MissRow.turnsLeft]
    omega

variable (parseRfc3339 now) in
/-- One turn of the loop at an open row: what it keeps, that the other rows
stay, and that the misses behind wait less once it returned. -/
theorem attemptOne_keeps (hinv : BacklogInv s.backlog) (hrow : row ∈ s.backlog)
    (hopen : row.state = .opened) (env : AttemptEnv) :
    let r := attemptOne parseRfc3339 env row.key now s
    Keeps now s.backlog r.1.backlog ∧
      (∀ q ∈ s.backlog, q.key ≠ row.key → q ∈ r.1.backlog) ∧
      (r.2.isOk → ∀ miss, row.Before miss →
        patience miss r.1.backlog < patience miss s.backlog) := by
  intro r
  obtain ⟨⟨f, hkey, hturned, hbacklog⟩, -⟩ :=
    attemptOne_spec parseRfc3339 now  hinv.keys hrow
      env
  have hmem : ∀ q, q ∈ r.1.backlog ↔
      q = f row ∨ q ∈ s.backlog ∧ q.key ≠ row.key := fun q => by
    rw [hbacklog, Keyed.mem_update hinv.keys hrow]
  have hsum : ∀ miss : MissRow, patience miss r.1.backlog + miss.share row =
      patience miss s.backlog + miss.share (f row) := fun miss => by
    rw [hbacklog]
    exact Keyed.sum_update miss.share hinv.keys hrow f
  obtain ⟨hwaiting, hbudget⟩ := hinv.waiting row hrow hopen
  have hcompleted := hturned.completed
  have hattempts := hturned.attempts
  refine ⟨⟨fun _ => ⟨?_, fun q hq => ?_, fun q hq hqopen => ?_⟩,
    fun _ q hq hclosed => ?_, fun _ miss _ => ?_⟩, fun q hq hne =>
    (hmem q).mpr (Or.inr ⟨hq, hne⟩), fun hok miss hbefore => ?_⟩
  · rw [hbacklog, Keyed.map_key_update hkey]
    exact hinv.keys
  · rcases (hmem q).mp hq with rfl | ⟨hq, -⟩
    · rw [hcompleted]
      split <;> omega
    · exact hinv.budget q hq
  · rcases (hmem q).mp hq with rfl | ⟨hq, -⟩
    · rw [hcompleted]
      split
      next hret =>
        obtain ⟨hmore, hlt⟩ := hturned.again hqopen hret
        omega
      · omega
    · exact hinv.waiting q hq hqopen
  · refine Or.inl ((hmem q).mpr (Or.inr ⟨hq, fun heq => hclosed ?_⟩))
    rw [List.inj_on_of_nodup_map hinv.keys hq hrow heq]
    exact hopen
  · have hle := (hturned.share_le hopen miss).1
    have heq := hsum miss
    omega
  · have hlt := (hturned.share_le hopen miss).2 hok hbefore
    have heq := hsum miss
    omega

/-! ## One tick -/

/-- The misses after the first are open where its turn leaves the other
rows. -/
theorem openMisses_rest {m : MissRow} {misses before after : List MissRow}
    (hmisses : ∀ q ∈ m :: misses, q ∈ before ∧ q.state = .opened)
    (hnotin : m.key ∉ misses.map MissRow.key)
    (hothers : ∀ q ∈ before, q.key ≠ m.key → q ∈ after) :
    ∀ q ∈ misses, q ∈ after ∧ q.state = .opened := by
  intro q hq
  obtain ⟨hold, hopen⟩ := hmisses q (List.mem_cons_of_mem m hq)
  refine ⟨hothers q hold fun hkey => hnotin ?_, hopen⟩
  exact hkey ▸ List.mem_map_of_mem hq

variable (parseRfc3339 now) in
/-- The loop over open misses: what it keeps, and that it counts the pages it
appends. -/
theorem attemptMisses_spec (env : Nat → AttemptEnv) (misses : List MissRow)
    (i : Nat) {s : ReflectState} (r : ReflectReport) (emits : Nat)
    (hinv : BacklogInv s.backlog)
    (hmisses : ∀ m ∈ misses, m ∈ s.backlog ∧ m.state = .opened)
    (hkeys : (misses.map MissRow.key).Nodup) :
    let res := attemptMisses parseRfc3339 env now misses i s r emits
    Keeps now s.backlog res.1.backlog ∧
      res.1.refreshedTotal = s.refreshedTotal ∧
      ∃ n, pageCount res.1.dossier.log = pageCount s.dossier.log + n ∧
        ∀ r' emits', res.2 = .ok (r', emits') → emits' = emits + n := by
  induction misses generalizing i s r emits with
  | nil =>
      refine ⟨.refl now s.backlog, rfl, 0, rfl, fun r' emits' h => ?_⟩
      cases h
      rfl
  | cons m misses ih =>
      intro res
      obtain ⟨hm, hopen⟩ := hmisses m List.mem_cons_self
      obtain ⟨hnotin, hkeys⟩ := List.nodup_cons.mp hkeys
      have hres : attemptMisses parseRfc3339 env now (m :: misses) i s r
          emits = res := rfl
      unfold attemptMisses at hres
      obtain ⟨hkeeps, hothers, -⟩ := attemptOne_keeps parseRfc3339 now
         hinv hm hopen (env i)
      obtain ⟨-, htotal, n, hpages, hemitted⟩ := attemptOne_spec parseRfc3339 now
         hinv.keys hm (env i)
      split at hres
      next s' e heq =>
        rw [heq] at hkeeps htotal hpages
        rw [← hres]
        exact ⟨hkeeps, htotal, n, hpages, fun r' emits' h => nomatch h⟩
      next s' a heq =>
        rw [heq] at hkeeps hothers htotal hpages hemitted
        have hrest := openMisses_rest hmisses hnotin hothers
        obtain ⟨hkeeps', htotal', n', hpages', hemits⟩ := ih (i + 1)
          (({ r with attempted := r.attempted + 1 } : ReflectReport).add
            a.outcome)
          (emits + a.dossiersEmitted) (hkeeps.inv hinv) hrest hkeys
        rw [← hres]
        refine ⟨hkeeps.trans hkeeps', htotal'.trans htotal, n + n', ?_,
          fun r' emits' h => ?_⟩
        · rw [hpages', hpages, Nat.add_assoc]
        · rw [hemits r' emits' h, hemitted a rfl, Nat.add_assoc]

instance : Std.Total MissRow.Before where
  total := by
    intro a b
    unfold MissRow.Before
    rcases lt_trichotomy a.firstSeen b.firstSeen with h | h | h
    · exact Or.inl (Or.inl h)
    · exact (le_total a.key b.key).imp (fun hk => Or.inr ⟨h, hk⟩)
        fun hk => Or.inr ⟨h.symm, hk⟩
    · exact Or.inr (Or.inl h)

instance : IsTrans MissRow MissRow.Before where
  trans := by
    rintro a b c (hab | ⟨hab, hkab⟩) (hbc | ⟨hbc, hkbc⟩)
    · exact Or.inl (hab.trans hbc)
    · exact Or.inl (hbc ▸ hab)
    · exact Or.inl (hab ▸ hbc)
    · exact Or.inr ⟨hab.trans hbc, hkab.trans hkbc⟩

/-- The open misses of a tick are open rows of the backlog. -/
theorem mem_openMisses {limit : Nat} {backlog : List MissRow} {m : MissRow}
    (h : m ∈ openMisses limit backlog) : m ∈ backlog ∧ m.state = .opened := by
  have hmem := List.mem_of_mem_take h
  rw [List.mem_insertionSort, List.mem_filter, decide_eq_true_eq] at hmem
  exact hmem

theorem nodup_openMisses (limit : Nat) {backlog : List MissRow}
    (h : (backlog.map MissRow.key).Nodup) :
    ((openMisses limit backlog).map MissRow.key).Nodup := by
  have hopen : ((backlog.filter fun row => row.state = .opened).map
      MissRow.key).Nodup := h.sublist (List.filter_sublist.map _)
  have hsorted := ((List.perm_insertionSort MissRow.Before
    (backlog.filter fun row => row.state = .opened)).map
      MissRow.key).nodup_iff.mpr hopen
  exact hsorted.sublist ((List.take_sublist limit _).map _)

/-- The first open miss of a tick stands before every open miss. -/
theorem openMisses_first {backlog : List MissRow} {row : MissRow}
    (hrow : row ∈ backlog) (hopen : row.state = .opened) :
    ∃ m misses, openMisses reflectMissesPerTick backlog = m :: misses ∧
      m.Before row := by
  have hmem : row ∈ (backlog.filter fun row =>
      row.state = .opened).insertionSort MissRow.Before := by
    rw [List.mem_insertionSort, List.mem_filter, decide_eq_true_eq]
    exact ⟨hrow, hopen⟩
  have hsorted := List.pairwise_insertionSort MissRow.Before
    (backlog.filter fun row => row.state = .opened)
  unfold openMisses
  cases hlist : (backlog.filter fun row =>
      row.state = .opened).insertionSort MissRow.Before with
  | nil =>
      rw [hlist] at hmem
      cases hmem
  | cons m misses =>
      rw [hlist] at hmem hsorted
      refine ⟨m, misses.take 3, rfl, ?_⟩
      rcases List.mem_cons.mp hmem with rfl | hmem
      · exact Or.inr ⟨rfl, le_rfl⟩
      · exact (List.pairwise_cons.mp hsorted).1 row hmem

/-- The wait of a miss, where it is not over, is that of an open row before
it. -/
theorem exists_before_of_patience {miss : MissRow} {backlog : List MissRow}
    (h : patience miss backlog ≠ 0) :
    ∃ row ∈ backlog, row.state = .opened ∧ row.Before miss := by
  by_contra hnone
  refine h (List.sum_eq_zero fun n hn => ?_)
  obtain ⟨row, hrow, rfl⟩ := List.mem_map.mp hn
  exact if_neg fun hopen => hnone ⟨row, hrow, hopen⟩

variable (parseRfc3339) in
/-- Where the loop over the open misses of a tick returned, every miss that
still waits waits less. -/
theorem attemptMisses_patience (env : Nat → AttemptEnv) {s : ReflectState}
    (r : ReflectReport) (emits : Nat) {miss : MissRow}
    (hinv : BacklogInv s.backlog) (hseen : miss.firstSeen < now)
    (hok : (attemptMisses parseRfc3339 env now
      (openMisses reflectMissesPerTick s.backlog) 0 s r emits).2.isOk) :
    patience miss (attemptMisses parseRfc3339 env now
        (openMisses reflectMissesPerTick s.backlog) 0 s r emits).1.backlog ≤
      patience miss s.backlog - 1 := by
  have hmisses : ∀ m ∈ openMisses reflectMissesPerTick s.backlog,
      m ∈ s.backlog ∧ m.state = .opened := fun m hm => mem_openMisses hm
  have hnodup := nodup_openMisses reflectMissesPerTick hinv.keys
  by_cases hzero : patience miss s.backlog = 0
  · have hle := (attemptMisses_spec parseRfc3339 now  env (openMisses reflectMissesPerTick s.backlog) 0 r emits
      hinv hmisses hnodup).1.patience_le hinv miss hseen
    omega
  obtain ⟨row, hrow, hopen, hbefore⟩ := exists_before_of_patience hzero
  obtain ⟨m, misses, hlist, hfirst⟩ := openMisses_first hrow hopen
  rw [hlist] at hmisses hnodup hok ⊢
  obtain ⟨hm, hmopen⟩ := hmisses m List.mem_cons_self
  obtain ⟨hnotin, hkeys⟩ := List.nodup_cons.mp hnodup
  obtain ⟨hkeeps, hothers, hless⟩ := attemptOne_keeps parseRfc3339 now
     hinv hm hmopen (env 0)
  unfold attemptMisses at hok ⊢
  split
  next s' e heq =>
    rw [heq] at hok
    cases hok
  next s' a heq =>
    rw [heq] at hkeeps hothers hless
    have hinv' := hkeeps.inv hinv
    -- the first turn takes from the wait, the later ones add nothing to it
    have hrest := (attemptMisses_spec parseRfc3339 now  env misses (0 + 1)
      (({ r with attempted := r.attempted + 1 } : ReflectReport).add a.outcome)
      (emits + a.dossiersEmitted) hinv'
      (openMisses_rest hmisses hnotin hothers) hkeys).1.patience_le hinv' miss
        hseen
    have hfirst := hless rfl miss (Trans.trans hfirst hbefore)
    simp only at hrest hfirst
    omega

/-- A tick that did its work. -/
def tickCompleted : Except BossclawError ReflectReport → Bool
  | .error _ => false
  | .ok r => !r.skippedDisabled

/-- What a tick does. -/
structure TickSpec (now : Int) (s s' : ReflectState)
    (result : Except BossclawError ReflectReport) : Prop where
  keeps : Keeps now s.backlog s'.backlog
  patience_lt : tickCompleted result → ∀ miss : MissRow,
    miss.firstSeen < now →
      patience miss s'.backlog ≤ patience miss s.backlog - 1
  pages : ∃ n, pageCount s'.dossier.log = pageCount s.dossier.log + n ∧
    (s'.refreshedTotal = s.refreshedTotal ∨
      s'.refreshedTotal = s.refreshedTotal + n) ∧
    (result.isOk → s'.refreshedTotal = s.refreshedTotal + n)

/-- A tick that an error ends before the counters. -/
theorem TickSpec.aborted {s' : ReflectState} {e : BossclawError}
    (hkeeps : Keeps now s.backlog s'.backlog)
    (htotal : s'.refreshedTotal = s.refreshedTotal)
    (hpages : ∃ n, pageCount s'.dossier.log = pageCount s.dossier.log + n) :
    TickSpec now s s' (.error e) where
  keeps := hkeeps
  patience_lt := fun h => nomatch h
  pages := hpages.imp fun _ hn => ⟨hn, Or.inl htotal, fun h => nomatch h⟩

/-- The end of a tick counts the pages of its report. -/
theorem closeTick_spec (env : TickEnv) (r : ReflectReport)
    {s s' : ReflectState} (hkeeps : Keeps env.now s.backlog s'.backlog)
    (hpatience : ∀ miss : MissRow, miss.firstSeen < env.now →
      patience miss s'.backlog ≤ patience miss s.backlog - 1)
    (hinv : BacklogInv s'.backlog)
    (htotal : s'.refreshedTotal = s.refreshedTotal)
    (hpages : pageCount s'.dossier.log =
      pageCount s.dossier.log + r.dossiersRefreshed) :
    let res := closeTick env r s'
    TickSpec env.now s res.1 res.2 := by
  intro res
  have hres : closeTick env r s' = res := rfl
  have hprune := pruneReflectBacklog_keeps env.now s'.backlog
  have hcounted : s'.refreshedTotal + r.dossiersRefreshed =
      s.refreshedTotal + r.dossiersRefreshed := by rw [htotal]
  unfold closeTick at hres
  split at hres
  · rw [← hres]
    exact .aborted hkeeps htotal ⟨_, hpages⟩
  simp only at hres
  split at hres
  · rw [← hres]
    exact
      { keeps := hkeeps
        patience_lt := fun h => nomatch h
        pages := ⟨_, hpages, Or.inr hcounted, fun h => nomatch h⟩ }
  · rw [← hres]
    exact
      { keeps := hkeeps.trans hprune
        patience_lt := fun _ miss hseen =>
          (hprune.patience_le hinv miss hseen).trans (hpatience miss hseen)
        pages := ⟨_, hpages, Or.inr hcounted, fun _ => hcounted⟩ }

/-- What a tick does. -/
theorem tick_spec (parseRfc3339 : String → Option String)
    (keyOf : String → String) (env : TickEnv) {s : ReflectState}
    (hinv : BacklogInv s.backlog) :
    let res := reflectOnce parseRfc3339 keyOf env s
    TickSpec env.now s res.1 res.2 := by
  intro res
  have hres : reflectOnce parseRfc3339 keyOf env s = res := rfl
  unfold reflectOnce at hres
  have hseeds := seedMisses_keeps keyOf env.seedFails env.now env.newMisses 0
    s.backlog
  split at hres
  · rw [← hres]
    exact .aborted (.refl _ _) rfl ⟨0, rfl⟩
  · rw [← hres]
    exact
      { keeps := .refl _ _
        patience_lt := fun h => nomatch h
        pages := ⟨0, rfl, Or.inl rfl, fun _ => rfl⟩ }
  split at hres
  next backlog e heq =>
    rw [heq] at hseeds
    rw [← hres]
    exact .aborted hseeds rfl ⟨0, rfl⟩
  next backlog heq =>
    rw [heq] at hseeds
    have hinv' := hseeds.inv hinv
    split at hres
    · rw [← hres]
      exact .aborted hseeds rfl ⟨0, rfl⟩
    obtain ⟨hkeeps, htotal, n, hpages, hemits⟩ := attemptMisses_spec parseRfc3339 env.now
       env.attempt
      (openMisses reflectMissesPerTick backlog) 0
      (s := { s with backlog := backlog }) .empty 0 hinv'
      (fun m hm => mem_openMisses hm) (nodup_openMisses _ hinv'.keys)
    have hkeeps := hseeds.trans hkeeps
    split at hres
    next s' e heq =>
      rw [heq] at hkeeps htotal hpages
      rw [← hres]
      exact .aborted hkeeps htotal ⟨n, hpages⟩
    next s' r emits heq =>
      have hpatience : ∀ miss : MissRow, miss.firstSeen < env.now →
          patience miss s'.backlog ≤ patience miss s.backlog - 1 := by
        intro miss hseen
        have hless := attemptMisses_patience parseRfc3339 env.attempt
          (s := { s with backlog := backlog }) .empty 0 hinv' hseen (by rw [heq]; rfl)
        have hseeded := hseeds.patience_le hinv miss hseen
        rw [heq] at hless
        simp only at hless hseeded
        omega
      rw [heq] at hkeeps htotal hpages hemits
      obtain ⟨n', hpages', hhealed⟩ := refreshStalePages_pages env.stale
        reflectRefreshPerTick s'.dossier
      split at hres
      next dossier e hstale =>
        rw [hstale] at hpages'
        rw [← hres]
        refine .aborted hkeeps htotal ⟨n + n', ?_⟩
        rw [hpages', hpages, Nat.add_assoc]
      next dossier stale hstale =>
        rw [hstale] at hpages' hhealed
        rw [← hres]
        refine closeTick_spec env _ hkeeps hpatience (hkeeps.inv hinv)
          htotal ?_
        have hreport : (r.tidied emits stale).dossiersRefreshed =
            n + n' := by
          rw [ReflectReport.tidied, hemits r emits rfl, hhealed stale rfl,
            Nat.zero_add]
        rw [hreport, ← Nat.add_assoc, ← hpages]
        exact hpages'

/-! ## Every run -/

/-- What happens: a tick, or whatever else writes the log and the tables. -/
inductive Move where
  | tick (env : TickEnv)
  | elsewhere (dossier : DossierState)

/-- The state after a move. -/
def ReflectState.exec (parseRfc3339 : String → Option String)
    (keyOf : String → String) (s : ReflectState) : Move → ReflectState
  | .tick env => (reflectOnce parseRfc3339 keyOf env s).1
  | .elsewhere dossier => { s with dossier := dossier }

/-- Before the first tick. -/
def ReflectState.start (dossier : DossierState) : ReflectState :=
  ⟨dossier, [], 0, 0⟩

/-- The ticks of a run that did their work. -/
def completedTicks (parseRfc3339 : String → Option String)
    (keyOf : String → String) : ReflectState → List Move → Nat
  | _, [] => 0
  | s, .tick env :: moves =>
      let res := reflectOnce parseRfc3339 keyOf env s
      (if tickCompleted res.2 then 1 else 0) +
        completedTicks parseRfc3339 keyOf res.1 moves
  | s, .elsewhere dossier :: moves =>
      completedTicks parseRfc3339 keyOf { s with dossier := dossier } moves

/-- The pages the ticks of a run appended. -/
def pagesAppended (parseRfc3339 : String → Option String)
    (keyOf : String → String) : ReflectState → List Move → Nat
  | _, [] => 0
  | s, .tick env :: moves =>
      let s' := (reflectOnce parseRfc3339 keyOf env s).1
      (pageCount s'.dossier.log - pageCount s.dossier.log) +
        pagesAppended parseRfc3339 keyOf s' moves
  | s, .elsewhere dossier :: moves =>
      pagesAppended parseRfc3339 keyOf { s with dossier := dossier } moves

/-- No error ended the tick. -/
def TickReturns (parseRfc3339 : String → Option String)
    (keyOf : String → String) (s : ReflectState) : Move → Prop
  | .tick env => (reflectOnce parseRfc3339 keyOf env s).2.isOk
  | .elsewhere _ => True

variable {keyOf : String → String}

variable (parseRfc3339 keyOf) in
theorem backlogInv_exec (h : BacklogInv s.backlog) (move : Move) :
    BacklogInv (s.exec parseRfc3339 keyOf move).backlog := by
  cases move with
  | tick env => exact (tick_spec parseRfc3339 keyOf env h).keeps.inv h
  | elsewhere dossier => exact h

theorem backlogInv_start (dossier : DossierState) :
    BacklogInv (ReflectState.start dossier).backlog where
  keys := List.nodup_nil
  budget := fun _ h => nomatch h
  waiting := fun _ h => nomatch h

theorem backlogInv_run (dossier : DossierState) (moves : List Move) :
    BacklogInv (Trace.run (ReflectState.exec parseRfc3339 keyOf)
      (.start dossier) moves).backlog :=
  Trace.run_inv (fun s : ReflectState => BacklogInv s.backlog)
    (fun _ move h => backlogInv_exec parseRfc3339 keyOf h move)
    (backlogInv_start dossier) moves

variable (parseRfc3339 keyOf) in
/-- Over ticks later than its first sight a miss waits one turn less for each
of them that completes. -/
theorem patience_run (h : BacklogInv s.backlog) {miss : MissRow}
    {moves : List Move}
    (hlater : ∀ env, .tick env ∈ moves → miss.firstSeen < env.now) :
    patience miss (Trace.run (ReflectState.exec parseRfc3339 keyOf) s
        moves).backlog ≤
      patience miss s.backlog - completedTicks parseRfc3339 keyOf s moves := by
  induction moves generalizing s with
  | nil => exact le_rfl
  | cons move moves ih =>
      have hinv := backlogInv_exec parseRfc3339 keyOf h move
      have hrest := ih hinv fun env henv =>
        hlater env (List.mem_cons_of_mem move henv)
      rw [Trace.run_cons]
      cases move with
      | elsewhere dossier => exact hrest
      | tick env =>
          have htick := tick_spec parseRfc3339 keyOf env h
          have hseen := hlater env List.mem_cons_self
          have hle := htick.keeps.patience_le h miss hseen
          refine hrest.trans ?_
          rw [completedTicks, ReflectState.exec]
          split
          next hdone =>
            have hlt := htick.patience_lt hdone miss hseen
            omega
          · omega

variable (parseRfc3339 keyOf) in
/-- The counter is at most the pages appended, and all of them where no error
ended a tick. -/
theorem refreshedTotal_run (h : BacklogInv s.backlog) (moves : List Move) :
    (Trace.run (ReflectState.exec parseRfc3339 keyOf) s
        moves).refreshedTotal ≤
      s.refreshedTotal + pagesAppended parseRfc3339 keyOf s moves ∧
    (Trace.Meets (ReflectState.exec parseRfc3339 keyOf)
        (TickReturns parseRfc3339 keyOf) s moves →
      (Trace.run (ReflectState.exec parseRfc3339 keyOf) s
          moves).refreshedTotal =
        s.refreshedTotal + pagesAppended parseRfc3339 keyOf s moves) := by
  induction moves generalizing s with
  | nil => exact ⟨le_rfl, fun _ => rfl⟩
  | cons move moves ih =>
      obtain ⟨hle, heq⟩ := ih (backlogInv_exec _ _ h move)
      rw [Trace.run_cons]
      cases move with
      | elsewhere dossier =>
          exact ⟨hle, fun hmeets => heq hmeets.2⟩
      | tick env =>
          obtain ⟨n, hpages, heither, hok⟩ :=
            (tick_spec parseRfc3339 keyOf env h).pages
          rw [pagesAppended, hpages, Nat.add_sub_cancel_left]
          constructor
          · refine hle.trans ?_
            rcases heither with hsame | hmore
            · rw [ReflectState.exec, hsame]
              omega
            · rw [ReflectState.exec, hmore]
              omega
          · intro hmeets
            rw [heq hmeets.2, ReflectState.exec, hok hmeets.1]
            omega

/-- **The backlog terminates and counts.** In every run, a row is attempted to
the end at most its budget of times. An open miss leaves the open state after
the ticks that did their work have been as many as the turns left to it and to
the open misses before it, where the clock of these ticks is past its first
sight; only a row seeded after it can be open under its key. A row that is not
open stays as it is until it is pruned, and only a repaired one is. The
counter is at most the pages reflection has appended, and it is their number
where no error ended a tick. -/
theorem backlog_terminates (parseRfc3339 : String → Option String)
    (keyOf : String → String) (dossier : DossierState) (moves : List Move) :
    let exec := ReflectState.exec parseRfc3339 keyOf
    let s := Trace.run exec (.start dossier) moves
    (∀ row ∈ s.backlog, row.completed ≤ reflectMissAttemptBudget) ∧
      (∀ row ∈ s.backlog, row.state = .opened → ∀ later : List Move,
        (∀ env, .tick env ∈ later → row.firstSeen < env.now) →
        patience row s.backlog ≤ completedTicks parseRfc3339 keyOf s later →
        ∀ row' ∈ (Trace.run exec s later).backlog, row'.key = row.key →
          row'.state = .opened → row.firstSeen < row'.firstSeen) ∧
      (∀ row ∈ s.backlog, row.state ≠ .opened → ∀ move,
        row ∈ (exec s move).backlog ∨
          ∃ env, move = .tick env ∧ Pruned env.now row) ∧
      s.refreshedTotal ≤
        pagesAppended parseRfc3339 keyOf (.start dossier) moves ∧
      (Trace.Meets exec (TickReturns parseRfc3339 keyOf) (.start dossier)
          moves →
        s.refreshedTotal =
          pagesAppended parseRfc3339 keyOf (.start dossier) moves) := by
  intro exec s
  have hinv : BacklogInv s.backlog := backlogInv_run dossier moves
  obtain ⟨hle, heq⟩ := refreshedTotal_run parseRfc3339 keyOf (backlogInv_start dossier) moves
  have hzero : (ReflectState.start dossier).refreshedTotal = 0 := rfl
  rw [hzero, Nat.zero_add] at hle heq
  refine ⟨hinv.budget, ?_, ?_, hle, heq⟩
  · intro row hrow hopen later hlater hdone row' hrow' hkey hopen'
    by_contra hnot
    have hwait := patience_run parseRfc3339 keyOf
      hinv hlater
    have hnone : patience row (Trace.run exec s later).backlog = 0 := by
      have hwait : patience row (Trace.run exec s later).backlog ≤
          patience row s.backlog -
            completedTicks parseRfc3339 keyOf s later := hwait
      omega
    have hbefore : row'.Before row := by
      rcases lt_or_eq_of_le (not_lt.mp hnot) with hlt | heqseen
      · exact Or.inl hlt
      · exact Or.inr ⟨heqseen, hkey.le⟩
    have hshare : row.share row' = 0 :=
      List.sum_eq_zero_iff.mp hnone _ (List.mem_map_of_mem hrow')
    rw [MissRow.share, if_pos ⟨hopen', hbefore⟩, MissRow.turnsLeft] at hshare
    omega
  · intro row hrow hclosed move
    cases move with
    | elsewhere dossier' => exact Or.inl hrow
    | tick env =>
        refine ((tick_spec parseRfc3339 keyOf env hinv).keeps.closed hinv row
          hrow hclosed).imp_right fun hpruned => ⟨env, rfl, hpruned⟩

/-! ### What a run may come to

A tick that an error ends leaves pages behind that no counter counts and an
attempt that no budget counts; a repaired miss that was pruned is seeded anew;
and where the clock runs backwards, new misses can pass an old one for ever. -/

/-- No error of the pass over the stale pages. -/
def quietStale : StaleEnv where
  foldFails := none
  entitiesFail := none
  pagesFail := none
  pageFails := fun _ => none
  refresh := fun _ => teaEnv "s"

/-- A tick with no error of its own, in which every attempt is alike. -/
def tickAt (now : Int) (queries : List String) (attempt : AttemptEnv) :
    TickEnv where
  enabled := .ok true
  newMisses := queries
  seedFails := fun _ => none
  openFails := none
  attempt := fun _ => attempt
  stale := quietStale
  countersFail := none
  pruneFails := none
  now := now

/-- An attempt that appends a page before the rebuild fails. -/
def brokenAttempt (pageId : String) : AttemptEnv where
  hits := .ok false
  topics := .ok ["entity:e"]
  entitiesFail := none
  refresh := fun _ => teaEnv pageId
  rebuildFails := some (.store "disk I/O error")
  indexFails := none
  replay := .ok false
  bumpFails := none
  stateFails := none

/-- Four attempts of one miss, each of which appends a page. -/
def brokenTicks : List Move :=
  ["n", "o", "q", "r"].map fun pageId =>
    Move.tick (tickAt 7 ["tea"] (brokenAttempt pageId))

/-- An attempt of a query that names no topic. -/
def unknownAttempt : AttemptEnv :=
  { brokenAttempt "" with topics := .ok [] }

/-- An attempt that recall has an answer for. -/
def repairedAttempt : AttemptEnv :=
  { brokenAttempt "" with hits := .ok true }

/-- A tick whose list of open misses cannot be read. -/
def seedOnly (now : Int) (queries : List String) : TickEnv :=
  { tickAt now queries unknownAttempt with
    openFails := some (.store "disk I/O error") }

/-- A miss that is repaired, pruned and seeded anew. -/
def reseededTicks : List Move :=
  [.tick (tickAt 0 ["tea"] repairedAttempt),
    .tick (tickAt (reflectBacklogTerminalTtlSecs + 1) [] repairedAttempt),
    .tick (seedOnly (reflectBacklogTerminalTtlSecs + 2) ["tea"])]

def emptyDossier : DossierState := ⟨[], [], [], []⟩

/-- A new row. -/
def newRow (now : Int) (query : String) : MissRow :=
  ⟨query, query, now, 0, .opened, now, 0⟩

def waitingRow : MissRow := newRow 0 "b"

def crowdKey (k : Nat) : String :=
  String.ofList (List.replicate (k + 1) 'a')

def crowdQueries (n : Nat) : List String :=
  (List.range 4).map fun i => crowdKey (4 * n + i)

/-- Four new misses, at a time before those of the ticks before. -/
def crowdTick (n : Nat) : TickEnv :=
  tickAt (-(n + 1)) (crowdQueries n) unknownAttempt

def crowdTicks (n : Nat) : List Move :=
  .tick (seedOnly 0 ["b"]) :: (List.range n).map fun i => .tick (crowdTick i)

theorem crowdKey_ne (k : Nat) : crowdKey k ≠ "b" := by
  intro h
  have hlist : List.replicate (k + 1) 'a' = ['b'] := by
    have hchars := congrArg String.toList h
    rwa [crowdKey, String.toList_ofList] at hchars
  rw [List.replicate_succ] at hlist
  exact absurd (List.cons.inj hlist).1 (by decide)

theorem crowdKey_inj {j k : Nat} (h : crowdKey j = crowdKey k) : j = k := by
  have hlist := congrArg String.toList h
  rw [crowdKey, crowdKey, String.toList_ofList, String.toList_ofList] at hlist
  have hlength := congrArg List.length hlist
  rw [List.length_replicate, List.length_replicate] at hlength
  omega

/-- Between the crowding ticks: the miss waits, and the other keys are queries
of the ticks gone by. -/
structure Crowded (n : Nat) (s : ReflectState) : Prop where
  dossier : s.dossier = emptyDossier
  nodup : (s.backlog.map MissRow.key).Nodup
  waits : waitingRow ∈ s.backlog
  keys : ∀ key ∈ s.backlog.map MissRow.key,
    key = "b" ∨ ∃ k < 4 * n, key = crowdKey k

theorem nodup_crowdQueries {n : Nat} (h : Crowded n s) :
    (s.backlog.map MissRow.key ++ crowdQueries n).Nodup := by
  refine List.nodup_append.mpr ⟨h.nodup, ?_, ?_⟩
  · refine (List.nodup_map_iff_inj_on List.nodup_range).mpr ?_
    intro i _ j _ heq
    have hij := crowdKey_inj heq
    omega
  · intro key hkey query hquery heq
    obtain ⟨i, hi, rfl⟩ := List.mem_map.mp hquery
    rcases h.keys key hkey with rfl | ⟨k, hk, rfl⟩
    · exact crowdKey_ne _ heq.symm
    · have hki := crowdKey_inj heq
      omega

/-- New queries are seeded at the end. -/
theorem seedMisses_new {fails : Nat → Option BossclawError}
    (hfails : ∀ i, fails i = none) (now : Int) (queries : List String)
    (i : Nat) (backlog : List MissRow)
    (hnodup : (backlog.map MissRow.key ++ queries).Nodup) :
    seedMisses id fails now queries i backlog =
      (backlog ++ queries.map (newRow now), .ok ()) := by
  induction queries generalizing i backlog with
  | nil => simp [seedMisses]
  | cons q queries ih =>
      have hnew : q ∉ backlog.map MissRow.key := fun hmem =>
        (List.nodup_append.mp hnodup).2.2 q hmem q List.mem_cons_self rfl
      have hseed : seedMiss (id q) q now backlog = backlog ++ [newRow now q] :=
        if_neg hnew
      unfold seedMisses
      rw [hfails i]
      simp only
      rw [hseed, ih]
      · simp
      · simpa [newRow] using hnodup

/-- The loop over misses that name no topic returns. -/
theorem attemptMisses_unknown (parseRfc3339 : String → Option String)
    (now : Int) (misses : List MissRow) (i : Nat) (s : ReflectState)
    (r : ReflectReport) (emits : Nat) :
    ∃ backlog r', attemptMisses parseRfc3339 (fun _ => unknownAttempt) now
        misses i s r emits = ({ s with backlog := backlog }, .ok (r', emits)) ∧
      r'.skippedDisabled = r.skippedDisabled ∧
      backlog.map MissRow.key = s.backlog.map MissRow.key ∧
      ∀ row ∈ s.backlog, row.key ∉ misses.map MissRow.key → row ∈ backlog := by
  induction misses generalizing i s r emits with
  | nil => exact ⟨s.backlog, r, rfl, rfl, rfl, fun row hrow _ => hrow⟩
  | cons m misses ih =>
      obtain ⟨backlog, r', heq, hr, hkeys, hstay⟩ := ih (i + 1)
        { s with
          backlog := Keyed.update MissRow.key m.key MissRow.counted
            (setMissState m.key .noMaterial now s.backlog) }
        (({ r with attempted := r.attempted + 1 } : ReflectReport).add
          .noMaterial) (emits + 0)
      refine ⟨backlog, r', heq, hr, ?_, fun row hrow hnotin => ?_⟩
      · rw [hkeys]
        exact (Keyed.map_key_update (f := MissRow.counted) (fun _ => rfl)
          m.key _).trans (Keyed.map_key_update
            (f := MissRow.moved .noMaterial now) (fun _ => rfl) m.key _)
      · rw [List.map_cons, List.mem_cons, not_or] at hnotin
        refine hstay row ?_ hnotin.2
        have hmoved : row ∈ setMissState m.key .noMaterial now s.backlog :=
          List.mem_map.mpr ⟨row, hrow, if_neg hnotin.1⟩
        exact List.mem_map.mpr ⟨row, hmoved, if_neg hnotin.1⟩

/-- A miss with a full batch of open misses before it is not attempted. -/
theorem not_mem_openMisses {backlog new : List MissRow}
    (hrow : row ∈ backlog)
    (hnodup : ((backlog ++ new).map MissRow.key).Nodup)
    (hopen : row.state = .opened)
    (hnew : ∀ q ∈ new, q.state = .opened ∧ q.Before row)
    (hfull : new.length = reflectMissesPerTick) :
    row ∉ openMisses reflectMissesPerTick (backlog ++ new) := by
  intro hmem
  have hsub : ((backlog ++ new).filter fun q => q.state = .opened).Sublist
      (backlog ++ new) := List.filter_sublist
  have hrank := ((Ranked.mem_take_insertionSort (r := MissRow.Before)
    (hnodup.sublist (hsub.map _)).of_map ?_).mp hmem).2
  · rw [Ranked.rank, List.filter_append, List.countP_append] at hrank
    have hold : 0 < (backlog.filter fun q => q.state = .opened).countP
        fun q => q.Before row := by
      refine List.countP_pos_iff.mpr ⟨row, List.mem_filter.mpr ⟨hrow, ?_⟩, ?_⟩
      · simpa using hopen
      · simpa using refl_of MissRow.Before row
    have hall : new.filter (fun q => q.state = .opened) = new :=
      List.filter_eq_self.mpr fun q hq => by simpa using (hnew q hq).1
    have hcount : new.countP (fun q => q.Before row) = new.length :=
      List.countP_eq_length.mpr fun q hq => by simpa using (hnew q hq).2
    rw [hall, hcount, hfull] at hrank
    omega
  · intro y hy z hz hyz hzy
    refine List.inj_on_of_nodup_map hnodup (hsub.subset hy) (hsub.subset hz) ?_
    rcases hyz with hlt | ⟨heq, hle⟩
    · rcases hzy with hlt' | ⟨heq', -⟩
      · exact absurd hlt (by omega)
      · exact absurd hlt (by omega)
    · rcases hzy with hlt' | ⟨-, hle'⟩
      · exact absurd heq (by omega)
      · exact le_antisymm hle hle'

/-- A tick of new misses that name no topic. -/
theorem unknownTick_spec (now : Int) (queries : List String)
    {s : ReflectState} (hdossier : s.dossier = emptyDossier)
    (hnodup : (s.backlog.map MissRow.key ++ queries).Nodup) :
    let res := reflectOnce (fun _ => none) id
      (tickAt now queries unknownAttempt) s
    let seeded := s.backlog ++ queries.map (newRow now)
    tickCompleted res.2 ∧ res.1.dossier = emptyDossier ∧
      ∃ backlog, res.1.backlog = pruneReflectBacklog now backlog ∧
        backlog.map MissRow.key = s.backlog.map MissRow.key ++ queries ∧
        ∀ row ∈ seeded, row.key ∉ (openMisses reflectMissesPerTick seeded).map
          MissRow.key → row ∈ backlog := by
  intro res seeded
  have hres : reflectOnce (fun _ => none) id
      (tickAt now queries unknownAttempt) s = res := rfl
  have hseeds : seedMisses id (fun _ => none) now queries 0 s.backlog =
      (seeded, .ok ()) :=
    seedMisses_new (fun _ => rfl) now queries 0 s.backlog hnodup
  obtain ⟨backlog, r, hloop, hr, hkeep, hstay⟩ := attemptMisses_unknown
    (fun _ => none) now (openMisses reflectMissesPerTick seeded) 0
    { s with backlog := seeded } .empty 0
  have hstale : refreshStalePages quietStale reflectRefreshPerTick s.dossier =
      (s.dossier, .ok .empty) := by
    rw [hdossier]
    rfl
  simp only [reflectOnce, tickAt] at hres
  rw [hseeds] at hres
  simp only at hres
  rw [hloop] at hres
  simp only at hres
  rw [hstale] at hres
  rw [← hres]
  refine ⟨?_, hdossier, backlog, rfl, ?_, hstay⟩
  · simp only [closeTick, tickCompleted, ReflectReport.tidied, hr]
    rfl
  · rw [hkeep, List.map_append, List.map_map]
    exact congrArg _ (List.map_id queries)

/-- A crowding tick completes and leaves the miss waiting. -/
theorem crowdTick_spec {n : Nat} (h : Crowded n s) :
    tickCompleted (reflectOnce (fun _ => none) id (crowdTick n) s).2 ∧
      Crowded (n + 1) (reflectOnce (fun _ => none) id (crowdTick n) s).1 := by
  have hnodup := nodup_crowdQueries h
  obtain ⟨hdone, hdossier, backlog, hbacklog, hkeys, hstay⟩ :=
    unknownTick_spec (-(n + 1)) (crowdQueries n) h.dossier hnodup
  have hbefore : ∀ q ∈ (crowdQueries n).map (newRow (-(n + 1))),
      q.state = .opened ∧ q.Before waitingRow := by
    intro q hq
    obtain ⟨query, -, rfl⟩ := List.mem_map.mp hq
    exact ⟨rfl, Or.inl (by simp only [newRow, waitingRow]; omega)⟩
  have hseeded : ((s.backlog ++ (crowdQueries n).map (newRow (-(n + 1)))).map
      MissRow.key).Nodup := by
    rw [List.map_append, List.map_map]
    exact (List.map_id (crowdQueries n)).symm ▸ hnodup
  have hover := not_mem_openMisses h.waits hseeded rfl hbefore rfl
  have hin := List.mem_append_left
    ((crowdQueries n).map (newRow (-(n + 1)))) h.waits
  have hwaits : waitingRow ∈ backlog := by
    refine hstay waitingRow hin fun hmem => hover ?_
    obtain ⟨row, hrow, hkey⟩ := List.mem_map.mp hmem
    rwa [List.inj_on_of_nodup_map hseeded (mem_openMisses hrow).1 hin hkey]
      at hrow
  have hsub : (pruneReflectBacklog (-(n + 1)) backlog).Sublist backlog :=
    List.filter_sublist
  rw [← hkeys] at hnodup
  unfold crowdTick
  refine ⟨hdone, hdossier, ?_, ?_, fun key hkey => ?_⟩
  · rw [hbacklog]
    exact hnodup.sublist (hsub.map _)
  · rw [hbacklog]
    exact List.mem_filter.mpr ⟨hwaits, rfl⟩
  · rw [hbacklog] at hkey
    have hkey := (hsub.map MissRow.key).subset hkey
    rw [hkeys] at hkey
    rcases List.mem_append.mp hkey with hold | hnew
    · refine (h.keys key hold).imp_right ?_
      rintro ⟨k, hk, rfl⟩
      exact ⟨k, by omega, rfl⟩
    · obtain ⟨i, hi, rfl⟩ := List.mem_map.mp hnew
      have hlt := List.mem_range.mp hi
      exact Or.inr ⟨4 * n + i, by omega, rfl⟩

theorem crowded_run (n : Nat) {m : Nat} (h : Crowded m s) :
    completedTicks (fun _ => none) id s
        ((List.range' m n).map fun i => .tick (crowdTick i)) = n ∧
      Crowded (m + n) (Trace.run (ReflectState.exec (fun _ => none) id) s
        ((List.range' m n).map fun i => .tick (crowdTick i))) := by
  induction n generalizing m s with
  | zero => exact ⟨rfl, h⟩
  | succ n ih =>
      obtain ⟨hdone, hnext⟩ := crowdTick_spec h
      obtain ⟨hcount, hrun⟩ := ih hnext
      rw [List.range'_succ, List.map_cons, completedTicks, hdone,
        Trace.run_cons]
      constructor
      · rw [if_pos rfl, hcount, Nat.add_comm]
      · rw [Nat.add_comm n 1, ← Nat.add_assoc]
        exact hrun

/-- Four attempts of one miss append four pages, and neither the counter nor
the attempts of its row say so; a repaired miss is open again once it was
pruned; and after any number of ticks that did their work a miss may wait
unattempted. -/
theorem backlog_beyond_errors :
    (let s := Trace.run (ReflectState.exec (fun _ => none) id)
      (.start teaState) brokenTicks
     pageCount s.dossier.log = pageCount teaState.log + 4 ∧
      s.refreshedTotal = 0 ∧ s.backlog = [newRow 7 "tea"]) ∧
    (Trace.run (ReflectState.exec (fun _ => none) id) (.start emptyDossier)
      reseededTicks).backlog =
        [newRow (reflectBacklogTerminalTtlSecs + 2) "tea"] ∧
    ∀ n, completedTicks (fun _ => none) id (.start emptyDossier)
        (crowdTicks n) = n ∧
      waitingRow ∈ (Trace.run (ReflectState.exec (fun _ => none) id)
        (.start emptyDossier) (crowdTicks n)).backlog := by
  refine ⟨by decide +kernel, by decide +kernel, fun n => ?_⟩
  have hseeded : Crowded 0 (reflectOnce (fun _ => none) id (seedOnly 0 ["b"])
      (.start emptyDossier)).1 :=
    ⟨rfl, List.nodup_singleton _, List.mem_singleton.mpr rfl,
      fun key hkey => Or.inl (List.mem_singleton.mp hkey)⟩
  obtain ⟨hcount, hrun⟩ := crowded_run n hseeded
  rw [← List.range_eq_range'] at hcount hrun
  exact ⟨(Nat.zero_add _).trans hcount, hrun.waits⟩

end AirNote.Reflection
