import AirNote.Lib.Trace

/-!
# Daemons that start together

A starting daemon connects to the socket, reads the process that the lock file
names, unlinks both files, writes the lock file and binds the socket. Each of
these is a step of its own, and other daemons may start, go on or exit between
any two of them. The lock file is advisory; that the path is there already is
what makes a bind fail.

A bind fails only while the file is there, and every starter that has found the
socket silent unlinks the file whatever it is by then. Where one binds in
between, its file is removed and both serve.

## Main results

* `single_daemon` — where no starter is between its probe and its unlink while
  another binds, one daemon serves at most, and its file stays.
* `two_daemons` — two that start together both serve.
-/

namespace AirNote

open Lib.Trace

/-! ## The host -/

/-- The next step of a daemon. -/
inductive DaemonPhase where
  | connecting
  | readingLock
  | unlinkingSocket
  | unlinkingLock
  | writingLock
  | fillingLock
  | binding
  | bound
  | serving
  | exited
  deriving DecidableEq, Repr

structure DaemonProc where
  pid : Nat
  phase : DaemonPhase
  deriving DecidableEq, Repr

/-- The lock file: not there, no readable `Holder`, or the process it names. -/
inductive LockFile where
  | absent
  | corrupt
  | holder (pid : Nat)
  deriving DecidableEq, Repr

/-- The socket file: left behind by a daemon of before, or bound by the one at
this place of the list. -/
inductive SocketFile where
  | stale
  | boundBy (i : Nat)
  deriving DecidableEq, Repr

/-- The daemons started so far, the socket and the lock file. -/
structure DaemonHost where
  procs : List DaemonProc
  sock : Option SocketFile
  lock : LockFile
  deriving DecidableEq, Repr

/-- No daemon has started; the files are what was left. -/
def DaemonHost.idle (leftover : Bool) (lock : LockFile) : DaemonHost :=
  ⟨[], if leftover then some .stale else none, lock⟩

def DaemonHost.phase (σ : DaemonHost) (i : Nat) : DaemonPhase :=
  (σ.procs[i]?.map DaemonProc.phase).getD .exited

def DaemonHost.goto (σ : DaemonHost) (i : Nat) (phase : DaemonPhase) :
    DaemonHost :=
  { σ with procs := σ.procs.modify i fun p => { p with phase := phase } }

/-- `is_pid_alive`, of a daemon. -/
def DaemonHost.alive (σ : DaemonHost) (pid : Nat) : Bool :=
  σ.procs.any fun p => p.pid == pid && p.phase != .exited

/-- A listener answers on the socket. -/
def DaemonHost.answers (σ : DaemonHost) : Bool :=
  match σ.sock with
  | some (.boundBy i) => σ.phase i == .serving
  | _ => false

/-! ## The steps -/

/-- One step. In `readLock`, `recycled` tells that a process which is no daemon
has the number by now. -/
inductive StartupStep where
  | start (pid : Nat)
  | connect (i : Nat)
  | readLock (i : Nat) (recycled : Bool)
  | unlinkSocket (i : Nat)
  | unlinkLock (i : Nat)
  | createLock (i : Nat)
  | fillLock (i : Nat)
  | bind (i : Nat)
  | listen (i : Nat)
  | dropGuard (i : Nat)
  | exit (i : Nat)
  deriving DecidableEq, Repr

/-- A live process has its number alone. -/
def DaemonHost.start (σ : DaemonHost) (pid : Nat) : DaemonHost :=
  if σ.alive pid then σ
  else { σ with procs := σ.procs ++ [⟨pid, .connecting⟩] }

/-- `acquire_or_refuse` (1). -/
def DaemonHost.connect (σ : DaemonHost) (i : Nat) : DaemonHost :=
  if σ.phase i = .connecting then
    if σ.answers then σ.goto i .exited else σ.goto i .readingLock
  else σ

/-- `acquire_or_refuse` (2). -/
def DaemonHost.readLock (σ : DaemonHost) (i : Nat) (recycled : Bool) :
    DaemonHost :=
  if σ.phase i = .readingLock then
    match σ.lock with
    | .holder pid =>
        if σ.alive pid || recycled then σ.goto i .exited
        else σ.goto i .unlinkingSocket
    | _ => σ.goto i .unlinkingSocket
  else σ

/-- `acquire_or_refuse` (3), the socket. -/
def DaemonHost.unlinkSocket (σ : DaemonHost) (i : Nat) : DaemonHost :=
  if σ.phase i = .unlinkingSocket then
    { σ.goto i .unlinkingLock with sock := none }
  else σ

/-- `acquire_or_refuse` (3), the lock file. -/
def DaemonHost.unlinkLock (σ : DaemonHost) (i : Nat) : DaemonHost :=
  if σ.phase i = .unlinkingLock then
    { σ.goto i .writingLock with lock := .absent }
  else σ

/-- `write_lock_file` creates the file, or empties it, -/
def DaemonHost.createLock (σ : DaemonHost) (i : Nat) : DaemonHost :=
  if σ.phase i = .writingLock then
    { σ.goto i .fillingLock with lock := .corrupt }
  else σ

/-- and fills it. -/
def DaemonHost.fillLock (σ : DaemonHost) (i : Nat) : DaemonHost :=
  match σ.procs[i]? with
  | some p =>
      if p.phase = .fillingLock then
        { σ.goto i .binding with lock := .holder p.pid }
      else σ
  | none => σ

/-- `bind_socket_0600` creates the file; where it is there already the daemon
exits. -/
def DaemonHost.bind (σ : DaemonHost) (i : Nat) : DaemonHost :=
  if σ.phase i = .binding then
    match σ.sock with
    | some _ => σ.goto i .exited
    | none => { σ.goto i .bound with sock := some (.boundBy i) }
  else σ

def DaemonHost.listen (σ : DaemonHost) (i : Nat) : DaemonHost :=
  if σ.phase i = .bound then σ.goto i .serving else σ

/-- The daemon ends, and its guard removes the lock file that names it. -/
def DaemonHost.dropGuard (σ : DaemonHost) (i : Nat) : DaemonHost :=
  match σ.procs[i]? with
  | some p =>
      if p.phase = .binding ∨ p.phase = .bound ∨ p.phase = .serving then
        { σ.goto i .exited with
          lock := if σ.lock = .holder p.pid then .absent else σ.lock }
      else σ
  | none => σ

def DaemonHost.exec (σ : DaemonHost) : StartupStep → DaemonHost
  | .start pid => σ.start pid
  | .connect i => σ.connect i
  | .readLock i recycled => σ.readLock i recycled
  | .unlinkSocket i => σ.unlinkSocket i
  | .unlinkLock i => σ.unlinkLock i
  | .createLock i => σ.createLock i
  | .fillLock i => σ.fillLock i
  | .bind i => σ.bind i
  | .listen i => σ.listen i
  | .dropGuard i => σ.dropGuard i
  | .exit i => σ.goto i .exited

/-! ## What is shown -/

/-- The daemon serves the socket. -/
def DaemonHost.Serves (σ : DaemonHost) (i : Nat) : Prop :=
  σ.phase i = .serving

/-- One daemon serves at most, and its socket file is in place. -/
def DaemonHost.Single (σ : DaemonHost) : Prop :=
  (∀ i j, σ.Serves i → σ.Serves j → i = j) ∧
    ∀ i, σ.Serves i → σ.sock = some (.boundBy i)

/-- The daemon has found the socket silent and not unlinked it yet. -/
def DaemonPhase.Reclaiming (phase : DaemonPhase) : Prop :=
  phase = .readingLock ∨ phase = .unlinkingSocket

/-- The daemon has bound the socket. -/
def DaemonPhase.Holding (phase : DaemonPhase) : Prop :=
  phase = .bound ∨ phase = .serving

/-- No daemon binds while another is between its probe and its unlink, and none
probes while another has bound and does not listen yet. -/
def Unraced (σ : DaemonHost) : StartupStep → Prop
  | .bind i => ∀ j, j ≠ i → ¬ (σ.phase j).Reclaiming
  | .connect i => ∀ j, j ≠ i → σ.phase j ≠ .bound
  | _ => True

/-- A daemon that holds the socket has its file there, and no other is about to
unlink it. -/
def DaemonHost.Held (σ : DaemonHost) : Prop :=
  ∀ i, (σ.phase i).Holding → σ.sock = some (.boundBy i) ∧
    ∀ j, ¬ (σ.phase j).Reclaiming

variable {σ : DaemonHost} {i j : Nat} {phase : DaemonPhase}

theorem DaemonHost.Held.single (h : σ.Held) : σ.Single := by
  have hsock : ∀ i, σ.Serves i → σ.sock = some (.boundBy i) := fun i hi =>
    (h i (.inr hi)).1
  refine ⟨?_, hsock⟩
  intro i j hi hj
  have heq := (hsock i hi).symm.trans (hsock j hj)
  cases heq
  rfl

/-! ## The steps keep it -/

theorem phase_goto_ne (hij : j ≠ i) :
    (σ.goto i phase).phase j = σ.phase j := by
  unfold DaemonHost.phase DaemonHost.goto
  simp [Ne.symm hij]

/-- The phase after a daemon has gone on: as it was, or its new one. -/
theorem phase_goto (σ : DaemonHost) (i j : Nat) (phase : DaemonPhase) :
    (σ.goto i phase).phase j = σ.phase j ∨
      (j = i ∧ (σ.goto i phase).phase j = phase) := by
  by_cases hij : j = i
  · subst hij
    unfold DaemonHost.phase DaemonHost.goto
    simp only [List.getElem?_modify, if_true]
    cases hp : σ.procs[j]? with
    | none => exact .inl rfl
    | some p => exact .inr ⟨trivial, rfl⟩
  · exact .inl (phase_goto_ne hij)

/-- A daemon goes on to a phase in which it neither holds the socket nor is
about to unlink it. -/
theorem DaemonHost.Held.goto (h : σ.Held) (hholds : ¬ phase.Holding)
    (hreclaims : ¬ phase.Reclaiming) : (σ.goto i phase).Held := by
  intro j hj
  have hold : (σ.phase j).Holding := by
    rcases phase_goto σ i j phase with hsame | ⟨-, hnew⟩
    · rwa [hsame] at hj
    · rw [hnew] at hj
      exact absurd hj hholds
  obtain ⟨hsock, hnone⟩ := h j hold
  refine ⟨hsock, ?_⟩
  intro k hk
  rcases phase_goto σ i k phase with hsame | ⟨-, hnew⟩
  · rw [hsame] at hk
    exact hnone k hk
  · rw [hnew] at hk
    exact hreclaims hk

/-- No daemon holds the socket. -/
theorem DaemonHost.Held.of_none (h : ∀ i, ¬ (σ.phase i).Holding) : σ.Held :=
  fun i hi => absurd hi (h i)

/-- The lock file says nothing of the socket. -/
theorem DaemonHost.Held.relock (h : σ.Held) (lock : LockFile) :
    ({ σ with lock := lock } : DaemonHost).Held := h

theorem DaemonHost.Held.start (h : σ.Held) (pid : Nat) : (σ.start pid).Held := by
  unfold DaemonHost.start
  split
  · exact h
  · have hphase : ∀ j, ({ σ with
        procs := σ.procs ++ [⟨pid, .connecting⟩] } : DaemonHost).phase j =
        σ.phase j ∨ ({ σ with
          procs := σ.procs ++ [⟨pid, .connecting⟩] } : DaemonHost).phase j =
          .connecting := by
      intro j
      unfold DaemonHost.phase
      rcases getElem?_concat_cases σ.procs ⟨pid, .connecting⟩ j with
        hsame | ⟨-, hnew⟩
      · left
        rw [hsame]
      · right
        rw [hnew]
        rfl
    intro i hi
    have hold : (σ.phase i).Holding := by
      rcases hphase i with hsame | hnew
      · rwa [hsame] at hi
      · rw [hnew] at hi
        rcases hi with hi | hi <;> cases hi
    obtain ⟨hsock, hnone⟩ := h i hold
    refine ⟨hsock, ?_⟩
    intro j hj
    rcases hphase j with hsame | hnew
    · rw [hsame] at hj
      exact hnone j hj
    · rw [hnew] at hj
      rcases hj with hj | hj <;> cases hj

/-- A socket that is silent is not one a daemon serves. -/
theorem not_holding_of_silent (h : σ.Held)
    (hunbound : ∀ j, σ.phase j ≠ .bound) (hsilent : σ.answers = false) :
    ∀ j, ¬ (σ.phase j).Holding := by
  rintro j (hbound | hserves)
  · exact hunbound j hbound
  · obtain ⟨hsock, -⟩ := h j (.inr hserves)
    unfold DaemonHost.answers at hsilent
    rw [hsock] at hsilent
    simp [hserves] at hsilent

theorem DaemonHost.Held.connect (h : σ.Held)
    (hunraced : Unraced σ (.connect i)) : (σ.connect i).Held := by
  unfold DaemonHost.connect
  split
  · rename_i hphase
    split
    · exact h.goto (by simp [DaemonPhase.Holding])
        (by simp [DaemonPhase.Reclaiming])
    · rename_i hsilent
      have hunbound : ∀ j, σ.phase j ≠ .bound := by
        intro j
        by_cases hji : j = i
        · rw [hji, hphase]
          simp
        · exact hunraced j hji
      have hnone := not_holding_of_silent h hunbound (by simpa using hsilent)
      refine .of_none ?_
      intro j hj
      rcases phase_goto σ i j .readingLock with hsame | ⟨-, hnew⟩
      · rw [hsame] at hj
        exact hnone j hj
      · rw [hnew] at hj
        rcases hj with hj | hj <;> cases hj
  · exact h

/-- While one is about to unlink the socket, none holds it. -/
theorem DaemonHost.Held.none_of_reclaiming (h : σ.Held)
    (hi : (σ.phase i).Reclaiming) (phase : DaemonPhase)
    (hphase : ¬ phase.Holding) : (σ.goto i phase).Held := by
  refine .of_none ?_
  intro j hj
  rcases phase_goto σ i j phase with hsame | ⟨-, hnew⟩
  · rw [hsame] at hj
    exact (h j hj).2 i hi
  · rw [hnew] at hj
    exact hphase hj

theorem DaemonHost.Held.readLock (h : σ.Held) (i : Nat) (recycled : Bool) :
    (σ.readLock i recycled).Held := by
  unfold DaemonHost.readLock
  split
  · rename_i hphase
    have hreclaiming : (σ.phase i).Reclaiming := .inl hphase
    split
    · split
      · exact h.none_of_reclaiming hreclaiming _ (by simp [DaemonPhase.Holding])
      · exact h.none_of_reclaiming hreclaiming _ (by simp [DaemonPhase.Holding])
    · exact h.none_of_reclaiming hreclaiming _ (by simp [DaemonPhase.Holding])
  · exact h

theorem DaemonHost.Held.unlinkSocket (h : σ.Held) (i : Nat) :
    (σ.unlinkSocket i).Held := by
  unfold DaemonHost.unlinkSocket
  split
  · rename_i hphase
    have hreclaiming : (σ.phase i).Reclaiming := .inr hphase
    refine .of_none ?_
    intro j hj
    change ((σ.goto i .unlinkingLock).phase j).Holding at hj
    rcases phase_goto σ i j .unlinkingLock with hsame | ⟨-, hnew⟩
    · rw [hsame] at hj
      exact (h j hj).2 i hreclaiming
    · rw [hnew] at hj
      rcases hj with hj | hj <;> cases hj
  · exact h

theorem DaemonHost.Held.bind (h : σ.Held) (hunraced : Unraced σ (.bind i)) :
    (σ.bind i).Held := by
  unfold DaemonHost.bind
  split
  · rename_i hphase
    split
    · exact h.goto (by simp [DaemonPhase.Holding])
        (by simp [DaemonPhase.Reclaiming])
    · rename_i hsock
      intro j hj
      change ((σ.goto i .bound).phase j).Holding at hj
      have hji : j = i := by
        rcases phase_goto σ i j .bound with hsame | ⟨heq, -⟩
        · rw [hsame] at hj
          rw [(h j hj).1] at hsock
          cases hsock
        · exact heq
      subst hji
      refine ⟨rfl, ?_⟩
      intro k hk
      change ((σ.goto j .bound).phase k).Reclaiming at hk
      rcases phase_goto σ j k .bound with hsame | ⟨-, hnew⟩
      · rw [hsame] at hk
        by_cases hkj : k = j
        · rw [hkj, hphase] at hk
          rcases hk with hk | hk <;> cases hk
        · exact hunraced k hkj hk
      · rw [hnew] at hk
        rcases hk with hk | hk <;> cases hk
  · exact h

theorem DaemonHost.Held.listen (h : σ.Held) (i : Nat) : (σ.listen i).Held := by
  unfold DaemonHost.listen
  split
  · rename_i hphase
    obtain ⟨hsock, hnone⟩ := h i (.inl hphase)
    intro j hj
    have hreclaims : ∀ k, ¬ ((σ.goto i .serving).phase k).Reclaiming := by
      intro k hk
      rcases phase_goto σ i k .serving with hsame | ⟨-, hnew⟩
      · rw [hsame] at hk
        exact hnone k hk
      · rw [hnew] at hk
        rcases hk with hk | hk <;> cases hk
    refine ⟨?_, hreclaims⟩
    rcases phase_goto σ i j .serving with hsame | ⟨rfl, -⟩
    · rw [hsame] at hj
      exact (h j hj).1
    · exact hsock
  · exact h

theorem DaemonHost.Held.exec (h : σ.Held) (step : StartupStep)
    (hunraced : Unraced σ step) : (σ.exec step).Held := by
  have hlock : ∀ (i : Nat) (phase : DaemonPhase) (lock : LockFile),
      ¬ phase.Holding → ¬ phase.Reclaiming →
      ({ σ.goto i phase with lock := lock } : DaemonHost).Held :=
    fun i phase lock hholds hreclaims => (h.goto hholds hreclaims).relock lock
  cases step with
  | start pid => exact h.start pid
  | connect i => exact h.connect hunraced
  | readLock i recycled => exact h.readLock i recycled
  | unlinkSocket i => exact h.unlinkSocket i
  | unlinkLock i =>
      show (σ.unlinkLock i).Held
      unfold DaemonHost.unlinkLock
      split
      · exact hlock i _ _ (by simp [DaemonPhase.Holding])
          (by simp [DaemonPhase.Reclaiming])
      · exact h
  | createLock i =>
      show (σ.createLock i).Held
      unfold DaemonHost.createLock
      split
      · exact hlock i _ _ (by simp [DaemonPhase.Holding])
          (by simp [DaemonPhase.Reclaiming])
      · exact h
  | fillLock i =>
      show (σ.fillLock i).Held
      unfold DaemonHost.fillLock
      split
      · split
        · exact hlock i _ _ (by simp [DaemonPhase.Holding])
            (by simp [DaemonPhase.Reclaiming])
        · exact h
      · exact h
  | bind i => exact h.bind hunraced
  | listen i => exact h.listen i
  | dropGuard i =>
      show (σ.dropGuard i).Held
      unfold DaemonHost.dropGuard
      split
      · split
        · exact hlock i _ _ (by simp [DaemonPhase.Holding])
            (by simp [DaemonPhase.Reclaiming])
        · exact h
      · exact h
  | exit i =>
      exact h.goto (by simp [DaemonPhase.Holding])
        (by simp [DaemonPhase.Reclaiming])

/-- Whatever was left behind, and however the daemons start, go on and exit:
where each binds, and begins to listen, with no other between its probe and
its unlink, one serves at most in every state of the run, and no other unlinks
its socket. -/
theorem single_daemon (leftover : Bool) (lock : LockFile)
    (steps : List StartupStep)
    (h : Meets DaemonHost.exec Unraced (.idle leftover lock) steps) (n : Nat) :
    (run DaemonHost.exec (.idle leftover lock) (steps.take n)).Single := by
  refine DaemonHost.Held.single ?_
  refine run_take_inv_of_meets _ (fun σ step hheld hok => hheld.exec step hok)
    ?_ h n
  refine .of_none ?_
  rintro i (hi | hi) <;> cases hi

/-! ## Runs -/

/-- The steps of a start, from its probe on. -/
def acquireSteps (i : Nat) : List StartupStep :=
  [.connect i, .readLock i false, .unlinkSocket i, .unlinkLock i,
    .createLock i, .fillLock i, .bind i, .listen i]

/-- One daemon serves, a second is refused, the first exits and a third takes
over its socket. -/
def takeOver : List StartupStep :=
  [.start 10] ++ acquireSteps 0 ++ [.start 11, .connect 1, .exit 0, .start 12]
    ++ acquireSteps 2

theorem phase_of_length_le (h : σ.procs.length ≤ j) :
    σ.phase j = .exited := by
  unfold DaemonHost.phase
  rw [List.getElem?_eq_none h]
  rfl

theorem unraced_connect (h : ∀ j < σ.procs.length, j ≠ i → σ.phase j ≠ .bound) :
    Unraced σ (.connect i) := by
  intro j hji
  by_cases hj : j < σ.procs.length
  · exact h j hj hji
  · rw [phase_of_length_le (by omega)]
    simp

theorem unraced_bind (h : ∀ j < σ.procs.length, j ≠ i →
    σ.phase j ≠ .readingLock ∧ σ.phase j ≠ .unlinkingSocket) :
    Unraced σ (.bind i) := by
  intro j hji
  by_cases hj : j < σ.procs.length
  · exact not_or.mpr (h j hj hji)
  · rw [phase_of_length_le (by omega)]
    simp [DaemonPhase.Reclaiming]

theorem takeOver_unraced :
    Meets DaemonHost.exec Unraced (.idle true (.holder 7)) takeOver :=
  ⟨trivial, unraced_connect (by decide +kernel), trivial, trivial, trivial,
    trivial, trivial, unraced_bind (by decide +kernel), trivial, trivial,
    unraced_connect (by decide +kernel), trivial, trivial,
    unraced_connect (by decide +kernel), trivial, trivial, trivial, trivial,
    trivial, unraced_bind (by decide +kernel), trivial, trivial⟩

theorem single_daemon_sample :
    (run DaemonHost.exec (.idle true (.holder 7)) (takeOver.take 22)).Single ∧
      (run DaemonHost.exec (.idle true (.holder 7)) takeOver).phase 2 =
        .serving :=
  ⟨single_daemon true (.holder 7) takeOver takeOver_unraced 22,
    by decide +kernel⟩

/-- Two daemons start together: the second has probed before the first binds,
and unlinks the socket after. -/
def startTogether : List StartupStep :=
  [.start 10, .start 11, .connect 0, .connect 1, .readLock 0 false,
    .readLock 1 false, .unlinkSocket 0, .unlinkLock 0, .createLock 0,
    .fillLock 0, .bind 0, .listen 0, .unlinkSocket 1, .unlinkLock 1,
    .createLock 1, .fillLock 1, .bind 1, .listen 1]

/-- Both serve, and the file of the first is gone. -/
theorem two_daemons :
    (run DaemonHost.exec (.idle false .absent) startTogether).Serves 0 ∧
      (run DaemonHost.exec (.idle false .absent) startTogether).Serves 1 ∧
      (run DaemonHost.exec (.idle false .absent) startTogether).sock =
        some (.boundBy 1) :=
  ⟨rfl, rfl, rfl⟩

end AirNote
