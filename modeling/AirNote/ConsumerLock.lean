import AirNote.Lib.Trace

/-!
# The lock of the consumer

The programs that advance the pull cursor take a lock first: a file that names
the process. `acquireConsumerLock` looks whether the file is there, reads it,
asks whether the process it names is alive, and then opens and writes it,
whatever it is by then; `releaseConsumerLock` looks, reads, and removes. Each
of these is a step of its own; processes start and die at any time, a pid is
used again once its process is dead, and processes that are no consumers use
pids too.

Writing is two steps, for the file is empty in between. A process that opened
the file writes to what it opened, which is no longer the lock file where
another removed it.

## Main results

* `consumer_lock_sole` — where a process that opens or removes the file could
  still have come to that decision, and none opens it while another writes it,
  one live process holds the lock at most, and none is robbed of it.
* `consumer_lock_raced` — otherwise two may hold it, and one may lose it.
-/

namespace AirNote

open Lib.Trace

/-! ## The processes and the file -/

/-- The call a process is in, and its next step. -/
inductive LockPhase where
  | idle
  | checking
  | reading
  | probing (holder : Nat)
  | opening
  | writing (ino : Nat)
  | releaseChecking
  | releaseReading
  | removing
  | dead
  deriving DecidableEq, Repr

/-- A process; `holds` is that it was told `acquired: true` and has not called
`releaseConsumerLock` since. -/
structure LockProc where
  pid : Nat
  phase : LockPhase
  holds : Bool
  deriving DecidableEq, Repr

/-- The lock file: the process that opened or wrote it last, and the `pid`
that is read from it, if any. -/
structure ConsumerLock where
  ino : Nat
  writer : Option Nat
  pid : Option Nat
  deriving DecidableEq, Repr

/-- The processes started so far and the file. `robbed` is that a release has
removed the lock of another, live process. -/
structure LockHost where
  procs : List LockProc
  lock : Option ConsumerLock
  inodes : Nat
  robbed : Bool
  deriving DecidableEq, Repr

/-- No process has started; the file is what was left. -/
def LockHost.opened (leftover : Option (Option Nat)) : LockHost where
  procs := []
  lock := leftover.map fun pid => ⟨0, none, pid⟩
  inodes := 1
  robbed := false

def LockHost.proc (σ : LockHost) (i : Nat) : LockProc :=
  σ.procs[i]?.getD ⟨0, .dead, false⟩

def LockHost.put (σ : LockHost) (i : Nat) (p : LockProc) : LockHost :=
  { σ with procs := σ.procs.set i p }

/-- The process goes on to its next step. -/
def LockHost.goto (σ : LockHost) (i : Nat) (phase : LockPhase) : LockHost :=
  σ.put i { σ.proc i with phase := phase }

/-- `isPidAlive`, of a consumer. -/
def LockHost.isPidAlive (σ : LockHost) (pid : Nat) : Bool :=
  pid != 0 && σ.procs.any fun p => p.pid == pid && p.phase != .dead

/-- The `pid` in the file; `none` also where the file is not there. -/
def LockHost.named (σ : LockHost) : Option Nat := σ.lock.bind ConsumerLock.pid

def LockHost.Alive (σ : LockHost) (i : Nat) : Prop := (σ.proc i).phase ≠ .dead

instance (σ : LockHost) (i : Nat) : Decidable (σ.Alive i) :=
  inferInstanceAs (Decidable (_ ≠ _))

/-! ## The steps -/

/-- One step. In `probe`, `recycled` tells that a process which is no consumer
has the pid by now; in `write`, `leftover` tells that of a longer text
something stays behind what is written. -/
inductive LockStep where
  | start (pid : Nat)
  | die (i : Nat)
  | acquire (i : Nat)
  | release (i : Nat)
  | check (i : Nat)
  | read (i : Nat)
  | probe (i : Nat) (recycled : Bool)
  | openFile (i : Nat)
  | write (i : Nat) (leftover : Bool)
  | releaseCheck (i : Nat)
  | releaseRead (i : Nat)
  | remove (i : Nat)
  deriving DecidableEq, Repr

/-- A live process has its pid alone. -/
def LockHost.start (σ : LockHost) (pid : Nat) : LockHost :=
  if σ.isPidAlive pid || pid == 0 then σ
  else { σ with procs := σ.procs ++ [⟨pid, .idle, false⟩] }

/-- `acquireConsumerLock` is called. -/
def LockHost.acquire (σ : LockHost) (i : Nat) : LockHost :=
  if (σ.proc i).phase = .idle then σ.goto i .checking else σ

/-- `releaseConsumerLock` is called. -/
def LockHost.release (σ : LockHost) (i : Nat) : LockHost :=
  if (σ.proc i).phase = .idle then
    σ.put i ⟨(σ.proc i).pid, .releaseChecking, false⟩
  else σ

/-- `existsSync(path)`. -/
def LockHost.check (σ : LockHost) (i : Nat) : LockHost :=
  if (σ.proc i).phase = .checking then
    match σ.lock with
    | none => σ.goto i .opening
    | some _ => σ.goto i .reading
  else σ

/-- The holder is read; where that fails there is none. -/
def LockHost.read (σ : LockHost) (i : Nat) : LockHost :=
  if (σ.proc i).phase = .reading then
    match σ.named with
    | none => σ.goto i .opening
    | some holder =>
        if holder ≠ (σ.proc i).pid then σ.goto i (.probing holder)
        else σ.goto i .opening
  else σ

/-- `isAlive(holder.pid)`: the call ends with `acquired: false`. -/
def LockHost.probe (σ : LockHost) (i : Nat) (recycled : Bool) : LockHost :=
  match (σ.proc i).phase with
  | .probing holder =>
      if σ.isPidAlive holder || (recycled && holder != 0) then σ.goto i .idle
      else σ.goto i .opening
  | _ => σ

/-- `writeFileSync` creates the file, or empties it, -/
def LockHost.openFile (σ : LockHost) (i : Nat) : LockHost :=
  if (σ.proc i).phase = .opening then
    match σ.lock with
    | none =>
        { σ.goto i (.writing σ.inodes) with
          lock := some ⟨σ.inodes, some i, none⟩
          inodes := σ.inodes + 1 }
    | some file =>
        { σ.goto i (.writing file.ino) with
          lock := some ⟨file.ino, some i, none⟩ }
  else σ

/-- and writes what it opened. The call ends with `acquired: true`. -/
def LockHost.write (σ : LockHost) (i : Nat) (leftover : Bool) : LockHost :=
  match (σ.proc i).phase with
  | .writing ino =>
      { σ.put i ⟨(σ.proc i).pid, .idle, true⟩ with
        lock := σ.lock.map fun file =>
          if file.ino = ino then
            ⟨ino, some i, if leftover && file.pid.isSome then none
              else some (σ.proc i).pid⟩
          else file }
  | _ => σ

/-- `existsSync(path)`. -/
def LockHost.releaseCheck (σ : LockHost) (i : Nat) : LockHost :=
  if (σ.proc i).phase = .releaseChecking then
    match σ.lock with
    | none => σ.goto i .idle
    | some _ => σ.goto i .releaseReading
  else σ

/-- The holder is read; where that fails the call ends. -/
def LockHost.releaseRead (σ : LockHost) (i : Nat) : LockHost :=
  if (σ.proc i).phase = .releaseReading then
    if σ.named = some (σ.proc i).pid then σ.goto i .removing
    else σ.goto i .idle
  else σ

/-- The lock is one that another live process wrote. -/
def LockHost.ofAnother (σ : LockHost) (i : Nat) : Bool :=
  match σ.lock.bind ConsumerLock.writer with
  | none => false
  | some w => w != i && σ.Alive w

/-- `rmSync(path, { force: true })`. -/
def LockHost.remove (σ : LockHost) (i : Nat) : LockHost :=
  if (σ.proc i).phase = .removing then
    { σ.goto i .idle with
      lock := none
      robbed := σ.robbed || σ.ofAnother i }
  else σ

def LockHost.exec (σ : LockHost) : LockStep → LockHost
  | .start pid => σ.start pid
  | .die i => σ.goto i .dead
  | .acquire i => σ.acquire i
  | .release i => σ.release i
  | .check i => σ.check i
  | .read i => σ.read i
  | .probe i recycled => σ.probe i recycled
  | .openFile i => σ.openFile i
  | .write i leftover => σ.write i leftover
  | .releaseCheck i => σ.releaseCheck i
  | .releaseRead i => σ.releaseRead i
  | .remove i => σ.remove i

/-! ## What is shown -/

/-- A live process believes that it holds the lock. -/
def LockHost.Holds (σ : LockHost) (i : Nat) : Prop :=
  σ.Alive i ∧ (σ.proc i).holds = true

/-- One holder at most, and no release has removed the lock of another. -/
def LockHost.Sole (σ : LockHost) : Prop :=
  (∀ i j, σ.Holds i → σ.Holds j → i = j) ∧ σ.robbed = false

def LockPhase.isWriting : LockPhase → Bool
  | .writing _ => true
  | _ => false

/-- A process opens the file while it names no other live process, and while
no other is between opening and writing it; it removes the file while it still
names the process itself. -/
def LockHost.Steady (σ : LockHost) : LockStep → Prop
  | .openFile i => (σ.proc i).phase = .opening →
      ∀ j, j ≠ i → σ.Alive j → σ.named ≠ some (σ.proc j).pid ∧
        (σ.proc j).phase.isWriting = false
  | .remove i => (σ.proc i).phase = .removing →
      σ.named = some (σ.proc i).pid
  | _ => True

/-- In a release the lock is held no more. -/
def LockPhase.Releasing (phase : LockPhase) : Prop :=
  phase = .releaseChecking ∨ phase = .releaseReading ∨ phase = .removing

/-- Live pids are distinct and not `0`; a process that writes the file was the
last to open it; one that holds the lock otherwise is the one the file names,
as is whoever wrote a file that names one. -/
structure LockHost.Kept (σ : LockHost) : Prop where
  pids : ∀ i j, σ.Alive i → σ.Alive j →
    (σ.proc i).pid = (σ.proc j).pid → i = j
  writing : ∀ i ino, (σ.proc i).phase = .writing ino →
    σ.lock = some ⟨ino, some i, none⟩
  holding : ∀ i, σ.Holds i → (∀ ino, (σ.proc i).phase ≠ .writing ino) →
    σ.lock.bind ConsumerLock.writer = some i ∧
      σ.named = some (σ.proc i).pid
  releasing : ∀ i, (σ.proc i).phase.Releasing → (σ.proc i).holds = false
  written : ∀ w pid, σ.lock.bind ConsumerLock.writer = some w →
    σ.named = some pid → pid = (σ.proc w).pid
  started : ∀ w, σ.lock.bind ConsumerLock.writer = some w →
    w < σ.procs.length
  notRobbed : σ.robbed = false

variable {σ : LockHost} {i j : Nat}

/-- A holder is the one that opened or wrote the file last. -/
theorem LockHost.Kept.writer (h : σ.Kept) (hi : σ.Holds i) :
    σ.lock.bind ConsumerLock.writer = some i := by
  by_cases hwriting : ∃ ino, (σ.proc i).phase = .writing ino
  · obtain ⟨ino, hino⟩ := hwriting
    rw [h.writing i ino hino]
    rfl
  · exact (h.holding i hi (not_exists.mp hwriting)).1

theorem LockHost.Kept.sole (h : σ.Kept) : σ.Sole := by
  refine ⟨?_, h.notRobbed⟩
  intro i j hi hj
  exact Option.some.inj ((h.writer hi).symm.trans (h.writer hj))

/-! ## The steps keep it -/

theorem lock_proc_put (σ : LockHost) (i j : Nat) (p : LockProc) :
    (σ.put i p).proc j =
      if j = i ∧ i < σ.procs.length then p else σ.proc j := by
  unfold LockHost.proc LockHost.put
  rw [List.getElem?_set]
  by_cases hij : j = i
  · subst hij
    by_cases hlt : j < σ.procs.length
    · simp [hlt]
    · simp [hlt]
  · simp [hij, Ne.symm hij]

theorem lock_proc_put_ne (p : LockProc) (hij : j ≠ i) :
    (σ.put i p).proc j = σ.proc j := by
  rw [lock_proc_put, if_neg fun h => hij h.1]

/-- One process is another than before, or new, and takes up no writing; the
file is as it was. -/
theorem LockHost.Kept.of_proc {τ : LockHost} {p : LockProc} (h : σ.Kept)
    (hlock : τ.lock = σ.lock) (hrobbed : τ.robbed = σ.robbed)
    (hlen : σ.procs.length ≤ τ.procs.length)
    (hcases : ∀ j, τ.proc j = σ.proc j ∨ (j = i ∧ τ.proc j = p))
    (hpid : i < σ.procs.length → p.pid = (σ.proc i).pid)
    (hunique : p.phase ≠ .dead → ∀ j, j ≠ i → σ.Alive j →
      (σ.proc j).pid ≠ p.pid)
    (hwriting : ∀ ino, p.phase ≠ .writing ino)
    (hholds : p.phase ≠ .dead → p.holds = true →
      σ.Holds i ∧ p.pid = (σ.proc i).pid ∧
        ∀ ino, (σ.proc i).phase ≠ .writing ino)
    (hreleasing : p.phase.Releasing → p.holds = false) : τ.Kept := by
  have hnamed : τ.named = σ.named := by
    unfold LockHost.named
    rw [hlock]
  have hsplit : ∀ j, τ.Alive j →
      (τ.proc j = σ.proc j ∧ σ.Alive j) ∨
        (j = i ∧ τ.proc j = p ∧ p.phase ≠ .dead) := by
    intro j hj
    unfold LockHost.Alive at hj ⊢
    rcases hcases j with hsame | ⟨heq, hnew⟩
    · rw [hsame] at hj
      exact Or.inl ⟨hsame, hj⟩
    · rw [hnew] at hj
      exact Or.inr ⟨heq, hnew, hj⟩
  constructor
  · intro j k hj hk heq
    by_cases hjk : j = k
    · exact hjk
    rcases hsplit j hj with ⟨hj', hlive⟩ | ⟨rfl, hj', hlive⟩
    · rcases hsplit k hk with ⟨hk', hlive'⟩ | ⟨rfl, hk', hlive'⟩
      · rw [hj', hk'] at heq
        exact h.pids j k hlive hlive' heq
      · rw [hj', hk'] at heq
        exact absurd heq (hunique hlive' j hjk hlive)
    · rcases hsplit k hk with ⟨hk', hlive'⟩ | ⟨rfl, hk', hlive'⟩
      · rw [hj', hk'] at heq
        exact absurd heq.symm (hunique hlive k (Ne.symm hjk) hlive')
      · exact absurd rfl hjk
  · intro j ino hj
    rw [hlock]
    rcases hcases j with hsame | ⟨rfl, hnew⟩
    · rw [hsame] at hj
      exact h.writing j ino hj
    · rw [hnew] at hj
      exact absurd hj (hwriting ino)
  · intro j hj hnot
    rw [hlock, hnamed]
    rcases hsplit j hj.1 with ⟨hsame, hlive⟩ | ⟨rfl, hnew, hlive⟩
    · have hheld := hj.2
      rw [hsame] at hheld hnot ⊢
      exact h.holding j ⟨hlive, hheld⟩ hnot
    · have hheld := hj.2
      rw [hnew] at hheld ⊢
      obtain ⟨hold, hsame, hidle⟩ := hholds hlive hheld
      rw [hsame]
      exact h.holding j hold hidle
  · intro j hj
    rcases hcases j with hsame | ⟨rfl, hnew⟩
    · rw [hsame] at hj ⊢
      exact h.releasing j hj
    · rw [hnew] at hj ⊢
      exact hreleasing hj
  · intro w pid hw hpid'
    rw [hlock] at hw
    rw [hnamed] at hpid'
    rw [h.written w pid hw hpid']
    rcases hcases w with hsame | ⟨rfl, hnew⟩
    · rw [hsame]
    · rw [hnew, hpid (h.started w hw)]
  · intro w hw
    rw [hlock] at hw
    exact Nat.lt_of_lt_of_le (h.started w hw) hlen
  · rw [hrobbed]
    exact h.notRobbed

/-- A process that goes on, and takes up no writing. -/
theorem LockHost.Kept.put (h : σ.Kept) {p : LockProc}
    (hpid : p.pid = (σ.proc i).pid) (hwriting : ∀ ino, p.phase ≠ .writing ino)
    (halive : p.phase ≠ .dead → σ.Alive i)
    (hholds : p.phase ≠ .dead → p.holds = true →
      σ.Holds i ∧ ∀ ino, (σ.proc i).phase ≠ .writing ino)
    (hreleasing : p.phase.Releasing → p.holds = false) :
    (σ.put i p).Kept := by
  have hcases : ∀ j, (σ.put i p).proc j = σ.proc j ∨
      (j = i ∧ (σ.put i p).proc j = p) := by
    intro j
    rw [lock_proc_put]
    split
    · rename_i hji
      exact Or.inr ⟨hji.1, rfl⟩
    · exact Or.inl rfl
  refine h.of_proc rfl rfl (by simp [LockHost.put]) hcases (fun _ => hpid) ?_
    hwriting ?_ hreleasing
  · intro hp j hji hj heq
    rw [hpid] at heq
    exact hji (h.pids j i hj (halive hp) heq)
  · intro hp hheld
    obtain ⟨hold, hidle⟩ := hholds hp hheld
    exact ⟨hold, hpid, hidle⟩

/-- A process goes on in the call it is in. -/
theorem LockHost.Kept.goto (h : σ.Kept) {phase : LockPhase}
    (hlive : (σ.proc i).phase ≠ .dead)
    (hold : ∀ ino, (σ.proc i).phase ≠ .writing ino)
    (hnew : ∀ ino, phase ≠ .writing ino)
    (hreleasing : phase.Releasing → (σ.proc i).phase.Releasing) :
    (σ.goto i phase).Kept :=
  h.put rfl hnew (fun _ => hlive) (fun _ hholds => ⟨⟨hlive, hholds⟩, hold⟩)
    fun hphase => h.releasing i (hreleasing hphase)

theorem LockHost.Kept.die (h : σ.Kept) (i : Nat) : (σ.goto i .dead).Kept := by
  refine h.put rfl ?_ ?_ ?_ ?_
  · intro ino
    simp
  · intro hne
    exact absurd rfl hne
  · intro hne
    exact absurd rfl hne
  · rintro (hphase | hphase | hphase) <;> cases hphase

theorem lock_alive_of_phase {phase : LockPhase}
    (hphase : (σ.proc i).phase = phase) (hne : phase ≠ .dead) :
    σ.Alive i := by
  unfold LockHost.Alive
  rw [hphase]
  exact hne

theorem lock_isPidAlive (hi : σ.Alive i) (hpid : (σ.proc i).pid ≠ 0) :
    σ.isPidAlive (σ.proc i).pid = true := by
  unfold LockHost.isPidAlive
  unfold LockHost.Alive LockHost.proc at *
  cases hp : σ.procs[i]? with
  | none => simp [hp] at hi
  | some p =>
      simp only [hp, Option.getD_some] at hi hpid ⊢
      simp only [bne_iff_ne, ne_eq, hpid, not_false_eq_true, Bool.and_eq_true,
        List.any_eq_true, true_and]
      exact ⟨p, List.mem_of_getElem? hp, by simp, hi⟩

theorem LockHost.Kept.start (h : σ.Kept) (pid : Nat) :
    (σ.start pid).Kept := by
  unfold LockHost.start
  split
  · exact h
  · rename_i hfree
    rw [Bool.not_eq_true, Bool.or_eq_false_iff] at hfree
    obtain ⟨hunused, hzero⟩ := hfree
    have hcases : ∀ j, ({ σ with
        procs := σ.procs ++ [⟨pid, .idle, false⟩] } : LockHost).proc j =
          σ.proc j ∨ (j = σ.procs.length ∧ ({ σ with
        procs := σ.procs ++ [⟨pid, .idle, false⟩] } : LockHost).proc j =
          ⟨pid, .idle, false⟩) := by
      intro j
      unfold LockHost.proc
      rcases getElem?_concat_cases σ.procs ⟨pid, .idle, false⟩ j with
        hsame | ⟨hlast, hnew⟩
      · left
        rw [hsame]
      · right
        rw [hnew]
        exact ⟨hlast, rfl⟩
    refine h.of_proc rfl rfl (by simp) hcases ?_ ?_ ?_ ?_ ?_
    · intro hlt
      exact absurd hlt (Nat.lt_irrefl _)
    · intro _ j _ hj heq
      have hne : (σ.proc j).pid ≠ 0 := by
        rw [heq]
        simpa using hzero
      have hused := lock_isPidAlive hj hne
      rw [heq] at hused
      rw [hunused] at hused
      cases hused
    · intro ino
      simp
    · intro _ hheld
      cases hheld
    · intro _
      rfl

theorem LockHost.Kept.acquire (h : σ.Kept) (i : Nat) : (σ.acquire i).Kept := by
  unfold LockHost.acquire
  split
  · rename_i hphase
    exact h.goto (by simp [hphase]) (by simp [hphase]) (by simp)
      (by simp [LockPhase.Releasing])
  · exact h

theorem LockHost.Kept.release (h : σ.Kept) (i : Nat) : (σ.release i).Kept := by
  unfold LockHost.release
  split
  · rename_i hphase
    refine h.put rfl (by simp) ?_ ?_ (fun _ => rfl)
    · exact fun _ => lock_alive_of_phase hphase (by simp)
    · intro _ hheld
      cases hheld
  · exact h

theorem LockHost.Kept.check (h : σ.Kept) (i : Nat) : (σ.check i).Kept := by
  unfold LockHost.check
  split
  · rename_i hphase
    split <;> exact h.goto (by simp [hphase]) (by simp [hphase]) (by simp)
      (by simp [LockPhase.Releasing])
  · exact h

theorem LockHost.Kept.read (h : σ.Kept) (i : Nat) : (σ.read i).Kept := by
  have hgoto : ∀ phase, (σ.proc i).phase = .reading →
      (∀ ino, phase ≠ .writing ino) → ¬ phase.Releasing →
      (σ.goto i phase).Kept := fun phase hphase hnew hnot =>
    h.goto (by simp [hphase]) (by simp [hphase]) hnew fun hr =>
      absurd hr hnot
  unfold LockHost.read
  split
  · rename_i hphase
    split
    · exact hgoto _ hphase (by simp) (by simp [LockPhase.Releasing])
    · split <;>
        exact hgoto _ hphase (by simp) (by simp [LockPhase.Releasing])
  · exact h

theorem LockHost.Kept.probe (h : σ.Kept) (i : Nat) (recycled : Bool) :
    (σ.probe i recycled).Kept := by
  unfold LockHost.probe
  split
  · rename_i holder hphase
    split <;> exact h.goto (by simp [hphase]) (by simp [hphase]) (by simp)
      (by simp [LockPhase.Releasing])
  · exact h

theorem LockHost.Kept.releaseCheck (h : σ.Kept) (i : Nat) :
    (σ.releaseCheck i).Kept := by
  unfold LockHost.releaseCheck
  split
  · rename_i hphase
    split <;> exact h.goto (by simp [hphase]) (by simp [hphase]) (by simp)
      (by simp [hphase, LockPhase.Releasing])
  · exact h

theorem LockHost.Kept.releaseRead (h : σ.Kept) (i : Nat) :
    (σ.releaseRead i).Kept := by
  unfold LockHost.releaseRead
  split
  · rename_i hphase
    split <;> exact h.goto (by simp [hphase]) (by simp [hphase]) (by simp)
      (by simp [hphase, LockPhase.Releasing])
  · exact h

theorem lt_of_lock_phase (hi : (σ.proc i).phase ≠ .dead) :
    i < σ.procs.length := by
  by_contra hnot
  unfold LockHost.proc at hi
  rw [List.getElem?_eq_none (by omega)] at hi
  exact hi rfl

theorem lock_proc_put_self (p : LockProc) (hi : σ.Alive i) :
    (σ.put i p).proc i = p := by
  rw [lock_proc_put, if_pos ⟨rfl, lt_of_lock_phase hi⟩]

/-- Where a process goes on alive, its pid with it, pids stay distinct. -/
theorem LockHost.Kept.pids_put (h : σ.Kept) {p : LockProc}
    (hpid : p.pid = (σ.proc i).pid) (hi : σ.Alive i) :
    ∀ j k, (σ.put i p).Alive j → (σ.put i p).Alive k →
      ((σ.put i p).proc j).pid = ((σ.put i p).proc k).pid → j = k := by
  have hpids : ∀ j, ((σ.put i p).proc j).pid = (σ.proc j).pid := by
    intro j
    rw [lock_proc_put]
    split
    · rename_i hji
      rw [hji.1, hpid]
    · rfl
  have halive : ∀ j, (σ.put i p).Alive j → σ.Alive j := by
    intro j hj
    by_cases hji : j = i
    · rw [hji]
      exact hi
    · unfold LockHost.Alive at hj ⊢
      rwa [lock_proc_put_ne _ hji] at hj
  intro j k hj hk heq
  rw [hpids, hpids] at heq
  exact h.pids j k (halive j hj) (halive k hk) heq

theorem LockHost.Kept.releasing_put (h : σ.Kept) {p : LockProc}
    (hp : ¬ p.phase.Releasing) :
    ∀ j, ((σ.put i p).proc j).phase.Releasing →
      ((σ.put i p).proc j).holds = false := by
  intro j hj
  rw [lock_proc_put] at hj ⊢
  split at hj
  · exact absurd hj hp
  · rename_i hji
    rw [if_neg hji]
    exact h.releasing j hj

/-- A holder other than the process that goes on is a holder before, and the
file named it unless it was writing. -/
theorem LockHost.Kept.named_of_other (h : σ.Kept) {p : LockProc} (hji : j ≠ i)
    (hj : (σ.put i p).Holds j)
    (hnot : ∀ ino, ((σ.put i p).proc j).phase ≠ .writing ino) :
    σ.Alive j ∧ σ.named = some (σ.proc j).pid := by
  unfold LockHost.Holds LockHost.Alive at hj
  rw [lock_proc_put_ne _ hji] at hj hnot
  exact ⟨hj.1, (h.holding j hj hnot).2⟩

/-- The file is opened: the process that does is the one that writes it. -/
theorem LockHost.Kept.opened (h : σ.Kept) (hphase : (σ.proc i).phase = .opening)
    (hsteady : ∀ j, j ≠ i → σ.Alive j → σ.named ≠ some (σ.proc j).pid ∧
      (σ.proc j).phase.isWriting = false) (ino inodes : Nat) :
    ({ σ.goto i (.writing ino) with
      lock := some ⟨ino, some i, none⟩, inodes := inodes } :
        LockHost).Kept := by
  have hlive : σ.Alive i := lock_alive_of_phase hphase (by simp)
  have hself : (σ.goto i (.writing ino)).proc i =
      { σ.proc i with phase := .writing ino } :=
    lock_proc_put_self _ hlive
  constructor
  · exact h.pids_put rfl hlive
  · intro j ino' hj
    change ((σ.goto i (.writing ino)).proc j).phase = _ at hj
    by_cases hji : j = i
    · subst hji
      rw [hself] at hj
      obtain rfl := LockPhase.writing.inj hj
      rfl
    · unfold LockHost.goto at hj
      rw [lock_proc_put_ne _ hji] at hj
      have hjlive : σ.Alive j := lock_alive_of_phase hj (by simp)
      have hnot := (hsteady j hji hjlive).2
      rw [hj] at hnot
      cases hnot
  · intro j hj hnot
    by_cases hji : j = i
    · subst hji
      exact absurd (congrArg LockProc.phase hself) (hnot ino)
    · obtain ⟨hjlive, hnamed⟩ := h.named_of_other hji hj hnot
      exact absurd hnamed (hsteady j hji hjlive).1
  · exact h.releasing_put (by simp [LockPhase.Releasing])
  · intro w pid _ hpid
    cases hpid
  · intro w hw
    obtain rfl := Option.some.inj hw
    show i < (σ.procs.set i _).length
    rw [List.length_set]
    exact lt_of_lock_phase hlive
  · exact h.notRobbed

theorem LockHost.Kept.openFile (h : σ.Kept) (hsteady : σ.Steady (.openFile i)) :
    (σ.openFile i).Kept := by
  unfold LockHost.openFile
  split
  · rename_i hphase
    split
    · exact h.opened hphase (hsteady hphase) _ _
    · exact h.opened hphase (hsteady hphase) _ _
  · exact h

/-- A writer writes the file it opened. -/
theorem LockHost.Kept.written_lock (h : σ.Kept) {ino : Nat}
    (hphase : (σ.proc i).phase = .writing ino) (leftover : Bool) :
    σ.write i leftover =
      { σ.put i ⟨(σ.proc i).pid, .idle, true⟩ with
        lock := some ⟨ino, some i, some (σ.proc i).pid⟩ } := by
  unfold LockHost.write
  rw [hphase]
  simp only [h.writing i ino hphase, Option.map_some, if_true,
    Option.isSome_none, Bool.and_false, Bool.false_eq_true, if_false]

theorem LockHost.Kept.write (h : σ.Kept) (i : Nat) (leftover : Bool) :
    (σ.write i leftover).Kept := by
  by_cases hwriting : ∃ ino, (σ.proc i).phase = .writing ino
  · obtain ⟨ino, hphase⟩ := hwriting
    have hlive : σ.Alive i := lock_alive_of_phase hphase (by simp)
    have hlock := h.writing i ino hphase
    have hself := lock_proc_put_self ⟨(σ.proc i).pid, .idle, true⟩ hlive
    rw [h.written_lock hphase]
    constructor
    · exact h.pids_put rfl hlive
    · intro j ino' hj
      change ((σ.put i ⟨(σ.proc i).pid, .idle, true⟩).proc j).phase = _ at hj
      by_cases hji : j = i
      · subst hji
        rw [hself] at hj
        cases hj
      · rw [lock_proc_put_ne _ hji] at hj
        rw [h.writing j ino' hj] at hlock
        simp only [Option.some.injEq, ConsumerLock.mk.injEq] at hlock
        exact absurd hlock.2.1 hji
    · intro j hj hnot
      by_cases hji : j = i
      · subst hji
        refine ⟨rfl, ?_⟩
        show some (σ.proc j).pid = some ((σ.put j _).proc j).pid
        rw [hself]
      · obtain ⟨-, hnamed⟩ := h.named_of_other hji hj hnot
        unfold LockHost.named at hnamed
        rw [hlock] at hnamed
        cases hnamed
    · exact h.releasing_put (by simp [LockPhase.Releasing])
    · intro w pid hw hpid
      obtain rfl := Option.some.inj hw
      obtain rfl := Option.some.inj hpid
      exact (congrArg LockProc.pid hself).symm
    · intro w hw
      obtain rfl := Option.some.inj hw
      show i < (σ.procs.set i _).length
      rw [List.length_set]
      exact lt_of_lock_phase hlive
    · exact h.notRobbed
  · unfold LockHost.write
    split
    · rename_i ino hphase
      exact absurd ⟨ino, hphase⟩ hwriting
    · exact h

/-- A file that names the process is not the lock of another. -/
theorem LockHost.Kept.not_ofAnother (h : σ.Kept) (hi : σ.Alive i)
    (hnamed : σ.named = some (σ.proc i).pid) : σ.ofAnother i = false := by
  unfold LockHost.ofAnother
  split
  · rfl
  · rename_i w hw
    by_cases hlive : σ.Alive w
    · have hsame := h.pids i w hi hlive (h.written w _ hw hnamed)
      simp [hsame]
    · simp [hlive]

theorem LockHost.Kept.remove (h : σ.Kept) (hsteady : σ.Steady (.remove i)) :
    (σ.remove i).Kept := by
  unfold LockHost.remove
  split
  · rename_i hphase
    have hlive : σ.Alive i := lock_alive_of_phase hphase (by simp)
    have hnamed : σ.named = some (σ.proc i).pid := hsteady hphase
    have hself : (σ.goto i .idle).proc i =
        { σ.proc i with phase := .idle } := lock_proc_put_self _ hlive
    constructor
    · exact h.pids_put rfl hlive
    · intro j ino hj
      change ((σ.goto i .idle).proc j).phase = _ at hj
      by_cases hji : j = i
      · subst hji
        rw [hself] at hj
        cases hj
      · unfold LockHost.goto at hj
        rw [lock_proc_put_ne _ hji] at hj
        unfold LockHost.named at hnamed
        rw [h.writing j ino hj] at hnamed
        cases hnamed
    · intro j hj hnot
      by_cases hji : j = i
      · subst hji
        have hheld : ((σ.goto j .idle).proc j).holds = true := hj.2
        rw [hself, h.releasing j (Or.inr (Or.inr hphase))] at hheld
        cases hheld
      · obtain ⟨hjlive, hnamed'⟩ := h.named_of_other hji hj hnot
        have hpid := Option.some.inj (hnamed.symm.trans hnamed')
        exact absurd (h.pids i j hlive hjlive hpid).symm hji
    · exact h.releasing_put (by simp [LockPhase.Releasing])
    · intro w pid hw
      cases hw
    · intro w hw
      cases hw
    · show (σ.robbed || σ.ofAnother i) = false
      rw [h.notRobbed, h.not_ofAnother hlive hnamed]
      rfl
  · exact h

theorem LockHost.Kept.exec (h : σ.Kept) (step : LockStep)
    (hsteady : σ.Steady step) : (σ.exec step).Kept := by
  cases step with
  | start pid => exact h.start pid
  | die i => exact h.die i
  | acquire i => exact h.acquire i
  | release i => exact h.release i
  | check i => exact h.check i
  | read i => exact h.read i
  | probe i recycled => exact h.probe i recycled
  | openFile i => exact h.openFile hsteady
  | write i leftover => exact h.write i leftover
  | releaseCheck i => exact h.releaseCheck i
  | releaseRead i => exact h.releaseRead i
  | remove i => exact h.remove hsteady

/-! ## Runs -/

theorem LockHost.kept_opened (leftover : Option (Option Nat)) :
    (LockHost.opened leftover).Kept := by
  have hdead : ∀ i, ((LockHost.opened leftover).proc i).phase = .dead :=
    fun _ => rfl
  have hwriter : (LockHost.opened leftover).lock.bind ConsumerLock.writer =
      none := by
    cases leftover <;> rfl
  constructor
  · intro i _ hi
    exact absurd (hdead i) hi
  · intro i ino hi
    rw [hdead] at hi
    cases hi
  · intro i hi
    exact absurd (hdead i) hi.1
  · intro i _
    rfl
  · intro w pid hw
    rw [hwriter] at hw
    cases hw
  · intro w hw
    rw [hwriter] at hw
    cases hw
  · rfl

/-- Whatever file was left, and whichever processes start, die and call
`acquireConsumerLock` and `releaseConsumerLock` in whatever order of their
steps: where each file operation is steady, there is one live holder at most
in every state, and no release has removed the lock of another. -/
theorem consumer_lock_sole (leftover : Option (Option Nat))
    (steps : List LockStep)
    (hmeets : Meets LockHost.exec LockHost.Steady (.opened leftover) steps)
    (n : Nat) :
    (run LockHost.exec (.opened leftover) (steps.take n)).Sole :=
  (run_take_inv_of_meets LockHost.Kept
    (fun _ step h hsteady => h.exec step hsteady)
    (LockHost.kept_opened leftover) hmeets n).sole

theorem steady_openFile (h : ∀ j < σ.procs.length, j ≠ i → σ.Alive j →
    σ.named ≠ some (σ.proc j).pid ∧ (σ.proc j).phase.isWriting = false) :
    σ.Steady (.openFile i) :=
  fun _ j hji hj => h j (lt_of_lock_phase hj) hji hj

/-- `acquireConsumerLock` by a process alone, over the lock of a dead one. -/
def reclaimSteps (i : Nat) : List LockStep :=
  [.acquire i, .check i, .read i, .probe i false, .openFile i, .write i false]

/-- The lock of a dead process is reclaimed; another process is refused; the
holder dies, and a process with its pid takes its lock. -/
def inSuccession : List LockStep :=
  [.start 10] ++ reclaimSteps 0 ++
    [.start 11, .acquire 1, .check 1, .read 1, .probe 1 false, .die 0,
      .start 10] ++ reclaimSteps 2

theorem inSuccession_steady :
    Meets LockHost.exec LockHost.Steady (.opened (some (some 7)))
      inSuccession :=
  ⟨trivial, trivial, trivial, trivial, trivial,
    steady_openFile (by decide +kernel), trivial, trivial, trivial, trivial,
    trivial, trivial, trivial, trivial, trivial, trivial, trivial, trivial,
    steady_openFile (by decide +kernel), trivial, trivial⟩

theorem consumer_lock_sole_inSuccession :
    (run LockHost.exec (.opened (some (some 7)))
      (inSuccession.take 20)).Sole ∧
      ((run LockHost.exec (.opened (some (some 7))) inSuccession).proc
        2).holds = true :=
  ⟨consumer_lock_sole (some (some 7)) inSuccession inSuccession_steady 20,
    by decide +kernel⟩

/-- Two processes find no lock file before either writes it. -/
def bothStart : List LockStep :=
  [.start 10, .start 11, .acquire 0, .acquire 1, .check 0, .check 1,
    .openFile 0, .write 0 false, .openFile 1, .write 1 false]

/-- The same, and the first releases the lock: the other writes it between the
read and the removal. -/
def releaseLate : List LockStep :=
  [.start 10, .start 11, .acquire 0, .acquire 1, .check 0, .check 1,
    .openFile 0, .write 0 false, .release 0, .releaseCheck 0, .releaseRead 0,
    .openFile 1, .write 1 false, .remove 0]

/-- Both hold the lock, and the lock of a holder is removed by another. -/
theorem consumer_lock_raced :
    (¬ ∀ leftover steps, (run LockHost.exec (.opened leftover) steps).Sole) ∧
      (run LockHost.exec (.opened none) bothStart).Holds 0 ∧
      (run LockHost.exec (.opened none) bothStart).Holds 1 ∧
      (run LockHost.exec (.opened none) releaseLate).Holds 1 ∧
      (run LockHost.exec (.opened none) releaseLate).lock = none ∧
      (run LockHost.exec (.opened none) releaseLate).robbed = true := by
  have hholds : ∀ i < 2,
      (run LockHost.exec (.opened none) bothStart).Holds i := by
    unfold LockHost.Holds
    decide +kernel
  refine ⟨?_, hholds 0 (by decide), hholds 1 (by decide), ?_, ?_, ?_⟩
  · intro hsole
    have heq := (hsole none bothStart).1 0 1 (hholds 0 (by decide))
      (hholds 1 (by decide))
    exact absurd heq (by decide)
  · unfold LockHost.Holds
    decide +kernel
  · decide +kernel
  · decide +kernel

end AirNote
