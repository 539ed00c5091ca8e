import AirNote.ChannelReplay
import AirNote.Lib.Trace

/-!
# The gaps of the channel

The daemon writes each message that a client of the channel may see to its
socket. Where too much is queued it skips the write and counts it, and once
there is progress it sends a gap frame: the client is to replay from the
archive what comes after the last message that was written. A client that
has lost its connection comes back with the largest number it has seen, or
else with the cursor of the archive from before it first attached, and is
sent a gap from there.

The last message that was written may be one that comes after a skipped one:
a reader that is slow but not stuck gets the next message, and the gap after
it. What was skipped is not in that gap.

## Main results

* `channel_gaps_cover` — the runs in which nothing is lost.
* `channel_gap_misses` — a message that is skipped between two that are
  written.
-/

namespace AirNote

open Lib

/-! ## The data -/

/-- What the daemon writes to the socket. -/
inductive SocketFrame where
  | message (m : Message)
  | gap (afterSeq : Int)

/-- What the daemon keeps of a client. -/
structure Subscriber where
  lastSeq : Option Int
  dropped : Nat

/-- A persistent client of the channel, the daemon's side of its connection,
and the frames that were written and not yet read. For the account: which
messages were ever written to a connection of the client, and which were not
when they were fanned out, and did not lie in a gap that the client has
received since. The baseline is a cursor, which is never below zero. -/
structure ChannelClient where
  baseline : Option Nat
  maxSeen : Option Int
  attachedOnce : Bool
  up : Bool
  sub : Option Subscriber
  wire : List SocketFrame
  written : List Message
  missed : List Message

/-- A client before it first attaches. -/
def ChannelClient.start (baseline : Option Nat) : ChannelClient where
  baseline := baseline
  maxSeen := none
  attachedOnce := false
  up := false
  sub := none
  wire := []
  written := []
  missed := []

/-- What happens: a message is fanned out, with the rooms as they are, whether
it is archived, and what is queued before and after a write; the socket
drains; the client attaches, or reads a frame; the daemon closes the
connection, or the client does. -/
inductive ChannelEvent where
  | fanOut (m : Message) (rooms : String → Option RoomState) (archived : Bool)
      (queued after : Nat)
  | drain (queued : Nat)
  | attach
  | read
  | serverClose
  | clientClose

/-! ## The daemon and the client -/

/-- `flushPending`. -/
def flushPending (highWaterMark queued : Nat) (c : ChannelClient)
    (sub : Subscriber) : ChannelClient :=
  if sub.dropped = 0 then { c with sub := some sub }
  else if queued > highWaterMark then { c with sub := some sub }
  else
    { c with
      sub := some { sub with dropped := 0 }
      wire := c.wire ++ [.gap (sub.lastSeq.getD 0)] }

/-- A message is written to the socket. -/
def writeMessage (highWaterMark after : Nat) (c : ChannelClient)
    (sub : Subscriber) (m : Message) : ChannelClient :=
  flushPending highWaterMark after
    { c with
      wire := c.wire ++ [.message m]
      written := c.written ++ [m] }
    { sub with lastSeq := some m.seq }

/-- `deliver`, for a message that may be seen. -/
def deliverTo (highWaterMark queued after : Nat) (c : ChannelClient)
    (m : Message) : ChannelClient :=
  match c.sub with
  | none => c
  | some sub =>
      if queued > highWaterMark * 4 then { c with sub := none }
      else if queued > highWaterMark then
        { c with sub := some { sub with dropped := sub.dropped + 1 } }
      else writeMessage highWaterMark after c sub m

/-- A message that may be seen is written. -/
def ChannelClient.writes (highWaterMark queued : Nat) (c : ChannelClient) :
    Bool :=
  c.sub.isSome && queued ≤ highWaterMark

/-- Where the client resumes. -/
def ChannelClient.sinceSeq (c : ChannelClient) : Option Int :=
  c.maxSeen.or (c.baseline.map Int.ofNat)

/-- The client attaches: the first time from now on, and then from where it
resumes. -/
def attachClient (c : ChannelClient) : ChannelClient :=
  if c.up then c
  else
    let resumeSeq := if c.attachedOnce then c.sinceSeq else none
    { c with
      attachedOnce := true
      up := true
      sub := some ⟨resumeSeq, 0⟩
      wire := (resumeSeq.map SocketFrame.gap).toList }

/-- The client reads a frame. -/
def readFrame (c : ChannelClient) : ChannelClient :=
  match c.wire with
  | [] => c
  | .message m :: rest =>
      { c with
        wire := rest
        maxSeen := some
          (match c.maxSeen with
          | none => m.seq
          | some seen => max seen m.seq) }
  | .gap afterSeq :: rest =>
      { c with
        wire := rest
        missed := c.missed.filter fun m => ¬ afterSeq < m.seq }

/-- One event. -/
def channelStep (highWaterMark : Nat) (mute : String → Bool)
    (c : ChannelClient) (e : ChannelEvent) : ChannelClient :=
  match e with
  | .fanOut m rooms archived queued after =>
      if !pushGate rooms mute m then c
      else
        let c' := deliverTo highWaterMark queued after c m
        if archived && !c.writes highWaterMark queued then
          { c' with missed := c'.missed ++ [m] }
        else c'
  | .drain queued =>
      match c.sub with
      | none => c
      | some sub => flushPending highWaterMark queued c sub
  | .attach => attachClient c
  | .read => readFrame c
  | .serverClose => { c with sub := none }
  | .clientClose => { c with up := false, sub := none, wire := [] }

/-- The event is that the client reads a gap in which a number lies. -/
def readsGap (c : ChannelClient) (e : ChannelEvent) (seq : Int) : Bool :=
  match e, c.wire with
  | .read, .gap afterSeq :: _ => afterSeq < seq
  | _, _ => false

/-- In the course of the events, the client reads a gap in which a number
lies. -/
def receivesGap (highWaterMark : Nat) (mute : String → Bool) :
    ChannelClient → List ChannelEvent → Int → Bool
  | _, [], _ => false
  | c, e :: rest, seq => readsGap c e seq ||
      receivesGap highWaterMark mute (channelStep highWaterMark mute c e) rest
        seq

/-! ## Nothing is lost -/

/-- A message above the baseline. -/
def ChannelClient.above (c : ChannelClient) (m : Message) : Prop :=
  ∃ b, c.baseline = some b ∧ (b : Int) < m.seq

/-- A message that was never written, and is not in a gap since. -/
structure ChannelClient.Owes (c : ChannelClient) (m : Message) : Prop where
  missed : m ∈ c.missed
  above : c.above m
  unwritten : m ∉ c.written

/-- Reading on, the client gets a gap in which a number lies before it reads
anything at or after that number; or it reads all there is, and then what
remains holds. -/
def Covered (seq : Int) (remains : Prop) : List SocketFrame → Prop
  | [] => remains
  | .gap afterSeq :: rest => afterSeq < seq ∨ Covered seq remains rest
  | .message m :: rest => m.seq < seq ∧ Covered seq remains rest

/-- The daemon still owes the client a gap in which the number lies, or has
closed the connection. -/
def ChannelClient.Pending (c : ChannelClient) (seq : Int) : Prop :=
  ∀ sub, c.sub = some sub → 0 < sub.dropped ∧ sub.lastSeq.getD 0 < seq

/-- What the client has missed will come in a gap: the connection it has will
bring one, and so will any that it makes. -/
structure Promised (c : ChannelClient) (seq : Int) : Prop where
  attached : c.attachedOnce = true
  resumes : ∀ since, c.sinceSeq = some since → since < seq
  covered : Covered seq (c.Pending seq) c.wire

/-- The client is connected, has read everything, and nothing that was skipped
waits for its gap. -/
structure ChannelClient.Rests (c : ChannelClient) : Prop where
  connected : ∃ sub, c.sub = some sub ∧ sub.dropped = 0
  drained : c.wire = []

/-- The condition on an event. A message is written only if every message
that is owed and for which no gap was sent lies after it. One that is
archived and not written lies after everything that was written, and above
the baseline nothing is fanned out before the client first attaches. -/
def KeepsOrder (highWaterMark : Nat) (mute : String → Bool)
    (c : ChannelClient) (e : ChannelEvent) : Prop :=
  match e with
  | .fanOut m rooms archived queued _ =>
      pushGate rooms mute m = true →
        (c.writes highWaterMark queued = true →
          ∀ m', c.Owes m' → m' ≠ m →
            (∃ afterSeq, SocketFrame.gap afterSeq ∈ c.wire ∧
              afterSeq < m'.seq) ∨ m.seq < m'.seq) ∧
        (c.writes highWaterMark queued = false → archived = true →
          c.above m → m ∉ c.written →
            c.attachedOnce = true ∧ ∀ w ∈ c.written, w.seq < m.seq)
  | _ => True

/-! ### Reading on -/

theorem Covered.mono {seq : Int} {remains remains' : Prop}
    (himp : remains → remains') {wire : List SocketFrame}
    (h : Covered seq remains wire) : Covered seq remains' wire := by
  induction wire with
  | nil => exact himp h
  | cons f rest ih =>
      cases f with
      | message m => exact ⟨h.1, ih h.2⟩
      | gap afterSeq => exact h.imp_right ih

theorem covered_append {seq : Int} {remains : Prop}
    (wire more : List SocketFrame) :
    Covered seq remains (wire ++ more) ↔
      Covered seq (Covered seq remains more) wire := by
  induction wire with
  | nil => exact Iff.rfl
  | cons f rest ih =>
      cases f with
      | message m => exact and_congr_right' ih
      | gap afterSeq => exact or_congr_right ih

/-- Where a gap covers a number, nothing after it matters. -/
theorem covered_of_gap {seq afterSeq : Int} {remains remains' : Prop}
    (hlt : afterSeq < seq) {wire : List SocketFrame}
    (hgap : SocketFrame.gap afterSeq ∈ wire) (h : Covered seq remains wire) :
    Covered seq remains' wire := by
  induction wire with
  | nil => exact absurd hgap List.not_mem_nil
  | cons f rest ih =>
      cases f with
      | message m =>
          have hrest : SocketFrame.gap afterSeq ∈ rest := by
            simpa using hgap
          exact ⟨h.1, ih hrest h.2⟩
      | gap first =>
          rcases List.mem_cons.mp hgap with heq | hrest
          · cases heq
            exact Or.inl hlt
          · exact h.imp_right (ih hrest)

/-- A number after all that is still to be read. -/
theorem covered_of_messages {seq : Int} {remains : Prop} (hrem : remains)
    {wire : List SocketFrame}
    (hall : ∀ w, SocketFrame.message w ∈ wire → w.seq < seq) :
    Covered seq remains wire := by
  induction wire with
  | nil => exact hrem
  | cons f rest ih =>
      have hrest := ih fun w hw => hall w (List.mem_cons_of_mem f hw)
      cases f with
      | message m => exact ⟨hall m List.mem_cons_self, hrest⟩
      | gap afterSeq => exact Or.inr hrest

/-! ### The invariant -/

/-- Numbers that the client and the daemon keep are those of messages that
were written, or the baseline; and what is owed is promised. -/
structure Accounted (c : ChannelClient) : Prop where
  seen : ∀ seq, c.maxSeen = some seq → ∃ w ∈ c.written, w.seq = seq
  onWire : ∀ w, SocketFrame.message w ∈ c.wire → w ∈ c.written
  seeded : ∀ sub seq, c.sub = some sub → sub.lastSeq = some seq →
    (∃ w ∈ c.written, w.seq = seq) ∨ c.baseline.map Int.ofNat = some seq
  promised : ∀ m, c.Owes m → Promised c m.seq

theorem accounted_start (baseline : Option Nat) :
    Accounted (ChannelClient.start baseline) where
  seen := nofun
  onWire := fun _ hw => absurd hw List.not_mem_nil
  seeded := nofun
  promised := fun _ howes => absurd howes.missed List.not_mem_nil

section Step

variable {highWaterMark : Nat} {mute : String → Bool} {c : ChannelClient}

/-- A gap that is sent covers what the daemon owed. -/
theorem promised_flush {queued : Nat} {sub : Subscriber} {seq : Int}
    (hpromised : Promised { c with sub := some sub } seq) :
    Promised (flushPending highWaterMark queued c sub) seq := by
  unfold flushPending
  split
  · exact hpromised
  · split
    · exact hpromised
    · refine ⟨hpromised.attached, hpromised.resumes, ?_⟩
      apply (covered_append _ _).mpr
      apply hpromised.covered.mono
      intro hpending
      exact Or.inl (hpending sub rfl).2

theorem flush_fields (highWaterMark queued : Nat) (c : ChannelClient)
    (sub : Subscriber) :
    (flushPending highWaterMark queued c sub).baseline = c.baseline ∧
    (flushPending highWaterMark queued c sub).maxSeen = c.maxSeen ∧
    (flushPending highWaterMark queued c sub).written = c.written ∧
    (flushPending highWaterMark queued c sub).missed = c.missed := by
  unfold flushPending
  split
  · exact ⟨rfl, rfl, rfl, rfl⟩
  · split <;> exact ⟨rfl, rfl, rfl, rfl⟩

theorem message_mem_flush {queued : Nat} {sub : Subscriber} {w : Message}
    (hw : SocketFrame.message w ∈
      (flushPending highWaterMark queued c sub).wire) :
    SocketFrame.message w ∈ c.wire := by
  unfold flushPending at hw
  split at hw
  · exact hw
  · split at hw
    · exact hw
    · simpa using hw

theorem lastSeq_flush {queued : Nat} {sub sub' : Subscriber}
    (hsub : (flushPending highWaterMark queued c sub).sub = some sub') :
    sub'.lastSeq = sub.lastSeq := by
  unfold flushPending at hsub
  split at hsub
  · cases hsub
    rfl
  · split at hsub <;> cases hsub <;> rfl

theorem Owes.of_flush {queued : Nat} {sub : Subscriber} {m : Message}
    (howes : (flushPending highWaterMark queued c sub).Owes m) : c.Owes m := by
  obtain ⟨hbase, -, hwritten, hmissed⟩ :=
    flush_fields highWaterMark queued c sub
  refine ⟨hmissed ▸ howes.missed, ?_, hwritten ▸ howes.unwritten⟩
  have habove := howes.above
  unfold ChannelClient.above at habove ⊢
  rwa [hbase] at habove

/-- Step: what is pending is flushed. -/
theorem accounted_flush {queued : Nat} {sub : Subscriber}
    (hinv : Accounted { c with sub := some sub }) :
    Accounted (flushPending highWaterMark queued c sub) := by
  obtain ⟨hbase, hseen, hwritten, -⟩ :=
    flush_fields highWaterMark queued c sub
  constructor
  · intro seq hseq
    rw [hseen] at hseq
    rw [hwritten]
    exact hinv.seen seq hseq
  · intro w hw
    rw [hwritten]
    exact hinv.onWire w (message_mem_flush hw)
  · intro sub' seq hsub hlast
    rw [lastSeq_flush hsub] at hlast
    rw [hwritten, hbase]
    exact hinv.seeded sub seq rfl hlast
  · intro m howes
    have howed := Owes.of_flush howes
    exact promised_flush (hinv.promised m ⟨howed.missed, howed.above,
      howed.unwritten⟩)

/-- Step: a message is written. -/
theorem accounted_write {after : Nat} {sub : Subscriber} {m : Message}
    (hinv : Accounted c) (hsub : c.sub = some sub)
    (horder : ∀ m', c.Owes m' → m' ≠ m →
      (∃ afterSeq, SocketFrame.gap afterSeq ∈ c.wire ∧ afterSeq < m'.seq) ∨
        m.seq < m'.seq) :
    Accounted (writeMessage highWaterMark after c sub m) := by
  unfold writeMessage
  apply accounted_flush
  constructor
  · intro seq hseq
    obtain ⟨w, hw, heq⟩ := hinv.seen seq hseq
    exact ⟨w, List.mem_append_left _ hw, heq⟩
  · intro w hw
    rcases List.mem_append.mp hw with hold | hnew
    · exact List.mem_append_left _ (hinv.onWire w hold)
    · rw [List.mem_singleton, SocketFrame.message.injEq] at hnew
      exact List.mem_append_right _ (List.mem_singleton.mpr hnew)
  · intro sub' seq hsub' hlast
    cases hsub'
    cases hlast
    exact Or.inl ⟨m, List.mem_append_right _ (List.mem_singleton_self m), rfl⟩
  · intro m' howes
    have hne : m' ≠ m := by
      rintro rfl
      exact howes.unwritten (List.mem_append_right _
        (List.mem_singleton_self m'))
    have howed : c.Owes m' := ⟨howes.missed, howes.above,
      fun hw => howes.unwritten (List.mem_append_left _ hw)⟩
    have hpromised := hinv.promised m' howed
    refine ⟨hpromised.attached, hpromised.resumes, ?_⟩
    apply (covered_append _ _).mpr
    rcases horder m' howed hne with ⟨afterSeq, hgap, hlt⟩ | hlt
    · exact covered_of_gap hlt hgap hpromised.covered
    · apply hpromised.covered.mono
      intro hpending
      refine ⟨hlt, ?_⟩
      intro sub' hsub'
      cases hsub'
      exact ⟨(hpending sub hsub).1, hlt⟩

/-- Step: the daemon closes the connection. -/
theorem accounted_serverClose (hinv : Accounted c) :
    Accounted { c with sub := none } where
  seen := hinv.seen
  onWire := hinv.onWire
  seeded := nofun
  promised := by
    intro m howes
    have hpromised := hinv.promised m ⟨howes.missed, howes.above,
      howes.unwritten⟩
    exact ⟨hpromised.attached, hpromised.resumes,
      hpromised.covered.mono fun _ => nofun⟩

/-- Step: a write is skipped. -/
theorem accounted_skip {sub : Subscriber} (hinv : Accounted c)
    (hsub : c.sub = some sub) :
    Accounted
      { c with sub := some { sub with dropped := sub.dropped + 1 } } where
  seen := hinv.seen
  onWire := hinv.onWire
  seeded := by
    intro sub' seq hsub' hlast
    cases hsub'
    exact hinv.seeded sub seq hsub hlast
  promised := by
    intro m howes
    have hpromised := hinv.promised m ⟨howes.missed, howes.above,
      howes.unwritten⟩
    refine ⟨hpromised.attached, hpromised.resumes,
      hpromised.covered.mono ?_⟩
    intro hpending sub' hsub'
    cases hsub'
    exact ⟨Nat.succ_pos _, (hpending sub hsub).2⟩

/-- A message after all that was written, and above the baseline, lies after
what the daemon and the client keep. -/
theorem promised_of_after {m : Message} (hinv : Accounted c)
    (hattached : c.attachedOnce = true) (habove : c.above m)
    (hafter : ∀ w ∈ c.written, w.seq < m.seq)
    (hdropped : ∀ sub, c.sub = some sub → 0 < sub.dropped) :
    Promised c m.seq := by
  obtain ⟨b, hb, hlt⟩ := habove
  have hbase : ∀ seq, c.baseline.map Int.ofNat = some seq → seq < m.seq := by
    intro seq hseq
    rw [hb] at hseq
    cases hseq
    exact hlt
  refine ⟨hattached, ?_, ?_⟩
  · intro since hsince
    unfold ChannelClient.sinceSeq at hsince
    rcases Option.or_eq_some_iff.mp hsince with hseen | ⟨-, hseq⟩
    · obtain ⟨w, hw, heq⟩ := hinv.seen since hseen
      have hless := hafter w hw
      omega
    · exact hbase since hseq
  · apply covered_of_messages
    · intro sub hsub
      refine ⟨hdropped sub hsub, ?_⟩
      cases hlast : sub.lastSeq with
      | none =>
          show (0 : Int) < m.seq
          omega
      | some seq =>
          rcases hinv.seeded sub seq hsub hlast with ⟨w, hw, heq⟩ | hseq
          · have hless := hafter w hw
            show seq < m.seq
            omega
          · exact hbase seq hseq
    · intro w hw
      exact hafter w (hinv.onWire w hw)

/-- A message that was not written when it was fanned out goes to the account.
-/
theorem accounted_missed {m : Message} (hinv : Accounted c)
    (hnew : c.above m → m ∉ c.written → Promised c m.seq) :
    Accounted { c with missed := c.missed ++ [m] } where
  seen := hinv.seen
  onWire := hinv.onWire
  seeded := hinv.seeded
  promised := by
    intro m' howes
    have hpromised : Promised c m'.seq := by
      rcases List.mem_append.mp howes.missed with hold | hlast
      · exact hinv.promised m' ⟨hold, howes.above, howes.unwritten⟩
      · rw [List.mem_singleton] at hlast
        subst hlast
        exact hnew howes.above howes.unwritten
    exact ⟨hpromised.attached, hpromised.resumes, hpromised.covered⟩

/-- What a message that may be seen comes to: there is no connection, or it is
closed, or the write is skipped, or the message is written. -/
theorem deliverTo_cases (highWaterMark queued after : Nat)
    (c : ChannelClient) (m : Message) :
    (c.writes highWaterMark queued = false ∧
      (deliverTo highWaterMark queued after c m = { c with sub := none } ∨
        ∃ sub, c.sub = some sub ∧
          deliverTo highWaterMark queued after c m =
            { c with sub := some { sub with dropped := sub.dropped + 1 } })) ∨
    (c.writes highWaterMark queued = true ∧ ∃ sub, c.sub = some sub ∧
      deliverTo highWaterMark queued after c m =
        writeMessage highWaterMark after c sub m) := by
  unfold deliverTo ChannelClient.writes
  cases hsub : c.sub with
  | none =>
      refine Or.inl ⟨rfl, Or.inl ?_⟩
      show c = { c with sub := none }
      rw [← hsub]
  | some sub =>
      simp only [Option.isSome_some, Bool.true_and]
      by_cases hwedged : queued > highWaterMark * 4
      · rw [if_pos hwedged]
        refine Or.inl ⟨decide_eq_false ?_, Or.inl rfl⟩
        omega
      · rw [if_neg hwedged]
        by_cases hover : queued > highWaterMark
        · rw [if_pos hover]
          exact Or.inl ⟨decide_eq_false (by omega), Or.inr ⟨sub, rfl, rfl⟩⟩
        · rw [if_neg hover]
          exact Or.inr ⟨decide_eq_true (by omega), sub, rfl, rfl⟩

/-- Step: a message is fanned out. -/
theorem accounted_fanOut {m : Message} {rooms : String → Option RoomState}
    {archived : Bool} {queued after : Nat} (hinv : Accounted c)
    (horder : KeepsOrder highWaterMark mute c
      (.fanOut m rooms archived queued after)) :
    Accounted (channelStep highWaterMark mute c
      (.fanOut m rooms archived queued after)) := by
  unfold channelStep
  simp only
  by_cases hgate : pushGate rooms mute m = true
  · rw [hgate]
    simp only [Bool.not_true, Bool.false_eq_true, if_false]
    obtain ⟨hwrite, hskip⟩ := horder hgate
    rcases deliverTo_cases highWaterMark queued after c m
      with ⟨hnot, hunwritten⟩ | ⟨hwrites, sub, hsub, heq⟩
    · rw [hnot, Bool.not_false, Bool.and_true]
      -- whatever became of the connection, what was not written is promised
      have hboth : Accounted (deliverTo highWaterMark queued after c m) ∧
          (archived = true → c.above m → m ∉ c.written →
            Promised (deliverTo highWaterMark queued after c m) m.seq) ∧
          (deliverTo highWaterMark queued after c m).baseline = c.baseline ∧
          (deliverTo highWaterMark queued after c m).written = c.written := by
        rcases hunwritten with heq | ⟨sub, hsub, heq⟩
        · rw [heq]
          refine ⟨accounted_serverClose hinv, ?_, rfl, rfl⟩
          intro harchived habove hnew
          obtain ⟨hattached, hafter⟩ := hskip hnot harchived habove hnew
          exact promised_of_after (accounted_serverClose hinv) hattached habove
            hafter nofun
        · rw [heq]
          refine ⟨accounted_skip hinv hsub, ?_, rfl, rfl⟩
          intro harchived habove hnew
          obtain ⟨hattached, hafter⟩ := hskip hnot harchived habove hnew
          apply promised_of_after (accounted_skip hinv hsub) hattached habove
            hafter
          intro sub' hsub'
          cases hsub'
          exact Nat.succ_pos _
      obtain ⟨hinv', hpromised, hbase, hwritten⟩ := hboth
      split
      · rename_i harchived
        apply accounted_missed hinv'
        intro habove hnew
        apply hpromised harchived
        · unfold ChannelClient.above at habove ⊢
          rwa [hbase] at habove
        · rwa [hwritten] at hnew
      · exact hinv'
    · rw [hwrites, Bool.not_true, Bool.and_false, heq]
      exact accounted_write hinv hsub (hwrite hwrites)
  · rw [Bool.eq_false_iff.mpr hgate]
    exact hinv

/-- Step: the client attaches. -/
theorem accounted_attach (hinv : Accounted c) :
    Accounted (attachClient c) := by
  unfold attachClient
  by_cases hup : c.up = true
  · rw [if_pos hup]
    exact hinv
  · rw [if_neg hup]
    constructor
    · exact hinv.seen
    · intro w hw
      obtain ⟨seq, -, heq⟩ := Option.map_eq_some_iff.mp (Option.mem_toList.mp hw)
      cases heq
    · intro sub seq hsub hlast
      cases hsub
      simp only at hlast
      split at hlast
      · unfold ChannelClient.sinceSeq at hlast
        rcases Option.or_eq_some_iff.mp hlast with hseen | ⟨-, hseq⟩
        · exact Or.inl (hinv.seen seq hseen)
        · exact Or.inr hseq
      · cases hlast
    · intro m howes
      have hpromised := hinv.promised m ⟨howes.missed, howes.above,
        howes.unwritten⟩
      refine ⟨rfl, hpromised.resumes, ?_⟩
      rw [if_pos hpromised.attached]
      obtain ⟨b, hb, hlt⟩ := howes.above
      -- above a baseline there always is something to resume from
      obtain ⟨since, hsince⟩ : ∃ since, c.sinceSeq = some since := by
        unfold ChannelClient.sinceSeq
        have hb' : c.baseline = some b := hb
        rw [hb']
        cases c.maxSeen with
        | none => exact ⟨_, rfl⟩
        | some seen => exact ⟨seen, rfl⟩
      rw [hsince]
      exact Or.inl (hpromised.resumes since hsince)

/-- Step: the client reads a frame. -/
theorem accounted_read (hinv : Accounted c) : Accounted (readFrame c) := by
  unfold readFrame
  split
  · exact hinv
  · rename_i m rest hwire
    have hm : m ∈ c.written := by
      apply hinv.onWire
      rw [hwire]
      exact List.mem_cons_self
    constructor
    · intro seq hseq
      cases hmax : c.maxSeen with
      | none =>
          rw [hmax, Option.some.injEq] at hseq
          exact ⟨m, hm, hseq⟩
      | some seen =>
          rw [hmax, Option.some.injEq] at hseq
          simp only at hseq
          rcases max_cases seen m.seq with ⟨hle, -⟩ | ⟨hle, -⟩
          · exact hinv.seen seq (by rw [hmax, ← hseq, hle])
          · exact ⟨m, hm, by rw [← hseq, hle]⟩
    · intro w hw
      apply hinv.onWire
      rw [hwire]
      exact List.mem_cons_of_mem _ hw
    · exact hinv.seeded
    · intro m' howes
      have hpromised := hinv.promised m' ⟨howes.missed, howes.above,
        howes.unwritten⟩
      have hcovered := hpromised.covered
      rw [hwire] at hcovered
      refine ⟨hpromised.attached, ?_, hcovered.2⟩
      intro since hsince
      have hlt : m.seq < m'.seq := hcovered.1
      unfold ChannelClient.sinceSeq at hsince
      simp only [Option.some_or, Option.some.injEq] at hsince
      have hresumes := hpromised.resumes
      unfold ChannelClient.sinceSeq at hresumes
      cases hmax : c.maxSeen with
      | none =>
          rw [hmax] at hsince
          simp only at hsince
          omega
      | some seen =>
          rw [hmax] at hsince hresumes
          have hseen : seen < m'.seq := hresumes seen rfl
          simp only at hsince
          omega
  · rename_i afterSeq rest hwire
    constructor
    · exact hinv.seen
    · intro w hw
      apply hinv.onWire
      rw [hwire]
      exact List.mem_cons_of_mem _ hw
    · exact hinv.seeded
    · intro m howes
      have hkept := List.mem_filter.mp howes.missed
      have hpromised := hinv.promised m ⟨hkept.1, howes.above,
        howes.unwritten⟩
      have hcovered := hpromised.covered
      rw [hwire] at hcovered
      have hnot : ¬ afterSeq < m.seq := by simpa using hkept.2
      exact ⟨hpromised.attached, hpromised.resumes,
        hcovered.resolve_left hnot⟩

/-- Step: the client loses the connection. -/
theorem accounted_clientClose (hinv : Accounted c) :
    Accounted { c with up := false, sub := none, wire := [] } where
  seen := hinv.seen
  onWire := fun _ hw => absurd hw List.not_mem_nil
  seeded := nofun
  promised := by
    intro m howes
    have hpromised := hinv.promised m ⟨howes.missed, howes.above,
      howes.unwritten⟩
    exact ⟨hpromised.attached, hpromised.resumes, nofun⟩

/-- Step: every event that keeps the order. -/
theorem accounted_step {e : ChannelEvent} (hinv : Accounted c)
    (horder : KeepsOrder highWaterMark mute c e) :
    Accounted (channelStep highWaterMark mute c e) := by
  cases e with
  | fanOut m rooms archived queued after =>
      exact accounted_fanOut hinv horder
  | drain queued =>
      unfold channelStep
      cases hsub : c.sub with
      | none => exact hinv
      | some sub =>
          apply accounted_flush
          rw [← hsub]
          exact hinv
  | attach => exact accounted_attach hinv
  | read => exact accounted_read hinv
  | serverClose => exact accounted_serverClose hinv
  | clientClose => exact accounted_clientClose hinv

end Step

/-! ### The account -/

section Account

variable {highWaterMark : Nat} {mute : String → Bool}

/-- What is fanned out, archived and may be seen is written, or goes to the
account. -/
theorem written_or_missed (c : ChannelClient) {m : Message}
    {rooms : String → Option RoomState} (hgate : pushGate rooms mute m = true)
    (queued after : Nat) :
    m ∈ (channelStep highWaterMark mute c
        (.fanOut m rooms true queued after)).written ∨
      m ∈ (channelStep highWaterMark mute c
        (.fanOut m rooms true queued after)).missed := by
  unfold channelStep
  simp only [hgate, Bool.not_true, Bool.false_eq_true, if_false, Bool.true_and]
  rcases deliverTo_cases highWaterMark queued after c m with
    ⟨hnot, -⟩ | ⟨hwrites, sub, -, heq⟩
  · rw [hnot]
    exact Or.inr (List.mem_append_right _ (List.mem_singleton_self m))
  · rw [hwrites, heq]
    apply Or.inl
    simp only [Bool.not_true, Bool.false_eq_true, if_false]
    unfold writeMessage
    rw [(flush_fields _ _ _ _).2.2.1]
    exact List.mem_append_right _ (List.mem_singleton_self m)

/-- Nothing that a message comes to touches the account or the baseline, or
takes back what was written. -/
theorem deliverTo_fields (highWaterMark queued after : Nat)
    (c : ChannelClient) (m : Message) :
    (deliverTo highWaterMark queued after c m).baseline = c.baseline ∧
      (deliverTo highWaterMark queued after c m).missed = c.missed ∧
      c.written ⊆ (deliverTo highWaterMark queued after c m).written := by
  rcases deliverTo_cases highWaterMark queued after c m with
    ⟨-, heq | ⟨sub, -, heq⟩⟩ | ⟨-, sub, -, heq⟩
  · rw [heq]
    exact ⟨rfl, rfl, List.Subset.refl _⟩
  · rw [heq]
    exact ⟨rfl, rfl, List.Subset.refl _⟩
  · rw [heq]
    unfold writeMessage
    obtain ⟨hbase, -, hwritten, hmissed⟩ :=
      flush_fields highWaterMark after
        { c with
          wire := c.wire ++ [.message m]
          written := c.written ++ [m] }
        { sub with lastSeq := some m.seq }
    rw [hbase, hwritten, hmissed]
    exact ⟨rfl, rfl, List.subset_append_left _ _⟩

/-- Step: the baseline stays, what was written stays, and the account is
settled by a gap that is read, and by nothing else. -/
theorem account_step (highWaterMark : Nat) (mute : String → Bool)
    (c : ChannelClient) (e : ChannelEvent) :
    (channelStep highWaterMark mute c e).baseline = c.baseline ∧
      c.written ⊆ (channelStep highWaterMark mute c e).written ∧
      ∀ m ∈ c.missed, m ∈ (channelStep highWaterMark mute c e).missed ∨
        readsGap c e m.seq = true := by
  unfold channelStep
  cases e with
  | fanOut m rooms archived queued after =>
      simp only
      obtain ⟨hbase, hmissed, hwritten⟩ :=
        deliverTo_fields highWaterMark queued after c m
      split
      · exact ⟨rfl, List.Subset.refl _, fun _ hm' => Or.inl hm'⟩
      · split
        · refine ⟨hbase, hwritten, fun m' hm' => Or.inl ?_⟩
          rw [← hmissed] at hm'
          exact List.mem_append_left _ hm'
        · refine ⟨hbase, hwritten, fun m' hm' => Or.inl ?_⟩
          rwa [hmissed]
  | drain queued =>
      cases hsub : c.sub with
      | none => exact ⟨rfl, List.Subset.refl _, fun _ hm => Or.inl hm⟩
      | some sub =>
          obtain ⟨hbase, -, hwritten, hmissed⟩ :=
            flush_fields highWaterMark queued c sub
          simp only
          rw [hbase, hwritten, hmissed]
          exact ⟨rfl, List.Subset.refl _, fun _ hm => Or.inl hm⟩
  | attach =>
      unfold attachClient
      simp only
      split <;> exact ⟨rfl, List.Subset.refl _, fun _ hm => Or.inl hm⟩
  | read =>
      unfold readFrame readsGap
      simp only
      split
      · exact ⟨rfl, List.Subset.refl _, fun _ hm => Or.inl hm⟩
      · exact ⟨rfl, List.Subset.refl _, fun _ hm => Or.inl hm⟩
      · rename_i afterSeq rest hwire
        refine ⟨rfl, List.Subset.refl _, fun m hm => ?_⟩
        rw [hwire]
        by_cases hlt : afterSeq < m.seq
        · exact Or.inr (decide_eq_true hlt)
        · exact Or.inl (List.mem_filter.mpr ⟨hm, decide_eq_true hlt⟩)
  | serverClose => exact ⟨rfl, List.Subset.refl _, fun _ hm => Or.inl hm⟩
  | clientClose => exact ⟨rfl, List.Subset.refl _, fun _ hm => Or.inl hm⟩

/-- Run: the same over all events. -/
theorem account_run (highWaterMark : Nat) (mute : String → Bool)
    (c : ChannelClient) (events : List ChannelEvent) :
    (Trace.run (channelStep highWaterMark mute) c events).baseline =
        c.baseline ∧
      c.written ⊆
        (Trace.run (channelStep highWaterMark mute) c events).written ∧
      ∀ m ∈ c.missed,
        m ∈ (Trace.run (channelStep highWaterMark mute) c events).missed ∨
          receivesGap highWaterMark mute c events m.seq = true := by
  induction events generalizing c with
  | nil => exact ⟨rfl, List.Subset.refl _, fun _ hm => Or.inl hm⟩
  | cons e rest ih =>
      obtain ⟨hbase, hwritten, hmissed⟩ := account_step highWaterMark
        mute c e
      obtain ⟨hbase', hwritten', hmissed'⟩ :=
        ih (channelStep highWaterMark mute c e)
      rw [Trace.run_cons]
      refine ⟨hbase'.trans hbase, List.Subset.trans hwritten hwritten', ?_⟩
      intro m hm
      unfold receivesGap
      rw [Bool.or_eq_true]
      rcases hmissed m hm with hstill | hreads
      · rcases hmissed' m hstill with hlast | hlater
        · exact Or.inl hlast
        · exact Or.inr (Or.inr hlater)
      · exact Or.inr (Or.inl hreads)

end Account

/-- A client at rest is owed nothing. -/
theorem not_owes_of_rests {c : ChannelClient} (hinv : Accounted c)
    (hrests : c.Rests) (m : Message) : ¬ c.Owes m := by
  intro howes
  have hcovered := (hinv.promised m howes).covered
  rw [hrests.drained] at hcovered
  obtain ⟨sub, hsub, hdropped⟩ := hrests.connected
  have hpending := (hcovered sub hsub).1
  omega

/-- A client that comes back and reads the gap it is sent is at rest. -/
theorem rests_reattach (highWaterMark : Nat) (mute : String → Bool)
    (c : ChannelClient) :
    (Trace.run (channelStep highWaterMark mute) c
      [.clientClose, .attach, .read]).Rests := by
  rw [Trace.run_cons, Trace.run_cons, Trace.run_cons, Trace.run_nil]
  unfold channelStep
  simp only
  unfold attachClient
  simp only [Bool.false_eq_true, if_false]
  unfold readFrame
  cases hresume : (if c.attachedOnce = true then
      ({ c with up := false, sub := none, wire := [] } :
        ChannelClient).sinceSeq else none) with
  | none => exact ⟨⟨_, rfl, rfl⟩, rfl⟩
  | some since => exact ⟨⟨_, rfl, rfl⟩, rfl⟩

/-- **At least once.** Over a run whose events keep the order: wherever the
client is at rest, each message that was fanned out, archived, above the
baseline and may be seen was written to a connection of the client, or the
client has read, since it was fanned out, a gap in which it lies. From
everywhere in the run the client can come to rest, by coming back. -/
theorem channel_gaps_cover (highWaterMark : Nat) (mute : String → Bool)
    (baseline : Option Nat) (events : List ChannelEvent)
    (hmeets : Trace.Meets (channelStep highWaterMark mute)
      (KeepsOrder highWaterMark mute) (.start baseline) events) :
    (∀ earlier m rooms queued after later, events =
        earlier ++ .fanOut m rooms true queued after :: later →
      pushGate rooms mute m = true →
      (∃ b, baseline = some b ∧ (b : Int) < m.seq) →
      (Trace.run (channelStep highWaterMark mute) (.start baseline)
        events).Rests →
      m ∈ (Trace.run (channelStep highWaterMark mute) (.start baseline)
        events).written ∨
      receivesGap highWaterMark mute
        (Trace.run (channelStep highWaterMark mute) (.start baseline)
          (earlier ++ [.fanOut m rooms true queued after])) later m.seq =
        true) ∧
    (Trace.run (channelStep highWaterMark mute) (.start baseline)
      (events ++ [.clientClose, .attach, .read])).Rests ∧
    Trace.Meets (channelStep highWaterMark mute)
      (KeepsOrder highWaterMark mute) (.start baseline)
      (events ++ [.clientClose, .attach, .read]) := by
  refine ⟨?_, ?_, ?_⟩
  · intro earlier m rooms queued after later hevents hgate habove hrests
    have hinv : Accounted (Trace.run (channelStep highWaterMark mute)
        (.start baseline) events) :=
      Trace.run_inv_of_meets Accounted
        (fun s e hs he => accounted_step hs he) (accounted_start baseline)
        hmeets
    obtain ⟨hbase, -, -⟩ := account_run highWaterMark mute (.start baseline)
      events
    have hsplit : events =
        (earlier ++ [.fanOut m rooms true queued after]) ++ later := by
      rw [hevents, List.append_assoc]
      rfl
    have hfanned : m ∈ (Trace.run (channelStep highWaterMark mute)
          (.start baseline)
          (earlier ++ [.fanOut m rooms true queued after])).written ∨
        m ∈ (Trace.run (channelStep highWaterMark mute) (.start baseline)
          (earlier ++ [.fanOut m rooms true queued after])).missed := by
      rw [Trace.run_append, Trace.run_cons, Trace.run_nil]
      exact written_or_missed _ hgate queued after
    obtain ⟨-, hwritten, hmissed⟩ := account_run highWaterMark mute
      (Trace.run (channelStep highWaterMark mute) (.start baseline)
        (earlier ++ [.fanOut m rooms true queued after])) later
    rw [← Trace.run_append, ← hsplit] at hwritten hmissed
    rcases hfanned with hnow | hlater
    · exact Or.inl (hwritten hnow)
    · rcases hmissed m hlater with hstill | hgap
      · apply Or.inl
        by_contra hunwritten
        apply not_owes_of_rests hinv hrests m
        refine ⟨hstill, ?_, hunwritten⟩
        unfold ChannelClient.above
        rw [hbase]
        exact habove
      · exact Or.inr hgap
  · rw [Trace.run_append]
    exact rests_reattach highWaterMark mute _
  · rw [Trace.meets_append]
    exact ⟨hmeets, trivial, trivial, trivial, trivial⟩

/-! ## A message between two others -/

/-- A message from a pinned sender. -/
def channelMail (seq : Int) : Message where
  seq := seq
  fromDid := "did:founder"
  contact := some "founder"
  envelopeId := "envelope"
  receivedAt := "now"
  verified := true
  encrypted := true
  roomId := none
  inReplyTo := none
  toDid := none
  drift := false
  keyChanged := false
  verifyNote := none
  system := none
  body := some (.plain "hello")
  threadId := none

/-- It is archived and fanned out, with what is queued before and after. -/
def fanMail (seq : Int) (queued after : Nat) : ChannelEvent :=
  .fanOut (channelMail seq) (fun _ => none) true queued after

/-- No one is muted. -/
def nobody : String → Bool := fun _ => false

/-- The second message is skipped, the socket drains, and the client reads the
gap. -/
def drainedRun : List ChannelEvent :=
  [.attach, fanMail 1 0 0, fanMail 2 2 0, .drain 0, .read, .read]

theorem drainedRun_keepsOrder :
    Trace.Meets (channelStep 1 nobody) (KeepsOrder 1 nobody)
      (.start (some 0)) drainedRun := by
  refine ⟨trivial, fun _ => ⟨fun _ m' howes => ?_, nofun⟩,
    fun _ => ⟨nofun, fun _ _ _ _ => ⟨rfl, fun w hw => ?_⟩⟩, trivial, trivial,
    trivial, trivial⟩
  · exact absurd howes.missed List.not_mem_nil
  · rw [List.mem_singleton.mp hw]
    decide

theorem channel_gaps_cover_sample :
    channelMail 2 ∈ (Trace.run (channelStep 1 nobody) (.start (some 0))
        drainedRun).written ∨
      receivesGap 1 nobody
        (Trace.run (channelStep 1 nobody) (.start (some 0))
          [.attach, fanMail 1 0 0, fanMail 2 2 0]) [.drain 0, .read, .read] 2 =
        true :=
  (channel_gaps_cover 1 nobody (some 0) drainedRun drainedRun_keepsOrder).1
    [.attach, fanMail 1 0 0] (channelMail 2) (fun _ => none) 2 0
    [.drain 0, .read, .read] rfl (by decide) ⟨0, rfl, by decide⟩
    ⟨⟨_, rfl, rfl⟩, rfl⟩

/-- The second message is skipped and the third one written before its gap is
sent: the gap comes after the third. -/
def slowRun : List ChannelEvent :=
  [.attach, fanMail 1 0 0, fanMail 2 2 0, fanMail 3 1 1, .read, .read, .read]

/-- The client has read everything, no gap is owed, and the second message was
neither written, nor does it lie in a gap that the client has read. -/
theorem channel_gap_misses :
    pushGate (fun _ => none) nobody (channelMail 2) = true ∧
    (Trace.run (channelStep 1 nobody) (.start (some 0)) slowRun).Rests ∧
    (Trace.run (channelStep 1 nobody) (.start (some 0)) slowRun).written =
      [channelMail 1, channelMail 3] ∧
    (channelMail 2 ∉ [channelMail 1, channelMail 3]) ∧
    receivesGap 1 nobody
      (Trace.run (channelStep 1 nobody) (.start (some 0))
        [.attach, fanMail 1 0 0, fanMail 2 2 0])
      [fanMail 3 1 1, .read, .read, .read] 2 = false ∧
    (Trace.run (channelStep 1 nobody) (.start (some 0))
      [.attach, fanMail 1 0 0, fanMail 2 2 0, fanMail 3 1 1]).wire =
      [.message (channelMail 1), .message (channelMail 3), .gap 3] :=
  ⟨by decide, ⟨⟨_, rfl, rfl⟩, rfl⟩, rfl, by decide, by decide, rfl⟩

end AirNote
