import AirNote.EditedNote
import AirNote.Pending
import AirNote.Lib.Trace

/-!
# The engine transport

The app talks to the daemon over one socket it keeps. A call takes the lock,
writes its request on the connection it finds and reads one response. Where
that fails, be it in writing, in reading, in waiting or in decoding, the
connection is dropped, a new one is made and the request is written once
more; a second failure is an error. A call that finds no connection makes one
and has the one attempt.

The daemon serves each connection by itself: a request frame that arrived
whole is served whenever the daemon gets to it, also when the app has dropped
the connection in the meantime, or never, when the daemon dies first. So the
frames and the responses under way belong to connections, and what was served
is kept with the call it was written for. A call is marked as retried when its
first attempt failed after the whole request was written.

## Main results

* `engine_request_bound` — a request is served at most once, or twice if its
  call was retried, and a response is the daemon's to the request of the call
  it is returned to.
* `engine_request_doubled` — a note remembered twice.
-/

namespace AirNote

open Lib

section Transport

variable {σ Req Resp : Type}

/-- A request frame on a connection, with the call that wrote it. -/
structure EngineFrame (Req : Type) where
  link : Nat
  call : Nat
  req : Req

/-- A request served: for which call, in which state, with which response. -/
structure Served (σ Req Resp : Type) where
  call : Nat
  req : Req
  before : σ
  resp : Resp

/-- Where `request` is: no call holds the lock; the first attempt, over the
connection kept; making a connection; the attempt over that. An attempt has
the request written or not. -/
inductive TransportPhase (Req : Type) where
  | idle
  | first (req : Req) (link : Nat) (sent : Bool)
  | connecting (req : Req)
  | second (req : Req) (link : Nat) (sent : Bool)

/-- `SocketTransport`, the connections and the daemon. -/
structure SocketTransport (σ Req Resp : Type) where
  engine : σ
  opened : Nat
  frames : List (EngineFrame Req)
  responses : Nat → Option (Nat × Resp)
  conn : Option Nat
  phase : TransportPhase Req
  calls : List Req
  served : List (Served σ Req Resp)
  returned : List (Nat × Option Resp)
  retried : List Nat

/-- Nothing is connected. -/
def SocketTransport.start (engine : σ) : SocketTransport σ Req Resp :=
  { engine := engine
    opened := 0
    frames := []
    responses := fun _ => none
    conn := none
    phase := .idle
    calls := []
    served := []
    returned := []
    retried := [] }

/-- What happens next: a call gets the lock; the request is written or not;
the daemon serves a frame under way, or goes before it does; the response is
read; reading fails, waiting ends or nothing can be decoded; a connection is
made or not. -/
inductive TransportEvent (Req : Type) where
  | request (req : Req)
  | write (ok : Bool)
  | dispatch (frame : Nat)
  | lose (frame : Nat)
  | read
  | fail
  | connect (ok : Bool)

/-- The call that holds the lock, or held it last. -/
def SocketTransport.call (s : SocketTransport σ Req Resp) : Nat :=
  s.calls.length - 1

/-- The call returns. -/
def SocketTransport.return (s : SocketTransport σ Req Resp)
    (conn : Option Nat) (result : Option Resp) :
    SocketTransport σ Req Resp :=
  { s with
    conn := conn
    phase := .idle
    returned := s.returned ++ [(s.call, result)] }

/-- The request is written on a connection. -/
def SocketTransport.write (s : SocketTransport σ Req Resp) (req : Req)
    (link : Nat) (phase : TransportPhase Req) : SocketTransport σ Req Resp :=
  { s with
    frames := s.frames ++ [⟨link, s.call, req⟩]
    phase := phase }

/-- The first attempt failed, before the whole request was written or
after. -/
def SocketTransport.reconnect (s : SocketTransport σ Req Resp) (req : Req)
    (sent : Bool) : SocketTransport σ Req Resp :=
  { s with
    conn := none
    phase := .connecting req
    retried := if sent then s.retried ++ [s.call] else s.retried }

/-- `serve_connection` answers a frame on its connection. -/
def SocketTransport.serve (dispatch : σ → Req → σ × Resp)
    (s : SocketTransport σ Req Resp) (frame : EngineFrame Req)
    (frames : List (EngineFrame Req)) : SocketTransport σ Req Resp :=
  let r := dispatch s.engine frame.req
  { s with
    engine := r.1
    frames := frames
    responses := Function.update s.responses frame.link
      (some (frame.call, r.2))
    served := s.served ++ [⟨frame.call, frame.req, s.engine, r.2⟩] }

/-- The response on a connection is taken. -/
def SocketTransport.take (s : SocketTransport σ Req Resp) (link : Nat) :
    SocketTransport σ Req Resp :=
  { s with responses := Function.update s.responses link none }

/-- One event; one that cannot happen changes nothing. -/
def SocketTransport.step (dispatch : σ → Req → σ × Resp)
    (s : SocketTransport σ Req Resp) :
    TransportEvent Req → SocketTransport σ Req Resp
  | .request req =>
      match s.phase with
      | .idle =>
          { s with
            calls := s.calls ++ [req]
            phase := match s.conn with
              | some link => .first req link false
              | none => .connecting req }
      | _ => s
  | .write ok =>
      match s.phase with
      | .first req link false =>
          if ok then s.write req link (.first req link true)
          else s.reconnect req false
      | .second req link false =>
          if ok then s.write req link (.second req link true)
          else s.return none none
      | _ => s
  | .dispatch frame =>
      match s.frames[frame]? with
      | some f => s.serve dispatch f (s.frames.eraseIdx frame)
      | none => s
  | .lose frame => { s with frames := s.frames.eraseIdx frame }
  | .read =>
      match s.phase with
      | .first _ link true =>
          match s.responses link with
          | some (_, resp) => (s.take link).return (some link) (some resp)
          | none => s
      | .second _ link true =>
          match s.responses link with
          | some (_, resp) => (s.take link).return (some link) (some resp)
          | none => s
      | _ => s
  | .fail =>
      match s.phase with
      | .first req _ sent => s.reconnect req sent
      | .second _ _ _ => s.return none none
      | _ => s
  | .connect ok =>
      match s.phase with
      | .connecting req =>
          if ok then
            { s with
              opened := s.opened + 1
              phase := .second req s.opened false }
          else s.return none none
      | _ => s

/-! ## What is bounded -/

/-- How often the request of a call was served. -/
def SocketTransport.servings (s : SocketTransport σ Req Resp) (call : Nat) :
    Nat :=
  s.served.countP fun e => e.call == call

/-- What was returned to a call is what the daemon answered to its
request. -/
def SocketTransport.Answered (dispatch : σ → Req → σ × Resp)
    (s : SocketTransport σ Req Resp) : Prop :=
  ∀ call resp, (call, some resp) ∈ s.returned →
    ∃ e ∈ s.served, e.call = call ∧ s.calls[call]? = some e.req ∧
      e.resp = resp ∧ resp = (dispatch e.before e.req).2

/-- A second serving of the request changes nothing. -/
def Repeatable (dispatch : σ → Req → σ × Resp) (req : Req) : Prop :=
  ∀ engine, (dispatch (dispatch engine req).1 req).1 =
    (dispatch engine req).1

/-! ## What one event can do -/

/-- The connection of the call that runs, or the one kept for the next, with
whether a request is written on it. -/
def SocketTransport.link? (s : SocketTransport σ Req Resp) :
    Option (Nat × Bool) :=
  match s.phase with
  | .idle => s.conn.map fun link => (link, false)
  | .first _ link sent => some (link, sent)
  | .connecting _ => none
  | .second _ link sent => some (link, sent)

/-- The request of the call that runs. -/
def TransportPhase.req? : TransportPhase Req → Option Req
  | .idle => none
  | .first req _ _ => some req
  | .connecting req => some req
  | .second req _ _ => some req

/-- What an event leads to, with what is known of the phase it finds. -/
inductive TransportMove (dispatch : σ → Req → σ × Resp)
    (s : SocketTransport σ Req Resp) : SocketTransport σ Req Resp → Prop where
  | idle : TransportMove dispatch s s
  | request (req : Req) (hphase : s.phase = .idle) :
      TransportMove dispatch s { s with
        calls := s.calls ++ [req]
        phase := match s.conn with
          | some link => .first req link false
          | none => .connecting req }
  | writeFirst (req : Req) (link : Nat)
      (hphase : s.phase = .first req link false) :
      TransportMove dispatch s (s.write req link (.first req link true))
  | writeSecond (req : Req) (link : Nat)
      (hphase : s.phase = .second req link false) :
      TransportMove dispatch s (s.write req link (.second req link true))
  | reconnect (req : Req) (link : Nat) (sent : Bool)
      (hphase : s.phase = .first req link sent) :
      TransportMove dispatch s (s.reconnect req sent)
  | connect (req : Req) (hphase : s.phase = .connecting req) :
      TransportMove dispatch s { s with
        opened := s.opened + 1
        phase := .second req s.opened false }
  | read (link : Nat) (r : Nat × Resp) (hphase : s.phase ≠ .idle)
      (hlink : s.link? = some (link, true)) (hr : s.responses link = some r) :
      TransportMove dispatch s ((s.take link).return (some link) (some r.2))
  | unavailable (hphase : s.phase ≠ .idle) :
      TransportMove dispatch s (s.return none none)
  | serve (i : Nat) (f : EngineFrame Req) (hf : s.frames[i]? = some f) :
      TransportMove dispatch s (s.serve dispatch f (s.frames.eraseIdx i))
  | lose (i : Nat) :
      TransportMove dispatch s { s with frames := s.frames.eraseIdx i }

/-- **What one event does.** -/
theorem transport_move (dispatch : σ → Req → σ × Resp)
    (s : SocketTransport σ Req Resp) (event : TransportEvent Req) :
    TransportMove dispatch s (s.step dispatch event) := by
  cases event with
  | request req =>
      cases hphase : s.phase with
      | idle =>
          simp only [SocketTransport.step, hphase]
          exact .request req hphase
      | first | connecting | second =>
          simp only [SocketTransport.step, hphase]
          exact .idle
  | write ok =>
      cases hphase : s.phase with
      | idle | connecting =>
          simp only [SocketTransport.step, hphase]
          exact .idle
      | first req link sent =>
          cases sent <;> cases ok <;>
            simp only [SocketTransport.step, hphase, if_true,
              Bool.false_eq_true, if_false]
          · exact .reconnect req link false hphase
          · exact .writeFirst req link hphase
          · exact .idle
          · exact .idle
      | second req link sent =>
          cases sent <;> cases ok <;>
            simp only [SocketTransport.step, hphase, if_true,
              Bool.false_eq_true, if_false]
          · exact .unavailable (by simp [hphase])
          · exact .writeSecond req link hphase
          · exact .idle
          · exact .idle
  | dispatch frame =>
      cases hf : s.frames[frame]? with
      | none =>
          simp only [SocketTransport.step, hf]
          exact .idle
      | some f =>
          simp only [SocketTransport.step, hf]
          exact .serve frame f hf
  | lose frame => exact .lose frame
  | read =>
      cases hphase : s.phase with
      | idle | connecting =>
          simp only [SocketTransport.step, hphase]
          exact .idle
      | first req link sent | second req link sent =>
          cases sent with
          | false =>
              simp only [SocketTransport.step, hphase]
              exact .idle
          | true =>
              cases hr : s.responses link with
              | none =>
                  simp only [SocketTransport.step, hphase, hr]
                  exact .idle
              | some r =>
                  simp only [SocketTransport.step, hphase, hr]
                  refine .read link r (by simp [hphase]) ?_ hr
                  simp [SocketTransport.link?, hphase]
  | fail =>
      cases hphase : s.phase with
      | idle | connecting =>
          simp only [SocketTransport.step, hphase]
          exact .idle
      | first req link sent =>
          simp only [SocketTransport.step, hphase]
          exact .reconnect req link sent hphase
      | second =>
          simp only [SocketTransport.step, hphase]
          exact .unavailable (by simp [hphase])
  | connect ok =>
      cases hphase : s.phase with
      | idle | first | second =>
          simp only [SocketTransport.step, hphase]
          exact .idle
      | connecting req =>
          cases ok with
          | false =>
              simp only [SocketTransport.step, hphase, Bool.false_eq_true,
                if_false]
              exact .unavailable (by simp [hphase])
          | true =>
              simp only [SocketTransport.step, hphase, if_true]
              exact .connect req hphase

/-! ## How often a request is served -/

/-- How often the request of a call was served or may still be. -/
def SocketTransport.load (s : SocketTransport σ Req Resp) (m : Nat) : Nat :=
  s.servings m + s.frames.countP fun f => f.call == m

/-- What a retry grants a call. -/
def SocketTransport.again (s : SocketTransport σ Req Resp) (m : Nat) : Nat :=
  if m ∈ s.retried then 1 else 0

/-- How often the request was written at most, for a call in this phase that
was granted `again`. -/
def TransportPhase.written (again : Nat) : TransportPhase Req → Nat
  | .idle => again + 1
  | .first _ _ sent => sent.toNat
  | .connecting _ => again
  | .second _ _ sent => again + sent.toNat

theorem written_le (phase : TransportPhase Req) (again : Nat) :
    phase.written again ≤ again + 1 := by
  cases phase with
  | idle => exact Nat.le_refl _
  | connecting => exact Nat.le_succ _
  | first _ _ sent | second _ _ sent =>
      cases sent <;> simp [TransportPhase.written]

/-- A call that did not begin was not served, one that is over at most once
and once more for a retry, the one that runs what its phase allows. -/
structure LoadInv (s : SocketTransport σ Req Resp) : Prop where
  started : s.phase ≠ .idle → s.calls ≠ []
  retried : ∀ m ∈ s.retried, m < s.calls.length
  unretried : ∀ req link sent, s.phase = .first req link sent →
    s.call ∉ s.retried
  later : ∀ m, s.calls.length ≤ m → s.load m = 0
  earlier : ∀ m, m + 1 < s.calls.length → s.load m ≤ s.again m + 1
  current : ∀ m, m + 1 = s.calls.length →
    s.load m ≤ s.phase.written (s.again m)

section Load

variable {s : SocketTransport σ Req Resp}

theorem call_add_one (h : s.calls ≠ []) : s.call + 1 = s.calls.length := by
  have hpos : 0 < s.calls.length := List.length_pos_of_ne_nil h
  show s.calls.length - 1 + 1 = s.calls.length
  omega

theorem load_write (req : Req) (link : Nat) (phase : TransportPhase Req)
    (m : Nat) : (s.write req link phase).load m =
      s.load m + if s.call = m then 1 else 0 := by
  simp only [SocketTransport.load, SocketTransport.servings,
    SocketTransport.write, List.countP_append, List.countP_singleton,
    beq_iff_eq]
  omega

/-- A frame that is served counts as before. -/
theorem load_serve (dispatch : σ → Req → σ × Resp) {i : Nat}
    {f : EngineFrame Req} (hf : s.frames[i]? = some f) (m : Nat) :
    (s.serve dispatch f (s.frames.eraseIdx i)).load m = s.load m := by
  obtain ⟨hi, rfl⟩ := List.getElem?_eq_some_iff.mp hf
  have hcount := (List.getElem_cons_eraseIdx_perm hi).countP_eq
    fun f => f.call == m
  rw [List.countP_cons] at hcount
  simp only [SocketTransport.load, SocketTransport.servings,
    SocketTransport.serve, List.countP_append, List.countP_singleton]
  omega

/-- What changes neither the calls nor the phase nor who was retried, and
loads no call more, keeps the bounds. -/
theorem LoadInv.of_le {s' : SocketTransport σ Req Resp} (h : LoadInv s)
    (hcalls : s'.calls = s.calls) (hphase : s'.phase = s.phase)
    (hretried : s'.retried = s.retried)
    (hload : ∀ m, s'.load m ≤ s.load m) : LoadInv s' := by
  have hcall : s'.call = s.call := by
    simp only [SocketTransport.call, hcalls]
  have hagain : ∀ m, s'.again m = s.again m := fun m => by
    simp only [SocketTransport.again, hretried]
  refine ⟨?_, ?_, ?_, ?_, ?_, ?_⟩
  · rw [hcalls, hphase]
    exact h.started
  · rw [hcalls, hretried]
    exact h.retried
  · rw [hphase, hcall, hretried]
    exact h.unretried
  · intro m hm
    rw [hcalls] at hm
    exact Nat.eq_zero_of_le_zero (h.later m hm ▸ hload m)
  · intro m hm
    rw [hcalls] at hm
    rw [hagain]
    exact (hload m).trans (h.earlier m hm)
  · intro m hm
    rw [hcalls] at hm
    rw [hagain, hphase]
    exact (hload m).trans (h.current m hm)

/-- The call that runs goes on to a phase that allows what was written. -/
theorem LoadInv.advance {s' : SocketTransport σ Req Resp} (h : LoadInv s)
    (hne : s.calls ≠ []) (hcalls : s'.calls = s.calls)
    (hretried : ∀ m, m ≠ s.call → (m ∈ s'.retried ↔ m ∈ s.retried))
    (hload : ∀ m, m ≠ s.call → s'.load m = s.load m)
    (hfirst : ∀ req link sent, s'.phase = .first req link sent →
      s.call ∉ s'.retried)
    (hcurrent : s'.load s.call ≤ s'.phase.written (s'.again s.call)) :
    LoadInv s' := by
  have hlast : s.call + 1 = s.calls.length := call_add_one hne
  have hcall : s'.call = s.call := by
    simp only [SocketTransport.call, hcalls]
  have hagain : ∀ m, m ≠ s.call → s'.again m = s.again m := fun m hm => by
    simp only [SocketTransport.again, hretried m hm]
  refine ⟨?_, ?_, ?_, ?_, ?_, ?_⟩
  · intro _
    rw [hcalls]
    exact hne
  · intro m hm
    rw [hcalls]
    by_cases hm' : m = s.call
    · omega
    · exact h.retried m ((hretried m hm').mp hm)
  · rw [hcall]
    exact hfirst
  · intro m hm
    rw [hcalls] at hm
    rw [hload m (by omega)]
    exact h.later m hm
  · intro m hm
    rw [hcalls] at hm
    have hm' : m ≠ s.call := by omega
    rw [hload m hm', hagain m hm']
    exact h.earlier m hm
  · intro m hm
    rw [hcalls] at hm
    have hm' : m = s.call := by omega
    rw [hm']
    exact hcurrent

/-- The call that runs returns. -/
theorem LoadInv.return (h : LoadInv s) (hne : s.calls ≠ [])
    (conn : Option Nat) (result : Option Resp) :
    LoadInv (s.return conn result) :=
  h.advance hne rfl (fun _ _ => Iff.rfl) (fun _ _ => rfl)
    (fun _ _ _ hf => by cases hf)
    ((h.current _ (call_add_one hne)).trans (written_le _ _))

/-- The response is read. -/
theorem LoadInv.take (h : LoadInv s) (link : Nat) : LoadInv (s.take link) :=
  h.of_le rfl rfl rfl fun _ => Nat.le_refl _

/-- A call gets the lock. -/
theorem LoadInv.request (h : LoadInv s) (hidle : s.phase = .idle)
    (req : Req) (phase : TransportPhase Req) :
    LoadInv { s with calls := s.calls ++ [req], phase := phase } := by
  have hlen : (s.calls ++ [req]).length = s.calls.length + 1 := by simp
  refine ⟨fun _ => by simp, ?_, ?_, ?_, ?_, ?_⟩
  · intro m hm
    show m < (s.calls ++ [req]).length
    have := h.retried m hm
    omega
  · intro _ _ _ _ hmem
    have hlt : (s.calls ++ [req]).length - 1 < s.calls.length :=
      h.retried _ hmem
    omega
  · intro m hm
    have hm' : (s.calls ++ [req]).length ≤ m := hm
    exact h.later m (by omega)
  · intro m hm
    have hm' : m + 1 < (s.calls ++ [req]).length := hm
    rcases Nat.lt_or_ge (m + 1) s.calls.length with hlt | hge
    · exact h.earlier m hlt
    · -- The call that ran last is over.
      have hlast := h.current m (by omega)
      rw [hidle] at hlast
      exact hlast
  · intro m hm
    have hm' : m + 1 = (s.calls ++ [req]).length := hm
    have hzero : s.load m = 0 := h.later m (by omega)
    show s.load m ≤ _
    omega

/-- The request is written in an attempt that has not written it. -/
theorem LoadInv.write (h : LoadInv s) (hne : s.calls ≠ [])
    {phase : TransportPhase Req} (req : Req) (link : Nat)
    (hphase : phase.written (s.again s.call) =
      s.phase.written (s.again s.call) + 1)
    (hfirst : ∀ req link sent, phase = .first req link sent →
      s.call ∉ s.retried) :
    LoadInv (s.write req link phase) := by
  refine h.advance hne rfl (fun _ _ => Iff.rfl) ?_ hfirst ?_
  · intro m hm
    rw [load_write, if_neg hm.symm]
    rfl
  · have hcur := h.current _ (call_add_one hne)
    rw [load_write, if_pos rfl]
    show s.load s.call + 1 ≤ phase.written (s.again s.call)
    omega

/-- The first attempt failed. -/
theorem LoadInv.reconnect (h : LoadInv s) {req : Req} {link : Nat}
    {sent : Bool} (hphase : s.phase = .first req link sent) :
    LoadInv (s.reconnect req sent) := by
  have hne : s.calls ≠ [] := h.started (by simp [hphase])
  have hcur := h.current _ (call_add_one hne)
  rw [hphase] at hcur
  refine h.advance hne rfl ?_ (fun _ _ => rfl) (fun _ _ _ hf => by cases hf) ?_
  · intro m hm
    cases sent with
    | false => exact Iff.rfl
    | true => simp [SocketTransport.reconnect, hm]
  · show s.load s.call ≤ (s.reconnect req sent).again s.call
    cases sent with
    | false => exact (Nat.le_zero.mp hcur).le.trans (Nat.zero_le _)
    | true =>
        have hagain : (s.reconnect req true).again s.call = 1 := by
          simp [SocketTransport.again, SocketTransport.reconnect]
        rw [hagain]
        exact hcur

/-- One event keeps the bounds. -/
theorem LoadInv.step (dispatch : σ → Req → σ × Resp) (h : LoadInv s)
    (event : TransportEvent Req) : LoadInv (s.step dispatch event) := by
  have hmove := transport_move dispatch s event
  generalize s.step dispatch event = s' at hmove ⊢
  cases hmove with
  | idle => exact h
  | request req hphase => exact h.request hphase req _
  | writeFirst req link hphase =>
      refine h.write (h.started (by simp [hphase])) req link ?_ ?_
      · simp [hphase, TransportPhase.written]
      · exact fun _ _ _ _ => h.unretried req link false hphase
  | writeSecond req link hphase =>
      refine h.write (h.started (by simp [hphase])) req link ?_ ?_
      · simp [hphase, TransportPhase.written]
      · exact fun _ _ _ hf => by cases hf
  | reconnect req link sent hphase => exact h.reconnect hphase
  | connect req hphase =>
      have hne : s.calls ≠ [] := h.started (by simp [hphase])
      have hcur := h.current _ (call_add_one hne)
      rw [hphase] at hcur
      exact h.advance hne rfl (fun _ _ => Iff.rfl) (fun _ _ => rfl)
        (fun _ _ _ hf => by cases hf) hcur
  | read link r hphase =>
      exact (h.take link).return (h.started hphase) (some link) (some r.2)
  | unavailable hphase => exact h.return (h.started hphase) none none
  | serve i f hf =>
      exact h.of_le rfl rfl rfl fun m => (load_serve dispatch hf m).le
  | lose i =>
      refine h.of_le rfl rfl rfl fun m => ?_
      exact Nat.add_le_add_left
        ((List.eraseIdx_sublist s.frames i).countP_le) _

end Load

/-! ## Whose response is returned -/

/-- What is under way on a connection, both ways. -/
def SocketTransport.underWay (s : SocketTransport σ Req Resp) (link : Nat) :
    Nat :=
  (s.frames.countP fun f => f.link == link) +
    (s.responses link).toList.length

/-- What is under way on a connection is of one call. -/
structure OnlyOf (s : SocketTransport σ Req Resp) (link call : Nat) :
    Prop where
  frames : ∀ f ∈ s.frames, f.link = link → f.call = call
  response : ∀ c resp, s.responses link = some (c, resp) → c = call

/-- Frames and responses are of calls that were made, responses are the
daemon's, and on the connection in use is at most what the call that runs
wrote, or its response. -/
structure ReplyInv (dispatch : σ → Req → σ × Resp)
    (s : SocketTransport σ Req Resp) : Prop where
  frames : ∀ f ∈ s.frames, f.link < s.opened ∧ s.calls[f.call]? = some f.req
  served : ∀ e ∈ s.served, s.calls[e.call]? = some e.req ∧
    e.resp = (dispatch e.before e.req).2
  responses : ∀ link c resp, s.responses link = some (c, resp) →
    link < s.opened ∧ ∃ e ∈ s.served, e.call = c ∧ e.resp = resp
  link : ∀ link sent, s.link? = some (link, sent) → link < s.opened ∧
    s.underWay link ≤ sent.toNat ∧ OnlyOf s link s.call
  running : ∀ req, s.phase.req? = some req → s.calls[s.call]? = some req
  answered : s.Answered dispatch

section Reply

variable {dispatch : σ → Req → σ × Resp} {s : SocketTransport σ Req Resp}

theorem onlyOf_quiet {link : Nat} (h : s.underWay link = 0) (call : Nat) :
    OnlyOf s link call := by
  obtain ⟨hframes, hresponse⟩ := Nat.add_eq_zero_iff.mp h
  constructor
  · intro f hf heq
    exact absurd (beq_iff_eq.mpr heq)
      (List.countP_eq_zero.mp hframes f hf)
  · intro c resp heq
    rw [heq] at hresponse
    cases hresponse

/-- A response returned was served, whatever happens later. -/
theorem answered_of_le {s' : SocketTransport σ Req Resp}
    (h : s.Answered dispatch) (hreturned : s'.returned = s.returned)
    (hserved : ∀ e ∈ s.served, e ∈ s'.served)
    (hcalls : ∀ (m : Nat) (req : Req), s.calls[m]? = some req →
      s'.calls[m]? = some req) : s'.Answered dispatch := by
  intro call resp hmem
  rw [hreturned] at hmem
  obtain ⟨e, he, hcall, hreq, hresp, hdispatch⟩ := h call resp hmem
  exact ⟨e, hserved e he, hcall, hcalls _ _ hreq, hresp, hdispatch⟩

/-- Only the phase, what is kept and what is returned change. -/
theorem ReplyInv.move {s' : SocketTransport σ Req Resp}
    (h : ReplyInv dispatch s) (hframes : s'.frames = s.frames)
    (hserved : s'.served = s.served)
    (hresponses : s'.responses = s.responses) (hcalls : s'.calls = s.calls)
    (hopened : s.opened ≤ s'.opened)
    (hlink : ∀ link sent, s'.link? = some (link, sent) → link < s'.opened ∧
      s.underWay link ≤ sent.toNat ∧ OnlyOf s link s.call)
    (hrequest : ∀ req, s'.phase.req? = some req →
      s.calls[s.call]? = some req)
    (hanswered : s'.Answered dispatch) : ReplyInv dispatch s' := by
  have hcall : s'.call = s.call := by
    simp only [SocketTransport.call, hcalls]
  refine ⟨?_, ?_, ?_, ?_, ?_, hanswered⟩
  · intro f hf
    rw [hframes] at hf
    rw [hcalls]
    exact ⟨(h.frames f hf).1.trans_le hopened, (h.frames f hf).2⟩
  · intro e he
    rw [hserved] at he
    rw [hcalls]
    exact h.served e he
  · intro link c resp heq
    rw [hresponses] at heq
    rw [hserved]
    obtain ⟨hlt, hfrom⟩ := h.responses link c resp heq
    exact ⟨hlt.trans_le hopened, hfrom⟩
  · intro link sent heq
    obtain ⟨hlt, hway, honly⟩ := hlink link sent heq
    refine ⟨hlt, ?_, ?_⟩
    · simpa only [SocketTransport.underWay, hframes, hresponses] using hway
    · rw [hcall]
      exact ⟨hframes ▸ honly.frames, hresponses ▸ honly.response⟩
  · rw [hcall, hcalls]
    exact hrequest

/-- Nothing is under way on a connection not made yet. -/
theorem ReplyInv.underWay_opened (h : ReplyInv dispatch s) :
    s.underWay s.opened = 0 := by
  have hframes : s.frames.countP (fun f => f.link == s.opened) = 0 := by
    rw [List.countP_eq_zero]
    intro f hf heq
    have := (h.frames f hf).1
    have : f.link = s.opened := beq_iff_eq.mp heq
    omega
  have hresponse : s.responses s.opened = none := by
    cases hr : s.responses s.opened with
    | none => rfl
    | some r =>
        have := (h.responses _ r.1 r.2 hr).1
        omega
  simp [SocketTransport.underWay, hframes, hresponse]

/-- A call gets the lock. -/
theorem ReplyInv.request (h : ReplyInv dispatch s) (hidle : s.phase = .idle)
    (req : Req) :
    ReplyInv dispatch { s with
      calls := s.calls ++ [req]
      phase := match s.conn with
        | some link => .first req link false
        | none => .connecting req } := by
  have hgrown : ∀ (m : Nat) (r : Req), s.calls[m]? = some r →
      (s.calls ++ [req])[m]? = some r := fun _ _ hm =>
    Lib.Trace.getElem?_append_of_eq_some hm [req]
  refine ⟨?_, ?_, h.responses, ?_, ?_, ?_⟩
  · intro f hf
    exact ⟨(h.frames f hf).1, hgrown _ _ (h.frames f hf).2⟩
  · intro e he
    exact ⟨hgrown _ _ (h.served e he).1, (h.served e he).2⟩
  · intro link sent heq
    cases hconn : s.conn with
    | none => simp [SocketTransport.link?, hconn] at heq
    | some kept =>
        have hkept := h.link kept false
          (by simp [SocketTransport.link?, hidle, hconn])
        simp only [SocketTransport.link?, hconn, Option.some.injEq,
          Prod.mk.injEq] at heq
        obtain ⟨rfl, rfl⟩ := heq
        have hquiet : s.underWay kept = 0 := Nat.le_zero.mp hkept.2.1
        have honly := onlyOf_quiet hquiet ((s.calls ++ [req]).length - 1)
        exact ⟨hkept.1, hkept.2.1, honly.frames, honly.response⟩
  · intro r heq
    have hr : r = req := by
      cases hconn : s.conn <;>
        simp_all [TransportPhase.req?]
    show (s.calls ++ [req])[(s.calls ++ [req]).length - 1]? = some r
    simp [hr]
  · exact answered_of_le h.answered rfl (fun _ he => he) hgrown

/-- The request is written on a connection where nothing is under way. -/
theorem ReplyInv.write (h : ReplyInv dispatch s) {req : Req} {link : Nat}
    {phase : TransportPhase Req} (hlink : s.link? = some (link, false))
    (hreq : s.phase.req? = some req) (hreq' : phase.req? = some req)
    (hlink' : (s.write req link phase).link? = some (link, true)) :
    ReplyInv dispatch (s.write req link phase) := by
  obtain ⟨hlt, hway, -⟩ := h.link link false hlink
  have hquiet : s.underWay link = 0 := Nat.le_zero.mp hway
  have honly := onlyOf_quiet hquiet s.call
  have hcall := h.running req hreq
  refine ⟨?_, h.served, h.responses, ?_, ?_, ?_⟩
  · intro f hf
    rcases List.mem_append.mp hf with hf | hf
    · exact h.frames f hf
    · rw [List.mem_singleton] at hf
      subst hf
      exact ⟨hlt, hcall⟩
  · intro link' sent heq
    rw [hlink', Option.some.injEq, Prod.mk.injEq] at heq
    obtain ⟨rfl, rfl⟩ := heq
    refine ⟨hlt, ?_, ?_, honly.response⟩
    · have hframes : (s.write req link phase).underWay link =
          s.underWay link + 1 := by
        simp only [SocketTransport.underWay, SocketTransport.write,
          List.countP_append, List.countP_singleton, beq_self_eq_true,
          if_true]
        omega
      rw [hframes, hquiet]
      exact Nat.le_refl _
    · intro f hf hflink
      rcases List.mem_append.mp hf with hf | hf
      · exact honly.frames f hf hflink
      · rw [List.mem_singleton] at hf
        subst hf
        rfl
  · intro r hr
    rw [show (s.write req link phase).phase = phase from rfl, hreq',
      Option.some.injEq] at hr
    rw [← hr]
    exact hcall
  · exact answered_of_le h.answered rfl (fun _ he => he) fun _ _ hm => hm

/-- A frame is gone before it was served. -/
theorem ReplyInv.lose (h : ReplyInv dispatch s) (i : Nat) :
    ReplyInv dispatch { s with frames := s.frames.eraseIdx i } := by
  refine ⟨?_, h.served, h.responses, ?_, h.running, h.answered⟩
  · intro f hf
    exact h.frames f (List.mem_of_mem_eraseIdx hf)
  · intro link sent heq
    obtain ⟨hlt, hway, honly⟩ := h.link link sent heq
    refine ⟨hlt, (Nat.add_le_add_right ?_ _).trans hway, ?_, ?_⟩
    · exact (List.eraseIdx_sublist s.frames i).countP_le
    · intro f hf
      exact honly.frames f (List.mem_of_mem_eraseIdx hf)
    · exact honly.response

/-- Serving a frame puts its response in its place. -/
theorem underWay_serve_le {i : Nat} {f : EngineFrame Req}
    (hf : s.frames[i]? = some f) (link : Nat) :
    (s.serve dispatch f (s.frames.eraseIdx i)).underWay link ≤
      s.underWay link := by
  obtain ⟨hi, rfl⟩ := List.getElem?_eq_some_iff.mp hf
  have hcount := (List.getElem_cons_eraseIdx_perm hi).countP_eq
    fun f => f.link == link
  rw [List.countP_cons] at hcount
  simp only [SocketTransport.underWay, SocketTransport.serve,
    Function.update_apply]
  by_cases hlink : link = s.frames[i].link
  · simp only [hlink, beq_self_eq_true, if_true, Option.toList_some,
      List.length_singleton] at hcount ⊢
    omega
  · have hne : (s.frames[i].link == link) = false :=
      beq_eq_false_iff_ne.mpr (Ne.symm hlink)
    simp only [hne, Bool.false_eq_true, if_false, hlink] at hcount ⊢
    omega

/-- The daemon serves a frame. -/
theorem ReplyInv.serve (h : ReplyInv dispatch s) {i : Nat}
    {f : EngineFrame Req} (hf : s.frames[i]? = some f) :
    ReplyInv dispatch (s.serve dispatch f (s.frames.eraseIdx i)) := by
  obtain ⟨hflt, hfreq⟩ := h.frames f (List.mem_of_getElem? hf)
  have hkept : ∀ e ∈ s.served,
      e ∈ (s.serve dispatch f (s.frames.eraseIdx i)).served :=
    fun e he => List.mem_append_left _ he
  refine ⟨?_, ?_, ?_, ?_, h.running, ?_⟩
  · intro g hg
    exact h.frames g (List.mem_of_mem_eraseIdx hg)
  · intro e he
    rcases List.mem_append.mp he with he | he
    · exact h.served e he
    · rw [List.mem_singleton] at he
      subst he
      exact ⟨hfreq, rfl⟩
  · intro link c resp heq
    by_cases hlink : link = f.link
    · subst hlink
      have hpair : (f.call, (dispatch s.engine f.req).2) = (c, resp) := by
        simpa [SocketTransport.serve] using heq
      obtain ⟨rfl, rfl⟩ := Prod.mk.inj hpair
      exact ⟨hflt, _, List.mem_append_right _ (List.mem_singleton_self _),
        rfl, rfl⟩
    · have hold : s.responses link = some (c, resp) := by
        simpa [SocketTransport.serve, hlink] using heq
      obtain ⟨hlt, e, he, hfrom⟩ := h.responses link c resp hold
      exact ⟨hlt, e, hkept e he, hfrom⟩
  · intro link sent heq
    obtain ⟨hlt, hway, honly⟩ := h.link link sent heq
    refine ⟨hlt, (underWay_serve_le hf link).trans hway, ?_, ?_⟩
    · intro g hg
      exact honly.frames g (List.mem_of_mem_eraseIdx hg)
    · intro c resp hresp
      by_cases hlink : link = f.link
      · have hpair : (f.call, (dispatch s.engine f.req).2) = (c, resp) := by
          simpa [SocketTransport.serve, hlink] using hresp
        rw [← (Prod.mk.inj hpair).1]
        exact honly.frames f (List.mem_of_getElem? hf) hlink.symm
      · have hold : s.responses link = some (c, resp) := by
          simpa [SocketTransport.serve, hlink] using hresp
        exact honly.response c resp hold
  · exact answered_of_le h.answered rfl hkept fun _ _ hm => hm

/-- The response read is the one to the request of the call. -/
theorem ReplyInv.read (h : ReplyInv dispatch s) {link : Nat}
    {r : Nat × Resp} (hlink : s.link? = some (link, true))
    (hr : s.responses link = some r) :
    ReplyInv dispatch ((s.take link).return (some link) (some r.2)) := by
  obtain ⟨hlt, hway, honly⟩ := h.link link true hlink
  have hcall : r.1 = s.call := honly.response r.1 r.2 hr
  -- The response was all that was under way.
  have hquiet : (s.take link).underWay link = 0 := by
    simp only [SocketTransport.underWay, hr, Option.toList_some,
      List.length_singleton, Bool.toNat_true] at hway
    have hnone : s.frames.countP (fun f => f.link == link) = 0 := by omega
    simp [SocketTransport.underWay, SocketTransport.take, hnone]
  have hkept : ∀ link' c resp, (s.take link).responses link' =
      some (c, resp) → s.responses link' = some (c, resp) := by
    intro link' c resp heq
    by_cases hlink' : link' = link
    · simp [SocketTransport.take, hlink'] at heq
    · simpa [SocketTransport.take, hlink'] using heq
  refine ⟨h.frames, h.served, ?_, ?_, ?_, ?_⟩
  · intro link' c resp heq
    exact h.responses link' c resp (hkept link' c resp heq)
  · intro link' sent heq
    have hpair : (link, false) = (link', sent) := by
      simpa [SocketTransport.link?, SocketTransport.return] using heq
    obtain ⟨rfl, rfl⟩ := Prod.mk.inj hpair
    have hnothing := onlyOf_quiet hquiet s.call
    exact ⟨hlt, hquiet.le, hnothing.frames, hnothing.response⟩
  · intro _ heq
    cases heq
  · intro call resp hmem
    rcases List.mem_append.mp hmem with hold | hnew
    · exact h.answered call resp hold
    · rw [List.mem_singleton, Prod.mk.injEq, Option.some.injEq] at hnew
      obtain ⟨rfl, rfl⟩ := hnew
      obtain ⟨e, he, hecall, heresp⟩ := (h.responses link r.1 r.2 hr).2
      obtain ⟨hereq, hedispatch⟩ := h.served e he
      rw [hecall, hcall] at hereq
      exact ⟨e, he, hecall.trans hcall, hereq, heresp,
        heresp ▸ hedispatch⟩

/-- The call returns an error; no connection is kept. -/
theorem ReplyInv.unavailable (h : ReplyInv dispatch s) :
    ReplyInv dispatch (s.return none none) := by
  refine h.move rfl rfl rfl rfl (Nat.le_refl _) ?_ ?_ ?_
  · intro _ _ heq
    cases heq
  · intro _ heq
    cases heq
  · intro call resp hmem
    rcases List.mem_append.mp hmem with hold | hnew
    · exact h.answered call resp hold
    · rw [List.mem_singleton, Prod.mk.injEq] at hnew
      cases hnew.2

/-- The first attempt failed. -/
theorem ReplyInv.reconnect (h : ReplyInv dispatch s) {req : Req}
    (hreq : s.phase.req? = some req) (sent : Bool) :
    ReplyInv dispatch (s.reconnect req sent) := by
  refine h.move rfl rfl rfl rfl (Nat.le_refl _) ?_ ?_ h.answered
  · intro _ _ heq
    cases heq
  · intro r hr
    rw [← Option.some.inj hr]
    exact h.running req hreq

/-- A connection is made. -/
theorem ReplyInv.connect (h : ReplyInv dispatch s) {req : Req}
    (hreq : s.phase.req? = some req) :
    ReplyInv dispatch { s with
      opened := s.opened + 1
      phase := .second req s.opened false } := by
  have hquiet := h.underWay_opened
  refine h.move rfl rfl rfl rfl (Nat.le_succ _) ?_ ?_ h.answered
  · intro link sent heq
    have hpair : (s.opened, false) = (link, sent) := Option.some.inj heq
    obtain ⟨rfl, rfl⟩ := Prod.mk.inj hpair
    exact ⟨Nat.lt_succ_self _, hquiet.le, onlyOf_quiet hquiet s.call⟩
  · intro r hr
    rw [← Option.some.inj hr]
    exact h.running req hreq

/-- One event keeps the pairing. -/
theorem ReplyInv.step (h : ReplyInv dispatch s)
    (event : TransportEvent Req) :
    ReplyInv dispatch (s.step dispatch event) := by
  have hmove := transport_move dispatch s event
  generalize s.step dispatch event = s' at hmove ⊢
  cases hmove with
  | idle => exact h
  | request req hphase => exact h.request hphase req
  | writeFirst req link hphase | writeSecond req link hphase =>
      refine h.write ?_ (by rw [hphase]; rfl) rfl rfl
      simp [SocketTransport.link?, hphase]
  | reconnect req link sent hphase =>
      exact h.reconnect (by rw [hphase]; rfl) sent
  | connect req hphase => exact h.connect (by rw [hphase]; rfl)
  | read link r hphase hlink hr => exact h.read hlink hr
  | unavailable => exact h.unavailable
  | serve i f hf => exact h.serve hf
  | lose i => exact h.lose i

end Reply

/-! ## All calls, all failures -/

theorem loadInv_start (engine : σ) :
    LoadInv (SocketTransport.start engine : SocketTransport σ Req Resp) where
  started := fun h => absurd rfl h
  retried := fun _ hm => absurd hm (List.not_mem_nil)
  unretried := fun _ _ _ _ => List.not_mem_nil
  later := fun _ _ => rfl
  earlier := fun _ hm => absurd hm (Nat.not_lt_zero _)
  current := fun _ _ => Nat.zero_le _

theorem replyInv_start (dispatch : σ → Req → σ × Resp) (engine : σ) :
    ReplyInv dispatch (SocketTransport.start engine) where
  frames := fun _ hf => absurd hf (List.not_mem_nil)
  served := fun _ he => absurd he (List.not_mem_nil)
  responses := fun _ _ _ heq => by cases heq
  link := fun _ _ heq => by cases heq
  running := fun _ heq => by cases heq
  answered := fun _ _ hmem => absurd hmem (List.not_mem_nil)

/-- The load of a call bounds how often it was served. -/
theorem LoadInv.servings_le {s : SocketTransport σ Req Resp} (h : LoadInv s)
    (m : Nat) : s.servings m ≤ s.again m + 1 := by
  have hload : s.servings m ≤ s.load m := Nat.le_add_right _ _
  refine hload.trans ?_
  rcases Nat.lt_trichotomy (m + 1) s.calls.length with hlt | heq | hgt
  · exact h.earlier m hlt
  · exact (h.current m heq).trans (written_le _ _)
  · rw [h.later m (by omega)]
    exact Nat.zero_le _

/-- **A request is served twice only for a retry**: over all calls and all
failures the daemon serves the request of a call at most once, or twice if its
first attempt failed with the whole request written; and a response returned
is the daemon's to the request of that call. -/
theorem engine_request_bound (dispatch : σ → Req → σ × Resp) (engine : σ)
    (events : List (TransportEvent Req)) :
    let s := Trace.run (SocketTransport.step dispatch)
      (SocketTransport.start engine) events
    (∀ call, s.servings call ≤ if call ∈ s.retried then 2 else 1) ∧
      s.Answered dispatch := by
  intro s
  have hload : LoadInv s :=
    Trace.run_inv LoadInv (fun _ event h => h.step dispatch event)
      (loadInv_start engine) events
  have hreply : ReplyInv dispatch s :=
    Trace.run_inv (ReplyInv dispatch) (fun _ event h => h.step event)
      (replyInv_start dispatch engine) events
  refine ⟨fun call => ?_, hreply.answered⟩
  have hle := hload.servings_le call
  by_cases hretried : call ∈ s.retried <;>
    simpa [SocketTransport.again, hretried] using hle

end Transport

/-! ## A note remembered twice -/

/-- The arm of `Remember`. -/
def dispatchRemember (st : Store) (text : String) : Outcome String :=
  remember sampleEmbedder (chainMint st.log.length) st text

/-- A first note makes the connection. The daemon serves the second, reading
its response fails, and a new connection carries it again. -/
def sampleFailures : List (TransportEvent String) :=
  [.request "deploy on fly", .connect true, .write true, .dispatch 0, .read,
    .request "deploy on vercel", .write true, .dispatch 0, .fail,
    .connect true, .write true, .dispatch 0, .read]

/-- **A note is remembered twice**: a request that is not repeatable is
served twice. -/
theorem engine_request_doubled :
    ¬ ∀ (engine : Store) (events : List (TransportEvent String)),
      let s := Trace.run (SocketTransport.step dispatchRemember)
        (SocketTransport.start engine) events
      (∀ call req, s.calls[call]? = some req →
        s.servings call ≤ 1 ∨ Repeatable dispatchRemember req) ∧
      s.Answered dispatchRemember := by
  intro hclaim
  obtain ⟨hbound, -⟩ := hclaim Store.empty sampleFailures
  have htwice : (Trace.run (SocketTransport.step dispatchRemember)
      (SocketTransport.start Store.empty) sampleFailures).servings 1 = 2 := by
    decide +kernel
  rcases hbound 1 "deploy on vercel" (by decide +kernel) with hone | hsame
  · rw [htwice] at hone
    exact absurd hone (by decide)
  · have hlen := congrArg (fun st => st.log.length) (hsame Store.empty)
    exact absurd hlen (by decide +kernel)

end AirNote
