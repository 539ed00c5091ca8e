import AirNote.AutoSend
import AirNote.Lib.Trace
import Mathlib.Data.List.Nodup

/-!
# The reply loop

An incoming message takes the lock of its sender, is given a reservation,
reads the history and starts a stream; the text that streams in is sent when
the stream is done, if the reservation says so, and is otherwise shown as a
draft that the user may approve, edit or discard. Between these steps the
handling is suspended, and anything else may happen: a frame that says the
sender's key changed, an acknowledgement, an action of the user.

A handling that has not ended is in one place of four: waiting for its
reservation, waiting for the history, in `runs`, or waiting for the send it
dispatched. It is numbered, and the number stands for the identifier of its run
and for the token of its reservation, which are drawn afresh; a send is numbered
likewise. `begun` are the messages handled so far. The rows of the panel are
what was set; `shown` is what was rendered, and what the user acts on.

What was dispatched is kept with what held at that moment: whether the
reservation was open, whether the key had changed since the handling began,
whether the reply had been discarded. A release of a lock is kept with the
handling that released it and the one that had taken it.

## Main results

* `step_move` — what one event does.
* `Numbered.step` — a lock is held by a handling that has not ended.
-/

namespace AirNote

/-! ## The messages -/

/-- The body of a message, as far as it is looked at. -/
structure InboxBody where
  kind : Option String

/-- `InboxMessage`. -/
structure InboxMessage where
  envelopeId : String
  peer : String
  threadId : Option String
  roomId : Option String
  body : Option InboxBody

/-- `DEDUPE_CAP`. -/
def dedupeCap : Nat := 1000

/-- `markProcessed`: the set, and whether the identifier is fresh. -/
def markProcessed (set : List String) (id : String) : List String × Bool :=
  if id ∈ set then (set, false)
  else if dedupeCap < (set ++ [id]).length then ((set ++ [id]).tail, true)
  else (set ++ [id], true)

/-- `SkipReason`. -/
inductive SkipReason where
  | room
  | unreadable
  | inFlight

/-- `isUnreadableBody`. -/
def isUnreadableBody : Option InboxBody → Bool
  | none => true
  | some body => body.kind == some "encrypted"

/-- `shouldSkip`. -/
def shouldSkip (m : InboxMessage) (inFlight : String → Option Nat) :
    Option SkipReason :=
  if m.roomId.any (· ≠ "") then some .room
  else if isUnreadableBody m.body then some .unreadable
  else if (inFlight m.peer).isSome then some .inFlight
  else none

/-! ## The panel -/

/-- `ReplyStatus`. -/
inductive ReplyStatus where
  | drafting
  | drafted
  | autoSent
  | sent
  | failed
  deriving DecidableEq

/-- `ReplyView`, of which a patch may set a part only; with the handling whose
reply it shows. A token that is set may be `null`. -/
structure ReplyRow where
  status : Option ReplyStatus := none
  text : Option String := none
  reason : Option String := none
  peer : Option String := none
  threadId : Option String := none
  token : Option (Option Nat) := none
  retryable : Option Bool := none
  reply : Option Nat := none

/-! ## The state -/

/-- Where a handling is suspended. -/
inductive Stage where
  | reserving
  | reading (decision : Autonomy) (token : Option Nat) (reason : String)
  | running (decision : Autonomy) (token : Option Nat) (reason text : String)
  | sending (id token : Nat) (text : String)
  deriving DecidableEq

/-- The handling is in `runs`. -/
def Stage.isRunning : Stage → Bool
  | .running .. => true
  | _ => false

/-- The token of the reservation. -/
def Stage.token : Stage → Option Nat
  | .reserving => none
  | .reading _ token _ => token
  | .running _ token _ _ => token
  | .sending _ token _ => some token

/-- A handling that has not ended. -/
structure LiveReply where
  number : Nat
  message : InboxMessage
  stage : Stage

/-- A call of `llmStreamStart` under way. -/
structure StartCall where
  number : Nat
  message : InboxMessage
  token : Option Nat

/-- `SendRecord`. -/
structure SendRecord where
  peer : String
  token : Nat
  threadId : Option String
  envelopeId : String

/-- A call of `inboxSend`. An automatic send has a token. -/
structure Dispatch where
  peer : String
  text : String
  threadId : Option String
  envelopeId : String
  token : Option Nat
  opened : Bool
  keyChanged : Bool
  discarded : Bool

/-- What became of a reservation. -/
inductive ReservationState where
  | opened
  | cancelled
  | confirmed
  deriving DecidableEq

/-- `AiLoopProvider`. -/
structure ReplyLoop where
  replyAgentId : Option String
  dedupe : List String
  inFlight : String → Option Nat
  begun : List InboxMessage
  live : List LiveReply
  starting : List StartCall
  sends : List (Nat × SendRecord)
  approving : List (Nat × String)
  replies : String → Option ReplyRow
  shown : String → Option ReplyRow
  keyChangePending : List String
  policyWrites : List String
  reservation : Nat → ReservationState
  dispatched : List Dispatch
  acked : List Nat
  changed : String → Nat
  discarded : List Nat
  released : List (Nat × Nat)

/-- Nothing happened yet. -/
def ReplyLoop.start (replyAgentId : Option String) : ReplyLoop :=
  { replyAgentId := replyAgentId
    dedupe := []
    inFlight := fun _ => none
    begun := []
    live := []
    starting := []
    sends := []
    approving := []
    replies := fun _ => none
    shown := fun _ => none
    keyChangePending := []
    policyWrites := []
    reservation := fun _ => .opened
    dispatched := []
    acked := []
    changed := fun _ => 0
    discarded := []
    released := [] }

namespace ReplyLoop

/-! ## What the handlers are made of -/

/-- `patchReply`. -/
def patchReply (s : ReplyLoop) (envelopeId : String)
    (patch : ReplyRow → ReplyRow) : ReplyLoop :=
  { s with
    replies := Function.update s.replies envelopeId
      (some (patch ((s.replies envelopeId).getD {}))) }

/-- `unlock`, by a handling. -/
def unlock (s : ReplyLoop) (did : String) (number : Nat) : ReplyLoop :=
  { s with
    inFlight := Function.update s.inFlight did none
    released := s.released ++
      ((s.inFlight did).map fun owner => (number, owner)).toList }

/-- `inboxAiCancel`: a confirmed reservation stays. -/
def cancel (s : ReplyLoop) (token : Option Nat) : ReplyLoop :=
  { s with
    reservation := fun t =>
      if token = some t ∧ s.reservation t = .opened then .cancelled
      else s.reservation t }

/-- `inboxAiConfirm`, which goes through or not: a cancelled reservation is
put back. -/
def confirm (s : ReplyLoop) (token : Nat) (through : Bool) : ReplyLoop :=
  { s with
    reservation :=
      if through then Function.update s.reservation token .confirmed
      else s.reservation }

/-- The handling with a number. -/
def find (s : ReplyLoop) (number : Nat) : Option LiveReply :=
  s.live.find? fun l => l.number == number

/-- The handling goes on to the next stage. -/
def advance (s : ReplyLoop) (number : Nat) (stage : Stage) : ReplyLoop :=
  { s with
    live := s.live.map fun l =>
      if l.number = number then { l with stage := stage } else l }

/-- The handling ends and releases its lock. -/
def finish (s : ReplyLoop) (l : LiveReply) : ReplyLoop :=
  { s with live := s.live.filter fun l' => l'.number ≠ l.number }.unlock
    l.message.peer l.number

/-- A row of a reply that is not sent. -/
def failedRow (reason : String) (row : ReplyRow) : ReplyRow :=
  { row with
    status := some .failed, reason := some reason, token := some none }

/-- A run is deleted, its reservation cancelled, its lock released. -/
def failRun (s : ReplyLoop) (m : InboxMessage) (number : Nat)
    (token : Option Nat) (reason : String) : ReplyLoop :=
  (({ s with
      live := s.live.filter fun l =>
        ¬(l.number = number ∧ l.stage.isRunning) }.unlock
    m.peer number).cancel token).patchReply m.envelopeId (failedRow reason)

/-- `inboxSend` is called. -/
def dispatch (s : ReplyLoop) (d : Dispatch) : ReplyLoop :=
  { s with dispatched := s.dispatched ++ [d] }

/-! ## The handlers -/

/-- `handle`, up to the call of `inboxAiReserve`. -/
def handle (s : ReplyLoop) (m : InboxMessage) : ReplyLoop :=
  if s.replyAgentId = none then s
  else
    let (set, fresh) := markProcessed s.dedupe m.envelopeId
    if !fresh || (shouldSkip m s.inFlight).isSome then
      { s with dedupe := set }
    else
      { s with
        dedupe := set
        inFlight := Function.update s.inFlight m.peer (some s.begun.length)
        begun := s.begun ++ [m]
        live := s.live ++ [⟨s.begun.length, m, .reserving⟩] }

/-- `handle`, up to the call of `inboxHistory`. -/
def reserved (s : ReplyLoop) (l : LiveReply)
    (result : Option (Autonomy × String)) : ReplyLoop :=
  match result with
  | none => s.finish l
  | some (.off, _) => s.finish l
  | some (.draft, reason) => s.advance l.number (.reading .draft none reason)
  | some (.auto, reason) =>
      { s.advance l.number (.reading .auto (some l.number) reason) with
        reservation := Function.update s.reservation l.number .opened }

/-- `handle`, up to the call of `llmStreamStart`. -/
def startRun (s : ReplyLoop) (l : LiveReply) (decision : Autonomy)
    (token : Option Nat) (reason : String) : ReplyLoop :=
  { (s.advance l.number (.running decision token reason "")).patchReply
      l.message.envelopeId fun row =>
        { row with
          status := some .drafting
          text := some ""
          reason := some reason
          peer := some l.message.peer
          threadId := l.message.threadId
          token := some token
          reply := some l.number } with
    starting := s.starting ++ [⟨l.number, l.message, token⟩] }

/-- `handle`, after `llmStreamStart`. -/
def started (s : ReplyLoop) (c : StartCall) (error : Option String) :
    ReplyLoop :=
  let s := { s with
    starting := s.starting.filter fun c' => c'.number ≠ c.number }
  match error with
  | none => s
  | some reason => s.failRun c.message c.number c.token reason

/-- `onChunk`. -/
def onChunk (s : ReplyLoop) (l : LiveReply) (decision : Autonomy)
    (token : Option Nat) (reason text : String) : ReplyLoop :=
  (s.advance l.number (.running decision token reason text)).patchReply
    l.message.envelopeId fun row =>
      { row with text := some text, reply := some l.number }

/-- `onDone`, where the reply is sent, up to the call of `inboxSend`. -/
def dispatchRun (s : ReplyLoop) (l : LiveReply) (token : Nat)
    (text : String) : ReplyLoop :=
  (s.dispatch
    { peer := l.message.peer
      text := text
      threadId := l.message.threadId
      envelopeId := l.message.envelopeId
      token := some token
      opened := s.reservation token = .opened
      keyChanged := l.number < s.changed l.message.peer
      discarded := l.number ∈ s.discarded }).advance l.number
    (.sending s.dispatched.length token text)

/-- `onDone`, up to the call of `inboxSend`. -/
def onDone (s : ReplyLoop) (l : LiveReply) (decision : Autonomy)
    (token : Option Nat) (reason text : String) (cancelled : Bool) :
    ReplyLoop :=
  if cancelled then s.finish l
  else
    match decision, token with
    | .auto, some t => s.dispatchRun l t text
    | _, _ =>
        (s.finish l).patchReply l.message.envelopeId fun row =>
          { row with
            status := some .drafted
            text := some text
            reason := some reason
            reply := some l.number }

/-- `onDone`, after `inboxSend`. -/
def sendReturned (s : ReplyLoop) (l : LiveReply) (id token : Nat)
    (text : String) (error : Option String) : ReplyLoop :=
  match error with
  | none =>
      ({ s.finish l with
        sends := s.sends ++ [(id,
          { peer := l.message.peer
            token := token
            threadId := l.message.threadId
            envelopeId := l.message.envelopeId })] } : ReplyLoop).patchReply
        l.message.envelopeId fun row =>
          { row with
            text := some text, token := some none, reply := some l.number }
  | some reason =>
      ((s.finish l).cancel (some token)).patchReply l.message.envelopeId
        (failedRow reason)

/-- The acknowledgements of what was dispatched. -/
def acknowledge (s : ReplyLoop) (id : Nat) : ReplyLoop :=
  { s with
    acked := if id < s.dispatched.length then s.acked ++ [id] else s.acked }

/-- The record of a send is taken. -/
def unstash (s : ReplyLoop) (id : Nat) : ReplyLoop :=
  { s with sends := s.sends.filter fun e => e.1 ≠ id }

/-- `onSendOk`, with what the call of `inboxAiConfirm` and its retry come
to. -/
def onSendOk (s : ReplyLoop) (id : Nat) (first second : Bool) : ReplyLoop :=
  match s.sends.find? fun e => e.1 == id with
  | none => s.acknowledge id
  | some (_, rec) =>
      (((s.acknowledge id).unstash id).confirm rec.token
        (first || second)).patchReply rec.envelopeId fun row =>
          { row with status := some .autoSent }

/-- `onSendErr`. -/
def onSendErr (s : ReplyLoop) (id : Nat) (retryable : Bool)
    (reason : String) : ReplyLoop :=
  match s.sends.find? fun e => e.1 == id with
  | none => s
  | some (_, rec) =>
      ((s.unstash id).cancel (some rec.token)).patchReply rec.envelopeId
        fun row =>
          { row with
            status := some .failed
            reason := some reason
            retryable := some retryable }

/-- The runs for a sender. -/
def runsOf (s : ReplyLoop) (did : String) : List LiveReply :=
  s.live.filter fun l => l.stage.isRunning ∧ l.message.peer = did

/-- `onKeyChange`, for a frame that says so. -/
def onKeyChange (s : ReplyLoop) (did : String) : ReplyLoop :=
  let s' :=
    if did ∈ s.keyChangePending then s
    else
      { s with
        keyChangePending := s.keyChangePending ++ [did]
        policyWrites := s.policyWrites ++ [did] }
  (s.runsOf did).foldl
    (fun s l => s.failRun l.message l.number l.stage.token
      "Contact's key changed — held for review.")
    { s' with changed := Function.update s.changed did s.begun.length }

/-- `approveSend`, up to the call of `inboxSend`. -/
def approveSend (s : ReplyLoop) (envelopeId : String) : ReplyLoop :=
  match s.shown envelopeId with
  | none => s
  | some view =>
      if view.text.all (· = "") then s
      else if view.status ≠ some .drafted || view.token ≠ some none then s
      else
        { s.dispatch
            { peer := view.peer.getD ""
              text := view.text.getD ""
              threadId := view.threadId
              envelopeId := envelopeId
              token := none
              opened := false
              keyChanged := false
              discarded := view.reply.any (· ∈ s.discarded) } with
          approving := s.approving ++ [(s.dispatched.length, envelopeId)] }

/-- `approveSend`, after `inboxSend`. -/
def approved (s : ReplyLoop) (id : Nat) (error : Option String) :
    ReplyLoop :=
  match s.approving.find? fun e => e.1 == id with
  | none => s
  | some (_, envelopeId) =>
      { s with approving := s.approving.filter fun e => e.1 ≠ id }.patchReply
        envelopeId fun row =>
          match error with
          | none => { row with status := some .sent }
          | some reason =>
              { row with status := some .failed, reason := some reason }

/-- `discard`. -/
def discard (s : ReplyLoop) (envelopeId : String) : ReplyLoop :=
  let view := s.shown envelopeId
  { s.cancel (view.bind (·.token)).join with
    replies := Function.update s.replies envelopeId none
    discarded := s.discarded ++ (view.bind (·.reply)).toList }

/-! ## The runs -/

/-- What happens next. -/
inductive Event where
  | message (m : InboxMessage)
  | reserved (number : Nat) (result : Option (Autonomy × String))
  | history (number : Nat)
  | started (number : Nat) (error : Option String)
  | chunk (number : Nat) (delta : String)
  | done (number : Nat) (cancelled : Bool)
  | error (number : Nat) (message : String)
  | sendReturned (number : Nat) (error : Option String)
  | sendOk (id : Nat) (first second : Bool)
  | sendErr (id : Nat) (retryable : Bool) (reason : String)
  | keyChanged (did : String)
  | policySet (did : String)
  | approve (envelopeId : String)
  | approved (id : Nat) (error : Option String)
  | edit (envelopeId text : String)
  | discard (envelopeId : String)
  | render

/-- What a handling does next, where it is in the stage that an event is
for. -/
def resume (s : ReplyLoop) (l : LiveReply) : Event → ReplyLoop
  | .reserved _ result =>
      match l.stage with
      | .reserving => s.reserved l result
      | _ => s
  | .history _ =>
      match l.stage with
      | .reading decision token reason => s.startRun l decision token reason
      | _ => s
  | .chunk _ delta =>
      match l.stage with
      | .running decision token reason text =>
          s.onChunk l decision token reason (text ++ delta)
      | _ => s
  | .done _ cancelled =>
      match l.stage with
      | .running decision token reason text =>
          s.onDone l decision token reason text cancelled
      | _ => s
  | .error _ message =>
      match l.stage with
      | .running _ token _ _ => s.failRun l.message l.number token message
      | _ => s
  | .sendReturned _ error =>
      match l.stage with
      | .sending id token text => s.sendReturned l id token text error
      | _ => s
  | _ => s

end ReplyLoop

/-- The handling that an event is for. -/
def ReplyLoop.Event.number? : ReplyLoop.Event → Option Nat
  | .reserved number _ => some number
  | .history number => some number
  | .chunk number _ => some number
  | .done number _ => some number
  | .error number _ => some number
  | .sendReturned number _ => some number
  | _ => none

namespace ReplyLoop

/-- One event; one that cannot happen changes nothing. -/
def step (s : ReplyLoop) (event : Event) : ReplyLoop :=
  match event with
  | .message m => s.handle m
  | .started number error =>
      match s.starting.find? fun c => c.number == number with
      | none => s
      | some c => s.started c error
  | .sendOk id first second => s.onSendOk id first second
  | .sendErr id retryable reason => s.onSendErr id retryable reason
  | .keyChanged did => s.onKeyChange did
  | .policySet did =>
      { s with keyChangePending := s.keyChangePending.filter (· ≠ did) }
  | .approve envelopeId => s.approveSend envelopeId
  | .approved id error => s.approved id error
  | .edit envelopeId text =>
      s.patchReply envelopeId fun row => { row with text := some text }
  | .discard envelopeId => s.discard envelopeId
  | .render => { s with shown := s.replies }
  | event =>
      match event.number?.bind s.find with
      | none => s
      | some l => s.resume l event

/-! ## What one event can do -/

/-- The patches of a row that neither show a reply nor make one ready to be
approved. -/
def Quiet (patch : ReplyRow → ReplyRow) : Prop :=
  ∀ row, (patch row).token = row.token ∧ (patch row).reply = row.reply ∧
    ((patch row).status = row.status ∨ (patch row).status ≠ some .drafted)

/-- What an event leads to, with what is known of the handling it is for. -/
inductive Move (s : ReplyLoop) : Event → ReplyLoop → Prop where
  | idle (event : Event) : Move s event s
  | skip (m : InboxMessage) (set : List String) :
      Move s (.message m) { s with dedupe := set }
  | begin (m : InboxMessage) (set : List String)
      (hfresh : m.envelopeId ∉ s.dedupe) (hfree : s.inFlight m.peer = none) :
      Move s (.message m) { s with
        dedupe := set
        inFlight := Function.update s.inFlight m.peer (some s.begun.length)
        begun := s.begun ++ [m]
        live := s.live ++ [⟨s.begun.length, m, .reserving⟩] }
  | finish (event : Event) (l : LiveReply) (hl : l ∈ s.live) :
      Move s event (s.finish l)
  | reserveDraft (event : Event) (l : LiveReply) (hl : l ∈ s.live)
      (hstage : l.stage = .reserving) (reason : String) :
      Move s event (s.advance l.number (.reading .draft none reason))
  | reserveAuto (event : Event) (l : LiveReply) (hl : l ∈ s.live)
      (hstage : l.stage = .reserving) (reason : String) :
      Move s event
        { s.advance l.number (.reading .auto (some l.number) reason) with
          reservation := Function.update s.reservation l.number .opened }
  | startRun (event : Event) (l : LiveReply) (hl : l ∈ s.live)
      (decision : Autonomy) (token : Option Nat) (reason : String)
      (hstage : l.stage = .reading decision token reason) :
      Move s event (s.startRun l decision token reason)
  | started (c : StartCall) (hc : c ∈ s.starting) :
      Move s (.started c.number none) (s.started c none)
  | startFailed (c : StartCall) (hc : c ∈ s.starting) (reason : String) :
      Move s (.started c.number (some reason)) (s.started c (some reason))
  | chunk (event : Event) (l : LiveReply) (hl : l ∈ s.live)
      (decision : Autonomy) (token : Option Nat) (reason text text' : String)
      (hstage : l.stage = .running decision token reason text) :
      Move s event (s.onChunk l decision token reason text')
  | dispatch (event : Event) (l : LiveReply) (hl : l ∈ s.live) (token : Nat)
      (reason text : String)
      (hstage : l.stage = .running .auto (some token) reason text) :
      Move s event (s.dispatchRun l token text)
  | drafted (event : Event) (l : LiveReply) (hl : l ∈ s.live)
      (decision : Autonomy) (token : Option Nat) (reason text : String)
      (hstage : l.stage = .running decision token reason text) :
      Move s event ((s.finish l).patchReply l.message.envelopeId fun row =>
        { row with
          status := some .drafted
          text := some text
          reason := some reason
          reply := some l.number })
  | fail (event : Event) (l : LiveReply) (hl : l ∈ s.live)
      (decision : Autonomy) (token : Option Nat)
      (reason text message : String)
      (hstage : l.stage = .running decision token reason text) :
      Move s event (s.failRun l.message l.number token message)
  | sendReturned (event : Event) (l : LiveReply) (hl : l ∈ s.live)
      (id token : Nat) (text : String) (error : Option String)
      (hstage : l.stage = .sending id token text) :
      Move s event (s.sendReturned l id token text error)
  | acknowledge (id : Nat) (first second : Bool)
      (hnone : ∀ e ∈ s.sends, e.1 ≠ id) :
      Move s (.sendOk id first second) (s.acknowledge id)
  | sendOk (id : Nat) (first second : Bool) (rec : SendRecord)
      (hrec : (id, rec) ∈ s.sends) (patch : ReplyRow → ReplyRow)
      (hpatch : Quiet patch) :
      Move s (.sendOk id first second)
        ((((s.acknowledge id).unstash id).confirm rec.token
          (first || second)).patchReply rec.envelopeId patch)
  | sendErr (event : Event) (id : Nat) (rec : SendRecord)
      (hrec : (id, rec) ∈ s.sends) (patch : ReplyRow → ReplyRow)
      (hpatch : Quiet patch) :
      Move s event (((s.unstash id).cancel (some rec.token)).patchReply
        rec.envelopeId patch)
  | keyChanged (did : String) :
      Move s (.keyChanged did) (s.onKeyChange did)
  | approve (envelopeId : String) (view : ReplyRow)
      (hview : s.shown envelopeId = some view)
      (hstatus : view.status = some .drafted) (htoken : view.token = some none)
      (d : Dispatch) (hd : d.token = none)
      (hdiscarded : d.discarded = view.reply.any (· ∈ s.discarded))
      (approving : List (Nat × String)) :
      Move s (.approve envelopeId) { s.dispatch d with approving := approving }
  | discard (envelopeId : String) :
      Move s (.discard envelopeId) (s.discard envelopeId)
  | render : Move s .render { s with shown := s.replies }
  | quiet (event : Event) (pending : List String)
      (approving : List (Nat × String)) (envelopeId : String)
      (patch : ReplyRow → ReplyRow) (hpatch : Quiet patch) :
      Move s event ({ s with
        keyChangePending := pending, approving := approving }.patchReply
        envelopeId patch)
  | policySet (did : String) (pending : List String) :
      Move s (.policySet did) { s with keyChangePending := pending }

theorem find_spec {s : ReplyLoop} {number : Nat} {l : LiveReply}
    (h : s.find number = some l) : l ∈ s.live ∧ l.number = number := by
  unfold find at h
  exact ⟨List.mem_of_find?_eq_some h, by simpa using List.find?_some h⟩

theorem handle_move (s : ReplyLoop) (m : InboxMessage) :
    Move s (.message m) (s.handle m) := by
  unfold handle
  dsimp only
  split
  · exact .idle _
  · split
    · exact .skip m _
    · rename_i hgo
      simp only [Bool.or_eq_true, not_or, Bool.not_eq_true,
        Bool.not_eq_eq_eq_not, Bool.not_true,
        Option.isSome_eq_false_iff, Option.isNone_iff_eq_none] at hgo
      obtain ⟨hfresh, hskip⟩ := hgo
      refine .begin m _ ?_ ?_
      · intro hmem
        rw [markProcessed, if_pos hmem] at hfresh
        exact hfresh rfl
      · cases hlock : s.inFlight m.peer with
        | none => rfl
        | some owner =>
            unfold shouldSkip at hskip
            rw [hlock] at hskip
            split at hskip
            · cases hskip
            · split at hskip
              · cases hskip
              · cases hskip

/-- An event for a handling leads to what the handling does in its stage. -/
theorem resume_move {s : ReplyLoop} {l : LiveReply} (hl : l ∈ s.live)
    (event : Event) : Move s event (s.resume l event) := by
  cases event with
  | reserved number result =>
      cases hstage : l.stage with
      | reserving =>
          simp only [resume, hstage]
          unfold reserved
          split
          · exact .finish _ l hl
          · exact .finish _ l hl
          · exact .reserveDraft _ l hl hstage _
          · exact .reserveAuto _ l hl hstage _
      | reading | running | sending =>
          simp only [resume, hstage]
          exact .idle _
  | history number =>
      cases hstage : l.stage with
      | reading decision token reason =>
          simp only [resume, hstage]
          exact .startRun _ l hl _ _ _ hstage
      | reserving | running | sending =>
          simp only [resume, hstage]
          exact .idle _
  | chunk number delta =>
      cases hstage : l.stage with
      | running decision token reason text =>
          simp only [resume, hstage]
          exact .chunk _ l hl _ _ _ text _ hstage
      | reserving | reading | sending =>
          simp only [resume, hstage]
          exact .idle _
  | done number cancelled =>
      cases hstage : l.stage with
      | running decision token reason text =>
          simp only [resume, hstage]
          unfold onDone
          split
          · exact .finish _ l hl
          · split
            · exact .dispatch _ l hl _ reason text hstage
            · exact .drafted _ l hl _ _ _ _ hstage
      | reserving | reading | sending =>
          simp only [resume, hstage]
          exact .idle _
  | error number message =>
      cases hstage : l.stage with
      | running decision token reason text =>
          simp only [resume, hstage]
          exact .fail _ l hl _ _ _ _ _ hstage
      | reserving | reading | sending =>
          simp only [resume, hstage]
          exact .idle _
  | sendReturned number error =>
      cases hstage : l.stage with
      | sending id token text =>
          simp only [resume, hstage]
          exact .sendReturned _ l hl _ _ _ _ hstage
      | reserving | reading | running =>
          simp only [resume, hstage]
          exact .idle _
  | message | started | sendOk | sendErr | keyChanged | policySet | approve
  | approved | edit | discard | render => exact .idle _

/-- **What one event does.** -/
theorem step_move (s : ReplyLoop) (event : Event) :
    Move s event (s.step event) := by
  have hresume : ∀ event : Event, Move s event
      (match event.number?.bind s.find with
      | none => s
      | some l => s.resume l event) := by
    intro event
    cases hfind : event.number?.bind s.find with
    | none => exact .idle _
    | some l =>
        obtain ⟨number, -, hl⟩ := Option.bind_eq_some_iff.mp hfind
        exact resume_move (find_spec hl).1 event
  cases event with
  | message m => exact handle_move s m
  | started number error =>
      cases hfind : s.starting.find? fun c => c.number == number with
      | none =>
          simp only [step, hfind]
          exact .idle _
      | some c =>
          have hc : c ∈ s.starting := List.mem_of_find?_eq_some hfind
          have hnumber : c.number = number := by
            simpa using List.find?_some hfind
          simp only [step, hfind]
          subst hnumber
          cases error with
          | none => exact .started c hc
          | some reason => exact .startFailed c hc reason
  | sendOk id first second =>
      simp only [step]
      unfold onSendOk
      split
      · rename_i hfind
        refine .acknowledge id first second fun e he heq => ?_
        exact List.find?_eq_none.mp hfind e he (beq_iff_eq.mpr heq)
      · rename_i id' rec hfind
        have hrec := List.mem_of_find?_eq_some hfind
        have hid : id' = id := by simpa using List.find?_some hfind
        rw [hid] at hrec
        exact .sendOk id first second rec hrec _ fun row =>
          ⟨rfl, rfl, .inr (by simp)⟩
  | sendErr id retryable reason =>
      simp only [step]
      unfold onSendErr
      split
      · exact .idle _
      · rename_i id' rec hfind
        have hrec := List.mem_of_find?_eq_some hfind
        have hid : id' = id := by simpa using List.find?_some hfind
        rw [hid] at hrec
        exact .sendErr _ id rec hrec _ fun row => ⟨rfl, rfl, .inr (by simp)⟩
  | keyChanged did => exact .keyChanged did
  | policySet did => exact .policySet did _
  | approve envelopeId =>
      simp only [step]
      unfold approveSend
      split
      · exact .idle _
      · rename_i view hview
        split
        · exact .idle _
        · split
          · exact .idle _
          · rename_i hready
            simp only [Bool.or_eq_true, decide_eq_true_eq, not_or, ne_eq,
              Decidable.not_not] at hready
            exact .approve envelopeId view hview hready.1 hready.2 _ rfl rfl
              _
  | approved id error =>
      simp only [step]
      unfold approved
      split
      · exact .idle _
      · refine .quiet _ s.keyChangePending _ _ _ fun row => ?_
        cases error with
        | none => exact ⟨rfl, rfl, .inr (by simp)⟩
        | some reason => exact ⟨rfl, rfl, .inr (by simp)⟩
  | edit envelopeId text =>
      exact .quiet _ s.keyChangePending s.approving envelopeId
        (fun row => { row with text := some text }) fun row =>
          ⟨rfl, rfl, .inl rfl⟩
  | discard envelopeId => exact .discard envelopeId
  | render => exact .render
  | reserved number result => exact hresume (.reserved number result)
  | history number => exact hresume (.history number)
  | chunk number delta => exact hresume (.chunk number delta)
  | done number cancelled => exact hresume (.done number cancelled)
  | error number message => exact hresume (.error number message)
  | sendReturned number error => exact hresume (.sendReturned number error)

/-! ## Every lock is released -/

section Moves

variable {s s' : ReplyLoop}

theorem mem_advance {number : Nat} {stage : Stage} {l' : LiveReply}
    (h : l' ∈ (s.advance number stage).live) :
    (∃ l ∈ s.live, l.number = number ∧ l' = { l with stage := stage }) ∨
      (l' ∈ s.live ∧ l'.number ≠ number) := by
  obtain ⟨l, hl, rfl⟩ := List.mem_map.mp h
  by_cases hnumber : l.number = number
  · exact .inl ⟨l, hl, hnumber, if_pos hnumber⟩
  · rw [if_neg hnumber]
    exact .inr ⟨hl, hnumber⟩

/-- Handlings have the numbers under which their messages begun, each its
own, and a lock is held by a handling that has not ended. -/
structure Numbered (s : ReplyLoop) : Prop where
  live : ∀ l ∈ s.live, s.begun[l.number]? = some l.message
  starting : ∀ c ∈ s.starting, s.begun[c.number]? = some c.message
  apart : s.live.Pairwise fun l l' => l.number ≠ l'.number
  locked : ∀ did n, s.inFlight did = some n →
    ∃ l ∈ s.live, l.number = n ∧ l.message.peer = did

theorem Numbered.lt_length (h : Numbered s) {l : LiveReply}
    (hl : l ∈ s.live) : l.number < s.begun.length :=
  (List.getElem?_eq_some_iff.mp (h.live l hl)).1

/-- A number stands for one handling. -/
theorem Numbered.eq_of_number (h : Numbered s) {l l' : LiveReply}
    (hl : l ∈ s.live) (hl' : l' ∈ s.live) (heq : l.number = l'.number) :
    l = l' := by
  have hnodup : (s.live.map LiveReply.number).Nodup :=
    List.pairwise_map.mpr h.apart
  exact List.inj_on_of_nodup_map hnodup hl hl' heq

/-- Nothing changes but what no number depends on. -/
theorem Numbered.congr (h : Numbered s) (hlive : s'.live = s.live)
    (hstarting : ∀ c ∈ s'.starting, c ∈ s.starting)
    (hbegun : s'.begun = s.begun) (hlock : s'.inFlight = s.inFlight) :
    Numbered s' := by
  refine ⟨?_, ?_, ?_, ?_⟩
  · rw [hlive, hbegun]
    exact h.live
  · intro c hc
    rw [hbegun]
    exact h.starting c (hstarting c hc)
  · rw [hlive]
    exact h.apart
  · rw [hlive, hlock]
    exact h.locked

/-- A handling goes on to another stage, and may start a stream. -/
theorem Numbered.advance (h : Numbered s) {number : Nat} {stage : Stage}
    (hlive : s'.live = (s.advance number stage).live)
    (hstarting : ∀ c ∈ s'.starting, c ∈ s.starting ∨
      s.begun[c.number]? = some c.message)
    (hbegun : s'.begun = s.begun) (hlock : s'.inFlight = s.inFlight) :
    Numbered s' := by
  refine ⟨?_, ?_, ?_, ?_⟩
  · intro l' hl'
    rw [hlive] at hl'
    rw [hbegun]
    rcases mem_advance hl' with ⟨l, hl, -, rfl⟩ | ⟨hl, -⟩
    · exact h.live l hl
    · exact h.live l' hl
  · intro c hc
    rw [hbegun]
    rcases hstarting c hc with hc | hc
    · exact h.starting c hc
    · exact hc
  · rw [hlive]
    refine List.pairwise_map.mpr (h.apart.imp fun {l l'} hne => ?_)
    split <;> split <;> exact hne
  · intro did n hn
    rw [hlock] at hn
    obtain ⟨l, hl, hnumber, hpeer⟩ := h.locked did n hn
    rw [hlive]
    refine ⟨_, List.mem_map_of_mem hl, ?_, ?_⟩
    · split <;> exact hnumber
    · split <;> exact hpeer

/-- Handlings for a sender end, and its lock is released. -/
theorem Numbered.remove (h : Numbered s) {p : LiveReply → Bool}
    {did : String} (hlive : s'.live = s.live.filter p)
    (hgone : ∀ l ∈ s.live, p l = false → l.message.peer = did)
    (hstarting : ∀ c ∈ s'.starting, c ∈ s.starting)
    (hbegun : s'.begun = s.begun)
    (hlock : s'.inFlight = Function.update s.inFlight did none) :
    Numbered s' := by
  refine ⟨?_, ?_, ?_, ?_⟩
  · intro l hl
    rw [hlive] at hl
    rw [hbegun]
    exact h.live l (List.mem_of_mem_filter hl)
  · intro c hc
    rw [hbegun]
    exact h.starting c (hstarting c hc)
  · rw [hlive]
    exact h.apart.filter p
  · intro did' n hn
    rw [hlock] at hn
    by_cases hdid : did' = did
    · rw [hdid, Function.update_self] at hn
      cases hn
    · rw [Function.update_of_ne hdid] at hn
      obtain ⟨l, hl, hnumber, hpeer⟩ := h.locked did' n hn
      have hkept : p l = true := by
        by_contra hp
        have := hgone l hl (Bool.not_eq_true _ ▸ hp)
        exact hdid (hpeer.symm.trans this)
      rw [hlive]
      exact ⟨l, List.mem_filter.mpr ⟨hl, hkept⟩, hnumber, hpeer⟩

theorem Numbered.finish (h : Numbered s) {l : LiveReply} (hl : l ∈ s.live) :
    Numbered (s.finish l) := by
  refine h.remove rfl ?_ (fun _ hc => hc) rfl rfl
  intro l' hl' hp
  have hnumber : l'.number = l.number := by simpa using hp
  rw [h.eq_of_number hl' hl hnumber]

theorem Numbered.failRun (h : Numbered s) {m : InboxMessage} {number : Nat}
    (hm : s.begun[number]? = some m) (token : Option Nat) (reason : String) :
    Numbered (s.failRun m number token reason) := by
  refine h.remove rfl ?_ (fun _ hc => hc) rfl rfl
  intro l hl hp
  have hnumber : l.number = number := by
    simp only [decide_eq_false_iff_not, Decidable.not_not] at hp
    exact hp.1
  have hlive := h.live l hl
  rw [hnumber, hm] at hlive
  rw [Option.some.inj hlive]

/-- A handling begins. -/
theorem Numbered.begin (h : Numbered s) (m : InboxMessage)
    (set : List String) :
    Numbered { s with
      dedupe := set
      inFlight := Function.update s.inFlight m.peer (some s.begun.length)
      begun := s.begun ++ [m]
      live := s.live ++ [⟨s.begun.length, m, .reserving⟩] } := by
  refine ⟨?_, ?_, ?_, ?_⟩
  · intro l hl
    rcases List.mem_append.mp hl with hl | hl
    · exact Lib.Trace.getElem?_append_of_eq_some (h.live l hl) [m]
    · rw [List.mem_singleton.mp hl]
      simp
  · intro c hc
    exact Lib.Trace.getElem?_append_of_eq_some (h.starting c hc) [m]
  · rw [List.pairwise_append]
    refine ⟨h.apart, List.pairwise_singleton _ _, ?_⟩
    intro l hl l' hl'
    rw [List.mem_singleton.mp hl']
    exact Nat.ne_of_lt (h.lt_length hl)
  · intro did n hn
    by_cases hdid : did = m.peer
    · subst hdid
      dsimp only at hn
      rw [Function.update_self, Option.some.injEq] at hn
      exact ⟨_, List.mem_append_right _ (List.mem_singleton_self _), hn, rfl⟩
    · dsimp only at hn
      rw [Function.update_of_ne hdid] at hn
      obtain ⟨l, hl, hl'⟩ := h.locked did n hn
      exact ⟨l, List.mem_append_left _ hl, hl'⟩

/-- What deleting one run keeps, deleting the runs of a sender keeps. -/
theorem foldl_failRun {P : ReplyLoop → Prop} (reason : String)
    (hstep : ∀ (s : ReplyLoop) (l : LiveReply), P s → l ∈ s.live →
      l.stage.isRunning → P (s.failRun l.message l.number l.stage.token
        reason)) :
    ∀ (runs : List LiveReply) (s : ReplyLoop), P s →
      (runs.Pairwise fun l l' => l.number ≠ l'.number) →
      (∀ l ∈ runs, l ∈ s.live ∧ l.stage.isRunning) →
      P (runs.foldl (fun s l =>
        s.failRun l.message l.number l.stage.token reason) s) := by
  intro runs
  induction runs with
  | nil => exact fun _ h _ _ => h
  | cons l rest ih =>
      intro s h hapart hruns
      obtain ⟨hl, hrunning⟩ := hruns l List.mem_cons_self
      refine ih _ (hstep s l h hl hrunning) hapart.tail ?_
      intro l' hl'
      obtain ⟨hmem, hrunning'⟩ := hruns l' (List.mem_cons_of_mem l hl')
      have hne := List.rel_of_pairwise_cons hapart hl'
      refine ⟨List.mem_filter.mpr ⟨hmem, ?_⟩, hrunning'⟩
      simp [hne.symm]

theorem runsOf_spec (h : Numbered s) (did : String) :
    ((s.runsOf did).Pairwise fun l l' => l.number ≠ l'.number) ∧
      ∀ l ∈ s.runsOf did, l ∈ s.live ∧ l.stage.isRunning := by
  refine ⟨h.apart.filter _, fun l hl => ?_⟩
  have hmem := List.mem_filter.mp hl
  simp only [decide_eq_true_eq, Bool.decide_and, Bool.and_eq_true,
    Bool.decide_eq_true] at hmem
  exact ⟨hmem.1, hmem.2.1⟩

/-- What deleting a run keeps, and does not depend on what a changed key
sets, a changed key keeps. -/
theorem onKeyChange_induct {P : ReplyLoop → Prop} (h : Numbered s)
    (did : String)
    (hset : ∀ pending writes, P { s with
      keyChangePending := pending
      policyWrites := writes
      changed := Function.update s.changed did s.begun.length })
    (hstep : ∀ (s : ReplyLoop) (l : LiveReply), Numbered s → P s →
      l ∈ s.live → l.stage.isRunning → P (s.failRun l.message l.number
        l.stage.token "Contact's key changed — held for review.")) :
    Numbered (s.onKeyChange did) ∧ P (s.onKeyChange did) := by
  obtain ⟨hapart, hruns⟩ := runsOf_spec h did
  unfold onKeyChange
  refine foldl_failRun (P := fun s => Numbered s ∧ P s) _ ?_ _ _ ?_ hapart ?_
  · rintro s l ⟨hn, hp⟩ hl hrunning
    exact ⟨hn.failRun (hn.live l hl) _ _, hstep s l hn hp hl hrunning⟩
  · split
    · exact ⟨h.congr rfl (fun _ hc => hc) rfl rfl, hset _ _⟩
    · exact ⟨h.congr rfl (fun _ hc => hc) rfl rfl, hset _ _⟩
  · intro l hl
    split <;> exact hruns l hl

theorem Numbered.step (h : Numbered s) (event : Event) :
    Numbered (s.step event) := by
  have hmove := step_move s event
  generalize s.step event = s' at hmove ⊢
  cases hmove with
  | idle => exact h
  | skip m set => exact h.congr rfl (fun _ hc => hc) rfl rfl
  | begin m set => exact h.begin m set
  | finish _ l hl => exact h.finish hl
  | reserveDraft _ l hl => exact h.advance rfl (fun _ hc => .inl hc) rfl rfl
  | reserveAuto _ l hl => exact h.advance rfl (fun _ hc => .inl hc) rfl rfl
  | startRun _ l hl decision token reason hstage =>
      refine h.advance rfl (fun c hc => ?_) rfl rfl
      rcases List.mem_append.mp hc with hc | hc
      · exact .inl hc
      · rw [List.mem_singleton.mp hc]
        exact .inr (h.live l hl)
  | started c hc =>
      exact h.congr rfl (fun _ hc => List.mem_of_mem_filter hc) rfl rfl
  | startFailed c hc reason =>
      have hkept : Numbered { s with
          starting := s.starting.filter fun c' => c'.number ≠ c.number } :=
        h.congr rfl (fun _ hc => List.mem_of_mem_filter hc) rfl rfl
      exact hkept.failRun (h.starting c hc) _ _
  | chunk _ l hl => exact h.advance rfl (fun _ hc => .inl hc) rfl rfl
  | dispatch _ l hl => exact h.advance rfl (fun _ hc => .inl hc) rfl rfl
  | drafted _ l hl =>
      exact (h.finish hl).congr rfl (fun _ hc => hc) rfl rfl
  | fail _ l hl => exact h.failRun (h.live l hl) _ _
  | sendReturned _ l hl id token text error =>
      cases error with
      | none => exact (h.finish hl).congr rfl (fun _ hc => hc) rfl rfl
      | some reason =>
          exact (h.finish hl).congr rfl (fun _ hc => hc) rfl rfl
  | keyChanged did =>
      exact (onKeyChange_induct (P := fun _ => True) h did
        (fun _ _ => trivial) fun _ _ _ _ _ _ => trivial).1
  | acknowledge | sendOk | sendErr | approve | discard | render | quiet
  | policySet =>
      exact h.congr rfl (fun _ hc => hc) rfl rfl

end Moves

end ReplyLoop

end AirNote
