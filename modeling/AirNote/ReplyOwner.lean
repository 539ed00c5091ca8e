import AirNote.ReplyLoop

/-!
# The owner of the reply loop

What the loop promises the user, over every order of what may happen, and the
events that break it. A discarded reply stays in `runs` and is sent when its
stream is done, after its reservation was cancelled. A frame that says the key
changed finds only the handlings in `runs`, and one that still waits for its
reservation or for the history goes on. An acknowledgement that arrives before
the call of `inboxSend` returned finds no record. A stream that could not be
started releases the lock of its sender also when its run is gone and another
message has taken the lock. In an order without these events all of it holds.

## Main results

* `reply_loop_obeys` — in an order without these events the loop does what it
  promises.
* `reply_loop_disobeys` — each of these events breaks a promise.
-/

namespace AirNote

open Lib

/-- The handling waits for its reservation or for the history. -/
def Stage.isWaiting : Stage → Bool
  | .reserving => true
  | .reading .. => true
  | _ => false

/-- The reply is dispatched. -/
def Stage.isSending : Stage → Bool
  | .sending .. => true
  | _ => false

theorem Stage.cases (stage : Stage) :
    (stage.isWaiting = true ∧ stage.isRunning = false ∧
        stage.isSending = false) ∨
      (stage.isWaiting = false ∧ stage.isRunning = true ∧
        stage.isSending = false) ∨
      (stage.isWaiting = false ∧ stage.isRunning = false ∧
        stage.isSending = true) := by
  cases stage with
  | reserving | reading => exact .inl ⟨rfl, rfl, rfl⟩
  | running => exact .inr (.inl ⟨rfl, rfl, rfl⟩)
  | sending => exact .inr (.inr ⟨rfl, rfl, rfl⟩)

namespace ReplyLoop

/-! ## What is promised -/

/-- A discarded reply is not sent. An automatic send is dispatched while its
reservation is open, and not after the key changed. An acknowledged one is
confirmed. A lock is held by a handling that has not ended, and is released by
the handling that took it or a later one. -/
structure Obeys (s : ReplyLoop) : Prop where
  discarded : ∀ d ∈ s.dispatched, d.discarded = false
  opened : ∀ d ∈ s.dispatched, d.token.isSome → d.opened = true
  keyChanged : ∀ d ∈ s.dispatched, d.token.isSome → d.keyChanged = false
  confirmed : ∀ (id : Nat) (d : Dispatch) (t : Nat),
    s.dispatched[id]? = some d → d.token = some t → id ∈ s.acked →
      s.reservation t = .confirmed
  locked : ∀ did n, s.inFlight did = some n →
    ∃ l ∈ s.live, l.number = n ∧ l.message.peer = did
  released : ∀ r ∈ s.released, r.2 ≤ r.1

/-- The event is none of those that break a promise: no message that is taken
has the envelope of a handling under way; no key changes for a sender with a
handling that waits; no stream fails to start whose run is gone; no automatic
send is acknowledged before the call returned, and the confirmation goes
through; the row that is approved is the one that was set; and no reply is
discarded that would still be sent. -/
def Orderly (s : ReplyLoop) : Event → Prop
  | .message m => m.envelopeId ∈ s.dedupe ∨
      ∀ l ∈ s.live, l.message.envelopeId ≠ m.envelopeId
  | .keyChanged did => ∀ l ∈ s.live, l.message.peer = did →
      l.stage.isWaiting = false
  | .started number (some _) => (∃ c ∈ s.starting, c.number = number) →
      ∃ l ∈ s.live, l.number = number ∧ l.stage.isRunning = true
  | .sendOk id first second => ∀ d, s.dispatched[id]? = some d →
      d.token.isSome → id ∈ s.acked ∨
        ((∃ rec, (id, rec) ∈ s.sends) ∧ (first || second) = true)
  | .approve envelopeId => s.shown envelopeId = s.replies envelopeId
  | .discard envelopeId => ∀ view, s.shown envelopeId = some view →
      ∀ l ∈ s.live, l.stage.isSending = false →
        ∀ t, l.stage.token = some t →
          view.reply ≠ some l.number ∧ view.token ≠ some (some t)
  | _ => True

/-! ## The locks -/

section Locks

variable {s s' : ReplyLoop}

/-- Every handling that has not ended holds the lock of its sender, and no
two are of one envelope. -/
structure Locked (s : ReplyLoop) : Prop where
  envelopes : ∀ l ∈ s.live, ∀ l' ∈ s.live,
    l.message.envelopeId = l'.message.envelopeId → l.number = l'.number
  held : ∀ l ∈ s.live, s.inFlight l.message.peer = some l.number
  released : ∀ r ∈ s.released, r.2 ≤ r.1

/-- A handling that goes on is the one that it was. -/
theorem advanced_of_mem {number : Nat} {stage : Stage} {l' : LiveReply}
    (h : l' ∈ (s.advance number stage).live) :
    ∃ l ∈ s.live, l.number = l'.number ∧ l.message = l'.message := by
  rcases mem_advance h with ⟨l, hl, -, rfl⟩ | ⟨hl, -⟩
  · exact ⟨l, hl, rfl, rfl⟩
  · exact ⟨l', hl, rfl, rfl⟩

/-- No handling is new, and no lock changes. -/
theorem Locked.follow (h : Locked s)
    (hlive : ∀ l' ∈ s'.live,
      ∃ l ∈ s.live, l.number = l'.number ∧ l.message = l'.message)
    (hlock : s'.inFlight = s.inFlight)
    (hreleased : s'.released = s.released) : Locked s' := by
  refine ⟨?_, ?_, ?_⟩
  · intro l₁ h₁ l₂ h₂ heq
    obtain ⟨k₁, hk₁, hn₁, hm₁⟩ := hlive l₁ h₁
    obtain ⟨k₂, hk₂, hn₂, hm₂⟩ := hlive l₂ h₂
    rw [← hm₁, ← hm₂] at heq
    rw [← hn₁, ← hn₂]
    exact h.envelopes k₁ hk₁ k₂ hk₂ heq
  · intro l' hl'
    obtain ⟨l, hl, hn, hm⟩ := hlive l' hl'
    rw [hlock, ← hm, ← hn]
    exact h.held l hl
  · rw [hreleased]
    exact h.released

theorem Locked.congr (h : Locked s) (hlive : s'.live = s.live)
    (hlock : s'.inFlight = s.inFlight)
    (hreleased : s'.released = s.released) : Locked s' :=
  h.follow (fun l hl => ⟨l, hlive ▸ hl, rfl, rfl⟩) hlock hreleased

/-- A handling ends and releases the lock it took. -/
theorem Locked.remove (h : Locked s) {l : LiveReply} (hl : l ∈ s.live)
    {p : LiveReply → Bool} (hlive : s'.live = s.live.filter p)
    (hgone : ∀ l' ∈ s.live, l'.number = l.number → p l' = false)
    (hlock : s'.inFlight = Function.update s.inFlight l.message.peer none)
    (hreleased : s'.released = s.released ++
      ((s.inFlight l.message.peer).map fun owner =>
        (l.number, owner)).toList) : Locked s' := by
  refine ⟨?_, ?_, ?_⟩
  · intro l₁ h₁ l₂ h₂
    rw [hlive] at h₁ h₂
    exact h.envelopes l₁ (List.mem_of_mem_filter h₁) l₂
      (List.mem_of_mem_filter h₂)
  · intro l' hl'
    rw [hlive] at hl'
    obtain ⟨hmem, hkept⟩ := List.mem_filter.mp hl'
    have hheld := h.held l' hmem
    have hpeer : l'.message.peer ≠ l.message.peer := by
      intro heq
      rw [heq, h.held l hl, Option.some.injEq] at hheld
      rw [hgone l' hmem hheld.symm] at hkept
      cases hkept
    rw [hlock, Function.update_of_ne hpeer]
    exact hheld
  · intro r hr
    rw [hreleased, h.held l hl] at hr
    rcases List.mem_append.mp hr with hr | hr
    · exact h.released r hr
    · rw [Option.map_some, Option.toList_some, List.mem_singleton] at hr
      subst hr
      exact Nat.le_refl _

theorem Locked.finish (h : Locked s) {l : LiveReply} (hl : l ∈ s.live) :
    Locked (s.finish l) :=
  h.remove hl rfl (fun _ _ heq => by simp [heq]) rfl rfl

theorem Locked.failRun (h : Locked s) (hn : Numbered s) {l : LiveReply}
    (hl : l ∈ s.live) (hrunning : l.stage.isRunning = true)
    (token : Option Nat) (reason : String) :
    Locked (s.failRun l.message l.number token reason) := by
  refine h.remove hl rfl ?_ rfl rfl
  intro l' hl' heq
  rw [hn.eq_of_number hl' hl heq]
  simp [hrunning]

/-- A handling begins, and its sender was not locked. -/
theorem Locked.begin (h : Locked s) {m : InboxMessage} (set : List String)
    (hfree : s.inFlight m.peer = none)
    (henvelope : ∀ l ∈ s.live, l.message.envelopeId ≠ m.envelopeId) :
    Locked { s with
      dedupe := set
      inFlight := Function.update s.inFlight m.peer (some s.begun.length)
      begun := s.begun ++ [m]
      live := s.live ++ [⟨s.begun.length, m, .reserving⟩] } := by
  refine ⟨?_, ?_, h.released⟩
  · intro l₁ h₁ l₂ h₂ heq
    rcases List.mem_append.mp h₁ with h₁ | h₁ <;>
      rcases List.mem_append.mp h₂ with h₂ | h₂
    · exact h.envelopes l₁ h₁ l₂ h₂ heq
    · rw [List.mem_singleton.mp h₂] at heq
      exact absurd heq (henvelope l₁ h₁)
    · rw [List.mem_singleton.mp h₁] at heq
      exact absurd heq.symm (henvelope l₂ h₂)
    · rw [List.mem_singleton.mp h₁, List.mem_singleton.mp h₂]
  · intro l hl
    dsimp only
    rcases List.mem_append.mp hl with hl | hl
    · have hheld := h.held l hl
      have hpeer : l.message.peer ≠ m.peer := by
        intro heq
        rw [heq, hfree] at hheld
        cases hheld
      rw [Function.update_of_ne hpeer]
      exact hheld
    · rw [List.mem_singleton.mp hl, Function.update_self]

/-- The call whose stream failed to start has its run. -/
theorem run_of_started (hn : Numbered s) {c : StartCall}
    (hc : c ∈ s.starting) {reason : String}
    (hok : s.Orderly (.started c.number (some reason))) :
    ∃ l ∈ s.live, l.number = c.number ∧ l.message = c.message ∧
      l.stage.isRunning = true := by
  obtain ⟨l, hl, hnumber, hrunning⟩ := hok ⟨c, hc, rfl⟩
  have hbegun := hn.live l hl
  rw [hnumber, hn.starting c hc] at hbegun
  exact ⟨l, hl, hnumber, (Option.some.inj hbegun).symm, hrunning⟩

theorem Locked.step (h : Locked s) (hn : Numbered s) {event : Event}
    (hok : s.Orderly event) : Locked (s.step event) := by
  have hmove := step_move s event
  generalize s.step event = s' at hmove ⊢
  cases hmove with
  | idle => exact h
  | begin m set hfresh hfree =>
      refine h.begin set hfree ?_
      rcases hok with hmem | henvelope
      · exact absurd hmem hfresh
      · exact henvelope
  | finish _ l hl => exact h.finish hl
  | reserveDraft _ l hl => exact h.follow (fun _ => advanced_of_mem) rfl rfl
  | reserveAuto _ l hl => exact h.follow (fun _ => advanced_of_mem) rfl rfl
  | startRun _ l hl => exact h.follow (fun _ => advanced_of_mem) rfl rfl
  | startFailed c hc reason =>
      obtain ⟨l, hl, hnumber, hmessage, hrunning⟩ := run_of_started hn hc hok
      have hfail := h.failRun hn hl hrunning c.token reason
      rw [hnumber, hmessage] at hfail
      exact hfail.congr rfl rfl rfl
  | chunk _ l hl => exact h.follow (fun _ => advanced_of_mem) rfl rfl
  | dispatch _ l hl => exact h.follow (fun _ => advanced_of_mem) rfl rfl
  | drafted _ l hl => exact (h.finish hl).congr rfl rfl rfl
  | fail _ l hl decision token reason text message hstage =>
      exact h.failRun hn hl (by rw [hstage]; rfl) _ _
  | sendReturned _ l hl id token text error =>
      cases error with
      | none => exact (h.finish hl).congr rfl rfl rfl
      | some reason => exact (h.finish hl).congr rfl rfl rfl
  | keyChanged did =>
      have hkept := onKeyChange_induct (P := Locked) hn did
        (fun _ _ => h.congr rfl rfl rfl)
        (fun _ _ hn h hl hrunning => h.failRun hn hl hrunning _ _)
      exact hkept.2
  | skip | started | acknowledge | sendOk | sendErr | approve | discard
  | render | quiet | policySet => exact h.congr rfl rfl rfl

end Locks

/-! ## The reservations -/

section Reservations

variable {s s' : ReplyLoop}

/-- A handling that is not dispatched has its reservation open; one that is
dispatched has its call or its record, and is confirmed when acknowledged. -/
structure Reserved (s : ReplyLoop) : Prop where
  tokens : ∀ l ∈ s.live, ∀ t, l.stage.token = some t → t = l.number
  opened : ∀ l ∈ s.live, l.stage.isSending = false →
    ∀ t, l.stage.token = some t → s.reservation t = .opened
  starting : ∀ c ∈ s.starting, ∀ t, c.token = some t → t = c.number
  stashed : ∀ e ∈ s.sends, (∀ l ∈ s.live, l.number ≠ e.2.token) ∧
    ∃ d, s.dispatched[e.1]? = some d ∧ d.token = some e.2.token
  sending : ∀ l ∈ s.live, ∀ id t text, l.stage = .sending id t text →
    ∃ d, s.dispatched[id]? = some d ∧ d.token = some t
  spent : ∀ d ∈ s.dispatched, ∀ t, d.token = some t →
    t < s.begun.length ∧
      ∀ l ∈ s.live, l.number = t → l.stage.isSending = true
  wasOpen : ∀ d ∈ s.dispatched, d.token.isSome → d.opened = true
  acked : ∀ id ∈ s.acked, id < s.dispatched.length
  confirmed : ∀ (id : Nat) (d : Dispatch) (t : Nat),
    s.dispatched[id]? = some d → d.token = some t → id ∈ s.acked →
      s.reservation t = .confirmed

/-- Cancelling leaves other reservations, and confirmed ones. -/
theorem cancel_reservation (token : Option Nat) (t : Nat) :
    (token ≠ some t →
      (s.cancel token).reservation t = s.reservation t) ∧
    (s.reservation t = .confirmed →
      (s.cancel token).reservation t = .confirmed) := by
  constructor
  · intro hne
    exact if_neg fun h => hne h.1
  · intro hconfirmed
    show (if token = some t ∧ s.reservation t = .opened then _ else _) = _
    rw [if_neg fun h => by rw [hconfirmed] at h; cases h.2]
    exact hconfirmed

/-- Handlings end, and no reservation of another one changes. -/
theorem Reserved.shrink (h : Reserved s) (gone : List Nat)
    (hlive : ∀ l ∈ s'.live, l ∈ s.live)
    (hstarting : ∀ c ∈ s'.starting, c ∈ s.starting)
    (hsends : ∀ e ∈ s'.sends, e ∈ s.sends)
    (hbegun : s'.begun = s.begun) (hdispatched : s'.dispatched = s.dispatched)
    (hacked : s'.acked = s.acked)
    (hreservation : ∀ t, t ∉ gone → s'.reservation t = s.reservation t)
    (hconfirmed : ∀ t, s.reservation t = .confirmed →
      s'.reservation t = .confirmed)
    (hgone : ∀ l ∈ s'.live, l.stage.isSending = false →
      ∀ t, l.stage.token = some t → t ∉ gone) : Reserved s' := by
  refine ⟨?_, ?_, ?_, ?_, ?_, ?_, ?_, ?_, ?_⟩
  · exact fun l hl => h.tokens l (hlive l hl)
  · intro l hl hstage t ht
    rw [hreservation t (hgone l hl hstage t ht)]
    exact h.opened l (hlive l hl) hstage t ht
  · exact fun c hc => h.starting c (hstarting c hc)
  · intro e he
    obtain ⟨hnone, hd⟩ := h.stashed e (hsends e he)
    rw [hdispatched]
    exact ⟨fun l hl => hnone l (hlive l hl), hd⟩
  · intro l hl
    rw [hdispatched]
    exact h.sending l (hlive l hl)
  · intro d hd t ht
    rw [hdispatched] at hd
    obtain ⟨hlt, hsending⟩ := h.spent d hd t ht
    rw [hbegun]
    exact ⟨hlt, fun l hl => hsending l (hlive l hl)⟩
  · rw [hdispatched]
    exact h.wasOpen
  · rw [hacked, hdispatched]
    exact h.acked
  · intro id d t hd ht hmem
    rw [hdispatched] at hd
    rw [hacked] at hmem
    exact hconfirmed t (h.confirmed id d t hd ht hmem)

/-- Nothing that concerns a reservation changes. -/
theorem Reserved.congr (h : Reserved s)
    (hlive : ∀ l ∈ s'.live, l ∈ s.live)
    (hstarting : ∀ c ∈ s'.starting, c ∈ s.starting)
    (hsends : ∀ e ∈ s'.sends, e ∈ s.sends)
    (hbegun : s'.begun = s.begun) (hdispatched : s'.dispatched = s.dispatched)
    (hacked : s'.acked = s.acked)
    (hreservation : s'.reservation = s.reservation) : Reserved s' := by
  refine h.shrink [] hlive hstarting hsends hbegun hdispatched
    hacked (fun t _ => by rw [hreservation]) (fun t ht => ?_)
    fun _ _ _ _ _ => List.not_mem_nil
  rw [hreservation]
  exact ht

theorem Reserved.finish (h : Reserved s) (l : LiveReply) :
    Reserved (s.finish l) :=
  h.congr (fun _ hl => List.mem_of_mem_filter hl) (fun _ hc => hc)
    (fun _ he => he) rfl rfl rfl rfl

/-- A reservation is cancelled that no handling waits with. -/
theorem Reserved.cancel (h : Reserved s) {token : Option Nat}
    (hgone : ∀ l ∈ s.live, l.stage.isSending = false →
      ∀ t, l.stage.token = some t → token ≠ some t) :
    Reserved (s.cancel token) := by
  refine h.shrink token.toList (fun _ hl => hl) (fun _ hc => hc)
    (fun _ he => he) rfl rfl rfl ?_ ?_ ?_
  · intro t ht
    exact (cancel_reservation token t).1 fun heq => ht (by simp [heq])
  · exact fun t ht => (cancel_reservation token t).2 ht
  · intro l hl hstage t ht hmem
    exact hgone l hl hstage t ht (Option.mem_toList.mp hmem)

/-- A run is deleted and its reservation cancelled. -/
theorem Reserved.failRun (h : Reserved s) (hn : Numbered s) {l : LiveReply}
    (hl : l ∈ s.live) (hrunning : l.stage.isRunning = true)
    {token : Option Nat} (htoken : ∀ t, token = some t → t = l.number)
    (reason : String) :
    Reserved (s.failRun l.message l.number token reason) := by
  refine h.shrink token.toList (fun _ hl => List.mem_of_mem_filter hl)
    (fun _ hc => hc) (fun _ he => he) rfl rfl rfl ?_ ?_ ?_
  · intro t ht
    exact (cancel_reservation token t).1 fun heq => ht (by simp [heq])
  · exact fun t ht => (cancel_reservation token t).2 ht
  · intro l' hl' _ t ht hmem
    have hnumber : l'.number = l.number := by
      rw [← h.tokens l' (List.mem_of_mem_filter hl') t ht]
      exact htoken t (Option.mem_toList.mp hmem)
    have heq := hn.eq_of_number (List.mem_of_mem_filter hl') hl hnumber
    have hkept := (List.mem_filter.mp hl').2
    rw [heq] at hkept
    simp [hrunning] at hkept

/-- A handling that is not dispatched goes on, with a reservation that is
open. -/
theorem Reserved.advance (h : Reserved s) {l : LiveReply}
    (hl : l ∈ s.live) (hstage : l.stage.isSending = false) {stage : Stage}
    (hstage' : stage.isSending = false)
    (htoken : ∀ t, stage.token = some t →
      t = l.number ∧ s'.reservation t = .opened)
    (hreservation : ∀ t, t ≠ l.number →
      s'.reservation t = s.reservation t)
    (hlive : s'.live = (s.advance l.number stage).live)
    (hstarting : ∀ c ∈ s'.starting, c ∈ s.starting ∨
      ∀ t, c.token = some t → t = c.number)
    (hsends : s'.sends = s.sends) (hbegun : s'.begun = s.begun)
    (hdispatched : s'.dispatched = s.dispatched)
    (hacked : s'.acked = s.acked) : Reserved s' := by
  -- What is dispatched is not the reply of this handling.
  have hother : ∀ d ∈ s.dispatched, ∀ t, d.token = some t →
      t ≠ l.number := by
    intro d hd t ht heq
    have := (h.spent d hd t ht).2 l hl heq.symm
    rw [hstage] at this
    cases this
  refine ⟨?_, ?_, ?_, ?_, ?_, ?_, ?_, ?_, ?_⟩
  · intro l' hl' t ht
    rw [hlive] at hl'
    rcases mem_advance hl' with ⟨k, hk, hnumber, rfl⟩ | ⟨hmem, -⟩
    · exact (htoken t ht).1.trans hnumber.symm
    · exact h.tokens l' hmem t ht
  · intro l' hl' hsending t ht
    rw [hlive] at hl'
    rcases mem_advance hl' with ⟨k, hk, hnumber, rfl⟩ | ⟨hmem, hne⟩
    · exact (htoken t ht).2
    · rw [hreservation t (h.tokens l' hmem t ht ▸ hne)]
      exact h.opened l' hmem hsending t ht
  · intro c hc t ht
    rcases hstarting c hc with hc | hnew
    · exact h.starting c hc t ht
    · exact hnew t ht
  · intro e he
    rw [hsends] at he
    obtain ⟨hnone, hd⟩ := h.stashed e he
    rw [hdispatched]
    refine ⟨fun l' hl' => ?_, hd⟩
    rw [hlive] at hl'
    obtain ⟨k, hk, hnumber, -⟩ := advanced_of_mem hl'
    rw [← hnumber]
    exact hnone k hk
  · intro l' hl' id t text hl'stage
    rw [hlive] at hl'
    rw [hdispatched]
    rcases mem_advance hl' with ⟨k, hk, hnumber, rfl⟩ | ⟨hmem, -⟩
    · rw [show stage = .sending id t text from hl'stage] at hstage'
      cases hstage'
    · exact h.sending l' hmem id t text hl'stage
  · intro d hd t ht
    rw [hdispatched] at hd
    obtain ⟨hlt, hsending⟩ := h.spent d hd t ht
    rw [hbegun, hlive]
    refine ⟨hlt, fun l' hl' heq => ?_⟩
    rcases mem_advance hl' with ⟨k, hk, hnumber, rfl⟩ | ⟨hmem, -⟩
    · exact absurd (heq.symm.trans hnumber) (hother d hd t ht)
    · exact hsending l' hmem heq
  · rw [hdispatched]
    exact h.wasOpen
  · rw [hacked, hdispatched]
    exact h.acked
  · intro id d t hd ht hmem
    rw [hdispatched] at hd
    rw [hacked] at hmem
    rw [hreservation t (hother d (List.mem_of_getElem? hd) t ht)]
    exact h.confirmed id d t hd ht hmem

theorem Reserved.begin (h : Reserved s) (m : InboxMessage)
    (set : List String) :
    Reserved { s with
      dedupe := set
      inFlight := Function.update s.inFlight m.peer (some s.begun.length)
      begun := s.begun ++ [m]
      live := s.live ++ [⟨s.begun.length, m, .reserving⟩] } := by
  refine ⟨?_, ?_, h.starting, ?_, ?_, ?_, h.wasOpen, h.acked, h.confirmed⟩
  · intro l hl t ht
    rcases List.mem_append.mp hl with hl | hl
    · exact h.tokens l hl t ht
    · rw [List.mem_singleton.mp hl] at ht
      cases ht
  · intro l hl hstage t ht
    rcases List.mem_append.mp hl with hl | hl
    · exact h.opened l hl hstage t ht
    · rw [List.mem_singleton.mp hl] at ht
      cases ht
  · intro e he
    obtain ⟨hnone, d, hd, ht⟩ := h.stashed e he
    refine ⟨fun l hl => ?_, d, hd, ht⟩
    rcases List.mem_append.mp hl with hl | hl
    · exact hnone l hl
    · rw [List.mem_singleton.mp hl]
      exact (Nat.ne_of_lt (h.spent d (List.mem_of_getElem? hd) _ ht).1).symm
  · intro l hl id t text hstage
    rcases List.mem_append.mp hl with hl | hl
    · exact h.sending l hl id t text hstage
    · rw [List.mem_singleton.mp hl] at hstage
      cases hstage
  · intro d hd t ht
    obtain ⟨hlt, hsending⟩ := h.spent d hd t ht
    refine ⟨?_, fun l hl heq => ?_⟩
    · show t < (s.begun ++ [m]).length
      rw [List.length_append]
      omega
    · rcases List.mem_append.mp hl with hl | hl
      · exact hsending l hl heq
      · rw [List.mem_singleton.mp hl] at heq
        exact absurd heq (Nat.ne_of_lt hlt).symm

/-- The reply of a run is dispatched. -/
theorem Reserved.dispatchRun (h : Reserved s) (hn : Numbered s)
    {l : LiveReply} (hl : l ∈ s.live) {token : Nat} {reason text : String}
    (hstage : l.stage = .running .auto (some token) reason text) :
    Reserved (s.dispatchRun l token text) := by
  have htoken : l.stage.token = some token := by rw [hstage]; rfl
  have hnumber := h.tokens l hl token htoken
  have hopen := h.opened l hl (by rw [hstage]; rfl) token htoken
  refine ⟨?_, ?_, h.starting, ?_, ?_, ?_, ?_, ?_, ?_⟩
  · intro l' hl' t ht
    rcases mem_advance hl' with ⟨k, hk, hk', rfl⟩ | ⟨hmem, -⟩
    · rw [← Option.some.inj ht]
      exact hnumber.trans hk'.symm
    · exact h.tokens l' hmem t ht
  · intro l' hl' hsending t ht
    rcases mem_advance hl' with ⟨k, hk, hk', rfl⟩ | ⟨hmem, -⟩
    · cases hsending
    · exact h.opened l' hmem hsending t ht
  · intro e he
    obtain ⟨hnone, d, hd, ht⟩ := h.stashed e he
    refine ⟨fun l' hl' => ?_, d, Trace.getElem?_append_of_eq_some hd _, ht⟩
    obtain ⟨k, hk, hk', -⟩ := advanced_of_mem hl'
    rw [← hk']
    exact hnone k hk
  · intro l' hl' id t text' hl'stage
    rcases mem_advance hl' with ⟨k, hk, hk', rfl⟩ | ⟨hmem, -⟩
    · obtain ⟨rfl, rfl, -⟩ := Stage.sending.inj hl'stage
      exact ⟨_, List.getElem?_concat_length, rfl⟩
    · obtain ⟨d, hd, ht⟩ := h.sending l' hmem id t text' hl'stage
      exact ⟨d, Trace.getElem?_append_of_eq_some hd _, ht⟩
  · intro d hd t ht
    rcases List.mem_append.mp hd with hd | hd
    · obtain ⟨hlt, hsending⟩ := h.spent d hd t ht
      refine ⟨hlt, fun l' hl' heq => ?_⟩
      rcases mem_advance hl' with ⟨k, hk, hk', rfl⟩ | ⟨hmem, -⟩
      · rfl
      · exact hsending l' hmem heq
    · rw [List.mem_singleton.mp hd] at ht
      have hteq : token = t := Option.some.inj ht
      refine ⟨?_, fun l' hl' heq => ?_⟩
      · rw [← hteq, hnumber]
        exact hn.lt_length hl
      · rcases mem_advance hl' with ⟨k, hk, hk', rfl⟩ | ⟨-, hne⟩
        · rfl
        · exact absurd (heq.trans (hteq.symm.trans hnumber)) hne
  · intro d hd hauto
    rcases List.mem_append.mp hd with hd | hd
    · exact h.wasOpen d hd hauto
    · rw [List.mem_singleton.mp hd]
      exact decide_eq_true hopen
  · intro id hid
    have hlt := h.acked id hid
    show id < (s.dispatched ++ [_]).length
    rw [List.length_append]
    omega
  · intro id d t hd ht hmem
    have hlt := h.acked id hmem
    have hd' : (s.dispatched ++ [_])[id]? = some d := hd
    rw [List.getElem?_append_left hlt] at hd'
    exact h.confirmed id d t hd' ht hmem

/-- A draft is dispatched. -/
theorem Reserved.dispatch (h : Reserved s) {d : Dispatch}
    (hd : d.token = none) (approving : List (Nat × String)) :
    Reserved { s.dispatch d with approving := approving } := by
  refine ⟨h.tokens, h.opened, h.starting, ?_, ?_, ?_, ?_, ?_, ?_⟩
  · intro e he
    obtain ⟨hnone, d', hd', ht⟩ := h.stashed e he
    exact ⟨hnone, d', Trace.getElem?_append_of_eq_some hd' [d], ht⟩
  · intro l hl id t text hstage
    obtain ⟨d', hd', ht⟩ := h.sending l hl id t text hstage
    exact ⟨d', Trace.getElem?_append_of_eq_some hd' [d], ht⟩
  · intro d' hd' t ht
    rcases List.mem_append.mp hd' with hd' | hd'
    · exact h.spent d' hd' t ht
    · rw [List.mem_singleton.mp hd', hd] at ht
      cases ht
  · intro d' hd' hauto
    rcases List.mem_append.mp hd' with hd' | hd'
    · exact h.wasOpen d' hd' hauto
    · rw [List.mem_singleton.mp hd', hd] at hauto
      cases hauto
  · intro id hid
    have hlt := h.acked id hid
    show id < (s.dispatched ++ [d]).length
    rw [List.length_append]
    omega
  · intro id d' t hd' ht hmem
    have hlt := h.acked id hmem
    have hold : (s.dispatched ++ [d])[id]? = some d' := hd'
    rw [List.getElem?_append_left hlt] at hold
    exact h.confirmed id d' t hold ht hmem

/-- The call of `inboxSend` returned. -/
theorem Reserved.sendReturned (h : Reserved s) {l : LiveReply}
    (hl : l ∈ s.live) {id token : Nat} {text : String}
    (hstage : l.stage = .sending id token text) (error : Option String) :
    Reserved (s.sendReturned l id token text error) := by
  have hnumber := h.tokens l hl token (by rw [hstage]; rfl)
  have hfinish := h.finish l
  have hother : ∀ l' ∈ (s.finish l).live, l'.number ≠ token := by
    intro l' hl'
    have hne := (List.mem_filter.mp hl').2
    rw [hnumber]
    simpa using hne
  cases error with
  | none =>
      refine ⟨hfinish.tokens, hfinish.opened, hfinish.starting, ?_,
        hfinish.sending, hfinish.spent, hfinish.wasOpen, hfinish.acked,
        hfinish.confirmed⟩
      intro e he
      rcases List.mem_append.mp he with he | he
      · exact hfinish.stashed e he
      · rw [List.mem_singleton.mp he]
        exact ⟨hother, h.sending l hl id token text hstage⟩
  | some reason =>
      have hcancel : Reserved ((s.finish l).cancel (some token)) := by
        refine hfinish.cancel fun l' hl' _ t ht heq => ?_
        have hl'number := hfinish.tokens l' hl' t ht
        rw [← Option.some.inj heq] at hl'number
        exact hother l' hl' hl'number.symm
      exact hcancel.congr (fun _ hl => hl) (fun _ hc => hc) (fun _ he => he)
        rfl rfl rfl rfl

/-- An acknowledgement is of what was dispatched. -/
theorem mem_acknowledge {id id' : Nat}
    (h : id' ∈ (s.acknowledge id).acked) :
    id' ∈ s.acked ∨ id' = id ∧ id < s.dispatched.length := by
  have hmem : id' ∈ if id < s.dispatched.length then s.acked ++ [id]
      else s.acked := h
  split at hmem
  · rename_i hlt
    rcases List.mem_append.mp hmem with hmem | hmem
    · exact .inl hmem
    · exact .inr ⟨List.mem_singleton.mp hmem, hlt⟩
  · exact .inl hmem

theorem Reserved.acked_acknowledge (h : Reserved s) {id : Nat} :
    ∀ id' ∈ (s.acknowledge id).acked, id' < s.dispatched.length := by
  intro id' hid'
  rcases mem_acknowledge hid' with hold | ⟨rfl, hlt⟩
  · exact h.acked id' hold
  · exact hlt

/-- Only a repeated acknowledgement finds no record. -/
theorem Reserved.acknowledge (h : Reserved s) {id : Nat}
    {first second : Bool} (hok : s.Orderly (.sendOk id first second))
    (hnone : ∀ e ∈ s.sends, e.1 ≠ id) : Reserved (s.acknowledge id) := by
  refine ⟨h.tokens, h.opened, h.starting, h.stashed, h.sending, h.spent,
    h.wasOpen, h.acked_acknowledge, ?_⟩
  intro id' d t hd ht hmem
  rcases mem_acknowledge hmem with hold | ⟨rfl, -⟩
  · exact h.confirmed id' d t hd ht hold
  · rcases hok d hd (by rw [ht]; rfl) with hold | ⟨⟨rec, hrec⟩, -⟩
    · exact h.confirmed id' d t hd ht hold
    · exact absurd rfl (hnone _ hrec)

/-- The record of an acknowledged send is taken, and the reservation
confirmed. -/
theorem Reserved.sendOk (h : Reserved s) {id : Nat} {first second : Bool}
    (hok : s.Orderly (.sendOk id first second)) {rec : SendRecord}
    (hrec : (id, rec) ∈ s.sends) :
    Reserved (((s.acknowledge id).unstash id).confirm rec.token
      (first || second)) := by
  obtain ⟨hnone, d₀, hd₀, ht₀⟩ := h.stashed _ hrec
  have hconfirm : ∀ t, s.reservation t = .confirmed ∨
      t = rec.token ∧ (first || second) = true →
      (((s.acknowledge id).unstash id).confirm rec.token
        (first || second)).reservation t = .confirmed := by
    intro t ht
    show (if (first || second) = true then
      Function.update s.reservation rec.token .confirmed
      else s.reservation) t = _
    rcases ht with ht | ⟨rfl, hthrough⟩
    · split
      · by_cases heq : t = rec.token
        · rw [heq, Function.update_self]
        · rw [Function.update_of_ne heq, ht]
      · exact ht
    · rw [if_pos hthrough, Function.update_self]
  refine ⟨h.tokens, ?_, h.starting, ?_, h.sending, h.spent, h.wasOpen,
    h.acked_acknowledge, ?_⟩
  · intro l hl hstage t ht
    have hne : t ≠ rec.token := fun heq =>
      hnone l hl ((h.tokens l hl t ht).symm.trans heq)
    have hopen := h.opened l hl hstage t ht
    show (if (first || second) = true then
      Function.update s.reservation rec.token .confirmed
      else s.reservation) t = _
    split
    · rw [Function.update_of_ne hne, hopen]
    · exact hopen
  · exact fun e he => h.stashed e (List.mem_of_mem_filter he)
  · intro id' d t hd ht hmem
    refine hconfirm t ?_
    rcases mem_acknowledge hmem with hold | ⟨rfl, -⟩
    · exact .inl (h.confirmed id' d t hd ht hold)
    · have hd₀' : s.dispatched[id']? = some d₀ := hd₀
      have hd' : s.dispatched[id']? = some d := hd
      rw [hd₀'] at hd'
      rw [← Option.some.inj hd', ht₀] at ht
      rcases hok d₀ hd₀ (by rw [ht₀]; rfl) with hold | ⟨-, hthrough⟩
      · exact .inl (h.confirmed id' d₀ t hd₀' (ht₀.trans ht) hold)
      · exact .inr ⟨(Option.some.inj ht).symm, hthrough⟩

/-- The reply is discarded, and is not one that would be sent. -/
theorem Reserved.discard (h : Reserved s) {envelopeId : String}
    (hok : s.Orderly (.discard envelopeId)) :
    Reserved (s.discard envelopeId) := by
  have hcancel : Reserved
      (s.cancel ((s.shown envelopeId).bind (·.token)).join) := by
    refine h.cancel fun l hl hstage t ht heq => ?_
    have hview : (s.shown envelopeId).bind (·.token) = some (some t) :=
      Option.join_eq_some_iff.mp heq
    obtain ⟨view, hshown, htoken⟩ := Option.bind_eq_some_iff.mp hview
    exact (hok view hshown l hl hstage t ht).2 htoken
  exact hcancel.congr (fun _ hl => hl) (fun _ hc => hc) (fun _ he => he)
    rfl rfl rfl rfl

theorem Reserved.step (h : Reserved s) (hn : Numbered s) {event : Event}
    (hok : s.Orderly event) : Reserved (s.step event) := by
  have hmove := step_move s event
  generalize s.step event = s' at hmove ⊢
  cases hmove with
  | idle => exact h
  | begin m set => exact h.begin m set
  | finish _ l hl => exact h.finish l
  | reserveDraft _ l hl hstage reason =>
      refine h.advance hl (by rw [hstage]; rfl) rfl ?_ (fun _ _ => rfl) rfl
        (fun _ hc => .inl hc) rfl rfl rfl rfl
      intro t ht
      cases ht
  | reserveAuto _ l hl hstage reason =>
      refine h.advance hl (by rw [hstage]; rfl) rfl ?_ ?_ rfl
        (fun _ hc => .inl hc) rfl rfl rfl rfl
      · intro t ht
        rw [← Option.some.inj ht]
        exact ⟨rfl, Function.update_self ..⟩
      · exact fun t hne => Function.update_of_ne hne ..
  | startRun _ l hl decision token reason hstage =>
      have htoken : ∀ t,
          (Stage.running decision token reason "").token = some t →
          t = l.number ∧ s.reservation t = .opened := fun t ht =>
        ⟨h.tokens l hl t (by rw [hstage]; exact ht),
          h.opened l hl (by rw [hstage]; rfl) t (by rw [hstage]; exact ht)⟩
      have hlive : (s.startRun l decision token reason).live =
          (s.advance l.number (.running decision token reason "")).live := rfl
      refine h.advance hl (by rw [hstage]; rfl) rfl htoken (fun _ _ => rfl)
        hlive (fun c hc => ?_) rfl rfl rfl rfl
      rcases List.mem_append.mp hc with hc | hc
      · exact .inl hc
      · rw [List.mem_singleton.mp hc]
        exact .inr fun t ht => (htoken t ht).1
  | started c hc =>
      exact h.congr (fun _ hl => hl) (fun _ hc => List.mem_of_mem_filter hc)
        (fun _ he => he) rfl rfl rfl rfl
  | startFailed c hc reason =>
      obtain ⟨l, hl, hnumber, hmessage, hrunning⟩ := run_of_started hn hc hok
      have htoken : ∀ t, c.token = some t → t = l.number := fun t ht =>
        (h.starting c hc t ht).trans hnumber.symm
      have hfail := h.failRun hn hl hrunning htoken reason
      rw [hnumber, hmessage] at hfail
      exact hfail.congr (fun _ hl => hl)
        (fun _ hc => List.mem_of_mem_filter hc) (fun _ he => he) rfl rfl rfl
        rfl
  | chunk _ l hl decision token reason text text' hstage =>
      refine h.advance hl (by rw [hstage]; rfl) rfl ?_ (fun _ _ => rfl) rfl
        (fun _ hc => .inl hc) rfl rfl rfl rfl
      intro t ht
      exact ⟨h.tokens l hl t (by rw [hstage]; exact ht),
        h.opened l hl (by rw [hstage]; rfl) t (by rw [hstage]; exact ht)⟩
  | dispatch _ l hl token reason text hstage =>
      exact h.dispatchRun hn hl hstage
  | drafted _ l hl =>
      exact (h.finish l).congr (fun _ hl => hl) (fun _ hc => hc)
        (fun _ he => he) rfl rfl rfl rfl
  | fail _ l hl decision token reason text message hstage =>
      refine h.failRun hn hl (by rw [hstage]; rfl) (fun t ht => ?_) _
      exact h.tokens l hl t (by rw [hstage]; exact ht)
  | sendReturned _ l hl id token text error hstage =>
      exact h.sendReturned hl hstage error
  | acknowledge id first second hnone => exact h.acknowledge hok hnone
  | sendOk id first second rec hrec =>
      exact (h.sendOk hok hrec).congr (fun _ hl => hl) (fun _ hc => hc)
        (fun _ he => he) rfl rfl rfl rfl
  | sendErr _ id rec hrec =>
      have hkept : Reserved (s.unstash id) :=
        h.congr (fun _ hl => hl) (fun _ hc => hc)
          (fun _ he => List.mem_of_mem_filter he) rfl rfl rfl rfl
      have hcancel : Reserved ((s.unstash id).cancel (some rec.token)) := by
        refine hkept.cancel fun l hl _ t ht heq => ?_
        have hnumber := h.tokens l hl t ht
        rw [← Option.some.inj heq] at hnumber
        exact (h.stashed _ hrec).1 l hl hnumber.symm
      exact hcancel.congr (fun _ hl => hl) (fun _ hc => hc) (fun _ he => he)
        rfl rfl rfl rfl
  | keyChanged did =>
      have hkept := onKeyChange_induct (P := Reserved) hn did
        (fun _ _ => h.congr (fun _ hl => hl) (fun _ hc => hc)
          (fun _ he => he) rfl rfl rfl rfl)
        (fun _ l hn h hl hrunning =>
          h.failRun hn hl hrunning (h.tokens l hl) _)
      exact hkept.2
  | approve envelopeId view hview hstatus htoken d hd hdiscarded approving =>
      exact h.dispatch hd approving
  | discard envelopeId => exact h.discard hok
  | skip | render | quiet | policySet =>
      exact h.congr (fun _ hl => hl) (fun _ hc => hc) (fun _ he => he)
        rfl rfl rfl rfl

end Reservations

/-! ## The keys -/

section Keys

variable {s s' : ReplyLoop}

/-- A handling that is not dispatched began after the key of its sender
changed last. -/
structure Unchanged (s : ReplyLoop) : Prop where
  after : ∀ l ∈ s.live, l.stage.isSending = false →
    s.changed l.message.peer ≤ l.number
  changed : ∀ did, s.changed did ≤ s.begun.length
  dispatched : ∀ d ∈ s.dispatched, d.token.isSome → d.keyChanged = false

/-- No handling is new, and none that was dispatched is waiting again. -/
theorem Unchanged.follow (h : Unchanged s)
    (hlive : ∀ l' ∈ s'.live, l'.stage.isSending = false →
      ∃ l ∈ s.live, l.stage.isSending = false ∧ l.number = l'.number ∧
        l.message = l'.message)
    (hchanged : s'.changed = s.changed)
    (hbegun : s'.begun = s.begun)
    (hdispatched : ∀ d ∈ s'.dispatched, d ∈ s.dispatched ∨
      (d.token.isSome → d.keyChanged = false)) : Unchanged s' := by
  refine ⟨?_, ?_, ?_⟩
  · intro l' hl' hstage
    obtain ⟨l, hl, hl'stage, hnumber, hmessage⟩ := hlive l' hl' hstage
    rw [hchanged, ← hnumber, ← hmessage]
    exact h.after l hl hl'stage
  · rw [hchanged, hbegun]
    exact h.changed
  · intro d hd hauto
    rcases hdispatched d hd with hd | hnew
    · exact h.dispatched d hd hauto
    · exact hnew hauto

theorem Unchanged.congr (h : Unchanged s)
    (hlive : ∀ l ∈ s'.live, l ∈ s.live)
    (hchanged : s'.changed = s.changed) (hbegun : s'.begun = s.begun)
    (hdispatched : s'.dispatched = s.dispatched) : Unchanged s' :=
  h.follow (fun l hl hstage => ⟨l, hlive l hl, hstage, rfl, rfl⟩) hchanged
    hbegun fun _ hd => .inl (hdispatched ▸ hd)

/-- A handling that is not dispatched goes on. -/
theorem Unchanged.advance (h : Unchanged s) {l : LiveReply}
    (hl : l ∈ s.live) (hstage : l.stage.isSending = false) {stage : Stage}
    (hlive : s'.live = (s.advance l.number stage).live)
    (hchanged : s'.changed = s.changed) (hbegun : s'.begun = s.begun)
    (hdispatched : ∀ d ∈ s'.dispatched, d ∈ s.dispatched ∨
      (d.token.isSome → d.keyChanged = false)) (hn : Numbered s) :
    Unchanged s' := by
  refine h.follow (fun l' hl' hstage' => ?_) hchanged hbegun hdispatched
  rw [hlive] at hl'
  rcases mem_advance hl' with ⟨k, hk, hnumber, rfl⟩ | ⟨hmem, -⟩
  · rw [hn.eq_of_number hk hl hnumber]
    exact ⟨l, hl, hstage, rfl, rfl⟩
  · exact ⟨l', hmem, hstage', rfl, rfl⟩

/-- Deleting runs leaves the handlings that are not these runs. -/
theorem mem_foldl_failRun (reason : String) :
    ∀ (runs : List LiveReply) (s : ReplyLoop) (l : LiveReply),
      l ∈ (runs.foldl (fun s l =>
        s.failRun l.message l.number l.stage.token reason) s).live →
      l ∈ s.live ∧ ∀ r ∈ runs, l.number = r.number →
        l.stage.isRunning = false := by
  intro runs
  induction runs with
  | nil =>
      intro s l hl
      exact ⟨hl, fun r hr => absurd hr List.not_mem_nil⟩
  | cons first rest ih =>
      intro s l hl
      obtain ⟨hkept, hrest⟩ := ih _ l hl
      obtain ⟨hmem, hgone⟩ := List.mem_filter.mp hkept
      refine ⟨hmem, fun r hr heq => ?_⟩
      rcases List.mem_cons.mp hr with rfl | hr
      · simpa [heq] using hgone
      · exact hrest r hr heq

/-- After a key changed, no run for its sender is left. -/
theorem mem_onKeyChange {did : String} {l : LiveReply}
    (hl : l ∈ (s.onKeyChange did).live) :
    l ∈ s.live ∧
      (l.message.peer = did → l.stage.isRunning = false) := by
  unfold ReplyLoop.onKeyChange at hl
  obtain ⟨hkept, hgone⟩ := mem_foldl_failRun _ _ _ l hl
  have hmem : l ∈ s.live := by
    dsimp only at hkept
    split at hkept <;> exact hkept
  refine ⟨hmem, fun hpeer => ?_⟩
  by_contra hrunning
  rw [Bool.not_eq_false] at hrunning
  have hrun : l ∈ s.runsOf did :=
    List.mem_filter.mpr ⟨hmem, by simp [hrunning, hpeer]⟩
  rw [hgone l hrun rfl] at hrunning
  cases hrunning

/-- A key changes, and no handling for its sender waits. -/
theorem Unchanged.onKeyChange (h : Unchanged s) (hn : Numbered s)
    {did : String} (hok : s.Orderly (.keyChanged did)) :
    Unchanged (s.onKeyChange did) := by
  have hfields : (s.onKeyChange did).changed =
        Function.update s.changed did s.begun.length ∧
      (s.onKeyChange did).begun = s.begun ∧
      (s.onKeyChange did).dispatched = s.dispatched := by
    have hkept := onKeyChange_induct (P := fun s' =>
      s'.changed = Function.update s.changed did s.begun.length ∧
        s'.begun = s.begun ∧ s'.dispatched = s.dispatched) hn did
      (fun _ _ => ⟨rfl, rfl, rfl⟩) (fun _ _ _ h _ _ => h)
    exact hkept.2
  obtain ⟨hchanged, hbegun, hdispatched⟩ := hfields
  refine ⟨?_, ?_, ?_⟩
  · intro l hl hstage
    obtain ⟨hmem, hgone⟩ := mem_onKeyChange hl
    have hpeer : l.message.peer ≠ did := by
      intro heq
      have hwaiting := hok l hmem heq
      have hrunning := hgone heq
      rcases l.stage.cases with hc | hc | hc
      · rw [hc.1] at hwaiting
        cases hwaiting
      · rw [hc.2.1] at hrunning
        cases hrunning
      · rw [hc.2.2] at hstage
        cases hstage
    rw [hchanged, Function.update_of_ne hpeer]
    exact h.after l hmem hstage
  · intro did'
    rw [hchanged, hbegun]
    by_cases hdid : did' = did
    · subst hdid
      exact Nat.le_of_eq (Function.update_self ..)
    · rw [Function.update_of_ne hdid]
      exact h.changed did'
  · rw [hdispatched]
    exact h.dispatched

theorem Unchanged.finish (h : Unchanged s) (l : LiveReply) :
    Unchanged (s.finish l) :=
  h.congr (fun _ hl => List.mem_of_mem_filter hl) rfl rfl rfl

theorem Unchanged.step (h : Unchanged s) (hn : Numbered s) {event : Event}
    (hok : s.Orderly event) : Unchanged (s.step event) := by
  have hmove := step_move s event
  generalize s.step event = s' at hmove ⊢
  cases hmove with
  | idle => exact h
  | begin m set =>
      refine ⟨?_, ?_, h.dispatched⟩
      · intro l hl hstage
        rcases List.mem_append.mp hl with hl | hl
        · exact h.after l hl hstage
        · rw [List.mem_singleton.mp hl]
          exact h.changed m.peer
      · intro did
        have := h.changed did
        show s.changed did ≤ (s.begun ++ [m]).length
        rw [List.length_append]
        omega
  | finish _ l hl => exact h.finish l
  | reserveDraft _ l hl hstage | reserveAuto _ l hl hstage =>
      exact h.advance hl (by rw [hstage]; rfl) rfl rfl rfl
        (fun _ hd => .inl hd) hn
  | startRun _ l hl decision token reason hstage =>
      have hlive : (s.startRun l decision token reason).live =
          (s.advance l.number (.running decision token reason "")).live := rfl
      exact h.advance hl (by rw [hstage]; rfl) hlive rfl rfl
        (fun _ hd => .inl hd) hn
  | startFailed c hc reason =>
      exact h.congr (fun _ hl => List.mem_of_mem_filter hl) rfl rfl rfl
  | chunk _ l hl decision token reason text text' hstage =>
      have hlive : (s.onChunk l decision token reason text').live =
          (s.advance l.number
            (.running decision token reason text')).live := rfl
      exact h.advance hl (by rw [hstage]; rfl) hlive rfl rfl
        (fun _ hd => .inl hd) hn
  | dispatch _ l hl token reason text hstage =>
      have hlive : (s.dispatchRun l token text).live =
          (s.advance l.number
            (.sending s.dispatched.length token text)).live := rfl
      have hsending : l.stage.isSending = false := by rw [hstage]; rfl
      refine h.advance hl hsending hlive rfl rfl (fun d hd => ?_) hn
      rcases List.mem_append.mp hd with hd | hd
      · exact .inl hd
      · rw [List.mem_singleton.mp hd]
        refine .inr fun _ => decide_eq_false ?_
        exact Nat.not_lt.mpr (h.after l hl hsending)
  | drafted _ l hl =>
      exact (h.finish l).congr (fun _ hl => hl) rfl rfl rfl
  | fail _ l hl =>
      exact h.congr (fun _ hl => List.mem_of_mem_filter hl) rfl rfl rfl
  | sendReturned _ l hl id token text error =>
      cases error with
      | none => exact (h.finish l).congr (fun _ hl => hl) rfl rfl rfl
      | some reason =>
          exact (h.finish l).congr (fun _ hl => hl) rfl rfl rfl
  | keyChanged did => exact h.onKeyChange hn hok
  | approve envelopeId view hview hstatus htoken d hd =>
      refine h.follow (fun l hl hstage => ⟨l, hl, hstage, rfl, rfl⟩) rfl rfl
        fun d' hd' => ?_
      rcases List.mem_append.mp hd' with hd' | hd'
      · exact .inl hd'
      · rw [List.mem_singleton.mp hd', hd]
        exact .inr fun hauto => by cases hauto
  | skip | started | acknowledge | sendOk | sendErr | discard | render
  | quiet | policySet => exact h.congr (fun _ hl => hl) rfl rfl rfl

end Keys

/-! ## The rows -/

section Rows

variable {s s' : ReplyLoop}

/-- A row shows a reply of its envelope, whose handling waits no longer. While
a handling that waits no longer has not ended, the row of its envelope is no
draft, and of a discarded reply no row is ready to be approved. -/
structure Rows (s : ReplyLoop) : Prop where
  placed : ∀ e row, s.replies e = some row ∨ s.shown e = some row →
    ∀ n, row.reply = some n →
      (∃ m, s.begun[n]? = some m ∧ m.envelopeId = e) ∧
        ∀ l ∈ s.live, l.number = n → l.stage.isWaiting = false
  undrafted : ∀ l ∈ s.live, l.stage.isWaiting = false →
    ∀ row, s.replies l.message.envelopeId = some row →
      row.status ≠ some .drafted
  unready : ∀ l ∈ s.live, l.stage.isRunning = true →
    l.number ∈ s.discarded →
      ∀ row, s.replies l.message.envelopeId = some row →
        row.token ≠ some none
  gone : ∀ e row, s.replies e = some row → ∀ n ∈ s.discarded,
    row.reply = some n → row.token = some none → row.status ≠ some .drafted
  begun : ∀ n ∈ s.discarded, n < s.begun.length
  discarded : ∀ l ∈ s.live, l.number ∈ s.discarded →
    l.stage.isWaiting = false ∧
      (l.stage.isRunning = true → l.stage.token = none)
  dispatched : ∀ d ∈ s.dispatched, d.discarded = false

/-- No row changes, and no handling waits again or for the first time. -/
theorem Rows.follow (h : Rows s)
    (hlive : ∀ l' ∈ s'.live, ∃ l ∈ s.live, l.number = l'.number ∧
      l.message = l'.message ∧ l.stage.isWaiting = l'.stage.isWaiting ∧
      (l'.stage.isRunning = true →
        l.stage.isRunning = true ∧ l.stage.token = l'.stage.token))
    (hreplies : s'.replies = s.replies) (hshown : s'.shown = s.shown)
    (hbegun : s'.begun = s.begun) (hdiscarded : s'.discarded = s.discarded)
    (hdispatched : ∀ d ∈ s'.dispatched, d ∈ s.dispatched ∨
      d.discarded = false) : Rows s' := by
  refine ⟨?_, ?_, ?_, ?_, ?_, ?_, ?_⟩
  · intro e row hrow n hn
    rw [hreplies, hshown] at hrow
    obtain ⟨hm, hnone⟩ := h.placed e row hrow n hn
    rw [hbegun]
    refine ⟨hm, fun l' hl' heq => ?_⟩
    obtain ⟨l, hl, hnumber, -, hwaiting, -⟩ := hlive l' hl'
    rw [← hwaiting]
    exact hnone l hl (hnumber.trans heq)
  · intro l' hl' hstage
    obtain ⟨l, hl, -, hmessage, hwaiting, -⟩ := hlive l' hl'
    rw [hreplies, ← hmessage]
    exact h.undrafted l hl (hwaiting.trans hstage)
  · intro l' hl' hrunning hmem
    obtain ⟨l, hl, hnumber, hmessage, -, hrun⟩ := hlive l' hl'
    rw [hdiscarded, ← hnumber] at hmem
    rw [hreplies, ← hmessage]
    exact h.unready l hl (hrun hrunning).1 hmem
  · rw [hreplies, hdiscarded]
    exact h.gone
  · rw [hdiscarded, hbegun]
    exact h.begun
  · intro l' hl' hmem
    obtain ⟨l, hl, hnumber, -, hwaiting, hrun⟩ := hlive l' hl'
    rw [hdiscarded, ← hnumber] at hmem
    obtain ⟨hstage, htoken⟩ := h.discarded l hl hmem
    refine ⟨hwaiting ▸ hstage, fun hrunning => ?_⟩
    rw [← (hrun hrunning).2]
    exact htoken (hrun hrunning).1
  · intro d hd
    rcases hdispatched d hd with hd | hd
    · exact h.dispatched d hd
    · exact hd

theorem Rows.congr (h : Rows s) (hlive : ∀ l ∈ s'.live, l ∈ s.live)
    (hreplies : s'.replies = s.replies) (hshown : s'.shown = s.shown)
    (hbegun : s'.begun = s.begun) (hdiscarded : s'.discarded = s.discarded)
    (hdispatched : s'.dispatched = s.dispatched) : Rows s' :=
  h.follow (fun l hl => ⟨l, hlive l hl, rfl, rfl, rfl, fun hr => ⟨hr, rfl⟩⟩)
    hreplies hshown hbegun hdiscarded fun _ hd => .inl (hdispatched ▸ hd)

/-- The row of one envelope is set, and only a handling of that envelope
goes on. -/
theorem Rows.patched (h : Rows s) {e : String} {row : ReplyRow}
    (hreplies : s'.replies = Function.update s.replies e (some row))
    (hshown : s'.shown = s.shown) (hbegun : s'.begun = s.begun)
    (hdiscarded : s'.discarded = s.discarded)
    (hdispatched : s'.dispatched = s.dispatched)
    (hlive : ∀ l' ∈ s'.live, l' ∈ s.live ∨
      l'.message.envelopeId = e ∧ l'.stage.isWaiting = false ∧
        (l'.number ∈ s.discarded → l'.stage.isRunning = true →
          l'.stage.token = none))
    (hplaced : ∀ n, row.reply = some n →
      (∃ m, s.begun[n]? = some m ∧ m.envelopeId = e) ∧
        ∀ l ∈ s'.live, l.number = n → l.stage.isWaiting = false)
    (hundrafted : ∀ l ∈ s'.live, l.stage.isWaiting = false →
      l.message.envelopeId = e → row.status ≠ some .drafted)
    (hunready : ∀ l ∈ s'.live, l.stage.isRunning = true →
      l.number ∈ s.discarded → l.message.envelopeId = e →
        row.token ≠ some none)
    (hgone : ∀ n ∈ s.discarded, row.reply = some n →
      row.token = some none → row.status ≠ some .drafted) : Rows s' := by
  have hset : ∀ e' row', s'.replies e' = some row' →
      e' = e ∧ row' = row ∨ e' ≠ e ∧ s.replies e' = some row' := by
    intro e' row' hrow'
    rw [hreplies] at hrow'
    by_cases he : e' = e
    · rw [he, Function.update_self] at hrow'
      exact .inl ⟨he, (Option.some.inj hrow').symm⟩
    · rw [Function.update_of_ne he] at hrow'
      exact .inr ⟨he, hrow'⟩
  have hold : ∀ e' row', s.replies e' = some row' ∨
      s.shown e' = some row' → ∀ n, row'.reply = some n →
      (∃ m, s'.begun[n]? = some m ∧ m.envelopeId = e') ∧
        ∀ l ∈ s'.live, l.number = n → l.stage.isWaiting = false := by
    intro e' row' hrow' n hn
    obtain ⟨hm, hnone⟩ := h.placed e' row' hrow' n hn
    rw [hbegun]
    refine ⟨hm, fun l hl heq => ?_⟩
    rcases hlive l hl with hmem | ⟨-, hwaiting, -⟩
    · exact hnone l hmem heq
    · exact hwaiting
  refine ⟨?_, ?_, ?_, ?_, ?_, ?_, ?_⟩
  · intro e' row' hrow' n hn
    rcases hrow' with hrow' | hrow'
    · rcases hset e' row' hrow' with ⟨rfl, rfl⟩ | ⟨-, hrow'⟩
      · rw [hbegun]
        exact hplaced n hn
      · exact hold e' row' (.inl hrow') n hn
    · rw [hshown] at hrow'
      exact hold e' row' (.inr hrow') n hn
  · intro l hl hstage row' hrow'
    rcases hset _ row' hrow' with ⟨he, rfl⟩ | ⟨he, hrow'⟩
    · exact hundrafted l hl hstage he
    · rcases hlive l hl with hmem | ⟨he', -⟩
      · exact h.undrafted l hmem hstage row' hrow'
      · exact absurd he' he
  · intro l hl hrunning hmem row' hrow'
    rw [hdiscarded] at hmem
    rcases hset _ row' hrow' with ⟨he, rfl⟩ | ⟨he, hrow'⟩
    · exact hunready l hl hrunning hmem he
    · rcases hlive l hl with hl | ⟨he', -⟩
      · exact h.unready l hl hrunning hmem row' hrow'
      · exact absurd he' he
  · intro e' row' hrow' n hn
    rw [hdiscarded] at hn
    rcases hset e' row' hrow' with ⟨rfl, rfl⟩ | ⟨-, hrow'⟩
    · exact hgone n hn
    · exact h.gone e' row' hrow' n hn
  · rw [hdiscarded, hbegun]
    exact h.begun
  · intro l hl hmem
    rw [hdiscarded] at hmem
    rcases hlive l hl with hl | ⟨-, hwaiting, htoken⟩
    · exact h.discarded l hl hmem
    · exact ⟨hwaiting, htoken hmem⟩
  · rw [hdispatched]
    exact h.dispatched

/-- A row that is patched is there, or shows nothing. -/
theorem row_cases (s : ReplyLoop) (e : String) :
    s.replies e = some ((s.replies e).getD {}) ∨
      (s.replies e).getD {} = {} := by
  cases s.replies e with
  | none => exact .inr rfl
  | some row => exact .inl rfl

/-- A patch that shows no reply and readies no draft. -/
theorem Rows.quiet (h : Rows s) {e : String} {patch : ReplyRow → ReplyRow}
    (hpatch : Quiet patch)
    (hreplies : s'.replies = (s.patchReply e patch).replies)
    (hlive : ∀ l ∈ s'.live, l ∈ s.live) (hshown : s'.shown = s.shown)
    (hbegun : s'.begun = s.begun) (hdiscarded : s'.discarded = s.discarded)
    (hdispatched : s'.dispatched = s.dispatched) : Rows s' := by
  obtain ⟨htoken, hreply, hstatus⟩ := hpatch ((s.replies e).getD {})
  have hdrafted : ((s.replies e).getD {}).status ≠ some .drafted →
      (patch ((s.replies e).getD {})).status ≠ some .drafted := by
    intro hne
    rcases hstatus with heq | hne'
    · rw [heq]
      exact hne
    · exact hne'
  refine h.patched hreplies hshown hbegun hdiscarded hdispatched
    (fun l hl => .inl (hlive l hl)) ?_ ?_ ?_ ?_
  · intro n hn
    rw [hreply] at hn
    rcases row_cases s e with hrow | hrow
    · obtain ⟨hm, hnone⟩ := h.placed e _ (.inl hrow) n hn
      exact ⟨hm, fun l hl => hnone l (hlive l hl)⟩
    · rw [hrow] at hn
      cases hn
  · intro l hl hstage he
    refine hdrafted ?_
    rcases row_cases s e with hrow | hrow
    · exact h.undrafted l (hlive l hl) hstage _ (he ▸ hrow)
    · rw [hrow]
      exact nofun
  · intro l hl hrunning hmem he
    rw [htoken]
    rcases row_cases s e with hrow | hrow
    · exact h.unready l (hlive l hl) hrunning hmem _ (he ▸ hrow)
    · rw [hrow]
      exact nofun
  · intro n hn hn' htoken'
    rw [hreply] at hn'
    rw [htoken] at htoken'
    refine hdrafted ?_
    rcases row_cases s e with hrow | hrow
    · exact h.gone e _ hrow n hn hn' htoken'
    · rw [hrow] at hn'
      cases hn'

/-- A handling ended, and the row of its envelope is set last. -/
theorem Rows.ended (h : Rows s) (hn : Numbered s) (hk : Locked s)
    {l : LiveReply} (hl : l ∈ s.live) {row : ReplyRow}
    (hreplies : s'.replies =
      Function.update s.replies l.message.envelopeId (some row))
    (hshown : s'.shown = s.shown) (hbegun : s'.begun = s.begun)
    (hdiscarded : s'.discarded = s.discarded)
    (hdispatched : s'.dispatched = s.dispatched)
    (hlive : ∀ l' ∈ s'.live, l' ∈ s.live ∧ l'.number ≠ l.number)
    (hreply : row.reply = some l.number ∨
      row.reply = ((s.replies l.message.envelopeId).getD {}).reply)
    (hgone : ∀ n ∈ s.discarded, row.reply = some n →
      row.token = some none → row.status ≠ some .drafted) : Rows s' := by
  have hnone : ∀ l' ∈ s'.live,
      l'.message.envelopeId ≠ l.message.envelopeId := fun l' hl' heq =>
    (hlive l' hl').2 (hk.envelopes l' (hlive l' hl').1 l hl heq)
  refine h.patched hreplies hshown hbegun hdiscarded hdispatched
    (fun l' hl' => .inl (hlive l' hl').1) ?_ ?_ ?_ hgone
  · intro n hreplyn
    rcases hreply with heq | heq
    · rw [heq, Option.some.injEq] at hreplyn
      subst hreplyn
      exact ⟨⟨_, hn.live l hl, rfl⟩,
        fun l' hl' heq => absurd heq (hlive l' hl').2⟩
    · rw [heq] at hreplyn
      rcases row_cases s l.message.envelopeId with hrow | hrow
      · obtain ⟨hm, hwaiting⟩ := h.placed _ _ (.inl hrow) n hreplyn
        exact ⟨hm, fun l' hl' => hwaiting l' (hlive l' hl').1⟩
      · rw [hrow] at hreplyn
        cases hreplyn
  · exact fun l' hl' _ heq => absurd heq (hnone l' hl')
  · exact fun l' hl' _ _ heq => absurd heq (hnone l' hl')

theorem mem_finish {l l' : LiveReply} (hl' : l' ∈ (s.finish l).live) :
    l' ∈ s.live ∧ l'.number ≠ l.number := by
  obtain ⟨hmem, hne⟩ := List.mem_filter.mp hl'
  exact ⟨hmem, by simpa using hne⟩

theorem Rows.failRun (h : Rows s) (hn : Numbered s) (hk : Locked s)
    {l : LiveReply} (hl : l ∈ s.live) (hrunning : l.stage.isRunning = true)
    (token : Option Nat) (reason : String) :
    Rows (s.failRun l.message l.number token reason) := by
  refine h.ended hn hk hl rfl rfl rfl rfl rfl ?_ (.inr rfl) ?_
  · intro l' hl'
    obtain ⟨hmem, hkept⟩ := List.mem_filter.mp hl'
    refine ⟨hmem, fun heq => ?_⟩
    rw [hn.eq_of_number hmem hl heq] at hkept
    simp [hrunning] at hkept
  · intro _ _ _ _ hstatus
    cases hstatus

/-- A draft is shown. -/
theorem Rows.drafted (h : Rows s) (hn : Numbered s) (hk : Locked s)
    {l : LiveReply} (hl : l ∈ s.live) (hrunning : l.stage.isRunning = true)
    (text reason : String) :
    Rows ((s.finish l).patchReply l.message.envelopeId fun row =>
      { row with
        status := some .drafted
        text := some text
        reason := some reason
        reply := some l.number }) := by
  refine h.ended hn hk hl rfl rfl rfl rfl rfl (fun _ => mem_finish)
    (.inl rfl) ?_
  intro n hmem hreply htoken
  rw [← Option.some.inj hreply] at hmem
  have hnull : ((s.replies l.message.envelopeId).getD {}).token =
      some none := htoken
  rcases row_cases s l.message.envelopeId with hrow | hrow
  · exact absurd hnull (h.unready l hl hrunning hmem _ hrow)
  · rw [hrow] at hnull
    cases hnull

/-- The call of `inboxSend` returned. -/
theorem Rows.sendReturned (h : Rows s) (hn : Numbered s) (hk : Locked s)
    {l : LiveReply} (hl : l ∈ s.live) {id token : Nat} {text : String}
    (hstage : l.stage = .sending id token text) (error : Option String) :
    Rows (s.sendReturned l id token text error) := by
  cases error with
  | none =>
      refine h.ended hn hk hl rfl rfl rfl rfl rfl (fun _ => mem_finish)
        (.inl rfl) ?_
      intro n _ _ _
      show ((s.replies l.message.envelopeId).getD {}).status ≠ _
      rcases row_cases s l.message.envelopeId with hrow | hrow
      · exact h.undrafted l hl (by rw [hstage]; rfl) _ hrow
      · rw [hrow]
        exact nofun
  | some reason =>
      refine h.ended hn hk hl rfl rfl rfl rfl rfl (fun _ => mem_finish)
        (.inr rfl) ?_
      intro _ _ _ _ hstatus
      cases hstatus

/-- A run starts, and its row shows it. -/
theorem Rows.startRun (h : Rows s) (hn : Numbered s) (hk : Locked s)
    {l : LiveReply} (hl : l ∈ s.live) {decision : Autonomy}
    {token : Option Nat} {reason : String}
    (hstage : l.stage = .reading decision token reason) :
    Rows (s.startRun l decision token reason) := by
  -- The reply was not discarded: it was not shown before.
  have hfresh : l.number ∉ s.discarded := fun hmem => by
    have := (h.discarded l hl hmem).1
    rw [hstage] at this
    cases this
  have hlive : ∀ l' ∈ (s.startRun l decision token reason).live,
      (l'.number = l.number ∧ l'.message = l.message ∧
        l'.stage.isWaiting = false) ∨
      (l' ∈ s.live ∧ l'.number ≠ l.number) := by
    intro l' hl'
    rcases mem_advance hl' with ⟨k, hk', hnumber, rfl⟩ | hother
    · rw [hn.eq_of_number hk' hl hnumber]
      exact .inl ⟨rfl, rfl, rfl⟩
    · exact .inr hother
  refine h.patched rfl rfl rfl rfl rfl ?_ ?_ ?_ ?_ ?_
  · intro l' hl'
    rcases hlive l' hl' with ⟨hnumber, hmessage, hwaiting⟩ | ⟨hmem, -⟩
    · refine .inr ⟨by rw [hmessage], hwaiting, fun hmem => ?_⟩
      rw [hnumber] at hmem
      exact absurd hmem hfresh
    · exact .inl hmem
  · intro n hreply
    have hnumber : l.number = n := Option.some.inj hreply
    rw [← hnumber]
    refine ⟨⟨_, hn.live l hl, rfl⟩, fun l' hl' heq => ?_⟩
    rcases hlive l' hl' with ⟨-, -, hwaiting⟩ | ⟨-, hne⟩
    · exact hwaiting
    · exact absurd heq hne
  · intro _ _ _ _ hstatus
    cases hstatus
  · intro l' hl' _ hmem henvelope
    rcases hlive l' hl' with ⟨hnumber, -⟩ | ⟨hmem', hne⟩
    · rw [hnumber] at hmem
      exact absurd hmem hfresh
    · exact absurd (hk.envelopes l' hmem' l hl henvelope) hne
  · intro n hmem hreply
    have hnumber : l.number = n := Option.some.inj hreply
    rw [← hnumber] at hmem
    exact absurd hmem hfresh

/-- A part of the text arrives. -/
theorem Rows.onChunk (h : Rows s) (hn : Numbered s) {l : LiveReply}
    (hl : l ∈ s.live) {decision : Autonomy} {token : Option Nat}
    {reason text : String}
    (hstage : l.stage = .running decision token reason text)
    (text' : String) : Rows (s.onChunk l decision token reason text') := by
  have hrunning : l.stage.isRunning = true := by rw [hstage]; rfl
  have hlive : ∀ l' ∈ (s.onChunk l decision token reason text').live,
      (l'.number = l.number ∧ l'.message = l.message ∧
        l'.stage = .running decision token reason text') ∨
      (l' ∈ s.live ∧ l'.number ≠ l.number) := by
    intro l' hl'
    rcases mem_advance hl' with ⟨k, hk', hnumber, rfl⟩ | hother
    · rw [hn.eq_of_number hk' hl hnumber]
      exact .inl ⟨rfl, rfl, rfl⟩
    · exact .inr hother
  have hready : l.number ∈ s.discarded →
      ((s.replies l.message.envelopeId).getD {}).token ≠ some none := by
    intro hmem
    rcases row_cases s l.message.envelopeId with hrow | hrow
    · exact h.unready l hl hrunning hmem _ hrow
    · rw [hrow]
      exact nofun
  refine h.patched rfl rfl rfl rfl rfl ?_ ?_ ?_ ?_ ?_
  · intro l' hl'
    rcases hlive l' hl' with ⟨hnumber, hmessage, hl'stage⟩ | ⟨hmem, -⟩
    · refine .inr ⟨by rw [hmessage], by rw [hl'stage]; rfl, fun hmem _ => ?_⟩
      rw [hnumber] at hmem
      have htoken := (h.discarded l hl hmem).2 hrunning
      rw [hstage] at htoken
      rw [hl'stage]
      exact htoken
    · exact .inl hmem
  · intro n hreply
    have hnumber : l.number = n := Option.some.inj hreply
    rw [← hnumber]
    refine ⟨⟨_, hn.live l hl, rfl⟩, fun l' hl' heq => ?_⟩
    rcases hlive l' hl' with ⟨-, -, hl'stage⟩ | ⟨-, hne⟩
    · rw [hl'stage]
      rfl
    · exact absurd heq hne
  · intro _ _ _ _
    show ((s.replies l.message.envelopeId).getD {}).status ≠ _
    rcases row_cases s l.message.envelopeId with hrow | hrow
    · exact h.undrafted l hl (by rw [hstage]; rfl) _ hrow
    · rw [hrow]
      exact nofun
  · intro l' hl' hrunning' hmem henvelope
    show ((s.replies l.message.envelopeId).getD {}).token ≠ _
    rcases hlive l' hl' with ⟨hnumber, -⟩ | ⟨hmem', -⟩
    · rw [hnumber] at hmem
      exact hready hmem
    · rcases row_cases s l.message.envelopeId with hrow | hrow
      · exact h.unready l' hmem' hrunning' hmem _ (henvelope ▸ hrow)
      · rw [hrow]
        exact nofun
  · intro n hmem hreply htoken
    have hnumber : l.number = n := Option.some.inj hreply
    rw [← hnumber] at hmem
    exact absurd htoken (hready hmem)

/-- A row is discarded, and the reply it shows is not one that would be
sent. -/
theorem Rows.discard (h : Rows s) (hn : Numbered s) {envelopeId : String}
    (hok : s.Orderly (.discard envelopeId)) :
    Rows (s.discard envelopeId) := by
  have hset : ∀ e row, (s.discard envelopeId).replies e = some row →
      e ≠ envelopeId ∧ s.replies e = some row := by
    intro e row hrow
    have hrow' : Function.update s.replies envelopeId none e = some row :=
      hrow
    by_cases he : e = envelopeId
    · rw [he, Function.update_self] at hrow'
      cases hrow'
    · rw [Function.update_of_ne he] at hrow'
      exact ⟨he, hrow'⟩
  have hnew : ∀ n ∈ (s.discard envelopeId).discarded, n ∈ s.discarded ∨
      ∃ view, s.shown envelopeId = some view ∧ view.reply = some n := by
    intro n hn'
    rcases List.mem_append.mp hn' with hold | hview
    · exact .inl hold
    · exact .inr (Option.bind_eq_some_iff.mp (Option.mem_toList.mp hview))
  refine ⟨?_, ?_, ?_, ?_, ?_, ?_, h.dispatched⟩
  · intro e row hrow n hreply
    rcases hrow with hrow | hrow
    · exact h.placed e row (.inl (hset e row hrow).2) n hreply
    · exact h.placed e row (.inr hrow) n hreply
  · intro l hl hstage row hrow
    exact h.undrafted l hl hstage row (hset _ row hrow).2
  · intro l hl hrunning hmem row hrow
    obtain ⟨he, hrow⟩ := hset _ row hrow
    rcases hnew _ hmem with hold | ⟨view, hview, hreply⟩
    · exact h.unready l hl hrunning hold row hrow
    · obtain ⟨⟨m, hm, henvelope⟩, -⟩ := h.placed _ view (.inr hview) _ hreply
      rw [hn.live l hl, Option.some.injEq] at hm
      rw [← hm] at henvelope
      exact absurd henvelope he
  · intro e row hrow n hmem hreply
    obtain ⟨he, hrow⟩ := hset e row hrow
    rcases hnew n hmem with hold | ⟨view, hview, hreply'⟩
    · exact h.gone e row hrow n hold hreply
    · obtain ⟨⟨m, hm, henvelope⟩, -⟩ := h.placed e row (.inl hrow) n hreply
      obtain ⟨⟨m', hm', henvelope'⟩, -⟩ :=
        h.placed _ view (.inr hview) n hreply'
      rw [hm, Option.some.injEq] at hm'
      rw [← hm', henvelope] at henvelope'
      exact absurd henvelope' he
  · intro n hmem
    rcases hnew n hmem with hold | ⟨view, hview, hreply⟩
    · exact h.begun n hold
    · obtain ⟨⟨m, hm, -⟩, -⟩ := h.placed _ view (.inr hview) n hreply
      exact (List.getElem?_eq_some_iff.mp hm).1
  · intro l hl hmem
    rcases hnew _ hmem with hold | ⟨view, hview, hreply⟩
    · exact h.discarded l hl hold
    · obtain ⟨-, hwaiting⟩ := h.placed _ view (.inr hview) _ hreply
      refine ⟨hwaiting l hl rfl, fun hrunning => ?_⟩
      cases htoken : l.stage.token with
      | none => rfl
      | some t =>
          have hsending : l.stage.isSending = false := by
            rcases l.stage.cases with hc | hc | hc
            · exact hc.2.2
            · exact hc.2.2
            · rw [hc.2.1] at hrunning
              cases hrunning
          exact absurd hreply (hok view hview l hl hsending t htoken).1

/-- A draft is dispatched from the row that was set. -/
theorem Rows.approve (h : Rows s) {envelopeId : String} {view : ReplyRow}
    (hok : s.Orderly (.approve envelopeId))
    (hview : s.shown envelopeId = some view)
    (hstatus : view.status = some .drafted)
    (htoken : view.token = some none) {d : Dispatch}
    (hdiscarded : d.discarded = view.reply.any (· ∈ s.discarded))
    (approving : List (Nat × String)) :
    Rows { s.dispatch d with approving := approving } := by
  refine h.follow (fun l hl => ⟨l, hl, rfl, rfl, rfl, fun hr => ⟨hr, rfl⟩⟩)
    rfl rfl rfl rfl fun d' hd' => ?_
  rcases List.mem_append.mp hd' with hd' | hd'
  · exact .inl hd'
  · refine .inr ?_
    rw [List.mem_singleton.mp hd', hdiscarded]
    have hset : s.replies envelopeId = some view := by
      rw [← hview]
      exact Eq.symm hok
    cases hreply : view.reply with
    | none => rfl
    | some n =>
        refine decide_eq_false fun hmem => ?_
        exact h.gone _ view hset n hmem hreply htoken hstatus

theorem Rows.begin (h : Rows s) (m : InboxMessage) (set : List String) :
    Rows { s with
      dedupe := set
      inFlight := Function.update s.inFlight m.peer (some s.begun.length)
      begun := s.begun ++ [m]
      live := s.live ++ [⟨s.begun.length, m, .reserving⟩] } := by
  refine ⟨?_, ?_, ?_, h.gone, ?_, ?_, h.dispatched⟩
  · intro e row hrow n hreply
    obtain ⟨⟨m', hm', henvelope⟩, hnone⟩ := h.placed e row hrow n hreply
    have hlt := (List.getElem?_eq_some_iff.mp hm').1
    have hgrown : (s.begun ++ [m])[n]? = some m' :=
      Trace.getElem?_append_of_eq_some hm' [m]
    refine ⟨⟨m', hgrown, henvelope⟩, fun l hl heq => ?_⟩
    rcases List.mem_append.mp hl with hl | hl
    · exact hnone l hl heq
    · rw [List.mem_singleton.mp hl] at heq
      exact absurd heq (Nat.ne_of_lt hlt).symm
  · intro l hl hstage
    rcases List.mem_append.mp hl with hl | hl
    · exact h.undrafted l hl hstage
    · rw [List.mem_singleton.mp hl] at hstage
      cases hstage
  · intro l hl hrunning
    rcases List.mem_append.mp hl with hl | hl
    · exact h.unready l hl hrunning
    · rw [List.mem_singleton.mp hl] at hrunning
      cases hrunning
  · intro n hmem
    have := h.begun n hmem
    show n < (s.begun ++ [m]).length
    rw [List.length_append]
    omega
  · intro l hl hmem
    rcases List.mem_append.mp hl with hl | hl
    · exact h.discarded l hl hmem
    · rw [List.mem_singleton.mp hl] at hmem
      exact absurd (h.begun _ hmem) (Nat.lt_irrefl _)

/-- A handling goes on without a row being set. -/
theorem Rows.advance (h : Rows s) (hn : Numbered s) {l : LiveReply}
    (hl : l ∈ s.live) {stage : Stage}
    (hwaiting : l.stage.isWaiting = stage.isWaiting)
    (hrunning : stage.isRunning = false)
    (hlive : s'.live = (s.advance l.number stage).live)
    (hreplies : s'.replies = s.replies) (hshown : s'.shown = s.shown)
    (hbegun : s'.begun = s.begun) (hdiscarded : s'.discarded = s.discarded)
    (hdispatched : ∀ d ∈ s'.dispatched, d ∈ s.dispatched ∨
      d.discarded = false) : Rows s' := by
  refine h.follow (fun l' hl' => ?_) hreplies hshown hbegun hdiscarded
    hdispatched
  rw [hlive] at hl'
  rcases mem_advance hl' with ⟨k, hk, hnumber, rfl⟩ | ⟨hmem, -⟩
  · rw [hn.eq_of_number hk hl hnumber]
    refine ⟨l, hl, rfl, rfl, hwaiting, fun hr => ?_⟩
    rw [show stage.isRunning = true from hr] at hrunning
    cases hrunning
  · exact ⟨l', hmem, rfl, rfl, rfl, fun hr => ⟨hr, rfl⟩⟩

theorem Rows.step (h : Rows s) (hn : Numbered s) (hk : Locked s)
    {event : Event} (hok : s.Orderly event) : Rows (s.step event) := by
  have hmove := step_move s event
  generalize s.step event = s' at hmove ⊢
  cases hmove with
  | idle => exact h
  | begin m set => exact h.begin m set
  | finish _ l hl =>
      exact h.congr (fun _ hl => List.mem_of_mem_filter hl) rfl rfl rfl rfl
        rfl
  | reserveDraft _ l hl hstage | reserveAuto _ l hl hstage =>
      exact h.advance hn hl (by rw [hstage]; rfl) rfl rfl rfl rfl rfl rfl
        fun _ hd => .inl hd
  | startRun _ l hl decision token reason hstage =>
      exact h.startRun hn hk hl hstage
  | startFailed c hc reason =>
      obtain ⟨l, hl, hnumber, hmessage, hrunning⟩ := run_of_started hn hc hok
      have hfail := h.failRun hn hk hl hrunning c.token reason
      rw [hnumber, hmessage] at hfail
      exact hfail.congr (fun _ hl => hl) rfl rfl rfl rfl rfl
  | chunk _ l hl decision token reason text text' hstage =>
      exact h.onChunk hn hl hstage text'
  | dispatch _ l hl token reason text hstage =>
      refine h.advance hn hl (by rw [hstage]; rfl) rfl rfl rfl rfl rfl rfl
        fun d hd => ?_
      rcases List.mem_append.mp hd with hd | hd
      · exact .inl hd
      · rw [List.mem_singleton.mp hd]
        refine .inr (decide_eq_false fun hmem => ?_)
        have htoken := (h.discarded l hl hmem).2 (by rw [hstage]; rfl)
        rw [hstage] at htoken
        cases htoken
  | drafted _ l hl decision token reason text hstage =>
      exact h.drafted hn hk hl (by rw [hstage]; rfl) _ _
  | fail _ l hl decision token reason text message hstage =>
      exact h.failRun hn hk hl (by rw [hstage]; rfl) _ _
  | sendReturned _ l hl id token text error hstage =>
      exact h.sendReturned hn hk hl hstage error
  | keyChanged did =>
      have hkept := onKeyChange_induct (P := fun s => Locked s ∧ Rows s) hn
        did
        (fun _ _ => ⟨hk.congr rfl rfl rfl,
          h.congr (fun _ hl => hl) rfl rfl rfl rfl rfl⟩)
        (fun _ _ hn ⟨hk, h⟩ hl hrunning =>
          ⟨hk.failRun hn hl hrunning _ _, h.failRun hn hk hl hrunning _ _⟩)
      exact hkept.2.2
  | sendOk id first second rec hrec patch hpatch =>
      exact h.quiet hpatch rfl (fun _ hl => hl) rfl rfl rfl rfl
  | sendErr _ id rec hrec patch hpatch =>
      exact h.quiet hpatch rfl (fun _ hl => hl) rfl rfl rfl rfl
  | quiet _ pending approving envelopeId patch hpatch =>
      exact h.quiet hpatch rfl (fun _ hl => hl) rfl rfl rfl rfl
  | approve envelopeId view hview hstatus htoken d hd hdiscarded approving =>
      exact h.approve hok hview hstatus htoken hdiscarded approving
  | discard envelopeId => exact h.discard hn hok
  | render =>
      refine ⟨?_, h.undrafted, h.unready, h.gone, h.begun, h.discarded,
        h.dispatched⟩
      intro e row hrow
      exact h.placed e row (.inl (hrow.elim id id))
  | skip | started | acknowledge | policySet =>
      exact h.congr (fun _ hl => hl) rfl rfl rfl rfl rfl

end Rows

/-! ## Every order of events -/

theorem numbered_start (agent : Option String) :
    Numbered (ReplyLoop.start agent) where
  live := fun _ hl => absurd hl List.not_mem_nil
  starting := fun _ hc => absurd hc List.not_mem_nil
  apart := List.Pairwise.nil
  locked := fun _ _ hn => by cases hn

theorem locked_start (agent : Option String) :
    Locked (ReplyLoop.start agent) where
  envelopes := fun _ hl => absurd hl List.not_mem_nil
  held := fun _ hl => absurd hl List.not_mem_nil
  released := fun _ hr => absurd hr List.not_mem_nil

theorem reserved_start (agent : Option String) :
    Reserved (ReplyLoop.start agent) where
  tokens := fun _ hl => absurd hl List.not_mem_nil
  opened := fun _ hl => absurd hl List.not_mem_nil
  starting := fun _ hc => absurd hc List.not_mem_nil
  stashed := fun _ he => absurd he List.not_mem_nil
  sending := fun _ hl => absurd hl List.not_mem_nil
  spent := fun _ hd => absurd hd List.not_mem_nil
  wasOpen := fun _ hd => absurd hd List.not_mem_nil
  acked := fun _ hid => absurd hid List.not_mem_nil
  confirmed := fun _ _ _ _ _ hid => absurd hid List.not_mem_nil

theorem unchanged_start (agent : Option String) :
    Unchanged (ReplyLoop.start agent) where
  after := fun _ hl => absurd hl List.not_mem_nil
  changed := fun _ => Nat.le_refl _
  dispatched := fun _ hd => absurd hd List.not_mem_nil

theorem rows_start (agent : Option String) :
    Rows (ReplyLoop.start agent) where
  placed := fun _ _ hrow => by rcases hrow with hrow | hrow <;> cases hrow
  undrafted := fun _ hl => absurd hl List.not_mem_nil
  unready := fun _ hl => absurd hl List.not_mem_nil
  gone := fun _ _ hrow => by cases hrow
  begun := fun _ hn => absurd hn List.not_mem_nil
  discarded := fun _ hl => absurd hl List.not_mem_nil
  dispatched := fun _ hd => absurd hd List.not_mem_nil

/-- In every order of events a lock is held by a handling that has not
ended. -/
theorem lock_of_live (agent : Option String) (events : List Event)
    (did : String) (n : Nat)
    (h : (Trace.run step (.start agent) events).inFlight did = some n) :
    ∃ l ∈ (Trace.run step (.start agent) events).live,
      l.number = n ∧ l.message.peer = did := by
  have hn : Numbered (Trace.run step (.start agent) events) :=
    Trace.run_inv Numbered (fun _ event h => h.step event)
      (numbered_start agent) events
  exact hn.locked did n h

/-- What an orderly event keeps. -/
structure Ordered (s : ReplyLoop) : Prop where
  numbered : Numbered s
  locked : Locked s
  reserved : Reserved s
  unchanged : Unchanged s
  rows : Rows s

theorem Ordered.step {s : ReplyLoop} (h : Ordered s) {event : Event}
    (hok : s.Orderly event) : Ordered (s.step event) where
  numbered := h.numbered.step event
  locked := h.locked.step h.numbered hok
  reserved := h.reserved.step h.numbered hok
  unchanged := h.unchanged.step h.numbered hok
  rows := h.rows.step h.numbered h.locked hok

theorem Ordered.obeys {s : ReplyLoop} (h : Ordered s) : Obeys s where
  discarded := h.rows.dispatched
  opened := h.reserved.wasOpen
  keyChanged := h.unchanged.dispatched
  confirmed := h.reserved.confirmed
  locked := h.numbered.locked
  released := h.locked.released

/-- **In order, the loop obeys its owner**: where no event is one of those
that break a promise, every promise holds in every state. -/
theorem reply_loop_obeys (agent : Option String) (events : List Event)
    (hmeets : Trace.Meets step Orderly (.start agent) events) (n : Nat) :
    Obeys (Trace.run step (.start agent) (events.take n)) := by
  have hstart : Ordered (.start agent) :=
    ⟨numbered_start agent, locked_start agent, reserved_start agent,
      unchanged_start agent, rows_start agent⟩
  have hordered : Ordered (Trace.run step (.start agent) (events.take n)) :=
    Trace.run_take_inv_of_meets Ordered (fun _ _ h hok => h.step hok) hstart
      hmeets n
  exact hordered.obeys

/-! ### Sample orders -/

/-- A message of one sender. -/
def sampleIncoming (envelopeId : String) : InboxMessage :=
  { envelopeId := envelopeId
    peer := "did:wba:x:agents:AIR-ALICE"
    threadId := some "t1"
    roomId := none
    body := some { kind := some "text" } }

/-- A first message is handled up to its stream. -/
def sampleStreaming : List Event :=
  [.message (sampleIncoming "e1"), .reserved 0 (some (.auto, "auto")),
    .history 0, .started 0 none, .chunk 0 "on my way", .render]

theorem lock_of_live_streaming :
    ∃ l ∈ (Trace.run step (.start (some "agent-1")) sampleStreaming).live,
      l.number = 0 ∧ l.message.peer = "did:wba:x:agents:AIR-ALICE" :=
  lock_of_live _ sampleStreaming _ 0 (by decide +kernel)

/-- The reply is sent and acknowledged. -/
def sampleReplied : List Event :=
  sampleStreaming ++
    [.done 0 false, .sendReturned 0 none, .sendOk 0 true false, .render]

/-- The reply is sent in an orderly way. -/
theorem reply_loop_obeys_replied :
    Obeys (Trace.run step (.start (some "agent-1"))
      (sampleReplied.take 10)) := by
  refine reply_loop_obeys (some "agent-1") sampleReplied ?_ 10
  refine ⟨.inr fun _ hl => absurd hl List.not_mem_nil, trivial, trivial,
    trivial, trivial, trivial, trivial, trivial, ?_, trivial, trivial⟩
  intro d hd hauto
  exact .inr ⟨⟨_, List.mem_cons_self⟩, rfl⟩

/-- The state that events lead to. -/
def sampleLoop (events : List Event) : ReplyLoop :=
  Trace.run step (.start (some "agent-1")) events

/-- **Out of order, it does not**: a discarded reply is sent, and its
reservation was cancelled; a reply is sent after the key changed; an
acknowledgement confirms nothing; and a lock is released that a later message
took. -/
theorem reply_loop_disobeys :
    (¬ ∀ events, ∀ d ∈ (sampleLoop events).dispatched,
      d.discarded = false) ∧
    (¬ ∀ events, ∀ d ∈ (sampleLoop events).dispatched,
      d.token.isSome → d.opened = true) ∧
    (¬ ∀ events, ∀ d ∈ (sampleLoop events).dispatched,
      d.token.isSome → d.keyChanged = false) ∧
    (¬ ∀ (events : List Event) (id : Nat) (d : Dispatch) (t : Nat),
      (sampleLoop events).dispatched[id]? = some d → d.token = some t →
        id ∈ (sampleLoop events).acked →
          (sampleLoop events).reservation t = .confirmed) ∧
    (¬ ∀ events, ∀ r ∈ (sampleLoop events).released, r.2 ≤ r.1) := by
  refine ⟨fun h => ?_, fun h => ?_, fun h => ?_, fun h => ?_, fun h => ?_⟩
  · exact absurd (h (sampleStreaming ++ [.discard "e1", .done 0 false]))
      (by decide +kernel)
  · exact absurd (h (sampleStreaming ++ [.discard "e1", .done 0 false]))
      (by decide +kernel)
  · -- The frame arrives while the reservation is awaited.
    exact absurd (h
      [.message (sampleIncoming "e1"),
        .keyChanged "did:wba:x:agents:AIR-ALICE",
        .reserved 0 (some (.auto, "auto")), .history 0, .started 0 none,
        .done 0 false])
      (by decide +kernel)
  · -- The acknowledgement arrives while the call is awaited.
    have hconfirmed := h (sampleStreaming ++
      [.done 0 false, .sendOk 0 true false, .sendReturned 0 none]) 0 _ 0 rfl
      rfl (by decide +kernel)
    exact absurd hconfirmed (by decide +kernel)
  · -- The run is deleted, a second message comes, and the start fails.
    exact absurd (h
      [.message (sampleIncoming "e1"), .reserved 0 (some (.auto, "auto")),
        .history 0, .keyChanged "did:wba:x:agents:AIR-ALICE",
        .message (sampleIncoming "e2"), .started 0 (some "no such agent")])
      (by decide +kernel)

end ReplyLoop

end AirNote
