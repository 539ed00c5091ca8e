import AirNote.TelegramBridge

/-!
# The tiers of a reply

A message that is forwarded to Telegram leaves a route under the identifier
Telegram gave the forwarded message: whom a reply goes to, and whether it goes
at once. It does where the sender was verified with an unchanged key and is a
contact; any other reply is held, and goes when `/yes` is replied to the same
message in time.

Replies are handled one at a time, but a handling waits while `sendFn` runs:
meanwhile messages are forwarded and the bridge may be restarted, which
empties the store and prunes the routes. A call that throws leaves the text
held, so that the next `/yes` calls again. The clock is read wherever the
source reads it. The history says what happened, in order.

## Main results

* `inv_step` — what every step keeps.
* `bridge_reply_tiers` — what every call of `sendFn` was preceded by.
* `held_text_called_twice` — a call that threw is made again.
-/

namespace AirNote.BridgeTiers

open Lib

/-! ## The routes -/

/-- What the bridge reads of a message. -/
structure Forwarded where
  sender : String
  contact : Option String
  threadId : Option String
  envelopeId : Option String
  verified : Bool
  keyChanged : Bool
  deriving DecidableEq

/-- A reply goes at once. -/
def Forwarded.oneTap (m : Forwarded) : Bool :=
  m.verified && !m.keyChanged && (truthy m.contact).isSome

/-- What `makeBridgeOutbound` stores. -/
def Forwarded.route (m : Forwarded) : BridgeRoute :=
  ⟨m.sender, m.contact, m.threadId, m.envelopeId, m.oneTap⟩

/-- A row of `bridge_routes`. -/
structure RouteRow where
  externalId : String
  route : BridgeRoute
  createdAt : Nat

/-- `putRoute`. -/
def putRoute (routes : List RouteRow) (row : RouteRow) : List RouteRow :=
  routes.filter (fun r => r.externalId ≠ row.externalId) ++ [row]

/-- `getRoute`. -/
def getRoute (routes : List RouteRow) (externalId : String) :
    Option BridgeRoute :=
  (routes.find? fun row => row.externalId == externalId).map RouteRow.route

/-- `maxAgeMs`. -/
def routeMaxAgeMs : Nat := 30 * 24 * 3600 * 1000

/-- `maxRows`. -/
def routeMaxRows : Nat := 5000

/-- `pruneRoutes`. -/
def pruneRoutes (routes : List RouteRow) (now : Nat) : List RouteRow :=
  let routes := routes.filter fun row => ¬ row.createdAt < now - routeMaxAgeMs
  let overflow := ((routes.insertionSort fun a b =>
    b.createdAt ≤ a.createdAt).drop routeMaxRows).map RouteRow.externalId
  routes.filter fun row => row.externalId ∉ overflow

/-! ## The bridge -/

/-- A text from the saved chat, and what the clock reads where it is purged
and where a text is put or got. -/
structure Reply where
  replyTo : Option String
  text : String
  purgedAt : Nat
  readAt : Nat

/-- A call of `sendFn`: for a reply to which message, and whether with a held
text. -/
structure Call where
  externalId : String
  note : NoteReply
  held : Bool
  deriving DecidableEq

/-- What happened: a message was forwarded; a reply was handled up to its
call, if it made one; a call returned or threw; the bridge was restarted. -/
inductive Happening where
  | forwarded (externalId : String) (m : Forwarded)
  | replied (r : Reply) (call : Option Call)
  | settled (call : Call) (ok : Bool)
  | restarted

/-- The tables, the store, the call that is awaited, and what happened. -/
structure Bridge where
  routes : List RouteRow
  confirm : ConfirmStore
  calling : Option Call
  history : List Happening

/-- Nothing happened yet. -/
def Bridge.start : Bridge := ⟨[], [], none, []⟩

/-- What happens next. -/
inductive BridgeInput where
  | forward (externalId : String) (m : Forwarded) (createdAt : Nat)
  | reply (r : Reply)
  | settle (ok : Bool)
  | restart (now : Nat)

/-- `/yes`. -/
def isYes (text : String) : Bool := trimmed text == ['/', 'y', 'e', 's']

/-- What `sendFn` is given. -/
def noteTo (route : BridgeRoute) (body : String) : NoteReply :=
  ⟨route.peerDid, body, route.threadId, route.envelopeId⟩

/-- `makeReplyHandler` up to its call: the store, and the call. A text that is
held is kept with its place in the history. -/
def Bridge.handleReply (s : Bridge) (r : Reply) :
    ConfirmStore × Option Call :=
  let confirm := s.confirm.purge r.purgedAt
  match truthy r.replyTo with
  | none => (confirm, none)
  | some externalId =>
      match getRoute s.routes externalId with
      | none => (confirm, none)
      | some route =>
          match replyTier route with
          | .confirm =>
              if isYes r.text then
                match confirm.get r.readAt externalId with
                | (confirm, none) => (confirm, none)
                | (confirm, some held) =>
                    (confirm,
                      some ⟨externalId, noteTo route held.text, true⟩)
              else
                (confirm.put r.readAt externalId r.text s.history.length,
                  none)
          | .oneTap =>
              (confirm, some ⟨externalId, noteTo route r.text, false⟩)

/-- The identifier was given out. -/
def Bridge.issued (s : Bridge) (externalId : String) : Bool :=
  s.history.any fun
    | .forwarded id _ => id == externalId
    | _ => false

/-- One step; one that cannot happen changes nothing. Telegram gives every
message an identifier of its own. -/
def Bridge.step (s : Bridge) : BridgeInput → Bridge
  | .forward externalId m createdAt =>
      if s.issued externalId then s
      else
        { s with
          routes := putRoute s.routes ⟨externalId, m.route, createdAt⟩
          history := s.history ++ [.forwarded externalId m] }
  | .reply r =>
      match s.calling with
      | some _ => s
      | none =>
          let handled := s.handleReply r
          { s with
            confirm := handled.1
            calling := handled.2
            history := s.history ++ [.replied r handled.2] }
  | .settle ok =>
      match s.calling with
      | none => s
      | some call =>
          { s with
            confirm :=
              if ok && call.held then s.confirm.clear call.externalId
              else s.confirm
            calling := none
            history := s.history ++ [.settled call ok] }
  | .restart now =>
      { s with
        routes := pruneRoutes s.routes now
        confirm := []
        calling := none
        history := s.history ++ [.restarted] }

/-! ## What a call was preceded by -/

/-- What ends the holding of a text for a message: a newer text, a call with
it that returned, or a restart. -/
def Happening.Ends (externalId : String) : Happening → Prop
  | .forwarded _ _ => False
  | .replied r _ => truthy r.replyTo = some externalId ∧ isYes r.text = false
  | .settled call ok =>
      ok = true ∧ call.held = true ∧ call.externalId = externalId
  | .restarted => True

/-- The text held last for the message, and what the clock read when it was
held: no newer text, call that returned or restart came after it. -/
def HeldLast (history : List Happening) (externalId text : String)
    (at₀ : Nat) : Prop :=
  ∃ before h after, history = before ++ .replied h none :: after ∧
    truthy h.replyTo = some externalId ∧ isYes h.text = false ∧
    h.text = text ∧ h.readAt = at₀ ∧ ∀ x ∈ after, ¬ x.Ends externalId

/-- A call after a reply: it goes to the sender of the message replied to;
where a reply goes at once, with its text, and otherwise after `/yes`, in
time, with the text held last. -/
def Allowed (history : List Happening) (r : Reply) (call : Call) : Prop :=
  truthy r.replyTo = some call.externalId ∧
  ∃ m, .forwarded call.externalId m ∈ history ∧
    (∀ m', .forwarded call.externalId m' ∈ history → m' = m) ∧
    call.note.recipient = m.sender ∧ call.note.threadId = m.threadId ∧
    call.note.inReplyTo = m.envelopeId ∧
    if m.oneTap then call.note.body = r.text
    else isYes r.text = true ∧ ∃ at₀,
      HeldLast history call.externalId call.note.body at₀ ∧
        r.readAt ≤ at₀ + confirmTtlMs

/-- What every step keeps. -/
structure Bridge.Inv (s : Bridge) : Prop where
  routes : ∀ row ∈ s.routes, ∃ m,
    .forwarded row.externalId m ∈ s.history ∧ row.route = m.route
  once : ∀ externalId m m', .forwarded externalId m ∈ s.history →
    .forwarded externalId m' ∈ s.history → m' = m
  held : ∀ e ∈ s.confirm,
    (∃ at₀, HeldLast s.history e.1 e.2.text at₀ ∧
      e.2.expiresAt = at₀ + confirmTtlMs) ∧
    ∃ route, getRoute s.routes e.1 = some route ∧
      replyTier route = .confirm
  calls : ∀ n r call, s.history[n]? = some (.replied r (some call)) →
    Allowed (s.history.take n) r call

/-! ## The store -/

section Store

variable {confirm : ConfirmStore} {e : String × HeldReply}

theorem mem_of_mem_purge {now : Nat} (h : e ∈ confirm.purge now) :
    e ∈ confirm :=
  List.mem_of_mem_filter h

theorem mem_clear {externalId : String} :
    e ∈ confirm.clear externalId ↔ e ∈ confirm ∧ e.1 ≠ externalId := by
  rw [ConfirmStore.clear, List.mem_filter, decide_eq_true_eq]

theorem mem_put {now source : Nat} {externalId text : String}
    (h : e ∈ confirm.put now externalId text source) :
    e = (externalId, ⟨text, now + confirmTtlMs, source⟩) ∨
      e ∈ confirm ∧ e.1 ≠ externalId := by
  rcases List.mem_cons.mp h with h | h
  · exact Or.inl h
  · exact Or.inr (mem_clear.1 h)

theorem mem_of_get_none {confirm' : ConfirmStore} {now : Nat}
    {externalId : String} (h : confirm.get now externalId = (confirm', none))
    (he : e ∈ confirm') : e ∈ confirm := by
  rcases get_cases confirm now externalId with ⟨held, -, hget⟩ | hget
  · rw [hget] at h
    cases h
  · rw [hget] at h
    cases h
    exact (mem_clear.1 he).1

/-- What is got is held, and not past its time. -/
theorem get_some {confirm' : ConfirmStore} {held : HeldReply} {now : Nat}
    {externalId : String}
    (h : confirm.get now externalId = (confirm', some held)) :
    confirm' = confirm ∧ (externalId, held) ∈ confirm ∧
      now ≤ held.expiresAt := by
  unfold ConfirmStore.get at h
  cases hlookup : confirm.lookup externalId with
  | none => simp [hlookup] at h
  | some found =>
      rw [hlookup] at h
      dsimp only at h
      split at h
      · cases h
      next htime =>
        simp only [Prod.mk.injEq, Option.some.injEq] at h
        obtain ⟨rfl, rfl⟩ := h
        obtain ⟨before, after, rfl, -⟩ := List.lookup_eq_some_iff.mp hlookup
        exact ⟨rfl, List.mem_append_right _ List.mem_cons_self,
          Nat.not_lt.mp htime⟩

end Store

/-! ## A reply -/

/-- What a reply leads to: nothing, a held text, or a call. -/
inductive Handled (s : Bridge) (r : Reply) :
    ConfirmStore × Option Call → Prop
  | quiet {confirm : ConfirmStore} (hsub : ∀ e ∈ confirm, e ∈ s.confirm)
      (hno : ∀ externalId, truthy r.replyTo = some externalId →
        isYes r.text = false → getRoute s.routes externalId = none) :
      Handled s r (confirm, none)
  | put {confirm : ConfirmStore} {externalId : String} {route : BridgeRoute}
      (hid : truthy r.replyTo = some externalId)
      (hroute : getRoute s.routes externalId = some route)
      (htier : replyTier route = .confirm) (hno : isYes r.text = false)
      (hput : ∀ e ∈ confirm, e = (externalId,
          ⟨r.text, r.readAt + confirmTtlMs, s.history.length⟩) ∨
        e ∈ s.confirm ∧ e.1 ≠ externalId) :
      Handled s r (confirm, none)
  | confirmed {confirm : ConfirmStore} {externalId : String}
      {route : BridgeRoute} {held : HeldReply}
      (hsub : ∀ e ∈ confirm, e ∈ s.confirm)
      (hid : truthy r.replyTo = some externalId)
      (hroute : getRoute s.routes externalId = some route)
      (htier : replyTier route = .confirm) (hyes : isYes r.text = true)
      (hheld : (externalId, held) ∈ s.confirm)
      (htime : r.readAt ≤ held.expiresAt) :
      Handled s r
        (confirm, some ⟨externalId, noteTo route held.text, true⟩)
  | oneTap {confirm : ConfirmStore} {externalId : String}
      {route : BridgeRoute} (hsub : ∀ e ∈ confirm, e ∈ s.confirm)
      (hid : truthy r.replyTo = some externalId)
      (hroute : getRoute s.routes externalId = some route)
      (htier : replyTier route = .oneTap) :
      Handled s r (confirm, some ⟨externalId, noteTo route r.text, false⟩)

theorem handleReply_handled (s : Bridge) (r : Reply) :
    Handled s r (s.handleReply r) := by
  have hpurge : ∀ e ∈ s.confirm.purge r.purgedAt, e ∈ s.confirm :=
    fun e he => mem_of_mem_purge he
  unfold Bridge.handleReply
  dsimp only
  split
  next hid => exact .quiet hpurge fun id h => by rw [hid] at h; cases h
  next externalId hid =>
    split
    next hroute =>
      refine .quiet hpurge fun id h _ => ?_
      rw [hid, Option.some.injEq] at h
      exact h ▸ hroute
    next route hroute =>
      split
      next htier =>
        split
        next hyes =>
          split
          next confirm hget =>
            exact .quiet (fun e he => hpurge e (mem_of_get_none hget he))
              fun id _ hno => by rw [hyes] at hno; cases hno
          next confirm held hget =>
            obtain ⟨rfl, hheld, htime⟩ := get_some hget
            exact .confirmed hpurge hid hroute htier hyes
              (hpurge _ hheld) htime
        next hno =>
          refine .put hid hroute htier (Bool.not_eq_true _ ▸ hno)
            fun e he => ?_
          rcases mem_put he with heq | ⟨hmem, hne⟩
          · exact Or.inl heq
          · exact Or.inr ⟨hpurge e hmem, hne⟩
      next htier => exact .oneTap hpurge hid hroute htier

/-- The store a handling leaves, once its call has settled. -/
def settledStore (confirm : ConfirmStore) (ok : Bool) :
    Option Call → ConfirmStore
  | some call =>
      if ok && call.held then confirm.clear call.externalId else confirm
  | none => confirm

/-- Where the clock reads the same throughout, the handling and its call are
the handling of `makeReplyHandler`. -/
theorem makeReplyHandler_handleReply {s : Bridge} {a : Attempt} {r : Reply}
    (hroute : a.route = getRoute s.routes) (hpurged : r.purgedAt = a.now)
    (hread : r.readAt = a.now) :
    let h := makeReplyHandler a s.confirm s.history.length
      (truthy r.replyTo) r.text
    h.confirm = settledStore (s.handleReply r).1 a.send.isOk
        (s.handleReply r).2 ∧
      h.sent.map Prod.snd =
        if a.send.isOk then (s.handleReply r).2.map Call.note else none := by
  have hsend (route : BridgeRoute) (source : Nat) (body : String)
      (unsent sent : ConfirmStore) :
      (a.sendNote route source body unsent sent).confirm =
          (if a.send.isOk then sent else unsent) ∧
        (a.sendNote route source body unsent sent).sent.map Prod.snd =
          if a.send.isOk then some (noteTo route body) else none := by
    unfold Attempt.sendNote
    cases a.send <;> exact ⟨rfl, rfl⟩
  have hyes : isYes r.text = true ↔ trimmed r.text = ['/', 'y', 'e', 's'] :=
    beq_iff_eq
  simp only [makeReplyHandler, Bridge.handleReply, hroute, hpurged, hread,
    hyes]
  cases truthy r.replyTo with
  | none => simp [settledStore, Attempt.reply]
  | some externalId =>
      dsimp only
      cases getRoute s.routes externalId with
      | none => simp [settledStore, Attempt.reply]
      | some route =>
          dsimp only
          cases replyTier route with
          | oneTap =>
              simpa [settledStore] using hsend route s.history.length r.text
                (s.confirm.purge a.now) (s.confirm.purge a.now)
          | confirm =>
              dsimp only
              split
              · generalize (s.confirm.purge a.now).get a.now externalId = got
                obtain ⟨confirm, held⟩ := got
                cases held with
                | none => simp [settledStore, Attempt.reply]
                | some held =>
                    simpa [settledStore] using hsend route held.source
                      held.text confirm (confirm.clear externalId)
              · simp [settledStore, Attempt.reply]

/-! ## Every step -/

theorem HeldLast.concat {history : List Happening} {externalId text : String}
    {at₀ : Nat} (h : HeldLast history externalId text at₀) {x : Happening}
    (hx : ¬ x.Ends externalId) :
    HeldLast (history ++ [x]) externalId text at₀ := by
  obtain ⟨before, r, after, rfl, hid, hno, htext, hread, hafter⟩ := h
  refine ⟨before, r, after ++ [x], by simp, hid, hno, htext, hread, ?_⟩
  intro y hy
  rcases List.mem_append.mp hy with hy | hy
  · exact hafter y hy
  · exact List.mem_singleton.mp hy ▸ hx

/-- The calls made so far stay allowed, and so is one that is made now. -/
theorem calls_concat {history : List Happening} {x : Happening}
    (h : ∀ n r call, history[n]? = some (.replied r (some call)) →
      Allowed (history.take n) r call)
    (hx : ∀ r call, x = .replied r (some call) → Allowed history r call) :
    ∀ n r call, (history ++ [x])[n]? = some (.replied r (some call)) →
      Allowed ((history ++ [x]).take n) r call := by
  intro n r call hget
  rcases Trace.getElem?_concat_cases history x n with hold | ⟨rfl, hnew⟩
  · rw [hold] at hget
    have hlt := (List.getElem?_eq_some_iff.mp hget).1
    rw [List.take_append_of_le_length hlt.le]
    exact h n r call hget
  · rw [hnew, Option.some.injEq] at hget
    rw [List.take_left]
    exact hx r call hget

theorem getRoute_putRoute_of_ne {routes : List RouteRow} {row : RouteRow}
    {externalId : String} (h : externalId ≠ row.externalId) :
    getRoute (putRoute routes row) externalId =
      getRoute routes externalId := by
  have hrow : (row.externalId == externalId) = false := by simpa using h.symm
  have hkept : (routes.filter fun r => r.externalId ≠ row.externalId).find?
      (fun r => r.externalId == externalId) =
        routes.find? fun r => r.externalId == externalId := by
    rw [List.find?_filter]
    congr 1
    funext r
    by_cases hr : r.externalId = externalId
    · simp [hr, h]
    · simp [hr]
  rw [getRoute, putRoute, List.find?_append, hkept,
    List.find?_singleton, if_neg (by simp [hrow]), Option.or_none, getRoute]

/-- A stored route is that of the message forwarded under its identifier. -/
theorem Bridge.Inv.route {s : Bridge} (h : s.Inv) {externalId : String}
    {route : BridgeRoute} (hroute : getRoute s.routes externalId = some route) :
    ∃ m, .forwarded externalId m ∈ s.history ∧ route = m.route := by
  obtain ⟨row, hrow, rfl⟩ := Option.map_eq_some_iff.mp hroute
  obtain ⟨m, hm, heq⟩ := h.routes row (List.mem_of_find?_eq_some hrow)
  have hid := List.find?_some hrow
  rw [beq_iff_eq] at hid
  exact ⟨m, hid ▸ hm, heq⟩

theorem replyTier_route (m : Forwarded) :
    replyTier m.route = if m.oneTap then .oneTap else .confirm := rfl

theorem start_inv : Bridge.start.Inv :=
  ⟨by simp [Bridge.start], by simp [Bridge.start], by simp [Bridge.start],
    by simp [Bridge.start]⟩

theorem not_issued {s : Bridge} {externalId : String}
    (h : s.issued externalId = false) (m : Forwarded) :
    .forwarded externalId m ∉ s.history := by
  intro hmem
  rw [Bridge.issued, List.any_eq_false] at h
  exact h _ hmem (beq_self_eq_true externalId)

theorem inv_forward {s : Bridge} (h : s.Inv) (externalId : String)
    (m : Forwarded) (createdAt : Nat) :
    (s.step (.forward externalId m createdAt)).Inv := by
  rw [Bridge.step]
  cases hissued : s.issued externalId with
  | true => exact h
  | false =>
      rw [if_neg Bool.false_ne_true]
      have hnew := not_issued hissued
      refine ⟨fun row hrow => ?_, fun id m₁ m₂ h₁ h₂ => ?_,
        fun e he => ?_, calls_concat h.calls fun r call hx => by cases hx⟩
      · rcases List.mem_append.mp hrow with hrow | hrow
        · obtain ⟨m', hm', heq⟩ := h.routes row (List.mem_of_mem_filter hrow)
          exact ⟨m', List.mem_append_left _ hm', heq⟩
        · rw [List.mem_singleton.mp hrow]
          exact ⟨m, List.mem_append_right _ List.mem_cons_self, rfl⟩
      · simp only [List.mem_append, List.mem_singleton,
          Happening.forwarded.injEq] at h₁ h₂
        rcases h₁ with h₁ | ⟨rfl, rfl⟩
        · rcases h₂ with h₂ | ⟨rfl, rfl⟩
          · exact h.once id m₁ m₂ h₁ h₂
          · exact absurd h₁ (hnew m₁)
        · rcases h₂ with h₂ | ⟨-, rfl⟩
          · exact absurd h₂ (hnew m₂)
          · rfl
      · obtain ⟨⟨at₀, hlast, htime⟩, route, hroute, htier⟩ := h.held e he
        obtain ⟨m', hm', -⟩ := h.route hroute
        have hne : e.1 ≠ externalId := fun heq => hnew m' (heq ▸ hm')
        exact ⟨⟨at₀, hlast.concat id, htime⟩, route,
          (getRoute_putRoute_of_ne hne).trans hroute, htier⟩

/-- A call with what the routes and the store say is allowed. -/
theorem allowed_handled {s : Bridge} (h : s.Inv) {r : Reply}
    {confirm : ConfirmStore} {call : Call}
    (hcall : Handled s r (confirm, some call)) :
    Allowed s.history r call := by
  cases hcall with
  | confirmed hsub hid hroute htier hyes hheld htime =>
      obtain ⟨m, hm, rfl⟩ := h.route hroute
      obtain ⟨⟨at₀, hlast, hexpires⟩, -⟩ := h.held _ hheld
      have htap : m.oneTap = false := by
        rw [replyTier_route] at htier
        split at htier
        · cases htier
        next hno => exact Bool.not_eq_true _ ▸ hno
      refine ⟨hid, m, hm, fun m' hm' => h.once _ _ _ hm hm', rfl, rfl, rfl,
        ?_⟩
      rw [if_neg (by simp [htap])]
      exact ⟨hyes, at₀, hlast, htime.trans_eq hexpires⟩
  | oneTap hsub hid hroute htier =>
      obtain ⟨m, hm, rfl⟩ := h.route hroute
      have htap : m.oneTap = true := by
        rw [replyTier_route] at htier
        split at htier
        next hyes => exact hyes
        · cases htier
      refine ⟨hid, m, hm, fun m' hm' => h.once _ _ _ hm hm', rfl, rfl, rfl,
        ?_⟩
      rw [if_pos htap]
      rfl

/-- What is held after a reply was held last. -/
theorem held_handled {s : Bridge} (h : s.Inv) {r : Reply}
    {confirm : ConfirmStore} {call : Option Call}
    (hcall : Handled s r (confirm, call)) :
    ∀ e ∈ confirm, (∃ at₀,
      HeldLast (s.history ++ [.replied r call]) e.1 e.2.text at₀ ∧
        e.2.expiresAt = at₀ + confirmTtlMs) ∧
      ∃ route, getRoute s.routes e.1 = some route ∧
        replyTier route = .confirm := by
  intro e he
  have hkeep (hmem : e ∈ s.confirm)
      (hends : ¬ (Happening.replied r call).Ends e.1) :
      (∃ at₀, HeldLast (s.history ++ [.replied r call]) e.1 e.2.text at₀ ∧
        e.2.expiresAt = at₀ + confirmTtlMs) ∧
      ∃ route, getRoute s.routes e.1 = some route ∧
        replyTier route = .confirm := by
    obtain ⟨⟨at₀, hlast, htime⟩, hroute⟩ := h.held e hmem
    exact ⟨⟨at₀, hlast.concat hends, htime⟩, hroute⟩
  cases hcall with
  | quiet hsub hno =>
      refine hkeep (hsub e he) fun hends => ?_
      obtain ⟨-, route, hroute, -⟩ := h.held e (hsub e he)
      rw [hno e.1 hends.1 hends.2] at hroute
      cases hroute
  | put hid hroute htier hno hput =>
      rcases hput e he with rfl | ⟨hmem, hne⟩
      · exact ⟨⟨r.readAt, ⟨s.history, r, [], rfl, hid, hno, rfl, rfl,
          by simp⟩, rfl⟩, _, hroute, htier⟩
      · refine hkeep hmem fun hends => hne ?_
        obtain ⟨hsame, -⟩ := hends
        rw [hid] at hsame
        exact (Option.some.inj hsame).symm
  | confirmed hsub hid hroute htier hyes hheld htime =>
      refine hkeep (hsub e he) fun hends => ?_
      obtain ⟨-, hno⟩ := hends
      rw [hyes] at hno
      cases hno
  | oneTap hsub hid hroute htier =>
      refine hkeep (hsub e he) fun hends => ?_
      obtain ⟨-, route, hroute', htier'⟩ := h.held e (hsub e he)
      obtain ⟨hsame, -⟩ := hends
      rw [hid] at hsame
      rw [← Option.some.inj hsame, hroute] at hroute'
      rw [← Option.some.inj hroute', htier] at htier'
      cases htier'

theorem mem_concat_of_ne {history : List Happening} {x : Happening}
    {externalId : String} {m : Forwarded}
    (hx : ∀ id m', x ≠ .forwarded id m')
    (h : .forwarded externalId m ∈ history ++ [x]) :
    .forwarded externalId m ∈ history := by
  rcases List.mem_append.mp h with h | h
  · exact h
  · exact absurd (List.mem_singleton.mp h).symm (hx _ _)

theorem inv_reply {s : Bridge} (h : s.Inv) (r : Reply) :
    (s.step (.reply r)).Inv := by
  rw [Bridge.step]
  cases s.calling with
  | some call => exact h
  | none =>
      have hhandled := handleReply_handled s r
      refine ⟨fun row hrow => ?_, fun id m m' hm hm' => ?_,
        held_handled h hhandled, calls_concat h.calls fun r' call hx => ?_⟩
      · obtain ⟨m, hm, heq⟩ := h.routes row hrow
        exact ⟨m, List.mem_append_left _ hm, heq⟩
      · exact h.once id m m' (mem_concat_of_ne (fun _ _ => by simp) hm)
          (mem_concat_of_ne (fun _ _ => by simp) hm')
      · simp only [Happening.replied.injEq] at hx
        obtain ⟨rfl, hx⟩ := hx
        have hcall : Handled s r ((s.handleReply r).1, some call) :=
          hx ▸ hhandled
        exact allowed_handled h hcall

theorem inv_settle {s : Bridge} (h : s.Inv) (ok : Bool) :
    (s.step (.settle ok)).Inv := by
  rw [Bridge.step]
  cases s.calling with
  | none => exact h
  | some call =>
      refine ⟨fun row hrow => ?_, fun id m m' hm hm' => ?_,
        fun e he => ?_, calls_concat h.calls fun r' call' hx => by cases hx⟩
      · obtain ⟨m, hm, heq⟩ := h.routes row hrow
        exact ⟨m, List.mem_append_left _ hm, heq⟩
      · exact h.once id m m' (mem_concat_of_ne (fun _ _ => by simp) hm)
          (mem_concat_of_ne (fun _ _ => by simp) hm')
      · dsimp only at he
        have hkept : e ∈ s.confirm ∧
            ¬ (Happening.settled call ok).Ends e.1 := by
          split at he
          next hclear =>
            obtain ⟨hmem, hne⟩ := mem_clear.1 he
            exact ⟨hmem, fun hends => hne hends.2.2.symm⟩
          next hkeep =>
            exact ⟨he, fun hends => hkeep (by simp [hends.1, hends.2.1])⟩
        obtain ⟨⟨at₀, hlast, htime⟩, hroute⟩ := h.held e hkept.1
        exact ⟨⟨at₀, hlast.concat hkept.2, htime⟩, hroute⟩

theorem mem_of_mem_pruneRoutes {routes : List RouteRow} {now : Nat}
    {row : RouteRow} (h : row ∈ pruneRoutes routes now) : row ∈ routes :=
  List.mem_of_mem_filter (List.mem_of_mem_filter h)

theorem inv_restart {s : Bridge} (h : s.Inv) (now : Nat) :
    (s.step (.restart now)).Inv := by
  refine ⟨fun row hrow => ?_, fun id m m' hm hm' => ?_,
    fun e he => (by cases he),
    calls_concat h.calls fun r' call' hx => by cases hx⟩
  · obtain ⟨m, hm, heq⟩ := h.routes row (mem_of_mem_pruneRoutes hrow)
    exact ⟨m, List.mem_append_left _ hm, heq⟩
  · exact h.once id m m' (mem_concat_of_ne (fun _ _ => by simp) hm)
      (mem_concat_of_ne (fun _ _ => by simp) hm')

theorem inv_step (s : Bridge) (input : BridgeInput) (h : s.Inv) :
    (s.step input).Inv := by
  cases input with
  | forward externalId m createdAt => exact inv_forward h externalId m createdAt
  | reply r => exact inv_reply h r
  | settle ok => exact inv_settle h ok
  | restart now => exact inv_restart h now

/-! ## Every run -/

/-- **The tiers of a reply.** Whatever is forwarded, replied and read off the
clock, and whenever calls settle or the bridge restarts: a call of `sendFn`
goes to the sender of the message that was replied to; and unless that message
was verified, from a contact with an unchanged key, the reply is `/yes`, in
time after the text held last for the message, which is what is sent, and no
call with that text has returned before. -/
theorem bridge_reply_tiers (inputs : List BridgeInput) (n : Nat) (r : Reply)
    (call : Call)
    (h : (Trace.run Bridge.step .start inputs).history[n]? =
      some (.replied r (some call))) :
    Allowed ((Trace.run Bridge.step .start inputs).history.take n) r call :=
  (Trace.run_inv Bridge.Inv inv_step start_inv inputs).calls n r call h

/-! ### A call that threw -/

/-- A message from a stranger. -/
def strangerMessage : Forwarded := ⟨"did:s", none, none, none, true, false⟩

def replyAt (text : String) (now : Nat) : Reply := ⟨some "7", text, now, now⟩

/-- A text is held and confirmed; the call throws, and the `/yes` comes
again. -/
def confirmedTwice : List BridgeInput :=
  [.forward "7" strangerMessage 0, .reply (replyAt "hi" 1),
    .reply (replyAt "/yes" 2), .settle false, .reply (replyAt "/yes" 3)]

/-- The call with the held text. -/
def heldCall : Call := ⟨"7", ⟨"did:s", "hi", none, none⟩, true⟩

/-- One held text, and two calls with it. -/
theorem held_text_called_twice :
    (Trace.run Bridge.step .start confirmedTwice).history =
      [.forwarded "7" strangerMessage, .replied (replyAt "hi" 1) none,
        .replied (replyAt "/yes" 2) (some heldCall), .settled heldCall false,
        .replied (replyAt "/yes" 3) (some heldCall)] := by
  rfl

/-- Both calls are allowed. -/
theorem bridge_reply_tiers_twice :
    (Trace.run Bridge.step .start confirmedTwice).history[4]? =
        some (.replied (replyAt "/yes" 3) (some heldCall)) ∧
      Allowed ((Trace.run Bridge.step .start confirmedTwice).history.take 4)
        (replyAt "/yes" 3) heldCall :=
  ⟨rfl, bridge_reply_tiers confirmedTwice 4 _ _ rfl⟩

end AirNote.BridgeTiers
