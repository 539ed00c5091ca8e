import AirNote.ChannelReplay
import AirNote.LineParser
import AirNote.Lib.Trace

/-!
# The replies from Telegram

The bridge polls Telegram for updates from an offset on and takes them one by
one. A text from the saved chat is a reply: it is sent as a note to the peer
whose message it answers, at once if that peer is verified, and otherwise only
after `/yes`, until when the text is held. Then the user is told. A handling
that throws ends the batch, and after the batch the offset is moved past the
updates that were done. So an update is handled at least once and the updates
are handled in their order; one that was sent and whose handling threw
afterwards, or past which the offset could not be moved, is handled again.

Telegram keeps the updates, in the order of their identifiers, and drops what
is too old. A held text is kept with the update it came from, and so is a note
that was sent.

## Main results

* `chat_reply_bound` — a reply is sent once and at most once more for each
  failed acknowledgement of it and each failed write of the offset; no update
  is passed over, and none is handled before those it follows.
* `chat_reply_repeated` — a reply sent twice, and an update that is in the way
  of the next for good.
-/

namespace AirNote

open Lib

/-! ## The held replies -/

/-- A text held until `/yes`. -/
structure HeldReply where
  text : String
  expiresAt : Nat
  source : Nat

/-- `makeConfirmStore`. -/
abbrev ConfirmStore := List (String × HeldReply)

/-- `ttlMs`. -/
def confirmTtlMs : Nat := 120000

/-- `clear`. -/
def ConfirmStore.clear (confirm : ConfirmStore) (externalId : String) :
    ConfirmStore :=
  confirm.filter fun e => e.1 ≠ externalId

/-- `put`. -/
def ConfirmStore.put (confirm : ConfirmStore) (now : Nat)
    (externalId text : String) (source : Nat) : ConfirmStore :=
  (externalId, ⟨text, now + confirmTtlMs, source⟩) :: confirm.clear externalId

/-- `get`. -/
def ConfirmStore.get (confirm : ConfirmStore) (now : Nat)
    (externalId : String) : ConfirmStore × Option HeldReply :=
  match confirm.lookup externalId with
  | none => (confirm.clear externalId, none)
  | some held =>
      if held.expiresAt < now then (confirm.clear externalId, none)
      else (confirm, some held)

/-- `purge`. -/
def ConfirmStore.purge (confirm : ConfirmStore) (now : Nat) : ConfirmStore :=
  confirm.filter fun e => ¬ e.2.expiresAt < now

/-! ## The answer of Telegram -/

/-- What `sendMessage` answers. -/
structure SendAnswer where
  status : Nat
  ok : Bool
  description : Option String
  messageId : Nat

/-- The message's identifier, where there is one. -/
def SendAnswer.result (answer : SendAnswer) : Except String (Option String) :=
  if answer.ok then .ok (some (toString answer.messageId))
  else
    .error ("telegram sendMessage failed: " ++
      answer.description.getD (toString answer.status))

/-- `rawSend`: tried once more where the rate limit was hit, unless the bridge
is shutting down. -/
def rawSend (answers : Nat → Except String SendAnswer) (aborted : Bool) :
    Except String (Option String) :=
  match answers 0 with
  | .error e => .error e
  | .ok first =>
      if first.status = 429 then
        if aborted then .ok none
        else
          match answers 1 with
          | .error e => .error e
          | .ok second => second.result
      else first.result

/-! ## A reply -/

/-- What is stored with a forwarded message. -/
structure BridgeRoute where
  peerDid : String
  contact : Option String
  threadId : Option String
  envelopeId : Option String
  verified : Bool

/-- The tier of a reply. -/
inductive ReplyTier where
  | oneTap
  | confirm
  deriving DecidableEq

/-- `replyTier`. -/
def replyTier (route : BridgeRoute) : ReplyTier :=
  if route.verified then .oneTap else .confirm

/-- `destLabel`. -/
def destLabel (route : BridgeRoute) : String :=
  (truthy route.contact).getD (shortPeer route.peerDid)

/-- What `core.send` is given. -/
structure NoteReply where
  recipient : String
  body : String
  threadId : Option String
  inReplyTo : Option String
  deriving DecidableEq

/-- `trim`. -/
def trimmed (text : String) : List Char :=
  let isSpace := fun c : Char => jsSpaces.contains c.toNat
  ((text.toList.dropWhile isSpace).reverse.dropWhile isSpace).reverse

/-- What a handling finds: the time, the routes, whether `core.send` throws
and the answers to the acknowledgement. -/
structure Attempt where
  now : Nat
  route : String → Option BridgeRoute
  send : Except String Unit
  answers : Nat → Except String SendAnswer
  aborted : Bool

/-- Why a handling threw. -/
inductive HandlingFailure where
  | send (message : String)
  | reply (message : String)
  deriving DecidableEq

/-- What a handling leaves. -/
structure Handling where
  confirm : ConfirmStore
  sent : Option (Nat × NoteReply)
  said : Option String
  failed : Option HandlingFailure

/-- The user is told. -/
def Attempt.reply (a : Attempt) (confirm : ConfirmStore)
    (sent : Option (Nat × NoteReply)) (text : String) : Handling :=
  { confirm := confirm
    sent := sent
    said := some text
    failed :=
      match rawSend a.answers a.aborted with
      | .error e => some (.reply e)
      | .ok _ => none }

/-- The note is sent and the user is told. -/
def Attempt.sendNote (a : Attempt) (route : BridgeRoute) (source : Nat)
    (body : String) (unsent sent : ConfirmStore) : Handling :=
  match a.send with
  | .error e => ⟨unsent, none, none, some (.send e)⟩
  | .ok () =>
      a.reply sent
        (some (source,
          ⟨route.peerDid, body, route.threadId, route.envelopeId⟩))
        ("✓ sent to " ++ destLabel route)

/-- `makeReplyHandler`. -/
def makeReplyHandler (a : Attempt) (stored : ConfirmStore) (update : Nat)
    (replyToExternalId : Option String) (text : String) : Handling :=
  let confirm := stored.purge a.now
  match replyToExternalId with
  | none =>
      a.reply confirm none
        "↩️ Reply to a specific message so I know who to send it to."
  | some externalId =>
      match a.route externalId with
      | none =>
          a.reply confirm none
            "That conversation is too old to reply to here — open AIR Note to reply."
      | some route =>
          match replyTier route with
          | .confirm =>
              if trimmed text = ['/', 'y', 'e', 's'] then
                match confirm.get a.now externalId with
                | (confirm, none) =>
                    a.reply confirm none
                      "Nothing pending to confirm (it may have expired). Send your reply again."
                | (confirm, some held) =>
                    a.sendNote route held.source held.text confirm
                      (confirm.clear externalId)
              else
                a.reply (confirm.put a.now externalId text update) none
                  "⚠️ UNVERIFIED sender — we couldn't confirm who sent this, so your reply would go to the identity it CLAIMS (which may be a stranger). Reply /yes (to this message) within 2 min to send anyway."
          | .oneTap => a.sendNote route update text confirm confirm

/-! ## The polling -/

/-- A message in an update. -/
structure TelegramMessage where
  messageId : Nat
  chat : Option Int
  text : Option String
  replyTo : Option Nat

/-- An update. -/
structure TelegramUpdate where
  updateId : Nat
  message : Option TelegramMessage

/-- What a text from the saved chat answers, and the text; anything else is
ignored. -/
def TelegramUpdate.reply? (chat : Int) (u : TelegramUpdate) :
    Option (Option String × String) :=
  match u.message with
  | none => none
  | some msg =>
      if msg.chat ≠ some chat then none
      else msg.text.map fun text => (msg.replyTo.map toString, text)

/-- Telegram, the bridge and what was done. `issued` is above the identifiers
Telegram gave out; `batch` is what remains of the batch, with what the offset
will be. -/
structure BridgeState where
  updates : List TelegramUpdate
  issued : Nat
  offset : Nat
  batch : Option (List TelegramUpdate × Nat)
  confirm : ConfirmStore
  sent : List (Nat × NoteReply)
  handled : List (Nat × Option HandlingFailure)
  failedWrites : Nat

/-- Nothing happened yet. -/
def BridgeState.start : BridgeState :=
  { updates := []
    issued := 0
    offset := 0
    batch := none
    confirm := []
    sent := []
    handled := []
    failedWrites := 0 }

/-- What happens next: an update is made, or dropped; `getUpdates` fails or
answers with so many updates; the next one of the batch is taken; the offset
is written or not. -/
inductive BridgeEvent where
  | arrive (u : TelegramUpdate)
  | drop (updateId : Nat)
  | getUpdates (limit : Option Nat)
  | handle (a : Attempt)
  | setOffset (ok : Bool)

/-- What `getUpdates` answers. -/
def BridgeState.pending (s : BridgeState) : List TelegramUpdate :=
  s.updates.filter fun u => s.offset ≤ u.updateId

/-- An update of the batch is taken: it is ignored, handled, or ends the
batch. -/
def BridgeState.handle (chat : Int) (s : BridgeState) (a : Attempt)
    (u : TelegramUpdate) (rest : List TelegramUpdate) (next : Nat) :
    BridgeState :=
  match u.reply? chat with
  | none =>
      { s with
        batch := some (rest, u.updateId + 1)
        handled := s.handled ++ [(u.updateId, none)] }
  | some (replyToExternalId, text) =>
      let h := makeReplyHandler a s.confirm u.updateId replyToExternalId text
      { s with
        batch :=
          if h.failed.isNone then some (rest, u.updateId + 1)
          else some ([], next)
        confirm := h.confirm
        sent := s.sent ++ h.sent.toList
        handled := s.handled ++ [(u.updateId, h.failed)] }

/-- `listen`, one event; one that cannot happen changes nothing. -/
def BridgeState.step (chat : Int) (s : BridgeState) :
    BridgeEvent → BridgeState
  | .arrive u =>
      if s.issued ≤ u.updateId then
        { s with updates := s.updates ++ [u], issued := u.updateId + 1 }
      else s
  | .drop updateId =>
      { s with updates := s.updates.filter fun u => u.updateId ≠ updateId }
  | .getUpdates limit =>
      match s.batch, limit with
      | none, some n => { s with batch := some (s.pending.take n, s.offset) }
      | _, _ => s
  | .handle a =>
      match s.batch with
      | some (u :: rest, next) => s.handle chat a u rest next
      | _ => s
  | .setOffset ok =>
      match s.batch with
      | some ([], next) =>
          if s.offset < next then
            if ok then { s with offset := next, batch := none }
            else { s with batch := none, failedWrites := s.failedWrites + 1 }
          else { s with batch := none }
      | _ => s

/-! ## What is bounded -/

/-- How many notes a reply was sent as. -/
def BridgeState.notes (s : BridgeState) (updateId : Nat) : Nat :=
  s.sent.countP fun n => n.1 == updateId

/-- The user could not be told. -/
def HandlingFailure.isReply : HandlingFailure → Bool
  | .send _ => false
  | .reply _ => true

/-- How often the acknowledgement of a reply failed. -/
def BridgeState.failedReplies (s : BridgeState) (updateId : Nat) : Nat :=
  s.handled.countP fun h => h.1 == updateId && h.2.any HandlingFailure.isReply

/-- An update that Telegram keeps is behind the offset only if it was
handled. -/
def BridgeState.NothingSkipped (s : BridgeState) : Prop :=
  ∀ u ∈ s.updates, u.updateId < s.offset → (u.updateId, none) ∈ s.handled

/-- An update is handled only after those that Telegram keeps before it. -/
def BridgeState.InOrder (s : BridgeState) : Prop :=
  ∀ (i v : Nat) (failed : Option HandlingFailure),
    s.handled[i]? = some (v, failed) →
      ∀ u ∈ s.updates, u.updateId < v →
        (u.updateId, none) ∈ s.handled.take i

/-! ## One handling -/

/-- How many texts of an update are held. -/
def ConfirmStore.heldOf (confirm : ConfirmStore) (w : Nat) : Nat :=
  confirm.countP fun e => e.2.source == w

/-- How many of the notes a handling sent are of an update. -/
def Handling.notesOf (h : Handling) (w : Nat) : Nat :=
  h.sent.toList.countP fun n => n.1 == w

/-- One for a handling that got as far as telling the user. -/
def toldUser (failed : Option HandlingFailure) : Nat :=
  if failed.all HandlingFailure.isReply then 1 else 0

/-- A handling sends or holds nothing it did not find held, but for the text
of its own update if it went on to tell the user. -/
def Handling.Spends (h : Handling) (stored : ConfirmStore) (update : Nat) :
    Prop :=
  ∀ w, h.notesOf w + h.confirm.heldOf w ≤
    stored.heldOf w + if update = w then toldUser h.failed else 0

section Handler

variable {confirm stored : ConfirmStore}

theorem heldOf_filter_le (p : String × HeldReply → Bool) (w : Nat) :
    ConfirmStore.heldOf (stored.filter p) w ≤ stored.heldOf w :=
  List.filter_sublist.countP_le

theorem heldOf_put_le (confirm : ConfirmStore) (now : Nat)
    (externalId text : String) (source w : Nat) :
    (confirm.put now externalId text source).heldOf w ≤
      confirm.heldOf w + if source = w then 1 else 0 := by
  have hclear : (confirm.clear externalId).heldOf w ≤ confirm.heldOf w :=
    heldOf_filter_le _ w
  simp only [ConfirmStore.heldOf, ConfirmStore.put, List.countP_cons,
    beq_iff_eq] at hclear ⊢
  omega

/-- What is found is no longer held once it is cleared. -/
theorem heldOf_clear_of_lookup {externalId : String} {held : HeldReply}
    (h : confirm.lookup externalId = some held) (w : Nat) :
    (if held.source = w then 1 else 0) +
      (confirm.clear externalId).heldOf w ≤ confirm.heldOf w := by
  obtain ⟨before, after, hsplit, -⟩ := List.lookup_eq_some_iff.mp h
  have hbefore : (ConfirmStore.clear before externalId).heldOf w ≤
      ConfirmStore.heldOf before w := heldOf_filter_le _ w
  have hafter : (ConfirmStore.clear after externalId).heldOf w ≤
      ConfirmStore.heldOf after w := heldOf_filter_le _ w
  rw [hsplit]
  simp only [ConfirmStore.heldOf, ConfirmStore.clear, List.filter_append,
    List.filter_cons, ne_eq, not_true_eq_false, decide_false,
    Bool.false_eq_true, if_false, List.countP_append, List.countP_cons,
    beq_iff_eq] at hbefore hafter ⊢
  omega

/-- The store is unchanged where something is found, and holds no more
otherwise. -/
theorem get_cases (confirm : ConfirmStore) (now : Nat) (externalId : String) :
    (∃ held, confirm.lookup externalId = some held ∧
        confirm.get now externalId = (confirm, some held)) ∨
      confirm.get now externalId = (confirm.clear externalId, none) := by
  unfold ConfirmStore.get
  cases confirm.lookup externalId with
  | none => exact .inr rfl
  | some held =>
      dsimp only
      split
      · exact .inr rfl
      · exact .inl ⟨held, rfl, rfl⟩

theorem toldUser_reply (a : Attempt) (sent : Option (Nat × NoteReply))
    (text : String) : toldUser (a.reply confirm sent text).failed = 1 := by
  unfold Attempt.reply toldUser
  cases rawSend a.answers a.aborted <;> rfl

/-- Telling the user spends what it is told to. -/
theorem spends_reply {a : Attempt} {sent : Option (Nat × NoteReply)}
    {text : String} {update : Nat}
    (h : ∀ w, (sent.toList.countP fun n => n.1 == w) + confirm.heldOf w ≤
      stored.heldOf w + if update = w then 1 else 0) :
    (a.reply confirm sent text).Spends stored update := by
  intro w
  rw [toldUser_reply]
  exact h w

/-- A note is sent from the text of the update or from a text held. -/
theorem spends_sendNote {a : Attempt} {route : BridgeRoute}
    {source update : Nat} {body : String} {unsent sent : ConfirmStore}
    (hunsent : ∀ w, unsent.heldOf w ≤ stored.heldOf w)
    (hsent : ∀ w, (if source = w then 1 else 0) + sent.heldOf w ≤
      stored.heldOf w + if update = w then 1 else 0) :
    (a.sendNote route source body unsent sent).Spends stored update := by
  unfold Attempt.sendNote
  cases a.send with
  | error e =>
      intro w
      show 0 + unsent.heldOf w ≤ _
      have := hunsent w
      omega
  | ok =>
      refine spends_reply fun w => ?_
      simpa only [Option.toList_some, List.countP_singleton, beq_iff_eq]
        using hsent w

/-- **What a reply leads to**: it is held or sent, a held one is sent, or
nothing. -/
theorem spends_makeReplyHandler (a : Attempt) (stored : ConfirmStore)
    (update : Nat) (replyToExternalId : Option String) (text : String) :
    (makeReplyHandler a stored update replyToExternalId text).Spends stored
      update := by
  have hpurge : ∀ w, (stored.purge a.now).heldOf w ≤ stored.heldOf w :=
    heldOf_filter_le _
  have hnothing : ∀ {confirm : ConfirmStore} {t : String},
      (∀ w, confirm.heldOf w ≤ (stored.purge a.now).heldOf w) →
      (a.reply confirm none t).Spends stored update := by
    intro confirm t hle
    refine spends_reply fun w => ?_
    show 0 + confirm.heldOf w ≤ _
    have := hle w
    have := hpurge w
    omega
  unfold makeReplyHandler
  cases replyToExternalId with
  | none => exact hnothing fun _ => Nat.le_refl _
  | some externalId =>
      dsimp only
      cases a.route externalId with
      | none => exact hnothing fun _ => Nat.le_refl _
      | some route =>
          dsimp only
          cases replyTier route with
          | oneTap =>
              refine spends_sendNote hpurge fun w => ?_
              have := hpurge w
              omega
          | confirm =>
              dsimp only
              split
              · rcases get_cases (stored.purge a.now) a.now externalId with
                  ⟨held, hlookup, hget⟩ | hget
                · rw [hget]
                  refine spends_sendNote hpurge fun w => ?_
                  have := heldOf_clear_of_lookup hlookup w
                  have := hpurge w
                  omega
                · rw [hget]
                  exact hnothing fun w => heldOf_filter_le _ w
              · refine spends_reply fun w => ?_
                have := heldOf_put_le (stored.purge a.now) a.now
                  externalId text update w
                have := hpurge w
                show 0 + _ ≤ _
                omega

end Handler

/-! ## All runs -/

/-- The updates that were done end here. -/
def BridgeState.cursor (s : BridgeState) : Nat :=
  match s.batch with
  | none => s.offset
  | some (_, next) => next

/-- What one event does to the bridge. The end of a batch moves the offset to
the cursor or leaves it, and counts where it falls behind. -/
inductive BridgeMove (chat : Int) (s : BridgeState) : BridgeState → Prop
  | idle : BridgeMove chat s s
  | arrive {u : TelegramUpdate} (hu : s.issued ≤ u.updateId) :
      BridgeMove chat s
        { s with updates := s.updates ++ [u], issued := u.updateId + 1 }
  | drop (updateId : Nat) :
      BridgeMove chat s
        { s with updates := s.updates.filter fun u => u.updateId ≠ updateId }
  | getUpdates (hbatch : s.batch = none) (n : Nat) :
      BridgeMove chat s { s with batch := some (s.pending.take n, s.offset) }
  | handle {u : TelegramUpdate} {rest : List TelegramUpdate} {next : Nat}
      (hbatch : s.batch = some (u :: rest, next)) (a : Attempt) :
      BridgeMove chat s (s.handle chat a u rest next)
  | finish {offset failedWrites : Nat}
      (hoffset : offset = s.offset ∨ offset = s.cursor)
      (hpaid : s.failedWrites + (if offset < s.cursor then 1 else 0) ≤
        failedWrites) :
      BridgeMove chat s
        { s with
          offset := offset, batch := none, failedWrites := failedWrites }

theorem bridge_move (chat : Int) (s : BridgeState) (event : BridgeEvent) :
    BridgeMove chat s (s.step chat event) := by
  cases event with
  | arrive u =>
      simp only [BridgeState.step]
      split
      · rename_i hu
        exact .arrive hu
      · exact .idle
  | drop updateId => exact .drop updateId
  | getUpdates limit =>
      cases hbatch : s.batch with
      | some => simpa only [BridgeState.step, hbatch] using .idle
      | none =>
          cases limit with
          | none => simpa only [BridgeState.step, hbatch] using .idle
          | some n =>
              simp only [BridgeState.step, hbatch]
              exact .getUpdates hbatch n
  | handle a =>
      rcases hbatch : s.batch with _ | ⟨_ | ⟨u, rest⟩, next⟩
      · simpa only [BridgeState.step, hbatch] using .idle
      · simpa only [BridgeState.step, hbatch] using .idle
      · simp only [BridgeState.step, hbatch]
        exact .handle hbatch a
  | setOffset ok =>
      rcases hbatch : s.batch with _ | ⟨_ | ⟨u, rest⟩, next⟩
      · simpa only [BridgeState.step, hbatch] using .idle
      · have hcursor : s.cursor = next := by
          simp only [BridgeState.cursor, hbatch]
        simp only [BridgeState.step, hbatch]
        split
        · rename_i hlt
          cases ok
          · exact .finish (.inl rfl) (by rw [hcursor, if_pos hlt])
          · refine .finish (.inr hcursor.symm) ?_
            rw [hcursor, if_neg (Nat.lt_irrefl _)]
            rfl
        · rename_i hge
          exact .finish (.inl rfl) (by rw [hcursor, if_neg hge]; rfl)
      · simpa only [BridgeState.step, hbatch] using .idle

/-- The batch is what follows the cursor, without a gap, and what is behind
the cursor was handled. -/
structure QueueInv (s : BridgeState) : Prop where
  ascending : s.updates.Pairwise fun u v => u.updateId < v.updateId
  issued : ∀ u ∈ s.updates, u.updateId < s.issued
  offset_le : s.offset ≤ s.cursor
  cursor_le : s.cursor ≤ s.issued
  batch : ∀ rest next, s.batch = some (rest, next) →
    (rest.Pairwise fun u v => u.updateId < v.updateId) ∧
      ∀ x ∈ rest, next ≤ x.updateId ∧ x.updateId < s.issued ∧
        ∀ u ∈ s.updates, next ≤ u.updateId → u.updateId < x.updateId →
          u ∈ rest
  handled : ∀ h ∈ s.handled, h.1 < s.issued
  passed : ∀ u ∈ s.updates, u.updateId < s.cursor →
    (u.updateId, none) ∈ s.handled
  order : s.InOrder

/-- Every note of a reply but one is paid for by a failure, and that one is
still to be sent or is spent. -/
def BridgeState.Bounded (s : BridgeState) : Prop :=
  ∀ w, s.notes w + s.confirm.heldOf w + (if s.cursor ≤ w then 1 else 0) ≤
    1 + s.failedReplies w + s.failedWrites

section Queue

variable {chat : Int} {s s' : BridgeState} {u : TelegramUpdate}
  {rest : List TelegramUpdate} {next : Nat}

/-- What the next update of the batch follows was handled. -/
theorem QueueInv.before (h : QueueInv s)
    (hbatch : s.batch = some (u :: rest, next)) :
    ∀ v ∈ s.updates, v.updateId < u.updateId →
      (v.updateId, none) ∈ s.handled := by
  intro v hv hlt
  obtain ⟨hsorted, hrest⟩ := h.batch _ _ hbatch
  obtain ⟨-, -, hgap⟩ := hrest u List.mem_cons_self
  rcases Nat.lt_or_ge v.updateId next with hdone | hge
  · refine h.passed v hv ?_
    simp only [BridgeState.cursor, hbatch]
    exact hdone
  · -- It would be in the batch, and first.
    rcases List.mem_cons.mp (hgap v hv hge hlt) with rfl | hmem
    · omega
    · have := List.rel_of_pairwise_cons hsorted hmem
      omega

/-- The next update of the batch is handled, in its turn. -/
theorem inOrder_append {v : Nat} {failed : Option HandlingFailure}
    (h : s.InOrder) (hupdates : s'.updates = s.updates)
    (hhandled : s'.handled = s.handled ++ [(v, failed)])
    (hbefore : ∀ u ∈ s.updates, u.updateId < v →
      (u.updateId, none) ∈ s.handled) : s'.InOrder := by
  intro i w failed' hi x hx hlt
  rw [hhandled] at hi ⊢
  rw [hupdates] at hx
  rcases Nat.lt_or_ge i s.handled.length with hold | hnew
  · rw [List.getElem?_append_left hold] at hi
    rw [List.take_append_of_le_length hold.le]
    exact h i w failed' hi x hx hlt
  · rw [List.getElem?_append_right hnew, List.getElem?_singleton] at hi
    split at hi
    · rename_i hzero
      obtain ⟨rfl, rfl⟩ := Prod.mk.inj (Option.some.inj hi)
      have hlen : i = s.handled.length := by omega
      rw [hlen, List.take_left]
      exact hbefore x hx hlt
    · cases hi

/-- The next update of the batch is done. -/
theorem QueueInv.advance (h : QueueInv s)
    (hbatch : s.batch = some (u :: rest, next))
    (hupdates : s'.updates = s.updates) (hissued : s'.issued = s.issued)
    (hoffset : s'.offset = s.offset)
    (hbatch' : s'.batch = some (rest, u.updateId + 1))
    (hhandled : s'.handled = s.handled ++ [(u.updateId, none)]) :
    QueueInv s' := by
  have hbefore := h.before hbatch
  obtain ⟨hsorted, hrest⟩ := h.batch _ _ hbatch
  obtain ⟨hnext, hu, -⟩ := hrest u List.mem_cons_self
  have hcursor : s.cursor = next := by simp only [BridgeState.cursor, hbatch]
  have hcursor' : s'.cursor = u.updateId + 1 := by
    simp only [BridgeState.cursor, hbatch']
  refine ⟨hupdates ▸ h.ascending, ?_, ?_, ?_, ?_, ?_, ?_, ?_⟩
  · rw [hupdates, hissued]
    exact h.issued
  · have := h.offset_le
    omega
  · omega
  · intro rest' next' heq
    rw [hbatch', Option.some.injEq, Prod.mk.injEq] at heq
    obtain ⟨rfl, rfl⟩ := heq
    refine ⟨hsorted.tail, fun x hx => ?_⟩
    obtain ⟨-, hlt, hgap⟩ := hrest x (List.mem_cons_of_mem u hx)
    rw [hissued, hupdates]
    refine ⟨List.rel_of_pairwise_cons hsorted hx, hlt, ?_⟩
    intro v hv hge hvx
    rcases List.mem_cons.mp (hgap v hv (by omega) hvx) with rfl | hmem
    · omega
    · exact hmem
  · intro e he
    rw [hhandled] at he
    rw [hissued]
    rcases List.mem_append.mp he with he | he
    · exact h.handled e he
    · rw [List.mem_singleton] at he
      rw [he]
      exact hu
  · intro v hv hlt
    rw [hupdates] at hv
    rw [hhandled]
    rcases Nat.lt_or_ge v.updateId u.updateId with hless | hge
    · exact List.mem_append_left _ (hbefore v hv hless)
    · have heq : v.updateId = u.updateId := by omega
      rw [heq]
      exact List.mem_append_right _ (List.mem_singleton_self _)
  · exact inOrder_append h.order hupdates hhandled hbefore

/-- The handling of the next update of the batch threw. -/
theorem QueueInv.stop {f : HandlingFailure} (h : QueueInv s)
    (hbatch : s.batch = some (u :: rest, next))
    (hupdates : s'.updates = s.updates) (hissued : s'.issued = s.issued)
    (hoffset : s'.offset = s.offset) (hbatch' : s'.batch = some ([], next))
    (hhandled : s'.handled = s.handled ++ [(u.updateId, some f)]) :
    QueueInv s' := by
  have hbefore := h.before hbatch
  obtain ⟨-, hu, -⟩ := (h.batch _ _ hbatch).2 u List.mem_cons_self
  have hcursor : s'.cursor = s.cursor := by
    simp only [BridgeState.cursor, hbatch, hbatch']
  refine ⟨hupdates ▸ h.ascending, ?_, ?_, ?_, ?_, ?_, ?_, ?_⟩
  · rw [hupdates, hissued]
    exact h.issued
  · rw [hoffset, hcursor]
    exact h.offset_le
  · rw [hissued, hcursor]
    exact h.cursor_le
  · intro rest' next' heq
    rw [hbatch', Option.some.injEq, Prod.mk.injEq] at heq
    obtain ⟨rfl, rfl⟩ := heq
    exact ⟨List.Pairwise.nil, fun _ hx => absurd hx List.not_mem_nil⟩
  · intro e he
    rw [hhandled] at he
    rw [hissued]
    rcases List.mem_append.mp he with he | he
    · exact h.handled e he
    · rw [List.mem_singleton] at he
      rw [he]
      exact hu
  · intro v hv hlt
    rw [hupdates] at hv
    rw [hcursor] at hlt
    rw [hhandled]
    exact List.mem_append_left _ (h.passed v hv hlt)
  · exact inOrder_append h.order hupdates hhandled hbefore

/-- What is taken of the batch is ignored, or handled. -/
theorem handle_spec (chat : Int) (s : BridgeState) (a : Attempt)
    (u : TelegramUpdate) (rest : List TelegramUpdate) (next : Nat) :
    ∃ h : Handling, h.Spends s.confirm u.updateId ∧
      s.handle chat a u rest next =
        { s with
          batch :=
            if h.failed.isNone then some (rest, u.updateId + 1)
            else some ([], next)
          confirm := h.confirm
          sent := s.sent ++ h.sent.toList
          handled := s.handled ++ [(u.updateId, h.failed)] } := by
  unfold BridgeState.handle
  cases u.reply? chat with
  | none =>
      refine ⟨⟨s.confirm, none, none, none⟩, fun w => ?_, by simp⟩
      show 0 + s.confirm.heldOf w ≤ _
      omega
  | some r =>
      exact ⟨_, spends_makeReplyHandler a s.confirm u.updateId r.1 r.2, rfl⟩

theorem QueueInv.handle (h : QueueInv s)
    (hbatch : s.batch = some (u :: rest, next)) (a : Attempt) :
    QueueInv (s.handle chat a u rest next) := by
  obtain ⟨handling, -, heq⟩ := handle_spec chat s a u rest next
  rw [heq]
  cases hfailed : handling.failed with
  | none => exact h.advance hbatch rfl rfl rfl rfl rfl
  | some f => exact h.stop hbatch rfl rfl rfl rfl rfl

/-- An update arrives after all others. -/
theorem QueueInv.arrive (h : QueueInv s) (hu : s.issued ≤ u.updateId) :
    QueueInv { s with
      updates := s.updates ++ [u], issued := u.updateId + 1 } := by
  have hlt : ∀ n, n < s.issued → n < u.updateId + 1 := fun _ hn => by omega
  refine ⟨?_, ?_, h.offset_le, ?_, ?_, ?_, ?_, ?_⟩
  · rw [List.pairwise_append]
    refine ⟨h.ascending, List.pairwise_singleton _ _, ?_⟩
    intro v hv w hw
    rw [List.mem_singleton.mp hw]
    have := h.issued v hv
    omega
  · intro v hv
    rcases List.mem_append.mp hv with hv | hv
    · exact hlt _ (h.issued v hv)
    · rw [List.mem_singleton.mp hv]
      exact Nat.lt_succ_self _
  · exact h.cursor_le.trans (hu.trans (Nat.le_succ _))
  · intro rest next hbatch
    obtain ⟨hsorted, hrest⟩ := h.batch rest next hbatch
    refine ⟨hsorted, fun x hx => ?_⟩
    obtain ⟨hnext, hx', hgap⟩ := hrest x hx
    refine ⟨hnext, hlt _ hx', fun v hv hge hvx => ?_⟩
    rcases List.mem_append.mp hv with hv | hv
    · exact hgap v hv hge hvx
    · rw [List.mem_singleton.mp hv] at hvx
      omega
  · intro e he
    exact hlt _ (h.handled e he)
  · intro v hv hvc
    rcases List.mem_append.mp hv with hv | hv
    · exact h.passed v hv hvc
    · rw [List.mem_singleton.mp hv] at hvc
      have hcursor : u.updateId < s.cursor := hvc
      have := h.cursor_le
      omega
  · intro i w failed hi v hv hvw
    rcases List.mem_append.mp hv with hv | hv
    · exact h.order i w failed hi v hv hvw
    · have hw : w < s.issued := h.handled _ (List.mem_of_getElem? hi)
      rw [List.mem_singleton.mp hv] at hvw
      omega

/-- Telegram drops updates. -/
theorem QueueInv.drop (h : QueueInv s) (p : TelegramUpdate → Bool) :
    QueueInv { s with updates := s.updates.filter p } := by
  have hkept : ∀ v ∈ s.updates.filter p, v ∈ s.updates :=
    fun _ hv => List.mem_of_mem_filter hv
  refine ⟨h.ascending.filter p, fun v hv => h.issued v (hkept v hv),
    h.offset_le, h.cursor_le, ?_, h.handled, ?_, ?_⟩
  · intro rest next hbatch
    obtain ⟨hsorted, hrest⟩ := h.batch rest next hbatch
    refine ⟨hsorted, fun x hx => ?_⟩
    obtain ⟨hnext, hx', hgap⟩ := hrest x hx
    exact ⟨hnext, hx', fun v hv => hgap v (hkept v hv)⟩
  · intro v hv
    exact h.passed v (hkept v hv)
  · intro i w failed hi v hv
    exact h.order i w failed hi v (hkept v hv)

/-- A batch begins with what the offset is not past. -/
theorem QueueInv.getUpdates (h : QueueInv s) (hidle : s.batch = none)
    (limit : Nat) :
    QueueInv { s with batch := some (s.pending.take limit, s.offset) } := by
  have hcursor : s.cursor = s.offset := by
    simp only [BridgeState.cursor, hidle]
  have hsorted : s.pending.Pairwise fun u v => u.updateId < v.updateId :=
    h.ascending.filter _
  refine ⟨h.ascending, h.issued, Nat.le_refl _, ?_, ?_, h.handled, ?_,
    h.order⟩
  · exact hcursor ▸ h.cursor_le
  · intro rest next heq
    obtain ⟨rfl, rfl⟩ := Prod.mk.inj (Option.some.inj heq)
    refine ⟨hsorted.sublist (List.take_sublist _ _), fun x hx => ?_⟩
    have hpending := List.mem_filter.mp (List.mem_of_mem_take hx)
    refine ⟨of_decide_eq_true hpending.2, h.issued x hpending.1, ?_⟩
    intro v hv hge hvx
    have hmem : v ∈ s.pending :=
      List.mem_filter.mpr ⟨hv, decide_eq_true hge⟩
    -- Only what comes after `x` is cut off.
    rw [← List.take_append_drop limit s.pending] at hmem hsorted
    rcases List.mem_append.mp hmem with htake | hdrop
    · exact htake
    · have := (List.pairwise_append.mp hsorted).2.2 x hx v hdrop
      omega
  · exact hcursor ▸ h.passed

/-- The batch is over. -/
theorem QueueInv.finish (h : QueueInv s) {offset : Nat} (failedWrites : Nat)
    (hoffset : offset ≤ s.cursor) :
    QueueInv { s with
      offset := offset, batch := none, failedWrites := failedWrites } := by
  refine ⟨h.ascending, h.issued, Nat.le_refl _, hoffset.trans h.cursor_le,
    ?_, h.handled, ?_, h.order⟩
  · intro _ _ heq
    cases heq
  · intro v hv hlt
    exact h.passed v hv (Nat.lt_of_lt_of_le hlt hoffset)

theorem QueueInv.step (h : QueueInv s) (event : BridgeEvent) :
    QueueInv (s.step chat event) := by
  have hmove := bridge_move chat s event
  generalize s.step chat event = s' at hmove ⊢
  cases hmove with
  | idle => exact h
  | arrive hu => exact h.arrive hu
  | drop => exact h.drop _
  | getUpdates hbatch n => exact h.getUpdates hbatch n
  | handle hbatch a => exact h.handle hbatch a
  | finish hoffset =>
      refine h.finish _ ?_
      rcases hoffset with rfl | rfl
      · exact h.offset_le
      · exact Nat.le_refl _

/-- Nothing counted changes but by what a handling adds. -/
theorem BridgeState.Bounded.of_le (h : s.Bounded)
    (hle : ∀ w, s'.notes w + s'.confirm.heldOf w +
        (if s'.cursor ≤ w then 1 else 0) + s.failedReplies w +
          s.failedWrites ≤
      s.notes w + s.confirm.heldOf w + (if s.cursor ≤ w then 1 else 0) +
        s'.failedReplies w + s'.failedWrites) : s'.Bounded := by
  intro w
  have hw := h w
  have := hle w
  omega

theorem notes_append {sent : List (Nat × NoteReply)}
    (h : s'.sent = s.sent ++ sent) (w : Nat) :
    s'.notes w = s.notes w + sent.countP fun n => n.1 == w := by
  simp only [BridgeState.notes, h, List.countP_append]

/-- Only a handling whose acknowledgement failed counts. -/
theorem failedReplies_append {v : Nat} {failed : Option HandlingFailure}
    (h : s'.handled = s.handled ++ [(v, failed)]) (w : Nat) :
    s'.failedReplies w = s.failedReplies w +
      if v = w ∧ failed.any HandlingFailure.isReply then 1 else 0 := by
  simp only [BridgeState.failedReplies, h, List.countP_append,
    List.countP_singleton, Bool.and_eq_true, beq_iff_eq]

/-- The next update of the batch is taken. -/
theorem BridgeState.Bounded.handle (h : s.Bounded) (hq : QueueInv s)
    (hbatch : s.batch = some (u :: rest, next)) (a : Attempt) :
    (s.handle chat a u rest next).Bounded := by
  obtain ⟨hnext, -⟩ := (hq.batch _ _ hbatch).2 u List.mem_cons_self
  have hcursor : s.cursor = next := by simp only [BridgeState.cursor, hbatch]
  obtain ⟨handling, hspends, heq⟩ := handle_spec chat s a u rest next
  refine h.of_le fun w => ?_
  have hw := hspends w
  simp only [Handling.notesOf, toldUser] at hw
  rw [notes_append (congrArg BridgeState.sent heq),
    failedReplies_append (congrArg BridgeState.handled heq), hcursor, heq]
  cases hfailed : handling.failed with
  | none =>
      simp only [hfailed, Option.all_none, if_true] at hw
      simp only [BridgeState.cursor, Option.isNone_none, if_true,
        Option.any_none, Bool.false_eq_true, and_false, if_false]
      by_cases hu : u.updateId = w
      · rw [if_pos hu] at hw
        rw [if_neg (by omega), if_pos (by omega)]
        omega
      · rw [if_neg hu] at hw
        split <;> split <;> omega
  | some f =>
      simp only [hfailed, Option.all_some] at hw
      simp only [BridgeState.cursor, Option.isNone_some,
        Bool.false_eq_true, if_false, Option.any_some]
      by_cases hu : u.updateId = w
      · simp only [hu, if_true, true_and] at hw ⊢
        omega
      · simp only [hu, if_false, false_and] at hw ⊢
        omega

/-- The batch is over, and where the offset was not moved, that counts. -/
theorem BridgeState.Bounded.finish (h : s.Bounded) {offset : Nat}
    {failedWrites : Nat}
    (hpaid : s.failedWrites + (if offset < s.cursor then 1 else 0) ≤
      failedWrites) :
    BridgeState.Bounded { s with
      offset := offset, batch := none, failedWrites := failedWrites } := by
  refine h.of_le fun w => ?_
  show s.notes w + s.confirm.heldOf w + (if offset ≤ w then 1 else 0) +
      s.failedReplies w + s.failedWrites ≤
    s.notes w + s.confirm.heldOf w + (if s.cursor ≤ w then 1 else 0) +
      s.failedReplies w + failedWrites
  split at hpaid <;> split <;> split <;> omega

theorem BridgeState.Bounded.step (h : s.Bounded) (hq : QueueInv s)
    (event : BridgeEvent) : (s.step chat event).Bounded := by
  have hmove := bridge_move chat s event
  generalize s.step chat event = s' at hmove ⊢
  cases hmove with
  | idle | arrive | drop => exact h
  | getUpdates hbatch n =>
      have hcursor : s.cursor = s.offset := by
        simp only [BridgeState.cursor, hbatch]
      intro w
      have hw := h w
      rw [hcursor] at hw
      exact hw
  | handle hbatch a => exact h.handle hq hbatch a
  | finish _ hpaid => exact h.finish hpaid

end Queue

/-- **A reply is sent once, but for failures**: over all updates and all
failures a reply is sent as one note and at most one more for each failed
acknowledgement of it and each failed write of the offset; the offset is never
past an update that was not handled; and an update is handled only after those
before it. -/
theorem chat_reply_bound (chat : Int) (events : List BridgeEvent) :
    let s := Trace.run (BridgeState.step chat) .start events
    (∀ updateId, s.notes updateId ≤
      1 + s.failedReplies updateId + s.failedWrites) ∧
    s.NothingSkipped ∧ s.InOrder := by
  intro s
  have hstart : QueueInv .start ∧ BridgeState.start.Bounded := by
    refine ⟨⟨List.Pairwise.nil, ?_, Nat.le_refl _, Nat.le_refl _, ?_, ?_, ?_,
      ?_⟩, ?_⟩
    · exact fun _ hu => absurd hu List.not_mem_nil
    · exact fun _ _ heq => by cases heq
    · exact fun _ hh => absurd hh List.not_mem_nil
    · exact fun _ hu => absurd hu List.not_mem_nil
    · intro i v failed hi
      simp [BridgeState.start] at hi
    · intro w
      simp [BridgeState.start, BridgeState.notes, ConfirmStore.heldOf,
        BridgeState.cursor, BridgeState.failedReplies]
  have hinv : QueueInv s ∧ s.Bounded :=
    Trace.run_inv (fun s => QueueInv s ∧ s.Bounded)
      (fun _ event h => ⟨h.1.step event, h.2.step h.1 event⟩) hstart events
  obtain ⟨hq, hb⟩ := hinv
  refine ⟨fun updateId => ?_, fun u hu hlt => ?_, hq.order⟩
  · have := hb updateId
    omega
  · exact hq.passed u hu (Nat.lt_of_lt_of_le hlt hq.offset_le)

/-! ## Sent twice, and never -/

/-- The reply with this identifier, to a forwarded message. -/
def sampleReply (updateId : Nat) : TelegramUpdate :=
  { updateId := updateId
    message := some
      { messageId := 40 + updateId
        chat := some 555
        text := some "on my way"
        replyTo := some 30 } }

/-- A verified peer is answered. -/
def sampleAttempt (send : Except String Unit)
    (told : Except String SendAnswer) : Attempt :=
  { now := 1767225600000
    route := fun _ => some
      { peerDid := "did:wba:x:agents:AIR-ALICE"
        contact := some "alice"
        threadId := some "t1"
        envelopeId := some "e1"
        verified := true }
    send := send
    answers := fun _ => told
    aborted := false }

/-- The user was told. -/
def sampleTold : Except String SendAnswer :=
  .ok { status := 200, ok := true, description := none, messageId := 60 }

/-- The reply is sent and telling the user fails; then it is polled again. -/
def sampleRepeat : List BridgeEvent :=
  [.arrive (sampleReply 7), .getUpdates (some 100),
    .handle (sampleAttempt (.ok ()) (.error "fetch failed")),
    .setOffset true, .getUpdates (some 100),
    .handle (sampleAttempt (.ok ()) sampleTold), .setOffset true]

/-- One poll, where the first reply cannot be sent. -/
def sampleRound : List BridgeEvent :=
  [.getUpdates (some 100),
    .handle (sampleAttempt (.error "recipient not found") sampleTold),
    .handle (sampleAttempt (.ok ()) sampleTold), .setOffset true]

/-- Two replies and so many polls. -/
def sampleBlocked (polls : Nat) : BridgeState :=
  Trace.run (BridgeState.step 555) .start
    ([.arrive (sampleReply 7), .arrive (sampleReply 8)] ++
      (List.replicate polls sampleRound).flatten)

/-- The first reply was handled so many times, the second never. -/
def blockedState (polls : Nat) : BridgeState :=
  { updates := [sampleReply 7, sampleReply 8]
    issued := 9
    offset := 0
    batch := none
    confirm := []
    sent := []
    handled := List.replicate polls (7, some (.send "recipient not found"))
    failedWrites := 0 }

/-- One poll handles the first reply once more. -/
theorem run_sampleRound (polls : Nat) :
    Trace.run (BridgeState.step 555) (blockedState polls) sampleRound =
      blockedState (polls + 1) := by
  have hhandled : List.replicate (polls + 1)
      (7, some (HandlingFailure.send "recipient not found")) =
      List.replicate polls
        (7, some (HandlingFailure.send "recipient not found")) ++
      [(7, some (HandlingFailure.send "recipient not found"))] :=
    List.replicate_succ'
  rw [blockedState, blockedState, hhandled]
  rfl

theorem sampleBlocked_eq (polls : Nat) :
    sampleBlocked polls = blockedState polls := by
  have hrounds : ∀ (n k : Nat), Trace.run (BridgeState.step 555)
      (blockedState k) (List.replicate n sampleRound).flatten =
        blockedState (k + n) := by
    intro n
    induction n with
    | zero => exact fun _ => rfl
    | succ n ih =>
        intro k
        rw [List.replicate_succ, List.flatten_cons, Trace.run_append,
          run_sampleRound, ih, Nat.add_right_comm, Nat.add_assoc]
  rw [sampleBlocked, Trace.run_append]
  have hstart : Trace.run (BridgeState.step 555) .start
      [.arrive (sampleReply 7), .arrive (sampleReply 8)] = blockedState 0 :=
    rfl
  rw [hstart, hrounds, Nat.zero_add]

/-- **A reply sent twice, and one never reached**: the reply is sent, the
acknowledgement fails and the reply is sent again; and a reply that cannot be
sent is in the way of the next however often both are polled. -/
theorem chat_reply_repeated :
    (¬ ∀ (chat : Int) (events : List BridgeEvent) (updateId : Nat),
      (Trace.run (BridgeState.step chat) .start events).notes updateId ≤ 1) ∧
    ∀ polls, sampleReply 8 ∈ (sampleBlocked polls).pending ∧
      ∀ h ∈ (sampleBlocked polls).handled, h.1 = 7 ∧ h.2.isSome := by
  constructor
  · intro hclaim
    have hone := hclaim 555 sampleRepeat 7
    exact absurd hone (by decide +kernel)
  · intro polls
    rw [sampleBlocked_eq]
    constructor
    · simp [BridgeState.pending, blockedState]
    · intro h hh
      rw [(List.mem_replicate.mp hh).2]
      exact ⟨rfl, rfl⟩

end AirNote
