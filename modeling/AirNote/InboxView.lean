import Mathlib.Data.List.Dedup
import Mathlib.Data.List.Perm.Basic
import Mathlib.Logic.Function.Basic
import AirNote.Lib.Firsts
import AirNote.Lib.Keyed
import AirNote.Lib.Trace
import AirNote.Lib.Utf16

/-!
# The inbox view

The provider of the desktop's inbox merges four streams by envelope id: the
rows of the open conversation, the recent rows, the live messages and what was
just sent. Of what comes under one id the first is shown. A sent message gets
its place when the call that sends it returns, under the correlation id the
call answers; the acknowledgement comes as an event of its own, and one for an
id that has no place yet is dropped.

The handlers see the state as it was last rendered: a message counts as unread
by the conversation that was open then, and opening a conversation clears the
ids that were listed then. A rendering is therefore an event of its own.

What a list entry carries for its display alone (direction, addresses, flags)
is left out, and `bodyText`, which renders a body, is a parameter.

## Main results

* `totalUnread_eq` — the sum over the sidebar counts unread ids.
* `Inv.step` — what one event keeps.
* `inbox_shown` — which runs show what was sent and received.
-/

namespace AirNote.InboxView

open Lib

/-! ## The entries -/

inductive Status where
  | pending
  | ok
  | err
  deriving DecidableEq

inductive ConvKind where
  | room
  | peer
  deriving DecidableEq

variable {β : Type}

structure ThreadItem (β : Type) where
  envelopeId : String
  peerDid : String
  roomId : Option String
  timestamp : String
  body : β
  status : Status
  retryable : Option Bool
  reason : Option String
  correlationId : Option String

structure ArchiveRow (β : Type) where
  envelopeId : String
  peerDid : String
  roomId : Option String
  timestamp : String
  body : β

structure InboxMessage (β : Type) where
  envelopeId : String
  fromDid : String
  roomId : Option String
  receivedAt : String
  body : β

def convKey (x : ThreadItem β) : String := x.roomId.getD x.peerDid

def fromArchiveRow (r : ArchiveRow β) : ThreadItem β where
  envelopeId := r.envelopeId
  peerDid := r.peerDid
  roomId := r.roomId
  timestamp := r.timestamp
  body := r.body
  status := .ok
  retryable := none
  reason := none
  correlationId := none

/-- Live messages are always received; the peer is the sender. -/
def fromLiveMessage (m : InboxMessage β) : ThreadItem β where
  envelopeId := m.envelopeId
  peerDid := m.fromDid
  roomId := m.roomId
  timestamp := m.receivedAt
  body := m.body
  status := .ok
  retryable := none
  reason := none
  correlationId := none

/-- The id a sent message is listed under until it is acknowledged. -/
def pendingId (correlationId : String) : String := "pending:" ++ correlationId

def makeOptimistic (correlationId toDid : String) (body : β)
    (timestamp : String) : ThreadItem β where
  envelopeId := pendingId correlationId
  peerDid := toDid
  roomId := none
  timestamp := timestamp
  body := body
  status := .pending
  retryable := none
  reason := none
  correlationId := some correlationId

/-! ## Conversations -/

structure Conversation where
  convKey : String
  kind : ConvKind
  lastTimestamp : String
  lastText : String
  unread : Nat

structure ConversationSummary where
  convKey : String
  kind : ConvKind
  lastTimestamp : String
  deriving DecidableEq

/-- Strings compare by their UTF-16 units. -/
def before (a b : String) : Bool :=
  decide (Utf16.encode a.toList < Utf16.encode b.toList)

def dedupeById (items : List (ThreadItem β)) : List (ThreadItem β) :=
  Firsts.firsts ThreadItem.envelopeId items

/-- What an entry adds to the unread of its conversation. -/
def unreadMark (unreadIds : List String) (it : ThreadItem β) : Nat :=
  if it.envelopeId ∈ unreadIds then 1 else 0

def kindOf (it : ThreadItem β) : ConvKind :=
  if it.roomId.getD "" ≠ "" then .room else .peer

/-- A conversation that has one entry more. -/
def joined (bodyText : β → String) (unreadIds : List String)
    (it : ThreadItem β) (prev : Conversation) : Conversation :=
  let isNewer := before prev.lastTimestamp it.timestamp
  { convKey := prev.convKey
    kind := kindOf it
    lastTimestamp := if isNewer then it.timestamp else prev.lastTimestamp
    lastText := if isNewer then bodyText it.body else prev.lastText
    unread := prev.unread + unreadMark unreadIds it }

/-- One entry more in the map of the conversations. -/
def addToGroup (bodyText : β → String) (unreadIds : List String)
    (convs : List Conversation) (it : ThreadItem β) : List Conversation :=
  match convs.find? fun c => decide (c.convKey = convKey it) with
  | none => convs ++ [⟨convKey it, kindOf it, it.timestamp, bodyText it.body,
      unreadMark unreadIds it⟩]
  | some _ =>
      Keyed.update Conversation.convKey (convKey it)
        (joined bodyText unreadIds it) convs

def groupConversations (bodyText : β → String) (items : List (ThreadItem β))
    (unreadIds : List String) : List Conversation :=
  (items.foldl (addToGroup bodyText unreadIds) []).mergeSort
    fun a b => !before a.lastTimestamp b.lastTimestamp

def mergeSidebar (summaries : List ConversationSummary)
    (grouped : List Conversation) : List Conversation :=
  let listed := summaries.map fun s =>
    (grouped.find? fun g => decide (g.convKey = s.convKey)).getD
      ⟨s.convKey, s.kind, s.lastTimestamp, "", 0⟩
  let unlisted := grouped.filter fun g =>
    decide (g.convKey ∉ summaries.map ConversationSummary.convKey)
  (listed ++ unlisted).mergeSort fun a b =>
    if a.lastTimestamp = b.lastTimestamp then before a.convKey b.convKey
    else !before a.lastTimestamp b.lastTimestamp

def addUnread (set : List String) (envelopeId : String) : List String :=
  if envelopeId ∈ set then set else set ++ [envelopeId]

def clearConv (set : List String) (loaded : List (ThreadItem β))
    (key : String) : List String :=
  set.filter fun id => !loaded.any fun it =>
    decide (it.envelopeId = id ∧ convKey it = key)

/-! ## Sends -/

inductive SendEntry where
  | pending
  | ok (envelopeId : String)
  | err (retryable : Bool) (reason : String)
  deriving DecidableEq

/-- An acknowledgement, as it comes. -/
inductive Ack where
  | ok (envelopeId : String)
  | err (retryable : Bool) (reason : String)
  deriving DecidableEq

def Ack.entry : Ack → SendEntry
  | ok envelopeId => .ok envelopeId
  | err retryable reason => .err retryable reason

abbrev SendState := String → Option SendEntry

def onSendStart (s : SendState) (id : String) : SendState :=
  Function.update s id (some .pending)

def onSendOk (s : SendState) (id envelopeId : String) : SendState :=
  if (s id).isNone then s else Function.update s id (some (.ok envelopeId))

def onSendErr (s : SendState) (id : String) (retryable : Bool)
    (reason : String) : SendState :=
  if (s id).isNone then s
  else Function.update s id (some (.err retryable reason))

/-- An entry of what was just sent, with what became of it. -/
def resolve (st : SendState) (o : ThreadItem β) : ThreadItem β :=
  match o.correlationId.bind st with
  | some (.ok envelopeId) => { o with status := .ok, envelopeId := envelopeId }
  | some (.err retryable reason) =>
      { o with
        status := .err, retryable := some retryable, reason := some reason }
  | _ => o

/-! ## The provider -/

/-- The state of the provider. `shownSelected` and `shownAll` are the open
conversation and the merged list as last rendered. The last three fields are a
record of what happened: the ids the calls that send have returned, the last
acknowledgement that came for an id, and the envelopes that arrived outside
the open conversation with their conversation, until it is opened. -/
structure Inbox (β : Type) where
  summaries : List ConversationSummary
  recent : List (ThreadItem β)
  threadRows : List (ThreadItem β)
  live : List (ThreadItem β)
  optimistic : List (ThreadItem β)
  sendState : SendState
  selected : Option String
  unread : List String
  shownSelected : Option String
  shownAll : List (ThreadItem β)
  returned : List String
  acks : String → Option Ack
  arrived : List (String × String)

namespace Inbox

/-- The provider when it is mounted. -/
def initial : Inbox β where
  summaries := []
  recent := []
  threadRows := []
  live := []
  optimistic := []
  sendState := fun _ => none
  selected := none
  unread := []
  shownSelected := none
  shownAll := []
  returned := []
  acks := fun _ => none
  arrived := []

variable (s : Inbox β)

/-- What is archived or has come in: none of it waits for anything. -/
def confirmed : List (ThreadItem β) := s.threadRows ++ s.recent ++ s.live

/-- `resolvedOptimistic`. -/
def resolvedOptimistic : List (ThreadItem β) :=
  s.optimistic.map (resolve s.sendState)

/-- The merged list. -/
def all : List (ThreadItem β) :=
  dedupeById (s.confirmed ++ s.resolvedOptimistic)

def totalUnread (bodyText : β → String) : Nat :=
  ((mergeSidebar s.summaries (groupConversations bodyText s.all s.unread)).map
    Conversation.unread).sum

end Inbox

/-- The archive lists a conversation once: it groups by the key. -/
structure Summaries where
  list : List ConversationSummary
  nodup : (list.map ConversationSummary.convKey).Nodup

/-- What the provider handles. A load carries what it brings, the return of a
send the correlation id. -/
inductive InboxEvent (β : Type) where
  | summariesLoaded (summaries : Summaries)
  | recentLoaded (rows : List (ArchiveRow β))
  | threadLoaded (rows : List (ArchiveRow β))
  | message (m : InboxMessage β)
  | sendReturned (id toDid : String) (body : β) (now : String)
  | sendOk (id envelopeId : String)
  | sendErr (id : String) (retryable : Bool) (reason : String)
  | select (key : String)
  | render

def step (s : Inbox β) : InboxEvent β → Inbox β
  | .summariesLoaded summaries => { s with summaries := summaries.list }
  | .recentLoaded rows => { s with recent := rows.map fromArchiveRow }
  | .threadLoaded rows => { s with threadRows := rows.map fromArchiveRow }
  | .message m =>
      let it := fromLiveMessage m
      { s with
        live := s.live ++ [it]
        unread :=
          if some (convKey it) ≠ s.shownSelected then
            addUnread s.unread it.envelopeId
          else s.unread
        arrived :=
          if some (convKey it) ≠ s.selected then
            s.arrived ++ [(it.envelopeId, convKey it)]
          else s.arrived }
  | .sendReturned id toDid body now =>
      { s with
        sendState := onSendStart s.sendState id
        optimistic := s.optimistic ++ [makeOptimistic id toDid body now]
        returned := s.returned ++ [id] }
  | .sendOk id envelopeId =>
      { s with
        sendState := onSendOk s.sendState id envelopeId
        acks := Function.update s.acks id (some (.ok envelopeId)) }
  | .sendErr id retryable reason =>
      { s with
        sendState := onSendErr s.sendState id retryable reason
        acks := Function.update s.acks id (some (.err retryable reason)) }
  | .select key =>
      { s with
        selected := some key
        unread := clearConv s.unread s.shownAll key
        arrived := s.arrived.filter fun a => decide (a.2 ≠ key) }
  | .render =>
      { s with shownSelected := s.selected, shownAll := s.all }

/-! ## What is to hold -/

/-- Neither lost nor doubled: an id is listed once, and every id of a stream
is listed; an acknowledged message is listed as sent or as failed, and none
that is acknowledged as pending; the unread are the envelopes that arrived
outside the open conversation and were not opened since. -/
structure Shown (bodyText : β → String) (s : Inbox β) : Prop where
  once : (s.all.map ThreadItem.envelopeId).Nodup
  kept : ∀ it ∈ s.confirmed ++ s.resolvedOptimistic,
    ∃ shown ∈ s.all, shown.envelopeId = it.envelopeId
  sent : ∀ id ∈ s.returned, ∀ envelopeId, s.acks id = some (.ok envelopeId) →
    ∃ it ∈ s.all, it.envelopeId = envelopeId ∧ it.status = .ok
  failed : ∀ id ∈ s.returned, ∀ retryable reason,
    s.acks id = some (.err retryable reason) →
      ∃ it ∈ s.all, it.correlationId = some id ∧ it.status = .err ∧
        it.retryable = some retryable ∧ it.reason = some reason
  notStuck : ∀ it ∈ s.all, it.status = .pending →
    ∀ id, it.correlationId = some id → s.acks id = none
  unread : s.totalUnread bodyText = (s.arrived.map Prod.fst).dedup.length

/-- No message that was sent waits under this envelope id. -/
def Plain (s : Inbox β) (envelopeId : String) : Prop :=
  ∀ id ∈ s.returned, envelopeId ≠ pendingId id

/-- A send returns before its acknowledgement is handled, and no envelope has
the id it is listed under until then; a message comes in, and a conversation
is opened, when the last rendering shows what matters for it: whether its
conversation is open, and which of the unread envelopes belong to it. -/
def Timely (s : Inbox β) : InboxEvent β → Prop
  | .recentLoaded rows | .threadLoaded rows =>
      ∀ row ∈ rows, Plain s row.envelopeId
  | .message m => Plain s m.envelopeId ∧
      ((some (convKey (fromLiveMessage m)) ≠ s.shownSelected ↔
        some (convKey (fromLiveMessage m)) ≠ s.selected) ∨
          m.envelopeId ∈ s.unread)
  | .sendReturned id _ _ _ => s.acks id = none ∧
      (∀ it ∈ s.confirmed, it.envelopeId ≠ pendingId id) ∧
        ∀ id' ∈ s.returned, s.acks id' ≠ some (.ok (pendingId id))
  | .sendOk id envelopeId => id ∈ s.returned → Plain s envelopeId
  | .select key => ∀ envelopeId ∈ s.unread,
      (∃ it ∈ s.shownAll, it.envelopeId = envelopeId ∧ convKey it = key) ↔
        ∀ k, (envelopeId, k) ∈ s.arrived → k = key
  | _ => True


/-! ## The unread count -/

/-- One entry more adds its mark to the unread of the conversations, and none
comes twice. -/
theorem addToGroup_keys (bodyText : β → String) (unreadIds : List String)
    {convs : List Conversation} (it : ThreadItem β)
    (hkeys : (convs.map Conversation.convKey).Nodup) :
    ((addToGroup bodyText unreadIds convs it).map
        Conversation.convKey).Nodup ∧
      ((addToGroup bodyText unreadIds convs it).map
          Conversation.unread).sum =
        (convs.map Conversation.unread).sum + unreadMark unreadIds it := by
  rw [addToGroup]
  cases hfind : convs.find? fun c => decide (c.convKey = convKey it) with
  | none =>
      have hnew : convKey it ∉ convs.map Conversation.convKey := by
        intro hmem
        obtain ⟨c, hc, hkey⟩ := List.mem_map.mp hmem
        exact List.find?_eq_none.mp hfind c hc (decide_eq_true hkey)
      constructor
      · rw [List.map_append]
        exact hkeys.append (List.nodup_singleton _) (by simpa using hnew)
      · simp
  | some prev =>
      have hmem := List.mem_of_find?_eq_some hfind
      have hkey : prev.convKey = convKey it := by
        simpa using List.find?_some hfind
      constructor
      · show ((Keyed.update Conversation.convKey (convKey it)
          (joined bodyText unreadIds it) convs).map _).Nodup
        rw [Keyed.map_key_update (f := joined bodyText unreadIds it)
          fun _ => rfl]
        exact hkeys
      · have hsum := Keyed.sum_update Conversation.unread hkeys hmem
          (joined bodyText unreadIds it)
        have hjoined : (joined bodyText unreadIds it prev).unread =
            prev.unread + unreadMark unreadIds it := rfl
        rw [hkey] at hsum
        dsimp only at hsum ⊢
        omega

/-- The conversations' unread are the marks of the entries. -/
theorem groupConversations_keys (bodyText : β → String)
    (items : List (ThreadItem β)) (unreadIds : List String) :
    ((groupConversations bodyText items unreadIds).map
        Conversation.convKey).Nodup ∧
      ((groupConversations bodyText items unreadIds).map
          Conversation.unread).sum =
        (items.map (unreadMark unreadIds)).sum := by
  have hfold : ∀ (items : List (ThreadItem β)) (convs : List Conversation),
      (convs.map Conversation.convKey).Nodup →
        ((items.foldl (addToGroup bodyText unreadIds) convs).map
            Conversation.convKey).Nodup ∧
          ((items.foldl (addToGroup bodyText unreadIds) convs).map
              Conversation.unread).sum =
            (convs.map Conversation.unread).sum +
              (items.map (unreadMark unreadIds)).sum := by
    intro items
    induction items with
    | nil => exact fun convs hkeys => ⟨hkeys, rfl⟩
    | cons it items ih =>
        intro convs hkeys
        obtain ⟨hkeys', hsum⟩ := addToGroup_keys bodyText unreadIds it hkeys
        obtain ⟨hkeys'', hsum'⟩ := ih _ hkeys'
        refine ⟨hkeys'', ?_⟩
        rw [List.foldl_cons, hsum', hsum, List.map_cons, List.sum_cons]
        omega
  obtain ⟨hkeys, hsum⟩ := hfold items [] List.nodup_nil
  have hperm := List.mergeSort_perm
    (items.foldl (addToGroup bodyText unreadIds) [])
    fun a b => !before a.lastTimestamp b.lastTimestamp
  constructor
  · exact ((hperm.map Conversation.convKey).nodup_iff).mpr hkeys
  · rw [groupConversations, (hperm.map Conversation.unread).sum_nat, hsum]
    simp

/-- The unread of the conversation with a key. -/
def unreadUnder (grouped : List Conversation) (key : String) : Nat :=
  ((grouped.find? fun g => decide (g.convKey = key)).map
    Conversation.unread).getD 0

theorem unreadUnder_cons (g : Conversation) (grouped : List Conversation)
    (key : String) :
    unreadUnder (g :: grouped) key =
      if g.convKey = key then g.unread else unreadUnder grouped key := by
  rw [unreadUnder, List.find?_cons]
  by_cases h : g.convKey = key
  · simp [h]
  · simp [h, unreadUnder]

theorem unreadUnder_eq_zero {grouped : List Conversation} {key : String}
    (h : key ∉ grouped.map Conversation.convKey) :
    unreadUnder grouped key = 0 := by
  induction grouped with
  | nil => rfl
  | cons g grouped ih =>
      rw [List.map_cons, List.mem_cons, not_or] at h
      rw [unreadUnder_cons, if_neg (Ne.symm h.1), ih h.2]

/-- One conversation set apart from those it is among. -/
theorem sum_filter_split {grouped : List Conversation}
    (hgrouped : (grouped.map Conversation.convKey).Nodup) (p : String → Bool)
    (key : String) (hp : p key = true) :
    ((grouped.filter fun g => p g.convKey).map Conversation.unread).sum =
      unreadUnder grouped key +
        ((grouped.filter fun g =>
          p g.convKey && decide (g.convKey ≠ key)).map
            Conversation.unread).sum := by
  induction grouped with
  | nil => rfl
  | cons g grouped ih =>
      obtain ⟨hnew, hgrouped⟩ := List.nodup_cons.mp hgrouped
      have hrest := ih hgrouped
      rw [unreadUnder_cons, List.filter_cons, List.filter_cons]
      by_cases hkey : g.convKey = key
      · subst hkey
        rw [unreadUnder_eq_zero hnew] at hrest
        rw [if_pos hp, if_pos rfl, if_neg (by simp), List.map_cons,
          List.sum_cons, hrest]
        omega
      · rw [if_neg hkey]
        by_cases hpg : p g.convKey = true
        · rw [if_pos hpg, if_pos (by simp [hpg, hkey]), List.map_cons,
            List.sum_cons, List.map_cons, List.sum_cons, hrest]
          omega
        · rw [if_neg hpg, if_neg (by simp [hpg]), hrest]

/-- The conversations that are listed, and the others, are all of them. -/
theorem sum_unreadUnder {grouped : List Conversation}
    (hgrouped : (grouped.map Conversation.convKey).Nodup)
    {keys : List String} (hkeys : keys.Nodup) :
    (keys.map (unreadUnder grouped)).sum +
        ((grouped.filter fun g => decide (g.convKey ∉ keys)).map
          Conversation.unread).sum =
      (grouped.map Conversation.unread).sum := by
  induction keys with
  | nil => simp
  | cons key keys ih =>
      obtain ⟨hnew, hkeys⟩ := List.nodup_cons.mp hkeys
      have hrest := ih hkeys
      have hsplit := sum_filter_split hgrouped (fun k => decide (k ∉ keys)) key
        (decide_eq_true hnew)
      have hsame : (grouped.filter fun g => decide (g.convKey ∉ key :: keys)) =
          grouped.filter fun g =>
            decide (g.convKey ∉ keys) && decide (g.convKey ≠ key) := by
        refine List.filter_congr fun g _ => ?_
        simp [not_or, Bool.and_comm]
      rw [List.map_cons, List.sum_cons, hsame]
      omega

theorem sum_mergeSidebar {summaries : List ConversationSummary}
    (hsummaries : (summaries.map ConversationSummary.convKey).Nodup)
    {grouped : List Conversation}
    (hgrouped : (grouped.map Conversation.convKey).Nodup) :
    ((mergeSidebar summaries grouped).map Conversation.unread).sum =
      (grouped.map Conversation.unread).sum := by
  have hlisted : (summaries.map fun s =>
      ((grouped.find? fun g => decide (g.convKey = s.convKey)).getD
        ⟨s.convKey, s.kind, s.lastTimestamp, "", 0⟩).unread) =
      (summaries.map ConversationSummary.convKey).map
        (unreadUnder grouped) := by
    rw [List.map_map]
    refine List.map_congr_left fun s _ => ?_
    rw [Function.comp_apply, unreadUnder]
    cases grouped.find? fun g => decide (g.convKey = s.convKey) with
    | none => rfl
    | some g => rfl
  rw [mergeSidebar]
  rw [((List.mergeSort_perm _ _).map Conversation.unread).sum_nat,
    List.map_append, List.sum_append_nat, List.map_map]
  refine Eq.trans ?_ (sum_unreadUnder hgrouped hsummaries)
  rw [← hlisted]
  rfl

/-- The sum over the sidebar counts the unread ids, where each of them is
listed. -/
theorem totalUnread_eq (bodyText : β → String) {s : Inbox β}
    (hsummaries : (s.summaries.map ConversationSummary.convKey).Nodup)
    (hnodup : s.unread.Nodup)
    (hlisted : ∀ id ∈ s.unread, ∃ it ∈ s.live, it.envelopeId = id) :
    s.totalUnread bodyText = s.unread.length := by
  obtain ⟨hkeys, hsum⟩ := groupConversations_keys bodyText s.all s.unread
  rw [Inbox.totalUnread, sum_mergeSidebar hsummaries hkeys, hsum]
  have hcount : ∀ items : List (ThreadItem β),
      (items.map (unreadMark s.unread)).sum =
        items.countP fun it => decide (it.envelopeId ∈ s.unread) := by
    intro items
    induction items with
    | nil => rfl
    | cons it items ih =>
        rw [List.map_cons, List.sum_cons, ih, List.countP_cons, unreadMark]
        simp only [decide_eq_true_eq]
        omega
  rw [hcount]
  refine Firsts.countP_firsts hnodup fun id hid => ?_
  obtain ⟨it, hit, rfl⟩ := hlisted id hid
  exact List.mem_map_of_mem (List.mem_append_left _
    (List.mem_append_right _ hit))

/-! ## What one event keeps -/

theorem pendingId_inj {id id' : String} (h : pendingId id = pendingId id') :
    id = id' := by
  have hlist := congrArg String.toList h
  rw [pendingId, pendingId, String.toList_append, String.toList_append] at hlist
  exact String.toList_inj.mp (List.append_cancel_left hlist)

/-- What the sends have left. -/
structure SendsOk (s : Inbox β) : Prop where
  entries : ∀ id ∈ s.returned,
    s.sendState id = some (((s.acks id).map Ack.entry).getD .pending)
  optimistic : ∀ o ∈ s.optimistic, ∃ id ∈ s.returned,
    o.envelopeId = pendingId id ∧ o.status = .pending ∧
      o.correlationId = some id
  listed : ∀ id ∈ s.returned, ∃ o ∈ s.optimistic, o.correlationId = some id
  confirmed : ∀ it ∈ s.confirmed, it.status = .ok ∧ it.correlationId = none
  apart : ∀ id ∈ s.returned,
    (∀ it ∈ s.confirmed, it.envelopeId ≠ pendingId id) ∧
      ∀ id' ∈ s.returned, s.acks id' ≠ some (.ok (pendingId id))

/-- What the messages that came in have left. -/
structure UnreadOk (s : Inbox β) : Prop where
  nodup : s.unread.Nodup
  mem_unread : ∀ envelopeId, envelopeId ∈ s.unread ↔
    ∃ key, (envelopeId, key) ∈ s.arrived
  listed : ∀ id ∈ s.unread, ∃ it ∈ s.live, it.envelopeId = id

/-- The invariant of the timely events. -/
structure Inv (s : Inbox β) : Prop where
  sends : SendsOk s
  unreads : UnreadOk s
  summaries : (s.summaries.map ConversationSummary.convKey).Nodup

theorem Inv.initial : Inv (Inbox.initial : Inbox β) := by
  refine ⟨⟨?_, ?_, ?_, ?_, ?_⟩, ⟨List.nodup_nil, ?_, ?_⟩, List.nodup_nil⟩
  all_goals simp [Inbox.initial, Inbox.confirmed]

/-- A stream of confirmed entries takes the place of another, or grows. -/
theorem SendsOk.streams {s s' : Inbox β} (h : SendsOk s)
    (hsends : s'.returned = s.returned ∧ s'.sendState = s.sendState ∧
      s'.acks = s.acks ∧ s'.optimistic = s.optimistic)
    (hconfirmed : ∀ it ∈ s'.confirmed, it ∈ s.confirmed ∨
      it.status = .ok ∧ it.correlationId = none ∧ Plain s it.envelopeId) :
    SendsOk s' := by
  obtain ⟨hreturned, hstate, hacks, hoptimistic⟩ := hsends
  refine ⟨?_, ?_, ?_, fun it hit => ?_, ?_⟩
  · rw [hreturned, hstate, hacks]
    exact h.entries
  · rw [hreturned, hoptimistic]
    exact h.optimistic
  · rw [hreturned, hoptimistic]
    exact h.listed
  · rcases hconfirmed it hit with hold | ⟨hstatus, hid, -⟩
    · exact h.confirmed it hold
    · exact ⟨hstatus, hid⟩
  · rw [hreturned, hacks]
    intro id hid
    refine ⟨fun it hit => ?_, (h.apart id hid).2⟩
    rcases hconfirmed it hit with hold | ⟨-, -, hplain⟩
    · exact (h.apart id hid).1 it hold
    · exact hplain id hid

theorem SendsOk.rows {s s' : Inbox β} (h : SendsOk s)
    (hsends : s'.returned = s.returned ∧ s'.sendState = s.sendState ∧
      s'.acks = s.acks ∧ s'.optimistic = s.optimistic)
    {rows : List (ArchiveRow β)} (hplain : ∀ row ∈ rows, Plain s row.envelopeId)
    (hconfirmed : ∀ it ∈ s'.confirmed,
      it ∈ s.confirmed ∨ it ∈ rows.map fromArchiveRow) : SendsOk s' := by
  refine h.streams hsends fun it hit => (hconfirmed it hit).imp_right ?_
  intro hrow
  obtain ⟨row, hin, rfl⟩ := List.mem_map.mp hrow
  exact ⟨rfl, rfl, hplain row hin⟩

/-- A send returns its id. -/
theorem SendsOk.sendReturned {s : Inbox β} (h : SendsOk s)
    {id toDid : String} {body : β} {now : String}
    (htimely : Timely s (.sendReturned id toDid body now)) :
    SendsOk (step s (.sendReturned id toDid body now)) := by
  obtain ⟨hack, hconfirmed, hacks⟩ := htimely
  refine ⟨fun id' hid' => ?_, fun o ho => ?_, fun id' hid' => ?_, h.confirmed,
    fun id' hid' => ⟨?_, fun id'' hid'' => ?_⟩⟩
  · show Function.update s.sendState id (some .pending) id' = _
    by_cases heq : id' = id
    · subst heq
      rw [Function.update_self]
      show _ = some (((s.acks id').map Ack.entry).getD .pending)
      rw [hack, Option.map_none, Option.getD_none]
    · rw [Function.update_of_ne heq]
      refine h.entries id' ((List.mem_append.mp hid').resolve_right ?_)
      exact fun hmem => heq (List.mem_singleton.mp hmem)
  · rcases List.mem_append.mp ho with ho | ho
    · obtain ⟨id', hid', hitem⟩ := h.optimistic o ho
      exact ⟨id', List.mem_append_left [id] hid', hitem⟩
    · rw [List.mem_singleton.mp ho]
      exact ⟨id, List.mem_append_right _ (List.mem_singleton_self id), rfl,
        rfl, rfl⟩
  · rcases List.mem_append.mp hid' with hid' | hid'
    · obtain ⟨o, ho, hcorr⟩ := h.listed id' hid'
      exact ⟨o, List.mem_append_left _ ho, hcorr⟩
    · refine ⟨makeOptimistic id toDid body now,
        List.mem_append_right _ (List.mem_singleton_self _), ?_⟩
      rw [List.mem_singleton.mp hid']
      rfl
  · rcases List.mem_append.mp hid' with hid' | hid'
    · exact (h.apart id' hid').1
    · rw [List.mem_singleton.mp hid']
      exact hconfirmed
  · have hno : s.acks id ≠ some (.ok (pendingId id')) := by
      rw [hack]
      exact Option.some_ne_none _ |>.symm
    rcases List.mem_append.mp hid'' with hid'' | hid''
    · rcases List.mem_append.mp hid' with hid' | hid'
      · exact (h.apart id' hid').2 id'' hid''
      · rw [List.mem_singleton.mp hid']
        exact hacks id'' hid''
    · rw [List.mem_singleton.mp hid'']
      exact hno

/-- An acknowledgement is handled. -/
theorem SendsOk.acked {s s' : Inbox β} (h : SendsOk s) {id : String}
    {ack : Ack} (hreturned : s'.returned = s.returned)
    (hoptimistic : s'.optimistic = s.optimistic)
    (hconfirmed : s'.confirmed = s.confirmed)
    (hstate : s'.sendState = if (s.sendState id).isNone then s.sendState
      else Function.update s.sendState id (some ack.entry))
    (hacks : s'.acks = Function.update s.acks id (some ack))
    (hplain : id ∈ s.returned → ∀ id' ∈ s.returned,
      ack ≠ .ok (pendingId id')) : SendsOk s' := by
  refine ⟨?_, ?_, ?_, ?_, ?_⟩
  · rw [hreturned, hstate, hacks]
    intro id' hid'
    have hold := h.entries id' hid'
    by_cases heq : id' = id
    · subst heq
      rw [if_neg (by simp [hold]), Function.update_self, Function.update_self,
        Option.map_some, Option.getD_some]
    · rw [Function.update_of_ne heq]
      split
      · exact hold
      · rw [Function.update_of_ne heq]
        exact hold
  · rw [hreturned, hoptimistic]
    exact h.optimistic
  · rw [hreturned, hoptimistic]
    exact h.listed
  · rw [hconfirmed]
    exact h.confirmed
  · rw [hreturned, hconfirmed, hacks]
    intro id' hid'
    refine ⟨(h.apart id' hid').1, fun id'' hid'' => ?_⟩
    by_cases heq : id'' = id
    · subst heq
      rw [Function.update_self]
      exact fun hack => hplain hid'' id' hid' (Option.some.inj hack)
    · rw [Function.update_of_ne heq]
      exact (h.apart id' hid').2 id'' hid''

theorem mem_addUnread {set : List String} {id id' : String} :
    id ∈ addUnread set id' ↔ id ∈ set ∨ id = id' := by
  rw [addUnread]
  split
  · next hmem =>
      exact ⟨.inl, fun h => h.elim (fun hid => hid) fun heq => heq ▸ hmem⟩
  · rw [List.mem_append, List.mem_singleton]

theorem nodup_addUnread {set : List String} (h : set.Nodup) (id : String) :
    (addUnread set id).Nodup := by
  rw [addUnread]
  split
  · exact h
  · next hnew =>
      exact h.append (List.nodup_singleton id) (by simpa using hnew)

theorem mem_clearConv {set : List String} {loaded : List (ThreadItem β)}
    {key id : String} : id ∈ clearConv set loaded key ↔
      id ∈ set ∧ ¬ ∃ it ∈ loaded, it.envelopeId = id ∧ convKey it = key := by
  rw [clearConv, List.mem_filter]
  simp

/-- A message comes in. -/
theorem UnreadOk.message {s : Inbox β} (h : UnreadOk s) {m : InboxMessage β}
    (htimely : Timely s (.message m)) : UnreadOk (step s (.message m)) := by
  set key := convKey (fromLiveMessage m) with hkey
  have hlive : ∀ id, (∃ it ∈ s.live, it.envelopeId = id) →
      ∃ it ∈ s.live ++ [fromLiveMessage m], it.envelopeId = id := by
    rintro id ⟨it, hit, hid⟩
    exact ⟨it, List.mem_append_left _ hit, hid⟩
  have hunread : (step s (.message m)).unread =
      if some key ≠ s.shownSelected then addUnread s.unread m.envelopeId
      else s.unread := rfl
  have harrived : (step s (.message m)).arrived =
      if some key ≠ s.selected then s.arrived ++ [(m.envelopeId, key)]
      else s.arrived := rfl
  refine ⟨?_, fun id => ?_, fun id hid => ?_⟩
  · rw [hunread]
    split
    · exact nodup_addUnread h.nodup m.envelopeId
    · exact h.nodup
  · have hmem : id ∈ (step s (.message m)).unread ↔
        id ∈ s.unread ∨ (some key ≠ s.shownSelected ∧ id = m.envelopeId) := by
      rw [hunread]
      by_cases hsel : some key ≠ s.shownSelected
      · rw [if_pos hsel, mem_addUnread]
        exact or_congr_right (and_iff_right hsel).symm
      · rw [if_neg hsel]
        exact (or_iff_left fun hand => hsel hand.1).symm
    have harr : (∃ k, (id, k) ∈ (step s (.message m)).arrived) ↔
        (∃ k, (id, k) ∈ s.arrived) ∨
          (some key ≠ s.selected ∧ id = m.envelopeId) := by
      rw [harrived]
      by_cases hsel : some key ≠ s.selected
      · rw [if_pos hsel]
        simp only [List.mem_append, List.mem_singleton, Prod.mk.injEq,
          exists_or, exists_and_left, exists_eq, and_true]
        exact or_congr_right (and_iff_right hsel).symm
      · rw [if_neg hsel]
        exact (or_iff_left fun hand => hsel hand.1).symm
    rw [hmem, harr, ← h.mem_unread]
    rcases htimely.2 with hsame | hin
    · rw [hsame]
    · have habsorb : ∀ p : Prop, id ∈ s.unread ∨ (p ∧ id = m.envelopeId) ↔
          id ∈ s.unread := fun p =>
        ⟨fun hor => hor.elim (fun hid => hid) fun hand => hand.2 ▸ hin, .inl⟩
      rw [habsorb, habsorb]
  · rw [hunread] at hid
    split at hid
    · rcases mem_addUnread.1 hid with hold | rfl
      · exact hlive id (h.listed id hold)
      · exact ⟨fromLiveMessage m, List.mem_append_right _
          (List.mem_singleton_self _), rfl⟩
    · exact hlive id (h.listed id hid)

/-- A conversation is opened. -/
theorem UnreadOk.select {s : Inbox β} (h : UnreadOk s) {key : String}
    (htimely : Timely s (.select key)) : UnreadOk (step s (.select key)) := by
  have hunread : (step s (.select key)).unread =
      clearConv s.unread s.shownAll key := rfl
  refine ⟨h.nodup.filter _, fun id => ?_, fun id hid => ?_⟩
  · have harr : (∃ k, (id, k) ∈ (step s (.select key)).arrived) ↔
        ∃ k, (id, k) ∈ s.arrived ∧ k ≠ key := by
      refine exists_congr fun k => ?_
      show (id, k) ∈ s.arrived.filter _ ↔ _
      rw [List.mem_filter, decide_eq_true_eq]
    rw [hunread, mem_clearConv, harr]
    constructor
    · rintro ⟨hid, hnot⟩
      rw [htimely id hid] at hnot
      obtain ⟨k, hk⟩ := not_forall.mp hnot
      exact ⟨k, Classical.not_imp.mp hk⟩
    · rintro ⟨k, hk, hne⟩
      have hid : id ∈ s.unread := (h.mem_unread id).mpr ⟨k, hk⟩
      refine ⟨hid, fun hexists => hne ?_⟩
      exact (htimely id hid).mp hexists k hk
  · rw [hunread] at hid
    exact h.listed id (mem_clearConv.1 hid).1

/-- What a timely event keeps. -/
theorem Inv.step {s : Inbox β} {ev : InboxEvent β} (h : Inv s)
    (htimely : Timely s ev) : Inv (step s ev) := by
  cases ev with
  | summariesLoaded summaries => exact ⟨⟨h.sends.entries, h.sends.optimistic,
      h.sends.listed, h.sends.confirmed, h.sends.apart⟩, ⟨h.unreads.nodup,
      h.unreads.mem_unread, h.unreads.listed⟩, summaries.nodup⟩
  | recentLoaded rows =>
      refine ⟨h.sends.rows ⟨rfl, rfl, rfl, rfl⟩ htimely fun it hit => ?_,
        ⟨h.unreads.nodup, h.unreads.mem_unread, h.unreads.listed⟩, h.summaries⟩
      rcases List.mem_append.mp hit with hit | hit
      · rcases List.mem_append.mp hit with hit | hit
        · exact .inl (List.mem_append_left _ (List.mem_append_left _ hit))
        · exact .inr hit
      · exact .inl (List.mem_append_right _ hit)
  | threadLoaded rows =>
      refine ⟨h.sends.rows ⟨rfl, rfl, rfl, rfl⟩ htimely fun it hit => ?_,
        ⟨h.unreads.nodup, h.unreads.mem_unread, h.unreads.listed⟩, h.summaries⟩
      rcases List.mem_append.mp hit with hit | hit
      · rcases List.mem_append.mp hit with hit | hit
        · exact .inr hit
        · exact .inl (List.mem_append_left _ (List.mem_append_right _ hit))
      · exact .inl (List.mem_append_right _ hit)
  | message m =>
      refine ⟨h.sends.streams ⟨rfl, rfl, rfl, rfl⟩ fun it hit => ?_,
        h.unreads.message htimely, h.summaries⟩
      rcases List.mem_append.mp hit with hit | hit
      · exact .inl (List.mem_append_left _ hit)
      · rcases List.mem_append.mp hit with hit | hit
        · exact .inl (List.mem_append_right _ hit)
        · rw [List.mem_singleton.mp hit]
          exact .inr ⟨rfl, rfl, htimely.1⟩
  | sendReturned id toDid body now =>
      exact ⟨h.sends.sendReturned htimely, ⟨h.unreads.nodup,
        h.unreads.mem_unread, h.unreads.listed⟩, h.summaries⟩
  | sendOk id envelopeId =>
      refine ⟨h.sends.acked rfl rfl rfl rfl rfl fun hid id' hid' heq => ?_,
        ⟨h.unreads.nodup, h.unreads.mem_unread, h.unreads.listed⟩, h.summaries⟩
      exact htimely hid id' hid' (Ack.ok.inj heq)
  | sendErr id retryable reason =>
      exact ⟨h.sends.acked rfl rfl rfl rfl rfl fun _ _ _ heq => (nomatch heq),
        ⟨h.unreads.nodup, h.unreads.mem_unread, h.unreads.listed⟩, h.summaries⟩
  | select key =>
      exact ⟨⟨h.sends.entries, h.sends.optimistic, h.sends.listed,
        h.sends.confirmed, h.sends.apart⟩, h.unreads.select htimely,
        h.summaries⟩
  | render =>
      exact ⟨⟨h.sends.entries, h.sends.optimistic, h.sends.listed,
        h.sends.confirmed, h.sends.apart⟩, ⟨h.unreads.nodup,
        h.unreads.mem_unread, h.unreads.listed⟩, h.summaries⟩

/-! ## The runs that show everything -/

/-- What is listed for an entry of the streams: the first with its id. -/
theorem exists_shown {s : Inbox β} {it : ThreadItem β}
    (hit : it ∈ s.confirmed ++ s.resolvedOptimistic) :
    ∃ shown ∈ s.all, shown.envelopeId = it.envelopeId :=
  Firsts.exists_mem_firsts hit

/-- A listed entry is confirmed or was sent, and then it stands for what its
acknowledgement says. -/
theorem SendsOk.shown {s : Inbox β} (h : SendsOk s) {it : ThreadItem β}
    (hit : it ∈ s.all) :
    (it ∈ s.confirmed ∧ it.status = .ok ∧ it.correlationId = none) ∨
      ∃ id ∈ s.returned, it.correlationId = some id ∧
        match s.acks id with
        | some (.ok envelopeId) =>
            it.status = .ok ∧ it.envelopeId = envelopeId
        | some (.err retryable reason) =>
            it.status = .err ∧ it.envelopeId = pendingId id ∧
              it.retryable = some retryable ∧ it.reason = some reason
        | none => it.status = .pending ∧ it.envelopeId = pendingId id := by
  rcases List.mem_append.mp (Firsts.mem_of_mem_firsts hit) with hit | hit
  · exact .inl ⟨hit, h.confirmed it hit⟩
  · right
    obtain ⟨o, ho, rfl⟩ := List.mem_map.mp hit
    obtain ⟨id, hid, henvelope, hstatus, hcorr⟩ := h.optimistic o ho
    have hentry := h.entries id hid
    refine ⟨id, hid, ?_⟩
    rw [resolve, hcorr, Option.bind_some, hentry]
    cases s.acks id with
    | none => exact ⟨hcorr, hstatus, henvelope⟩
    | some ack =>
        cases ack with
        | ok envelopeId => exact ⟨rfl, rfl, rfl⟩
        | err retryable reason => exact ⟨rfl, rfl, henvelope, rfl, rfl⟩

/-- The invariant says what is to hold. -/
theorem Inv.shown (bodyText : β → String) {s : Inbox β} (h : Inv s) :
    Shown bodyText s := by
  refine ⟨Firsts.nodup_firsts _, fun it hit => exists_shown hit, ?_, ?_, ?_, ?_⟩
  · intro id hid envelopeId hack
    obtain ⟨o, ho, hcorr⟩ := h.sends.listed id hid
    have hresolved : (resolve s.sendState o).envelopeId = envelopeId := by
      rw [resolve, hcorr, Option.bind_some, h.sends.entries id hid, hack]
      rfl
    obtain ⟨it, hit, hsame⟩ := exists_shown (List.mem_append_right s.confirmed
      (List.mem_map_of_mem (f := resolve s.sendState) ho))
    rw [hresolved] at hsame
    refine ⟨it, hit, hsame, ?_⟩
    rcases h.sends.shown hit with ⟨-, hstatus, -⟩ | ⟨id', hid', -, hmatch⟩
    · exact hstatus
    · have hapart := (h.sends.apart id' hid').2 id hid
      rw [hack] at hapart
      split at hmatch
      · exact hmatch.1
      · exact absurd (hsame ▸ hmatch.2.1 ▸ rfl) hapart
      · exact absurd (hsame ▸ hmatch.2 ▸ rfl) hapart
  · intro id hid retryable reason hack
    obtain ⟨o, ho, hcorr⟩ := h.sends.listed id hid
    obtain ⟨id₀, -, henvelope, -, hcorr₀⟩ := h.sends.optimistic o ho
    obtain rfl : id = id₀ := Option.some.inj (hcorr.symm.trans hcorr₀)
    have hresolved : (resolve s.sendState o).envelopeId = pendingId id := by
      rw [resolve, hcorr, Option.bind_some, h.sends.entries id hid, hack]
      exact henvelope
    obtain ⟨it, hit, hsame⟩ := exists_shown (List.mem_append_right s.confirmed
      (List.mem_map_of_mem (f := resolve s.sendState) ho))
    rw [hresolved] at hsame
    refine ⟨it, hit, ?_⟩
    obtain ⟨hconfirmed, hoks⟩ := h.sends.apart id hid
    rcases h.sends.shown hit with ⟨hin, -, -⟩ | ⟨id', hid', hcorr', hmatch⟩
    · exact absurd hsame (hconfirmed it hin)
    · have hid_eq : it.envelopeId = pendingId id' → id' = id := fun henv =>
        pendingId_inj (henv.symm.trans hsame)
      split at hmatch
      · next envelopeId hok =>
          exact absurd (hok.trans (by rw [← hmatch.2, hsame]))
            (hoks id' hid')
      · next r reason' herr =>
          obtain rfl := hid_eq hmatch.2.1
          rw [hack] at herr
          cases herr
          exact ⟨hcorr', hmatch.1, hmatch.2.2⟩
      · next hnone =>
          obtain rfl := hid_eq hmatch.2
          rw [hack] at hnone
          cases hnone
  · intro it hit hstatus id hcorr
    rcases h.sends.shown hit with ⟨-, -, hnone⟩ | ⟨id', hid', hcorr', hmatch⟩
    · rw [hnone] at hcorr
      cases hcorr
    · obtain rfl : id = id' := Option.some.inj (hcorr.symm.trans hcorr')
      rw [hstatus] at hmatch
      split at hmatch
      · exact absurd hmatch.1 (by decide)
      · exact absurd hmatch.1 (by decide)
      · assumption
  · rw [totalUnread_eq bodyText h.summaries h.unreads.nodup h.unreads.listed]
    refine ((List.perm_ext_iff_of_nodup h.unreads.nodup
      (List.nodup_dedup _)).mpr fun id => ?_).length_eq
    rw [List.mem_dedup, h.unreads.mem_unread, List.mem_map]
    simp

theorem inbox_shown (bodyText : β → String) {events : List (InboxEvent β)}
    (hevents : Trace.Meets step Timely Inbox.initial events) (n : Nat) :
    Shown bodyText (Trace.run step Inbox.initial (events.take n)) :=
  (Trace.run_take_inv_of_meets Inv (fun _ _ => Inv.step) Inv.initial hevents
    n).shown bodyText

/-- A message comes in and is opened, one is sent and acknowledged. -/
def readAndAnswered : List (InboxEvent String) :=
  [.message ⟨"e0", "did:bob", none, "2026-06-14T01:00:00Z", "yo"⟩, .render,
    .sendReturned "c1" "did:bob" "hi" "2026-06-14T01:01:00Z",
    .sendOk "c1" "e1", .select "did:bob"]

theorem readAndAnswered_shown :
    Shown (fun body => body)
      (Trace.run step Inbox.initial (readAndAnswered.take 5)) := by
  have hmeets : Trace.Meets step Timely Inbox.initial readAndAnswered := by
    refine ⟨⟨fun id hid => (nomatch hid), .inl Iff.rfl⟩, trivial,
      ⟨rfl, fun it hit => ?_, fun id hid => (nomatch hid)⟩, fun _ id hid => ?_,
      fun id hid => ?_, trivial⟩
    · obtain rfl := List.mem_singleton.mp hit
      decide
    · obtain rfl := List.mem_singleton.mp hid
      decide
    · obtain rfl := List.mem_singleton.mp hid
      refine ⟨fun _ k hk => ?_, fun _ =>
        ⟨_, List.mem_singleton_self _, rfl, rfl⟩⟩
      exact (Prod.mk.inj (List.mem_singleton.mp hk)).2
  exact inbox_shown (fun body => body) hmeets 5

/-- The acknowledgement is handled before the call that sends returns. -/
def ackFirst : List (InboxEvent String) :=
  [.sendOk "c1" "e1",
    .sendReturned "c1" "did:bob" "hi" "2026-06-14T01:01:00Z", .render]

/-- The message stays pending. -/
theorem ackFirst_stuck :
    ¬ ∀ events : List (InboxEvent String),
      Shown (fun body => body) (Trace.run step Inbox.initial events) := by
  intro h
  have hsent := (h ackFirst).sent "c1" (List.mem_singleton_self "c1") "e1" rfl
  revert hsent
  decide +kernel

end AirNote.InboxView
