import AirNote.StrictCursor

/-!
# Draining the relay

`receiveAll` repeats `receive` while the relay has more, up to a number of
pages, and returns what all the pages surfaced. It goes on only after a page
that surfaced a message: a page of which everything is blocked, dropped or an
operation of a room ends it, and then it reports that there is no more. Every
pull after the first starts at the stored cursor, which stays behind where a
write failed, and may be ahead of a `since` that the caller gave.

The relay holds records in the order of their numbers. It answers with as many
of those after `since` as it likes, at least one where there is one, and tells
whether there are more.

## Main results

* `receive_all_drains_iff` — when what it pulled is the backlog up to where it
  says.
* `receiveAll_pages_iff` — it ends after `maxPages` pages, if that is not `0`.
* `receive_all_stops_early` — a page of blocked mail in front of another.
-/

namespace AirNote

open Lib

/-! ## The loop -/

/-- What the loop reads of a reply of `receive`. -/
structure PageReply where
  messages : List Message
  hasMore : Bool

/-- How the loop ended: the state, what it collected, and what the last reply
said. -/
structure DrainReply (σ : Type*) where
  state : σ
  messages : List Message
  pages : Nat
  lastMore : Bool
  failed : Bool

/-- The loop, with a number of pages that may follow the next one. -/
def receiveAllFrom {σ : Type*}
    (receiveFn : σ → Option Int → σ × Option PageReply) :
    Nat → σ → Option Int → DrainReply σ
  | left, s, since =>
      match receiveFn s since with
      | (s', none) => ⟨s', [], 1, false, true⟩
      | (s', some page) =>
          if page.hasMore && !page.messages.isEmpty then
            match left with
            | 0 => ⟨s', page.messages, 1, page.hasMore, false⟩
            | left + 1 =>
                let rest := receiveAllFrom receiveFn left s' none
                { rest with
                  messages := page.messages ++ rest.messages
                  pages := rest.pages + 1 }
          else ⟨s', page.messages, 1, page.hasMore, false⟩

/-- `receiveAll`. -/
def receiveAll {σ : Type*}
    (receiveFn : σ → Option Int → σ × Option PageReply) (maxPages : Nat)
    (s : σ) (since : Option Int) : DrainReply σ :=
  receiveAllFrom receiveFn (maxPages - 1) s since

/-- The `has_more` that is returned. -/
def DrainReply.hasMore {σ : Type*} (d : DrainReply σ) (maxPages : Nat) : Bool :=
  d.lastMore && decide (maxPages ≤ d.pages)

/-! ## The relay and `receive` -/

/-- What the relay holds for a member, and how many records it puts on a page
when these are the ones that are left. -/
structure RelayInbox where
  held : List RelayRecord
  ordered : held.Pairwise fun a b => a.seq < b.seq
  size : List RelayRecord → Nat
  size_pos : ∀ rest, 0 < size rest

/-- The records after a number. -/
def RelayInbox.after (relay : RelayInbox) (since : Int) : List RelayRecord :=
  relay.held.filter fun m => since < m.seq

def RelayInbox.page (relay : RelayInbox) (rest : List RelayRecord) :
    List RelayRecord :=
  rest.take (relay.size rest)

/-- What is left after a page. -/
def RelayInbox.left (relay : RelayInbox) (rest : List RelayRecord) :
    List RelayRecord :=
  rest.drop (relay.size rest)

/-- Around the pulls: whether they are strict, what happens around each record
in each of them, and whether the cursor can be written. -/
structure PullWorld where
  strict : Bool
  arrival : Nat → RelayRecord → Arrival
  arrival_record : ∀ n m, (arrival n m).record = m
  cursorOk : Nat → Bool

/-- The mailbox, the number of pulls so far, what they pulled and what they
surfaced. -/
structure DrainState where
  box : Mailbox
  pulls : Nat
  pulled : List RelayRecord
  surfaced : List Message

/-- A call of `receive` against the relay. -/
def DrainState.call (s : DrainState) (relay : RelayInbox) (world : PullWorld)
    (since : Option Int) : Pull where
  since := since
  strict := world.strict
  arrivals := (relay.page (relay.after (since.getD s.box.cursor))).map
    (world.arrival s.pulls)
  cursorOk := world.cursorOk s.pulls

def receivePage (h : MailHost) (selfDid : String) (relay : RelayInbox)
    (world : PullWorld) (s : DrainState) (since : Option Int) :
    DrainState × Option PageReply :=
  let rest := relay.after (since.getD s.box.cursor)
  let r := receive h selfDid s.box (s.call relay world since)
  ({ box := r.1
     pulls := s.pulls + 1
     pulled := s.pulled ++ relay.page rest
     surfaced := s.surfaced ++ r.2.getD [] },
    r.2.map fun messages => ⟨messages, !(relay.left rest).isEmpty⟩)

/-! ## What a page surfaces -/

/-- The record surfaces a message: it is one to oneself or to a room, or an
operation after which one is told of the room. -/
def surfaces (h : MailHost) (selfDid : String) (box : Mailbox) (a : Arrival) :
    Bool :=
  match route h selfDid box a with
  | .roomMsg _ _ _ => true
  | .direct => true
  | .control _ op =>
      joins h selfDid (afterIngest h selfDid box a op) a.now op
  | _ => false

/-- One of the records does, each in the mailbox that those before it leave. -/
def surfacesAny (h : MailHost) (selfDid : String) (box : Mailbox) :
    List Arrival → Bool
  | [] => false
  | a :: rest =>
      surfaces h selfDid box a ||
        surfacesAny h selfDid (handle h selfDid box a).box rest

/-- One of them ends `receive` with an exception. -/
def breaksAny (h : MailHost) (selfDid : String) (box : Mailbox) :
    List Arrival → Bool
  | [] => false
  | a :: rest =>
      decide (route h selfDid box a = .broken) ||
        breaksAny h selfDid (handle h selfDid box a).box rest

section Page

variable {h : MailHost} {selfDid : String} {box : Mailbox} {a : Arrival}

theorem handle_message_isSome :
    (handle h selfDid box a).message.isSome = surfaces h selfDid box a := by
  unfold handle surfaces
  cases route h selfDid box a with
  | control env op =>
      simp only [handleControl]
      split
      · rename_i hjoins
        rw [hjoins]
        rfl
      · rename_i hnot
        rw [Bool.not_eq_true] at hnot
        rw [hnot]
        rfl
  | _ => rfl

theorem handle_broken :
    (handle h selfDid box a).broken =
      decide (route h selfDid box a = .broken) := by
  unfold handle
  cases route h selfDid box a with
  | control env op =>
      simp only [handleControl]
      split <;> rfl
  | _ => rfl

theorem handle_message_seq {m : Message}
    (hm : (handle h selfDid box a).message = some m) :
    m.seq = a.record.seq := by
  unfold handle at hm
  cases hroute : route h selfDid box a with
  | control env op =>
      rw [hroute] at hm
      simp only [handleControl] at hm
      split at hm
      · obtain rfl := Option.some.inj hm
        rfl
      · cases hm
  | roomMsg env msg drift =>
      rw [hroute] at hm
      obtain rfl := Option.some.inj hm
      rfl
  | direct =>
      rw [hroute] at hm
      obtain rfl := Option.some.inj hm
      rfl
  | _ =>
      rw [hroute] at hm
      cases hm

/-- The records of a batch, from a state of it without an exception. -/
theorem foldl_next_page (h : MailHost) (selfDid : String)
    (arrivals : List Arrival) (b : Batch) (hb : b.broken = false) :
    (arrivals.foldl (Batch.next h selfDid) b).broken =
        breaksAny h selfDid b.box arrivals ∧
      ∃ more, (arrivals.foldl (Batch.next h selfDid) b).messages =
          b.messages ++ more ∧
        (more.map Message.seq).Sublist
          (arrivals.map fun a => a.record.seq) ∧
        (breaksAny h selfDid b.box arrivals = false →
          more.isEmpty = !surfacesAny h selfDid b.box arrivals) := by
  induction arrivals generalizing b with
  | nil => exact ⟨hb, [], by simp, List.Sublist.refl _, fun _ => rfl⟩
  | cons a rest ih =>
      rw [List.foldl_cons]
      have hnext := batch_next_fine h selfDid hb a
      have hfirst : ((handle h selfDid b.box a).message.toList.map
          Message.seq).Sublist [a.record.seq] := by
        cases hm : (handle h selfDid b.box a).message with
        | none => exact List.nil_sublist _
        | some m => simp [handle_message_seq hm]
      by_cases hbreaks : (handle h selfDid b.box a).broken = true
      · have hbroken : (Batch.next h selfDid b a).broken = true := by
          rw [hnext]
          exact hbreaks
        rw [foldl_next_broken h selfDid rest hbroken, hbroken, hnext]
        rw [handle_broken] at hbreaks
        refine ⟨?_, _, rfl, ?_, ?_⟩
        · simp [breaksAny, hbreaks]
        · exact hfirst.trans (by simp)
        · intro hnot
          simp [breaksAny, hbreaks] at hnot
      · rw [Bool.not_eq_true] at hbreaks
        have hfine : (Batch.next h selfDid b a).broken = false := by
          rw [hnext]
          exact hbreaks
        obtain ⟨hrest, more, hmessages, hseqs, hempty⟩ :=
          ih (Batch.next h selfDid b a) hfine
        rw [hnext] at hrest hmessages hempty
        rw [hnext, hrest, hmessages]
        rw [handle_broken] at hbreaks
        refine ⟨by simp [breaksAny, hbreaks],
          (handle h selfDid b.box a).message.toList ++ more, by simp, ?_, ?_⟩
        · rw [List.map_append]
          exact hfirst.append hseqs
        · intro hnot
          simp only [breaksAny, hbreaks, Bool.false_or] at hnot
          have hmore := hempty hnot
          rw [surfacesAny, Bool.not_or, ← handle_message_isSome]
          cases (handle h selfDid b.box a).message with
          | none => simpa using hmore
          | some m => rfl

end Page

/-! ## What is shown -/

/-- The records fit into so many pages. -/
def RelayInbox.Fits (relay : RelayInbox) : Nat → List RelayRecord → Prop
  | 0, _ => False
  | n + 1, rest => relay.left rest = [] ∨ relay.Fits n (relay.left rest)

/-- The backlog is drained: no exception; what was pulled is the backlog, each
record once and in order, up to a rest that is there exactly where `has_more`
says so; what the pages surfaced is returned; and a backlog that fits into the
pages is pulled to its end, and the relay has said so. -/
structure DrainsBacklog (relay : RelayInbox) (backlog : List RelayRecord)
    (maxPages : Nat) (d : DrainReply DrainState) : Prop where
  returns : d.failed = false
  once : ∃ rest, backlog = d.state.pulled ++ rest ∧
    (d.hasMore maxPages = true ↔ rest ≠ [])
  union : d.messages = d.state.surfaced
  seqs : (d.messages.map Message.seq).Sublist
    (d.state.pulled.map RelayRecord.seq)
  drained : relay.Fits maxPages backlog →
    d.lastMore = false ∧ d.state.pulled = backlog

/-- Each page that another may follow: no exception, and where the relay has
more and the bound allows it, the page surfaces a message and the cursor then
stands where the page ends, as far as the relay's records go. -/
def DrainState.Steady (h : MailHost) (selfDid : String) (relay : RelayInbox)
    (world : PullWorld) : Nat → DrainState → Option Int → Prop
  | left, s, since =>
      let rest := relay.after (since.getD s.box.cursor)
      let call := s.call relay world since
      breaksAny h selfDid s.box call.arrivals = false ∧
        match left with
        | 0 => True
        | left + 1 => relay.left rest ≠ [] →
            surfacesAny h selfDid s.box call.arrivals = true ∧
            relay.after (receiveBox h selfDid s.box call).cursor =
              relay.left rest ∧
            DrainState.Steady h selfDid relay world left
              (receivePage h selfDid relay world s since).1 none

/-! ## The records in order -/

theorem after_suffix (relay : RelayInbox) (since : Int) :
    relay.after since <:+ relay.held := by
  unfold RelayInbox.after
  have hordered := relay.ordered
  generalize relay.held = held at hordered
  induction held with
  | nil => exact List.suffix_refl _
  | cons m rest ih =>
      obtain ⟨hfirst, hrest⟩ := List.pairwise_cons.mp hordered
      by_cases hm : since < m.seq
      · have hall : (m :: rest).filter (fun m => since < m.seq) =
            m :: rest := by
          rw [List.filter_eq_self]
          intro m' hm'
          rcases List.mem_cons.mp hm' with rfl | hin
          · simpa using hm
          · have hlater := hfirst m' hin
            simp only [decide_eq_true_eq]
            omega
        exact ⟨[], hall⟩
      · rw [List.filter_cons_of_neg (by simpa using hm)]
        exact (ih hrest).trans (List.suffix_cons m rest)

theorem held_nodup (relay : RelayInbox) : relay.held.Nodup :=
  relay.ordered.imp fun {a b} hlt heq => by
    rw [heq] at hlt
    omega

/-- Two ends of a list without repetitions that begin alike are the same. -/
theorem suffix_eq_of_head {α : Type*} {l xs ys : List α} (hl : l.Nodup)
    (hx : xs <:+ l) (hy : ys <:+ l) {z : α} (hzx : xs.head? = some z)
    (hzy : ys.head? = some z) : xs = ys := by
  have haux : ∀ {as bs : List α}, as <:+ bs → bs.Nodup →
      as.head? = some z → bs.head? = some z → as = bs := by
    rintro as bs ⟨front, rfl⟩ hnodup has hbs
    cases front with
    | nil => rfl
    | cons w front =>
        obtain rfl : w = z := by simpa using hbs
        have hin : w ∈ as := List.mem_of_head? has
        exact absurd (List.mem_append_right front hin)
          (List.nodup_cons.mp hnodup).1
  rcases List.suffix_or_suffix_of_suffix hx hy with hxy | hyx
  · exact haux hxy (hl.sublist hy.sublist) hzx hzy
  · exact (haux hyx (hl.sublist hx.sublist) hzy hzx).symm

theorem page_append_left (relay : RelayInbox) (rest : List RelayRecord) :
    relay.page rest ++ relay.left rest = rest :=
  List.take_append_drop _ _

theorem page_head (relay : RelayInbox) (rest : List RelayRecord) :
    (relay.page rest).head? = rest.head? := by
  have hpos := relay.size_pos rest
  unfold RelayInbox.page
  obtain ⟨n, hn⟩ := Nat.exists_eq_succ_of_ne_zero (Nat.ne_of_gt hpos)
  rw [hn]
  cases rest <;> rfl

/-! ## One page -/

section Drain

variable {h : MailHost} {selfDid : String} {relay : RelayInbox}
  {world : PullWorld}

theorem receive_broken {box : Mailbox} {p : Pull}
    (hb : (p.batch h selfDid box).broken = true) :
    (receive h selfDid box p).2 = none := by
  unfold receive
  simp only [hb, if_true]

theorem receive_messages {box : Mailbox} {p : Pull}
    (hb : (p.batch h selfDid box).broken = false) :
    (receive h selfDid box p).2 = some (p.batch h selfDid box).messages := by
  unfold receive
  simp only [hb, Bool.false_eq_true, if_false]
  split <;> rfl

/-- What a call leaves and replies. -/
theorem receivePage_spec (h : MailHost) (selfDid : String)
    (world : PullWorld) (s : DrainState) (since : Option Int) {rest : List RelayRecord}
    (hrest : relay.after (since.getD s.box.cursor) = rest) :
    (receivePage h selfDid relay world s since).1.pulled =
        s.pulled ++ relay.page rest ∧
      (receivePage h selfDid relay world s since).1.box =
        receiveBox h selfDid s.box (s.call relay world since) ∧
      ((breaksAny h selfDid s.box (s.call relay world since).arrivals = true ∧
          (receivePage h selfDid relay world s since).2 = none ∧
          (receivePage h selfDid relay world s since).1.surfaced =
            s.surfaced) ∨
        (breaksAny h selfDid s.box (s.call relay world since).arrivals =
            false ∧
          ∃ messages, (receivePage h selfDid relay world s since).2 =
              some ⟨messages, !(relay.left rest).isEmpty⟩ ∧
            (receivePage h selfDid relay world s since).1.surfaced =
              s.surfaced ++ messages ∧
            messages.isEmpty = !surfacesAny h selfDid s.box
              (s.call relay world since).arrivals ∧
            (messages.map Message.seq).Sublist
              ((relay.page rest).map RelayRecord.seq))) := by
  subst hrest
  have hseqs : (s.call relay world since).arrivals.map
      (fun a => a.record.seq) =
        (relay.page (relay.after (since.getD s.box.cursor))).map
          RelayRecord.seq := by
    simp [DrainState.call, Function.comp_def, world.arrival_record]
  obtain ⟨hbroken, more, hmessages, hsub, hempty⟩ :=
    foldl_next_page h selfDid (s.call relay world since).arrivals
      ⟨s.box, [], [], false⟩ rfl
  rw [hseqs] at hsub
  refine ⟨rfl, rfl, ?_⟩
  cases hbreaks : breaksAny h selfDid s.box
      (s.call relay world since).arrivals with
  | true =>
      have hnone : (receive h selfDid s.box (s.call relay world since)).2 =
          none := receive_broken (hbroken.trans hbreaks)
      refine Or.inl ⟨rfl, ?_, ?_⟩
      · simp [receivePage, hnone]
      · simp [receivePage, hnone]
  | false =>
      have hsome : (receive h selfDid s.box (s.call relay world since)).2 =
          some more := by
        rw [receive_messages (hbroken.trans hbreaks)]
        exact congrArg some hmessages
      refine Or.inr ⟨rfl, more, ?_, ?_, hempty hbreaks, hsub⟩
      · simp [receivePage, hsome]
      · simp [receivePage, hsome]

/-! ## The loop, from one of its pages -/

/-- What the loop did from a state on, with `left` pages to follow the next:
it pulled `new`, and it drained `rest` exactly where `steady` holds. -/
structure DrainSpec (relay : RelayInbox) (rest : List RelayRecord) (left : Nat)
    (s : DrainState) (d : DrainReply DrainState) (new : List RelayRecord)
    (steady : Prop) : Prop where
  pulled : d.state.pulled = s.pulled ++ new
  head : new.head? = rest.head?
  surfaced : d.state.surfaced = s.surfaced ++ d.messages
  seqs : (d.messages.map Message.seq).Sublist (new.map RelayRecord.seq)
  pages : 1 ≤ d.pages
  empty : rest = [] → d.lastMore = false
  drains : (d.failed = false ∧ ∃ tail, rest = new ++ tail ∧
    ((d.lastMore && decide (left + 1 ≤ d.pages)) = true ↔ tail ≠ [])) ↔ steady
  drained : steady → relay.Fits (left + 1) rest →
    d.lastMore = false ∧ new = rest

/-- The loop ends with an exception. -/
theorem DrainSpec.broken {rest : List RelayRecord} {left : Nat}
    {s s' : DrainState} {steady : Prop}
    (hpulled : s'.pulled = s.pulled ++ relay.page rest)
    (hsurfaced : s'.surfaced = s.surfaced) (hnot : ¬ steady) :
    DrainSpec relay rest left s ⟨s', [], 1, false, true⟩ (relay.page rest)
      steady where
  pulled := hpulled
  head := page_head relay rest
  surfaced := by
    rw [List.append_nil]
    exact hsurfaced
  seqs := List.nil_sublist _
  pages := Nat.le_refl 1
  empty := fun _ => rfl
  drains := iff_of_false (by simp) hnot
  drained := fun hsteady => absurd hsteady hnot

/-- The loop ends after a page. -/
theorem DrainSpec.stop {rest : List RelayRecord} {left : Nat}
    {s s' : DrainState} {messages : List Message} {steady : Prop}
    (hpulled : s'.pulled = s.pulled ++ relay.page rest)
    (hsurfaced : s'.surfaced = s.surfaced ++ messages)
    (hseqs : (messages.map Message.seq).Sublist
      ((relay.page rest).map RelayRecord.seq))
    (hsteady : steady ↔ (relay.left rest = [] ∨ left = 0)) :
    DrainSpec relay rest left s
      ⟨s', messages, 1, !(relay.left rest).isEmpty, false⟩ (relay.page rest)
      steady where
  pulled := hpulled
  head := page_head relay rest
  surfaced := hsurfaced
  seqs := hseqs
  pages := Nat.le_refl 1
  empty := by
    intro hrest
    simp [RelayInbox.left, hrest]
  drains := by
    have hleft := page_append_left relay rest
    rw [hsteady]
    constructor
    · rintro ⟨-, tail, htail, hmore⟩
      have heq : tail = relay.left rest :=
        (List.append_cancel_left (hleft.trans htail)).symm
      by_cases hnil : relay.left rest = []
      · exact Or.inl hnil
      · rw [heq] at hmore
        have hpage := hmore.mpr hnil
        simp only [Bool.and_eq_true, decide_eq_true_eq] at hpage
        exact Or.inr (by omega)
    · intro hend
      refine ⟨rfl, relay.left rest, hleft.symm, ?_⟩
      rcases hend with hnil | hzero
      · simp [hnil]
      · simp [hzero]
  drained := by
    intro hst hfits
    rcases hfits with hnil | hmore
    · have hleft := page_append_left relay rest
      rw [hnil, List.append_nil] at hleft
      exact ⟨by simp [hnil], hleft⟩
    · rcases hsteady.mp hst with hnil | hzero
      · have hleft := page_append_left relay rest
        rw [hnil, List.append_nil] at hleft
        exact ⟨by simp [hnil], hleft⟩
      · rw [hzero] at hmore
        exact absurd hmore (by simp [RelayInbox.Fits])

/-- The loop goes on after a page: it drains what is left where the cursor
stands at the end of the page, and what follows does. -/
theorem DrainSpec.next {rest rest' new : List RelayRecord} {left : Nat}
    {s s' : DrainState} {messages : List Message} {d : DrainReply DrainState}
    {steady steady' : Prop}
    (hheld : rest <:+ relay.held) (hheld' : rest' <:+ relay.held)
    (hpulled : s'.pulled = s.pulled ++ relay.page rest)
    (hsurfaced : s'.surfaced = s.surfaced ++ messages)
    (hseqs : (messages.map Message.seq).Sublist
      ((relay.page rest).map RelayRecord.seq))
    (hmore : relay.left rest ≠ [])
    (hd : DrainSpec relay rest' left s' d new steady')
    (hsteady : steady ↔ (rest' = relay.left rest ∧ steady')) :
    DrainSpec relay rest (left + 1) s
      { d with messages := messages ++ d.messages, pages := d.pages + 1 }
      (relay.page rest ++ new) steady where
  pulled := by
    rw [← List.append_assoc, ← hpulled]
    exact hd.pulled
  head := by
    have hhead := page_head relay rest
    cases hpage : relay.page rest with
    | nil =>
        rw [hpage] at hhead
        have hnil : rest = [] := List.head?_eq_none_iff.mp hhead.symm
        rw [hnil] at hmore
        exact absurd (by simp [RelayInbox.left]) hmore
    | cons m page =>
        rw [hpage] at hhead
        exact hhead
  surfaced := by
    rw [← List.append_assoc, ← hsurfaced]
    exact hd.surfaced
  seqs := by
    rw [List.map_append, List.map_append]
    exact hseqs.append hd.seqs
  pages := Nat.le_add_left 1 d.pages
  empty := by
    intro hnil
    rw [hnil] at hmore
    exact absurd (by simp [RelayInbox.left]) hmore
  drains := by
    have hleft := page_append_left relay rest
    have hcount : decide (left + 1 + 1 ≤ d.pages + 1) =
        decide (left + 1 ≤ d.pages) := by
      simp
    rw [hsteady, ← hd.drains, hcount]
    constructor
    · rintro ⟨hfine, tail, htail, hreports⟩
      rw [List.append_assoc] at htail
      have hrest : relay.left rest = new ++ tail :=
        List.append_cancel_left (hleft.trans htail)
      have hsame : rest' = relay.left rest := by
        cases hnew : new with
        | nil =>
            rw [hnew, List.nil_append] at hrest
            have hnil : rest' = [] := by
              have hhead := hd.head
              rw [hnew] at hhead
              exact List.head?_eq_none_iff.mp hhead.symm
            rw [hrest] at hmore
            have hlast := hreports.mpr hmore
            rw [hd.empty hnil] at hlast
            cases hlast
        | cons m new' =>
            have hhead := hd.head
            rw [hnew] at hhead hrest
            refine suffix_eq_of_head (held_nodup relay) hheld' ?_
              (z := m) hhead.symm (by rw [hrest]; rfl)
            exact (List.drop_suffix _ _).trans hheld
      refine ⟨hsame, hfine, tail, ?_, hreports⟩
      rw [hsame]
      exact hrest
    · rintro ⟨hsame, hfine, tail, htail, hreports⟩
      refine ⟨hfine, tail, ?_, hreports⟩
      rw [List.append_assoc, ← htail, hsame]
      exact hleft.symm
  drained := by
    intro hst hfits
    obtain ⟨hsame, hst'⟩ := hsteady.mp hst
    have hfits' : relay.Fits (left + 1) rest' := by
      rw [hsame]
      exact hfits.resolve_left hmore
    obtain ⟨hlast, hnew⟩ := hd.drained hst' hfits'
    refine ⟨hlast, ?_⟩
    rw [hnew, hsame]
    exact page_append_left relay rest

/-- The last page that the bound allows. -/
theorem steady_zero (s : DrainState) (since : Option Int) :
    s.Steady h selfDid relay world 0 since ↔
      breaksAny h selfDid s.box (s.call relay world since).arrivals =
        false := by
  simp [DrainState.Steady]

/-- A page that others may follow. -/
theorem steady_succ (s : DrainState) (since : Option Int) (left : Nat) :
    s.Steady h selfDid relay world (left + 1) since ↔
      breaksAny h selfDid s.box (s.call relay world since).arrivals = false ∧
        (relay.left (relay.after (since.getD s.box.cursor)) ≠ [] →
          surfacesAny h selfDid s.box (s.call relay world since).arrivals =
              true ∧
            relay.after (receiveBox h selfDid s.box
              (s.call relay world since)).cursor =
                relay.left (relay.after (since.getD s.box.cursor)) ∧
            (receivePage h selfDid relay world s since).1.Steady h selfDid
              relay world left none) := by
  simp [DrainState.Steady]

/-- Step: one page, given what the loop does from the next. -/
theorem drainSpec_page (left : Nat) (s : DrainState) (since : Option Int)
    (ih : ∀ l, left = l + 1 → ∀ s', ∃ new,
      DrainSpec relay (relay.after s'.box.cursor) l s'
        (receiveAllFrom (receivePage h selfDid relay world) l s' none) new
        (s'.Steady h selfDid relay world l none)) :
    ∃ new, DrainSpec relay (relay.after (since.getD s.box.cursor)) left s
      (receiveAllFrom (receivePage h selfDid relay world) left s since) new
      (s.Steady h selfDid relay world left since) := by
  generalize hrest : relay.after (since.getD s.box.cursor) = rest
  have hspec := receivePage_spec h selfDid world s since hrest
  cases hres : receivePage h selfDid relay world s since with
  | mk s1 reply =>
      rw [hres] at hspec
      obtain ⟨hpulled, hbox, ⟨hbreaks, hnone, hsurfaced⟩ |
        ⟨hfine, messages, hsome, hsurfaced, hempty, hseqs⟩⟩ := hspec
      · simp only at hnone hpulled hsurfaced
        subst hnone
        have hloop : receiveAllFrom (receivePage h selfDid relay world) left s
            since = ⟨s1, [], 1, false, true⟩ := by
          unfold receiveAllFrom
          rw [hres]
        have hnot : ¬ s.Steady h selfDid relay world left since := by
          cases left with
          | zero => simp [steady_zero, hbreaks]
          | succ left => simp [steady_succ, hbreaks]
        rw [hloop]
        exact ⟨_, DrainSpec.broken hpulled hsurfaced hnot⟩
      · simp only at hsome hpulled hsurfaced hbox
        subst hsome
        have hstop : (relay.left rest = [] ∨ left = 0 ∨ messages = []) →
            receiveAllFrom (receivePage h selfDid relay world) left s since =
              ⟨s1, messages, 1, !(relay.left rest).isEmpty, false⟩ := by
          intro hend
          unfold receiveAllFrom
          rw [hres]
          rcases hend with hnil | hzero | hnil
          · simp [hnil]
          · subst hzero
            simp
          · simp [hnil]
        cases left with
        | zero =>
            rw [hstop (Or.inr (Or.inl rfl))]
            refine ⟨_, DrainSpec.stop hpulled hsurfaced hseqs ?_⟩
            simp [steady_zero, hfine]
        | succ l =>
            by_cases hmore : relay.left rest = []
            · rw [hstop (Or.inl hmore)]
              refine ⟨_, DrainSpec.stop hpulled hsurfaced hseqs ?_⟩
              simp [steady_succ, hfine, hrest, hmore]
            · by_cases hnil : messages = []
              · rw [hstop (Or.inr (Or.inr hnil))]
                refine ⟨_, DrainSpec.stop hpulled hsurfaced hseqs ?_⟩
                have hquiet : surfacesAny h selfDid s.box
                    (s.call relay world since).arrivals = false := by
                  rw [hnil] at hempty
                  simpa using hempty.symm
                simp [steady_succ, hfine, hrest, hmore, hquiet]
              · obtain ⟨new, hd⟩ := ih l rfl s1
                have hloop : receiveAllFrom
                    (receivePage h selfDid relay world) (l + 1) s since =
                    { receiveAllFrom (receivePage h selfDid relay world) l s1
                        none with
                      messages := messages ++ (receiveAllFrom
                        (receivePage h selfDid relay world) l s1 none).messages
                      pages := (receiveAllFrom
                        (receivePage h selfDid relay world) l s1 none).pages
                          + 1 } := by
                  rw [receiveAllFrom]
                  rw [hres]
                  simp [hmore, hnil]
                rw [hloop]
                have hloud : surfacesAny h selfDid s.box
                    (s.call relay world since).arrivals = true := by
                  have hno : messages.isEmpty = false := by
                    simpa using hnil
                  rw [hno] at hempty
                  simpa using hempty.symm
                refine ⟨_, DrainSpec.next ?_ (after_suffix relay _) hpulled
                  hsurfaced hseqs hmore hd ?_⟩
                · rw [← hrest]
                  exact after_suffix relay _
                · rw [steady_succ, hrest, hres, hbox]
                  simp [hfine, hmore, hloud]

theorem drainSpec (h : MailHost) (selfDid : String) (relay : RelayInbox)
    (world : PullWorld) (left : Nat) : ∀ (s : DrainState) (since : Option Int),
    ∃ new, DrainSpec relay (relay.after (since.getD s.box.cursor)) left s
      (receiveAllFrom (receivePage h selfDid relay world) left s since) new
      (s.Steady h selfDid relay world left since) := by
  induction left with
  | zero =>
      intro s since
      exact drainSpec_page 0 s since fun l hl => by omega
  | succ left ih =>
      intro s since
      refine drainSpec_page (left + 1) s since fun l hl s' => ?_
      obtain rfl : left = l := by omega
      exact ih s' none

end Drain

/-! ## The bound -/

theorem receiveAllFrom_pages {σ : Type*}
    (receiveFn : σ → Option Int → σ × Option PageReply) (left : Nat) :
    ∀ s since, 1 ≤ (receiveAllFrom receiveFn left s since).pages ∧
      (receiveAllFrom receiveFn left s since).pages ≤ left + 1 := by
  induction left with
  | zero =>
      intro s since
      unfold receiveAllFrom
      split
      · exact ⟨Nat.le_refl 1, Nat.le_refl 1⟩
      · split <;> exact ⟨Nat.le_refl 1, Nat.le_refl 1⟩
  | succ left ih =>
      intro s since
      unfold receiveAllFrom
      split
      · exact ⟨Nat.le_refl 1, by simp⟩
      · rename_i s' page _
        split
        · have hrest := ih s' none
          simp only
          omega
        · exact ⟨Nat.le_refl 1, by simp⟩

/-- A relay that always has more. -/
def endlessRelay : Unit → Option Int → Unit × Option PageReply :=
  fun s _ => (s, some ⟨[], true⟩)

theorem receiveAll_pages_iff (maxPages : Nat) :
    (∀ (σ : Type) (receiveFn : σ → Option Int → σ × Option PageReply) s since,
      (receiveAll receiveFn maxPages s since).pages ≤ maxPages) ↔
      1 ≤ maxPages := by
  constructor
  · intro hall
    have hbound := hall Unit endlessRelay () none
    have hone := (receiveAllFrom_pages endlessRelay (maxPages - 1) () none).1
    unfold receiveAll at hbound
    omega
  · intro hone σ receiveFn s since
    have hbound := (receiveAllFrom_pages receiveFn (maxPages - 1) s since).2
    unfold receiveAll
    omega

/-! ## The backlog -/

/-- A mailbox before its first pull. -/
def DrainState.before (box : Mailbox) : DrainState := ⟨box, 0, [], []⟩

/-- Whatever the relay holds and how it cuts it into pages, whatever happens
around each record and each write: the backlog is drained exactly where every
page that others may follow surfaces a message, ends without an exception and
leaves the cursor at its end. And the loop ends after `maxPages` pages for
every relay exactly where that is not `0`. -/
theorem receive_all_drains_iff (h : MailHost) (selfDid : String)
    (relay : RelayInbox) (world : PullWorld) (maxPages : Nat) (box : Mailbox)
    (since : Option Int) :
    (DrainsBacklog relay (relay.after (since.getD box.cursor)) maxPages
        (receiveAll (receivePage h selfDid relay world) maxPages
          (.before box) since) ↔
      (DrainState.before box).Steady h selfDid relay world (maxPages - 1)
        since) ∧
    ((∀ (σ : Type) (receiveFn : σ → Option Int → σ × Option PageReply) s since,
        (receiveAll receiveFn maxPages s since).pages ≤ maxPages) ↔
      1 ≤ maxPages) := by
  refine ⟨?_, receiveAll_pages_iff maxPages⟩
  obtain ⟨new, hd⟩ := drainSpec h selfDid relay world (maxPages - 1)
    (.before box) since
  change DrainSpec _ _ _ _
    (receiveAll (receivePage h selfDid relay world) maxPages (.before box)
      since) new _ at hd
  generalize receiveAll (receivePage h selfDid relay world) maxPages
    (.before box) since = d at hd
  have hpulled : d.state.pulled = new := hd.pulled
  have hreport : d.hasMore maxPages =
      (d.lastMore && decide (maxPages - 1 + 1 ≤ d.pages)) := by
    have hpages := hd.pages
    have hsame : decide (maxPages ≤ d.pages) =
        decide (maxPages - 1 + 1 ≤ d.pages) := by
      rw [decide_eq_decide]
      omega
    unfold DrainReply.hasMore
    rw [hsame]
  constructor
  · rintro ⟨hreturns, ⟨rest, hrest, hmore⟩, -, -, -⟩
    rw [hpulled] at hrest
    rw [hreport] at hmore
    exact hd.drains.mp ⟨hreturns, rest, hrest, hmore⟩
  · intro hsteady
    obtain ⟨hreturns, rest, hrest, hmore⟩ := hd.drains.mpr hsteady
    refine ⟨hreturns, ⟨rest, ?_, ?_⟩, hd.surfaced.symm, ?_, ?_⟩
    · rw [hpulled]
      exact hrest
    · rw [hreport]
      exact hmore
    · rw [hpulled]
      exact hd.seqs
    · intro hfits
      rw [hpulled]
      cases maxPages with
      | zero => exact absurd hfits (by simp [RelayInbox.Fits])
      | succ n => exact hd.drained hsteady hfits

/-! ## A page that surfaces nothing -/

/-- A mailbox with one sender blocked. -/
def blockingBox : Mailbox :=
  { oldPinBox with blocked := fun did => did = "did:spam" }

/-- A message of the blocked sender, then one of a contact, each on a page of
its own. -/
def blockedFirst : RelayInbox where
  held := [⟨1, "did:spam", "spam", 0⟩, ⟨2, "did:founder", "envelope", 0⟩]
  ordered := by simp
  size := fun _ => 1
  size_pos := fun _ => Nat.one_pos

/-- Nothing fails. -/
def plainWorld : PullWorld where
  strict := false
  arrival := fun _ m => { newKeyArrival m.seq (.plain "hello") with record := m }
  arrival_record := fun _ _ => rfl
  cursorOk := fun _ => true

/-- The loop ends after the page of the blocked sender, with another message
at the relay, and reports that there is no more. -/
theorem receive_all_stops_early :
    (¬ ∀ (h : MailHost) selfDid relay world maxPages box since,
      relay.Fits maxPages (relay.after (since.getD box.cursor)) →
      DrainsBacklog relay (relay.after (since.getD box.cursor)) maxPages
        (receiveAll (receivePage h selfDid relay world) maxPages
          (.before box) since)) ∧
    (receiveAll (receivePage plainMail "did:here" blockedFirst plainWorld) 100
      (.before blockingBox) none).messages = [] ∧
    (receiveAll (receivePage plainMail "did:here" blockedFirst plainWorld) 100
      (.before blockingBox) none).lastMore = true ∧
    (receiveAll (receivePage plainMail "did:here" blockedFirst plainWorld) 100
      (.before blockingBox) none).hasMore 100 = false := by
  have hlast : (receiveAll (receivePage plainMail "did:here" blockedFirst
      plainWorld) 100 (.before blockingBox) none).lastMore = true := by
    decide +kernel
  refine ⟨?_, by decide +kernel, hlast, by decide +kernel⟩
  intro hall
  have hfits : blockedFirst.Fits 100
      (blockedFirst.after ((none : Option Int).getD blockingBox.cursor)) :=
    Or.inr (Or.inl rfl)
  have hdrained := (hall plainMail "did:here" blockedFirst plainWorld 100
    blockingBox none hfits).drained hfits
  rw [hlast] at hdrained
  exact absurd hdrained.1 (by decide)

end AirNote
