import AirNote.Lib.SortedBy
import AirNote.Lib.Trace
import AirNote.Rooms

/-!
# Two members of a room

Members receive the operations of a room in different orders. What a member
derives depends only on which operations were accepted, where the founder's
operations are in one order, the additions of one member agree on its key and
no two names compare equal. And every operation is accepted that is delivered
at least once when what it needs is in the room: a member who gets it too
early drops it.

## Main results

* `rosters_converge` — under these conditions two members derive one state.
* `rosters_diverge` — a grant that arrives after an addition under it.
-/

namespace AirNote

open Lib

/-! ## What a set of operations says -/

/-- A finite number. -/
def JsNumber.isFinite : JsNumber → Bool
  | .finite _ => true
  | _ => false

/-- The operations say one thing, in whatever order they are held: the
creations name one founder, whose operations are in one order; no two
identifiers that are added compare equal; and the additions that count for a
member the founder says nothing of carry one key. -/
structure Convergent (h : RoomHost) (now : Int) (founderDid : Option String)
    (S : List RoomOp) : Prop where
  oneFounder : ∀ c ∈ S, c.type = .create → c.founderDid = founderDid
  numbered : ∀ o ∈ S, o.issuerDid = founderDid →
    (h.number o.founderSeq).isFinite = true
  distinct : ∀ a ∈ S, ∀ b ∈ S, a.issuerDid = founderDid →
    b.issuerDid = founderDid → founderSeqCmp h a b = .eq → a = b
  namesApart : ∀ a ∈ S, ∀ b ∈ S, a.type = .add → b.type = .add →
    h.localeCompare (didText a.memberDid) (didText b.memberDid) = .eq →
    a.memberDid = b.memberDid
  oneKey : ∀ a ∈ S, ∀ b ∈ S, ∀ did,
    latestFounderWord (founderOps h founderDid S) did = none →
    a.validAdminAdd h now (founderOps h founderDid S) founderDid did = true →
    b.validAdminAdd h now (founderOps h founderDid S) founderDid did = true →
    a.memberPubkey = b.memberPubkey

/-- A list of the operations, in some order and with repetitions; of the
creations it may hold any. -/
structure HoldsAll (S ops : List RoomOp) : Prop where
  only : ∀ o ∈ ops, o ∈ S
  all : ∀ o ∈ S, o.type ≠ .create → o ∈ ops

theorem HoldsAll.refl (S : List RoomOp) : HoldsAll S S :=
  ⟨fun _ h => h, fun _ h _ => h⟩

theorem HoldsAll.mem_iff {S ops : List RoomOp} (h : HoldsAll S ops) {o : RoomOp}
    (ho : o.type ≠ .create) : o ∈ ops ↔ o ∈ S :=
  ⟨h.only o, fun hmem => h.all o hmem ho⟩

/-- What `deriveState` says once there is a creation. -/
def stateFrom (h : RoomHost) (now : Int) (founderDid : Option String)
    (ops : List RoomOp) : RoomState :=
  { members := sortBy (fun a b => h.localeCompare (didText a.did)
        (didText b.did))
      ((candidates ops).filterMap
        (resolveMember h now ops (founderOps h founderDid ops) founderDid))
    admins := admins h now (founderOps h founderDid ops)
    halted := isHalted (founderOps h founderDid ops)
    founderDid := founderDid }

theorem deriveState_eq {h : RoomHost} {now : Int} {ops : List RoomOp}
    {create : RoomOp} (hcreate : createOp ops = some create) :
    deriveState h now ops = stateFrom h now create.founderDid ops := by
  unfold deriveState
  rw [hcreate]
  rfl

section Same

variable {h : RoomHost} {now : Int} {founderDid : Option String}
  {S ops : List RoomOp}

/-- On numbered operations the comparison is the one of number and signature.
-/
theorem founderSeqCmp_eq {a b : RoomOp}
    (ha : (h.number a.founderSeq).isFinite = true)
    (hb : (h.number b.founderSeq).isFinite = true) (val : JsNumber → ℚ)
    (hval : ∀ q, val (.finite q) = q) :
    founderSeqCmp h a b =
      compareLex (compareOn fun o : RoomOp => val (h.number o.founderSeq))
        (fun a b : RoomOp =>
          h.localeCompare (a.opSig.getD "") (b.opSig.getD "")) a b := by
  unfold founderSeqCmp compareLex compareOn
  cases hx : h.number a.founderSeq with
  | finite x =>
      cases hy : h.number b.founderSeq with
      | finite y =>
          simp only [JsNumber.diff, hx, hy, hval]
          cases compare x y <;> rfl
      | nan => rw [hy] at hb; cases hb
      | negInf => rw [hy] at hb; cases hb
      | posInf => rw [hy] at hb; cases hb
  | nan => rw [hx] at ha; cases ha
  | negInf => rw [hx] at ha; cases ha
  | posInf => rw [hx] at ha; cases ha

/-- The founder's operations are ordered. -/
theorem Convergent.orders (hS : Convergent h now founderDid S) :
    SortedBy.Orders (fun a b => founderSeqCmp h a b ≠ .gt)
      {o | o ∈ S ∧ o.issuerDid = founderDid} := by
  let val : JsNumber → ℚ := fun n =>
    match n with
    | .finite q => q
    | _ => 0
  have hsig : Std.TransCmp fun a b : RoomOp =>
      h.localeCompare (a.opSig.getD "") (b.opSig.getD "") :=
    SortedBy.transCmp_comap h.locale_trans fun o : RoomOp => o.opSig.getD ""
  have hcmp : ∀ a ∈ {o | o ∈ S ∧ o.issuerDid = founderDid},
      ∀ b ∈ {o | o ∈ S ∧ o.issuerDid = founderDid},
      founderSeqCmp h a b =
        compareLex (compareOn fun o : RoomOp => val (h.number o.founderSeq))
          (fun a b : RoomOp =>
            h.localeCompare (a.opSig.getD "") (b.opSig.getD "")) a b :=
    fun a ha b hb => founderSeqCmp_eq (hS.numbered a ha.1 ha.2)
      (hS.numbered b hb.1 hb.2) val fun _ => rfl
  have hlex : Std.TransCmp (compareLex
      (compareOn fun o : RoomOp => val (h.number o.founderSeq))
      (fun a b : RoomOp =>
        h.localeCompare (a.opSig.getD "") (b.opSig.getD ""))) := inferInstance
  apply (SortedBy.orders_of_cmp hlex fun a ha b hb heq => hS.distinct a ha.1 b
    hb.1 ha.2 hb.2 ((hcmp a ha b hb).trans heq)).congr
  intro a ha b hb
  rw [hcmp a ha b hb]

theorem Convergent.sorted (hS : Convergent h now founderDid S)
    (hops : HoldsAll S ops) :
    (founderOps h founderDid ops).Pairwise
      fun a b => founderSeqCmp h a b ≠ .gt := by
  apply SortedBy.pairwise_sort hS.orders
  intro o ho
  rw [List.mem_filter, decide_eq_true_eq] at ho
  exact ⟨hops.only o ho.1, ho.2⟩

/-- The founder's operations of a kind that no creation is of. -/
theorem mem_filter_founderOps (hops : HoldsAll S ops) (p : RoomOp → Bool)
    (hp : ∀ o, p o = true → o.type ≠ .create) (o : RoomOp) :
    o ∈ (founderOps h founderDid ops).filter p ↔
      o ∈ (founderOps h founderDid S).filter p := by
  rw [List.mem_filter, List.mem_filter, mem_founderOps, mem_founderOps]
  constructor
  · rintro ⟨⟨hmem, hissuer⟩, hpo⟩
    exact ⟨⟨hops.only o hmem, hissuer⟩, hpo⟩
  · rintro ⟨⟨hmem, hissuer⟩, hpo⟩
    exact ⟨⟨hops.all o hmem (hp o hpo), hissuer⟩, hpo⟩

/-- The founder's last word of a kind. -/
theorem Convergent.lastWord (hS : Convergent h now founderDid S)
    (hops : HoldsAll S ops) (p : RoomOp → Bool)
    (hp : ∀ o, p o = true → o.type ≠ .create) :
    ((founderOps h founderDid ops).filter p).getLast? =
      ((founderOps h founderDid S).filter p).getLast? := by
  apply SortedBy.getLast?_congr hS.orders ?_ ((hS.sorted hops).filter p)
    ((hS.sorted (HoldsAll.refl S)).filter p) (mem_filter_founderOps hops p hp)
  intro o ho
  have hmem := mem_founderOps.1 (List.mem_of_mem_filter ho)
  exact ⟨hops.only o hmem.1, hmem.2⟩

theorem not_create_of_aboutMandate {o : RoomOp} (ho : o.aboutMandate = true) :
    o.type ≠ .create := by
  intro hcreate
  unfold RoomOp.aboutMandate at ho
  rw [hcreate] at ho
  simp at ho

theorem Convergent.activeMandate_eq (hS : Convergent h now founderDid S)
    (hops : HoldsAll S ops) (mid : Option String) :
    activeMandate h now (founderOps h founderDid ops) mid =
      activeMandate h now (founderOps h founderDid S) mid := by
  unfold activeMandate mandateLatest
  rw [List.filter_filter, List.filter_filter, hS.lastWord hops]
  intro o ho
  rw [Bool.and_eq_true] at ho
  exact not_create_of_aboutMandate ho.2

theorem Convergent.latestFounderWord_eq (hS : Convergent h now founderDid S)
    (hops : HoldsAll S ops) (did : Option String) :
    latestFounderWord (founderOps h founderDid ops) did =
      latestFounderWord (founderOps h founderDid S) did := by
  apply hS.lastWord hops
  intro o ho hcreate
  simp [hcreate] at ho

theorem Convergent.isHalted_eq (hS : Convergent h now founderDid S)
    (hops : HoldsAll S ops) :
    isHalted (founderOps h founderDid ops) =
      isHalted (founderOps h founderDid S) := by
  unfold isHalted
  rw [hS.lastWord hops]
  intro o ho hcreate
  simp [hcreate] at ho

theorem Convergent.mandateIds_eq (hS : Convergent h now founderDid S)
    (hops : HoldsAll S ops) :
    mandateIds (founderOps h founderDid ops) =
      mandateIds (founderOps h founderDid S) := by
  unfold mandateIds
  have hdups : ((founderOps h founderDid ops).filter
      RoomOp.aboutMandate).eraseDups =
      ((founderOps h founderDid S).filter RoomOp.aboutMandate).eraseDups := by
    apply SortedBy.eraseDups_congr hS.orders ?_
      ((hS.sorted hops).filter _) ((hS.sorted (HoldsAll.refl S)).filter _)
      (mem_filter_founderOps hops _ fun _ => not_create_of_aboutMandate)
    intro o ho
    have hmem := mem_founderOps.1 (List.mem_of_mem_filter ho)
    exact ⟨hops.only o hmem.1, hmem.2⟩
  rw [← SortedBy.eraseDups_map_eraseDups, hdups,
    SortedBy.eraseDups_map_eraseDups]

theorem Convergent.admins_eq (hS : Convergent h now founderDid S)
    (hops : HoldsAll S ops) :
    admins h now (founderOps h founderDid ops) =
      admins h now (founderOps h founderDid S) := by
  unfold admins
  rw [hS.mandateIds_eq hops]
  congr 1
  apply List.filterMap_congr
  intro mid _
  rw [hS.activeMandate_eq hops]

theorem Convergent.validAdminAdd_eq (hS : Convergent h now founderDid S)
    (hops : HoldsAll S ops) (did : Option String) (o : RoomOp) :
    o.validAdminAdd h now (founderOps h founderDid ops) founderDid did =
      o.validAdminAdd h now (founderOps h founderDid S) founderDid did := by
  unfold RoomOp.validAdminAdd
  rw [hS.activeMandate_eq hops]

theorem not_create_of_validAdminAdd {sorted : List RoomOp}
    {did : Option String} {o : RoomOp}
    (ho : o.validAdminAdd h now sorted founderDid did = true) :
    o.type ≠ .create := by
  intro hcreate
  unfold RoomOp.validAdminAdd at ho
  simp [hcreate] at ho

/-- Each candidate is resolved alike. -/
theorem Convergent.resolveMember_eq (hS : Convergent h now founderDid S)
    (hops : HoldsAll S ops) (did : Option String) :
    resolveMember h now ops (founderOps h founderDid ops) founderDid did =
      resolveMember h now S (founderOps h founderDid S) founderDid did := by
  unfold resolveMember
  rw [hS.latestFounderWord_eq hops]
  cases hword : latestFounderWord (founderOps h founderDid S) did with
  | some latest => rfl
  | none =>
      simp only
      have hsame : RoomOp.validAdminAdd h now (founderOps h founderDid ops)
          founderDid did = RoomOp.validAdminAdd h now
            (founderOps h founderDid S) founderDid did :=
        funext (hS.validAdminAdd_eq hops did)
      rw [hsame]
      cases hhere : ops.find? (RoomOp.validAdminAdd h now
          (founderOps h founderDid S) founderDid did) with
      | none =>
          have hnone : S.find? (RoomOp.validAdminAdd h now
              (founderOps h founderDid S) founderDid did) = none := by
            rw [List.find?_eq_none] at hhere ⊢
            intro o ho hvalid
            exact hhere o (hops.all o ho (not_create_of_validAdminAdd hvalid))
              hvalid
          rw [hnone]
      | some o =>
          have hvalid := List.find?_some hhere
          have hmem := hops.only o (List.mem_of_find?_eq_some hhere)
          have hsome : (S.find? (RoomOp.validAdminAdd h now
              (founderOps h founderDid S) founderDid did)).isSome := by
            rw [List.find?_isSome]
            exact ⟨o, hmem, hvalid⟩
          obtain ⟨o', ho'⟩ := Option.isSome_iff_exists.mp hsome
          have hkey := hS.oneKey o hmem o' (List.mem_of_find?_eq_some ho') did
            hword hvalid (List.find?_some ho')
          rw [ho', Option.map_some, Option.map_some, hkey]

/-- The candidates are the same, in some order. -/
theorem candidates_perm (hops : HoldsAll S ops) :
    (candidates ops).Perm (candidates S) := by
  apply (List.perm_ext_iff_of_nodup (SortedBy.nodup_eraseDups _)
    (SortedBy.nodup_eraseDups _)).mpr
  intro did
  show did ∈ candidates ops ↔ did ∈ candidates S
  rw [mem_candidates, mem_candidates]
  constructor
  · rintro ⟨o, ho, hadd, hdid⟩
    exact ⟨o, hops.only o ho, hadd, hdid⟩
  · rintro ⟨o, ho, hadd, hdid⟩
    exact ⟨o, hops.all o ho (by rw [hadd]; exact nofun), hadd, hdid⟩

/-- **Everyone derives one state.** -/
theorem Convergent.stateFrom_eq (hS : Convergent h now founderDid S)
    (hops : HoldsAll S ops) :
    stateFrom h now founderDid ops = stateFrom h now founderDid S := by
  unfold stateFrom
  rw [hS.admins_eq hops, hS.isHalted_eq hops]
  congr 1
  unfold sortBy
  have hresolve : resolveMember h now ops (founderOps h founderDid ops)
      founderDid = resolveMember h now S (founderOps h founderDid S)
        founderDid := funext (hS.resolveMember_eq hops)
  rw [hresolve]
  have hnames : Std.TransCmp fun a b : Member =>
      h.localeCompare (didText a.did) (didText b.did) :=
    SortedBy.transCmp_comap h.locale_trans fun m : Member => didText m.did
  have horders := SortedBy.orders_of_cmp hnames (S := {m | ∃ did ∈
      candidates ops, resolveMember h now S (founderOps h founderDid S)
        founderDid did = some m}) ?_
  · apply SortedBy.insertionSort_congr horders ?_
      ((candidates_perm hops).filterMap _)
    intro m hm
    exact List.mem_filterMap.mp hm
  · rintro a ⟨did, hdid, ha⟩ b ⟨did', hdid', hb⟩ heq
    obtain ⟨o, ho, hadd, hodid⟩ := mem_candidates.1 hdid
    obtain ⟨o', ho', hadd', hodid'⟩ := mem_candidates.1 hdid'
    rw [did_of_resolveMember ha, did_of_resolveMember hb, ← hodid, ← hodid']
      at heq
    have hsame := hS.namesApart o (hops.only o ho) o' (hops.only o' ho') hadd
      hadd' heq
    rw [hodid, hodid'] at hsame
    rw [hsame, hb, Option.some.injEq] at ha
    exact ha.symm

end Same

/-! ## What a member holds -/

/-- What the delivery needs is in the room: for a creation, that there is no
such room and that its signature and its founder's key are good; for the
rest, the key it is checked against, under which its signature is good. -/
def isReady (h : RoomHost) (id : String) (rooms : RoomStore) (d : Delivery) :
    Bool :=
  match rooms id with
  | none => d.op.opens h d.resolved
  | some room => d.op.type ≠ .create && room.accepts h d.op

/-- Somewhere in the deliveries one arrives that the member is ready for. -/
def ArrivesReady (h : RoomHost) (selfDid id : String) (rooms : RoomStore)
    (ds : List Delivery) (ok : RoomOp → Prop) : Prop :=
  ∃ before d after, ds = before ++ d :: after ∧ ok d.op ∧
    isReady h id (Trace.run (takeIn h selfDid) rooms before) d = true

/-- The deliveries of one member: of this room it gets operations of the set
only, a creation that it can accept, and each other operation at least once
when what it needs is there. -/
structure Hears (h : RoomHost) (selfDid id : String) (S : List RoomOp)
    (rooms : RoomStore) (ds : List Delivery) : Prop where
  only : ∀ d ∈ ds, d.op.roomId.getD "" = id → d.op ∈ S
  created : ArrivesReady h selfDid id rooms ds fun o => o ∈ S ∧
    o.type = .create
  each : ∀ o ∈ S, o.type ≠ .create →
    ArrivesReady h selfDid id rooms ds (· = o)

/-- The room holds operations of the set, the creation that names its founder
among them. -/
def RoomOf (id : String) (S : List RoomOp) (rooms : RoomStore) : Prop :=
  ∀ room, rooms id = some room → (∀ o ∈ room.ops, o ∈ S) ∧
    ∃ create, createOp room.ops = some create ∧
      create.founderDid = room.founderDid

section Deliveries

variable {h : RoomHost} {selfDid id : String} {S : List RoomOp}
  {rooms : RoomStore}

/-- Step: what the room holds stays of the set. -/
theorem roomOf_takeIn (d : Delivery) (hrooms : RoomOf id S rooms)
    (hd : d.op.roomId.getD "" = id → d.op ∈ S) :
    RoomOf id S (takeIn h selfDid rooms d) := by
  intro room hroom
  by_cases hid : d.op.roomId.getD "" = id
  · unfold takeIn at hroom
    rcases ingestControlOp_cases h selfDid rooms d.op d.resolved with hsame |
      ⟨-, -, hopens, hsame⟩ | ⟨-, old, hold, -, -, hsame⟩
    · rw [hsame] at hroom
      exact hrooms room hroom
    · rw [hsame, hid] at hroom
      simp only [Function.update_self, Option.some.injEq] at hroom
      have htype : d.op.type = .create := by
        unfold RoomOp.opens at hopens
        simp only [Bool.and_eq_true, decide_eq_true_eq] at hopens
        exact hopens.1.1
      rw [← hroom]
      constructor
      · intro o ho
        rw [List.mem_singleton.mp ho]
        exact hd hid
      · refine ⟨d.op, ?_, rfl⟩
        show createOp [d.op] = some d.op
        unfold createOp
        rw [List.find?_cons_of_pos (by rw [htype]; rfl)]
    · rw [hsame, hid] at hroom
      simp only [Function.update_self, Option.some.injEq] at hroom
      rw [hid] at hold
      obtain ⟨hmem, create, hcreate, hfounder⟩ := hrooms old hold
      rw [← hroom]
      constructor
      · intro o ho
        rcases Room.mem_appendOp ho with ho | rfl
        · exact hmem o ho
        · exact hd hid
      · refine ⟨create, createOp_appendOp hcreate, ?_⟩
        rw [Room.appendOp_founderDid]
        exact hfounder
  · unfold takeIn at hroom
    rw [ingestControlOp_other hid] at hroom
    exact hrooms room hroom

/-- Step: a room stays, and so do its operations. -/
theorem takeIn_keeps (h : RoomHost) (selfDid : String) (d : Delivery)
    {room : Room} (hroom : rooms id = some room) :
    ∃ room', takeIn h selfDid rooms d id = some room' ∧
      ∀ o ∈ room.ops, o ∈ room'.ops := by
  by_cases hid : d.op.roomId.getD "" = id
  · subst hid
    unfold takeIn
    rcases ingestControlOp_cases h selfDid rooms d.op d.resolved with hsame |
      ⟨-, hnone, -, -⟩ | ⟨-, old, hold, -, -, hsame⟩
    · rw [hsame]
      exact ⟨room, hroom, fun _ ho => ho⟩
    · rw [hroom] at hnone
      cases hnone
    · rw [hroom, Option.some.injEq] at hold
      rw [hsame, ← hold]
      exact ⟨room.appendOp h d.op, Function.update_self _ _ _,
        fun _ ho => Room.mem_appendOp_of_mem ho⟩
  · unfold takeIn
    rw [ingestControlOp_other hid]
    exact ⟨room, hroom, fun _ ho => ho⟩

/-- Run: a room stays, and so do its operations. -/
theorem run_keeps (h : RoomHost) (selfDid : String) (ds : List Delivery)
    {room : Room} (hroom : rooms id = some room) :
    ∃ room', Trace.run (takeIn h selfDid) rooms ds id = some room' ∧
      ∀ o ∈ room.ops, o ∈ room'.ops := by
  apply Trace.run_inv (fun s : RoomStore => ∃ room', s id = some room' ∧
    ∀ o ∈ room.ops, o ∈ room'.ops)
  · intro s d hs
    obtain ⟨mid, hmid, hmem⟩ := hs
    obtain ⟨room', hroom', hmem'⟩ :=
      takeIn_keeps h selfDid d hmid
    exact ⟨room', hroom', fun o ho => hmem' o (hmem o ho)⟩
  · exact ⟨room, hroom, fun _ ho => ho⟩

/-- A delivery the member is ready for is in the room afterwards. -/
theorem takeIn_ready (selfDid : String) {d : Delivery}
    (hid : d.op.roomId.getD "" = id)
    (hne : id ≠ "") (hids : ∀ a ∈ S, ∀ b ∈ S, h.opId a = h.opId b → a = b)
    (hd : d.op ∈ S) (hrooms : RoomOf id S rooms)
    (hready : isReady h id rooms d = true) :
    ∃ room, takeIn h selfDid rooms d id = some room ∧ d.op ∈ room.ops := by
  subst hid
  unfold takeIn
  unfold isReady at hready
  cases hroom : rooms (d.op.roomId.getD "") with
  | none =>
      rw [hroom] at hready
      rw [ingestControlOp_new hne hroom, if_pos hready]
      exact ⟨roomOfCreate d.op, Function.update_self _ _ _,
        List.mem_singleton_self d.op⟩
  | some room =>
      rw [hroom] at hready
      simp only [Bool.and_eq_true, decide_eq_true_eq] at hready
      rw [ingestControlOp_known hne hroom, if_pos hready]
      refine ⟨room.appendOp h d.op, Function.update_self _ _ _, ?_⟩
      apply Room.self_mem_appendOp
      intro o ho heq
      exact hids o ((hrooms room hroom).1 o ho) d.op hd heq

/-- Run: the room holds operations of the set. -/
theorem roomOf_run {ds : List Delivery} (hrooms : RoomOf id S rooms)
    (honly : ∀ d ∈ ds, d.op.roomId.getD "" = id → d.op ∈ S) :
    RoomOf id S (Trace.run (takeIn h selfDid) rooms ds) := by
  induction ds generalizing rooms with
  | nil => exact hrooms
  | cons d ds ih =>
      rw [Trace.run_cons]
      exact ih (roomOf_takeIn d hrooms (honly d List.mem_cons_self))
        fun d' hd' => honly d' (List.mem_cons_of_mem d hd')

/-- Run: what arrives when the member is ready for it is there at the end. -/
theorem run_arrives {ds : List Delivery} {ok : RoomOp → Prop}
    (hrooms : RoomOf id S rooms)
    (honly : ∀ d ∈ ds, d.op.roomId.getD "" = id → d.op ∈ S)
    (hne : id ≠ "") (hids : ∀ a ∈ S, ∀ b ∈ S, h.opId a = h.opId b → a = b)
    (hok : ∀ o, ok o → o ∈ S ∧ o.roomId.getD "" = id)
    (harrives : ArrivesReady h selfDid id rooms ds ok) :
    ∃ room, Trace.run (takeIn h selfDid) rooms ds id = some room ∧
      ∃ o, ok o ∧ o ∈ room.ops := by
  obtain ⟨before, d, after, rfl, hd, hready⟩ := harrives
  have hbefore : RoomOf id S (Trace.run (takeIn h selfDid) rooms before) :=
    roomOf_run hrooms fun d' hd' => honly d' (List.mem_append_left _ hd')
  obtain ⟨room, hroom, hmem⟩ := takeIn_ready selfDid
    (hok d.op hd).2 hne hids (hok d.op hd).1 hbefore hready
  rw [Trace.run_append, Trace.run_cons]
  obtain ⟨room', hroom', hkeeps⟩ :=
    run_keeps h selfDid after hroom
  exact ⟨room', hroom', d.op, hd, hkeeps d.op hmem⟩

/-- **A member that hears the set holds it.** -/
theorem Hears.holds {ds : List Delivery}
    (hhears : Hears h selfDid id S rooms ds) (hnone : rooms id = none)
    (hne : id ≠ "") (hS : ∀ o ∈ S, o.roomId.getD "" = id)
    (hids : ∀ a ∈ S, ∀ b ∈ S, h.opId a = h.opId b → a = b) :
    ∃ room create, Trace.run (takeIn h selfDid) rooms ds id = some room ∧
      createOp room.ops = some create ∧ create ∈ S ∧ HoldsAll S room.ops := by
  have hrooms : RoomOf id S rooms := by
    intro room hroom
    rw [hnone] at hroom
    cases hroom
  obtain ⟨room, hroom, -⟩ := run_arrives hrooms hhears.only hne hids
    (fun o ho => ⟨ho.1, hS o ho.1⟩) hhears.created
  obtain ⟨honly, create, hcreate, -⟩ :=
    roomOf_run hrooms hhears.only room hroom
  refine ⟨room, create, hroom, hcreate, honly create (createOp_mem hcreate).1,
    honly, ?_⟩
  intro o ho htype
  obtain ⟨room', hroom', o', rfl, hmem⟩ := run_arrives hrooms hhears.only hne
    hids (fun o' ho' => by rw [ho']; exact ⟨ho, hS o ho⟩)
    (hhears.each o ho htype)
  rw [hroom, Option.some.injEq] at hroom'
  rw [hroom']
  exact hmem

end Deliveries

/-! ## Convergence -/

/-- The operations of the set, in whatever order and however often, say one
thing. -/
theorem Convergent.deriveState_eq_of_mem {h : RoomHost} {now : Int}
    {founderDid : Option String} {S ops ops' : List RoomOp}
    (hS : Convergent h now founderDid S) (hops : ∀ o, o ∈ ops ↔ o ∈ S)
    (hops' : ∀ o, o ∈ ops' ↔ o ∈ S) :
    deriveState h now ops = deriveState h now ops' := by
  have hholds : HoldsAll S ops :=
    ⟨fun o ho => (hops o).mp ho, fun o ho _ => (hops o).mpr ho⟩
  have hholds' : HoldsAll S ops' :=
    ⟨fun o ho => (hops' o).mp ho, fun o ho _ => (hops' o).mpr ho⟩
  have hsame : (createOp ops).isSome = (createOp ops').isSome := by
    unfold createOp
    rw [Bool.eq_iff_iff, List.find?_isSome, List.find?_isSome]
    simp only [hops, hops']
  cases hcreate : createOp ops with
  | none =>
      rw [hcreate] at hsame
      have hcreate' : createOp ops' = none :=
        Option.not_isSome_iff_eq_none.mp (by rw [← hsame]; simp)
      unfold deriveState
      rw [hcreate, hcreate']
  | some create =>
      rw [hcreate] at hsame
      obtain ⟨create', hcreate'⟩ := Option.isSome_iff_exists.mp hsame.symm
      have hmem := createOp_mem hcreate
      have hmem' := createOp_mem hcreate'
      rw [deriveState_eq hcreate, deriveState_eq hcreate',
        hS.oneFounder create (hholds.only create hmem.1) hmem.2,
        hS.oneFounder create' (hholds'.only create' hmem'.1) hmem'.2,
        hS.stateFrom_eq hholds, hS.stateFrom_eq hholds']

/-- A member that hears the set derives what the set says. -/
theorem Convergent.deriveRoom_eq {h : RoomHost} {now : Int}
    {founderDid : Option String} {S : List RoomOp} {selfDid id : String}
    {rooms : RoomStore} {ds : List Delivery}
    (hS : Convergent h now founderDid S)
    (hhears : Hears h selfDid id S rooms ds) (hnone : rooms id = none)
    (hne : id ≠ "") (hid : ∀ o ∈ S, o.roomId.getD "" = id)
    (hids : ∀ a ∈ S, ∀ b ∈ S, h.opId a = h.opId b → a = b) :
    deriveRoom h now (Trace.run (takeIn h selfDid) rooms ds) id =
      some (stateFrom h now founderDid S) := by
  obtain ⟨room, create, hroom, hcreate, hmem, hholds⟩ :=
    hhears.holds hnone hne hid hids
  unfold deriveRoom
  rw [hroom, Option.map_some, deriveState_eq hcreate,
    hS.oneFounder create hmem (createOp_mem hcreate).2,
    hS.stateFrom_eq hholds]

/-- **Rosters converge.** The operations of a room say one thing, however a
list of them is ordered and repeated. Two members who were in no such room,
and who receive the operations in different orders among those of other
rooms, each at least once when what it needs is there, derive one state and
hash it to one digest. -/
theorem rosters_converge (h : RoomHost) (now : Int)
    (founderDid : Option String) (S : List RoomOp)
    (hS : Convergent h now founderDid S) :
    (∀ ops ops' : List RoomOp, (∀ o, o ∈ ops ↔ o ∈ S) →
      (∀ o, o ∈ ops' ↔ o ∈ S) →
      deriveState h now ops = deriveState h now ops') ∧
    ∀ (id self other : String) (rooms rooms' : RoomStore)
      (here there : List Delivery), id ≠ "" →
      (∀ o ∈ S, o.roomId.getD "" = id) →
      (∀ a ∈ S, ∀ b ∈ S, h.opId a = h.opId b → a = b) →
      rooms id = none → rooms' id = none →
      Hears h self id S rooms here → Hears h other id S rooms' there →
      deriveRoom h now (Trace.run (takeIn h self) rooms here) id =
        deriveRoom h now (Trace.run (takeIn h other) rooms' there) id ∧
      (deriveRoom h now (Trace.run (takeIn h self) rooms here) id).map
          (rosterDigest h) =
        (deriveRoom h now (Trace.run (takeIn h other) rooms' there) id).map
          (rosterDigest h) := by
  constructor
  · intro ops ops' hops hops'
    exact hS.deriveState_eq_of_mem hops hops'
  · intro id self other rooms rooms' here there hne hid hids hnone hnone'
      hhere hthere
    rw [hS.deriveRoom_eq hhere hnone hne hid hids,
      hS.deriveRoom_eq hthere hnone' hne hid hids]
    exact ⟨rfl, rfl⟩

/-! ## An order in which they part -/

/-- A language in which `0` to `3` are numbers and a signature is the name of
its key. -/
def plainHost : RoomHost where
  number := fun text =>
    match text with
    | some "0" => .finite 0
    | some "1" => .finite 1
    | some "2" => .finite 2
    | some "3" => .finite 3
    | _ => .nan
  localeCompare := compare
  locale_trans := inferInstance
  dateParse := fun _ => none
  verifyOp := fun o key => key.isSome && o.opSig = key
  opId := fun o => o.rest
  sha256Jcs := fun members admins halted =>
    String.join (members ++ admins ++ [if halted then "halted" else ""])

/-- An operation with nothing in it. -/
def blankOp (type : RoomOpType) (issuer sig rest : String) : RoomOp where
  type := type
  roomId := some "room"
  issuerDid := some issuer
  founderDid := none
  founderPubkey := none
  name := none
  threadId := none
  mandateId := none
  holderDid := none
  holderPubkey := none
  expiresAt := none
  memberDid := none
  memberPubkey := none
  kind := none
  founderSeq := none
  opSig := some sig
  rest := rest

/-- The founder opens the room. -/
def sampleCreate : RoomOp :=
  { blankOp .create "did:founder" "key:founder" "create" with
    founderDid := some "did:founder"
    founderPubkey := some "key:founder"
    founderSeq := some "0" }

/-- The founder lets an admin add members. -/
def sampleGrant : RoomOp :=
  { blankOp .adminGrant "did:founder" "key:founder" "grant" with
    mandateId := some "mandate"
    holderDid := some "did:admin"
    holderPubkey := some "key:admin"
    founderSeq := some "1" }

/-- The admin adds a member under a key. -/
def sampleAdd (key : String) : RoomOp :=
  { blankOp .add "did:admin" "key:admin" key with
    mandateId := some "mandate"
    memberDid := some "did:member"
    memberPubkey := some key }

/-- A delivery, and a registry that has the founder's key. -/
def sampleDelivery (op : RoomOp) : Delivery := ⟨op, some "key:founder"⟩

/-- Three operations that say one thing. -/
theorem convergent_sample : Convergent plainHost 0 (some "did:founder")
    [sampleCreate, sampleGrant, sampleAdd "key:member"] where
  oneFounder := by decide
  numbered := by decide
  distinct := by decide
  namesApart := by decide
  oneKey := by
    have hone : ∀ o ∈ [sampleCreate, sampleGrant, sampleAdd "key:member"],
        o.type = .add → o.memberPubkey = some "key:member" := by decide
    intro a ha b hb did _ hvalid hvalid'
    unfold RoomOp.validAdminAdd at hvalid hvalid'
    simp only [Bool.and_eq_true, decide_eq_true_eq] at hvalid hvalid'
    rw [hone a ha hvalid.1.1.1.1, hone b hb hvalid'.1.1.1.1]

/-- A member who gets the addition too early hears it again after the grant.
-/
theorem rosters_converge_sample :
    deriveRoom plainHost 0 (Trace.run (takeIn plainHost "did:here")
        (fun _ => none) ([sampleCreate, sampleGrant, sampleAdd "key:member"].map
          sampleDelivery)) "room" =
      deriveRoom plainHost 0 (Trace.run (takeIn plainHost "did:there")
        (fun _ => none) ([sampleCreate, sampleAdd "key:member", sampleGrant,
          sampleAdd "key:member"].map sampleDelivery)) "room" := by
  have hheard : Hears plainHost "did:here" "room"
      [sampleCreate, sampleGrant, sampleAdd "key:member"] (fun _ => none)
      ([sampleCreate, sampleGrant, sampleAdd "key:member"].map
        sampleDelivery) := by
    refine ⟨by decide, ⟨[], sampleDelivery sampleCreate, _, rfl, by decide,
      by decide⟩, ?_⟩
    intro o ho hcreate
    simp only [List.mem_cons, List.not_mem_nil, or_false] at ho
    rcases ho with rfl | rfl | rfl
    · exact absurd rfl hcreate
    · exact ⟨[sampleDelivery sampleCreate], sampleDelivery sampleGrant, _, rfl,
        rfl, rfl⟩
    · exact ⟨[sampleDelivery sampleCreate, sampleDelivery sampleGrant],
        sampleDelivery (sampleAdd "key:member"), _, rfl, rfl, rfl⟩
  have hheard' : Hears plainHost "did:there" "room"
      [sampleCreate, sampleGrant, sampleAdd "key:member"] (fun _ => none)
      ([sampleCreate, sampleAdd "key:member", sampleGrant,
        sampleAdd "key:member"].map sampleDelivery) := by
    refine ⟨by decide, ⟨[], sampleDelivery sampleCreate, _, rfl, by decide,
      by decide⟩, ?_⟩
    intro o ho hcreate
    simp only [List.mem_cons, List.not_mem_nil, or_false] at ho
    rcases ho with rfl | rfl | rfl
    · exact absurd rfl hcreate
    · exact ⟨[sampleDelivery sampleCreate,
        sampleDelivery (sampleAdd "key:member")], sampleDelivery sampleGrant,
        _, rfl, rfl, rfl⟩
    · exact ⟨[sampleDelivery sampleCreate,
        sampleDelivery (sampleAdd "key:member"), sampleDelivery sampleGrant],
        sampleDelivery (sampleAdd "key:member"), _, rfl, rfl, rfl⟩
  exact ((rosters_converge plainHost 0 (some "did:founder") _
    convergent_sample).2 "room" "did:here" "did:there" _ _ _ _ (by decide)
    (by decide) (by decide) rfl rfl hheard hheard').1

/-- Who hears of the grant after the addition under it has one member fewer;
and of two additions of one member by an admin the first counts. -/
theorem rosters_diverge :
    (deriveRoom plainHost 0 (Trace.run (takeIn plainHost "did:here")
        (fun _ => none) ([sampleCreate, sampleGrant, sampleAdd "key:member"].map
          sampleDelivery)) "room").map (rosterDigest plainHost) ≠
      (deriveRoom plainHost 0 (Trace.run (takeIn plainHost "did:there")
        (fun _ => none) ([sampleCreate, sampleAdd "key:member", sampleGrant].map
          sampleDelivery)) "room").map (rosterDigest plainHost) ∧
    deriveState plainHost 0
        [sampleCreate, sampleGrant, sampleAdd "key:a", sampleAdd "key:b"] ≠
      deriveState plainHost 0
        [sampleCreate, sampleGrant, sampleAdd "key:b", sampleAdd "key:a"] := by
  constructor
  · decide
  · decide

end AirNote
