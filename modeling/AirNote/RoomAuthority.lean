import AirNote.RoomConvergence

/-!
# Who decides on a room

The operations that count are the founder's, signed with the key that the
creation pinned, and the additions of agents by the holders of the mandates
in force. An operation of anyone else leaves what is derived as it was, no
admin brings back whom the founder removed last, and with its mandate an
addition loses its effect.

The key of an addition is the one of the first grant of its mandate that is
stored, while what counts in the derivation is that its issuer holds the last
one. Where the founder grants a mandate a second time, to someone else or
under another key, the two part: the first holder can then issue additions in
the name of the second. `HolderSigned` excludes that, and nothing else.

## Main results

* `room_authority` — in every run in which additions are signed with the key
  of every grant of their mandate to their issuer.
* `room_authority_regranted` — a mandate granted a second time.
-/

namespace AirNote

open Lib

/-- The operation grants the mandate that the addition cites to the one who
issues the addition. -/
def RoomOp.grantsTo (g o : RoomOp) : Prop :=
  g.type = .adminGrant ∧ o.type = .add ∧ g.mandateId = o.mandateId ∧
    g.holderDid = o.issuerDid

/-- An addition by someone other than the founder that the room accepts is
signed with the key of every grant to its issuer that the room holds; and a
grant that it accepts is made to the key of every such addition that the room
holds. -/
def HolderSigned (h : RoomHost) (rooms : RoomStore) (d : Delivery) : Prop :=
  ∀ room, rooms (d.op.roomId.getD "") = some room → d.op.type ≠ .create →
    room.accepts h d.op = true →
    (d.op.issuerDid ≠ room.founderDid → ∀ g ∈ room.ops, g.grantsTo d.op →
      h.verifyOp d.op g.holderPubkey = true) ∧
    ∀ o ∈ room.ops, o.issuerDid ≠ room.founderDid → d.op.grantsTo o →
      h.verifyOp o d.op.holderPubkey = true

/-- What a room holds was checked: the founder's operations against the key
that the creation pinned, and the rest are additions, signed with the key of
every grant to their issuers. -/
structure Room.Vetted (h : RoomHost) (room : Room) : Prop where
  created : ∃ create, createOp room.ops = some create ∧
    create.founderDid = room.founderDid
  signed : ∀ create, createOp room.ops = some create → ∀ o ∈ room.ops,
    o.type = .create ∨
    (o.issuerDid = room.founderDid ∧
      h.verifyOp o create.founderPubkey = true) ∨
    (o.issuerDid ≠ room.founderDid ∧ o.type = .add)
  holders : ∀ o ∈ room.ops, o.issuerDid ≠ room.founderDid →
    ∀ g ∈ room.ops, g.grantsTo o → h.verifyOp o g.holderPubkey = true

/-- Every room holds what was checked. -/
def RoomStore.Vetted (h : RoomHost) (rooms : RoomStore) : Prop :=
  ∀ id room, rooms id = some room → room.Vetted h

theorem vetted_empty (h : RoomHost) :
    RoomStore.Vetted h fun _ => none := by
  intro id room hroom
  cases hroom

section Vetting

variable {h : RoomHost} {room : Room} {op : RoomOp}

theorem not_grantsTo_self : ¬op.grantsTo op := by
  rintro ⟨hgrant, hadd, -, -⟩
  rw [hgrant] at hadd
  cases hadd

/-- The room that a creation opens. -/
theorem vetted_roomOfCreate (htype : op.type = .create) :
    (roomOfCreate op).Vetted h where
  created := by
    refine ⟨op, ?_, rfl⟩
    show createOp [op] = some op
    unfold createOp
    rw [List.find?_cons_of_pos (by rw [htype]; rfl)]
  signed := by
    intro create _ o ho
    rw [List.mem_singleton.mp ho]
    exact Or.inl htype
  holders := by
    intro o ho _ g hg hgrants
    rw [List.mem_singleton.mp ho, List.mem_singleton.mp hg] at hgrants
    exact absurd hgrants not_grantsTo_self

/-- What an operation that is accepted was checked against. -/
theorem signed_of_accepts {create : RoomOp}
    (hcreate : createOp room.ops = some create)
    (haccepts : room.accepts h op = true) :
    (op.issuerDid = room.founderDid ∧
      h.verifyOp op create.founderPubkey = true) ∨
    (op.issuerDid ≠ room.founderDid ∧ op.type = .add) := by
  unfold Room.accepts Room.keyFor at haccepts
  by_cases hissuer : op.issuerDid = room.founderDid
  · rw [if_pos hissuer, hcreate] at haccepts
    exact Or.inl ⟨hissuer, haccepts⟩
  · rw [if_neg hissuer] at haccepts
    by_cases hadd : op.type = .add
    · exact Or.inr ⟨hissuer, hadd⟩
    · rw [if_neg hadd] at haccepts
      cases haccepts

/-- Step: a room that adds what it accepted. -/
theorem Room.Vetted.appendOp (hvetted : room.Vetted h)
    (haccepts : room.accepts h op = true)
    (hholders : (op.issuerDid ≠ room.founderDid → ∀ g ∈ room.ops,
        g.grantsTo op → h.verifyOp op g.holderPubkey = true) ∧
      ∀ o ∈ room.ops, o.issuerDid ≠ room.founderDid → op.grantsTo o →
        h.verifyOp o op.holderPubkey = true) :
    (room.appendOp h op).Vetted h := by
  obtain ⟨create, hcreate, hfounder⟩ := hvetted.created
  constructor
  · refine ⟨create, createOp_appendOp hcreate, ?_⟩
    rw [Room.appendOp_founderDid]
    exact hfounder
  · intro create' hcreate' o ho
    rw [createOp_appendOp hcreate, Option.some.injEq] at hcreate'
    rw [← hcreate', Room.appendOp_founderDid]
    rcases Room.mem_appendOp ho with ho | rfl
    · exact hvetted.signed create hcreate o ho
    · exact Or.inr (signed_of_accepts hcreate haccepts)
  · intro o ho hissuer g hg hgrants
    rw [Room.appendOp_founderDid] at hissuer
    rcases Room.mem_appendOp ho with hold | rfl
    · rcases Room.mem_appendOp hg with hstored | rfl
      · exact hvetted.holders o hold hissuer g hstored hgrants
      · exact hholders.2 o hold hissuer hgrants
    · rcases Room.mem_appendOp hg with hstored | rfl
      · exact hholders.1 hissuer g hstored hgrants
      · exact absurd hgrants not_grantsTo_self

end Vetting

/-- Step: what the rooms hold stays checked. -/
theorem RoomStore.Vetted.takeIn {h : RoomHost} {selfDid : String}
    {rooms : RoomStore} (hrooms : rooms.Vetted h) {d : Delivery}
    (hd : HolderSigned h rooms d) : (takeIn h selfDid rooms d).Vetted h := by
  intro id room hroom
  unfold AirNote.takeIn at hroom
  by_cases hid : d.op.roomId.getD "" = id
  · rcases ingestControlOp_cases h selfDid rooms d.op d.resolved with hsame |
      ⟨-, -, hopens, hsame⟩ | ⟨-, old, hold, htype, haccepts, hsame⟩
    · rw [hsame] at hroom
      exact hrooms id room hroom
    · rw [hsame, hid] at hroom
      simp only [Function.update_self, Option.some.injEq] at hroom
      rw [← hroom]
      apply vetted_roomOfCreate
      unfold RoomOp.opens at hopens
      simp only [Bool.and_eq_true, decide_eq_true_eq] at hopens
      exact hopens.1.1
    · rw [hsame, hid] at hroom
      simp only [Function.update_self, Option.some.injEq] at hroom
      rw [← hroom]
      have hholders := hd old hold htype haccepts
      rw [hid] at hold
      exact (hrooms id old hold).appendOp haccepts hholders
  · rw [ingestControlOp_other hid] at hroom
    exact hrooms id room hroom

/-! ## What does not count -/

/-- The founder's, signed with the key that the creation pinned; or an
addition under a mandate in force, issued by its holder and signed with the
holder's key. -/
def Room.Authorized (h : RoomHost) (now : Int) (room : Room)
    (create op : RoomOp) : Prop :=
  (op.issuerDid = room.founderDid ∧
    h.verifyOp op create.founderPubkey = true) ∨
  (op.type = .add ∧ ∃ g,
    activeMandate h now (founderOps h room.founderDid room.ops)
      op.mandateId = some g ∧
    g.holderDid = op.issuerDid ∧ h.verifyOp op g.holderPubkey = true)

section Derive

variable {h : RoomHost} {now : Int} {founderDid : Option String}
  {ops : List RoomOp} {op : RoomOp}

theorem founderOps_append_other (hissuer : op.issuerDid ≠ founderDid) :
    founderOps h founderDid (ops ++ [op]) = founderOps h founderDid ops := by
  unfold founderOps
  rw [List.filter_append]
  have hnone : [op].filter (fun o => o.issuerDid = founderDid) = [] := by
    simp [hissuer]
  rw [hnone, List.append_nil]

theorem candidates_append (ops : List RoomOp) (op : RoomOp) :
    candidates (ops ++ [op]) = candidates ops ∨
      (op.memberDid ∉ candidates ops ∧
        candidates (ops ++ [op]) = candidates ops ++ [op.memberDid]) := by
  by_cases hadd : op.type = .add
  · by_cases hmem : op.memberDid ∈ candidates ops
    · refine Or.inl ?_
      rw [mem_candidates] at hmem
      unfold candidates
      rw [List.filter_append, List.map_append, List.eraseDups_append]
      have hnone : (([op].filter fun o => o.type = .add).map
          RoomOp.memberDid).removeAll ((ops.filter fun o => o.type = .add).map
            RoomOp.memberDid) = [] := by
        simpa [List.removeAll, hadd, and_assoc] using hmem
      rw [hnone]
      simp
    · refine Or.inr ⟨hmem, ?_⟩
      rw [mem_candidates] at hmem
      unfold candidates
      rw [List.filter_append, List.map_append, List.eraseDups_append]
      have hone : (([op].filter fun o => o.type = .add).map
          RoomOp.memberDid).removeAll ((ops.filter fun o => o.type = .add).map
            RoomOp.memberDid) = [op.memberDid] := by
        simpa [List.removeAll, hadd] using hmem
      rw [hone]
      simp [List.eraseDups_cons]
  · refine Or.inl ?_
    unfold candidates
    rw [List.filter_append]
    simp [hadd]

/-- An operation of someone other than the founder that is no valid addition.
-/
theorem resolveMember_append {sorted : List RoomOp}
    (hinvalid : ∀ did,
      op.validAdminAdd h now sorted founderDid did = false)
    (did : Option String) :
    resolveMember h now (ops ++ [op]) sorted founderDid did =
      resolveMember h now ops sorted founderDid did := by
  unfold resolveMember
  cases latestFounderWord sorted did with
  | some latest => rfl
  | none =>
      simp only
      rw [List.find?_append]
      have hnone : [op].find?
          (RoomOp.validAdminAdd h now sorted founderDid did) = none := by
        have hneg : ¬op.validAdminAdd h now sorted founderDid did = true := by
          rw [hinvalid did]
          exact Bool.false_ne_true
        rw [List.find?_cons_of_neg hneg]
        rfl
      rw [hnone, Option.or_none]

/-- Only candidates become members. -/
theorem resolveMember_of_not_candidate {did : Option String}
    (hdid : did ∉ candidates ops) :
    resolveMember h now ops (founderOps h founderDid ops) founderDid did =
      none := by
  rw [mem_candidates] at hdid
  unfold resolveMember
  cases hword : latestFounderWord (founderOps h founderDid ops) did with
  | some latest =>
      have hmem := List.mem_filter.mp (List.mem_of_getLast? hword)
      have hwhat := hmem.2
      simp only [Bool.and_eq_true, Bool.or_eq_true, decide_eq_true_eq]
        at hwhat
      rcases hwhat.1 with hadd | hremove
      · exact absurd ⟨latest, (mem_founderOps.1 hmem.1).1, hadd, hwhat.2⟩
          hdid
      · simp only
        rw [if_pos hremove]
  | none =>
      simp only
      rw [Option.map_eq_none_iff, List.find?_eq_none]
      intro o ho hvalid
      unfold RoomOp.validAdminAdd at hvalid
      simp only [Bool.and_eq_true, decide_eq_true_eq] at hvalid
      exact hdid ⟨o, ho, hvalid.1.1.1.1, hvalid.1.1.1.2⟩

/-- An operation of someone other than the founder that is no valid addition
changes nothing. -/
theorem stateFrom_append_invalid (hissuer : op.issuerDid ≠ founderDid)
    (hinvalid : ∀ did, op.validAdminAdd h now
      (founderOps h founderDid ops) founderDid did = false) :
    stateFrom h now founderDid (ops ++ [op]) =
      stateFrom h now founderDid ops := by
  unfold stateFrom
  rw [founderOps_append_other hissuer]
  congr 1
  have hresolve : resolveMember h now (ops ++ [op])
      (founderOps h founderDid ops) founderDid =
      resolveMember h now ops (founderOps h founderDid ops) founderDid :=
    funext (resolveMember_append hinvalid)
  rw [hresolve]
  rcases candidates_append ops op with hsame | ⟨hnew, hmore⟩
  · rw [hsame]
  · rw [hmore, List.filterMap_append, List.filterMap_cons,
      resolveMember_of_not_candidate hnew, List.filterMap_nil,
      List.append_nil]

theorem mem_of_activeMandate {sorted : List RoomOp} {mid : Option String}
    {g : RoomOp} (hg : activeMandate h now sorted mid = some g) :
    g ∈ sorted ∧ g.type = .adminGrant ∧ g.mandateId = mid ∧
      g.expired h now = false := by
  unfold activeMandate mandateLatest at hg
  rw [Option.filter_eq_some_iff] at hg
  have hmem := List.mem_filter.mp (List.mem_of_getLast? hg.1)
  simp only [Bool.and_eq_true, decide_eq_true_eq, Bool.not_eq_true']
    at hg hmem
  exact ⟨(List.mem_filter.mp hmem.1).1, hg.2.1, hmem.2, hg.2.2⟩

/-- Who is a member, and by whose word. -/
theorem member_cases {m : Member}
    (hm : m ∈ (stateFrom h now founderDid ops).members) :
    (∃ o, latestFounderWord (founderOps h founderDid ops) m.did = some o ∧
      o.type = .add ∧ m.kind = o.kind) ∨
    (latestFounderWord (founderOps h founderDid ops) m.did = none ∧
      m.kind = some "agent" ∧ ∃ o ∈ ops, o.validAdminAdd h now
        (founderOps h founderDid ops) founderDid m.did = true) := by
  unfold stateFrom sortBy at hm
  rw [List.mem_insertionSort, List.mem_filterMap] at hm
  obtain ⟨did, -, hm⟩ := hm
  have hdid := did_of_resolveMember hm
  subst hdid
  unfold resolveMember at hm
  cases hword : latestFounderWord (founderOps h founderDid ops) m.did with
  | some latest =>
      rw [hword] at hm
      simp only at hm
      by_cases hremove : latest.type = .remove
      · rw [if_pos hremove] at hm
        cases hm
      · rw [if_neg hremove, Option.some.injEq] at hm
        have hwhat := (List.mem_filter.mp (List.mem_of_getLast? hword)).2
        simp only [Bool.and_eq_true, Bool.or_eq_true, decide_eq_true_eq]
          at hwhat
        refine Or.inl ⟨latest, rfl, hwhat.1.resolve_right hremove, ?_⟩
        rw [← hm]
  | none =>
      rw [hword] at hm
      simp only [Option.map_eq_some_iff] at hm
      obtain ⟨o, ho, hmo⟩ := hm
      refine Or.inr ⟨rfl, ?_, o, List.mem_of_find?_eq_some ho,
        List.find?_some ho⟩
      rw [← hmo]

end Derive

/-! ## Authority -/

section Authority

variable {h : RoomHost} {now : Int} {room : Room} {create op : RoomOp}

/-- An addition by someone other than the founder that counts is authorized.
-/
theorem Room.Vetted.authorized (hvetted : room.Vetted h)
    (hmem : op ∈ room.ops) (hvalid : op.validAdminAdd h now
      (founderOps h room.founderDid room.ops) room.founderDid op.memberDid =
        true) :
    op.issuerDid ≠ room.founderDid ∧ room.Authorized h now create op := by
  unfold RoomOp.validAdminAdd at hvalid
  simp only [Bool.and_eq_true, decide_eq_true_eq] at hvalid
  obtain ⟨⟨⟨⟨hadd, -⟩, hissuer⟩, -⟩, hactive⟩ := hvalid
  cases hg : activeMandate h now (founderOps h room.founderDid room.ops)
      op.mandateId with
  | none =>
      rw [hg] at hactive
      cases hactive
  | some g =>
      rw [hg, decide_eq_true_eq] at hactive
      obtain ⟨hstored, hgrant, hmid, -⟩ := mem_of_activeMandate hg
      have hsigned := hvetted.holders op hmem hissuer g
        (mem_founderOps.1 hstored).1 ⟨hgrant, hadd, hmid, hactive⟩
      exact ⟨hissuer, Or.inr ⟨hadd, g, hg, hactive, hsigned⟩⟩

/-- What is accepted without authority is no valid addition. -/
theorem invalid_of_unauthorized
    (hcreate : createOp room.ops = some create)
    (haccepts : room.accepts h op = true)
    (hholders : op.issuerDid ≠ room.founderDid → ∀ g ∈ room.ops,
      g.grantsTo op → h.verifyOp op g.holderPubkey = true)
    (hnot : ¬room.Authorized h now create op) :
    op.issuerDid ≠ room.founderDid ∧ ∀ did, op.validAdminAdd h now
      (founderOps h room.founderDid room.ops) room.founderDid did =
        false := by
  rcases signed_of_accepts hcreate haccepts with hfounder | ⟨hissuer, hadd⟩
  · exact absurd (Or.inl hfounder) hnot
  · refine ⟨hissuer, ?_⟩
    intro did
    rw [Bool.eq_false_iff]
    intro hvalid
    unfold RoomOp.validAdminAdd at hvalid
    simp only [Bool.and_eq_true, decide_eq_true_eq] at hvalid
    have hactive := hvalid.2
    cases hg : activeMandate h now (founderOps h room.founderDid room.ops)
        op.mandateId with
    | none =>
        rw [hg] at hactive
        cases hactive
    | some g =>
        rw [hg, decide_eq_true_eq] at hactive
        obtain ⟨hstored, hgrant, hmid, -⟩ := mem_of_activeMandate hg
        have hsigned := hholders hissuer g (mem_founderOps.1 hstored).1
          ⟨hgrant, hadd, hmid, hactive⟩
        exact hnot (Or.inr ⟨hadd, g, hg, hactive, hsigned⟩)

/-- Step: what has no authority leaves what is derived as it was. -/
theorem deriveRoom_takeIn_unauthorized {selfDid id : String}
    {rooms : RoomStore} {d : Delivery} (hvetted : room.Vetted h)
    (hroom : rooms id = some room)
    (hcreate : createOp room.ops = some create)
    (hd : HolderSigned h rooms d) (hid : d.op.roomId.getD "" = id)
    (hnot : ¬room.Authorized h now create d.op) :
    deriveRoom h now (takeIn h selfDid rooms d) id =
      deriveRoom h now rooms id := by
  subst hid
  unfold takeIn
  rcases ingestControlOp_cases h selfDid rooms d.op d.resolved with hsame |
    ⟨-, hnone, -, -⟩ | ⟨-, old, hold, htype, haccepts, hsame⟩
  · rw [hsame]
  · rw [hroom] at hnone
    cases hnone
  · rw [hroom, Option.some.injEq] at hold
    subst hold
    obtain ⟨hissuer, hinvalid⟩ := invalid_of_unauthorized hcreate haccepts
      (hd room hroom htype haccepts).1 hnot
    obtain ⟨create', hcreate', hfounder⟩ := hvetted.created
    rw [hcreate, Option.some.injEq] at hcreate'
    subst hcreate'
    unfold deriveRoom
    rw [hsame, hroom]
    simp only [Function.update_self, Option.map_some]
    rw [deriveState_eq (createOp_appendOp hcreate), deriveState_eq hcreate,
      hfounder]
    rcases room.appendOp_ops h d.op with hops | hops
    · rw [hops]
    · rw [hops, stateFrom_append_invalid hissuer hinvalid]

/-- A member the founder says nothing of is there by an addition that counts.
-/
theorem Room.Vetted.member_cases (hvetted : room.Vetted h)
    (hcreate : createOp room.ops = some create) {m : Member}
    (hm : m ∈ (deriveState h now room.ops).members) :
    (∃ o, latestFounderWord (founderOps h room.founderDid room.ops) m.did =
        some o ∧ o.type = .add ∧ m.kind = o.kind ∧
        h.verifyOp o create.founderPubkey = true) ∨
    (latestFounderWord (founderOps h room.founderDid room.ops) m.did = none ∧
      m.kind = some "agent" ∧ ∃ o ∈ room.ops, o.validAdminAdd h now
        (founderOps h room.founderDid room.ops) room.founderDid m.did =
          true) := by
  obtain ⟨create', hcreate', hfounder⟩ := hvetted.created
  rw [hcreate, Option.some.injEq] at hcreate'
  subst hcreate'
  rw [deriveState_eq hcreate, hfounder] at hm
  rcases AirNote.member_cases hm with ⟨o, hword, hadd, hkind⟩ | hother
  · have hmem := mem_founderOps.1
      (List.mem_filter.mp (List.mem_of_getLast? hword)).1
    refine Or.inl ⟨o, hword, hadd, hkind, ?_⟩
    rcases hvetted.signed create hcreate o hmem.1 with hc | hsigned | hother
    · rw [hadd] at hc
      cases hc
    · exact hsigned.2
    · exact absurd hmem.2 hother.1
  · exact Or.inr hother

/-- A mandate that was revoked last, or that has expired, is not in force. -/
theorem activeMandate_eq_none {sorted : List RoomOp} {mid : Option String}
    {last : RoomOp} (hlast : mandateLatest sorted mid = some last)
    (hover : last.type = .adminRevoke ∨ last.expired h now = true) :
    activeMandate h now sorted mid = none := by
  unfold activeMandate
  rw [hlast, Option.filter_eq_none_iff]
  intro o ho hactive
  rw [Option.some.injEq] at ho
  subst ho
  simp only [Bool.and_eq_true, decide_eq_true_eq, Bool.not_eq_true']
    at hactive
  rcases hover with hrevoked | hexpired
  · rw [hactive.1] at hrevoked
    cases hrevoked
  · rw [hactive.2] at hexpired
    cases hexpired

end Authority

/-- **Room authority.** In every run in which the additions by others than
the founder are signed with the key of every grant to their issuers, and in
every state of it: the next operation leaves what is derived as it was,
unless it has authority; every member is there by a word of the founder's,
or as an agent by an addition with authority; whom the founder removed last
is no member; and who was added under a mandate that was revoked last or has
expired, and under no other in force, is none either. -/
theorem room_authority (h : RoomHost) (selfDid : String) (rooms : RoomStore)
    (hrooms : rooms.Vetted h) (ds : List Delivery)
    (hmeets : Trace.Meets (takeIn h selfDid) (HolderSigned h) rooms ds)
    (n : Nat) (id : String) (room : Room)
    (hroom : Trace.run (takeIn h selfDid) rooms (ds.take n) id = some room)
    (now : Int) :
    ∃ create, createOp room.ops = some create ∧
      create.founderDid = room.founderDid ∧
      (∀ d, ds[n]? = some d → d.op.roomId.getD "" = id →
        ¬room.Authorized h now create d.op →
        deriveRoom h now (Trace.run (takeIn h selfDid) rooms
          (ds.take (n + 1))) id =
          deriveRoom h now (Trace.run (takeIn h selfDid) rooms
            (ds.take n)) id) ∧
      (∀ m ∈ (deriveState h now room.ops).members,
        (∃ o, latestFounderWord (founderOps h room.founderDid room.ops)
            m.did = some o ∧ o.type = .add ∧ m.kind = o.kind ∧
          h.verifyOp o create.founderPubkey = true) ∨
        (latestFounderWord (founderOps h room.founderDid room.ops) m.did =
            none ∧ m.kind = some "agent" ∧
          ∃ o ∈ room.ops, o.memberDid = m.did ∧
            o.issuerDid ≠ room.founderDid ∧
            room.Authorized h now create o)) ∧
      (∀ did o, latestFounderWord (founderOps h room.founderDid room.ops)
          did = some o → o.type = .remove →
        ∀ m ∈ (deriveState h now room.ops).members, m.did ≠ did) ∧
      ∀ mid last, mandateLatest (founderOps h room.founderDid room.ops) mid =
          some last →
        last.type = .adminRevoke ∨ last.expired h now = true →
        ∀ did, latestFounderWord (founderOps h room.founderDid room.ops)
            did = none →
        (∀ o ∈ room.ops, o.type = .add → o.memberDid = did →
          o.issuerDid ≠ room.founderDid → o.mandateId = mid ∨
            activeMandate h now (founderOps h room.founderDid room.ops)
              o.mandateId = none) →
        ∀ m ∈ (deriveState h now room.ops).members, m.did ≠ did := by
  have hvetted : room.Vetted h :=
    Trace.run_take_inv_of_meets (RoomStore.Vetted h)
      (fun s d hs hd => hs.takeIn hd) hrooms hmeets n id room hroom
  obtain ⟨create, hcreate, hfounder⟩ := hvetted.created
  refine ⟨create, hcreate, hfounder, ?_, ?_, ?_, ?_⟩
  · intro d hd hid hnot
    have hsplit : ds.take (n + 1) = ds.take n ++ [d] := by
      rw [List.take_add_one, hd]
      rfl
    have hnext := hmeets.take (n + 1)
    rw [hsplit, Trace.meets_append] at hnext
    rw [hsplit, Trace.run_append, Trace.run_cons, Trace.run_nil]
    exact deriveRoom_takeIn_unauthorized hvetted hroom hcreate hnext.2.1 hid
      hnot
  · intro m hm
    rcases hvetted.member_cases hcreate hm with hword | ⟨hnone, hkind, o, ho,
      hvalid⟩
    · exact Or.inl hword
    · have hdid : o.memberDid = m.did := by
        unfold RoomOp.validAdminAdd at hvalid
        simp only [Bool.and_eq_true, decide_eq_true_eq] at hvalid
        exact hvalid.1.1.1.2
      rw [← hdid] at hvalid
      obtain ⟨hissuer, hauthorized⟩ := hvetted.authorized ho hvalid
      exact Or.inr ⟨hnone, hkind, o, ho, hdid, hissuer, hauthorized⟩
  · intro did o hword hremove m hm hdid
    rcases hvetted.member_cases hcreate hm with ⟨o', hword', hadd, -, -⟩ |
      ⟨hnone, -, -⟩
    · rw [hdid, hword, Option.some.injEq] at hword'
      rw [← hword', hremove] at hadd
      cases hadd
    · rw [hdid, hword] at hnone
      cases hnone
  · intro mid last hlast hover did hnone honly m hm hdid
    rcases hvetted.member_cases hcreate hm with ⟨o', hword', -⟩ |
      ⟨-, -, o, ho, hvalid⟩
    · rw [hdid, hnone] at hword'
      cases hword'
    · unfold RoomOp.validAdminAdd at hvalid
      simp only [Bool.and_eq_true, decide_eq_true_eq] at hvalid
      obtain ⟨⟨⟨⟨hadd, hmember⟩, hissuer⟩, -⟩, hactive⟩ := hvalid
      have hinactive : activeMandate h now
          (founderOps h room.founderDid room.ops) o.mandateId = none := by
        rcases honly o ho hadd (hmember.trans hdid) hissuer with rfl | hother
        · exact activeMandate_eq_none hlast hover
        · exact hother
      rw [hinactive] at hactive
      cases hactive

/-! ## A mandate granted twice -/

/-- The founder grants the same mandate to someone else. -/
def sampleRegrant : RoomOp :=
  { blankOp .adminGrant "did:founder" "key:founder" "regrant" with
    mandateId := some "mandate"
    holderDid := some "did:second"
    holderPubkey := some "key:second"
    founderSeq := some "2" }

/-- The first holder adds a member in the name of the second. -/
def sampleForgedAdd : RoomOp :=
  { blankOp .add "did:second" "key:admin" "forged" with
    mandateId := some "mandate"
    memberDid := some "did:intruder"
    memberPubkey := some "key:intruder" }

/-- A room with a creation and a grant, to which the holder adds a member. -/
theorem room_authority_sample :
    ∃ create, createOp [sampleCreate, sampleGrant, sampleAdd "key:member"] =
        some create ∧
      ∀ m ∈ (deriveState plainHost 0 [sampleCreate, sampleGrant,
          sampleAdd "key:member"]).members,
        (∃ o, latestFounderWord (founderOps plainHost (some "did:founder")
            [sampleCreate, sampleGrant, sampleAdd "key:member"]) m.did =
              some o ∧ o.type = .add ∧ m.kind = o.kind ∧
          plainHost.verifyOp o create.founderPubkey = true) ∨
        m.kind = some "agent" := by
  have hmeets : Trace.Meets (takeIn plainHost "did:here")
      (HolderSigned plainHost) (fun _ => none)
      ([sampleCreate, sampleGrant, sampleAdd "key:member"].map
        sampleDelivery) := by
    refine ⟨?_, ?_, ?_, trivial⟩
    · intro room hroom
      cases hroom
    · intro room hroom _ _
      cases hroom
      refine ⟨fun hne => absurd rfl hne, ?_⟩
      intro o ho _ hgrants
      rw [List.mem_singleton.mp ho] at hgrants
      cases hgrants.2.1
    · intro room hroom _ _
      cases hroom
      constructor
      · intro _ g hg hgrants
        have hall : ∀ g ∈ [sampleCreate, sampleGrant],
            g.type = .adminGrant → plainHost.verifyOp
              (sampleAdd "key:member") g.holderPubkey = true := by decide
        exact hall g hg hgrants.1
      · intro o _ _ hgrants
        cases hgrants.1
  obtain ⟨create, hcreate, -, -, hmembers, -⟩ := room_authority plainHost
    "did:here" (fun _ => none) (vetted_empty plainHost) _ hmeets 3 "room" _
    rfl 0
  refine ⟨create, hcreate, fun m hm => ?_⟩
  exact (hmembers m hm).imp_right fun h => h.2.1

/-- The first holder of a mandate that was granted again adds a member: the
operation is signed neither with the founder's key nor with that of the
holder, and changes the members. -/
theorem room_authority_regranted :
    plainHost.verifyOp sampleForgedAdd (some "key:founder") = false ∧
    (deriveState plainHost 0 [sampleCreate, sampleGrant, sampleRegrant]).admins
      = [⟨some "mandate", some "did:second", some "key:second"⟩] ∧
    plainHost.verifyOp sampleForgedAdd (some "key:second") = false ∧
    (deriveRoom plainHost 0 (Trace.run (takeIn plainHost "did:here")
        (fun _ => none) ([sampleCreate, sampleGrant, sampleRegrant].map
          sampleDelivery)) "room").map RoomState.members = some [] ∧
    (deriveRoom plainHost 0 (Trace.run (takeIn plainHost "did:here")
        (fun _ => none) ([sampleCreate, sampleGrant, sampleRegrant,
          sampleForgedAdd].map sampleDelivery)) "room").map RoomState.members
      = some [⟨some "did:intruder", some "agent", some "key:intruder"⟩] := by
  decide

end AirNote
