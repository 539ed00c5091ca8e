import AirNote.Lib.HashChain
import AirNote.Lib.Trace
import AirNote.Rows

/-!
# Verification of the stored chain

`verify_chain` walks the rows in `seq` order. Of each it compares the
`prev_hash` *column* with the `hash` column of the row before, recomputes
the chain hash of the payload, compares it with the `hash` column, and
verifies the signature. The chain hash is taken over the payload's own
`prev_hash` member. The column and the member are never compared, and the
columns `id` and `event_type` are not read at all.

Tables appended to by the engine verify (`honest_chain`), with every column
bound to its payload. What verification says about an arbitrary table is
settled against such a table, under the usual assumptions on an adversary
without the signing key (`Unbroken`): no forged signature, no collision and
no preimage of the origin among the texts at hand. Where the `prev_hash`
column agrees with the payloads, a verified table is a prefix of the honest
one, by the general fact about linked chains in `AirNote.Lib.HashChain`; and
a verified table that is such a prefix has that column bound
(`verifyChain_prefix_iff_bound`). Where it does not agree, any stretch of
rows can be dropped from the interior (`verifyChain_accepts_deletion`).
-/

namespace AirNote

open Lib

/-! ## The verification loop -/

/-- `verify_rows`. -/
def verifyRows (P : Primitives) :
    List Row → String → Except BossclawError Unit
  | [], _ => .ok ()
  | row :: rest, expectedPrev =>
      if row.prevHash ≠ expectedPrev then
        .error (.chain
          s!"broken link: expected prev {expectedPrev}, got {row.prevHash}")
      else
        match P.ofText row.payload with
        | .error err => .error err
        | .ok event =>
            match computeHash P event with
            | .error err => .error err
            | .ok digest =>
                if Hex.encode digest ≠ row.hash then
                  .error (.chain
                    s!"hash mismatch at {event.id}: stored {row.hash}")
                else
                  match event.signature with
                  | none => .error (.chain "missing signature")
                  | some sig =>
                      match P.verifyHash digest sig with
                      | .error err => .error err
                      | .ok () => verifyRows P rest row.hash

/-- `verify_chain`. -/
def verifyChain (P : Primitives) (table : List Row) :
    Except BossclawError Unit :=
  verifyRows P table genesis

/-! ## What a row says -/

/-- The link and the canonical bytes the chain hash of a row is taken over. -/
abbrev Entry := Bytes × Bytes

/-- The chain hash of an entry. -/
def Primitives.digest (P : Primitives) (a : Entry) : Bytes :=
  P.sha256 (a.1 ++ a.2)

/-- The entry a row's payload stands for. -/
def rowEntry (P : Primitives) (row : Row) : Option Entry :=
  match P.ofText row.payload with
  | .error _ => none
  | .ok e =>
      match Hex.decode e.prevHash, canonicalBytes P e with
      | some prev, .ok canon => some (prev, canon)
      | _, _ => none

/-- The signed payload of a row: its canonical bytes. -/
def signedPayload (P : Primitives) (row : Row) : Option Bytes :=
  match P.ofText row.payload with
  | .error _ => none
  | .ok e => (canonicalBytes P e).toOption

/-- The `prev_hash` column of a row is the link its payload records. -/
def LinkBound (P : Primitives) (row : Row) : Prop :=
  ∀ e, P.ofText row.payload = .ok e → row.prevHash = e.prevHash

/-- The `id` and `event_type` columns of a row agree with its payload. -/
def ColumnsAgree (P : Primitives) (row : Row) : Prop :=
  ∀ e, P.ofText row.payload = .ok e →
    row.id = e.id ∧ row.eventType = e.eventType

/-- What the loop has checked of a row with entry `a`, its link excepted. -/
structure Verifies (P : Primitives) (row : Row) (a : Entry) : Prop where
  entry : rowEntry P row = some a
  width : a.1.length = 32
  hash_eq : row.hash = Hex.encode (P.digest a)
  signed : ∃ e sig, P.ofText row.payload = .ok e ∧ e.signature = some sig ∧
    P.verifyHash (P.digest a) sig = .ok ()

/-- The event behind an entry. -/
theorem exists_event_of_entry {P : Primitives} {row : Row} {a : Entry}
    (h : rowEntry P row = some a) :
    ∃ e, P.ofText row.payload = .ok e ∧ Hex.decode e.prevHash = some a.1 ∧
      canonicalBytes P e = .ok a.2 := by
  unfold rowEntry at h
  cases hof : P.ofText row.payload with
  | error err => simp [hof] at h
  | ok e =>
      simp only [hof] at h
      cases hdec : Hex.decode e.prevHash with
      | none => simp [hdec] at h
      | some prev =>
          cases hcanon : canonicalBytes P e with
          | error err => simp [hdec, hcanon] at h
          | ok canon =>
              simp only [hdec, hcanon, Option.some.injEq] at h
              subst h
              exact ⟨e, rfl, hdec, hcanon⟩

theorem signedPayload_of_entry {P : Primitives} {row : Row} {a : Entry}
    (h : rowEntry P row = some a) : signedPayload P row = some a.2 := by
  obtain ⟨e, hof, -, hcanon⟩ := exists_event_of_entry h
  simp [signedPayload, hof, hcanon, Except.toOption]

/-! ## Inversion of the loop -/

/-- One row passes exactly when it continues the chain and verifies. -/
theorem verifyRows_cons_ok {P : Primitives} {row : Row} {rest : List Row}
    {d : String} :
    verifyRows P (row :: rest) d = .ok () ↔
      row.prevHash = d ∧ (∃ a, Verifies P row a) ∧
        verifyRows P rest row.hash = .ok () := by
  constructor
  · intro h
    rw [verifyRows] at h
    split at h
    · cases h
    · next hprev =>
        split at h
        · cases h
        · next e hof =>
            split at h
            · cases h
            · next digest hcomp =>
                split at h
                · cases h
                · next hhex =>
                    split at h
                    · cases h
                    · next sig hsig =>
                        split at h
                        · cases h
                        · next hver =>
                            obtain ⟨prev, canon, hdec, hlen, hcanon, rfl⟩ :=
                              computeHash_ok_iff.1 hcomp
                            refine ⟨not_not.mp hprev, ⟨(prev, canon), ?_⟩, h⟩
                            exact
                              { entry := by simp [rowEntry, hof, hdec, hcanon]
                                width := hlen
                                hash_eq := (not_not.mp hhex).symm
                                signed := ⟨e, sig, hof, hsig, hver⟩ }
  · rintro ⟨hprev, ⟨a, hv⟩, hrest⟩
    obtain ⟨e, hof, hdec, hcanon⟩ := exists_event_of_entry hv.entry
    obtain ⟨e', sig, hof', hsig, hver⟩ := hv.signed
    have hee : e' = e := by
      rw [hof] at hof'
      exact (Except.ok.inj hof').symm
    subst hee
    have hcomp : computeHash P e' = .ok (P.digest a) :=
      computeHash_ok_iff.2 ⟨a.1, a.2, hdec, hv.width, hcanon, rfl⟩
    rw [verifyRows]
    simp [hprev, hof, hcomp, hv.hash_eq.symm, hsig, hver, hrest]

/-- A table that passes is linked through its columns, and each of its rows
verifies with some entry. -/
theorem verifyRows_ok {P : Primitives} {rows : List Row} {d : String}
    (h : verifyRows P rows d = .ok ()) :
    HashChain.Linked Row.prevHash Row.hash d rows ∧
      ∃ entries, List.Forall₂ (Verifies P) rows entries := by
  induction rows generalizing d with
  | nil => exact ⟨trivial, [], .nil⟩
  | cons row rest ih =>
      obtain ⟨hprev, ⟨a, hv⟩, hrest⟩ := verifyRows_cons_ok.1 h
      obtain ⟨hlinked, entries, hall⟩ := ih hrest
      exact ⟨⟨hprev, hlinked⟩, a :: entries, .cons hv hall⟩

theorem verifyRows_append {P : Primitives} {xs ys : List Row} {d : String} :
    verifyRows P (xs ++ ys) d = .ok () ↔
      verifyRows P xs d = .ok () ∧
        verifyRows P ys (HashChain.tip Row.hash d xs) = .ok () := by
  induction xs generalizing d with
  | nil => simp [verifyRows]
  | cons row rest ih =>
      rw [List.cons_append, verifyRows_cons_ok, verifyRows_cons_ok, ih,
        HashChain.tip_cons]
      simp only [and_assoc]

/-- The loop ties the `prev_hash` column to nothing in the payload: with
another link in the column, a row verifies with the same entry. -/
theorem Verifies.relink {P : Primitives} {row : Row} {a : Entry}
    (hv : Verifies P row a) (d : String) :
    Verifies P { row with prevHash := d } a :=
  { entry := hv.entry, width := hv.width, hash_eq := hv.hash_eq,
    signed := hv.signed }

/-- **Interior deletion goes unnoticed.** Any stretch `ys` of a verified
table can be cut out: it suffices to write the hash of the row before it into
the `prev_hash` column of the row after it. -/
theorem verifyChain_accepts_deletion {P : Primitives}
    {xs ys rest : List Row} {row : Row}
    (h : verifyChain P (xs ++ ys ++ row :: rest) = .ok ()) :
    verifyChain P
      (xs ++ { row with prevHash := HashChain.tip Row.hash genesis xs } ::
        rest) = .ok () := by
  obtain ⟨hfront, hback⟩ := verifyRows_append.1 h
  obtain ⟨hxs, -⟩ := verifyRows_append.1 hfront
  obtain ⟨-, ⟨a, hv⟩, hrest⟩ := verifyRows_cons_ok.1 hback
  refine verifyRows_append.2 ⟨hxs, ?_⟩
  exact verifyRows_cons_ok.2 ⟨rfl, ⟨a, hv.relink _⟩, hrest⟩

/-! ## Tables the engine writes -/

/-- One call of a writer on the table. -/
inductive RowCall where
  | append (st : Stamp) (event : Event)
  | appendPair (st₁ st₂ : Stamp) (first second : Event)

/-- The table after a call: a refused call leaves it as it is. -/
def RowCall.exec (P : Primitives) (table : List Row) : RowCall → List Row
  | .append st event =>
      match appendRow P st table event with
      | .ok (table', _) => table'
      | .error _ => table
  | .appendPair st₁ st₂ first second =>
      match appendRowPair P st₁ st₂ table first second with
      | .ok (table', _, _) => table'
      | .error _ => table

/-- The log after a call. -/
def RowCall.execLog (P : Primitives) (log : EventLog) : RowCall → EventLog
  | .append st event => (AppendCall.append (P.mint st) event).exec log
  | .appendPair st₁ st₂ first second =>
      (AppendCall.appendPair (P.mint st₁) (P.mint st₂) first second).exec log

/-- What the call reads of the table reads back. -/
def RowCall.Reads (P : Primitives) (log : EventLog) : RowCall → Prop
  | .append _ _ => Readable P log
  | .appendPair st₁ _ first _ => Readable P log ∧
      ∀ r, appendEventInTx (P.mint st₁) log first = .ok r → Readable P r.1

theorem RowCall.exec_refines {P : Primitives} {log : EventLog}
    {call : RowCall} (h : call.Reads P log) :
    call.exec P (log.map (rowOf P)) = (call.execLog P log).map (rowOf P) := by
  cases call with
  | append st event =>
      simp only [RowCall.exec, execLog, AppendCall.exec, appendRow,
        AirNote.append, appendRowInTx_refines h]
      cases rejectEmptyTierB event with
      | error err => rfl
      | ok _ => cases appendEventInTx (P.mint st) log event <;> rfl
  | appendPair st₁ st₂ first second =>
      simp only [RowCall.exec, execLog, AppendCall.exec, appendRowPair,
        AirNote.appendPair, appendRowInTx_refines h.1]
      cases rejectEmptyTierB first with
      | error err => rfl
      | ok _ =>
          cases rejectEmptyTierB second with
          | error err => rfl
          | ok _ =>
              cases hfirst : appendEventInTx (P.mint st₁) log first with
              | error err => rfl
              | ok r =>
                  simp only [Except.map, appendRowInTx_refines (h.2 r hfirst)]
                  cases appendEventInTx (P.mint st₂) r.1 second <;> rfl

/-- The table was written by the engine. -/
def HonestTable (P : Primitives) (table : List Row) : Prop :=
  ∃ calls, Trace.run (RowCall.exec P) [] calls = table

/-- The payload texts of the table read back as the events they were written
from. -/
def ReadsBack (P : Primitives) (table : List Row) : Prop :=
  ∀ row ∈ table, ∀ e, row.payload = P.toText e →
    P.ofText row.payload = .ok e

/-- What holds of a table the engine writes: it verifies, its columns are
bound to its payloads, and no hash occurs twice. -/
structure ChainInv (P : Primitives) (table : List Row) : Prop where
  verified : verifyChain P table = .ok ()
  linkBound : ∀ row ∈ table, LinkBound P row
  agree : ∀ row ∈ table, ColumnsAgree P row
  hashes : (table.map Row.hash).Nodup

/-- The invariant of the writers' runs: a table whose texts read back has
`ChainInv`. -/
def TableInv (P : Primitives) (table : List Row) : Prop :=
  ReadsBack P table → ChainInv P table

theorem tableInv_nil (P : Primitives) : TableInv P [] := fun _ =>
  { verified := rfl
    linkBound := fun row hrow => by cases hrow
    agree := fun row hrow => by cases hrow
    hashes := List.nodup_nil }

theorem tipRowHash_eq_tip (table : List Row) :
    tipRowHash table = HashChain.tip Row.hash genesis table := by
  unfold tipRowHash HashChain.tip
  cases table.getLast? with
  | none => rfl
  | some row => rfl

/-- A row the engine inserts continues the chain. -/
theorem TableInv.appendRowInTx {P : Primitives} {table table' : List Row}
    {st : Stamp} {event : Event} {id : String}
    (hinv : TableInv P table)
    (h : appendRowInTx P st table event = .ok (table', id)) :
    TableInv P table' := by
  intro hread
  unfold AirNote.appendRowInTx at h
  cases hcomp : computeHash P (linkedRowEvent P st table event) with
  | error err => simp [hcomp] at h
  | ok digest =>
      simp only [hcomp] at h
      split at h
      · cases h
      · split at h
        · cases h
        · next hfresh =>
            cases h
            set stored : Event :=
              { linkedRowEvent P st table event with
                hash := some (Hex.encode digest)
                signature := some (P.signHash digest) } with hstored
            have hold := hinv fun row hrow =>
              hread row (List.mem_append_left _ hrow)
            have hof : P.ofText (rowOf P stored).payload = .ok stored :=
              hread (rowOf P stored) (by simp) stored rfl
            have hcomp' : computeHash P stored = .ok digest := by
              rw [hstored, computeHash_seal, hcomp]
            obtain ⟨prev, canon, hdec, hlen, hcanon, hdig⟩ :=
              computeHash_ok_iff.1 hcomp'
            have hverifies : Verifies P (rowOf P stored) (prev, canon) :=
              { entry := by simp [rowEntry, hof, hdec, hcanon]
                width := hlen
                hash_eq := by
                  rw [Primitives.digest, ← hdig]
                  rfl
                signed := by
                  refine ⟨stored, P.signHash digest, hof, rfl, ?_⟩
                  rw [Primitives.digest, ← hdig]
                  exact P.verify_sign digest }
            exact
              { verified := by
                  refine verifyRows_append.2 ⟨hold.verified, ?_⟩
                  have hlink : (rowOf P stored).prevHash =
                      HashChain.tip Row.hash genesis table :=
                    tipRowHash_eq_tip table
                  exact verifyRows_cons_ok.2 ⟨hlink, ⟨_, hverifies⟩, rfl⟩
                linkBound := by
                  intro row hrow
                  rcases List.mem_append.mp hrow with hmem | hmem
                  · exact hold.linkBound row hmem
                  · rw [List.mem_singleton] at hmem
                    subst hmem
                    intro e he
                    rw [hof] at he
                    cases he
                    rfl
                agree := by
                  intro row hrow
                  rcases List.mem_append.mp hrow with hmem | hmem
                  · exact hold.agree row hmem
                  · rw [List.mem_singleton] at hmem
                    subst hmem
                    intro e he
                    rw [hof] at he
                    cases he
                    exact ⟨rfl, rfl⟩
                hashes := by
                  rw [List.map_append, List.nodup_append]
                  refine ⟨hold.hashes, by simp, ?_⟩
                  intro hex hhex hex' hhex'
                  obtain ⟨row, hrow, rfl⟩ := List.mem_map.mp hhex
                  rw [List.map_singleton, List.mem_singleton] at hhex'
                  subst hhex'
                  intro heq
                  have hcol : row.hash = Hex.encode digest := heq
                  exact hfresh (List.any_eq_true.mpr
                    ⟨row, hrow, by simp [hcol]⟩) }

theorem TableInv.exec {P : Primitives} {table : List Row}
    (hinv : TableInv P table) (call : RowCall) :
    TableInv P (call.exec P table) := by
  cases call with
  | append st event =>
      simp only [RowCall.exec]
      cases h : appendRow P st table event with
      | error err => exact hinv
      | ok r =>
          unfold appendRow at h
          split at h
          · cases h
          · exact TableInv.appendRowInTx hinv h
  | appendPair st₁ st₂ first second =>
      simp only [RowCall.exec]
      cases h : appendRowPair P st₁ st₂ table first second with
      | error err => exact hinv
      | ok r =>
          unfold appendRowPair at h
          split at h
          · cases h
          · cases h
          · cases h₁ : AirNote.appendRowInTx P st₁ table first with
            | error err => simp [h₁] at h
            | ok r₁ =>
                simp only [h₁] at h
                cases h₂ : AirNote.appendRowInTx P st₂ r₁.1 second with
                | error err => simp [h₂] at h
                | ok r₂ =>
                    simp only [h₂, Except.ok.injEq] at h
                    subst h
                    exact TableInv.appendRowInTx
                      (TableInv.appendRowInTx hinv h₁) h₂

/-- **Honest tables verify**, with every column bound to its payload. -/
theorem honest_chain {P : Primitives} {table : List Row}
    (h : HonestTable P table) (hread : ReadsBack P table) :
    ChainInv P table := by
  obtain ⟨calls, rfl⟩ := h
  have hrun : TableInv P (Trace.run (RowCall.exec P) [] calls) :=
    Trace.run_inv (TableInv P) (fun t call hinv => hinv.exec call)
      (tableInv_nil P) calls
  exact hrun hread

/-! ## Arbitrary tables -/

/-- The adversary's table breaks none of the primitives, relative to the
table the engine signed: a signature that verifies was made for a row of
`L`, no two entries of the two tables collide, and no entry of `L` hashes to
the origin of the chain. -/
structure Unbroken (P : Primitives) (L L' : List Row) : Prop where
  noForgery : ∀ row ∈ L', ∀ a e sig, rowEntry P row = some a →
    P.ofText row.payload = .ok e → e.signature = some sig →
    P.verifyHash (P.digest a) sig = .ok () →
    ∃ row₀ ∈ L, ∃ a₀, rowEntry P row₀ = some a₀ ∧ P.digest a₀ = P.digest a
  noCollision : ∀ row₀ ∈ L, ∀ row ∈ L', ∀ a₀ a, rowEntry P row₀ = some a₀ →
    rowEntry P row = some a → P.digest a₀ = P.digest a →
    a₀.1 ++ a₀.2 = a.1 ++ a.2
  noOrigin : ∀ row₀ ∈ L, ∀ a₀, rowEntry P row₀ = some a₀ →
    P.digest a₀ ≠ List.replicate 32 0

/-- The signed payloads of `L'`, in order, are a prefix of those of `L`. -/
def SignedPrefix (P : Primitives) (L' L : List Row) : Prop :=
  L'.map (signedPayload P) <+: L.map (signedPayload P)

theorem decode_genesis : Hex.decode genesis = some (List.replicate 32 0) := by
  decide

/-- A verified table whose columns are bound is linked through its entries:
the member the hash covers is the column the loop compared. -/
theorem linked_entries {P : Primitives} {rows : List Row} {d : String}
    {origin : Bytes} {entries : List Entry}
    (hlinked : HashChain.Linked Row.prevHash Row.hash d rows)
    (hall : List.Forall₂ (Verifies P) rows entries)
    (hbound : ∀ row ∈ rows, LinkBound P row)
    (horigin : Hex.decode d = some origin) :
    HashChain.Linked Prod.fst P.digest origin entries := by
  induction hall generalizing d origin with
  | nil => trivial
  | @cons row a rest entries hv _ ih =>
      obtain ⟨hprev, hrest⟩ := hlinked
      obtain ⟨e, hof, hdec, -⟩ := exists_event_of_entry hv.entry
      have hcol : row.prevHash = e.prevHash := hbound row (by simp) e hof
      have hfst : a.1 = origin := by
        rw [← hcol, hprev, horigin] at hdec
        exact (Option.some.inj hdec).symm
      have hnext : Hex.decode row.hash = some (P.digest a) := by
        rw [hv.hash_eq, Hex.decode_encode]
      exact ⟨hfst, ih hrest
        (fun r hr => hbound r (List.mem_cons_of_mem row hr)) hnext⟩

theorem map_signedPayload {P : Primitives} {rows : List Row}
    {entries : List Entry} (hall : List.Forall₂ (Verifies P) rows entries) :
    rows.map (signedPayload P) = entries.map fun a => some a.2 := by
  induction hall with
  | nil => rfl
  | cons hv _ ih =>
      rw [List.map_cons, List.map_cons, ih, signedPayload_of_entry hv.entry]

theorem map_hash {P : Primitives} {rows : List Row} {entries : List Entry}
    (hall : List.Forall₂ (Verifies P) rows entries) :
    rows.map Row.hash = (entries.map P.digest).map Hex.encode := by
  induction hall with
  | nil => rfl
  | cons hv _ ih =>
      rw [List.map_cons, ih, hv.hash_eq, List.map_cons, List.map_cons]

/-- Every entry of a verified table was signed in the honest one. -/
theorem mem_of_unbroken {P : Primitives} {L L' : List Row}
    {entries entries' : List Entry} (hsec : Unbroken P L L')
    (hall : List.Forall₂ (Verifies P) L entries)
    (hall' : List.Forall₂ (Verifies P) L' entries') :
    ∀ a ∈ entries', a ∈ entries := by
  intro a ha
  obtain ⟨i, hi, rfl⟩ := List.mem_iff_getElem.mp ha
  have hlen' := hall'.length_eq
  have hi' : i < L'.length := by omega
  have hv : Verifies P L'[i] entries'[i] := (List.forall₂_iff_get.mp hall').2
    i hi' hi
  obtain ⟨e, sig, hof, hsig, hver⟩ := hv.signed
  obtain ⟨row₀, hrow₀, a₀, hentry₀, hdigest⟩ :=
    hsec.noForgery L'[i] (List.getElem_mem hi') _ e sig hv.entry hof hsig hver
  obtain ⟨j, hj, rfl⟩ := List.mem_iff_getElem.mp hrow₀
  have hlen := hall.length_eq
  have hj' : j < entries.length := by omega
  have hv₀ : Verifies P L[j] entries[j] := (List.forall₂_iff_get.mp hall).2
    j hj hj'
  have ha₀ : a₀ = entries[j] := by
    rw [hv₀.entry] at hentry₀
    exact (Option.some.inj hentry₀).symm
  subst ha₀
  have hbytes := hsec.noCollision L[j] (List.getElem_mem hj) L'[i]
    (List.getElem_mem hi') _ _ hv₀.entry hv.entry hdigest
  have hwidths : (entries[j]).1.length = (entries'[i]).1.length := by
    rw [hv₀.width, hv.width]
  have heq : entries[j] = entries'[i] := by
    obtain ⟨h₁, h₂⟩ := List.append_inj hbytes hwidths
    exact Prod.ext h₁ h₂
  rw [← heq]
  exact List.getElem_mem hj'

/-- With bound columns, a verified table is a prefix of the honest one. -/
theorem signedPrefix_of_bound {P : Primitives} {L L' : List Row}
    (hinv : ChainInv P L) (hsec : Unbroken P L L')
    (hok : verifyChain P L' = .ok ()) (hbound : ∀ row ∈ L', LinkBound P row) :
    SignedPrefix P L' L := by
  obtain ⟨hlinked, entries, hall⟩ := verifyRows_ok hinv.verified
  obtain ⟨hlinked', entries', hall'⟩ := verifyRows_ok hok
  have hchain := linked_entries hlinked hall hinv.linkBound decode_genesis
  have hchain' := linked_entries hlinked' hall' hbound decode_genesis
  have hdigests : (entries.map P.digest).Nodup := by
    have h := hinv.hashes
    rw [map_hash hall] at h
    exact List.Nodup.of_map Hex.encode h
  have horigin : List.replicate 32 0 ∉ entries.map P.digest := by
    intro hmem
    obtain ⟨a, ha, hzero⟩ := List.mem_map.mp hmem
    obtain ⟨i, hi, rfl⟩ := List.mem_iff_getElem.mp ha
    have hlen := hall.length_eq
    have hi' : i < L.length := by omega
    have hv : Verifies P L[i] entries[i] := (List.forall₂_iff_get.mp hall).2
      i hi' hi
    exact hsec.noOrigin L[i] (List.getElem_mem hi') _ hv.entry hzero
  have hpre : entries' <+: entries :=
    HashChain.prefix_of_subset hchain (List.nodup_cons.mpr ⟨horigin, hdigests⟩)
      (List.nil_append entries).symm hchain'
      (mem_of_unbroken hsec hall hall')
  rw [SignedPrefix, map_signedPayload hall, map_signedPayload hall']
  exact hpre.map _

/-- A verified table over a prefix of the honest payloads has its links
bound. The induction is on the two tables together. -/
theorem prevHash_bound_of_prefix {P : Primitives} {d : String}
    {L L' : List Row} {entries entries' : List Entry}
    (hlinked : HashChain.Linked Row.prevHash Row.hash d L)
    (hall : List.Forall₂ (Verifies P) L entries)
    (hbound : ∀ row ∈ L, LinkBound P row)
    (hlinked' : HashChain.Linked Row.prevHash Row.hash d L')
    (hall' : List.Forall₂ (Verifies P) L' entries')
    (hpre : L'.map (signedPayload P) <+: L.map (signedPayload P)) :
    ∀ row ∈ L', LinkBound P row := by
  induction hall' generalizing d L entries with
  | nil => intro row hrow; cases hrow
  | @cons row' a' rest' entries' hv' _ ih =>
      cases hall with
      | nil => simp at hpre
      | @cons row a rest entries hv hrest =>
          obtain ⟨hprev, hlinks⟩ := hlinked
          obtain ⟨hprev', hlinks'⟩ := hlinked'
          rw [List.map_cons, List.map_cons, List.cons_prefix_cons] at hpre
          obtain ⟨hpay, htail⟩ := hpre
          rw [signedPayload_of_entry hv.entry,
            signedPayload_of_entry hv'.entry] at hpay
          have hsnd : a'.2 = a.2 := Option.some.inj hpay
          obtain ⟨e, hof, hdec, hcanon⟩ := exists_event_of_entry hv.entry
          obtain ⟨e', hof', hdec', hcanon'⟩ := exists_event_of_entry hv'.entry
          rw [hsnd] at hcanon'
          have hlink : e'.prevHash = e.prevHash :=
            prevHash_eq_of_canonicalBytes hcanon' hcanon hdec' hdec
          have hcol : row.prevHash = e.prevHash :=
            hbound row (by simp) e hof
          have hfst : a'.1 = a.1 := by
            rw [hlink, hdec] at hdec'
            exact (Option.some.inj hdec').symm
          have haa : a' = a := Prod.ext hfst hsnd
          have hhash : row'.hash = row.hash := by
            rw [hv'.hash_eq, hv.hash_eq, haa]
          intro r hr er hofr
          rcases List.mem_cons.mp hr with rfl | hr
          · rw [hof'] at hofr
            cases hofr
            rw [hprev', ← hprev, hcol, hlink]
          · rw [hhash] at hlinks'
            exact ih hlinks hrest
              (fun x hx => hbound x (List.mem_cons_of_mem row hx)) hlinks'
              htail r hr er hofr

/-- **What verification establishes.** Over any edits by a party without the
signing key, a table that verifies holds a prefix of the honest signed
payloads exactly when its `prev_hash` column is the one of the payloads, and
with the `id` and `event_type` columns in agreement as well exactly when all
three columns are. `verify_chain` checks none of the three. -/
theorem verifyChain_prefix_iff_bound (P : Primitives) {L L' : List Row}
    (hL : HonestTable P L) (hread : ReadsBack P L) (hsec : Unbroken P L L')
    (hok : verifyChain P L' = .ok ()) :
    (SignedPrefix P L' L ↔ ∀ row ∈ L', LinkBound P row) ∧
      ((SignedPrefix P L' L ∧ ∀ row ∈ L', ColumnsAgree P row) ↔
        ∀ row ∈ L', ∀ e, P.ofText row.payload = .ok e →
          row.prevHash = e.prevHash ∧ row.id = e.id ∧
            row.eventType = e.eventType) := by
  have hinv := honest_chain hL hread
  have hiff : SignedPrefix P L' L ↔ ∀ row ∈ L', LinkBound P row := by
    constructor
    · intro hpre
      obtain ⟨hlinked, entries, hall⟩ := verifyRows_ok hinv.verified
      obtain ⟨hlinked', entries', hall'⟩ := verifyRows_ok hok
      exact prevHash_bound_of_prefix hlinked hall hinv.linkBound hlinked'
        hall' hpre
    · exact signedPrefix_of_bound hinv hsec hok
  refine ⟨hiff, ?_⟩
  rw [hiff]
  constructor
  · rintro ⟨hlink, hagree⟩ row hrow e hof
    exact ⟨hlink row hrow e hof, hagree row hrow e hof⟩
  · intro hbound
    refine ⟨fun row hrow e hof => ?_, fun row hrow e hof => ?_⟩
    · exact (hbound row hrow e hof).1
    · exact (hbound row hrow e hof).2

/-- Rearranging the payloads of an honest table breaks no primitive. -/
theorem unbroken_of_payloads {P : Primitives} {L L' : List Row}
    (hsub : ∀ row ∈ L', ∃ row₀ ∈ L, row₀.payload = row.payload)
    (hinj : ∀ row ∈ L, ∀ row' ∈ L, ∀ a a', rowEntry P row = some a →
      rowEntry P row' = some a' → P.digest a = P.digest a' → a = a')
    (horigin : ∀ row ∈ L, ∀ a, rowEntry P row = some a →
      P.digest a ≠ List.replicate 32 0) : Unbroken P L L' := by
  have hentry : ∀ {row row₀ : Row}, row₀.payload = row.payload →
      rowEntry P row₀ = rowEntry P row := by
    intro row row₀ hpay
    simp only [rowEntry, hpay]
  refine
    { noForgery := ?_
      noCollision := ?_
      noOrigin := horigin }
  · intro row hrow a e sig ha _ _ _
    obtain ⟨row₀, hrow₀, hpay⟩ := hsub row hrow
    exact ⟨row₀, hrow₀, a, (hentry hpay).trans ha, rfl⟩
  · intro row₀ hrow₀ row hrow a₀ a ha₀ ha hdig
    obtain ⟨row₁, hrow₁, hpay⟩ := hsub row hrow
    have haa := hinj row₀ hrow₀ row₁ hrow₁ a₀ a ha₀
      ((hentry hpay).trans ha) hdig
    rw [haa]

/-! ## A table of two rows

Two notes with their actual canonical texts and digests, to run the
verification on. The sample primitives know these two texts only. -/

/-- A function known at two arguments. -/
def knownAt {α β : Type} [DecidableEq α] (k₁ k₂ : α) (v₁ v₂ d : β) (x : α) :
    β :=
  if x = k₁ then v₁ else if x = k₂ then v₂ else d

private theorem knownAt_first {α β : Type} [DecidableEq α] (k₁ k₂ : α)
    (v₁ v₂ d : β) : knownAt k₁ k₂ v₁ v₂ d k₁ = v₁ :=
  if_pos rfl

private theorem knownAt_second {α β : Type} [DecidableEq α] {k₁ k₂ : α}
    (hne : k₂ ≠ k₁) (v₁ v₂ d : β) : knownAt k₁ k₂ v₁ v₂ d k₂ = v₂ := by
  rw [knownAt, if_neg hne, if_pos rfl]

/-- The bytes of a text. -/
def textBytes (s : String) : Bytes := s.toUTF8.data.toList

def sampleDigest₁ : Bytes :=
  [0xf8, 0x37, 0x14, 0x80, 0xea, 0x91, 0x5c, 0x93,
    0xc9, 0x90, 0x91, 0x50, 0x89, 0x0e, 0x9c, 0x48,
    0xcd, 0x00, 0x9e, 0xc8, 0x69, 0x46, 0x83, 0xdf,
    0xe6, 0xd0, 0x7a, 0x74, 0x12, 0xe7, 0x87, 0x5e]

def sampleDigest₂ : Bytes :=
  [0x76, 0x6e, 0xca, 0xab, 0x0f, 0x46, 0x15, 0x18,
    0x0a, 0x2c, 0x2c, 0x68, 0xf2, 0x02, 0x4c, 0x9a,
    0x19, 0x45, 0x7d, 0xa4, 0x41, 0x1c, 0x32, 0xbb,
    0x42, 0x78, 0xcc, 0xa7, 0x13, 0xe9, 0x68, 0x87]

/-- A signed note, with the digest `digest`. -/
def sampleEvent (id ts text prevHash : String) (digest : Bytes) : Event :=
  { Event.draft memoryEventType (.obj [("text", .str text)]) none with
    id := id
    ts := ts
    prevHash := prevHash
    hash := some (Hex.encode digest)
    signature := some ("z" ++ Hex.encode digest) }

def sampleFirst : Event :=
  sampleEvent "01" "2026-01-01T00:00:00Z" "one" genesis sampleDigest₁

def sampleSecond : Event :=
  sampleEvent "02" "2026-01-01T00:00:01Z" "two" (Hex.encode sampleDigest₁)
    sampleDigest₂

/-- The canonical text of a note. -/
@[irreducible] def sampleCanon (e : Event) (text : String) : Bytes :=
  textBytes ("\x7b\"content\":\x7b\"text\":\"" ++ text ++ "\"\x7d,\"id\":\"" ++
    e.id ++ "\",\"prev_hash\":\"" ++ e.prevHash ++
    "\",\"signed_by_did\":\"" ++ e.signedByDid ++ "\",\"ts\":\"" ++ e.ts ++
    "\",\"type\":\"" ++ e.eventType ++ "\"\x7d")

/-- The stored text of a note. -/
@[irreducible] def sampleText (e : Event) (text : String) : String :=
  "\x7b\"id\":\"" ++ e.id ++ "\",\"ts\":\"" ++ e.ts ++ "\",\"type\":\"" ++
    e.eventType ++ "\",\"content\":\x7b\"text\":\"" ++ text ++
    "\"\x7d,\"prev_hash\":\"" ++ e.prevHash ++ "\",\"hash\":\"" ++
    hashColumn e ++ "\",\"signed_by_did\":\"" ++ e.signedByDid ++
    "\",\"signature\":\"z" ++ hashColumn e ++ "\"\x7d"

/-- The members of a note that are hashed. -/
def sampleValue (e : Event) : Json :=
  .obj (Json.removeKey "signature" (Json.removeKey "hash" e.toFields))

private theorem sampleCanon_ne :
    sampleCanon sampleFirst "one" ≠ sampleCanon sampleSecond "two" := by
  decide +kernel

private theorem sampleText_ne :
    sampleText sampleFirst "one" ≠ sampleText sampleSecond "two" := by
  decide +kernel

private theorem sampleFirst_ne : sampleFirst ≠ sampleSecond := by
  intro h
  have hid : "01" = "02" := congrArg Event.id h
  exact absurd hid (by decide)

private theorem sampleValue_ne :
    sampleValue sampleSecond ≠ sampleValue sampleFirst := by
  intro h
  have hid : some "02" = some "01" := congrArg (Json.getStr? · "id") h
  exact absurd hid (by decide)

private theorem sampleInput_ne :
    sampleDigest₁ ++ sampleCanon sampleSecond "two" ≠
      List.replicate 32 0 ++ sampleCanon sampleFirst "one" := by
  intro h
  have hhead : some (0xf8 : UInt8) = some 0 := congrArg List.head? h
  exact absurd hhead (by decide)

private theorem sampleDigest_ne : sampleDigest₁ ≠ sampleDigest₂ := by decide

/-- The library functions, on the two notes. -/
def samplePrimitives : Primitives where
  nfc := id
  jcs := knownAt (sampleValue sampleFirst) (sampleValue sampleSecond)
    (.ok (sampleCanon sampleFirst "one"))
    (.ok (sampleCanon sampleSecond "two")) (.error "unknown value")
  sha256 := knownAt (List.replicate 32 0 ++ sampleCanon sampleFirst "one")
    (sampleDigest₁ ++ sampleCanon sampleSecond "two")
    sampleDigest₁ sampleDigest₂ (List.replicate 32 255)
  signHash digest := "z" ++ Hex.encode digest
  verifyHash digest sig :=
    if sig = "z" ++ Hex.encode digest then .ok ()
    else .error (.signature "signature error")
  toText := knownAt sampleFirst sampleSecond (sampleText sampleFirst "one")
    (sampleText sampleSecond "two") ""
  ofText := knownAt (sampleText sampleFirst "one")
    (sampleText sampleSecond "two") (.ok sampleFirst) (.ok sampleSecond)
    (.error (.serde "unknown text"))
  sha256_length bytes := by
    unfold knownAt
    split
    · decide
    · split
      · decide
      · decide
  verify_sign digest := if_pos rfl
  nfc_ascii := id_ascii
  jcs_member v w bytes k hv hw := by
    unfold knownAt at hv hw
    split_ifs at hv hw with h₁ h₂ h₃ h₄ h₅
    · rw [h₁, h₂]
    · exact absurd ((Except.ok.inj hv).trans (Except.ok.inj hw).symm)
        sampleCanon_ne
    · exact absurd ((Except.ok.inj hw).trans (Except.ok.inj hv).symm)
        sampleCanon_ne
    · rw [h₄, ‹w = _›]

/-- The two rows as the engine stores them. -/
def sampleRow₁ : Row := rowOf samplePrimitives sampleFirst

def sampleRow₂ : Row := rowOf samplePrimitives sampleSecond

private theorem sample_toText : samplePrimitives.toText =
    knownAt sampleFirst sampleSecond (sampleText sampleFirst "one")
      (sampleText sampleSecond "two") "" := rfl

private theorem sample_ofText : samplePrimitives.ofText =
    knownAt (sampleText sampleFirst "one") (sampleText sampleSecond "two")
      (.ok sampleFirst) (.ok sampleSecond)
      (.error (.serde "unknown text")) := rfl

private theorem sample_jcs : samplePrimitives.jcs =
    knownAt (sampleValue sampleFirst) (sampleValue sampleSecond)
      (.ok (sampleCanon sampleFirst "one"))
      (.ok (sampleCanon sampleSecond "two")) (.error "unknown value") := rfl

private theorem sample_sha256 : samplePrimitives.sha256 =
    knownAt (List.replicate 32 0 ++ sampleCanon sampleFirst "one")
      (sampleDigest₁ ++ sampleCanon sampleSecond "two")
      sampleDigest₁ sampleDigest₂ (List.replicate 32 255) := rfl

private theorem sampleRow₁_payload :
    sampleRow₁.payload = sampleText sampleFirst "one" := by
  show samplePrimitives.toText sampleFirst = _
  rw [sample_toText, knownAt_first]

private theorem sampleRow₂_payload :
    sampleRow₂.payload = sampleText sampleSecond "two" := by
  show samplePrimitives.toText sampleSecond = _
  rw [sample_toText, knownAt_second (sampleFirst_ne).symm]

private theorem sampleRow₁_ofText :
    samplePrimitives.ofText sampleRow₁.payload = .ok sampleFirst := by
  rw [sampleRow₁_payload, sample_ofText, knownAt_first]

private theorem sampleRow₂_ofText :
    samplePrimitives.ofText sampleRow₂.payload = .ok sampleSecond := by
  rw [sampleRow₂_payload, sample_ofText, knownAt_second (sampleText_ne).symm]

private theorem sampleFirst_canonical {e : Event}
    (he : canonicalValue samplePrimitives e = sampleValue sampleFirst) :
    canonicalBytes samplePrimitives e =
      .ok (sampleCanon sampleFirst "one") := by
  rw [canonicalBytes_ok_iff, he, sample_jcs, knownAt_first]

private theorem sampleSecond_canonical {e : Event}
    (he : canonicalValue samplePrimitives e = sampleValue sampleSecond) :
    canonicalBytes samplePrimitives e =
      .ok (sampleCanon sampleSecond "two") := by
  rw [canonicalBytes_ok_iff, he, sample_jcs, knownAt_second sampleValue_ne]

private theorem sampleFirst_digest :
    samplePrimitives.digest
      (List.replicate 32 0, sampleCanon sampleFirst "one") =
      sampleDigest₁ := by
  rw [Primitives.digest, sample_sha256, knownAt_first]

private theorem sampleSecond_digest :
    samplePrimitives.digest
      (sampleDigest₁, sampleCanon sampleSecond "two") = sampleDigest₂ := by
  rw [Primitives.digest, sample_sha256, knownAt_second sampleInput_ne]

/-- The appends that store the two notes. -/
def sampleCall₁ : RowCall :=
  .append ⟨"01", "2026-01-01T00:00:00Z"⟩
    (.draft memoryEventType (.obj [("text", .str "one")]) none)

def sampleCall₂ : RowCall :=
  .append ⟨"02", "2026-01-01T00:00:01Z"⟩
    (.draft memoryEventType (.obj [("text", .str "two")]) none)

private theorem sampleCall₁_exec :
    sampleCall₁.exec samplePrimitives [] = [sampleRow₁] := by
  have hcomp : computeHash samplePrimitives (linkedRowEvent samplePrimitives
      ⟨"01", "2026-01-01T00:00:00Z"⟩ []
      (.draft memoryEventType (.obj [("text", .str "one")]) none)) =
      .ok sampleDigest₁ :=
    computeHash_ok_iff.2 ⟨_, _, decode_genesis, rfl,
      sampleFirst_canonical rfl, (sampleFirst_digest).symm⟩
  simp only [sampleCall₁, RowCall.exec, appendRow, appendRowInTx, hcomp]
  rfl

private theorem sampleCall₂_exec :
    sampleCall₂.exec samplePrimitives [sampleRow₁] =
      [sampleRow₁, sampleRow₂] := by
  have hcomp : computeHash samplePrimitives (linkedRowEvent samplePrimitives
      ⟨"02", "2026-01-01T00:00:01Z"⟩ [sampleRow₁]
      (.draft memoryEventType (.obj [("text", .str "two")]) none)) =
      .ok sampleDigest₂ :=
    computeHash_ok_iff.2 ⟨_, _, Hex.decode_encode sampleDigest₁, rfl,
      sampleSecond_canonical rfl, (sampleSecond_digest).symm⟩
  have hid : [sampleRow₁].any (fun r => r.id == "02") = false := by decide
  have hhash : [sampleRow₁].any
      (fun r => r.hash == Hex.encode sampleDigest₂) = false := by
    rw [List.any_eq_false]
    intro row hrow
    rw [List.mem_singleton] at hrow
    subst hrow
    rw [beq_iff_eq]
    exact fun h => sampleDigest_ne (Hex.encode_injective h)
  simp only [sampleCall₂, RowCall.exec, appendRow, appendRowInTx, hcomp, hid,
    hhash]
  rfl

theorem sampleTable_honest :
    HonestTable samplePrimitives [sampleRow₁, sampleRow₂] := by
  refine ⟨[sampleCall₁, sampleCall₂], ?_⟩
  rw [Trace.run_cons, sampleCall₁_exec, Trace.run_cons, sampleCall₂_exec]
  rfl

private theorem sampleTable_readsBack :
    ReadsBack samplePrimitives [sampleRow₁, sampleRow₂] := by
  have hempty₁ : sampleText sampleFirst "one" ≠ "" := by decide +kernel
  have hempty₂ : sampleText sampleSecond "two" ≠ "" := by decide +kernel
  intro row hrow e he
  have htext : row.payload = knownAt sampleFirst sampleSecond
      (sampleText sampleFirst "one") (sampleText sampleSecond "two") "" e := by
    rw [he, sample_toText]
  simp only [List.mem_cons, List.not_mem_nil, or_false] at hrow
  rcases hrow with rfl | rfl
  · rw [sampleRow₁_ofText]
    rw [sampleRow₁_payload] at htext
    unfold knownAt at htext
    split_ifs at htext with h₁ h₂
    · rw [h₁]
    · exact absurd htext sampleText_ne
    · exact absurd htext hempty₁
  · rw [sampleRow₂_ofText]
    rw [sampleRow₂_payload] at htext
    unfold knownAt at htext
    split_ifs at htext with h₁ h₂
    · exact absurd htext.symm sampleText_ne
    · rw [h₂]
    · exact absurd htext hempty₂

private theorem sampleRow₁_entry : rowEntry samplePrimitives sampleRow₁ =
    some (List.replicate 32 0, sampleCanon sampleFirst "one") := by
  have hdec : Hex.decode sampleFirst.prevHash = some (List.replicate 32 0) :=
    decode_genesis
  simp [rowEntry, sampleRow₁_ofText, hdec,
    sampleFirst_canonical (e := sampleFirst) rfl]

private theorem sampleRow₂_entry : rowEntry samplePrimitives sampleRow₂ =
    some (sampleDigest₁, sampleCanon sampleSecond "two") := by
  have hdec : Hex.decode sampleSecond.prevHash = some sampleDigest₁ :=
    Hex.decode_encode sampleDigest₁
  simp [rowEntry, sampleRow₂_ofText, hdec,
    sampleSecond_canonical (e := sampleSecond) rfl]

/-- No rearrangement of the two payloads breaks a primitive. -/
private theorem sampleTable_unbroken {L' : List Row}
    (hsub : ∀ row ∈ L', ∃ row₀ ∈ [sampleRow₁, sampleRow₂],
      row₀.payload = row.payload) :
    Unbroken samplePrimitives [sampleRow₁, sampleRow₂] L' := by
  have hentry : ∀ row ∈ [sampleRow₁, sampleRow₂], ∀ a,
      rowEntry samplePrimitives row = some a →
      a = (List.replicate 32 0, sampleCanon sampleFirst "one") ∨
        a = (sampleDigest₁, sampleCanon sampleSecond "two") := by
    intro row hrow a ha
    simp only [List.mem_cons, List.not_mem_nil, or_false] at hrow
    rcases hrow with rfl | rfl
    · rw [sampleRow₁_entry] at ha
      exact .inl (Option.some.inj ha).symm
    · rw [sampleRow₂_entry] at ha
      exact .inr (Option.some.inj ha).symm
  refine unbroken_of_payloads hsub ?_ ?_
  · intro row hrow row' hrow' a a' ha ha' hdig
    rcases hentry row hrow a ha with rfl | rfl <;>
      rcases hentry row' hrow' a' ha' with rfl | rfl
    · rfl
    · rw [sampleFirst_digest, sampleSecond_digest] at hdig
      exact absurd hdig sampleDigest_ne
    · rw [sampleFirst_digest, sampleSecond_digest] at hdig
      exact absurd hdig.symm sampleDigest_ne
    · rfl
  · intro row hrow a ha
    rcases hentry row hrow a ha with rfl | rfl
    · rw [sampleFirst_digest]
      decide
    · rw [sampleSecond_digest]
      decide

private theorem sampleTable_verified :
    verifyChain samplePrimitives [sampleRow₁, sampleRow₂] = .ok () :=
  (honest_chain sampleTable_honest sampleTable_readsBack).verified

/-- On the sample table cut off after its first row, the payloads are a
prefix exactly because the columns are bound. -/
theorem verifyChain_prefix_iff_bound_sample :
    SignedPrefix samplePrimitives [sampleRow₁] [sampleRow₁, sampleRow₂] ↔
      ∀ row ∈ [sampleRow₁], LinkBound samplePrimitives row := by
  have hsplit : verifyChain samplePrimitives
      ([sampleRow₁] ++ [sampleRow₂]) = .ok () := sampleTable_verified
  have hok : verifyChain samplePrimitives [sampleRow₁] = .ok () :=
    (verifyRows_append.1 hsplit).1
  have hsub : ∀ row ∈ [sampleRow₁], ∃ row₀ ∈ [sampleRow₁, sampleRow₂],
      row₀.payload = row.payload := by
    intro row hrow
    rw [List.mem_singleton] at hrow
    exact ⟨sampleRow₁, by simp, by rw [hrow]⟩
  exact (verifyChain_prefix_iff_bound samplePrimitives sampleTable_honest
    sampleTable_readsBack (sampleTable_unbroken hsub) hok).1

/-- With the first row deleted and the `prev_hash` column of the second one
set to the genesis value, the table still verifies, although its one signed
payload is not the first of the honest table. -/
theorem verifyChain_not_tamper_evident :
    ¬ ∀ (P : Primitives) (L L' : List Row), HonestTable P L → ReadsBack P L →
        Unbroken P L L' → verifyChain P L' = .ok () →
        SignedPrefix P L' L ∧ ∀ row ∈ L', ColumnsAgree P row := by
  intro hclaim
  have hsplit : verifyChain samplePrimitives
      ([] ++ [sampleRow₁] ++ sampleRow₂ :: []) = .ok () :=
    sampleTable_verified
  have hok : verifyChain samplePrimitives
      [{ sampleRow₂ with prevHash := genesis }] = .ok () :=
    verifyChain_accepts_deletion hsplit
  have hsub : ∀ row ∈ [{ sampleRow₂ with prevHash := genesis }],
      ∃ row₀ ∈ [sampleRow₁, sampleRow₂], row₀.payload = row.payload := by
    intro row hrow
    rw [List.mem_singleton] at hrow
    exact ⟨sampleRow₂, by simp, by rw [hrow]⟩
  obtain ⟨hpre, -⟩ := hclaim samplePrimitives [sampleRow₁, sampleRow₂] _
    sampleTable_honest sampleTable_readsBack (sampleTable_unbroken hsub) hok
  have hfirst : signedPayload samplePrimitives
      { sampleRow₂ with prevHash := genesis } =
      signedPayload samplePrimitives sampleRow₁ := by
    rw [SignedPrefix] at hpre
    exact (List.cons_prefix_cons.mp hpre).1
  have hpay₂ : signedPayload samplePrimitives
      { sampleRow₂ with prevHash := genesis } =
      some (sampleCanon sampleSecond "two") :=
    signedPayload_of_entry sampleRow₂_entry
  rw [hpay₂, signedPayload_of_entry sampleRow₁_entry] at hfirst
  exact sampleCanon_ne (Option.some.inj hfirst).symm

end AirNote
