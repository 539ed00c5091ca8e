import AirNote.AutoSend
import AirNote.Json
import AirNote.Lib.Fold
import Mathlib.Data.List.Infix

/-!
# The policy file and its writers

`agent-policy.json` holds every contact's dial, ledger and records, and each
call rewrites it whole: the file is loaded, one contact is changed, and the
policy replaces the file. The load answers with an empty policy wherever it
gets none, be it that the file is missing, cannot be read at the moment, is
no JSON, or says something this version does not know. The rewrite that
follows then drops what the file said of everyone else.

A file this version wrote is kept as the policy it was written from. In any
other JSON text each contact is looked at by itself, so that what the text
says of one contact is told apart from whether the whole of it loads.

## Main results

* `policy_update_frames_iff` — exactly when a call leaves every other contact
  as the file had it: it writes nothing, or the file was loaded and names
  nothing this version would drop, or no other contact is in the file.
* `policy_update_wipes` — one failed read empties the file of the others.
-/

namespace AirNote

/-! ## What is on file -/

/-- A record on file: what this version reads of it, and its members that
this version does not know. -/
structure StoredSend where
  send : AutoSend
  further : List (String × Json)
  deriving DecidableEq

/-- A contact on file. -/
structure StoredContact where
  aiAutonomy : Autonomy
  autoLedger : List String
  autoSends : List StoredSend
  deriving DecidableEq

/-- Unknown members are ignored. -/
def StoredContact.read (c : StoredContact) : ContactPolicy :=
  ⟨c.aiAutonomy, c.autoLedger, c.autoSends.map StoredSend.send⟩

/-- A contact as this version writes it. -/
def ContactPolicy.stored (c : ContactPolicy) : StoredContact :=
  ⟨c.aiAutonomy, c.autoLedger, c.autoSends.map fun a => ⟨a, []⟩⟩

/-- A member that may stand in the object once. -/
def memberOnce (fields : List (String × Json)) (name : String) :
    Option (Option Json) :=
  match fields.filter fun f => f.1 == name with
  | [] => some none
  | [f] => some (some f.2)
  | _ => none

/-- The members of a derived struct, of an object by their names and of an
array in their order. -/
def structMembers (names : List String) : Json → Option (List (Option Json))
  | .obj fields => names.mapM (memberOnce fields)
  | .arr items =>
      if items.length ≤ names.length then
        some ((List.range names.length).map fun i => items[i]?)
      else none
  | _ => none

/-- The members that are none of a struct's. -/
def furtherMembers (names : List String) : Json → List (String × Json)
  | .obj fields => fields.filter fun f => !names.contains f.1
  | _ => []

/-- `#[serde(default)]`. -/
def orDefault {α : Type} (default : α) (decode : Json → Option α) :
    Option Json → Option α
  | none => some default
  | some j => decode j

/-- The lower-case verb. -/
def autonomyOfVerb (verb : String) : Option Autonomy :=
  if verb = "off" then some .off
  else if verb = "draft" then some .draft
  else if verb = "auto" then some .auto
  else none

/-- A unit variant: its name, or an object of its name and `null`. -/
def autonomyOfJson : Json → Option Autonomy
  | .str verb => autonomyOfVerb verb
  | .obj [(verb, .null)] => autonomyOfVerb verb
  | _ => none

/-- `Vec<String>`. -/
def stringsOfJson (j : Json) : Option (List String) :=
  j.asArray.bind fun items => items.mapM Json.asStr

/-- The members of an `AutoSend`. -/
def sendMembers : List String :=
  ["token", "envelope_id", "thread_id", "at", "pending"]

/-- An `AutoSend`; `time` is what a text says as a time. -/
def sendOfJson (time : String → Option Instant) (j : Json) :
    Option StoredSend :=
  match structMembers sendMembers j with
  | some [token, envelopeId, threadId, atText, pending] => do
      let token ← token.bind Json.asStr
      let envelopeId ← orDefault "" Json.asStr envelopeId
      let threadId ← threadId.bind Json.asStr
      let atText ← atText.bind Json.asStr
      let pending ← orDefault false Json.asBool pending
      some ⟨⟨token, envelopeId, threadId, time atText, pending⟩,
        furtherMembers sendMembers j⟩
  | _ => none

/-- A `ContactPolicy`. -/
def contactOfJson (time : String → Option Instant) (j : Json) :
    Option StoredContact :=
  match structMembers ["ai_autonomy", "auto_ledger", "auto_sends"] j with
  | some [dial, ledger, sends] => do
      let dial ← orDefault .draft autonomyOfJson dial
      let ledger ← orDefault [] stringsOfJson ledger
      let sends ← orDefault []
        (fun j => j.asArray.bind fun items => items.mapM (sendOfJson time))
        sends
      some ⟨dial, ledger, sends⟩
  | _ => none

/-- The members of an object, of one name the last. -/
def lastMembers (fields : List (String × Json)) : List (String × Json) :=
  fields.foldl (fun m f => Json.insertKey f.1 f.2 m) []

/-- What a value reads as, where it decodes. -/
def contactRead (time : String → Option Instant) (j : Json) : ContactPolicy :=
  ((contactOfJson time j).map StoredContact.read).getD .default

/-- The map of the contacts; each of its values must decode. -/
def contactsOfJson (time : String → Option Instant) :
    Json → Option (List (String × ContactPolicy))
  | .obj fields =>
      if fields.all fun f => (contactOfJson time f.2).isSome then
        some ((lastMembers fields).map fun f => (f.1, contactRead time f.2))
      else none
  | _ => none

/-- A `Policy`; its version is a `u32`. -/
def policyOfJson (time : String → Option Instant) (j : Json) :
    Option Policy :=
  match structMembers ["version", "contacts"] j with
  | some [version, contacts] => do
      let version ← (version.bind Json.asU64).filter (· < 2 ^ 32)
      let contacts ← orDefault [] (contactsOfJson time) contacts
      some ⟨version, contacts⟩
  | _ => none

/-- The file: missing, no JSON, some JSON, or a policy as this version
writes it. -/
inductive PolicyContent where
  | missing
  | garbled (text : String)
  | json (j : Json)
  | written (p : Policy)

/-- `serde_json::from_str`. -/
def PolicyContent.parse (time : String → Option Instant) :
    PolicyContent → Option Policy
  | .missing => none
  | .garbled _ => none
  | .json j => policyOfJson time j
  | .written p => some p

/-- `Policy::default`. -/
def Policy.default : Policy := ⟨1, []⟩

/-- `load`, with whether the file can be read. -/
def PolicyContent.load (time : String → Option Instant) (reads : Bool)
    (c : PolicyContent) : Policy :=
  if reads then (c.parse time).getD .default else .default

/-! ## What the file says of a contact -/

/-- What the file says of a contact: a policy, a value this version cannot
read, or something in a text that is no JSON. -/
inductive PolicyEntry where
  | contact (c : StoredContact)
  | unread (j : Json)
  | inText (text : String)
  deriving DecidableEq

/-- What a value under a contact's identifier says. -/
def entryOfJson (time : String → Option Instant) (j : Json) : PolicyEntry :=
  match contactOfJson time j with
  | some c => .contact c
  | none => .unread j

/-- The members of an object. -/
def objectMembers : Json → List (String × Json)
  | .obj fields => fields
  | _ => []

/-- The members under `contacts`. -/
def contactMembers : Json → List (String × Json)
  | .obj fields =>
      (fields.filter fun f => f.1 == "contacts").flatMap fun f =>
        objectMembers f.2
  | .arr items => (items[1]?.map objectMembers).getD []
  | _ => []

/-- The file's entry for a contact; in a text that is no JSON, a contact is
there when its identifier stands in quotes. -/
def PolicyContent.entry (time : String → Option Instant) (d : String) :
    PolicyContent → Option PolicyEntry
  | .missing => none
  | .garbled text =>
      if ("\"" ++ d ++ "\"").toList <:+: text.toList then some (.inText text)
      else none
  | .json j =>
      ((lastMembers (contactMembers j)).lookup d).map (entryOfJson time)
  | .written p => (p.contacts.lookup d).map fun c => .contact c.stored

/-- The entry without the records that are not kept. -/
def PolicyEntry.retain (keeps : AutoSend → Bool) : PolicyEntry → PolicyEntry
  | .contact c => .contact
      { c with autoSends := c.autoSends.filter fun r => keeps r.send }
  | e => e

/-! ## The calls -/

/-- The contact of a call. -/
def PolicyOp.did : PolicyOp → String
  | .reserve did _ _ _ _ _ => did
  | .confirm did _ _ _ _ _ => did
  | .cancel did _ _ => did
  | .setAutonomy did _ _ => did

/-- Whether the file can be written. -/
def PolicyOp.writes : PolicyOp → Bool
  | .reserve _ _ _ _ _ writes => writes
  | .confirm _ _ _ _ _ writes => writes
  | .cancel _ _ writes => writes
  | .setAutonomy _ _ writes => writes

/-- The records a call keeps: `reserve` prunes. -/
def PolicyOp.keeps : PolicyOp → AutoSend → Bool
  | .reserve _ _ _ now _ _ => AutoSend.kept now
  | _ => fun _ => true

/-- `reset_to_draft`. -/
def PolicyOp.resetToDraft (did : String) (writes : Bool) : PolicyOp :=
  .setAutonomy did .draft writes

/-- The call has something to write: a `reserve` only where it grants or
prunes. -/
def Policy.rewrites (p : Policy) : PolicyOp → Bool
  | .reserve did threadId receivedAt now _ _ =>
      ((p.prune now).decide did threadId receivedAt now).1 == .auto ||
        p.prune now != p
  | _ => true

/-- The policy a call writes. -/
def Policy.rewrite (p : Policy) : PolicyOp → Policy
  | .reserve did threadId receivedAt now token _ =>
      (p.reserve did threadId receivedAt now token true).1
  | .confirm did token envelopeId threadId now _ =>
      p.confirm did token envelopeId threadId now
  | .cancel did token _ => p.cancel did token
  | .setAutonomy did value _ => p.setAutonomy did value

/-- One call: the file after it, and whether it succeeded. `write_atomic`
replaces the file whole or leaves it. -/
def PolicyContent.call (time : String → Option Instant) (c : PolicyContent)
    (reads : Bool) (op : PolicyOp) : PolicyContent × Bool :=
  let p := c.load time reads
  if p.rewrites op then
    if op.writes then (.written (p.rewrite op), true) else (c, false)
  else (c, true)

/-! ## The frame -/

/-- Every other contact is as it was, expired records aside. -/
def PolicyContent.Framed (time : String → Option Instant) (op : PolicyOp)
    (before after : PolicyContent) : Prop :=
  ∀ d, d ≠ op.did →
    after.entry time d = before.entry time d ∨
      after.entry time d =
        (before.entry time d).map (PolicyEntry.retain op.keeps)

/-- The call fails and leaves the file, or it leaves every other contact. -/
def PolicyContent.TouchesOne (time : String → Option Instant)
    (op : PolicyOp) (before : PolicyContent)
    (result : PolicyContent × Bool) : Prop :=
  (result.2 = false ∧ result.1 = before) ∨ before.Framed time op result.1

/-- No kept record of another contact has members this version does not
know. -/
def PolicyContent.Known (time : String → Option Instant) (op : PolicyOp)
    (c : PolicyContent) : Prop :=
  ∀ d, d ≠ op.did → ∀ s, c.entry time d = some (.contact s) →
    ∀ r ∈ s.autoSends, op.keeps r.send = true → r.further = []

/-- No other contact is in the file. -/
def PolicyContent.Lone (time : String → Option Instant) (op : PolicyOp)
    (c : PolicyContent) : Prop :=
  ∀ d, d ≠ op.did → c.entry time d = none

/-- The call writes nothing, or the file is loaded and nothing in it is
unknown, or nobody else is in it. -/
def PolicyContent.Harmless (time : String → Option Instant) (reads : Bool)
    (op : PolicyOp) (c : PolicyContent) : Prop :=
  op.writes = false ∨
    (c.load time reads).rewrites op = false ∨
    (reads = true ∧ (c.parse time).isSome = true ∧ c.Known time op) ∨
    c.Lone time op

/-! ## Reading what is there -/

theorem mem_lastMembers {fields : List (String × Json)} {f : String × Json}
    (h : f ∈ lastMembers fields) : f ∈ fields := by
  suffices hfold : ∀ (l m : List (String × Json)),
      f ∈ l.foldl (fun m f => Json.insertKey f.1 f.2 m) m → f ∈ m ∨ f ∈ l by
    have hmem := hfold fields [] h
    simpa using hmem
  intro l
  induction l with
  | nil => exact fun m hm => .inl hm
  | cons g rest ih =>
      intro m hm
      have hcase := ih (Json.insertKey g.1 g.2 m) hm
      cases hcase with
      | inl hinsert =>
          have hkey := Json.mem_insertKey hinsert
          cases hkey with
          | inl heq => exact .inr (by rw [heq]; exact List.mem_cons_self)
          | inr hold => exact .inl hold
      | inr hrest => exact .inr (List.mem_cons_of_mem g hrest)

/-- The members under `contacts` are those of the value the struct reads
there. -/
theorem contactMembers_eq {j : Json} {version contacts : Option Json}
    (h : structMembers ["version", "contacts"] j =
      some [version, contacts]) :
    contactMembers j = (contacts.map objectMembers).getD [] := by
  cases j with
  | obj fields =>
      have honce : memberOnce fields "contacts" = some contacts := by
        simp only [structMembers, List.mapM_cons, List.mapM_nil,
          Option.pure_def, Option.bind_eq_bind, Option.bind_eq_some_iff,
          Option.some.injEq, List.cons.injEq] at h
        grind
      unfold memberOnce at honce
      show (fields.filter fun f => f.1 == "contacts").flatMap
        (fun f => objectMembers f.2) = _
      split at honce
      · rename_i hnone
        rw [hnone, ← Option.some.inj honce]
        rfl
      · rename_i f hone
        rw [hone, ← Option.some.inj honce]
        exact List.flatMap_singleton _ f
      · cases honce
  | arr items =>
      have hshort : items.length ≤ 2 := by
        by_cases hlength : items.length ≤ 2
        · exact hlength
        · simp [structMembers, hlength] at h
      have hmember : items[1]? = contacts := by
        simp [structMembers, hshort, List.range_succ] at h
        exact h.2
      show (items[1]?.map objectMembers).getD [] = _
      rw [hmember]
  | _ => cases h

theorem entry_json (time : String → Option Instant) (j : Json) (d : String) :
    (PolicyContent.json j).entry time d =
      ((lastMembers (contactMembers j)).lookup d).map (entryOfJson time) := rfl

theorem entry_written (time : String → Option Instant) (p : Policy)
    (d : String) :
    (PolicyContent.written p).entry time d =
      (p.contacts.lookup d).map fun c => .contact c.stored := rfl

@[simp] theorem read_stored (c : ContactPolicy) : c.stored.read = c := by
  have hsends : (c.autoSends.map fun a => (⟨a, []⟩ : StoredSend)).map
      StoredSend.send = c.autoSends := by
    rw [List.map_map]
    exact List.map_id _
  rw [StoredContact.read, ContactPolicy.stored, hsends]

/-- A contact of the map that decodes is a member that decodes. -/
theorem lookup_contactsOfJson {time : String → Option Instant} (value : Json)
    {cs : List (String × ContactPolicy)}
    (h : contactsOfJson time value = some cs) (d : String) :
    ((lastMembers (objectMembers value)).lookup d = none ∧
        cs.lookup d = none) ∨
      ∃ w s, (lastMembers (objectMembers value)).lookup d = some w ∧
        contactOfJson time w = some s ∧ cs.lookup d = some s.read := by
  cases value with
  | obj fields =>
      show (lastMembers fields).lookup d = none ∧ _ ∨ ∃ w s,
        (lastMembers fields).lookup d = some w ∧ _
      change (if _ then _ else none) = _ at h
      split at h
      · rename_i hall
        rw [← Option.some.inj h, Lib.Fold.lookup_map_snd (contactRead time)]
        cases hlookup : (lastMembers fields).lookup d with
        | none => exact .inl ⟨rfl, rfl⟩
        | some w =>
            obtain ⟨l₁, l₂, hl, -⟩ := List.lookup_eq_some_iff.mp hlookup
            have hmem : (d, w) ∈ lastMembers fields := by
              rw [hl]
              exact List.mem_append_right _ List.mem_cons_self
            have hsome := List.all_eq_true.mp hall (d, w)
              (mem_lastMembers hmem)
            obtain ⟨s, hs⟩ := Option.isSome_iff_exists.mp hsome
            refine .inr ⟨w, s, rfl, hs, ?_⟩
            rw [Option.map_some, contactRead, hs]
            rfl
      · cases h
  | _ => cases h

/-- A contact in the file of a policy that loads stands there as it is
read. -/
theorem entry_of_parse {time : String → Option Instant} {c : PolicyContent}
    {p : Policy} (h : c.parse time = some p) (d : String) :
    (c.entry time d = none ∧ p.contacts.lookup d = none) ∨
      ∃ s : StoredContact, c.entry time d = some (.contact s) ∧
        p.contacts.lookup d = some s.read := by
  cases c with
  | missing => cases h
  | garbled text => cases h
  | written q =>
      cases h
      rw [entry_written]
      cases p.contacts.lookup d with
      | none => exact .inl ⟨rfl, rfl⟩
      | some x => exact .inr ⟨x.stored, rfl, by rw [read_stored]⟩
  | json j =>
      change policyOfJson time j = some p at h
      unfold policyOfJson at h
      split at h
      · rename_i version contacts hmembers
        simp only [Option.bind_eq_bind, Option.bind_eq_some_iff,
          Option.some.injEq] at h
        obtain ⟨v, -, cs, hcs, rfl⟩ := h
        rw [entry_json, contactMembers_eq hmembers]
        cases contacts with
        | none =>
            rw [← Option.some.inj hcs]
            exact .inl ⟨rfl, rfl⟩
        | some value =>
            have hcase := lookup_contactsOfJson value hcs d
            rw [Option.map_some, Option.getD_some]
            rcases hcase with ⟨hnone, hlookup⟩ | ⟨w, s, hw, hs, hlookup⟩
            · exact .inl ⟨by rw [hnone]; rfl, hlookup⟩
            · refine .inr ⟨s, ?_, hlookup⟩
              rw [hw, Option.map_some, entryOfJson, hs]
      · cases h

/-! ## What a call writes of the others -/

/-- The contact without the records that are not kept. -/
def ContactPolicy.retain (keeps : AutoSend → Bool) (c : ContactPolicy) :
    ContactPolicy :=
  { c with autoSends := c.autoSends.filter keeps }

theorem map_retain_all (x : Option ContactPolicy) :
    x.map (ContactPolicy.retain fun _ => true) = x := by
  cases x with
  | none => rfl
  | some c =>
      rw [Option.map_some, ContactPolicy.retain, List.filter_true]

theorem lookup_update_ne (p : Policy) {did d : String}
    (f : ContactPolicy → ContactPolicy) (hd : d ≠ did) :
    (p.update did f).contacts.lookup d = p.contacts.lookup d := by
  show (updateEntry did f p.contacts).lookup d = _
  rw [lookup_updateEntry, if_neg hd]

/-- Where the file can be written, a `reserve` prunes, and it adds a record
where it grants. -/
theorem reserve_writes (p : Policy) (did : String)
    (threadId : Option String) (receivedAt : Option Instant) (now : Instant)
    (token : String) :
    (p.reserve did threadId receivedAt now token true).1 = p.prune now ∨
      (p.reserve did threadId receivedAt now token true).1 =
        (p.prune now).update did fun c => { c with autoSends :=
          c.autoSends ++ [reservedSend threadId now token] } := by
  unfold Policy.reserve
  dsimp only
  split
  · exact .inr rfl
  · split
    · rename_i hsame
      exact .inl hsame.symm
    · exact .inl rfl

/-- A granted or a pruning `reserve` leaves the pruned policy to everyone but
its contact. -/
theorem lookup_reserve (p : Policy) (did : String)
    (threadId : Option String) (receivedAt : Option Instant) (now : Instant)
    (token : String) {d : String} (hd : d ≠ did) :
    (p.reserve did threadId receivedAt now token true).1.contacts.lookup d =
      (p.prune now).contacts.lookup d := by
  have hcases := reserve_writes p did threadId receivedAt now token
  rcases hcases with hprune | hgrant
  · rw [hprune]
  · rw [hgrant, lookup_update_ne _ _ hd]

/-- Whatever a call writes, the others stand in it as they were loaded, but
for the records pruned. -/
theorem lookup_rewrite (p : Policy) (op : PolicyOp) {d : String}
    (hd : d ≠ op.did) :
    (p.rewrite op).contacts.lookup d =
      (p.contacts.lookup d).map (ContactPolicy.retain op.keeps) := by
  cases op with
  | reserve did threadId receivedAt now token writes =>
      have hreserve := lookup_reserve p did threadId receivedAt now token hd
      exact hreserve.trans (lookup_map_contact
        (ContactPolicy.retain (AutoSend.kept now)) p.contacts d)
  | confirm did token envelopeId threadId now writes =>
      exact (lookup_update_ne p _ hd).trans (map_retain_all _).symm
  | cancel did token writes =>
      show (p.cancel did token).contacts.lookup d = _
      unfold Policy.cancel
      split
      · exact (lookup_update_ne p _ hd).trans (map_retain_all _).symm
      · exact (map_retain_all _).symm
  | setAutonomy did value writes =>
      exact (lookup_update_ne p _ hd).trans (map_retain_all _).symm

/-! ## The frame, exactly -/

/-- Records without further members are what this version writes of them. -/
theorem map_stored_filter {keeps : AutoSend → Bool} {l : List StoredSend}
    (h : ∀ r ∈ l, keeps r.send = true → r.further = []) :
    ((l.map StoredSend.send).filter keeps).map (fun a => ⟨a, []⟩) =
      l.filter fun r => keeps r.send := by
  induction l with
  | nil => rfl
  | cons r rest ih =>
      have hrest := ih fun r' hr' => h r' (List.mem_cons_of_mem r hr')
      rw [List.map_cons, List.filter_cons, List.filter_cons]
      by_cases hkeeps : keeps r.send = true
      · have hfurther := h r List.mem_cons_self hkeeps
        rw [if_pos hkeeps, if_pos hkeeps, List.map_cons, hrest, ← hfurther]
      · rw [if_neg hkeeps, if_neg hkeeps, hrest]

/-- What a call writes of another contact that is loaded. -/
theorem entry_rewrite {time : String → Option Instant} {p : Policy}
    {op : PolicyOp} {d : String} (hd : d ≠ op.did) :
    (PolicyContent.written (p.rewrite op)).entry time d =
      (p.contacts.lookup d).map fun c =>
        .contact (c.retain op.keeps).stored := by
  rw [entry_written, lookup_rewrite p op hd, Option.map_map]
  rfl

theorem call_of_not_rewrites {time : String → Option Instant}
    {c : PolicyContent} {reads : Bool} {op : PolicyOp}
    (h : (c.load time reads).rewrites op = false) :
    c.call time reads op = (c, true) := by
  unfold PolicyContent.call
  simp [h]

theorem call_of_not_writes {time : String → Option Instant}
    {c : PolicyContent} {reads : Bool} {op : PolicyOp}
    (hrewrites : (c.load time reads).rewrites op = true)
    (hwrites : op.writes = false) : c.call time reads op = (c, false) := by
  unfold PolicyContent.call
  simp [hrewrites, hwrites]

theorem call_of_writes {time : String → Option Instant}
    {c : PolicyContent} {reads : Bool} {op : PolicyOp}
    (hrewrites : (c.load time reads).rewrites op = true)
    (hwrites : op.writes = true) :
    c.call time reads op =
      (.written ((c.load time reads).rewrite op), true) := by
  unfold PolicyContent.call
  simp [hrewrites, hwrites]

/-- A rewrite of a file that was loaded leaves the others where nothing kept
of them is unknown. -/
theorem framed_of_known {time : String → Option Instant} {c : PolicyContent}
    {p : Policy} {op : PolicyOp} (hparse : c.parse time = some p)
    (hknown : c.Known time op) :
    c.Framed time op (.written (p.rewrite op)) := by
  intro d hd
  have hentry := entry_of_parse hparse d
  rw [entry_rewrite hd]
  rcases hentry with ⟨hnone, hlookup⟩ | ⟨s, hs, hlookup⟩
  · exact .inl (by rw [hlookup, hnone]; rfl)
  · have hsends := map_stored_filter (hknown d hd s hs)
    refine .inr ?_
    rw [hlookup, hs, Option.map_some, Option.map_some]
    show some (PolicyEntry.contact ⟨s.aiAutonomy, s.autoLedger, _⟩) = _
    show some (PolicyEntry.contact ⟨s.aiAutonomy, s.autoLedger,
      ((s.autoSends.map StoredSend.send).filter op.keeps).map _⟩) = _
    rw [hsends]
    rfl

/-- And only there. -/
theorem known_of_framed {time : String → Option Instant} {c : PolicyContent}
    {p : Policy} {op : PolicyOp} (hparse : c.parse time = some p)
    (h : c.Framed time op (.written (p.rewrite op))) : c.Known time op := by
  intro d hd s hs r hr hkeeps
  have hentry := entry_of_parse hparse d
  rcases hentry with ⟨hnone, -⟩ | ⟨s', hs', hlookup⟩
  · rw [hnone] at hs
    cases hs
  · rw [hs'] at hs
    cases hs
    have hframed := h d hd
    rw [entry_rewrite hd, hlookup, hs', Option.map_some,
      Option.map_some] at hframed
    have hwritten : ∀ sends : List StoredSend, r ∈ sends →
        (s.read.retain op.keeps).stored.autoSends = sends →
          r.further = [] := by
      intro sends hmem heq
      rw [← heq] at hmem
      obtain ⟨a, -, rfl⟩ := List.mem_map.mp hmem
      rfl
    rcases hframed with hsame | hpruned
    · have heq := PolicyEntry.contact.inj (Option.some.inj hsame)
      exact hwritten s.autoSends hr (congrArg StoredContact.autoSends heq)
    · have heq := PolicyEntry.contact.inj (Option.some.inj hpruned)
      exact hwritten (s.autoSends.filter fun r => op.keeps r.send)
        (List.mem_filter.mpr ⟨hr, hkeeps⟩)
        (congrArg StoredContact.autoSends heq)

/-- A rewrite of a policy without the contacts of the file leaves the file
where nobody else is in it, and only there. -/
theorem framed_default_iff {time : String → Option Instant}
    {c : PolicyContent} {op : PolicyOp} :
    c.Framed time op (.written (Policy.default.rewrite op)) ↔
      c.Lone time op := by
  have hnone : ∀ d, d ≠ op.did →
      (PolicyContent.written (Policy.default.rewrite op)).entry time d =
        none := by
    intro d hd
    rw [entry_rewrite hd]
    rfl
  constructor
  · intro h d hd
    have hframed := h d hd
    rw [hnone d hd] at hframed
    rcases hframed with hsame | hpruned
    · exact hsame.symm
    · exact Option.map_eq_none_iff.mp hpruned.symm
  · intro h d hd
    exact .inl (by rw [hnone d hd, h d hd])

/-- A rewrite leaves the others exactly where the file was loaded and nothing
kept of them is unknown, or where nobody else is in it. -/
theorem framed_iff (time : String → Option Instant) (c : PolicyContent)
    (reads : Bool) (op : PolicyOp) :
    c.Framed time op (.written ((c.load time reads).rewrite op)) ↔
      (reads = true ∧ (c.parse time).isSome = true ∧ c.Known time op) ∨
        c.Lone time op := by
  have hloses : c.load time reads = .default →
      ¬ (reads = true ∧ (c.parse time).isSome = true) →
      (c.Framed time op (.written ((c.load time reads).rewrite op)) ↔
        (reads = true ∧ (c.parse time).isSome = true ∧ c.Known time op) ∨
          c.Lone time op) := by
    intro hload hnot
    rw [hload, framed_default_iff]
    constructor
    · exact fun hlone => .inr hlone
    · rintro (⟨hreads, hparse, -⟩ | hlone)
      · exact absurd ⟨hreads, hparse⟩ hnot
      · exact hlone
  cases reads with
  | false => exact hloses rfl fun h => by cases h.1
  | true =>
      cases hparse : c.parse time with
      | none =>
          rw [hparse] at hloses
          refine hloses ?_ fun h => by cases h.2
          rw [PolicyContent.load, if_pos rfl, hparse]
          rfl
      | some p =>
          have hload : c.load time true = p := by
            rw [PolicyContent.load, if_pos rfl, hparse]
            rfl
          rw [hload]
          constructor
          · exact fun h => .inl ⟨rfl, rfl, known_of_framed hparse h⟩
          · rintro (⟨-, -, hknown⟩ | hlone)
            · exact framed_of_known hparse hknown
            · refine framed_of_known hparse fun d hd s hs => ?_
              rw [hlone d hd] at hs
              cases hs

/-- A call for one contact leaves every other contact as the file had it, or
fails and leaves the file, exactly when it writes nothing, or the file was
loaded and no kept record of another contact has members this version does
not know, or no other contact is in the file. -/
theorem policy_update_frames_iff (time : String → Option Instant)
    (c : PolicyContent) (reads : Bool) (op : PolicyOp) :
    c.TouchesOne time op (c.call time reads op) ↔
      c.Harmless time reads op := by
  unfold PolicyContent.TouchesOne PolicyContent.Harmless
  by_cases hrewrites : (c.load time reads).rewrites op = true
  · by_cases hwrites : op.writes = true
    · rw [call_of_writes hrewrites hwrites]
      simp only [hrewrites, hwrites, Bool.true_eq_false, false_and, false_or]
      exact framed_iff time c reads op
    · have hfails : op.writes = false := by simpa using hwrites
      rw [call_of_not_writes hrewrites hfails]
      exact iff_of_true (.inl ⟨rfl, rfl⟩) (.inl hfails)
  · have hidle : (c.load time reads).rewrites op = false := by
      simpa using hrewrites
    rw [call_of_not_rewrites hidle]
    exact iff_of_true (.inr fun _ _ => .inl rfl) (.inr (.inl hidle))

/-- A file with one contact, whose dial was turned off. -/
def mutedFile : PolicyContent :=
  .json (.obj [("version", .num 1), ("contacts", .obj [("did:b", .obj
    [("ai_autonomy", .str "off"), ("auto_ledger", .arr [.str "e1"]),
      ("auto_sends", .arr [])])])])

/-- The file cannot be read for a moment while another contact's dial is
set, and the dial that was off is gone. -/
theorem policy_update_wipes :
    ¬ ∀ (time : String → Option Instant) (c : PolicyContent) (reads : Bool)
      (op : PolicyOp), c.TouchesOne time op (c.call time reads op) := by
  intro h
  have hcall := h (fun _ => none) mutedFile false
    (.setAutonomy "did:a" .draft true)
  rcases hcall with ⟨hfails, -⟩ | hframed
  · cases hfails
  · have hother := hframed "did:b" (by decide)
    revert hother
    decide +kernel

/-- A dial this version does not know fails the whole load, and the next call
for someone else drops the contact that was off. -/
example : ((PolicyContent.json (.obj [("version", .num 2), ("contacts",
      .obj [("did:b", .obj [("ai_autonomy", .str "off")]),
        ("did:c", .obj [("ai_autonomy", .str "ask")])])])).call
      (fun _ => none) true (.setAutonomy "did:a" .draft true)).1.entry
        (fun _ => none) "did:b" = none := by
  decide +kernel

end AirNote
