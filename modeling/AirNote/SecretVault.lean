import Mathlib.Logic.Function.Basic
import AirNote.Lib.Trace

/-!
# The secret blob

The desktop keeps its secrets as one map, saved under a single entry of the
keychain and kept in a cache. A call takes the cached map, changes its copy,
saves the copy as the blob and puts it in the cache; each of these is a step
of its own, with no lock across them. The first call of all reads the blob or,
where there is none, migrates the entries of the old keychain service into
one.

A move lets a thread begin a call or take its next step, with a keychain
request that succeeds or fails. A copy that has gone stale meanwhile loses
what others have saved: the runs in which no step saves or caches a stale copy
are the ones in which the blob holds what the calls have made of it.

## Main results

* `Inv.step` — what one move of any thread keeps.
* `vault_keeps` — which runs lose no key.
* `interleaved_sets_lose` — two calls that lose one.
-/

namespace AirNote.SecretVault

open Lib

/-! ## The vault -/

/-- A map from keys to secrets. -/
abbrev Secrets := String → Option String

/-- The entries the first use migrates. -/
def legacyKeys : List String :=
  ["session_jwt", "openai_compat_api_key", "openai_api_key",
    "anthropic_api_key", "google_api_key", "brave_api_key", "tavily_api_key"]

/-- The entries that are carried over one by one, when they are asked for. -/
def isWebAuth (key : String) : Bool :=
  "web_auth::".toList.isPrefixOf key.toList

inductive Call where
  | set (key value : String)
  | get (key : String)
  | delete (key : String)
  deriving DecidableEq

namespace Call

def key : Call → String
  | set key _ => key
  | get key => key
  | delete key => key

/-- A call that is to change the blob. -/
def changes : Call → Bool
  | get _ => false
  | _ => true

/-- A call that deletes the legacy entry of its key when it is done. -/
def dropsOwn : Call → Bool
  | set _ _ => false
  | _ => true

/-- What the call makes of a copy of the map. -/
def change : Call → Secrets → Secrets
  | set key value, values => Function.update values key (some value)
  | get _, values => values
  | delete key, values => Function.update values key none

end Call

/-- Where a thread stands in its call. The maps are the thread's copies. -/
inductive Pc where
  | readCache
  | load
  | cacheLoaded (values : Secrets)
  | readLegacy (keys : List String) (values : Secrets)
  | dropLegacy (keys : List String) (values : Secrets)
  | save (values : Secrets)
  | readWebAuth (values : Secrets)
  | carry (values : Secrets) (value : String)
  | writeCache (values : Secrets)
  | dropOwn

namespace Pc

/-- The call has saved the blob. -/
def saved : Pc → Bool
  | writeCache _ => true
  | dropOwn => true
  | _ => false

/-- The call has saved the blob and has yet to put it in the cache. -/
def writing : Pc → Bool
  | writeCache _ => true
  | _ => false

end Pc

/-- The keychain's blob and legacy entries, the cache and the threads;
`effects` and `finished` record which calls saved their change, in that order,
and which returned `Ok`. -/
structure Vault where
  blob : Option Secrets
  legacy : Secrets
  cache : Option Secrets
  threads : Nat → Option (Call × Pc)
  effects : List Call
  finished : List Call

namespace Vault

/-- Thread `t` goes on to the next step of its call, or returns. -/
def goesTo (s : Vault) (t : Nat) (next : Option (Call × Pc)) : Vault :=
  { s with threads := Function.update s.threads t next }

/-- The call of thread `t` returns `Ok`. -/
def returnsOk (s : Vault) (t : Nat) (call : Call) : Vault :=
  { s.goesTo t none with finished := s.finished ++ [call] }

def saves (s : Vault) (values : Secrets) : Vault :=
  { s with blob := some values }

def caches (s : Vault) (values : Secrets) : Vault :=
  { s with cache := some values }

/-- `delete_legacy_key_best_effort`. -/
def deleteLegacy (s : Vault) (key : String) (fails : Bool) : Vault :=
  if fails then s
  else { s with legacy := Function.update s.legacy key none }

/-- `ensure_loaded_blob` has given `values`. -/
def loaded (s : Vault) (t : Nat) (call : Call) (values : Secrets) : Vault :=
  if call.changes then s.goesTo t (some (call, .save values))
  else if (values call.key).isSome then s.returnsOk t call
  else if isWebAuth call.key then s.goesTo t (some (call, .readWebAuth values))
  else s.returnsOk t call

/-- A legacy entry enters the migrated map unless it is empty. -/
def migrate (values : Secrets) (key : String) (entry : Option String) :
    Secrets :=
  match entry.filter (· ≠ "") with
  | some value => Function.update values key (some value)
  | none => values

/-- The next step of thread `t`, which is in `call` at `pc`; `fails` is whether
the keychain request of the step, if there is one, fails. -/
def stepOf (s : Vault) (t : Nat) (call : Call) (fails : Bool) : Pc → Vault
  | .readCache =>
      match s.cache with
      | some values => s.loaded t call values
      | none => s.goesTo t (some (call, .load))
  | .load =>
      if fails then s.goesTo t none
      else match s.blob with
        | some values => s.goesTo t (some (call, .cacheLoaded values))
        | none =>
            s.goesTo t (some (call, .readLegacy legacyKeys fun _ => none))
  | .cacheLoaded values => (s.caches values).loaded t call values
  | .readLegacy [] values =>
      if fails then s.goesTo t none
      else (s.saves values).goesTo t
        (some (call, .dropLegacy legacyKeys values))
  | .readLegacy (key :: keys) values =>
      if fails then s.goesTo t none
      else s.goesTo t
        (some (call, .readLegacy keys (migrate values key (s.legacy key))))
  | .dropLegacy [] values => (s.caches values).loaded t call values
  | .dropLegacy (key :: keys) values =>
      (s.deleteLegacy key fails).goesTo t
        (some (call, .dropLegacy keys values))
  | .save values =>
      if fails then s.goesTo t none
      else { s.saves (call.change values) with
          effects := s.effects ++ [call] }.goesTo t
        (some (call, .writeCache (call.change values)))
  | .readWebAuth values =>
      if fails then s.goesTo t none
      else match s.legacy call.key with
        | none => s.returnsOk t call
        | some value => s.goesTo t (some (call, .carry values value))
  | .carry values value =>
      if fails then s.goesTo t none
      else (s.saves (Function.update values call.key (some value))).goesTo t
        (some (call, .writeCache
          (Function.update values call.key (some value))))
  | .writeCache values =>
      if call.dropsOwn then
        (s.caches values).goesTo t (some (call, .dropOwn))
      else (s.caches values).returnsOk t call
  | .dropOwn => (s.deleteLegacy call.key fails).returnsOk t call

end Vault

/-- What happens next: a thread begins a call, or takes a step of its own. -/
inductive Move where
  | begin (t : Nat) (call : Call)
  | go (t : Nat) (fails : Bool)

/-- A busy thread begins no other call, and an idle one takes no step. -/
def step (s : Vault) : Move → Vault
  | .begin t call =>
      match s.threads t with
      | none => s.goesTo t (some (call, .readCache))
      | some _ => s
  | .go t fails =>
      match s.threads t with
      | none => s
      | some (call, pc) => s.stepOf t call fails pc

/-! ## What is to hold -/

namespace Vault

variable (s : Vault)

/-- What the blob holds, or would hold after the migration. -/
def content (key : String) : Option String :=
  match s.blob with
  | some values => values key
  | none =>
      if key ∈ legacyKeys then (s.legacy key).filter (· ≠ "") else none

/-- The legacy entry a call for `key` falls back on. -/
def legacyOf (key : String) : Option String :=
  if isWebAuth key then s.legacy key else none

/-- What a call for `key` finds when it reads the keychain. -/
def present (key : String) : Option String :=
  (s.content key).or (s.legacyOf key)

/-- What a call for `key` finds, the cache asked first. -/
def view (key : String) : Option String :=
  (s.cache.getD s.content key).or (s.legacyOf key)

/-- Some thread is in a call, at a place, that satisfies `P`. -/
def Does (P : Call → Pc → Prop) : Prop :=
  ∃ t call pc, s.threads t = some (call, pc) ∧ P call pc

/-- Some thread other than `t` is. -/
def OthersDo (t : Nat) (P : Call → Pc → Prop) : Prop :=
  ∃ t' call pc, t' ≠ t ∧ s.threads t' = some (call, pc) ∧ P call pc

/-- A deletion of `key` has been saved and has yet to return. -/
def Deleting (key : String) : Prop :=
  s.Does fun call pc => call = .delete key ∧ pc.saved = true

/-- A change at `key` has been saved and has yet to reach the cache. -/
def Writing (key : String) : Prop :=
  s.Does fun call pc => call.key = key ∧ pc.writing = true

/-- All threads are idle, and a cache that is filled holds the blob. -/
structure Starts : Prop where
  idle : ∀ t, s.threads t = none
  cached : ∀ values, s.cache = some values → s.blob = some values
  effects : s.effects = []
  finished : s.finished = []

end Vault

/-- What the calls whose changes were saved make of the map. -/
def expected (start : Secrets) (effects : List Call) : Secrets :=
  effects.foldl (fun values call => call.change values) start

/-- No key is lost and none comes back: where no `set` or `delete` of a key is
under way, the keychain holds what the calls for it have left, and where no
call for it is under way the cache does not say otherwise. A call that
returned `Ok` is among these calls, and these are under way or returned `Ok`.
A legacy entry is about to be deleted only if its value has been saved. -/
structure Kept (start : Secrets) (s : Vault) : Prop where
  present : ∀ key,
    (¬ s.Does fun call _ => call.key = key ∧ call.changes = true) →
      s.present key = expected start s.effects key
  view : ∀ key, (¬ s.Does fun call _ => call.key = key) →
    s.view key = expected start s.effects key
  returned : ∀ call ∈ s.finished, call.changes = true → call ∈ s.effects
  saved : ∀ call ∈ s.effects,
    call ∈ s.finished ∨ s.Does fun c pc => c = call ∧ pc.saved = true
  migrated : ∀ t call key keys values value,
    s.threads t = some (call, .dropLegacy (key :: keys) values) →
      s.legacy key = some value → values key = some value

/-! ## The steps that lose nothing -/

/-- The copies the step of a call saves or caches are not stale. -/
def Current (s : Vault) (t : Nat) (call : Call) (fails : Bool) : Pc → Prop
  | .cacheLoaded values | .dropLegacy [] values | .writeCache values =>
      ∀ key, values key = s.content key ∨
        s.OthersDo t fun call pc => call.key = key ∧ pc.writing = true
  | .readLegacy [] values => fails = false → ∀ key, values key = s.content key
  | .readLegacy (key :: _) _ => s.legacy key ≠ some ""
  | .save values =>
      fails = false → ∀ key ≠ call.key, values key = s.content key
  | .carry values value =>
      fails = false → (∀ key ≠ call.key, values key = s.content key) ∧
        (s.content call.key = some value ∨
          s.present call.key = some value ∧ ¬ s.Deleting call.key)
  | .dropOwn => fails = true → call.changes = true → s.legacyOf call.key = none
  | _ => True

/-- A move saves or caches no stale copy: a copy that is saved agrees with the
blob at every other key, and the value carried over is still the one to be
found; a copy that is cached differs from the blob only where another call has
saved its change and will cache it; the migration meets no empty entry; the
legacy entry of a deleted key can be deleted. -/
def Allowed (s : Vault) : Move → Prop
  | .begin _ _ => True
  | .go t fails => ∀ call pc, s.threads t = some (call, pc) →
      Current s t call fails pc


/-! ## The calls' changes -/

namespace Call

theorem change_of_ne {call : Call} {key : String} (values : Secrets)
    (h : key ≠ call.key) : call.change values key = values key := by
  cases call with
  | set k value => exact Function.update_of_ne h (some value) values
  | get k => rfl
  | delete k => exact Function.update_of_ne h none values

/-- What a change leaves at its own key does not depend on the map. -/
theorem change_key {call : Call} (h : call.changes = true)
    (values values' : Secrets) :
    call.change values call.key = call.change values' call.key := by
  cases call with
  | set k value => simp [change, key]
  | get k => cases h
  | delete k => simp [change, key]

end Call

theorem expected_append_of_ne (start : Secrets) (effects : List Call)
    {done : List Call} {key : String} (h : ∀ call ∈ done, key ≠ call.key) :
    expected start (effects ++ done) key = expected start effects key := by
  induction done generalizing effects with
  | nil => rw [List.append_nil]
  | cons call done ih =>
      rw [List.append_cons,
        ih (effects ++ [call]) fun c hc => h c (List.mem_cons_of_mem call hc),
        expected, List.foldl_append]
      exact Call.change_of_ne _ (h call List.mem_cons_self)

/-! ## One thread moves -/

namespace Vault

variable {s : Vault} {t : Nat} {next : Option (Call × Pc)}
variable {P : Call → Pc → Prop}

@[simp] theorem goesTo_self : (s.goesTo t next).threads t = next := by
  simp [goesTo]

theorem goesTo_of_ne {t' : Nat} (h : t' ≠ t) :
    (s.goesTo t next).threads t' = s.threads t' := by
  simp [goesTo, h]

theorem OthersDo.does (h : s.OthersDo t P) : s.Does P := by
  obtain ⟨t', call, pc, -, hat, hP⟩ := h
  exact ⟨t', call, pc, hat, hP⟩

/-- Thread `t` is where it is, and the others are where they are. -/
theorem does_iff (s : Vault) (t : Nat) (P : Call → Pc → Prop) :
    s.Does P ↔ s.OthersDo t P ∨
      ∃ call pc, s.threads t = some (call, pc) ∧ P call pc := by
  constructor
  · rintro ⟨t', call, pc, hat, hP⟩
    by_cases ht : t' = t
    · exact .inr ⟨call, pc, ht ▸ hat, hP⟩
    · exact .inl ⟨t', call, pc, ht, hat, hP⟩
  · rintro (h | ⟨call, pc, hat, hP⟩)
    · exact h.does
    · exact ⟨t, call, pc, hat, hP⟩

/-- What the others do, they do wherever `t` goes. -/
theorem does_goesTo : (s.goesTo t next).Does P ↔ s.OthersDo t P ∨
    ∃ call pc, next = some (call, pc) ∧ P call pc := by
  rw [does_iff _ t]
  refine or_congr ⟨?_, ?_⟩ (by rw [goesTo_self])
  · rintro ⟨t', call, pc, ht, hat, hP⟩
    exact ⟨t', call, pc, ht, (goesTo_of_ne ht).symm.trans hat, hP⟩
  · rintro ⟨t', call, pc, ht, hat, hP⟩
    exact ⟨t', call, pc, ht, (goesTo_of_ne ht).trans hat, hP⟩

/-- A thread is where it went, or it is another one. -/
theorem threads_goesTo {t' : Nat} {at' : Call × Pc}
    (h : (s.goesTo t next).threads t' = some at') :
    next = some at' ∨ (t' ≠ t ∧ s.threads t' = some at') := by
  by_cases ht : t' = t
  · subst ht
    exact .inl (goesTo_self.symm.trans h)
  · exact .inr ⟨ht, (goesTo_of_ne ht).symm.trans h⟩

@[simp] theorem deleteLegacy_threads (s : Vault) (key : String)
    (fails : Bool) : (s.deleteLegacy key fails).threads = s.threads := by
  cases fails <;> rfl

/-- A legacy entry that is deleted is gone. -/
theorem deleteLegacy_self (s : Vault) (key : String) :
    (s.deleteLegacy key false).legacy key = none := by
  simp [deleteLegacy]

/-- The other legacy entries stay. -/
theorem deleteLegacy_of_ne {key k : String} (h : k ≠ key) :
    (s.deleteLegacy key false).legacy k = s.legacy k := by
  simp [deleteLegacy, h]

theorem migrate_of_ne {values : Secrets} {key k : String} (h : k ≠ key)
    (entry : Option String) : migrate values key entry k = values k := by
  rw [migrate]
  cases entry.filter (· ≠ "") with
  | none => rfl
  | some value => exact Function.update_of_ne h (some value) values

theorem migrate_self {values : Secrets} {key value : String}
    (h : value ≠ "") : migrate values key (some value) key = some value := by
  rw [migrate, Option.filter_some, if_pos (by simp [h])]
  exact Function.update_self key (some value) values

/-- The thread was not past its save, and is not past it now. -/
theorem does_goesTo_of_not
    (hold : ∀ call pc, s.threads t = some (call, pc) → ¬ P call pc)
    (hnext : ∀ call pc, next = some (call, pc) → ¬ P call pc) :
    (s.goesTo t next).Does P ↔ s.Does P := by
  rw [does_goesTo, does_iff s t]
  refine or_congr_right ⟨?_, ?_⟩
  · rintro ⟨call, pc, heq, hP⟩
    exact absurd hP (hnext call pc heq)
  · rintro ⟨call, pc, heq, hP⟩
    exact absurd hP (hold call pc heq)

end Vault

/-! ## What every move keeps -/

namespace Vault

variable (s : Vault)

/-- The legacy entry of the key is not what a call finds. -/
def Held (key : String) : Prop :=
  s.content key ≠ none ∨ s.legacyOf key = none ∨ s.Deleting key

/-- The legacy entries read so far are in the map that is to be saved. -/
def Collected (keys : List String) (values : Secrets) : Prop :=
  ∀ key ∈ legacyKeys, key ∉ keys →
    ∀ value, s.legacy key = some value → values key = some value

/-- What a thread's place says about its call. -/
def TaskOk (call : Call) : Pc → Prop
  | .readLegacy keys values => s.Collected keys values
  | .dropLegacy keys values =>
      s.blob.isSome = true ∧ (∀ key ∈ keys, key ∈ legacyKeys) ∧
        s.Collected [] values
  | .save _ => call.changes = true
  | .readWebAuth _ | .carry _ _ => call.changes = false
  | .writeCache _ | .dropOwn =>
      s.blob.isSome = true ∧ (call.changes = true → call ∈ s.effects) ∧
        s.Held call.key
  | _ => True

end Vault

/-- The invariant of the allowed moves. -/
structure Inv (start : Secrets) (s : Vault) : Prop where
  deleting : ∀ key, s.Deleting key →
    s.content key = expected start s.effects key
  settled : ∀ key, ¬ s.Deleting key →
    s.present key = expected start s.effects key
  cached : ∀ values, s.cache = some values →
    ∀ key, values key = s.content key ∨ s.Writing key
  tasks : ∀ t call pc, s.threads t = some (call, pc) → s.TaskOk call pc
  returned : ∀ call ∈ s.finished, call.changes = true → call ∈ s.effects
  saved : ∀ call ∈ s.effects,
    call ∈ s.finished ∨ s.Does fun c pc => c = call ∧ pc.saved = true

/-- Legacy entries only go, the blob stays, and what was held is held. -/
structure Goes (s s' : Vault) : Prop where
  legacy : ∀ key value, s'.legacy key = some value → s.legacy key = some value
  blob : s.blob.isSome = true → s'.blob.isSome = true
  effects : ∀ call ∈ s.effects, call ∈ s'.effects
  held : ∀ key, s.Held key → s'.Held key

theorem Vault.TaskOk.mono {s s' : Vault} (hgoes : Goes s s') {call : Call}
    {pc : Pc} (h : s.TaskOk call pc) : s'.TaskOk call pc := by
  have hcollected : ∀ keys values, s.Collected keys values →
      s'.Collected keys values := fun keys values hcol key hmem hnot value hv =>
    hcol key hmem hnot value (hgoes.legacy key value hv)
  cases pc with
  | readLegacy keys values => exact hcollected keys values h
  | dropLegacy keys values =>
      exact ⟨hgoes.blob h.1, h.2.1, hcollected [] values h.2.2⟩
  | writeCache values =>
      exact ⟨hgoes.blob h.1, fun hc => hgoes.effects call (h.2.1 hc),
        hgoes.held call.key h.2.2⟩
  | dropOwn =>
      exact ⟨hgoes.blob h.1, fun hc => hgoes.effects call (h.2.1 hc),
        hgoes.held call.key h.2.2⟩
  | save values => exact h
  | readWebAuth values => exact h
  | carry values value => exact h
  | readCache => trivial
  | load => trivial
  | cacheLoaded values => trivial

section Steps

open Vault

variable {start : Secrets} {s : Vault} {t : Nat} {next : Option (Call × Pc)}

/-- A thread goes on: a deletion that ends leaves no legacy entry, what is in
the cache is not stale, and a call that has saved its change is on record. -/
theorem Inv.goesTo (h : Inv start s)
    (hdel : ∀ key, (s.goesTo t next).Deleting key → s.Deleting key)
    (hends : ∀ key, s.Deleting key →
      (s.goesTo t next).Deleting key ∨ s.legacyOf key = none)
    (hcached : ∀ values, s.cache = some values → ∀ key,
      values key = s.content key ∨ (s.goesTo t next).Writing key)
    (hnext : ∀ call pc, next = some (call, pc) → s.TaskOk call pc)
    (hsaved : ∀ call pc, s.threads t = some (call, pc) → pc.saved = true →
      call ∈ s.finished ∨ ∃ pc', next = some (call, pc') ∧ pc'.saved = true) :
    Inv start (s.goesTo t next) := by
  have hgoes : Goes s (s.goesTo t next) := by
    refine ⟨fun _ _ hv => hv, id, fun _ hc => hc, fun key hheld => ?_⟩
    rcases hheld with hcontent | hlegacy | hdeleting
    · exact .inl hcontent
    · exact .inr (.inl hlegacy)
    · exact (hends key hdeleting).elim (fun hd => .inr (.inr hd))
        fun hl => .inr (.inl hl)
  refine ⟨fun key hd => h.deleting key (hdel key hd), fun key hd => ?_,
    hcached, fun t' call pc hat => ?_, h.returned, fun call hcall => ?_⟩
  · by_cases hds : s.Deleting key
    · have hlegacy : s.legacyOf key = none := (hends key hds).resolve_left hd
      show (s.content key).or (s.legacyOf key) = _
      rw [hlegacy, Option.or_none]
      exact h.deleting key hds
    · exact h.settled key hds
  · rcases threads_goesTo hat with heq | ⟨-, hat⟩
    · exact (hnext call pc heq).mono hgoes
    · exact (h.tasks t' call pc hat).mono hgoes
  · rcases h.saved call hcall with hfin | hdoes
    · exact .inl hfin
    rcases (does_iff s t _).mp hdoes with hother | ⟨c, pc, hat, rfl, hpc⟩
    · exact .inr (does_goesTo.2 (.inl hother))
    · rcases hsaved c pc hat hpc with hfin | ⟨pc', heq, hpc'⟩
      · exact .inl hfin
      · exact .inr (does_goesTo.2 (.inr ⟨c, pc', heq, rfl, hpc'⟩))

/-- A step that changes nothing but where its thread is, before its save. -/
theorem Inv.moves (h : Inv start s)
    (hold : ∀ call pc, s.threads t = some (call, pc) → pc.saved = false)
    (hnext : ∀ call pc, next = some (call, pc) →
      pc.saved = false ∧ s.TaskOk call pc) :
    Inv start (s.goesTo t next) := by
  have hwriting : ∀ pc : Pc, pc.saved = false → pc.writing = false := by
    intro pc hpc
    cases pc <;> first | rfl | cases hpc
  have hdel : ∀ key, (s.goesTo t next).Deleting key ↔ s.Deleting key :=
    fun key => does_goesTo_of_not
      (fun call pc hat hP => by simp [hold call pc hat] at hP)
      (fun call pc hat hP => by simp [(hnext call pc hat).1] at hP)
  have hwrite : ∀ key, (s.goesTo t next).Writing key ↔ s.Writing key :=
    fun key => does_goesTo_of_not
      (fun call pc hat hP => by
        simp [hwriting pc (hold call pc hat)] at hP)
      (fun call pc hat hP => by
        simp [hwriting pc (hnext call pc hat).1] at hP)
  refine h.goesTo (fun key => (hdel key).mp)
    (fun key hd => .inl ((hdel key).mpr hd))
    (fun values hc key => (h.cached values hc key).imp_right (hwrite key).mpr)
    (fun call pc heq => (hnext call pc heq).2)
    (fun call pc hat hpc => ?_)
  rw [hold call pc hat] at hpc
  cases hpc

/-- A call returns `Ok`: if it was to change the blob, it has. -/
theorem Inv.finish (h : Inv start s) {call : Call}
    (hcall : call.changes = true → call ∈ s.effects) :
    Inv start { s with finished := s.finished ++ [call] } := by
  refine ⟨h.deleting, h.settled, h.cached, h.tasks, fun c hc hchanges => ?_,
    fun c hc => ?_⟩
  · rcases List.mem_append.mp hc with hc | hc
    · exact h.returned c hc hchanges
    · obtain rfl : c = call := List.mem_singleton.mp hc
      exact hcall hchanges
  · exact (h.saved c hc).imp_left (List.mem_append_left [call])

theorem Inv.caches (h : Inv start s) {values : Secrets}
    (hcur : ∀ key, values key = s.content key ∨ s.Writing key) :
    Inv start (s.caches values) := by
  refine ⟨h.deleting, h.settled, fun c hc => ?_, h.tasks, h.returned, h.saved⟩
  obtain rfl : values = c := Option.some.inj hc
  exact hcur

/-- Saving what the vault holds anyway changes nothing. -/
theorem Inv.saves (h : Inv start s) {values : Secrets}
    (hcur : ∀ key, values key = s.content key) :
    Inv start (s.saves values) := by
  have hcontent : (s.saves values).content = s.content := funext hcur
  have hpresent : (s.saves values).present = s.present :=
    funext fun key => congrArg (fun c : Option String =>
      c.or (s.legacyOf key)) (hcur key)
  have hgoes : Goes s (s.saves values) := by
    refine ⟨fun _ _ hv => hv, fun _ => rfl, fun _ hc => hc, fun key hheld => ?_⟩
    rw [Vault.Held, hcontent]
    exact hheld
  refine ⟨fun key hd => ?_, fun key hd => ?_, fun c hc key => ?_,
    fun t call pc hat => (h.tasks t call pc hat).mono hgoes, h.returned,
    h.saved⟩
  · rw [hcontent]
    exact h.deleting key hd
  · rw [hpresent]
    exact h.settled key hd
  · rw [hcontent]
    exact h.cached c hc key

/-- A legacy entry that no call finds goes. -/
theorem Inv.deleteLegacy (h : Inv start s) {key : String} (fails : Bool)
    (hblob : s.blob.isSome = true) (hheld : s.Held key) :
    Inv start (s.deleteLegacy key fails) := by
  cases fails with
  | true => exact h
  | false =>
    obtain ⟨values, hvalues⟩ := Option.isSome_iff_exists.mp hblob
    have hlegacy : ∀ k, k ≠ key →
        (s.deleteLegacy key false).legacyOf k = s.legacyOf k := by
      intro k hk
      rw [legacyOf, deleteLegacy_of_ne hk, legacyOf]
    have hnone : (s.deleteLegacy key false).legacyOf key = none := by
      rw [legacyOf, deleteLegacy_self, ite_self]
    have hcontent : (s.deleteLegacy key false).content = s.content := by
      funext k
      have hblob' : (s.deleteLegacy key false).blob = some values := hvalues
      simp only [content, hblob', hvalues]
    have hpresent : ∀ k, ¬ s.Deleting k →
        (s.deleteLegacy key false).present k = s.present k := by
      intro k hd
      rw [present, present, hcontent]
      by_cases hk : k = key
      · subst hk
        rcases hheld with hsome | hnone' | hdel
        · obtain ⟨v, hv⟩ := Option.ne_none_iff_exists'.mp hsome
          rw [hv, Option.some_or, Option.some_or]
        · rw [hnone, hnone']
        · exact absurd hdel hd
      · rw [hlegacy k hk]
    have hgoes : Goes s (s.deleteLegacy key false) := by
      refine ⟨fun k v hv => ?_, id, fun _ hc => hc, fun k hk => ?_⟩
      · by_cases hkey : k = key
        · subst hkey
          rw [deleteLegacy_self] at hv
          cases hv
        · exact (deleteLegacy_of_ne hkey).symm.trans hv
      · rw [Vault.Held, hcontent]
        refine hk.imp_right fun hk => ?_
        refine hk.imp_left fun hk => ?_
        by_cases hkey : k = key
        · exact hkey ▸ hnone
        · exact (hlegacy k hkey).trans hk
    refine ⟨fun k hd => ?_, fun k hd => (hpresent k hd).trans (h.settled k hd),
      fun c hc k => ?_,
      fun t call pc hat => (h.tasks t call pc hat).mono hgoes, h.returned,
      h.saved⟩
    · rw [hcontent]
      exact h.deleting k hd
    · rw [hcontent]
      exact h.cached c hc k

/-- The blob is saved with a change at the key of the call alone; `done` is
what goes on record. -/
theorem Inv.savesAt (h : Inv start s) (call : Call) (values : Secrets)
    (done : List Call)
    (hold : ∀ c pc, s.threads t = some (c, pc) → pc.saved = false)
    (hothers : ∀ key ≠ call.key, values key = s.content key)
    (hown : values call.key = expected start (s.effects ++ done) call.key)
    (hkept : call = .delete call.key ∨ values call.key ≠ none)
    (hdone : ∀ c ∈ done, c = call)
    (hrecord : call.changes = true → call ∈ s.effects ++ done) :
    Inv start ({ s.saves values with effects := s.effects ++ done }.goesTo t
      (some (call, .writeCache values))) := by
  set s' := { s.saves values with effects := s.effects ++ done }.goesTo t
    (some (call, .writeCache values)) with hs'
  have hexpected : ∀ key ≠ call.key,
      expected start (s.effects ++ done) key = expected start s.effects key :=
    fun key hkey => expected_append_of_ne start s.effects fun c hc =>
      (hdone c hc) ▸ hkey
  have hcontent : ∀ key ≠ call.key, s'.content key = s.content key := hothers
  have hpresent : ∀ key ≠ call.key, s'.present key = s.present key := by
    intro key hkey
    rw [present, hcontent key hkey]
    rfl
  have hmono : ∀ P, (∀ c pc, P c pc → pc.saved = true) → s.Does P →
      s'.Does P := by
    intro P hP hdoes
    rcases (does_iff s t P).mp hdoes with hother | ⟨c, pc, hat, hPc⟩
    · exact does_goesTo.2 (.inl hother)
    · have hpc := hP c pc hPc
      rw [hold c pc hat] at hpc
      cases hpc
  have hdeletes : ∀ key, s.Deleting key → s'.Deleting key := fun key =>
    hmono _ fun _ _ hP => hP.2
  have hdeleting : ∀ key, s'.Deleting key →
      s.Deleting key ∨ call = .delete key := by
    intro key hdel
    rcases does_goesTo.1 hdel with hother | ⟨c, pc, heq, hc, -⟩
    · exact .inl (OthersDo.does (s := s) hother)
    · cases heq
      exact .inr hc
  have hwrites : s'.Writing call.key :=
    does_goesTo.2 (.inr ⟨call, _, rfl, rfl, rfl⟩)
  have hheld : s'.Held call.key := by
    rcases hkept with hdel | hsome
    · refine .inr (.inr (does_goesTo.2 (.inr ⟨call, _, rfl, ?_, rfl⟩)))
      exact hdel
    · exact .inl hsome
  have hgoes : Goes s s' := by
    refine ⟨fun _ _ hv => hv, fun _ => rfl,
      fun c hc => List.mem_append_left done hc, fun key hk => ?_⟩
    by_cases hkey : key = call.key
    · exact hkey ▸ hheld
    · rcases hk with hc | hl | hd
      · exact .inl (hcontent key hkey ▸ hc)
      · exact .inr (.inl hl)
      · exact .inr (.inr (hdeletes key hd))
  refine ⟨fun key hd => ?_, fun key hd => ?_, fun c hc key => ?_,
    fun t' c pc hat => ?_, fun c hc hchanges =>
      List.mem_append_left done (h.returned c hc hchanges), fun c hc => ?_⟩
  · by_cases hkey : key = call.key
    · subst hkey
      exact hown
    · have hds : s.Deleting key := (hdeleting key hd).resolve_right
        fun heq => hkey (by rw [heq]; rfl)
      rw [hcontent key hkey, h.deleting key hds]
      exact (hexpected key hkey).symm
  · by_cases hkey : key = call.key
    · subst hkey
      have hsome : values call.key ≠ none := hkept.resolve_left fun heq =>
        hd (does_goesTo.2 (.inr ⟨call, _, rfl, heq, rfl⟩))
      obtain ⟨v, hv⟩ := Option.ne_none_iff_exists'.mp hsome
      have hsame : s'.present call.key = values call.key := by
        show (values call.key).or _ = _
        rw [hv, Option.some_or]
      rw [hsame]
      exact hown
    · have hds : ¬ s.Deleting key := fun hds => hd (hdeletes key hds)
      rw [hpresent key hkey, h.settled key hds]
      exact (hexpected key hkey).symm
  · by_cases hkey : key = call.key
    · exact .inr (hkey ▸ hwrites)
    · rw [hcontent key hkey]
      exact (h.cached c hc key).imp_right (hmono _ fun _ pc hP => by
        cases pc <;> first | rfl | cases hP.2)
  · rcases threads_goesTo hat with heq | ⟨-, hat⟩
    · cases heq
      exact ⟨rfl, hrecord, hheld⟩
    · exact (h.tasks t' c pc hat).mono hgoes
  · rcases List.mem_append.mp hc with hc | hc
    · exact (h.saved c hc).imp_right (hmono _ fun _ _ hP => hP.2)
    · exact .inr (does_goesTo.2 (.inr ⟨call, _, rfl, (hdone c hc).symm, rfl⟩))

/-- A step of a thread before its save: there it goes on. -/
theorem Inv.goesOn (h : Inv start s) {call : Call} {pc pc' : Pc}
    (hat : s.threads t = some (call, pc)) (hpc : pc.saved = false)
    (hpc' : pc'.saved = false) (htask : s.TaskOk call pc') :
    Inv start (s.goesTo t (some (call, pc'))) := by
  refine h.moves (fun c p hp => ?_) (fun c p hp => ?_)
  · cases hat.symm.trans hp
    exact hpc
  · cases hp
    exact ⟨hpc', htask⟩

/-- There it fails, or returns without a change. -/
theorem Inv.leaves (h : Inv start s) {call : Call} {pc : Pc}
    (hat : s.threads t = some (call, pc)) (hpc : pc.saved = false) :
    Inv start (s.goesTo t none) := by
  refine h.moves (fun c p hp => ?_) (fun c p hp => nomatch hp)
  cases hat.symm.trans hp
  exact hpc

theorem Inv.returnsOk (h : Inv start s) {call : Call} {pc : Pc}
    (hat : s.threads t = some (call, pc)) (hpc : pc.saved = false)
    (hcall : call.changes = false) : Inv start (s.returnsOk t call) :=
  (h.finish fun hc => absurd (hcall.symm.trans hc) (by decide)).leaves hat hpc

/-- The map is there, and the call goes on with its copy. -/
theorem Inv.loaded (h : Inv start s) {call : Call} {pc : Pc}
    (hat : s.threads t = some (call, pc)) (hpc : pc.saved = false)
    (values : Secrets) : Inv start (s.loaded t call values) := by
  rw [Vault.loaded]
  by_cases hc : call.changes = true
  · rw [if_pos hc]
    exact h.goesOn hat hpc rfl hc
  have hcall : call.changes = false := Bool.eq_false_iff.mpr hc
  rw [if_neg hc]
  by_cases hsome : (values call.key).isSome = true
  · rw [if_pos hsome]
    exact h.returnsOk hat hpc hcall
  rw [if_neg hsome]
  by_cases hweb : isWebAuth call.key = true
  · rw [if_pos hweb]
    exact h.goesOn hat hpc rfl hcall
  · rw [if_neg hweb]
    exact h.returnsOk hat hpc hcall

/-- A copy that is not stale is cached, and the call goes on. -/
theorem Inv.cachesLoaded (h : Inv start s) {call : Call} {pc : Pc}
    (hat : s.threads t = some (call, pc)) (hpc : pc.saved = false)
    {values : Secrets}
    (hcur : ∀ key, values key = s.content key ∨
      s.OthersDo t fun c p => c.key = key ∧ p.writing = true) :
    Inv start ((s.caches values).loaded t call values) :=
  (h.caches fun key => (hcur key).imp_right OthersDo.does).loaded
    (s := s.caches values) hat hpc values

/-- The change of a call is saved. -/
theorem Inv.save (h : Inv start s) {call : Call} {values : Secrets}
    (hat : s.threads t = some (call, .save values))
    (hcur : ∀ key ≠ call.key, values key = s.content key) :
    Inv start ({ s.saves (call.change values) with
      effects := s.effects ++ [call] }.goesTo t
        (some (call, .writeCache (call.change values)))) := by
  have hcall : call.changes = true := h.tasks t call _ hat
  refine h.savesAt call _ [call] (fun c p hp => ?_) (fun key hkey => ?_) ?_ ?_
    (fun c hc => List.mem_singleton.mp hc) (fun _ => by simp)
  · cases hat.symm.trans hp
    rfl
  · rw [Call.change_of_ne values hkey]
    exact hcur key hkey
  · rw [expected, List.foldl_append]
    exact Call.change_key hcall values _
  · cases call with
    | set key value => simp [Call.change, Call.key]
    | get key => cases hcall
    | delete key => exact .inl rfl

/-- A legacy value that is still the one to be found is carried over. -/
theorem Inv.carry (h : Inv start s) {call : Call} {values : Secrets}
    {value : String} (hat : s.threads t = some (call, .carry values value))
    (hcur : ∀ key ≠ call.key, values key = s.content key)
    (hfound : s.content call.key = some value ∨
      s.present call.key = some value ∧ ¬ s.Deleting call.key) :
    Inv start ((s.saves (Function.update values call.key (some value))).goesTo
      t (some (call, .writeCache
        (Function.update values call.key (some value))))) := by
  have hcall : call.changes = false := h.tasks t call _ hat
  have hexpected : expected start s.effects call.key = some value := by
    by_cases hdel : s.Deleting call.key
    · rw [← h.deleting call.key hdel]
      exact hfound.resolve_right fun hp => hp.2 hdel
    · rw [← h.settled call.key hdel]
      rcases hfound with hc | ⟨hp, -⟩
      · rw [present, hc, Option.some_or]
      · exact hp
  have hsaves := h.savesAt (t := t) call
    (Function.update values call.key (some value)) []
    (fun c p hp => by cases hat.symm.trans hp; rfl)
    (fun key hkey => (Function.update_of_ne hkey (some value) values).trans
      (hcur key hkey))
    (by rw [Function.update_self, List.append_nil, hexpected])
    (.inr (by rw [Function.update_self]; exact Option.some_ne_none value))
    (fun c hc => nomatch hc)
    (fun hc => absurd (hcall.symm.trans hc) (by decide))
  rw [List.append_nil] at hsaves
  exact hsaves

theorem Collected.migrate {keys : List String} {values : Secrets}
    {key : String} (h : s.Collected (key :: keys) values)
    (hempty : s.legacy key ≠ some "") :
    s.Collected keys (migrate values key (s.legacy key)) := by
  intro k hk hnot value hvalue
  by_cases hkey : k = key
  · subst hkey
    rw [hvalue, migrate_self fun heq => hempty (heq ▸ hvalue)]
  · rw [migrate_of_ne hkey]
    exact h k hk (by simp [hkey, hnot]) value hvalue

/-- The legacy entries the migration deletes are no `web_auth` entries. -/
theorem held_of_legacyKey {key : String} (h : key ∈ legacyKeys) :
    s.Held key := by
  have hno : ∀ k ∈ legacyKeys, isWebAuth k = false := by decide +kernel
  refine .inr (.inl ?_)
  rw [legacyOf, if_neg (by simp [hno key h])]

/-- A saved change reaches the cache. -/
theorem Inv.caught (h : Inv start s) {call : Call} {values : Secrets}
    (hat : s.threads t = some (call, .writeCache values))
    (hcur : ∀ key, values key = s.content key ∨
      s.OthersDo t fun c p => c.key = key ∧ p.writing = true) :
    Inv start (s.stepOf t call false (.writeCache values)) := by
  obtain ⟨hblob, hrecord, hheld⟩ := h.tasks t call _ hat
  have hc : Inv start (s.caches values) :=
    h.caches fun key => (hcur key).imp_right OthersDo.does
  have hcached : ∀ next c, (s.caches values).cache = some c → ∀ key,
      c key = (s.caches values).content key ∨
        ((s.caches values).goesTo t next).Writing key := by
    intro next c hc key
    obtain rfl : values = c := Option.some.inj hc
    exact (hcur key).imp_right fun ho => does_goesTo.2 (.inl ho)
  rw [stepOf]
  by_cases hdrops : call.dropsOwn = true
  · rw [if_pos hdrops]
    have hdel : ∀ key,
        ((s.caches values).goesTo t (some (call, .dropOwn))).Deleting key ↔
          (s.caches values).Deleting key := by
      intro key
      rw [Deleting, Deleting, does_goesTo, does_iff (s.caches values) t]
      refine or_congr_right ⟨?_, ?_⟩
      · rintro ⟨c, p, heq, hc, -⟩
        cases heq
        exact ⟨call, _, hat, hc, rfl⟩
      · rintro ⟨c, p, hp, hc, -⟩
        cases hat.symm.trans hp
        exact ⟨call, _, rfl, hc, rfl⟩
    refine hc.goesTo (fun key => (hdel key).mp)
      (fun key hd => .inl ((hdel key).mpr hd)) (hcached _) ?_ ?_
    · intro c p heq
      cases heq
      exact ⟨hblob, hrecord, hheld⟩
    · intro c p hp _
      cases hat.symm.trans hp
      exact .inr ⟨_, rfl, rfl⟩
  · rw [if_neg hdrops]
    have hdel : ∀ key, (s.caches values).Deleting key →
        ((s.caches values).goesTo t none).Deleting key := by
      intro key hd
      rcases (does_iff _ t _).mp hd with ho | ⟨c, p, hp, rfl, -⟩
      · exact does_goesTo.2 (.inl ho)
      · cases hat.symm.trans hp
        exact absurd rfl hdrops
    refine (hc.finish hrecord).goesTo ?_ (fun key hd => .inl (hdel key hd))
      (hcached none) (fun c p heq => nomatch heq) ?_
    · intro key hd
      rcases does_goesTo.1 hd with ho | ⟨c, p, heq, -⟩
      · exact OthersDo.does (s := s) ho
      · cases heq
    · intro c p hp _
      cases hat.symm.trans hp
      exact .inl (by simp)

/-- The legacy entry of the key goes, and the call returns. -/
theorem Inv.ends (h : Inv start s) {call : Call} {fails : Bool}
    (hat : s.threads t = some (call, .dropOwn))
    (hcur : fails = true → call.changes = true →
      s.legacyOf call.key = none) :
    Inv start ((s.deleteLegacy call.key fails).returnsOk t call) := by
  obtain ⟨hblob, -, hheld⟩ := h.tasks t call _ hat
  have hd := h.deleteLegacy fails hblob hheld
  set s' := s.deleteLegacy call.key fails with hs'
  have hat' : s'.threads t = some (call, .dropOwn) := by
    rw [hs', deleteLegacy_threads]
    exact hat
  have hgone : call.changes = true → s'.legacyOf call.key = none := by
    intro hc
    cases fails with
    | true => exact hcur rfl hc
    | false => rw [legacyOf, hs', deleteLegacy_self, ite_self]
  refine (hd.finish (hd.tasks t call _ hat').2.1).goesTo ?_ ?_ ?_
    (fun c p heq => nomatch heq) ?_
  · intro key hdel
    rcases does_goesTo.1 hdel with ho | ⟨c, p, heq, -⟩
    · exact OthersDo.does (s := s') ho
    · cases heq
  · intro key hdel
    rcases (does_iff s' t _).mp hdel with ho | ⟨c, p, hp, rfl, -⟩
    · exact .inl (does_goesTo.2 (.inl ho))
    · cases hat'.symm.trans hp
      exact .inr (hgone rfl)
  · intro values hc key
    refine (hd.cached values hc key).imp_right fun hw => ?_
    rcases (does_iff s' t _).mp hw with ho | ⟨c, p, hp, -, hpc⟩
    · exact does_goesTo.2 (.inl ho)
    · cases hat'.symm.trans hp
      cases hpc
  · intro c p hp _
    cases hat'.symm.trans hp
    exact .inl (by simp)

/-- What a move of the condition keeps. -/
theorem Inv.stepOf (h : Inv start s) {call : Call} {pc : Pc} {fails : Bool}
    (hat : s.threads t = some (call, pc)) (hcur : Current s t call fails pc) :
    Inv start (s.stepOf t call fails pc) := by
  have htask := h.tasks t call pc hat
  cases pc with
  | readCache =>
      rw [Vault.stepOf]
      split
      · exact h.loaded hat rfl _
      · exact h.goesOn hat rfl rfl trivial
  | load =>
      rw [Vault.stepOf]
      split
      · exact h.leaves hat rfl
      split
      · exact h.goesOn hat rfl rfl trivial
      · exact h.goesOn hat rfl rfl fun key hkey hnot => absurd hkey hnot
  | cacheLoaded values => exact h.cachesLoaded hat rfl hcur
  | readLegacy keys values =>
      cases keys with
      | nil =>
          rw [Vault.stepOf]
          cases fails with
          | true => exact h.leaves hat rfl
          | false =>
            refine (h.saves (hcur rfl)).goesOn (s := s.saves values) hat rfl rfl
              ⟨rfl, fun _ hk => hk, htask⟩
      | cons key keys =>
          rw [Vault.stepOf]
          split
          · exact h.leaves hat rfl
          · exact h.goesOn hat rfl rfl (Collected.migrate htask hcur)
  | dropLegacy keys values =>
      cases keys with
      | nil => exact h.cachesLoaded hat rfl hcur
      | cons key keys =>
          have hd := h.deleteLegacy fails htask.1
            (held_of_legacyKey (htask.2.1 key List.mem_cons_self))
          have hat' : (s.deleteLegacy key fails).threads t =
              some (call, .dropLegacy (key :: keys) values) := by
            rw [deleteLegacy_threads]
            exact hat
          obtain ⟨hblob, hkeys, hcollected⟩ := hd.tasks t call _ hat'
          exact hd.goesOn hat' rfl rfl
            ⟨hblob, fun k hk => hkeys k (List.mem_cons_of_mem key hk),
              hcollected⟩
  | save values =>
      rw [Vault.stepOf]
      cases fails with
      | true => exact h.leaves hat rfl
      | false => exact h.save hat (hcur rfl)
  | readWebAuth values =>
      rw [Vault.stepOf]
      split
      · exact h.leaves hat rfl
      split
      · exact h.returnsOk hat rfl htask
      · exact h.goesOn hat rfl rfl htask
  | carry values value =>
      rw [Vault.stepOf]
      cases fails with
      | true => exact h.leaves hat rfl
      | false => exact h.carry hat (hcur rfl).1 (hcur rfl).2
  | writeCache values => exact h.caught hat hcur
  | dropOwn => exact h.ends hat hcur

end Steps

/-! ## The runs that lose no key -/

theorem Inv.step {start : Secrets} {s : Vault} {move : Move}
    (h : Inv start s) (hallowed : Allowed s move) :
    Inv start (step s move) := by
  cases move with
  | begin t call =>
      rw [SecretVault.step]
      split
      · next hidle =>
          refine h.moves (fun c p hp => ?_) (fun c p heq => ?_)
          · cases hidle.symm.trans hp
          · cases heq
            exact ⟨rfl, trivial⟩
      · exact h
  | go t fails =>
      rw [SecretVault.step]
      split
      · exact h
      · next call pc hat => exact h.stepOf hat (hallowed call pc hat)

theorem Vault.Starts.inv {s : Vault} (h : s.Starts) : Inv s.present s := by
  have hnone : ∀ P, ¬ s.Does P := by
    rintro P ⟨t, call, pc, hat, -⟩
    cases (h.idle t).symm.trans hat
  refine ⟨fun key hd => absurd hd (hnone _), fun key _ => ?_,
    fun values hc key => ?_, fun t call pc hat => ?_, fun call hc => ?_,
    fun call hc => ?_⟩
  · rw [h.effects]
    rfl
  · left
    rw [Vault.content, h.cached values hc]
  · cases (h.idle t).symm.trans hat
  · rw [h.finished] at hc
    cases hc
  · rw [h.effects] at hc
    cases hc

/-- The invariant says what is to hold. -/
theorem Inv.kept {start : Secrets} {s : Vault} (h : Inv start s) :
    Kept start s := by
  have hpresent : ∀ key,
      (¬ s.Does fun call _ => call.key = key ∧ call.changes = true) →
        s.present key = expected start s.effects key := by
    intro key hidle
    refine h.settled key fun hdel => hidle ?_
    obtain ⟨t, call, pc, hat, rfl, -⟩ := hdel
    exact ⟨t, _, pc, hat, rfl, rfl⟩
  refine ⟨hpresent, fun key hidle => ?_, h.returned, h.saved,
    fun t call key keys values value hat hvalue => ?_⟩
  · have hp := hpresent key fun hdoes => hidle (by
      obtain ⟨t, call, pc, hat, hkey, -⟩ := hdoes
      exact ⟨t, call, pc, hat, hkey⟩)
    rw [← hp, Vault.view, Vault.present]
    cases hcache : s.cache with
    | none => rfl
    | some values =>
        have hsame : values key = s.content key :=
          (h.cached values hcache key).resolve_right fun hw => hidle (by
            obtain ⟨t, call, pc, hat, hkey, -⟩ := hw
            exact ⟨t, call, pc, hat, hkey⟩)
        rw [Option.getD_some, hsame]
  · obtain ⟨-, hkeys, hcollected⟩ := h.tasks t call _ hat
    exact hcollected key (hkeys key List.mem_cons_self) (by simp) value hvalue

/-- In every run in which no step saves or caches a stale copy, no key is lost
and none comes back. -/
theorem vault_keeps {s : Vault} (hs : s.Starts) {moves : List Move}
    (hmoves : Trace.Meets step Allowed s moves) (n : Nat) :
    Kept s.present (Trace.run step s (moves.take n)) :=
  (Trace.run_take_inv_of_meets (Inv s.present) (fun _ _ => Inv.step) hs.inv
    hmoves n).kept

/-- An empty blob, in the cache as well. -/
def emptyVault : Vault where
  blob := some fun _ => none
  legacy := fun _ => none
  cache := some fun _ => none
  threads := fun _ => none
  effects := []
  finished := []

theorem emptyVault_starts : emptyVault.Starts :=
  ⟨fun _ => rfl, fun _ h => h, rfl, rfl⟩

/-- Two calls one after the other. -/
def setsInTurn : List Move :=
  [.begin 0 (.set "openai_api_key" "sk-1"), .go 0 false, .go 0 false,
    .go 0 false, .begin 1 (.set "brave_api_key" "bk-1"), .go 1 false,
    .go 1 false, .go 1 false]

theorem setsInTurn_kept :
    Kept emptyVault.present (Trace.run step emptyVault (setsInTurn.take 8)) ∧
      (Trace.run step emptyVault setsInTurn).present "openai_api_key" =
        some "sk-1" := by
  refine ⟨vault_keeps emptyVault_starts ?_ 8, by decide +kernel⟩
  refine ⟨trivial, ?_, ?_, ?_, trivial, ?_, ?_, ?_, trivial⟩
  all_goals
    intro call pc hat
    obtain ⟨rfl, rfl⟩ := Prod.mk.inj (Option.some.inj hat)
  · trivial
  · exact fun _ _ _ => rfl
  · exact fun _ => .inl rfl
  · trivial
  · exact fun _ _ _ => rfl
  · exact fun _ => .inl rfl

/-- Two calls that take their copies before either has saved. -/
def setsInterleaved : List Move :=
  [.begin 0 (.set "openai_api_key" "sk-1"),
    .begin 1 (.set "brave_api_key" "bk-1"), .go 0 false, .go 1 false,
    .go 0 false, .go 0 false, .go 1 false, .go 1 false]

/-- Both calls return `Ok`, and the key the first has set is not there. -/
theorem interleaved_sets_lose :
    ¬ ∀ (s : Vault) (moves : List Move), s.Starts →
      Kept s.present (Trace.run step s moves) := by
  intro h
  have hkept := h emptyVault setsInterleaved emptyVault_starts
  have hidle : ∀ t,
      (Trace.run step emptyVault setsInterleaved).threads t = none := by
    rintro (_ | _ | t)
    · rfl
    · rfl
    · rfl
  have hlost := hkept.present "openai_api_key" (by
    rintro ⟨t, call, pc, hat, -⟩
    cases (hidle t).symm.trans hat)
  revert hlost
  decide +kernel

end AirNote.SecretVault
