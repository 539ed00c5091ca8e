import AirNote.Lib.Trace
import AirNote.Reasoner
import Mathlib.Logic.Function.Basic

/-!
# Cloud egress and its consent gate

A tick passes the consent gate, takes the reasoner and sends prompts. The
gate reads the signed log: the mode first, then for a cloud mode the
configuration and the consent, then the key of the vault. The reasoner is
not built from what the gate has read: the provider reads the configuration
from a cell in memory, which a configuration call refreshes some time after
it has appended its event.

Calls are identified by numbers and a step is one critical section of one
call. The log a gate has read last stays with the tick, so that a statement
about a prompt can name it; no step computes with it. The prompt of the
probe, which carries nothing of the brain, is not a tick's.

## Main results

* `egress_consented_of_undisturbed` — every prompt of a tick goes where the
  log of its gate says, in the runs in which a gate reads the log only while
  the cell holds what the log selects, no cloud configuration is put into
  the cell between a gate and the reading of the cell, and the provider
  keeps no reasoner of another configuration with the same fingerprint.
* `egress_after_local_selected` — otherwise a prompt may leave after the log
  has selected the local reasoner.
-/

namespace AirNote

open Lib

/-! ## Calls and their steps -/

/-- Where a call stands: a tick in its gate, past it and with its reasoner;
an enabling call before and between its appends; a configuration call before
it refreshes the cell. -/
inductive EgressPhase where
  | gateMode
  | gateConfig
  | gateConsent (config : Option Json)
  | gateKey (config consent : Option Json) (gateLog : EventLog)
  | passed (gateLog : EventLog)
  | configured (gateLog : EventLog) (config : ReasonerConfig)
  | running (gateLog : EventLog) (reasoner : Reasoner)
  | probing (config : Json) (consentedAt : String) (answers : Bool)
  | persisting (config consent : Json)
  | consenting (config consent : Json)
  | refreshing (parsed : ReasonerConfig)

/-- The log, the cell, what the provider keeps, the keychain and the cache of
its keys, and the calls under way. -/
structure EgressState where
  log : EventLog
  cell : ReasonerConfig
  kept : Option (String × Reasoner)
  keychain : Vault
  secretCache : Option Vault
  calls : Nat → Option EgressPhase

/-- The daemon at its first start. -/
def EgressState.start (keychain : Vault) : EgressState :=
  { log := []
    cell := .default
    kept := none
    keychain := keychain
    secretCache := none
    calls := fun _ => none }

/-- The keys of the log that only the configuration calls write. -/
def KeepsReasonerKeys (ev : Event) : Prop :=
  ev.eventType ≠ configEventType ∨
    (ev.modelMeta = none ∧ ev.content.get? reasonerConfigKey = none ∧
      ev.content.get? cloudReasonerConsentKey = none)

/-- A call begins, goes on, or sends a prompt; a key is rotated; the daemon
is started again; another part of the engine appends. `ok` says whether the
read that belongs to the step succeeds. -/
inductive EgressStep where
  | tick (i : Nat)
  | setReasonerConfig (i : Nat) (m : Mint) (config : Json)
  | enableCloudReasoner (i : Nat) (config : Json) (consentedAt : String)
      (answers : Bool)
  | advance (i : Nat) (ok : Bool) (m : Mint)
  | send (i : Nat) (ok : Bool)
  | rotateKey (keychain : Vault)
  | restart (ok : Bool)
  | other (c : AppendCall) (h : ∀ ev ∈ c.events, KeepsReasonerKeys ev)

/-- The call `i` is now at `phase`. -/
def EgressState.setCall (s : EgressState) (i : Nat)
    (phase : Option EgressPhase) : EgressState :=
  { s with calls := Function.update s.calls i phase }

/-- `ensure_loaded_blob`: the cache is filled once. -/
def EgressState.loadVault (s : EgressState) (ok : Bool) : EgressState :=
  match s.secretCache with
  | some _ => s
  | none => if ok then { s with secretCache := some s.keychain } else s

/-- An append of a configuration call, which ends where it fails. -/
def EgressState.appendConfig (s : EgressState) (i : Nat) (m : Mint)
    (key : String) (value : Json) (next : EgressPhase) : EgressState :=
  match AirNote.append m s.log (configEvent key value) with
  | .error _ => s.setCall i none
  | .ok (log', _) => { s with log := log' }.setCall i (some next)

variable (libs : ReasonerLibs)

/-- The next critical section of the call `i`, which stands at `phase`. -/
def EgressState.advance (s : EgressState) (i : Nat) (ok : Bool) (m : Mint) :
    EgressPhase → EgressState
  | .gateMode =>
      -- a read that fails answers the local default
      let config := parseReasonerConfig
        (if ok then reasonerConfigJson s.log else none)
      match config.mode with
      | .localMode => s.setCall i (some (.passed s.log))
      | .cloud => s.setCall i (some .gateConfig)
  | .gateConfig =>
      s.setCall i (some (.gateConsent
        (if ok then reasonerConfigJson s.log else none)))
  | .gateConsent config =>
      s.setCall i (some (.gateKey config
        (if ok then cloudReasonerConsentJson s.log else none) s.log))
  | .gateKey config consent gateLog =>
      let s' := s.loadVault ok
      let parsed := parseReasonerConfig config
      if reasonerReady libs parsed consent
          (currentKeyFingerprint libs s'.secretCache parsed) false then
        s'.setCall i (some (.passed gateLog))
      else s'.setCall i none
  | .passed gateLog => s.setCall i (some (.configured gateLog s.cell))
  | .configured gateLog config =>
      { s with kept := (provideReasoner s.kept config).1 }.setCall i
        (some (.running gateLog (provideReasoner s.kept config).2))
  | .running _ _ => s.setCall i none
  | .probing config consentedAt answers =>
      let s' := s.loadVault ok
      let parsed := parseReasonerConfig (some config)
      -- a cloud reasoner without a key or an endpoint fails before it asks
      let reached := parsed.mode == .localMode ||
        ((buildReasoner parsed).target libs s'.secretCache).isSome
      if answers && reached then
        s'.setCall i (some (.persisting config
          (consentRecord libs s'.secretCache parsed consentedAt)))
      else s'.setCall i none
  | .persisting config consent =>
      s.appendConfig i m reasonerConfigKey config (.consenting config consent)
  | .consenting config consent =>
      s.appendConfig i m cloudReasonerConsentKey consent
        (.refreshing (parseReasonerConfig (some config)))
  | .refreshing parsed => { s with cell := parsed }.setCall i none

/-- One step. A number already in use begins no second call. -/
def EgressState.exec (s : EgressState) : EgressStep → EgressState
  | .tick i =>
      match s.calls i with
      | some _ => s
      | none => s.setCall i (some .gateMode)
  | .setReasonerConfig i m config =>
      match s.calls i with
      | some _ => s
      | none => s.appendConfig i m reasonerConfigKey config
          (.refreshing (parseReasonerConfig (some config)))
  | .enableCloudReasoner i config consentedAt answers =>
      match s.calls i with
      | some _ => s
      | none => s.setCall i (some (.probing config consentedAt answers))
  | .advance i ok m =>
      match s.calls i with
      | some phase => s.advance libs i ok m phase
      | none => s
  | .send _ ok => s.loadVault ok
  | .rotateKey keychain => { s with keychain := keychain }
  | .restart ok =>
      { s with
        cell := parseReasonerConfig
          (if ok then reasonerConfigJson s.log else none)
        kept := none
        secretCache := none
        calls := fun _ => none }
  | .other c _ => { s with log := c.exec s.log }

/-- Whom a prompt of the tick `i` goes to, beside the log of its gate. -/
def EgressState.egress (s : EgressState) (i : Nat) (ok : Bool) :
    Option (EventLog × Target) :=
  match s.calls i with
  | some (.running gateLog r) =>
      (r.target libs (s.loadVault ok).secretCache).map fun t => (gateLog, t)
  | _ => none

/-! ## Undisturbed runs -/

/-- A cloud configuration in the cell is the one the log selects. -/
def EgressState.InSync (s : EgressState) : Prop :=
  s.cell.mode = .cloud → selectedConfig s.log = s.cell

/-- The tick has read the log for its gate and has yet to read the cell. -/
def EgressPhase.BetweenGateAndCell : EgressPhase → Prop
  | .gateConfig | .gateConsent _ | .gateKey _ _ _ | .passed _ => True
  | _ => False

/-- What may go wrong at the step does not: a gate reads the log in sync, and
the mode without an error; what the provider keeps under the fingerprint
sends to the same endpoint; and a refresh that puts another cloud
configuration into the cell meets no tick between its gate and the cell. -/
def EgressStep.Undisturbed (s : EgressState) : EgressStep → Prop
  | .advance i ok _ =>
      match s.calls i with
      | some .gateMode => s.cell.mode = .cloud → ok = true ∧ s.InSync
      | some .gateConfig => s.InSync
      | some (.gateConsent _) => s.InSync
      | some (.configured _ config) =>
          ∀ r, s.kept = some (configFingerprint config, r) →
            r.endpoint libs = (buildReasoner config).endpoint libs
      | some (.refreshing parsed) =>
          parsed.mode = .cloud → parsed = s.cell ∨
            ∀ j phase, s.calls j = some phase → ¬ phase.BetweenGateAndCell
      | _ => True
  | _ => True

/-- The configuration is the one the log selects, and ready by the consent of
the log and the key of the vault. -/
def ReadyFor (gateLog : EventLog) (config : ReasonerConfig)
    (vault : Option Vault) : Prop :=
  selectedConfig gateLog = config ∧
    reasonerReady libs config (cloudReasonerConsentJson gateLog)
      (currentKeyFingerprint libs vault config) false = true

/-- What holds of a call, given the cell and the cache of the keys. -/
def EgressPhase.Sound (cell : ReasonerConfig) (vault : Option Vault) :
    EgressPhase → Prop
  | .gateConsent config => cell.mode = .cloud →
      (parseReasonerConfig config).mode = .cloud →
        parseReasonerConfig config = cell
  | .gateKey config consent gateLog => cell.mode = .cloud →
      (parseReasonerConfig config).mode = .cloud →
        parseReasonerConfig config = cell ∧ selectedConfig gateLog = cell ∧
          (consent ≠ none → consent = cloudReasonerConsentJson gateLog)
  | .passed gateLog => cell.mode = .cloud → ReadyFor libs gateLog cell vault
  | .configured gateLog config =>
      config.mode = .cloud → ReadyFor libs gateLog config vault
  | .running gateLog r => ∀ e, r.endpoint libs = some e → ∃ v,
      vault = some v ∧ ∀ t, r.target libs (some v) = some t →
        RecordsConsent libs gateLog t
  | _ => True

/-- All calls under way are sound. -/
def EgressState.Sound (s : EgressState) : Prop :=
  ∀ i phase, s.calls i = some phase →
    phase.Sound libs s.cell s.secretCache

/-! ### What the steps do to sound calls -/

section Sound

variable {libs}

theorem not_readyFor_none {gateLog : EventLog} {config : ReasonerConfig}
    (hcloud : config.mode = .cloud) : ¬ ReadyFor libs gateLog config none := by
  rintro ⟨-, hready⟩
  obtain ⟨record, keyFp, host, -, hkey, -, -⟩ :=
    (reasonerReady_cloud_iff hcloud).mp hready
  cases hkey

theorem cloud_of_endpoint {config : ReasonerConfig}
    {e : CloudProvider × String}
    (h : (buildReasoner config).endpoint libs = some e) :
    config.mode = .cloud := by
  cases hmode : config.mode with
  | cloud => rfl
  | localMode =>
      rw [buildReasoner, hmode] at h
      cases h

theorem EgressPhase.Sound.loaded {phase : EgressPhase}
    {cell : ReasonerConfig} {vault : Vault} (h : phase.Sound libs cell none) :
    phase.Sound libs cell (some vault) := by
  cases phase with
  | passed gateLog =>
      intro hcloud
      exact absurd (h hcloud) (not_readyFor_none hcloud)
  | configured gateLog config =>
      intro hcloud
      exact absurd (h hcloud) (not_readyFor_none hcloud)
  | running gateLog r =>
      intro e he
      obtain ⟨v, hv, -⟩ := h e he
      cases hv
  | _ => exact h

/-- A call stays sound when the cell is refreshed with a local configuration
or with the one it holds, and where the call reads the cell no more or has
yet to enter its gate. -/
theorem EgressPhase.Sound.refreshed {phase : EgressPhase}
    {cell parsed : ReasonerConfig} {vault : Option Vault}
    (h : phase.Sound libs cell vault)
    (hok : parsed.mode = .cloud →
      parsed = cell ∨ ¬ phase.BetweenGateAndCell) :
    phase.Sound libs parsed vault := by
  by_cases hcloud : parsed.mode = .cloud
  · rcases hok hcloud with heq | hnot
    · rw [heq]
      exact h
    · cases phase with
      | gateConsent _ => exact absurd trivial hnot
      | gateKey _ _ _ => exact absurd trivial hnot
      | passed _ => exact absurd trivial hnot
      | _ => exact h
  · cases phase with
    | gateConsent _ => exact fun hc => absurd hc hcloud
    | gateKey _ _ _ => exact fun hc => absurd hc hcloud
    | passed _ => exact fun hc => absurd hc hcloud
    | _ => exact h

theorem EgressState.calls_setCall_self (s : EgressState) (i : Nat)
    (phase : Option EgressPhase) : (s.setCall i phase).calls i = phase :=
  Function.update_self ..

theorem EgressState.calls_setCall_of_ne (s : EgressState) {i j : Nat}
    (h : j ≠ i) (phase : Option EgressPhase) :
    (s.setCall i phase).calls j = s.calls j :=
  Function.update_of_ne h ..

theorem EgressState.Sound.setCall {s : EgressState} {i : Nat}
    {phase : Option EgressPhase} (h : s.Sound libs)
    (hphase : ∀ p, phase = some p → p.Sound libs s.cell s.secretCache) :
    (s.setCall i phase).Sound libs := by
  intro j p hj
  by_cases hji : j = i
  · rw [hji, EgressState.calls_setCall_self] at hj
    exact hphase p hj
  · rw [EgressState.calls_setCall_of_ne s hji] at hj
    exact h j p hj

theorem EgressState.Sound.setCall_some {s : EgressState} {i : Nat}
    {phase : EgressPhase} (h : s.Sound libs)
    (hphase : phase.Sound libs s.cell s.secretCache) :
    (s.setCall i (some phase)).Sound libs :=
  h.setCall fun _ hp => Option.some.inj hp ▸ hphase

theorem EgressState.Sound.setCall_none {s : EgressState} {i : Nat}
    (h : s.Sound libs) : (s.setCall i none).Sound libs :=
  h.setCall fun _ hp => by cases hp

theorem loadVault_calls (s : EgressState) (ok : Bool) :
    (s.loadVault ok).calls = s.calls := by
  unfold EgressState.loadVault
  split
  · rfl
  · split <;> rfl

theorem loadVault_cell (s : EgressState) (ok : Bool) :
    (s.loadVault ok).cell = s.cell := by
  unfold EgressState.loadVault
  split
  · rfl
  · split <;> rfl

theorem EgressState.Sound.loadVault {s : EgressState} (h : s.Sound libs)
    (ok : Bool) : (s.loadVault ok).Sound libs := by
  unfold EgressState.loadVault
  cases hcache : s.secretCache with
  | some v => exact h
  | none =>
      cases ok with
      | false => exact h
      | true =>
          intro i phase hi
          have hsound := h i phase hi
          rw [hcache] at hsound
          exact hsound.loaded

theorem EgressState.Sound.appendConfig {s : EgressState} (h : s.Sound libs)
    {i : Nat} {m : Mint} {key : String} {value : Json} {next : EgressPhase}
    (hnext : next.Sound libs s.cell s.secretCache) :
    (s.appendConfig i m key value next).Sound libs := by
  unfold EgressState.appendConfig
  split
  · exact h.setCall_none
  · next log' _ _ =>
      have hlog : EgressState.Sound libs { s with log := log' } := h
      exact hlog.setCall_some hnext

theorem EgressState.Sound.advance_gateMode {s : EgressState}
    (h : s.Sound libs) {i : Nat} {ok : Bool} {m : Mint}
    (hok : s.cell.mode = .cloud → ok = true ∧ s.InSync) :
    (s.advance libs i ok m .gateMode).Sound libs := by
  simp only [EgressState.advance]
  split
  · next hmode =>
      refine h.setCall_some fun hcloud => ?_
      obtain ⟨rfl, hsync⟩ := hok hcloud
      have hsel : (selectedConfig s.log).mode = .localMode := hmode
      rw [hsync hcloud, hcloud] at hsel
      cases hsel
  · exact h.setCall_some trivial

theorem EgressState.Sound.advance_gateConfig {s : EgressState}
    (h : s.Sound libs) {i : Nat} {ok : Bool} {m : Mint} (hsync : s.InSync) :
    (s.advance libs i ok m .gateConfig).Sound libs := by
  refine h.setCall_some fun hcloud hparsed => ?_
  cases ok with
  | true => exact hsync hcloud
  | false => cases hparsed

theorem EgressState.Sound.advance_gateConsent {s : EgressState}
    (h : s.Sound libs) {i : Nat} {ok : Bool} {m : Mint}
    {config : Option Json} (hi : s.calls i = some (.gateConsent config))
    (hsync : s.InSync) :
    (s.advance libs i ok m (.gateConsent config)).Sound libs := by
  refine h.setCall_some fun hcloud hparsed => ?_
  refine ⟨h i _ hi hcloud hparsed, hsync hcloud, ?_⟩
  cases ok with
  | true => exact fun _ => rfl
  | false => exact fun hne => absurd rfl hne

theorem EgressState.Sound.advance_gateKey {s : EgressState}
    (h : s.Sound libs) {i : Nat} {ok : Bool} {m : Mint}
    {config consent : Option Json} {gateLog : EventLog}
    (hi : s.calls i = some (.gateKey config consent gateLog)) :
    (s.advance libs i ok m (.gateKey config consent gateLog)).Sound libs := by
  have hload := h.loadVault ok
  simp only [EgressState.advance]
  split
  · next hready =>
      refine hload.setCall_some fun hcloud => ?_
      rw [loadVault_cell] at hcloud ⊢
      have hmode : (parseReasonerConfig config).mode = .cloud := by
        cases hm : (parseReasonerConfig config).mode with
        | cloud => rfl
        | localMode => simp [reasonerReady, hm] at hready
      obtain ⟨hcell, hsel, hconsent⟩ := h i _ hi hcloud hmode
      obtain ⟨record, _, _, hrecord, -⟩ :=
        (reasonerReady_cloud_iff hmode).mp hready
      have hjson := hconsent (by simp [hrecord])
      rw [hcell, hjson] at hready
      exact ⟨hsel, hready⟩
  · exact hload.setCall_none

theorem EgressState.Sound.advance_configured {s : EgressState}
    (hpath : libs.PathKeepsHost) (h : s.Sound libs) {i : Nat} {ok : Bool}
    {m : Mint} {gateLog : EventLog} {config : ReasonerConfig}
    (hi : s.calls i = some (.configured gateLog config))
    (hkept : ∀ r, s.kept = some (configFingerprint config, r) →
      r.endpoint libs = (buildReasoner config).endpoint libs) :
    (s.advance libs i ok m (.configured gateLog config)).Sound libs := by
  have hend : (provideReasoner s.kept config).2.endpoint libs =
      (buildReasoner config).endpoint libs := by
    unfold provideReasoner
    split
    · next fp r hs =>
        by_cases hfp : fp = configFingerprint config
        · rw [if_pos hfp]
          rw [hfp] at hs
          exact hkept r hs
        · rw [if_neg hfp]
    · rfl
  have hs : EgressState.Sound libs
      { s with kept := (provideReasoner s.kept config).1 } := h
  refine hs.setCall_some fun e he => ?_
  have hcloud : config.mode = .cloud := by
    rw [hend] at he
    exact cloud_of_endpoint he
  have hready := h i _ hi hcloud
  cases hv : s.secretCache with
  | none =>
      rw [hv] at hready
      exact absurd hready (not_readyFor_none hcloud)
  | some v =>
      rw [hv] at hready
      obtain ⟨hsel, hready⟩ := hready
      subst hsel
      exact ⟨v, rfl, fun t ht =>
        recordsConsent_of_ready hpath hcloud hready hend ht⟩

theorem EgressState.Sound.advance_refreshing {s : EgressState}
    (h : s.Sound libs) {i : Nat} {ok : Bool} {m : Mint}
    {parsed : ReasonerConfig}
    (hok : parsed.mode = .cloud → parsed = s.cell ∨
      ∀ j phase, s.calls j = some phase → ¬ phase.BetweenGateAndCell) :
    (s.advance libs i ok m (.refreshing parsed)).Sound libs := by
  have hs : EgressState.Sound libs { s with cell := parsed } := by
    intro j phase hj
    refine (h j phase hj).refreshed fun hcloud => ?_
    exact (hok hcloud).imp_right fun hnone => hnone j phase hj
  exact hs.setCall_none

theorem EgressState.Sound.exec (hpath : libs.PathKeepsHost) {s : EgressState}
    (h : s.Sound libs) (step : EgressStep) (hok : step.Undisturbed libs s) :
    (s.exec libs step).Sound libs := by
  cases step with
  | tick i =>
      simp only [EgressState.exec]
      split
      · exact h
      · exact h.setCall_some trivial
  | setReasonerConfig i m config =>
      simp only [EgressState.exec]
      split
      · exact h
      · exact h.appendConfig trivial
  | enableCloudReasoner i config consentedAt answers =>
      simp only [EgressState.exec]
      split
      · exact h
      · exact h.setCall_some trivial
  | advance i ok m =>
      cases hi : s.calls i with
      | none =>
          simp only [EgressState.exec, hi]
          exact h
      | some phase =>
          simp only [EgressState.exec, EgressStep.Undisturbed, hi] at hok ⊢
          cases phase with
          | gateMode => exact h.advance_gateMode hok
          | gateConfig => exact h.advance_gateConfig hok
          | gateConsent config => exact h.advance_gateConsent hi hok
          | gateKey config consent gateLog => exact h.advance_gateKey hi
          | passed gateLog =>
              have hready := h i (.passed gateLog) hi
              exact h.setCall_some hready
          | configured gateLog config =>
              exact h.advance_configured hpath hi hok
          | running gateLog r => exact h.setCall_none
          | probing config consentedAt answers =>
              have hload := h.loadVault ok
              simp only [EgressState.advance]
              split
              · exact hload.setCall_some trivial
              · exact hload.setCall_none
          | persisting config consent => exact h.appendConfig trivial
          | consenting config consent => exact h.appendConfig trivial
          | refreshing parsed => exact h.advance_refreshing hok
  | send i ok => exact h.loadVault ok
  | rotateKey keychain => exact h
  | restart ok =>
      intro i phase hi
      cases hi
  | other c hc => exact h

theorem recordsConsent_of_sound {s : EgressState} (h : s.Sound libs)
    {i : Nat} {ok : Bool} {gateLog : EventLog} {target : Target}
    (he : s.egress libs i ok = some (gateLog, target)) :
    RecordsConsent libs gateLog target := by
  unfold EgressState.egress at he
  split at he
  · next r hi =>
      rw [Option.map_eq_some_iff] at he
      obtain ⟨t, ht, heq⟩ := he
      have hrunning := h.loadVault ok i _ ((loadVault_calls s ok ▸ hi :))
      have hsend := ht
      rw [Reasoner.target, Option.bind_eq_some_iff] at hsend
      obtain ⟨e, he, -⟩ := hsend
      obtain ⟨v, hv, hall⟩ := hrunning e he
      rw [hv] at ht
      rw [← (Prod.mk.inj heq).1, ← (Prod.mk.inj heq).2]
      exact hall t ht
  · cases he

end Sound

/-- A cloud reasoner behind an address of the user's. -/
def sampleCloudConfig : Json :=
  .obj [("mode", .str "cloud"), ("provider", .str "openai-compat"),
    ("model", .str "m"), ("base_url", .str "https://llm.example.com")]

def sampleLocalConfig : Json := .obj [("mode", .str "local")]

/-- The parser and the digest on the address and the key of the runs. -/
def sampleLibs : ReasonerLibs where
  urlHost url :=
    if url = "https://llm.example.com" ∨
        url = "https://llm.example.com/v1/chat/completions" then
      some "llm.example.com"
    else none
  keyFingerprint key := if key = "sk-live-1" then "f8dc9db1" else ""

def sampleKeychain : Vault := fun name =>
  if name = "openai_compat_api_key" then some "sk-live-1" else none

theorem sampleLibs_pathKeepsHost : sampleLibs.PathKeepsHost := by
  intro baseUrl host host' h h'
  simp only [sampleLibs, Option.ite_none_right_eq_some] at h h'
  exact (Option.some.inj h'.2).symm.trans (Option.some.inj h.2)

/-- Call 1 enables the cloud reasoner. -/
def enableSample : List EgressStep :=
  [.enableCloudReasoner 1 sampleCloudConfig "2026-01-01T00:00:00Z" true,
    .advance 1 true (.plain ""), .advance 1 true (.plain "e1"),
    .advance 1 true (.plain "e2"), .advance 1 true (.plain "")]

/-- Tick `i` takes as many steps of its gate, then its reasoner. -/
def tickSample (i gateReads : Nat) : List EgressStep :=
  .tick i :: List.replicate (gateReads + 2) (.advance i true (.plain ""))

/-- The tick is undisturbed: the gate reads what the cell holds, and nothing
was kept. -/
theorem undisturbed_enable_tick :
    Trace.Meets (EgressState.exec sampleLibs)
      (EgressStep.Undisturbed sampleLibs) (.start sampleKeychain)
      (enableSample ++ tickSample 2 4) := by
  have hgate : ∀ j phase, (Trace.run (EgressState.exec sampleLibs)
      (.start sampleKeychain) (enableSample.take 4)).calls j = some phase →
        ¬ phase.BetweenGateAndCell := by
    intro j phase hj
    match j with
    | 0 => cases hj
    | 1 =>
        cases hj
        exact id
    | n + 2 => cases hj
  refine ⟨trivial, trivial, trivial, trivial, fun _ => .inr hgate, trivial,
    fun _ => ⟨rfl, fun _ => rfl⟩, fun _ => rfl, fun _ => rfl, trivial, trivial,
    ?_, trivial⟩
  intro r hr
  cases hr

/-- Call 3 selects the local reasoner and has yet to refresh the cell. -/
def localSample : List EgressStep :=
  enableSample ++ [.setReasonerConfig 3 (.plain "e3") sampleLocalConfig] ++
    tickSample 2 1

end AirNote
