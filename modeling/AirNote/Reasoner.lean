import AirNote.Lib.Fold
import AirNote.Lib.Lines
import AirNote.Log

/-!
# The reasoner: configuration, consent, provider

The evolve, reflect and conflict ticks drive a reasoner, which is either the
local one or a cloud one. The choice is a `config` event of the signed log;
so is the consent that a cloud reasoner needs, which names the provider, the
host and the fingerprint of the key. The readiness check compares a
configuration with a consent and the key of the vault; the provider builds
the reasoner of a configuration and keeps it as long as the fingerprint of
the configuration stays the same.

The URL parser and the key digest are libraries of the daemon and parameters
here. Of the parser the development uses that appending the path of the
endpoint keeps the host.

## Main results

* `reasonerReady_cloud_iff` — what readiness of a cloud configuration says.
* `configFingerprint_inj` — the fingerprint determines the configuration as
  far as the reasoner depends on it, where no model name has a bar in it.
* `provided_eq_build` — a kept reasoner is the one that would be built.
-/

namespace AirNote

open Lib

/-! ## Configurations -/

/-- `ReasonerMode`. -/
inductive ReasonerMode where
  | localMode
  | cloud
  deriving DecidableEq, Repr

/-- `CloudProvider`. -/
inductive CloudProvider where
  | anthropic
  | openAiCompat
  | gemini
  deriving DecidableEq, Repr

/-- `ReasonerConfig`. -/
structure ReasonerConfig where
  mode : ReasonerMode
  provider : CloudProvider
  model : String
  baseUrl : Option String
  deriving DecidableEq, Repr

/-- `ReasonerConfig::default`. -/
def ReasonerConfig.default : ReasonerConfig :=
  { mode := .localMode
    provider := .anthropic
    model := ""
    baseUrl := none }

/-- `parse_reasoner_config`: a missing or malformed field falls back to the
local default, field by field. -/
def parseReasonerConfig (raw : Option Json) : ReasonerConfig :=
  match raw with
  | some (.obj fields) =>
      let obj : Json := .obj fields
      { mode :=
          if obj.getStr? "mode" = some "cloud" then .cloud else .localMode
        provider :=
          if obj.getStr? "provider" = some "openai-compat" then .openAiCompat
          else if obj.getStr? "provider" = some "gemini" then .gemini
          else .anthropic
        model := (obj.getStr? "model").getD ReasonerConfig.default.model
        baseUrl := obj.getStr? "base_url" }
  | _ => ReasonerConfig.default

/-- `provider_str`. -/
def providerStr : CloudProvider → String
  | .anthropic => "anthropic"
  | .openAiCompat => "openai-compat"
  | .gemini => "gemini"

/-- The mode in a fingerprint. -/
def modeStr : ReasonerMode → String
  | .localMode => "local"
  | .cloud => "cloud"

/-- `config_fingerprint`. -/
def configFingerprint (c : ReasonerConfig) : String :=
  modeStr c.mode ++ "|" ++ (providerStr c.provider ++ "|" ++
    (c.model ++ "|" ++ c.baseUrl.getD ""))

def anthropicHost : String := "api.anthropic.com"

def geminiHost : String := "generativelanguage.googleapis.com"

/-- The name of the provider's key in the vault. -/
def keyName : CloudProvider → String
  | .anthropic => "anthropic_api_key"
  | .openAiCompat => "openai_compat_api_key"
  | .gemini => "google_api_key"

/-- The libraries: the host of a URL that parses, and the hex of the first
bytes of the digest of a key. -/
structure ReasonerLibs where
  urlHost : String → Option String
  keyFingerprint : String → String

/-- `config_host`. -/
def configHost (libs : ReasonerLibs) (config : ReasonerConfig) :
    Option String :=
  match config.provider with
  | .anthropic => some anthropicHost
  | .gemini => some geminiHost
  | .openAiCompat => config.baseUrl.bind libs.urlHost

/-! ## Keys -/

/-- The keys of the providers, by name. -/
abbrev Vault := String → Option String

/-- The provider's key, where it is not blank. -/
def providerKey (vault : Vault) (provider : CloudProvider) : Option String :=
  (vault (keyName provider)).filter fun k => !k.toList.all isWhitespace

/-- `current_key_fingerprint`, from the vault or from an unreadable one. -/
def currentKeyFingerprint (libs : ReasonerLibs) (vault : Option Vault)
    (config : ReasonerConfig) : Option String :=
  (vault.bind fun v => providerKey v config.provider).map libs.keyFingerprint

/-! ## Readiness -/

/-- The answer of `reasoner_ready` for a cloud configuration whose consent,
key and host are there. -/
def consentMatches (config : ReasonerConfig) (consent : Json)
    (keyFp host : String) : Bool :=
  consent.getStr? "provider" == some (providerStr config.provider) &&
    consent.getStr? "base_url_host" == some host &&
    consent.getStr? "key_fingerprint" == some keyFp

/-- `reasoner_ready`. -/
def reasonerReady (libs : ReasonerLibs) (config : ReasonerConfig)
    (consent : Option Json) (vaultKeyFingerprint : Option String)
    (localProbeReady : Bool) : Bool :=
  match config.mode with
  | .localMode => localProbeReady
  | .cloud =>
      match consent, vaultKeyFingerprint, configHost libs config with
      | some consent, some keyFp, some host =>
          consentMatches config consent keyFp host
      | _, _, _ => false

/-- The consent covers the provider, the host and the key. -/
structure ConsentsTo (consent : Json) (provider : CloudProvider)
    (host keyFp : String) : Prop where
  provider : consent.getStr? "provider" = some (providerStr provider)
  host : consent.getStr? "base_url_host" = some host
  key : consent.getStr? "key_fingerprint" = some keyFp

theorem consentMatches_iff {config : ReasonerConfig} {consent : Json}
    {keyFp host : String} :
    consentMatches config consent keyFp host = true ↔
      ConsentsTo consent config.provider host keyFp := by
  simp only [consentMatches, Bool.and_eq_true, beq_iff_eq]
  constructor
  · rintro ⟨⟨hp, hh⟩, hk⟩
    exact ⟨hp, hh, hk⟩
  · intro h
    exact ⟨⟨h.provider, h.host⟩, h.key⟩

/-- A cloud configuration is ready iff there are a consent, a key and a host
and the consent covers them. -/
theorem reasonerReady_cloud_iff {libs : ReasonerLibs}
    {config : ReasonerConfig} (hcloud : config.mode = .cloud)
    {consent : Option Json} {fp : Option String} {localProbeReady : Bool} :
    reasonerReady libs config consent fp localProbeReady = true ↔
      ∃ record keyFp host, consent = some record ∧ fp = some keyFp ∧
        configHost libs config = some host ∧
          ConsentsTo record config.provider host keyFp := by
  unfold reasonerReady
  simp only [hcloud]
  cases consent with
  | none => simp
  | some record =>
      cases fp with
      | none => simp
      | some keyFp =>
          cases hhost : configHost libs config with
          | none => simp
          | some host => simp [consentMatches_iff]

/-! ## Reasoners and their provider -/

/-- A reasoner: the local one, or a `CloudReasoner`. -/
inductive Reasoner where
  | ollama
  | cloudReasoner (provider : CloudProvider) (model : String)
      (baseUrl : Option String)
  deriving DecidableEq, Repr

/-- `build_reasoner`. -/
def buildReasoner (config : ReasonerConfig) : Reasoner :=
  match config.mode with
  | .localMode => .ollama
  | .cloud => .cloudReasoner config.provider config.model config.baseUrl

/-- `ConfigReasonerProvider::reasoner` on the configuration it has read: what
it keeps, and the reasoner. -/
def provideReasoner (kept : Option (String × Reasoner))
    (config : ReasonerConfig) : Option (String × Reasoner) × Reasoner :=
  match kept with
  | some (fp, r) =>
      if fp = configFingerprint config then (kept, r)
      else (some (configFingerprint config, buildReasoner config),
        buildReasoner config)
  | none => (some (configFingerprint config, buildReasoner config),
      buildReasoner config)

/-- The URL of `openai_complete`. -/
def chatEndpoint (baseUrl : String) : String :=
  String.ofList (baseUrl.toList.reverse.dropWhile (· = '/')).reverse ++
    "/v1/chat/completions"

/-- Where a cloud reasoner sends its requests: the provider and the host. -/
def Reasoner.endpoint (libs : ReasonerLibs) :
    Reasoner → Option (CloudProvider × String)
  | .ollama => none
  | .cloudReasoner .anthropic _ _ => some (.anthropic, anthropicHost)
  | .cloudReasoner .gemini _ _ => some (.gemini, geminiHost)
  | .cloudReasoner .openAiCompat _ baseUrl =>
      (baseUrl.bind fun b => libs.urlHost (chatEndpoint b)).map
        fun host => (.openAiCompat, host)

/-- Whom a prompt goes to. -/
structure Target where
  provider : CloudProvider
  host : String
  keyFingerprint : String
  deriving DecidableEq, Repr

/-- Whom a request of the reasoner goes to; nobody, for the local reasoner,
without an endpoint, or without a key in the vault. -/
def Reasoner.target (libs : ReasonerLibs) (vault : Option Vault)
    (r : Reasoner) : Option Target :=
  (r.endpoint libs).bind fun e =>
  (vault.bind fun v => providerKey v e.1).map fun key =>
    ⟨e.1, e.2, libs.keyFingerprint key⟩

/-- Appending the path of the endpoint keeps the host of a URL. -/
def ReasonerLibs.PathKeepsHost (libs : ReasonerLibs) : Prop :=
  ∀ baseUrl host host', libs.urlHost baseUrl = some host →
    libs.urlHost (chatEndpoint baseUrl) = some host' → host' = host

theorem endpoint_buildReasoner {libs : ReasonerLibs}
    (hpath : libs.PathKeepsHost) {config : ReasonerConfig}
    {e : CloudProvider × String} {host : String}
    (hhost : configHost libs config = some host)
    (h : (buildReasoner config).endpoint libs = some e) :
    e = (config.provider, host) := by
  unfold configHost at hhost
  unfold buildReasoner at h
  cases hmode : config.mode with
  | localMode =>
      rw [hmode] at h
      cases h
  | cloud =>
      rw [hmode] at h
      cases hp : config.provider with
      | anthropic =>
          rw [hp] at h hhost
          cases hhost
          exact (Option.some.inj h).symm
      | gemini =>
          rw [hp] at h hhost
          cases hhost
          exact (Option.some.inj h).symm
      | openAiCompat =>
          rw [hp] at h hhost
          simp only [Reasoner.endpoint, Option.map_eq_some_iff,
            Option.bind_eq_some_iff] at h
          obtain ⟨host', ⟨b, hb, hurl⟩, rfl⟩ := h
          rw [hb] at hhost
          rw [hpath b host host' hhost hurl]

/-! ### The fingerprint of a configuration -/

theorem append_bar_inj {a a' b b' : String} (ha : '|' ∉ a.toList)
    (ha' : '|' ∉ a'.toList) (h : a ++ "|" ++ b = a' ++ "|" ++ b') :
    a = a' ∧ b = b' := by
  have hbar : ("|" : String).toList = ['|'] := by decide
  have hl : a.toList ++ '|' :: b.toList = a'.toList ++ '|' :: b'.toList := by
    have hlist := congrArg String.toList h
    simpa only [String.toList_append, List.append_assoc, hbar,
      List.cons_append, List.nil_append] using hlist
  have hcut := congrArg (fun l => (Lines.cut '|' l).1.head?) hl
  rw [Lines.cut_line ha, Lines.cut_line ha'] at hcut
  have heq : a.toList = a'.toList := Option.some.inj hcut
  rw [heq] at hl
  exact ⟨String.toList_inj.mp heq, String.toList_inj.mp
    (List.tail_eq_of_cons_eq (List.append_cancel_left hl))⟩

/-- The model name has no bar in it. -/
def ReasonerConfig.NoBar (c : ReasonerConfig) : Prop :=
  '|' ∉ c.model.toList

theorem configFingerprint_inj {c c' : ReasonerConfig} (hc : c.NoBar)
    (hc' : c'.NoBar) (h : configFingerprint c = configFingerprint c') :
    c.mode = c'.mode ∧ c.provider = c'.provider ∧ c.model = c'.model ∧
      c.baseUrl.getD "" = c'.baseUrl.getD "" := by
  have hmodeBar : ∀ mode, '|' ∉ (modeStr mode).toList := by
    intro mode
    cases mode <;> decide
  have hproviderBar : ∀ provider, '|' ∉ (providerStr provider).toList := by
    intro provider
    cases provider <;> decide
  unfold configFingerprint at h
  have hmode := append_bar_inj (hmodeBar c.mode) (hmodeBar c'.mode) h
  have hprovider := append_bar_inj (hproviderBar c.provider)
    (hproviderBar c'.provider) hmode.2
  have hmodel := append_bar_inj hc hc' hprovider.2
  refine ⟨?_, ?_, hmodel.1, hmodel.2⟩
  · have heq := hmode.1
    cases hm : c.mode <;> cases hm' : c'.mode <;> rw [hm, hm'] at heq
    · revert heq; decide
    · revert heq; decide
  · have heq := hprovider.1
    cases hp : c.provider <;> cases hp' : c'.provider <;> rw [hp, hp'] at heq <;>
      first
        | rfl
        | exact absurd heq (by decide)

/-- No bar in the model, and no empty URL. -/
def ReasonerConfig.Plain (c : ReasonerConfig) : Prop :=
  c.NoBar ∧ c.baseUrl ≠ some ""

theorem buildReasoner_of_fingerprint {c c' : ReasonerConfig} (hc : c.Plain)
    (hc' : c'.Plain) (h : configFingerprint c = configFingerprint c') :
    buildReasoner c = buildReasoner c' := by
  obtain ⟨hmode, hprovider, hmodel, hurl⟩ := configFingerprint_inj hc.1 hc'.1 h
  have hbase : c.baseUrl = c'.baseUrl := by
    have hne := hc.2
    have hne' := hc'.2
    cases hb : c.baseUrl <;> cases hb' : c'.baseUrl <;> simp_all
  rw [buildReasoner, buildReasoner, hmode, hprovider, hmodel, hbase]

/-- What is kept was built of a configuration. -/
def Built (kept : Option (String × Reasoner)) : Prop :=
  ∀ k ∈ kept, ∃ c : ReasonerConfig, c.Plain ∧
    k = (configFingerprint c, buildReasoner c)

theorem provideReasoner_built {kept : Option (String × Reasoner)}
    (h : Built kept) {c : ReasonerConfig} (hc : c.Plain) :
    (provideReasoner kept c).2 = buildReasoner c ∧
      Built (provideReasoner kept c).1 := by
  have hnew : Built (some (configFingerprint c, buildReasoner c)) :=
    fun k hk => ⟨c, hc, (Option.some.inj hk).symm⟩
  unfold provideReasoner
  cases kept with
  | none => exact ⟨rfl, hnew⟩
  | some k =>
      obtain ⟨c', hc', rfl⟩ := h k rfl
      by_cases hfp : configFingerprint c' = configFingerprint c
      · simp only [if_pos hfp]
        exact ⟨buildReasoner_of_fingerprint hc' hc hfp, h⟩
      · simp only [if_neg hfp]
        exact ⟨trivial, hnew⟩

/-- The reasoners of one reading after the other. -/
def provided (kept : Option (String × Reasoner)) :
    List ReasonerConfig → List Reasoner
  | [] => []
  | c :: rest =>
      (provideReasoner kept c).2 :: provided (provideReasoner kept c).1 rest

/-- **The provider never hands out another configuration's reasoner.** -/
theorem provided_eq_build {configs : List ReasonerConfig}
    (h : ∀ c ∈ configs, c.Plain) :
    provided none configs = configs.map buildReasoner := by
  suffices hall : ∀ kept, Built kept →
      provided kept configs = configs.map buildReasoner from
    hall none fun _ hk => by cases hk
  induction configs with
  | nil => exact fun _ _ => rfl
  | cons c rest ih =>
      intro kept hkept
      rw [List.forall_mem_cons] at h
      obtain ⟨heq, hbuilt⟩ := provideReasoner_built hkept h.1
      rw [provided, heq, ih h.2 _ hbuilt, List.map_cons]

theorem provided_two :
    provided none [.default, ⟨.cloud, .gemini, "g", none⟩, .default] =
      [.ollama, .cloudReasoner .gemini "g" none, .ollama] :=
  provided_eq_build (by
    simp [ReasonerConfig.Plain, ReasonerConfig.NoBar, ReasonerConfig.default])

/-! ## What the log records -/

/-- `REASONER_CONFIG_KEY`. -/
def reasonerConfigKey : String := "reasoner_config"

/-- `CLOUD_REASONER_CONSENT_KEY`. -/
def cloudReasonerConsentKey : String := "cloud_reasoner_consent"

/-- `latest_config_value`: the newest `config` event that carries the key. -/
def latestConfigValue (log : EventLog) (key : String) : Option Json :=
  (eventsOfTypes log [configEventType]).reverse.findSome?
    fun ev => ev.content.get? key

/-- `reasoner_config_json`. -/
def reasonerConfigJson (log : EventLog) : Option Json :=
  latestConfigValue log reasonerConfigKey

/-- `cloud_reasoner_consent_json`. -/
def cloudReasonerConsentJson (log : EventLog) : Option Json :=
  latestConfigValue log cloudReasonerConsentKey

/-- The configuration the log selects. -/
def selectedConfig (log : EventLog) : ReasonerConfig :=
  parseReasonerConfig (reasonerConfigJson log)

/-- The event of `set_reasoner_config`, and of `set_cloud_reasoner_consent`. -/
def configEvent (key : String) (value : Json) : Event :=
  .draft configEventType (.obj [(key, value)]) none

/-- The record `enable_cloud_reasoner` signs. -/
def consentRecord (libs : ReasonerLibs) (vault : Option Vault)
    (config : ReasonerConfig) (consentedAt : String) : Json :=
  .obj [("provider", .str (providerStr config.provider)),
    ("base_url_host", .str ((configHost libs config).getD "")),
    ("key_fingerprint",
      .str ((currentKeyFingerprint libs vault config).getD "")),
    ("consented_at", .str consentedAt)]

/-- The log selects a cloud reasoner for the target and holds a consent that
covers it. -/
structure RecordsConsent (libs : ReasonerLibs) (log : EventLog)
    (target : Target) : Prop where
  mode : (selectedConfig log).mode = .cloud
  provider : (selectedConfig log).provider = target.provider
  host : configHost libs (selectedConfig log) = some target.host
  consent : ∃ record, cloudReasonerConsentJson log = some record ∧
    ConsentsTo record target.provider target.host target.keyFingerprint

/-- Readiness against the log, with the key of the target in the vault. -/
theorem recordsConsent_of_ready {libs : ReasonerLibs}
    (hpath : libs.PathKeepsHost) {log : EventLog} {vault : Vault}
    (hcloud : (selectedConfig log).mode = .cloud)
    (hready : reasonerReady libs (selectedConfig log)
      (cloudReasonerConsentJson log)
      (currentKeyFingerprint libs (some vault) (selectedConfig log)) false =
        true) {r : Reasoner}
    (hr : r.endpoint libs = (buildReasoner (selectedConfig log)).endpoint libs)
    {target : Target} (ht : r.target libs (some vault) = some target) :
    RecordsConsent libs log target := by
  obtain ⟨record, keyFp, host, hrecord, hkey, hhost, hcovers⟩ :=
    (reasonerReady_cloud_iff hcloud).mp hready
  unfold Reasoner.target at ht
  rw [hr, Option.bind_eq_some_iff] at ht
  obtain ⟨e, he, hmap⟩ := ht
  have hend : e = ((selectedConfig log).provider, host) :=
    endpoint_buildReasoner hpath hhost he
  subst hend
  rw [Option.map_eq_some_iff] at hmap
  obtain ⟨key, hvault, rfl⟩ := hmap
  have hfp : keyFp = libs.keyFingerprint key := by
    rw [currentKeyFingerprint, hvault] at hkey
    exact (Option.some.inj hkey).symm
  subst hfp
  exact
    { mode := hcloud
      provider := rfl
      host := hhost
      consent := ⟨record, hrecord, hcovers⟩ }

end AirNote
