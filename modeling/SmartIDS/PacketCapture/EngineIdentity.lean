import SmartIDS.PacketCapture.Registration
import SmartIDS.PacketCapture.RequestSigner
set_option autoImplicit false

/-!
# Packet capture: the identity of the engine

Every start of `sniffer_service.py` chooses what the engine signs its requests with: the
credential in the local configuration, the token of the service, or a credential that a
browser registration brings and saves.  A start may be killed at any point of its
registration up to the rename of the save, in the middle of what is written as well; the
rename, the load behind it and the return of the signer are one step.
-/

namespace SmartIDS.PacketCapture

open SmartIDS.Foundation SmartIDS.Python

/-- The arguments of `InternalRequestSigner`; no engine id is `null`. -/
structure Credential where
  secret : String
  engineId : Json

/-- `InternalRequestSigner(config["engine_secret"], engine_id=config.get("engine_id"))`: a
secret that is no string has no `encode`. -/
def credentialOf (config : JsonObject) : Except PyError Credential :=
  match JsonObject.getD config "engine_secret" .null with
  | .str secret => .ok ⟨secret, JsonObject.getD config "engine_id" .null⟩
  | _ => .error .other

/-- The credential of a configuration that is saved. -/
def EngineConfig.credential (config : EngineConfig) : Credential :=
  ⟨config.engineSecret, .str config.engineId⟩

/-- What a start finds, and what the threads of a registration do if it comes to one. -/
structure ServiceStart where
  internalServiceToken : String
  /-- `SMARTIDS_ENGINE_REGISTRATION_ENABLED`, or the empty text. -/
  registrationEnabled : String
  registrationId : String
  backendUrl : String
  registration : List RegistrationEvent

namespace ServiceStart

/-- `engine_registration_enabled`. -/
def enabled (s : ServiceStart) : Bool :=
  lower (strip s.registrationEnabled) ∈ ["1", "true", "yes", "on"]

/-- What its registration is run with. -/
def env (s : ServiceStart) (env : RegistrationEnv) : RegistrationEnv :=
  { env with registrationId := s.registrationId, backendUrl := s.backendUrl }

end ServiceStart

section starts

variable (env : RegistrationEnv)

/-- What `EngineLocalConfig().load()` makes of the disk. -/
def loadConfig (disk : Renamed ByteArray) : Except PyError (Option JsonObject) :=
  EngineLocalConfig.load env.loads disk.file

/-- The end of `_resolve_internal_request_signer` behind `run_registration`; `none` for a start
that does not get there. -/
def signerOfRegistration : ClientPhase → Option (Except PyError (Option Credential))
  | .finished (.ok (some config)) => some ((credentialOf config).map some)
  | .finished (.ok none) => some (.ok none)
  | .finished (.error e) => some (.error e)
  | _ => none

/-- `_resolve_internal_request_signer`. -/
def resolveInternalRequestSigner (s : ServiceStart) (disk : Renamed ByteArray) :
    Option (Except PyError (Option Credential)) × Renamed ByteArray :=
  match loadConfig env disk with
  | .error e => (some (.error e), disk)
  | .ok (some config) => (some ((credentialOf config).map some), disk)
  | .ok none =>
    if s.internalServiceToken ≠ "" then (some (.ok (some ⟨s.internalServiceToken, .null⟩)), disk)
    else if s.enabled then
      let r := (Registration.run (s.env env)).exec (Registration.init disk) s.registration
      (signerOfRegistration r.client, r.disk)
    else (some (.ok none), disk)

/-- The starts of the engine, over one disk. -/
def starts : Machine (Renamed ByteArray) ServiceStart (Option (Except PyError (Option Credential)))
    where
  step disk s :=
    ((resolveInternalRequestSigner env s disk).2, (resolveInternalRequestSigner env s disk).1)

/-- The registration of this start accepted a request with this credential. -/
def Registers (s : ServiceStart) (config : EngineConfig) : Prop :=
  ∃ entries, Registration.Accepted (s.env env) s.registration entries ∧
    engineConfig env.repr s.backendUrl entries = .ok (some config)

end starts

section identity

variable {env : RegistrationEnv}

theorem credentialOf_payload (config : EngineConfig) :
    credentialOf (EngineLocalConfig.payload config) = .ok config.credential := rfl

section

variable (env)

/-- A registration saves the credential it returns, or leaves what is loaded as it was. -/
theorem registration_cases (s : ServiceStart) (disk : Renamed ByteArray) :
    let r := (Registration.run (s.env env)).exec (Registration.init disk) s.registration
    (∃ config, Registers env s config ∧
        signerOfRegistration r.client = some (.ok (some config.credential)) ∧
        loadConfig env r.disk = .ok (some (EngineLocalConfig.payload config))) ∨
      (loadConfig env r.disk = loadConfig env disk ∧
        ∀ c, signerOfRegistration r.client ≠ some (.ok (some c))) := by
  intro r
  have hclient : Registration.ClientOk (s.env env) disk s.registration r.result r.disk r.client :=
    (Registration.sound_exec disk s.registration).client
  have hkept : r.disk = disk → loadConfig env r.disk = loadConfig env disk :=
    fun hdisk => congrArg _ hdisk
  by_cases hunfinished : ∀ outcome, r.client ≠ .finished outcome
  · refine Or.inr ⟨hkept (hclient.disk_eq hunfinished), fun c => ?_⟩
    cases hphase : r.client with
    | finished outcome => exact absurd hphase (hunfinished outcome)
    | _ => simp [signerOfRegistration]
  · push Not at hunfinished
    obtain ⟨outcome, hphase⟩ := hunfinished
    rw [hphase] at hclient ⊢
    rcases hclient.cases with ⟨config, rfl, hregistered⟩ | ⟨hfile, houtcome⟩
    · obtain ⟨entries, haccepted, -, hconfig⟩ := hregistered.accepted
      exact Or.inl ⟨config, ⟨entries, haccepted, hconfig⟩, rfl, hregistered.loaded⟩
    · refine Or.inr ⟨congrArg (EngineLocalConfig.load env.loads) hfile, fun c => ?_⟩
      rcases houtcome with rfl | ⟨e, rfl⟩ <;> simp [signerOfRegistration]

/-- What a start does: it uses the configuration it loads; or there is none, and it registers
one or leaves what is loaded as it was and signs for no engine. -/
theorem start_cases (s : ServiceStart) (disk : Renamed ByteArray) :
    (∃ config, loadConfig env disk = .ok (some config) ∧
        (starts env).step disk s = (disk, some ((credentialOf config).map some))) ∨
      (loadConfig env disk = .ok none ∧ ∃ config, Registers env s config ∧
        ((starts env).step disk s).2 = some (.ok (some config.credential)) ∧
        loadConfig env ((starts env).step disk s).1 =
          .ok (some (EngineLocalConfig.payload config))) ∨
      (loadConfig env ((starts env).step disk s).1 = loadConfig env disk ∧
        ∀ c, ((starts env).step disk s).2 = some (.ok (some c)) → c.engineId = .null) := by
  simp only [starts]
  unfold resolveInternalRequestSigner
  cases hload : loadConfig env disk with
  | error e => exact Or.inr (Or.inr ⟨hload, fun c hc => by simp at hc⟩)
  | ok config =>
    cases config with
    | some config => exact Or.inl ⟨config, rfl, rfl⟩
    | none =>
      dsimp only
      split_ifs with htoken henabled
      · refine Or.inr (Or.inr ⟨hload, fun c hc => ?_⟩)
        obtain rfl := Option.some.inj (Except.ok.inj (Option.some.inj hc))
        rfl
      · rcases registration_cases env s disk with hregisters | ⟨hkept, hnone⟩
        · exact Or.inr (Or.inl ⟨rfl, hregisters⟩)
        · exact Or.inr (Or.inr ⟨hkept.trans hload, fun c hc => absurd hc (hnone c)⟩)
      · exact Or.inr (Or.inr ⟨hload, fun c hc => by simp at hc⟩)

end

/-- A credential that can be loaded is what every start uses. -/
theorem trace_of_loaded {disk : Renamed ByteArray} {config : JsonObject}
    (h : loadConfig env disk = .ok (some config)) (later : List ServiceStart) :
    (starts env).trace disk later = later.map fun _ => some ((credentialOf config).map some) := by
  induction later with
  | nil => rfl
  | cons s later ih =>
    have hstep : (starts env).step disk s = (disk, some ((credentialOf config).map some)) := by
      simp only [starts, resolveInternalRequestSigner, h]
    rw [Machine.trace_cons, hstep, ih, List.map_cons]

/-- A start that signs for an engine leaves a configuration with its credential. -/
theorem loaded_of_signer {disk : Renamed ByteArray} {s : ServiceStart} {c : Credential}
    (h : ((starts env).step disk s).2 = some (.ok (some c))) (hid : c.engineId ≠ .null) :
    ∃ config, loadConfig env ((starts env).step disk s).1 = .ok (some config) ∧
      credentialOf config = .ok c := by
  rcases start_cases env s disk with ⟨config, hload, hstep⟩ |
    ⟨-, config, -, houtput, hload⟩ | ⟨-, hnull⟩
  · rw [hstep] at h ⊢
    refine ⟨config, hload, ?_⟩
    cases hcredential : credentialOf config with
    | ok c' =>
      rw [hcredential] at h
      exact congrArg Except.ok (Option.some.inj (Except.ok.inj (Option.some.inj h)))
    | error e =>
      rw [hcredential] at h
      simp [Except.map] at h
  · refine ⟨_, hload, ?_⟩
    rw [credentialOf_payload]
    exact congrArg Except.ok
      (Option.some.inj (Except.ok.inj (Option.some.inj (houtput.symm.trans h))))
  · exact absurd (hnull c h) hid

/-- What is loaded was there from the beginning, or a start registered it where there was
nothing. -/
def Origin (env : RegistrationEnv) (disk : Renamed ByteArray) (es : List ServiceStart)
    (loaded : Except PyError (Option JsonObject)) : Prop :=
  loaded = loadConfig env disk ∨
    loadConfig env disk = .ok none ∧ ∃ s ∈ es, ∃ config, Registers env s config ∧
      loaded = .ok (some (EngineLocalConfig.payload config))

theorem Origin.mono {disk : Renamed ByteArray} {es : List ServiceStart}
    {loaded : Except PyError (Option JsonObject)} (h : Origin env disk es loaded)
    (s : ServiceStart) : Origin env disk (es ++ [s]) loaded := by
  rcases h with hsame | ⟨hnone, first, hfirst, hconfig⟩
  · exact Or.inl hsame
  · exact Or.inr ⟨hnone, first, List.mem_append_left _ hfirst, hconfig⟩

theorem Origin.step {disk t : Renamed ByteArray} {es : List ServiceStart}
    (h : Origin env disk es (loadConfig env t)) (s : ServiceStart) :
    Origin env disk (es ++ [s]) (loadConfig env ((starts env).step t s).1) := by
  rcases start_cases env s t with ⟨config, hload, hstep⟩ |
    ⟨hnone, config, hregisters, -, hload⟩ | ⟨hsame, -⟩
  · rw [hstep]
    exact h.mono s
  · rcases h with hsame | ⟨-, -, -, config', -, hsaved⟩
    · exact Or.inr ⟨hsame.symm.trans hnone, s, List.mem_append_right _ List.mem_cons_self, config,
        hregisters, hload⟩
    · rw [hsaved] at hnone
      cases hnone
  · rw [hsame]
    exact h.mono s

theorem origin_exec (env : RegistrationEnv) (disk : Renamed ByteArray) (es : List ServiceStart) :
    Origin env disk es (loadConfig env ((starts env).exec disk es)) := by
  refine @Machine.exec_history _ _ _ (starts env) (fun es t => Origin env disk es (loadConfig env t))
    disk (Or.inl rfl) ?_ es
  exact fun es s t h => h.step s

end identity

/-- Once a start has signed for an engine, every later one signs for it with the same secret,
whatever else it finds; the credential was in the file from the beginning, or there was none
and one of the starts so far registered it; and a start that does not sign for an engine, its
registration refused, given up or killed in front of the rename, leaves no trace in what is
loaded. -/
theorem engine_identity (env : RegistrationEnv) (disk : Renamed ByteArray)
    (before : List ServiceStart) (s : ServiceStart) :
    let t := (starts env).step ((starts env).exec disk before) s
    (∀ c, t.2 = some (.ok (some c)) → c.engineId ≠ .null →
      ∀ later, (starts env).trace t.1 later = later.map fun _ => some (.ok (some c))) ∧
    (∀ c, t.2 = some (.ok (some c)) → c.engineId ≠ .null →
      (∃ config, loadConfig env disk = .ok (some config) ∧ credentialOf config = .ok c) ∨
        loadConfig env disk = .ok none ∧
          ∃ first ∈ before ++ [s], ∃ config, Registers env first config ∧ c = config.credential) ∧
    ((∀ c, t.2 = some (.ok (some c)) → c.engineId = .null) →
      loadConfig env t.1 = loadConfig env ((starts env).exec disk before)) := by
  intro t
  refine ⟨fun c hc hid later => ?_, fun c hc hid => ?_, fun hnull => ?_⟩
  · obtain ⟨config, hload, hcredential⟩ := loaded_of_signer hc hid
    rw [trace_of_loaded hload, hcredential]
    rfl
  · obtain ⟨config, hload, hcredential⟩ := loaded_of_signer hc hid
    have horigin := origin_exec env disk (before ++ [s])
    rw [Machine.exec_concat] at horigin
    rcases horigin with hsame | ⟨hnone, first, hfirst, config', hregisters, hsaved⟩
    · exact Or.inl ⟨config, hsame.symm.trans hload, hcredential⟩
    · obtain rfl := Option.some.inj (Except.ok.inj (hsaved.symm.trans hload))
      rw [credentialOf_payload] at hcredential
      exact Or.inr ⟨hnone, first, hfirst, config', hregisters, (Except.ok.inj hcredential).symm⟩
  · rcases start_cases env s ((starts env).exec disk before) with ⟨config, -, hstep⟩ |
      ⟨-, config, -, houtput, -⟩ | ⟨hsame, -⟩
    · exact congrArg (fun t => loadConfig env t.1) hstep
    · exact absurd (hnull _ houtput) Json.noConfusion
    · exact hsame

end SmartIDS.PacketCapture
