import SmartIDS.ML.RuntimeArtifacts
set_option autoImplicit false

/-!
# ML: the model stack

`model_stack.py`: the two bundles the predictor starts with.  A bundle catches
`RuntimeArtifactError` and is then disabled; everything else that loading raises
ends the constructor.  What a bundle and the stack have to be is stated over the
files and proved for exactly the files on which nothing else is raised.
-/

namespace SmartIDS.ML

open SmartIDS.Foundation SmartIDS.Python

/-- `RuntimeModelBundleConfig`. -/
structure RuntimeModelBundleConfig where
  bundleDir : String
  modelFilename : String
  encoderFilename : String
  featureColumnsFilename : String
  metadataFilename : Option String

namespace RuntimeModelBundleConfig

/-- `bundle_dir / filename`. -/
def path (config : RuntimeModelBundleConfig) (filename : String) : String :=
  config.bundleDir ++ "/" ++ filename

variable (config : RuntimeModelBundleConfig)

def modelPath : String := config.path config.modelFilename

def encoderPath : String := config.path config.encoderFilename

def featureColumnsPath : String := config.path config.featureColumnsFilename

def metadataPath : Option String := config.metadataFilename.map config.path

/-- The files of a bundle. -/
def paths : List String :=
  [config.modelPath, config.encoderPath, config.featureColumnsPath,
    checksumPath config.modelPath, checksumPath config.encoderPath] ++ config.metadataPath.toList

end RuntimeModelBundleConfig

/-- The state of a `RuntimeModelBundle`. -/
structure RuntimeModelBundle (Obj : Type) where
  config : RuntimeModelBundleConfig
  enabled : Bool := false
  model : Option Obj := none
  labelEncoder : Option Obj := none
  metadata : JsonObject := []
  artifactError : Option String := none

/-- The state of a `RuntimeModelStack`. -/
structure RuntimeModelStack (Obj : Type) where
  primaryBundle : RuntimeModelBundle Obj
  secondaryBundle : Option (RuntimeModelBundle Obj)
  enabled : Bool
  artifactError : Option String
  secondaryArtifactError : Option String

/-- The errors `except (OSError, ValueError, TypeError)` catches. -/
def isMetadataError : PyError → Bool
  | .osError => true
  | .valueError => true
  | .jsonDecodeError => true
  | .unicodeDecodeError => true
  | .typeError => true
  | _ => false

section bundle

variable {Obj : Type} (rt : Runtime Obj) (fs : FileSystem)

/-- `json.loads` of the text of the metadata file. -/
def decodeMetadata (path : String) : Except PyError Json := (fs path).readText >>= rt.jsonLoads

/-- The `try` of `_load_metadata` and what follows it. -/
def readMetadata (path : String) : Except PyError JsonObject :=
  match decodeMetadata rt fs path with
  | .ok (.obj entries) => .ok entries
  | .ok _ => .ok []
  | .error e => if isMetadataError e then .ok [] else .error e

/-- `_load_metadata`. -/
def loadMetadata : Option String → Except PyError JsonObject
  | none => .ok []
  | some path => do
    let there ← (fs path).pathExists
    if there then readMetadata rt fs path else .ok []

/-- The `try` of `_load_artifacts`. -/
def loadBundle (config : RuntimeModelBundleConfig) : Loading ((Obj × Obj) × JsonObject) := do
  let loaded ← loadRuntimeModelArtifacts rt fs config.modelPath config.encoderPath
    config.featureColumnsPath
  let metadata ← .unguarded (loadMetadata rt fs config.metadataPath)
  return (loaded, metadata)

/-- `RuntimeModelBundle.__init__` and `_load_artifacts`. -/
def RuntimeModelBundle.init (config : RuntimeModelBundleConfig) :
    Effect PyError (List LoadStep) (RuntimeModelBundle Obj) := do
  match ← (loadBundle rt fs config).handle with
  | .ok ((model, labelEncoder), metadata) =>
    return {
      config := config
      enabled := true
      model := some model
      labelEncoder := some labelEncoder
      metadata := metadata }
  | .error error => return { config := config, artifactError := some error }

/-- `None if secondary_config is None else RuntimeModelBundle(secondary_config)`. -/
def initSecondary :
    Option RuntimeModelBundleConfig →
      Effect PyError (List LoadStep) (Option (RuntimeModelBundle Obj))
  | none => return none
  | some config => do
    let bundle ← RuntimeModelBundle.init rt fs config
    return some bundle

/-- `RuntimeModelStack.__init__`. -/
def RuntimeModelStack.init (primaryConfig : RuntimeModelBundleConfig)
    (secondaryConfig : Option RuntimeModelBundleConfig) :
    Effect PyError (List LoadStep) (RuntimeModelStack Obj) := do
  let primaryBundle ← RuntimeModelBundle.init rt fs primaryConfig
  let secondaryBundle ← initSecondary rt fs secondaryConfig
  return {
    primaryBundle := primaryBundle
    secondaryBundle := secondaryBundle
    enabled := primaryBundle.enabled
    artifactError := primaryBundle.artifactError
    secondaryArtifactError := secondaryBundle.bind (·.artifactError) }

/-! ## What the two constructors have to leave -/

/-- The files of a bundle are good for a model and an encoder. -/
def Usable (config : RuntimeModelBundleConfig) : Prop :=
  ∃ model labelEncoder, Artifacts rt fs config.modelPath config.encoderPath
    config.featureColumnsPath model labelEncoder

/-- The bundle is enabled, with a model and an encoder its files are good for, where
there are such; otherwise it tells why not. -/
structure Told (config : RuntimeModelBundleConfig) (bundle : RuntimeModelBundle Obj) : Prop where
  config_eq : bundle.config = config
  enabled : bundle.enabled = true ↔ Usable rt fs config
  disabled : bundle.enabled = false ↔ bundle.artifactError.isSome
  loaded : bundle.enabled = true → ∃ model labelEncoder, bundle.model = some model ∧
    bundle.labelEncoder = some labelEncoder ∧ Artifacts rt fs config.modelPath
      config.encoderPath config.featureColumnsPath model labelEncoder

/-- What is deserialised is an artifact of the bundle, the digests of both having
been found to match before. -/
def VerifiedFirst (config : RuntimeModelBundleConfig) (steps : List LoadStep) : Prop :=
  ∀ before path after, steps = before ++ .loaded path :: after →
    path ∈ [config.modelPath, config.encoderPath] ∧
      ∀ artifact ∈ [config.modelPath, config.encoderPath],
        .verified artifact ∈ before ∧ ChecksumMatches rt fs artifact

/-- The steps of the secondary bundle, if there is one. -/
def SecondaryVerifiedFirst : Option RuntimeModelBundleConfig → List LoadStep → Prop
  | none, steps => steps = []
  | some config, steps => VerifiedFirst rt fs config steps

/-- The steps of the primary bundle, and those of the secondary one behind them. -/
def LoadsVerified (primaryConfig : RuntimeModelBundleConfig)
    (secondaryConfig : Option RuntimeModelBundleConfig) (steps : List LoadStep) : Prop :=
  ∃ first second, steps = first ++ second ∧ VerifiedFirst rt fs primaryConfig first ∧
    SecondaryVerifiedFirst rt fs secondaryConfig second

/-- The stack as it should be, whatever the files are. -/
structure Contained (primaryConfig : RuntimeModelBundleConfig)
    (secondaryConfig : Option RuntimeModelBundleConfig) (stack : RuntimeModelStack Obj)
    (steps : List LoadStep) : Prop where
  primary : Told rt fs primaryConfig stack.primaryBundle
  secondary : Option.Rel (Told rt fs) secondaryConfig stack.secondaryBundle
  enabled : stack.enabled = stack.primaryBundle.enabled ∧
    stack.artifactError = stack.primaryBundle.artifactError
  verified : LoadsVerified rt fs primaryConfig secondaryConfig steps
  /-- The primary bundle is the same over any other files of the secondary one. -/
  independent : ∀ fs' secondaryConfig' stack' steps',
    (∀ path ∈ primaryConfig.paths, fs' path = fs path) →
      RuntimeModelStack.init rt fs' primaryConfig secondaryConfig' [] = (.ok stack', steps') →
        stack'.primaryBundle = stack.primaryBundle

/-! ## The files on which they return -/

/-- The metadata file can be looked for, and reading it raises only what the reader
catches. -/
structure MetadataHarmless (path : String) : Prop where
  reachable : fs path ≠ .unreachable
  caught : ∀ e, decodeMetadata rt fs path = .error e → isMetadataError e = true

/-- Loading a bundle raises nothing but a `RuntimeArtifactError`. -/
def BundleHarmless (config : RuntimeModelBundleConfig) : Prop :=
  ArtifactsHarmless rt fs config.modelPath config.encoderPath config.featureColumnsPath ∧
    (Usable rt fs config → ∀ path ∈ config.metadataPath, MetadataHarmless rt fs path)

variable {rt fs}

open Effect

theorem exists_readMetadata_iff (path : String) :
    (∃ metadata, readMetadata rt fs path = .ok metadata) ↔
      ∀ e, decodeMetadata rt fs path = .error e → isMetadataError e = true := by
  unfold readMetadata
  split
  next entries h => exact iff_of_true ⟨entries, rfl⟩ fun e he => by simp [h] at he
  next document _ h => exact iff_of_true ⟨[], rfl⟩ fun e he => by simp [h] at he
  next e h =>
    rw [h]
    split
    next hcaught => exact iff_of_true ⟨[], rfl⟩ fun e' he' => Except.error.inj he' ▸ hcaught
    next hcaught => exact iff_of_false (fun ⟨_, h'⟩ => nomatch h') fun h' => hcaught (h' e rfl)

theorem exists_loadMetadata_iff (metadataPath : Option String) :
    (∃ metadata, loadMetadata rt fs metadataPath = .ok metadata) ↔
      ∀ path ∈ metadataPath, MetadataHarmless rt fs path := by
  cases metadataPath with
  | none => exact iff_of_true ⟨[], rfl⟩ fun _ h => nomatch h
  | some path =>
    have hsome : (∀ path' ∈ some path, MetadataHarmless rt fs path') ↔
        MetadataHarmless rt fs path := by simp
    rw [hsome, loadMetadata]
    cases hexists : (fs path).pathExists with
    | error e =>
      refine iff_of_false (fun ⟨_, h⟩ => nomatch h) fun h => ?_
      obtain ⟨there, hthere⟩ := exists_pathExists_iff.mpr h.reachable
      exact nomatch hexists.symm.trans hthere
    | ok there =>
      have hreach : fs path ≠ .unreachable := exists_pathExists_iff.mp ⟨there, hexists⟩
      cases there with
      | false =>
        refine iff_of_true ⟨[], rfl⟩ ⟨hreach, fun e he => ?_⟩
        unfold decodeMetadata at he
        rw [eq_missing_of_pathExists hexists] at he
        obtain rfl : .osError = e := Except.error.inj he
        rfl
      | true =>
        exact (exists_readMetadata_iff path).trans ⟨fun h => ⟨hreach, h⟩, fun h => h.caught⟩

theorem stage_loadBundle (config : RuntimeModelBundleConfig) :
    Stage (loadBundle rt fs config)
      (fun loaded => Artifacts rt fs config.modelPath config.encoderPath config.featureColumnsPath
        loaded.1.1 loaded.1.2 ∧ loadMetadata rt fs config.metadataPath = .ok loaded.2)
      (BundleHarmless rt fs config) := by
  unfold loadBundle
  refine Stage.congr (Stage.bind (stage_loadRuntimeModelArtifacts _ _ _) fun loaded _ =>
    Stage.bind (Stage.unguarded _) fun metadata _ => Stage.pure _) (fun loaded => ?_) ?_
  · constructor
    · rintro ⟨artifacts, hgood, metadata, hmetadata, rfl⟩
      exact ⟨hgood, hmetadata⟩
    · rintro ⟨hgood, hmetadata⟩
      exact ⟨_, hgood, _, hmetadata, rfl⟩
  · simp only [imp_true_iff, and_true, exists_loadMetadata_iff, Prod.forall]
    exact and_congr_right fun _ =>
      ⟨fun h ⟨model, labelEncoder, hgood⟩ => h model labelEncoder hgood,
        fun h model labelEncoder hgood => h ⟨model, labelEncoder, hgood⟩⟩

theorem logs_loadBundle (config : RuntimeModelBundleConfig) :
    Logs (Due rt fs) (loadBundle rt fs config)
      [.verified config.modelPath, .verified config.encoderPath, .loaded config.modelPath,
        .loaded config.encoderPath] := by
  unfold loadBundle
  exact Logs.bind (logs_loadRuntimeModelArtifacts _ _ _) (stage_loadRuntimeModelArtifacts _ _ _)
    fun _ _ => Logs.after (fun _ => rfl) (Stage.unguarded _) fun _ _ => Logs.quiet fun _ => rfl

/-- In an initial part of the steps of a bundle, the digests come first. -/
theorem verifiedFirst_of_prefix {config : RuntimeModelBundleConfig} {steps : List LoadStep}
    (hinitial : steps <+: [.verified config.modelPath, .verified config.encoderPath,
      .loaded config.modelPath, .loaded config.encoderPath])
    (hdue : ∀ step ∈ steps, Due rt fs step) : VerifiedFirst rt fs config steps := by
  rintro before path after rfl
  constructor
  · have hmem := hinitial.subset (List.mem_append_right before List.mem_cons_self)
    simpa using hmem
  · rcases before with _ | ⟨first, _ | ⟨second, rest⟩⟩
    · simp at hinitial
    · simp at hinitial
    · simp only [List.cons_append, List.cons_prefix_cons] at hinitial
      obtain ⟨rfl, rfl, -⟩ := hinitial
      intro artifact hartifact
      have hmem : LoadStep.verified artifact ∈
          .verified config.modelPath :: .verified config.encoderPath :: rest := by
        rcases List.mem_pair.mp hartifact with rfl | rfl
        · exact List.mem_cons_self
        · exact List.mem_cons_of_mem _ List.mem_cons_self
      exact ⟨hmem, hdue _ (List.mem_append_left _ hmem) artifact rfl⟩

/-! ## The constructors -/

/-- Every step a bundle takes is in order, whether its constructor returns or not. -/
theorem bundle_steps (rt : Runtime Obj) (fs : FileSystem) (config : RuntimeModelBundleConfig)
    (log : List LoadStep) :
    ∃ steps, VerifiedFirst rt fs config steps ∧
      (RuntimeModelBundle.init rt fs config log).2 = log ++ steps := by
  have hlogs : Logs (Due rt fs) (loadBundle rt fs config) _ := logs_loadBundle config
  obtain ⟨steps, hinitial, hdue, hlog⟩ := hlogs.handle log
  refine ⟨steps, verifiedFirst_of_prefix hinitial hdue, ?_⟩
  rw [← hlog, RuntimeModelBundle.init, bind_apply]
  split
  next result t h => split <;> exact (congrArg Prod.snd h).symm
  next e t h => exact (congrArg Prod.snd h).symm

theorem bundle_returns {config : RuntimeModelBundleConfig} (h : BundleHarmless rt fs config)
    (log : List LoadStep) : ∃ bundle steps, RuntimeModelBundle.init rt fs config log =
      (.ok bundle, log ++ steps) ∧ Told rt fs config bundle ∧ VerifiedFirst rt fs config steps := by
  obtain ⟨steps, hfirst, hsteps⟩ := bundle_steps rt fs config log
  obtain ⟨result, t, hrun, hgood⟩ := (stage_loadBundle config).handle_of_harmless h log
  rw [RuntimeModelBundle.init, bind_of_ok hrun] at hsteps ⊢
  cases result with
  | ok loaded =>
    obtain ⟨⟨model, labelEncoder⟩, metadata⟩ := loaded
    obtain ⟨hartifacts, -⟩ := (hgood _).mp rfl
    refine ⟨_, steps, Prod.ext rfl hsteps, ?_, hfirst⟩
    exact ⟨rfl, iff_of_true rfl ⟨model, labelEncoder, hartifacts⟩,
      ⟨(nomatch ·), (nomatch ·)⟩, fun _ => ⟨model, labelEncoder, rfl, rfl, hartifacts⟩⟩
  | error reason =>
    have hunusable : ¬ Usable rt fs config := by
      rintro ⟨model, labelEncoder, hartifacts⟩
      obtain ⟨metadata, hmetadata⟩ :=
        (exists_loadMetadata_iff _).mpr (h.2 ⟨model, labelEncoder, hartifacts⟩)
      exact nomatch (hgood ((model, labelEncoder), metadata)).mpr ⟨hartifacts, hmetadata⟩
    refine ⟨_, steps, Prod.ext rfl hsteps, ?_, hfirst⟩
    exact ⟨rfl, iff_of_false Bool.noConfusion hunusable, iff_of_true rfl rfl, (nomatch ·)⟩

theorem bundle_raises {config : RuntimeModelBundleConfig} (h : ¬ BundleHarmless rt fs config)
    (log : List LoadStep) :
    ∃ e t, RuntimeModelBundle.init rt fs config log = (.error e, t) := by
  obtain ⟨e, t, hrun⟩ := (stage_loadBundle config).handle_of_not_harmless h log
  exact ⟨e, t, bind_of_error hrun⟩

/-- A bundle is the same over files that agree on its own. -/
theorem bundle_congr {config : RuntimeModelBundleConfig} {fs' : FileSystem}
    (h : ∀ path ∈ config.paths, fs' path = fs path) :
    RuntimeModelBundle.init rt fs' config = RuntimeModelBundle.init rt fs config := by
  have hmodel : fs' config.modelPath = fs config.modelPath := h _ (by
    simp [RuntimeModelBundleConfig.paths])
  have hencoder : fs' config.encoderPath = fs config.encoderPath := h _ (by
    simp [RuntimeModelBundleConfig.paths])
  have hcolumns : fs' config.featureColumnsPath = fs config.featureColumnsPath := h _ (by
    simp [RuntimeModelBundleConfig.paths])
  have hmodelSum : fs' (checksumPath config.modelPath) = fs (checksumPath config.modelPath) :=
    h _ (by simp [RuntimeModelBundleConfig.paths])
  have hencoderSum : fs' (checksumPath config.encoderPath) = fs (checksumPath config.encoderPath) :=
    h _ (by simp [RuntimeModelBundleConfig.paths])
  have hmetadata : loadMetadata rt fs' config.metadataPath =
      loadMetadata rt fs config.metadataPath := by
    cases hpath : config.metadataPath with
    | none => rfl
    | some path =>
      have hfile : fs' path = fs path := h path (by simp [RuntimeModelBundleConfig.paths, hpath])
      simp only [loadMetadata, readMetadata, decodeMetadata, hfile]
  unfold RuntimeModelBundle.init loadBundle loadRuntimeModelArtifacts loadArtifacts joblibLoad
    verifyArtifactChecksum
  simp only [readChecksum, computeSha256, decodeColumns, missingPaths, hmodel, hencoder, hcolumns,
    hmodelSum, hencoderSum, hmetadata]

theorem secondary_returns {secondaryConfig : Option RuntimeModelBundleConfig}
    (h : ∀ config ∈ secondaryConfig, BundleHarmless rt fs config) (log : List LoadStep) :
    ∃ bundle steps, initSecondary rt fs secondaryConfig log = (.ok bundle, log ++ steps) ∧
      Option.Rel (Told rt fs) secondaryConfig bundle ∧
      SecondaryVerifiedFirst rt fs secondaryConfig steps := by
  cases secondaryConfig with
  | none => exact ⟨none, [], by rw [List.append_nil]; rfl, .none, rfl⟩
  | some config =>
    obtain ⟨bundle, steps, hrun, htold, hfirst⟩ := bundle_returns (h config rfl) log
    exact ⟨some bundle, steps, bind_of_ok hrun, .some htold, hfirst⟩

theorem harmless_of_bundle_returns {config : RuntimeModelBundleConfig} {log t : List LoadStep}
    {bundle : RuntimeModelBundle Obj}
    (h : RuntimeModelBundle.init rt fs config log = (.ok bundle, t)) :
    BundleHarmless rt fs config := by
  by_contra hharmful
  obtain ⟨e, t', hraises⟩ := bundle_raises hharmful log
  exact nomatch h.symm.trans hraises

/-- A stack that is constructed is made of the bundles that are. -/
theorem bundles_of_stack_returns {primaryConfig : RuntimeModelBundleConfig}
    {secondaryConfig : Option RuntimeModelBundleConfig} {log steps : List LoadStep}
    {stack : RuntimeModelStack Obj}
    (h : RuntimeModelStack.init rt fs primaryConfig secondaryConfig log = (.ok stack, steps)) :
    ∃ t u, RuntimeModelBundle.init rt fs primaryConfig log = (.ok stack.primaryBundle, t) ∧
      initSecondary rt fs secondaryConfig t = (.ok stack.secondaryBundle, u) := by
  obtain ⟨primaryBundle, t, hprimary, h⟩ := returns_of_bind h
  obtain ⟨secondaryBundle, u, hsecondary, h⟩ := returns_of_bind h
  obtain ⟨hstack, -⟩ := Prod.mk.inj h
  obtain rfl := Except.ok.inj hstack
  exact ⟨t, u, hprimary, hsecondary⟩

/-- The stack is constructed, and is what it should be, exactly where loading each of
its bundles raises nothing but a `RuntimeArtifactError`. -/
theorem model_stack_contained_iff (primaryConfig : RuntimeModelBundleConfig)
    (secondaryConfig : Option RuntimeModelBundleConfig) :
    (∃ stack steps, RuntimeModelStack.init rt fs primaryConfig secondaryConfig [] =
        (.ok stack, steps) ∧ Contained rt fs primaryConfig secondaryConfig stack steps) ↔
      BundleHarmless rt fs primaryConfig ∧
        ∀ config ∈ secondaryConfig, BundleHarmless rt fs config := by
  constructor
  · rintro ⟨stack, steps, hrun, -⟩
    obtain ⟨t, u, hprimary, hsecondary⟩ := bundles_of_stack_returns hrun
    refine ⟨harmless_of_bundle_returns hprimary, fun config hconfig => ?_⟩
    obtain rfl : secondaryConfig = some config := hconfig
    obtain ⟨bundle, t', hbundle, -⟩ := returns_of_bind hsecondary
    exact harmless_of_bundle_returns hbundle
  · rintro ⟨hprimary, hsecondary⟩
    obtain ⟨primaryBundle, first, hrun, htold, hfirst⟩ := bundle_returns hprimary []
    obtain ⟨secondaryBundle, second, hrun', htold', hsecond⟩ :=
      secondary_returns hsecondary ([] ++ first)
    have hinit : RuntimeModelStack.init rt fs primaryConfig secondaryConfig [] =
        (.ok {
          primaryBundle := primaryBundle
          secondaryBundle := secondaryBundle
          enabled := primaryBundle.enabled
          artifactError := primaryBundle.artifactError
          secondaryArtifactError := secondaryBundle.bind (·.artifactError) },
          [] ++ first ++ second) := by
      rw [RuntimeModelStack.init, bind_of_ok hrun, bind_of_ok hrun']
      rfl
    refine ⟨_, _, hinit, htold, htold', ⟨rfl, rfl⟩, ⟨first, second, rfl, hfirst, hsecond⟩, ?_⟩
    intro fs' secondaryConfig' stack' steps' hagree hinit'
    obtain ⟨t, u, hprimary', -⟩ := bundles_of_stack_returns hinit'
    rw [bundle_congr hagree, hrun, Prod.mk.injEq, Except.ok.injEq] at hprimary'
    exact hprimary'.1.symm

end bundle

/-! ## A file of feature columns that was cut off -/

/-- A bundle of a model, an encoder and feature columns. -/
def bundleConfig : RuntimeModelBundleConfig where
  bundleDir := "models"
  modelFilename := "model.pkl"
  encoderFilename := "encoder.pkl"
  featureColumnsFilename := "columns.json"
  metadataFilename := none

/-- The file of feature columns ends behind its first bracket. -/
def cutOffFiles : FileSystem := fun path =>
  if path = "models/columns.json" then .file "[".toUTF8 else .file "artifact".toUTF8

/-- The decoder rejects such a text; the artifacts are never looked at. -/
def rejectingRuntime : Runtime Unit where
  jsonLoads _ := .error .jsonDecodeError
  sha256 _ := ""
  joblibLoad _ := .ok ()
  featureNamesIn _ := .ok none
  hasClasses _ := .ok true

theorem cut_off_columns_end_the_constructor :
    ¬ ∃ stack steps, RuntimeModelStack.init rejectingRuntime cutOffFiles bundleConfig none [] =
      (.ok stack, steps) ∧
        Contained rejectingRuntime cutOffFiles bundleConfig none stack steps := by
  rintro ⟨stack, steps, hrun, -⟩
  obtain ⟨t, u, hprimary, -⟩ := bundles_of_stack_returns hrun
  have hharmless := (harmless_of_bundle_returns hprimary).1
  have hpresent : ∀ path, cutOffFiles path ≠ .missing := by
    intro path
    unfold cutOffFiles
    split <;> exact Entry.noConfusion
  obtain ⟨saved, hsaved⟩ := (hharmless.2 fun path _ => hpresent path).1
  unfold decodeColumns at hsaved
  cases hread : (cutOffFiles bundleConfig.featureColumnsPath).readText with
  | error e =>
    rw [hread] at hsaved
    exact nomatch hsaved
  | ok text =>
    rw [hread] at hsaved
    exact nomatch hsaved

end SmartIDS.ML
