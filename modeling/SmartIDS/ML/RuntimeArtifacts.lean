import SmartIDS.Foundation.Stages
import SmartIDS.ML.FeatureSchema
import SmartIDS.Python.TextFile
set_option autoImplicit false

/-!
# ML: loading the artifacts of a model

`artifact_integrity.py` and `artifact_validation.py`.  A bundle is loaded in
stages: the files are looked for, the feature columns are decoded and compared,
the two artifacts are checked against their recorded digests, and only then are
they deserialised.  `joblib`, the digest and the JSON decoder are parameters.
-/

namespace SmartIDS.ML

open SmartIDS.Foundation SmartIDS.Python

/-! ## Files -/

/-- What stands at a path.  `unreachable` is a path of which not even the
existence can be told; `unreadable` exists and cannot be opened as a file. -/
inductive Entry where
  | missing
  | unreachable
  | unreadable
  | file (bytes : ByteArray)

abbrev FileSystem : Type := String → Entry

namespace Entry

/-- `Path.exists`. -/
def pathExists : Entry → Except PyError Bool
  | missing => .ok false
  | unreachable => .error .osError
  | unreadable => .ok true
  | file _ => .ok true

/-- The bytes read through `open("rb")`. -/
def readBytes : Entry → Except PyError ByteArray
  | file bytes => .ok bytes
  | _ => .error .osError

/-- `Path.read_text`, and `read` on a file opened as a text. -/
def readText (entry : Entry) : Except PyError String :=
  entry.readBytes >>= fun bytes => Python.readText (some bytes)

end Entry

/-! ## Outside functions -/

/-- The functions of other packages, over the deserialised objects `Obj`. -/
structure Runtime (Obj : Type) where
  /-- `json.loads`. -/
  jsonLoads : String → Except PyError Json
  /-- The `hexdigest` of `hashlib.sha256`. -/
  sha256 : ByteArray → String
  /-- `joblib.load`.  A caught failure is an `Exception` with its text, an uncaught
  one is a `SystemExit` or its like. -/
  joblibLoad : Entry → Except (Failure String PyError) Obj
  /-- `getattr(model, "feature_names_in_", None)` as a list, the names that are no
  strings left blank. -/
  featureNamesIn : Obj → Except PyError (Option (List (Option String)))
  /-- `hasattr(label_encoder, "classes_")`. -/
  hasClasses : Obj → Except PyError Bool

/-- What the loader does to the artifacts: it finds the digest of one as recorded,
or hands it to `joblib.load`. -/
inductive LoadStep where
  | verified (path : String)
  | loaded (path : String)

/-- A computation under `except RuntimeArtifactError`; a caught failure carries the
text of the error.  The log of steps is kept for the proofs only. -/
abbrev Loading (α : Type) : Type := Effect (Failure String PyError) (List LoadStep) α

/-- The comparison with `FEATURE_COLUMNS`. -/
def isFeatureColumns : Json → Bool
  | .arr items =>
    (items.map fun
      | .str s => some s
      | _ => none) == featureColumns.map some
  | _ => false

/-! ## `artifact_integrity.py` -/

/-- `text.strip().split()[0] if text.strip() else ""`. -/
def firstWord (text : String) : String :=
  String.ofList ((strip text).toList.takeWhile fun c => !isSpace c)

/-- `_checksum_path`. -/
def checksumPath (path : String) : String := path ++ ".sha256"

section loading

variable {Obj : Type} (rt : Runtime Obj) (fs : FileSystem)

/-- `compute_sha256`. -/
def computeSha256 (path : String) : Except PyError String :=
  (fs path).readBytes.map rt.sha256

/-- The `try` around `read_text`: an `OSError` becomes a `RuntimeArtifactError`. -/
def readChecksum (checksumPath : String) : Except (Failure String PyError) String :=
  match (fs checksumPath).readText with
  | .ok text => .ok text
  | .error .osError => .error (.caught ("Unable to read checksum file: " ++ checksumPath))
  | .error e => .error (.uncaught e)

/-- `verify_artifact_checksum`. -/
def verifyArtifactChecksum (path checksumPath : String) : Loading Unit := do
  let there ← .unguarded (fs checksumPath).pathExists
  .refuseIf (there = false) ("Missing checksum file for artifact: " ++ checksumPath)
  let checksumContents ← .ofExcept (readChecksum fs checksumPath)
  let expectedChecksum := firstWord checksumContents
  .refuseIf (expectedChecksum = "") ("Checksum file is empty: " ++ checksumPath)
  let actualChecksum ← .unguarded (computeSha256 rt fs path)
  .refuseIf (lower actualChecksum ≠ lower expectedChecksum)
    ("Checksum mismatch for artifact " ++ path ++ ": expected " ++ expectedChecksum ++
      ", got " ++ actualChecksum)
  .modify (· ++ [.verified path])

/-! ## `artifact_validation.py` -/

/-- The paths of a list at which there is no file. -/
def missingPaths : List String → Except PyError (List String)
  | [] => .ok []
  | path :: paths => do
    let there ← (fs path).pathExists
    let missing ← missingPaths paths
    return if there then missing else path :: missing

/-- `json.load` of the file of feature columns. -/
def decodeColumns (path : String) : Except PyError Json := (fs path).readText >>= rt.jsonLoads

/-- `joblib.load`. -/
def joblibLoad (path : String) : Loading Obj := do
  .modify (· ++ [.loaded path])
  .ofExcept (rt.joblibLoad (fs path))

/-- The `try` around the two `joblib.load`. -/
def loadArtifacts (modelPath encoderPath : String) : Loading (Obj × Obj) :=
  .rewrap ("Unable to load runtime artifacts: " ++ ·) do
    let model ← joblibLoad rt fs modelPath
    let labelEncoder ← joblibLoad rt fs encoderPath
    return (model, labelEncoder)

/-- `load_runtime_model_artifacts`. -/
def loadRuntimeModelArtifacts (modelPath encoderPath featureColumnsPath : String) :
    Loading (Obj × Obj) := do
  let missing ← .unguarded (missingPaths fs [modelPath, encoderPath, featureColumnsPath])
  .refuseIf (missing ≠ []) ("Missing runtime artifacts: " ++ ", ".intercalate missing)
  let savedFeatureColumns ← .unguarded (decodeColumns rt fs featureColumnsPath)
  .refuseIf (isFeatureColumns savedFeatureColumns = false)
    "Saved feature schema does not match canonical FEATURE_COLUMNS"
  verifyArtifactChecksum rt fs modelPath (checksumPath modelPath)
  verifyArtifactChecksum rt fs encoderPath (checksumPath encoderPath)
  let (model, labelEncoder) ← loadArtifacts rt fs modelPath encoderPath
  let modelFeatureNames ← .unguarded (rt.featureNamesIn model)
  .refuseIf (∃ names ∈ modelFeatureNames, names ≠ featureColumns.map some)
    "Saved model feature names do not match canonical FEATURE_COLUMNS"
  let hasClasses ← .unguarded (rt.hasClasses labelEncoder)
  .refuseIf (hasClasses = false) "Saved label encoder is missing classes_"
  return (model, labelEncoder)

/-! ## What the files have to be -/

/-- The checksum file records the digest of the artifact. -/
def ChecksumMatches (path : String) : Prop :=
  ∃ recorded actual, (fs (checksumPath path)).readText = .ok recorded ∧
    firstWord recorded ≠ "" ∧ computeSha256 rt fs path = .ok actual ∧
    lower actual = lower (firstWord recorded)

/-- The file of feature columns decodes to the feature columns. -/
def ColumnsMatch (featureColumnsPath : String) : Prop :=
  ∃ saved, decodeColumns rt fs featureColumnsPath = .ok saved ∧ isFeatureColumns saved = true

/-- The names a model was fitted with, if it has any, are the feature columns. -/
def NamesMatch (model : Obj) : Prop :=
  ∃ names, rt.featureNamesIn model = .ok names ∧ ∀ ns ∈ names, ns = featureColumns.map some

/-- The model and the encoder that the three files are good for. -/
structure Artifacts (modelPath encoderPath featureColumnsPath : String)
    (model labelEncoder : Obj) : Prop where
  columns : ColumnsMatch rt fs featureColumnsPath
  modelChecksum : ChecksumMatches rt fs modelPath
  encoderChecksum : ChecksumMatches rt fs encoderPath
  modelLoads : rt.joblibLoad (fs modelPath) = .ok model
  encoderLoads : rt.joblibLoad (fs encoderPath) = .ok labelEncoder
  names : NamesMatch rt model
  classes : rt.hasClasses labelEncoder = .ok true

/-! ## What goes past the handler -/

/-- The check of a digest raises nothing but a `RuntimeArtifactError`: the checksum
file can be looked for, its bytes are a text if it can be opened, and the artifact
can be opened where a checksum is recorded. -/
structure ChecksumHarmless (path : String) : Prop where
  reachable : fs (checksumPath path) ≠ .unreachable
  isText : ∀ e, (fs (checksumPath path)).readText = .error e → e = .osError
  readable : ∀ text, (fs (checksumPath path)).readText = .ok text → firstWord text ≠ "" →
    ∃ bytes, (fs path).readBytes = .ok bytes

/-- Nor does what follows the two checks: a deserialised object may raise anything
when its attributes are read. -/
def LoadsHarmless (modelPath encoderPath : String) : Prop :=
  (∀ error, rt.joblibLoad (fs modelPath) ≠ .error (.uncaught error)) ∧
    ∀ model, rt.joblibLoad (fs modelPath) = .ok model →
      (∀ error, rt.joblibLoad (fs encoderPath) ≠ .error (.uncaught error)) ∧
        ∀ labelEncoder, rt.joblibLoad (fs encoderPath) = .ok labelEncoder →
          (∃ names, rt.featureNamesIn model = .ok names) ∧
            (NamesMatch rt model → ∃ has, rt.hasClasses labelEncoder = .ok has)

/-- No stage that is reached raises anything but a `RuntimeArtifactError`. -/
def ArtifactsHarmless (modelPath encoderPath featureColumnsPath : String) : Prop :=
  (∀ path ∈ [modelPath, encoderPath, featureColumnsPath], fs path ≠ .unreachable) ∧
    ((∀ path ∈ [modelPath, encoderPath, featureColumnsPath], fs path ≠ .missing) →
      (∃ saved, decodeColumns rt fs featureColumnsPath = .ok saved) ∧
        (ColumnsMatch rt fs featureColumnsPath →
          ChecksumHarmless fs modelPath ∧ (ChecksumMatches rt fs modelPath →
            ChecksumHarmless fs encoderPath ∧ (ChecksumMatches rt fs encoderPath →
              LoadsHarmless rt fs modelPath encoderPath))))

/-! ## The stages -/

variable {rt fs}

open Effect

theorem readText_ok_iff {entry : Entry} {text : String} : entry.readText = .ok text ↔
    ∃ bytes, entry = .file bytes ∧ Python.readText (some bytes) = .ok text := by
  cases entry with
  | file bytes => exact ⟨fun h => ⟨bytes, rfl, h⟩, fun ⟨_, heq, h⟩ => by cases heq; exact h⟩
  | _ => exact ⟨(nomatch ·), fun ⟨_, heq, _⟩ => nomatch heq⟩

theorem readBytes_ok_iff {entry : Entry} {bytes : ByteArray} :
    entry.readBytes = .ok bytes ↔ entry = .file bytes := by
  cases entry <;> simp [Entry.readBytes]

theorem computeSha256_ok_iff {path actual : String} : computeSha256 rt fs path = .ok actual ↔
    ∃ bytes, (fs path).readBytes = .ok bytes ∧ rt.sha256 bytes = actual := by
  unfold computeSha256
  cases (fs path).readBytes <;> simp [Except.map]

theorem pathExists_of_readText {entry : Entry} {text : String} (h : entry.readText = .ok text) :
    entry.pathExists = .ok true := by
  obtain ⟨bytes, rfl, -⟩ := readText_ok_iff.mp h
  rfl

theorem exists_pathExists_iff {entry : Entry} :
    (∃ there, entry.pathExists = .ok there) ↔ entry ≠ .unreachable := by
  cases entry <;> simp [Entry.pathExists]

theorem eq_missing_of_pathExists {entry : Entry} (h : entry.pathExists = .ok false) :
    entry = .missing := by
  cases entry <;> simp [Entry.pathExists] at h ⊢

theorem readChecksum_ok_iff {path text : String} :
    readChecksum fs path = .ok text ↔ (fs path).readText = .ok text := by
  unfold readChecksum
  split
  next h => rw [h, Except.ok.injEq, Except.ok.injEq]
  next h => rw [h]; exact ⟨(nomatch ·), (nomatch ·)⟩
  next h => rw [h]; exact ⟨(nomatch ·), (nomatch ·)⟩

theorem readChecksum_caught_iff {path : String} :
    (∀ error, readChecksum fs path ≠ .error (.uncaught error)) ↔
      ∀ e, (fs path).readText = .error e → e = .osError := by
  unfold readChecksum
  split
  next h => rw [h]; exact ⟨fun _ _ h' => (nomatch h'), fun _ _ h' => (nomatch h')⟩
  next h => rw [h]; exact ⟨fun _ _ h' => (Except.error.inj h').symm, fun _ _ h' => (nomatch h')⟩
  next e hne h =>
    rw [h]
    exact ⟨fun hnone => absurd rfl (hnone e), fun hall => absurd (hall e rfl) (hne · )⟩

/-- The stage of one digest. -/
theorem stage_verifyArtifactChecksum (path : String) :
    Stage (verifyArtifactChecksum rt fs path (checksumPath path))
      (fun _ => ChecksumMatches rt fs path) (ChecksumHarmless fs path) := by
  unfold verifyArtifactChecksum
  refine Stage.congr (Stage.bind (Stage.unguarded _) fun there _ =>
    Stage.andThen (Stage.refuseIf _ _) fun _ =>
    Stage.bind (Stage.ofExcept _) fun contents _ =>
    Stage.andThen (Stage.refuseIf _ _) fun _ =>
    Stage.bind (Stage.unguarded _) fun actual _ =>
    Stage.andThen (Stage.refuseIf _ _) fun _ => Stage.modify _) (fun _ => ?_) ?_
  · simp only [readChecksum_ok_iff, ne_eq, not_not, and_true]
    constructor
    · rintro ⟨-, -, -, text, htext, hword, actual, hactual, heq⟩
      exact ⟨text, actual, htext, hword, hactual, heq⟩
    · rintro ⟨text, actual, htext, hword, hactual, heq⟩
      exact ⟨true, pathExists_of_readText htext, Bool.noConfusion, text, htext, hword, actual,
        hactual, heq⟩
  · have hcomputes : (∃ actual, computeSha256 rt fs path = .ok actual) ↔
        ∃ bytes, (fs path).readBytes = .ok bytes := by simp [computeSha256_ok_iff]
    simp only [readChecksum_ok_iff, readChecksum_caught_iff, exists_pathExists_iff, hcomputes,
      true_and, imp_true_iff, and_true]
    constructor
    · rintro ⟨hreach, hlater⟩
      refine ⟨hreach, fun e he => ?_, fun text htext hword => ?_⟩
      · obtain ⟨there, hthere⟩ := exists_pathExists_iff.mpr hreach
        cases there with
        | true => exact (hlater true hthere Bool.noConfusion).1 e he
        | false =>
          rw [eq_missing_of_pathExists hthere] at he
          exact (Except.error.inj he).symm
      · exact (hlater true (pathExists_of_readText htext) Bool.noConfusion).2 text htext hword
    · rintro ⟨hreach, htext, hread⟩
      exact ⟨hreach, fun _ _ _ => ⟨htext, hread⟩⟩

theorem missingPaths_cons_ok_iff {path : String} {paths missing : List String} :
    missingPaths fs (path :: paths) = .ok missing ↔
      ∃ there rest, (fs path).pathExists = .ok there ∧ missingPaths fs paths = .ok rest ∧
        (if there then rest else path :: rest) = missing := by
  rw [missingPaths]
  cases (fs path).pathExists with
  | error e => simp [bind, Except.bind]
  | ok there => cases missingPaths fs paths <;> simp [bind, Except.bind, pure, Except.pure]

theorem exists_missingPaths_iff (paths : List String) :
    (∃ missing, missingPaths fs paths = .ok missing) ↔ ∀ path ∈ paths, fs path ≠ .unreachable := by
  induction paths with
  | nil => exact iff_of_true ⟨[], rfl⟩ fun _ h => nomatch h
  | cons path paths ih =>
    rw [List.forall_mem_cons, ← ih, ← exists_pathExists_iff]
    constructor
    · rintro ⟨_, h⟩
      obtain ⟨there, rest, hthere, hrest, -⟩ := missingPaths_cons_ok_iff.mp h
      exact ⟨⟨there, hthere⟩, rest, hrest⟩
    · rintro ⟨⟨there, hthere⟩, rest, hrest⟩
      exact ⟨_, missingPaths_cons_ok_iff.mpr ⟨there, rest, hthere, hrest, rfl⟩⟩

theorem missingPaths_eq_nil_iff {paths missing : List String}
    (h : missingPaths fs paths = .ok missing) :
    missing = [] ↔ ∀ path ∈ paths, fs path ≠ .missing := by
  induction paths generalizing missing with
  | nil =>
    obtain rfl : [] = missing := Except.ok.inj h
    exact iff_of_true rfl fun _ h => nomatch h
  | cons path paths ih =>
    obtain ⟨there, rest, hthere, hrest, rfl⟩ := missingPaths_cons_ok_iff.mp h
    rw [List.forall_mem_cons, ← ih hrest]
    cases there with
    | true =>
      have hpath : fs path ≠ .missing := by
        intro hmissing
        rw [hmissing] at hthere
        exact Bool.noConfusion (Except.ok.inj hthere)
      exact ⟨fun hnil => ⟨hpath, hnil⟩, fun h => h.2⟩
    | false => exact ⟨(nomatch ·), fun h => absurd (eq_missing_of_pathExists hthere) h.1⟩

theorem stage_joblibLoad (path : String) :
    Stage (joblibLoad rt fs path) (fun loaded => rt.joblibLoad (fs path) = .ok loaded)
      (∀ error, rt.joblibLoad (fs path) ≠ .error (.uncaught error)) :=
  Stage.congr (Stage.andThen (Stage.modify _) fun _ => Stage.ofExcept _)
    (fun _ => and_iff_right trivial) (by simp)

theorem stage_loadArtifacts (modelPath encoderPath : String) :
    Stage (loadArtifacts rt fs modelPath encoderPath)
      (fun loaded => rt.joblibLoad (fs modelPath) = .ok loaded.1 ∧
        rt.joblibLoad (fs encoderPath) = .ok loaded.2)
      ((∀ error, rt.joblibLoad (fs modelPath) ≠ .error (.uncaught error)) ∧
        ∀ model, rt.joblibLoad (fs modelPath) = .ok model →
          ∀ error, rt.joblibLoad (fs encoderPath) ≠ .error (.uncaught error)) := by
  refine Stage.congr (Stage.rewrap _ (Stage.bind (stage_joblibLoad modelPath) fun model _ =>
    Stage.bind (stage_joblibLoad encoderPath) fun labelEncoder _ => Stage.pure _)) (fun loaded => ?_) ?_
  · constructor
    · rintro ⟨model, hmodel, labelEncoder, hencoder, rfl⟩
      exact ⟨hmodel, hencoder⟩
    · rintro ⟨hmodel, hencoder⟩
      exact ⟨_, hmodel, _, hencoder, rfl⟩
  · simp only [imp_true_iff, and_true]

theorem none_missing_iff (paths : List String) :
    (∃ missing, missingPaths fs paths = .ok missing ∧ ¬ missing ≠ []) ↔
      (∀ path ∈ paths, fs path ≠ .unreachable) ∧ ∀ path ∈ paths, fs path ≠ .missing := by
  rw [← exists_missingPaths_iff]
  constructor
  · rintro ⟨missing, hmissing, hnil⟩
    exact ⟨⟨missing, hmissing⟩, (missingPaths_eq_nil_iff hmissing).mp (not_not.mp hnil)⟩
  · rintro ⟨⟨missing, hmissing⟩, hpresent⟩
    exact ⟨missing, hmissing, not_not.mpr ((missingPaths_eq_nil_iff hmissing).mpr hpresent)⟩

/-- The files of artifacts that are found good are there. -/
theorem Artifacts.present {modelPath encoderPath featureColumnsPath : String}
    {model labelEncoder : Obj}
    (h : Artifacts rt fs modelPath encoderPath featureColumnsPath model labelEncoder) :
    ∀ path ∈ [modelPath, encoderPath, featureColumnsPath], ∃ bytes, fs path = .file bytes := by
  have hartifact : ∀ path, ChecksumMatches rt fs path → ∃ bytes, fs path = .file bytes := by
    rintro path ⟨_, _, -, -, hactual, -⟩
    obtain ⟨bytes, hbytes, -⟩ := computeSha256_ok_iff.mp hactual
    exact ⟨bytes, readBytes_ok_iff.mp hbytes⟩
  have hcolumns : ∃ bytes, fs featureColumnsPath = .file bytes := by
    obtain ⟨saved, hsaved, -⟩ := h.columns
    unfold decodeColumns at hsaved
    cases hread : (fs featureColumnsPath).readText with
    | error e =>
      rw [hread] at hsaved
      exact nomatch hsaved
    | ok text =>
      obtain ⟨bytes, hfile, -⟩ := readText_ok_iff.mp hread
      exact ⟨bytes, hfile⟩
  simp only [List.forall_mem_cons, List.not_mem_nil, false_imp_iff, imp_true_iff, and_true]
  exact ⟨hartifact _ h.modelChecksum, hartifact _ h.encoderChecksum, hcolumns⟩

/-- The stages of a bundle, one after the other. -/
theorem stage_loadRuntimeModelArtifacts (modelPath encoderPath featureColumnsPath : String) :
    Stage (loadRuntimeModelArtifacts rt fs modelPath encoderPath featureColumnsPath)
      (fun loaded => Artifacts rt fs modelPath encoderPath featureColumnsPath loaded.1 loaded.2)
      (ArtifactsHarmless rt fs modelPath encoderPath featureColumnsPath) := by
  unfold loadRuntimeModelArtifacts
  refine Stage.congr (Stage.check fun _ => Stage.check fun _ =>
    Stage.andThen (stage_verifyArtifactChecksum modelPath) fun _ =>
    Stage.andThen (stage_verifyArtifactChecksum encoderPath) fun _ =>
    Stage.bind (stage_loadArtifacts modelPath encoderPath) fun loaded _ =>
    Stage.check fun _ => Stage.check fun _ => Stage.pure _) (fun loaded => ?_) ?_
  all_goals
    have hcolumns : (∃ saved, decodeColumns rt fs featureColumnsPath = .ok saved ∧
        ¬ isFeatureColumns saved = false) ↔ ColumnsMatch rt fs featureColumnsPath := by
      simp only [ColumnsMatch, Bool.not_eq_false]
    have hnames : ∀ model, (∃ names, rt.featureNamesIn model = .ok names ∧
        ¬ ∃ ns ∈ names, ns ≠ featureColumns.map some) ↔ NamesMatch rt model := by
      simp only [NamesMatch, not_exists, not_and, not_not, implies_true]
    simp only [none_missing_iff, hcolumns, hnames]
  · constructor
    · rintro ⟨-, hcol, hmodel, hencoder, ⟨model, labelEncoder⟩, ⟨hloadsModel, hloadsEncoder⟩,
        hmatch, ⟨has, hhas, htrue⟩, rfl⟩
      rw [Bool.not_eq_false] at htrue
      exact ⟨hcol, hmodel, hencoder, hloadsModel, hloadsEncoder, hmatch, htrue ▸ hhas⟩
    · intro h
      refine ⟨⟨fun path hpath => ?_, fun path hpath => ?_⟩, h.columns, h.modelChecksum,
        h.encoderChecksum, loaded, ⟨h.modelLoads, h.encoderLoads⟩, h.names,
        ⟨true, h.classes, Bool.noConfusion⟩, rfl⟩ <;>
      · obtain ⟨bytes, hfile⟩ := h.present path hpath
        rw [hfile]
        exact Entry.noConfusion
  · have hloads : (((∀ error, rt.joblibLoad (fs modelPath) ≠ .error (.uncaught error)) ∧
        ∀ model, rt.joblibLoad (fs modelPath) = .ok model →
          ∀ error, rt.joblibLoad (fs encoderPath) ≠ .error (.uncaught error)) ∧
        ∀ loaded : Obj × Obj, rt.joblibLoad (fs modelPath) = .ok loaded.1 ∧
          rt.joblibLoad (fs encoderPath) = .ok loaded.2 →
            (∃ names, rt.featureNamesIn loaded.1 = .ok names) ∧ (NamesMatch rt loaded.1 →
              ∃ has, rt.hasClasses loaded.2 = .ok has)) ↔
        LoadsHarmless rt fs modelPath encoderPath := by
      constructor
      · rintro ⟨⟨hmodel, hencoder⟩, hattributes⟩
        exact ⟨hmodel, fun model hm => ⟨hencoder model hm,
          fun labelEncoder he => hattributes (model, labelEncoder) ⟨hm, he⟩⟩⟩
      · rintro ⟨hmodel, hlater⟩
        exact ⟨⟨hmodel, fun model hm => (hlater model hm).1⟩,
          fun loaded hboth => (hlater loaded.1 hboth.1).2 loaded.2 hboth.2⟩
    simp only [imp_true_iff, and_true, hloads, exists_missingPaths_iff]
    exact and_congr_right fun hreach =>
      ⟨fun h hpresent => h ⟨hreach, hpresent⟩, fun h hboth => h hboth.2⟩

/-! ## The order of the steps -/

/-- A digest that was verified matches. -/
def Due (rt : Runtime Obj) (fs : FileSystem) (step : LoadStep) : Prop :=
  ∀ path, step = .verified path → ChecksumMatches rt fs path

theorem logs_verifyArtifactChecksum (path : String) :
    Logs (Due rt fs) (verifyArtifactChecksum rt fs path (checksumPath path)) [.verified path] := by
  unfold verifyArtifactChecksum
  refine Logs.after (fun _ => rfl) (Stage.unguarded _) fun there _ =>
    Logs.after (refuseIf_quiet _ _) (Stage.refuseIf _ _) fun _ _ =>
    Logs.after (fun _ => rfl) (Stage.ofExcept _) fun contents hcontents =>
    Logs.after (refuseIf_quiet _ _) (Stage.refuseIf _ _) fun _ hword =>
    Logs.after (fun _ => rfl) (Stage.unguarded _) fun actual hactual =>
    Logs.after (refuseIf_quiet _ _) (Stage.refuseIf _ _) fun _ hmatch => Logs.append ?_
  rintro path' heq
  obtain rfl : path = path' := LoadStep.verified.inj heq
  exact ⟨contents, actual, readChecksum_ok_iff.mp hcontents, hword, hactual, not_not.mp hmatch⟩

theorem logs_loadArtifacts (modelPath encoderPath : String) :
    Logs (Due rt fs) (loadArtifacts rt fs modelPath encoderPath)
      [.loaded modelPath, .loaded encoderPath] := by
  have hload : ∀ path, Logs (Due rt fs) (joblibLoad rt fs path) [.loaded path] := fun path =>
    Logs.bind (Logs.append fun _ heq => nomatch heq) (Stage.modify _) fun _ _ =>
      Logs.quiet fun _ => rfl
  exact Logs.rewrap _ (Logs.bind (hload modelPath) (stage_joblibLoad modelPath) fun _ _ =>
    Logs.bind (hload encoderPath) (stage_joblibLoad encoderPath) fun _ _ => Logs.quiet fun _ => rfl)

/-- The two digests are verified before anything is deserialised. -/
theorem logs_loadRuntimeModelArtifacts (modelPath encoderPath featureColumnsPath : String) :
    Logs (Due rt fs) (loadRuntimeModelArtifacts rt fs modelPath encoderPath featureColumnsPath)
      [.verified modelPath, .verified encoderPath, .loaded modelPath, .loaded encoderPath] := by
  unfold loadRuntimeModelArtifacts
  exact Logs.after (fun _ => rfl) (Stage.unguarded _) fun _ _ =>
    Logs.after (refuseIf_quiet _ _) (Stage.refuseIf _ _) fun _ _ =>
    Logs.after (fun _ => rfl) (Stage.unguarded _) fun _ _ =>
    Logs.after (refuseIf_quiet _ _) (Stage.refuseIf _ _) fun _ _ =>
    Logs.bind (logs_verifyArtifactChecksum modelPath) (stage_verifyArtifactChecksum modelPath)
      fun _ _ =>
    Logs.bind (logs_verifyArtifactChecksum encoderPath) (stage_verifyArtifactChecksum encoderPath)
      fun _ _ =>
    Logs.bind (logs_loadArtifacts modelPath encoderPath) (stage_loadArtifacts modelPath encoderPath)
      fun _ _ =>
    Logs.after (fun _ => rfl) (Stage.unguarded _) fun _ _ =>
    Logs.after (refuseIf_quiet _ _) (Stage.refuseIf _ _) fun _ _ =>
    Logs.after (fun _ => rfl) (Stage.unguarded _) fun _ _ =>
    Logs.after (refuseIf_quiet _ _) (Stage.refuseIf _ _) fun _ _ => Logs.quiet fun _ => rfl

end loading

end SmartIDS.ML
