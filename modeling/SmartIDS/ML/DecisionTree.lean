import SmartIDS.Foundation.Dict
import SmartIDS.Foundation.Distributions
import SmartIDS.ML.ModelStack
set_option autoImplicit false

/-!
# ML: the decision tree and the predictions of the stack

`custom_decision_tree_runtime.py`, and what `model_stack.py` does with the models it
has loaded.  The tree is deserialised, so every attribute of a node may be missing;
doubles are rationals.
-/

namespace SmartIDS.ML

open SmartIDS.Foundation SmartIDS.Python

/-! ## `custom_decision_tree_runtime.py` -/

/-- What a `TreeNode` holds besides its children. -/
structure NodeFields where
  isLeaf : Bool := false
  prediction : ℤ := 0
  classCounts : Option (List ℤ) := none
  featureIndex : Option ℤ := none
  threshold : Option PyFloat := none

/-- `TreeNode | None`. -/
inductive TreeNode where
  | absent
  | node (fields : NodeFields) (left right : TreeNode)

/-- The leaf that stands for a missing node. -/
def missingLeaf : NodeFields := { isLeaf := true, prediction := 0, classCounts := some [1] }

/-- `float(row[feature_index]) if feature_index < len(row) else 0.0`; a negative index
counts from the end. -/
def valueAt (row : List PyFloat) (featureIndex : ℤ) : Except PyError PyFloat :=
  if featureIndex < row.length then
    let index := if featureIndex < 0 then featureIndex + row.length else featureIndex
    if index < 0 then .error .other else .ok (row.getD index.toNat .nan)
  else .ok (.finite 0)

/-- `_descend`. -/
def descend (row : List PyFloat) : TreeNode → Except PyError NodeFields
  | .absent => .ok missingLeaf
  | .node fields left right =>
    if fields.isLeaf then .ok fields
    else
      match valueAt row (fields.featureIndex.getD 0) with
      | .error e => .error e
      | .ok value =>
        if value ≤ fields.threshold.getD (.finite 0) then descend row left else descend row right

/-- `CustomDecisionTreeClassifier`. -/
structure CustomDecisionTreeClassifier where
  root : TreeNode
  nClasses : Option ℤ

namespace CustomDecisionTreeClassifier

/-- `_predict_row`. -/
def predictRow (tree : CustomDecisionTreeClassifier) (row : List PyFloat) : Except PyError ℤ :=
  (descend row tree.root).map (·.prediction)

/-- `max(int(getattr(self, "n_classes", 1) or 1), 1)`. -/
def classes (tree : CustomDecisionTreeClassifier) : ℕ :=
  let n := tree.nClasses.getD 1
  (max (if n = 0 then 1 else n) 1).toNat

/-- The zeros with a one in the place of the prediction, if it is a class. -/
def certain (n : ℕ) (prediction : ℤ) : List ℚ :=
  if 0 ≤ prediction then IsDistribution.pointMass n prediction.toNat else List.replicate n 0

/-- `_predict_row_proba` from the leaf on, with `n` classes. -/
def leafProba (n : ℕ) (node : NodeFields) : List ℚ :=
  match node.classCounts with
  | none => certain n node.prediction
  | some classCounts =>
    let counts : List ℚ := classCounts.map Int.cast
    if 0 < counts.sum then IsDistribution.normalise counts else certain n node.prediction

/-- `_predict_row_proba`. -/
def predictRowProba (tree : CustomDecisionTreeClassifier) (row : List PyFloat) :
    Except PyError (List ℚ) :=
  (descend row tree.root).map (leafProba tree.classes)

end CustomDecisionTreeClassifier

/-! ## `model_stack.py` -/

/-- What the deserialised models and encoders answer for a frame of one row. -/
structure ModelApi (Obj : Type) where
  predict : Obj → List PyFloat → Except PyError ℤ
  /-- `none` for a model without `predict_proba`. -/
  predictProba : Obj → Option (List PyFloat → Except PyError (List ℚ))
  /-- `str(inverse_transform([encoded])[0])`. -/
  inverseTransform : Obj → ℤ → Except PyError String

/-- `model_key` and `model_name` of the configuration. -/
structure ModelName where
  modelKey : String
  modelName : String
  deriving DecidableEq

/-- The dictionary of `RuntimeModelBundle.predict`. -/
structure BundlePrediction where
  name : ModelName
  config : RuntimeModelBundleConfig
  metadata : JsonObject
  label : String
  confidence : ℚ
  encoded : ℤ
  probabilities : Option (List ℚ)

/-- `build_frame`: a feature that is missing or not finite is 0. -/
def buildFrame (features : Dict String PyFloat) : List PyFloat :=
  featureColumns.map fun column =>
    match features.get? column with
    | some (.finite value) => .finite value
    | _ => .finite 0

section predict

variable {Obj : Type} (api : ModelApi Obj)

/-- `probabilities` and `confidence`; `np.max` refuses an empty list. -/
def confidenceOf (model : Obj) (frame : List PyFloat) : Except PyError (Option (List ℚ) × ℚ) :=
  match api.predictProba model with
  | none => .ok (none, 0)
  | some predictProba => do
    let probabilities ← predictProba frame
    match probabilities.max? with
    | none => .error .valueError
    | some confidence => .ok (some probabilities, confidence)

/-- `RuntimeModelBundle.predict`; a bundle that is not enabled has no model. -/
def RuntimeModelBundle.predict (name : ModelName) (bundle : RuntimeModelBundle Obj)
    (frame : List PyFloat) : Except PyError BundlePrediction :=
  match bundle.model, bundle.labelEncoder with
  | some model, some labelEncoder => do
    let encoded ← api.predict model frame
    let label ← api.inverseTransform labelEncoder encoded
    let scored ← confidenceOf api model frame
    return {
      name := name
      config := bundle.config
      metadata := bundle.metadata
      label := label
      confidence := scored.2
      encoded := encoded
      probabilities := scored.1 }
  | _, _ => .error .other

/-- The dictionary of `RuntimeModelStack.predict` and of `predict_primary`. -/
structure StackPrediction where
  label : String
  confidence : ℚ
  encoded : ℤ
  name : ModelName
  primary : BundlePrediction
  secondary : Option BundlePrediction
  primaryEnabled : Bool
  secondaryEnabled : Bool
  primaryArtifactError : Option String
  secondaryArtifactError : Option String

namespace RuntimeModelStack

variable (stack : RuntimeModelStack Obj) (primaryName secondaryName : ModelName)

def secondaryEnabled : Bool := stack.secondaryBundle.any (·.enabled)

/-- What both dictionaries say. -/
def told (primary : BundlePrediction) (secondary : Option BundlePrediction) : StackPrediction where
  label := primary.label
  confidence := primary.confidence
  encoded := primary.encoded
  name := primary.name
  primary := primary
  secondary := secondary
  primaryEnabled := stack.primaryBundle.enabled
  secondaryEnabled := stack.secondaryEnabled
  primaryArtifactError := stack.primaryBundle.artifactError
  secondaryArtifactError := stack.secondaryArtifactError

/-- `predict_primary_from_frame`. -/
def predictPrimaryFromFrame (frame : List PyFloat) : Except PyError StackPrediction := do
  let primary ← stack.primaryBundle.predict api primaryName frame
  return stack.told primary none

/-- `predict_primary`. -/
def predictPrimary (features : Dict String PyFloat) : Except PyError (Option StackPrediction) :=
  if stack.enabled then
    (stack.predictPrimaryFromFrame api primaryName (buildFrame features)).map some
  else .ok none

/-- The prediction of the secondary bundle, if there is one and it is enabled. -/
def predictSecondary (frame : List PyFloat) : Except PyError (Option BundlePrediction) :=
  match stack.secondaryBundle with
  | none => .ok none
  | some bundle =>
    if bundle.enabled then (bundle.predict api secondaryName frame).map some else .ok none

/-- `predict`. -/
def predict (features : Dict String PyFloat) : Except PyError (Option StackPrediction) :=
  if stack.enabled then do
    let frame := buildFrame features
    let primary ← stack.primaryBundle.predict api primaryName frame
    let secondary ← stack.predictSecondary api secondaryName frame
    return some (stack.told primary secondary)
  else .ok none

end RuntimeModelStack

end predict

/-! ## A tree that was fitted -/

/-- The leaf of a tree for `n` classes: it predicts one of them, and has counted for
each how many rows of it came there, if it has counted any. -/
structure FittedLeaf (n : ℕ) (fields : NodeFields) : Prop where
  nonneg : 0 ≤ fields.prediction
  lt : fields.prediction < n
  counts : ∀ classCounts ∈ fields.classCounts, classCounts.length = n ∧ ∀ c ∈ classCounts, 0 ≤ c

/-- Every leaf is one, no child is missing, and every test is of a column. -/
def Fitted (n : ℕ) : TreeNode → Prop
  | .absent => False
  | .node fields left right =>
    if fields.isLeaf then FittedLeaf n fields
    else 0 ≤ fields.featureIndex.getD 0 ∧ Fitted n left ∧ Fitted n right

theorem valueAt_of_nonneg (row : List PyFloat) {featureIndex : ℤ} (h : 0 ≤ featureIndex) :
    ∃ value, valueAt row featureIndex = .ok value := by
  unfold valueAt
  rw [if_neg (not_lt.mpr h)]
  dsimp only
  rw [if_neg (not_lt.mpr h)]
  split_ifs <;> exact ⟨_, rfl⟩

/-- At a fitted leaf the probabilities are a distribution over the classes. -/
theorem FittedLeaf.proba {n : ℕ} {fields : NodeFields} (h : FittedLeaf n fields) :
    (CustomDecisionTreeClassifier.leafProba n fields).length = n ∧
      IsDistribution (CustomDecisionTreeClassifier.leafProba n fields) := by
  have hcertain : (CustomDecisionTreeClassifier.certain n fields.prediction).length = n ∧
      IsDistribution (CustomDecisionTreeClassifier.certain n fields.prediction) := by
    have hnonneg := h.nonneg
    have hlt := h.lt
    rw [CustomDecisionTreeClassifier.certain, if_pos hnonneg]
    exact ⟨IsDistribution.length_pointMass _ _, IsDistribution.of_pointMass (by omega)⟩
  unfold CustomDecisionTreeClassifier.leafProba
  cases hcounts : fields.classCounts with
  | none => exact hcertain
  | some classCounts =>
    obtain ⟨hlength, hnonneg⟩ := h.counts classCounts hcounts
    dsimp only
    split_ifs with hsum
    · refine ⟨?_, IsDistribution.of_normalise ?_ hsum⟩
      · rw [IsDistribution.length_normalise, List.length_map, hlength]
      · intro c hc
        obtain ⟨count, hcount, rfl⟩ := List.mem_map.mp hc
        exact Int.cast_nonneg (hnonneg count hcount)
    · exact hcertain

/-- Every row comes to a leaf. -/
theorem descend_of_fitted {n : ℕ} {root : TreeNode} (h : Fitted n root) (row : List PyFloat) :
    ∃ fields, descend row root = .ok fields ∧ FittedLeaf n fields := by
  induction root with
  | absent => exact absurd h id
  | node fields left right hleft hright =>
    unfold Fitted at h
    unfold descend
    split_ifs at h ⊢ with hleaf
    · exact ⟨fields, rfl, h⟩
    · obtain ⟨hindex, hfitted, hfitted'⟩ := h
      obtain ⟨value, hvalue⟩ := valueAt_of_nonneg row hindex
      rw [hvalue]
      dsimp only
      split_ifs
      · exact hleft hfitted
      · exact hright hfitted'

/-- A fitted tree, with its number of classes. -/
structure FittedTree (n : ℕ) where
  tree : CustomDecisionTreeClassifier
  nClasses : tree.nClasses = some (n : ℤ)
  root : Fitted n tree.root

namespace FittedTree

variable {n : ℕ}

theorem classes_pos (fitted : FittedTree n) : 0 < n := by
  obtain ⟨fields, -, hleaf⟩ := descend_of_fitted fitted.root []
  have hnonneg := hleaf.nonneg
  have hlt := hleaf.lt
  omega

theorem classes_eq (fitted : FittedTree n) : fitted.tree.classes = n := by
  have hpos := fitted.classes_pos
  unfold CustomDecisionTreeClassifier.classes
  rw [fitted.nClasses, Option.getD_some]
  dsimp only
  rw [if_neg (by omega)]
  omega

/-- What it answers about a row: a class, and a distribution over the classes. -/
theorem answers (fitted : FittedTree n) (row : List PyFloat) : ∃ prediction probabilities,
    fitted.tree.predictRow row = .ok prediction ∧ 0 ≤ prediction ∧ prediction < n ∧
      fitted.tree.predictRowProba row = .ok probabilities ∧ probabilities.length = n ∧
      IsDistribution probabilities := by
  obtain ⟨fields, hdescend, hleaf⟩ := descend_of_fitted fitted.root row
  unfold CustomDecisionTreeClassifier.predictRow CustomDecisionTreeClassifier.predictRowProba
  rw [hdescend, fitted.classes_eq]
  exact ⟨_, _, rfl, hleaf.nonneg, hleaf.lt, rfl, hleaf.proba⟩

end FittedTree

/-! ## The secondary bundle beside the primary one -/

/-- The encoder of these classes. -/
def inverseTransform (classes : List String) (encoded : ℤ) : Except PyError String :=
  if 0 ≤ encoded then
    match classes[encoded.toNat]? with
    | some label => .ok label
    | none => .error .valueError
  else .error .valueError

theorem inverseTransform_of_lt {classes : List String} {encoded : ℤ} (hnonneg : 0 ≤ encoded)
    (hlt : encoded < classes.length) :
    ∃ label ∈ classes, inverseTransform classes encoded = .ok label := by
  have hindex : encoded.toNat < classes.length := by omega
  refine ⟨classes[encoded.toNat], List.getElem_mem hindex, ?_⟩
  rw [inverseTransform, if_pos hnonneg, List.getElem?_eq_getElem hindex]

section secondary

variable {Obj : Type} {api : ModelApi Obj}

/-- A model that answers as a fitted tree, with an encoder of as many classes. -/
structure AnswersAsTree (api : ModelApi Obj) (model labelEncoder : Obj) {n : ℕ}
    (fitted : FittedTree n) (classes : List String) : Prop where
  predict : api.predict model = fitted.tree.predictRow
  predictProba : api.predictProba model = some fitted.tree.predictRowProba
  inverseTransform : api.inverseTransform labelEncoder = SmartIDS.ML.inverseTransform classes
  length : classes.length = n

/-- A prediction that can be published: a known label, and the greatest of a
distribution as its confidence. -/
structure SoundPrediction (classes : List String) (prediction : BundlePrediction) : Prop where
  label : prediction.label ∈ classes
  confidence : ∃ probabilities, prediction.probabilities = some probabilities ∧
    probabilities.length = classes.length ∧ IsDistribution probabilities ∧
    prediction.confidence ∈ probabilities ∧ ∀ p ∈ probabilities, p ≤ prediction.confidence
  bounds : 1 / (classes.length : ℚ) ≤ prediction.confidence ∧ prediction.confidence ≤ 1

theorem exists_max_of_distribution {ps : List ℚ} (h : IsDistribution ps) :
    ∃ m, ps.max? = some m ∧ m ∈ ps ∧ ∀ p ∈ ps, p ≤ m := by
  cases hmax : ps.max? with
  | none =>
    rw [List.max?_eq_none_iff] at hmax
    subst hmax
    exact absurd h.sum (by simp)
  | some m => exact ⟨m, rfl, List.max?_eq_some_iff.mp hmax⟩

/-- A bundle with a fitted tree in it predicts, whatever the frame. -/
theorem predict_of_tree {bundle : RuntimeModelBundle Obj} {model labelEncoder : Obj} {n : ℕ}
    {fitted : FittedTree n} {classes : List String} (hmodel : bundle.model = some model)
    (hencoder : bundle.labelEncoder = some labelEncoder)
    (hanswers : AnswersAsTree api model labelEncoder fitted classes) (name : ModelName)
    (frame : List PyFloat) :
    ∃ prediction, bundle.predict api name frame = .ok prediction ∧
      SoundPrediction classes prediction := by
  obtain ⟨encoded, probabilities, hpredict, hnonneg, hlt, hproba, hlength, hdistribution⟩ :=
    fitted.answers frame
  obtain ⟨label, hlabel, hinverse⟩ :=
    inverseTransform_of_lt hnonneg (hlt.trans_eq (by rw [hanswers.length]))
  obtain ⟨confidence, hmax, hmem, hgreatest⟩ := exists_max_of_distribution hdistribution
  have hscored : confidenceOf api model frame = .ok (some probabilities, confidence) := by
    unfold confidenceOf
    rw [hanswers.predictProba]
    dsimp only
    rw [hproba]
    show (match probabilities.max? with
      | none => .error .valueError
      | some confidence => .ok (some probabilities, confidence) : Except PyError _) = _
    rw [hmax]
  refine ⟨⟨name, bundle.config, bundle.metadata, label, confidence, encoded, some probabilities⟩,
    ?_, hlabel, ⟨probabilities, rfl, hlength.trans hanswers.length.symm, hdistribution, hmem,
      hgreatest⟩, ?_, hdistribution.le_one hmem⟩
  · unfold RuntimeModelBundle.predict
    rw [hmodel, hencoder]
    dsimp only
    rw [hanswers.predict, hpredict, hanswers.inverseTransform]
    show (inverseTransform classes encoded >>= _ : Except PyError _) = _
    rw [hinverse]
    show (confidenceOf api model frame >>= _ : Except PyError _) = _
    rw [hscored]
    rfl
  · rw [hanswers.length, ← hlength]
    exact hdistribution.inv_length_le hgreatest

/-- With a fitted tree in the secondary bundle, `predict` answers exactly when
`predict_primary` does, and says the same and, where the bundle is enabled, a sound
prediction of the secondary model besides. -/
theorem predict_eq_predictPrimary {stack : RuntimeModelStack Obj} {bundle : RuntimeModelBundle Obj}
    {model labelEncoder : Obj} {n : ℕ} {fitted : FittedTree n} {classes : List String}
    (hbundle : stack.secondaryBundle = some bundle) (hmodel : bundle.model = some model)
    (hencoder : bundle.labelEncoder = some labelEncoder)
    (hanswers : AnswersAsTree api model labelEncoder fitted classes)
    (primaryName secondaryName : ModelName) (features : Dict String PyFloat) :
    ∃ secondary, SoundPrediction classes secondary ∧
      stack.predict api primaryName secondaryName features =
        (stack.predictPrimary api primaryName features).map (Option.map fun told =>
          { told with secondary := if bundle.enabled then some secondary else none }) := by
  obtain ⟨secondary, hsecondary, hsound⟩ :=
    predict_of_tree hmodel hencoder hanswers secondaryName (buildFrame features)
  refine ⟨secondary, hsound, ?_⟩
  have hpredicts : stack.predictSecondary api secondaryName (buildFrame features) =
      .ok (if bundle.enabled then some secondary else none) := by
    unfold RuntimeModelStack.predictSecondary
    rw [hbundle]
    dsimp only
    split_ifs
    · rw [hsecondary]
      rfl
    · rfl
  generalize (if bundle.enabled then some secondary else none) = extra at hpredicts ⊢
  unfold RuntimeModelStack.predict RuntimeModelStack.predictPrimary
    RuntimeModelStack.predictPrimaryFromFrame
  dsimp only
  rw [hpredicts]
  by_cases henabled : stack.enabled = true
  · rw [if_pos henabled, if_pos henabled]
    cases stack.primaryBundle.predict api primaryName (buildFrame features) with
    | error e => rfl
    | ok primary => rfl
  · rw [if_neg henabled, if_neg henabled]
    rfl

end secondary

/-! ### A tree of one test -/

/-- A leaf for two classes with what it counted. -/
def leafOf (prediction : ℤ) (classCounts : List ℤ) : TreeNode :=
  .node { isLeaf := true, prediction := prediction, classCounts := some classCounts } .absent .absent

theorem fitted_leafOf {prediction : ℤ} {classCounts : List ℤ} (hnonneg : 0 ≤ prediction)
    (hlt : prediction < 2) (hlength : classCounts.length = 2) (hcounts : ∀ c ∈ classCounts, 0 ≤ c) :
    Fitted 2 (leafOf prediction classCounts) := by
  unfold leafOf Fitted
  rw [if_pos rfl]
  refine ⟨hnonneg, hlt, fun counts hsome => ?_⟩
  obtain rfl := Option.some.inj hsome
  exact ⟨hlength, hcounts⟩

/-- A tree that tests whether `flow_duration` is at most 10. -/
def stump : FittedTree 2 where
  tree :=
    { root := .node { featureIndex := some 2, threshold := some (.finite 10) }
        (leafOf 0 [3, 1]) (leafOf 1 [0, 4])
      nClasses := some 2 }
  nClasses := rfl
  root := by
    unfold Fitted
    rw [if_neg (by decide)]
    exact ⟨by decide, fitted_leafOf (by decide) (by decide) rfl (by decide),
      fitted_leafOf (by decide) (by decide) rfl (by decide)⟩

/-- Models and encoders that answer as that tree and its encoder. -/
def stumpApi : ModelApi Unit where
  predict _ := stump.tree.predictRow
  predictProba _ := some stump.tree.predictRowProba
  inverseTransform _ := inverseTransform ["Normal Traffic", "DoS"]

/-- A bundle of such a model and encoder, and a stack of two of them. -/
def stumpBundle : RuntimeModelBundle Unit where
  config := ⟨"", "", "", "", none⟩
  enabled := true
  model := some ()
  labelEncoder := some ()

def stumpStack : RuntimeModelStack Unit where
  primaryBundle := stumpBundle
  secondaryBundle := some stumpBundle
  enabled := true
  artifactError := none
  secondaryArtifactError := none

theorem predict_eq_predictPrimary_of_stump :
    let features := Dict.empty.set "flow_duration" (.finite 40)
    ∃ secondary, SoundPrediction ["Normal Traffic", "DoS"] secondary ∧
      stumpStack.predict stumpApi ⟨"xgboost", "XGBoost"⟩ ⟨"decision_tree", "DecisionTree"⟩ features =
        (stumpStack.predictPrimary stumpApi ⟨"xgboost", "XGBoost"⟩ features).map
          (Option.map fun told =>
            { told with secondary := if stumpBundle.enabled then some secondary else none }) :=
  predict_eq_predictPrimary rfl rfl rfl
    (show AnswersAsTree stumpApi () () stump _ from ⟨rfl, rfl, rfl, rfl⟩) _ _ _

end SmartIDS.ML
