import SmartIDS.Foundation.Contingency
import SmartIDS.ML.ConfusionMetrics
import SmartIDS.ML.StratifiedSplit
set_option autoImplicit false

/-!
# ML: two evaluators

`test_xgboost_cicids2018.py` evaluates the test file in chunks and reads the false-positive
rate of the normal class off the confusion matrix; `evaluate_cicids2018.py` counts the rows.
Cleaning and prediction act row by row and are parameters; doubles are rationals.
-/

namespace SmartIDS.ML

open SmartIDS.Foundation SmartIDS.Foundation.Contingency SmartIDS.Python

/-- The functions an evaluation uses, over the rows of the test file and the cleaned rows. -/
structure EvaluationEnv (Row Cleaned : Type) where
  /-- `sanitize_prepared_chunk` on one row; `none` for a row it drops. -/
  clean : Row → Option Cleaned
  /-- The cell in `LABEL_COLUMN`. -/
  label : Cleaned → String
  /-- The class the booster gives the highest probability. -/
  predict : Cleaned → ℕ

/-- The table in `label_encoder.transform`. -/
def classTable (classes : List String) : Dict String (Fin classes.length) :=
  Dict.tabulate classes.get id (List.finRange classes.length)

/-- `label_encoder.transform` on one label. -/
def transform (classes : List String) (label : String) : Except PyError (Fin classes.length) :=
  match (classTable classes).get? label with
  | some index => .ok index
  | none => .error .valueError

/-- `fp / (fp + tn)`, guarded. -/
def falsePositiveRate (fp tn : ℤ) : ℚ := if 0 < fp + tn then fp / (fp + tn) else 0

/-! ## From the confusion matrix -/

/-- What `_stream_evaluation_confusion` returns. -/
structure EvaluationCounts (n : ℕ) where
  confusion : Confusion n := fun _ _ => 0
  rowsEvaluated : ℕ := 0
  unknownLabelsFiltered : ℕ := 0

/-- `confusion[actual, predicted] += 1` and the count of the row. -/
def countPair {n : ℕ} (s : EvaluationCounts n) (pair : Fin n × ℕ) :
    Except PyError (EvaluationCounts n) :=
  if h : pair.2 < n then
    .ok { s with
      confusion := increment s.confusion pair.1 ⟨pair.2, h⟩
      rowsEvaluated := s.rowsEvaluated + 1 }
  else .error .other

section stream

variable {Row Cleaned : Type} (env : EvaluationEnv Row Cleaned) (classes : List String)

/-- `labels_raw.isin(known_labels)`. -/
def keepMask (row : Cleaned) : Bool := env.label row ∈ classes

/-- The body of the loop of `_stream_evaluation_confusion`. -/
def evaluateChunk (s : EvaluationCounts classes.length) (chunk : List Row) :
    Except PyError (EvaluationCounts classes.length) :=
  let cleaned := chunk.filterMap env.clean
  if cleaned.isEmpty then .ok s
  else
    let unknown := cleaned.filter fun row => !keepMask env classes row
    let s := { s with unknownLabelsFiltered := s.unknownLabelsFiltered + unknown.length }
    let cleaned := cleaned.filter (keepMask env classes)
    if cleaned.isEmpty then .ok s
    else do
      let encodedLabels ← cleaned.mapM fun row => transform classes (env.label row)
      let predictions := cleaned.map env.predict
      (encodedLabels.zip predictions).foldlM countPair s

/-- `_stream_evaluation_confusion`. -/
def streamEvaluationConfusion (chunkSize : ℕ) (file : List Row) :
    Except PyError (EvaluationCounts classes.length) :=
  (file.toChunks chunkSize).foldlM (evaluateChunk env classes) {}

end stream

/-- `_normal_traffic_fpr`. -/
def normalTrafficFpr (classes : List String) (confusion : Confusion classes.length) : ℚ :=
  match classes.finIdxOf? "Normal Traffic" with
  | none => 0
  | some normalIdx =>
    let fp : ℤ := (∑ i, confusion i normalIdx : ℕ) - confusion normalIdx normalIdx
    let tn : ℤ := (∑ i, ∑ j, confusion i j : ℕ) - (∑ j, confusion normalIdx j : ℕ) - fp
    falsePositiveRate fp tn

/-- The part of the report `evaluate_model` computes. -/
structure Benchmark (n : ℕ) where
  metrics : Metrics n
  rowsEvaluated : ℕ
  unknownLabelsFiltered : ℕ
  normalTrafficFpr : ℚ

/-- `evaluate_model`, from its checks on. -/
def evaluateModel {Row Cleaned : Type} (env : EvaluationEnv Row Cleaned) (classes : List String)
    (file : List Row) (chunkSize progressEvery : ℤ) :
    Except PyError (Benchmark classes.length) :=
  if chunkSize ≤ 0 then .error .valueError
  else if progressEvery ≤ 0 then .error .valueError
  else do
    let counts ← streamEvaluationConfusion env classes chunkSize.toNat file
    if counts.rowsEvaluated ≤ 0 then .error .valueError
    else do
      let metrics ← metricsFromConfusionMatrix counts.confusion classes.get
      return {
        metrics := metrics
        rowsEvaluated := counts.rowsEvaluated
        unknownLabelsFiltered := counts.unknownLabelsFiltered
        normalTrafficFpr := normalTrafficFpr classes counts.confusion }

/-! ## From the rows -/

/-- The value of `normal_fpr` in `evaluate_cicids2018.main`, from the encoded labels and the
predictions. -/
def normalFpr (classes : List String) (yTest : List (Fin classes.length)) (yPred : List ℕ) : ℚ :=
  match classes.finIdxOf? "Normal Traffic" with
  | none => 0
  | some normalIdx =>
    let rows := yTest.zip yPred
    let tn := rows.countP fun row => row.1 ≠ normalIdx ∧ row.2 ≠ normalIdx.val
    let fp := rows.countP fun row => row.1 ≠ normalIdx ∧ row.2 = normalIdx.val
    falsePositiveRate fp tn

/-- `evaluate_cicids2018.main` up to `normal_fpr`, from the label and the prediction of every
prepared row on. -/
def evaluateMain (classes : List String) (rows : List (String × ℕ)) : Except PyError ℚ :=
  let kept := rows.filter fun row => row.1 ∈ classes
  if kept.isEmpty then .error .valueError
  else do
    let yTest ← kept.mapM fun row => transform classes row.1
    return normalFpr classes yTest (kept.map Prod.snd)

/-! ## Rows as pairs of classes -/

section pairs

variable {α : Type} (classes : List String) (label : α → String) (predict : α → ℕ)

/-- The actual and the predicted class of a row; none of a row with another label. -/
def pairOf (row : α) : Option (Fin classes.length × Fin classes.length) :=
  match (classTable classes).get? (label row) with
  | some actual =>
    if h : predict row < classes.length then some (actual, ⟨predict row, h⟩) else none
  | none => none

/-- The pairs of classes of rows. -/
def pairsOf (rows : List α) : List (Fin classes.length × Fin classes.length) :=
  rows.filterMap (pairOf classes label predict)

/-- A prediction for a row that is evaluated is a class. -/
def PredictsClasses (rows : List α) : Prop :=
  ∀ row ∈ rows, label row ∈ classes → predict row < classes.length

theorem mem_keys_classTable (name : String) :
    name ∈ (classTable classes).keys ↔ name ∈ classes := by
  unfold classTable
  rw [Dict.mem_keys_tabulate, List.map_get_finRange]

variable {classes label predict}

theorem pairOf_of_notMem {row : α} (h : label row ∉ classes) :
    pairOf classes label predict row = none := by
  rw [← mem_keys_classTable, ← Dict.get?_eq_none_iff] at h
  unfold pairOf
  rw [h]

theorem pairOf_of_mem {row : α} (h : label row ∈ classes)
    (hpredict : predict row < classes.length) :
    ∃ actual, transform classes (label row) = .ok actual ∧
      pairOf classes label predict row = some (actual, ⟨predict row, hpredict⟩) := by
  obtain ⟨actual, hactual⟩ := Dict.exists_get?_of_mem ((mem_keys_classTable classes _).mpr h)
  refine ⟨actual, ?_, ?_⟩
  · unfold transform
    rw [hactual]
  · unfold pairOf
    rw [hactual]
    exact dif_pos hpredict

/-- The rows kept by the mask have the pairs of all rows. -/
theorem pairsOf_filter (rows : List α) :
    pairsOf classes label predict (rows.filter fun row => label row ∈ classes) =
      pairsOf classes label predict rows := by
  unfold pairsOf
  rw [List.filterMap_filter]
  apply List.filterMap_congr
  intro row _
  by_cases h : label row ∈ classes
  · simp [h]
  · simp [h, pairOf_of_notMem h]

/-- The encoded labels and the predictions are the two parts of the pairs. -/
theorem encoded {rows : List α}
    (h : ∀ row ∈ rows, label row ∈ classes ∧ predict row < classes.length) :
    (rows.mapM fun row => transform classes (label row)) =
        .ok ((pairsOf classes label predict rows).map Prod.fst) ∧
      rows.map predict = (pairsOf classes label predict rows).map fun pair => pair.2.val := by
  induction rows with
  | nil => exact ⟨rfl, rfl⟩
  | cons row rest ih =>
    obtain ⟨hmapM, hmap⟩ := ih fun r hr => h r (List.mem_cons_of_mem row hr)
    obtain ⟨hlabel, hpredict⟩ := h row List.mem_cons_self
    obtain ⟨actual, htransform, hpair⟩ := pairOf_of_mem hlabel hpredict
    have hpairs : pairsOf classes label predict (row :: rest) =
        (actual, ⟨predict row, hpredict⟩) :: pairsOf classes label predict rest :=
      List.filterMap_cons_some hpair
    constructor
    · rw [List.mapM_cons, htransform, hmapM, hpairs]
      rfl
    · rw [List.map_cons, hmap, hpairs, List.map_cons]

/-- Encoding succeeds on the rows kept by the mask. -/
theorem encoded_kept {rows : List α} (h : PredictsClasses classes label predict rows) :
    ((rows.filter fun row => label row ∈ classes).mapM fun row => transform classes (label row)) =
        .ok ((pairsOf classes label predict rows).map Prod.fst) ∧
      (rows.filter fun row => label row ∈ classes).map predict =
        (pairsOf classes label predict rows).map fun pair => pair.2.val := by
  rw [← pairsOf_filter]
  apply encoded
  intro row hrow
  obtain ⟨hmem, hlabel⟩ := List.mem_filter.mp hrow
  rw [decide_eq_true_iff] at hlabel
  exact ⟨hlabel, h row hmem hlabel⟩

theorem length_pairsOf {rows : List α} (h : PredictsClasses classes label predict rows) :
    (pairsOf classes label predict rows).length =
      (rows.filter fun row => label row ∈ classes).length := by
  have hmap := congrArg List.length (encoded_kept h).2
  rw [List.length_map, List.length_map] at hmap
  exact hmap.symm

end pairs

/-- The false-positive rate of a list of pairs of classes. -/
def pairsFpr (classes : List String) (pairs : List (Fin classes.length × Fin classes.length)) : ℚ :=
  match classes.finIdxOf? "Normal Traffic" with
  | none => 0
  | some normalIdx =>
    falsePositiveRate (pairs.countP fun pair => pair.1 ≠ normalIdx ∧ pair.2 = normalIdx : ℕ)
      (pairs.countP fun pair => pair.1 ≠ normalIdx ∧ pair.2 ≠ normalIdx : ℕ)

/-! ## The matrix -/

theorem foldlM_countPair {n : ℕ} (pairs : List (Fin n × Fin n)) (s : EvaluationCounts n)
    (done : List (Fin n × Fin n)) (h : s.confusion = tally done) :
    (pairs.map fun pair => (pair.1, pair.2.val)).foldlM countPair s =
      .ok { s with
        confusion := tally (done ++ pairs)
        rowsEvaluated := s.rowsEvaluated + pairs.length } := by
  induction pairs generalizing s done with
  | nil =>
    rw [List.append_nil, ← h]
    rfl
  | cons pair rest ih =>
    have hstep : countPair s (pair.1, pair.2.val) = .ok { s with
        confusion := tally (done ++ [pair])
        rowsEvaluated := s.rowsEvaluated + 1 } := by
      unfold countPair
      rw [dif_pos pair.2.isLt, h, increment_tally]
    rw [List.map_cons, List.foldlM_cons, hstep]
    refine (ih _ (done ++ [pair]) rfl).trans ?_
    rw [List.append_assoc, List.singleton_append, List.length_cons, Nat.add_right_comm,
      Nat.add_assoc]

section stream

variable {Row Cleaned : Type} (env : EvaluationEnv Row Cleaned) (classes : List String)

/-- The variables of the loop after some cleaned rows. -/
def countsOf (rows : List Cleaned) : EvaluationCounts classes.length where
  confusion := tally (pairsOf classes env.label env.predict rows)
  rowsEvaluated := (pairsOf classes env.label env.predict rows).length
  unknownLabelsFiltered := (rows.filter fun row => !keepMask env classes row).length

variable {env classes}

theorem countsOf_append (rows cleaned : List Cleaned) :
    countsOf env classes (rows ++ cleaned) = {
      confusion := tally (pairsOf classes env.label env.predict rows ++
        pairsOf classes env.label env.predict cleaned)
      rowsEvaluated := (pairsOf classes env.label env.predict rows).length +
        (pairsOf classes env.label env.predict cleaned).length
      unknownLabelsFiltered := (rows.filter fun row => !keepMask env classes row).length +
        (cleaned.filter fun row => !keepMask env classes row).length } := by
  unfold countsOf pairsOf
  rw [List.filterMap_append, List.length_append, List.filter_append, List.length_append]

/-- One chunk adds its cleaned rows. -/
theorem evaluateChunk_countsOf (rows : List Cleaned) {chunk : List Row}
    (h : PredictsClasses classes env.label env.predict (chunk.filterMap env.clean)) :
    evaluateChunk env classes (countsOf env classes rows) chunk =
      .ok (countsOf env classes (rows ++ chunk.filterMap env.clean)) := by
  obtain ⟨hencoded, hpredictions⟩ := encoded_kept h
  unfold evaluateChunk
  generalize chunk.filterMap env.clean = cleaned at h hencoded hpredictions ⊢
  dsimp only
  split
  · next hempty => rw [List.isEmpty_iff.mp hempty, List.append_nil]
  · split
    · next hnone =>
      have hpairs : pairsOf classes env.label env.predict cleaned = [] := by
        rw [← pairsOf_filter]
        exact congrArg (pairsOf classes env.label env.predict) (List.isEmpty_iff.mp hnone)
      rw [countsOf_append, hpairs, List.append_nil]
      rfl
    · unfold keepMask
      rw [hencoded, hpredictions, countsOf_append]
      show (List.zip _ _).foldlM countPair _ = _
      rw [List.zip_map']
      exact foldlM_countPair _ _ _ rfl

/-- The loop counts the cleaned rows of the file. -/
theorem foldlM_evaluateChunk (rows : List Cleaned) (chunks : List (List Row))
    (h : PredictsClasses classes env.label env.predict (chunks.flatten.filterMap env.clean)) :
    chunks.foldlM (evaluateChunk env classes) (countsOf env classes rows) =
      .ok (countsOf env classes (rows ++ chunks.flatten.filterMap env.clean)) := by
  induction chunks generalizing rows with
  | nil =>
    rw [List.flatten_nil, List.filterMap_nil, List.append_nil]
    rfl
  | cons chunk chunks ih =>
    rw [List.flatten_cons, List.filterMap_append] at h ⊢
    have hchunk := evaluateChunk_countsOf rows fun row hrow =>
      h row (List.mem_append_left _ hrow)
    rw [List.foldlM_cons, hchunk, ← List.append_assoc]
    exact ih _ fun row hrow => h row (List.mem_append_right _ hrow)

theorem streamEvaluationConfusion_eq (chunkSize : ℕ) {file : List Row}
    (h : PredictsClasses classes env.label env.predict (file.filterMap env.clean)) :
    streamEvaluationConfusion env classes chunkSize file =
      .ok (countsOf env classes (file.filterMap env.clean)) := by
  have hrun := foldlM_evaluateChunk [] (file.toChunks chunkSize)
    (by rw [flatten_toChunks]; exact h)
  rw [flatten_toChunks] at hrun
  exact hrun

/-- Every cleaned row is evaluated or filtered. -/
theorem rows_countsOf {rows : List Cleaned}
    (h : PredictsClasses classes env.label env.predict rows) :
    (countsOf env classes rows).rowsEvaluated + (countsOf env classes rows).unknownLabelsFiltered =
      rows.length := by
  unfold countsOf keepMask
  rw [length_pairsOf h]
  exact (List.length_eq_length_filter_add _).symm

end stream

/-! ## The two rates -/

/-- Rows and columns of the matrix count the pairs. -/
theorem normalTrafficFpr_tally (classes : List String)
    (pairs : List (Fin classes.length × Fin classes.length)) :
    normalTrafficFpr classes (tally pairs) = pairsFpr classes pairs := by
  unfold normalTrafficFpr pairsFpr
  split
  · rfl
  · dsimp only
    rw [column_sub_cell, all_sub_row_sub_rest]

theorem normalFpr_map (classes : List String)
    (pairs : List (Fin classes.length × Fin classes.length)) :
    normalFpr classes (pairs.map Prod.fst) (pairs.map fun pair => pair.2.val) =
      pairsFpr classes pairs := by
  unfold normalFpr pairsFpr
  split
  · rfl
  · simp only [List.zip_map', List.countP_map, Function.comp_def, ne_eq, Fin.val_inj]

/-- The rows with a known label that are not normal. -/
def notNormal (classes : List String) (rows : List (String × ℕ)) : List (String × ℕ) :=
  rows.filter fun row => row.1 ∈ classes ∧ row.1 ≠ "Normal Traffic"

/-- The share of the rows predicted normal among those that are not. -/
def normalShare (classes : List String) (rows : List (String × ℕ)) : ℚ :=
  let others := notNormal classes rows
  if "Normal Traffic" ∈ classes ∧ others ≠ [] then
    (others.countP fun row => row.2 = classes.idxOf "Normal Traffic" : ℕ) / (others.length : ℚ)
  else 0

theorem get_of_transform {classes : List String} {name : String} {i : Fin classes.length}
    (h : (classTable classes).get? name = some i) : classes.get i = name := by
  obtain ⟨j, -, hkey, hvalue⟩ := Dict.exists_of_get?_tabulate _ _ _ h
  rw [← hvalue]
  exact hkey

/-- Counting pairs is counting rows with a known label, where the labels are distinct. -/
theorem countP_pairsOf {classes : List String} {rows : List (String × ℕ)}
    (h : PredictsClasses classes Prod.fst Prod.snd rows) (hnodup : classes.Nodup)
    {normalIdx : Fin classes.length} (hnormal : classes.get normalIdx = "Normal Traffic")
    (q : ℕ → Bool) :
    (pairsOf classes Prod.fst Prod.snd rows).countP
        (fun pair => pair.1 ≠ normalIdx ∧ q pair.2.val = true) =
      (notNormal classes rows).countP fun row => q row.2 := by
  unfold pairsOf notNormal
  rw [List.countP_filterMap, List.countP_filter]
  apply List.countP_congr
  intro row hrow
  by_cases hmem : row.1 ∈ classes
  · obtain ⟨actual, hactual⟩ := Dict.exists_get?_of_mem ((mem_keys_classTable classes _).mpr hmem)
    have hlabel : row.1 = classes.get actual := (get_of_transform hactual).symm
    have hsame : actual = normalIdx ↔ row.1 = "Normal Traffic" := by
      rw [hlabel, ← hnormal, hnodup.get_inj_iff]
    unfold pairOf
    rw [hactual]
    simp only [dif_pos (h row hrow hmem), Option.map_some, Option.getD_some, decide_eq_true_iff,
      Bool.and_eq_true, ne_eq, hsame, hmem, true_and]
    exact and_comm
  · simp [pairOf_of_notMem hmem, hmem]

/-- The rate of the pairs is the share of the rows. -/
theorem pairsFpr_eq_normalShare {classes : List String} {rows : List (String × ℕ)}
    (h : PredictsClasses classes Prod.fst Prod.snd rows) (hnodup : classes.Nodup) :
    pairsFpr classes (pairsOf classes Prod.fst Prod.snd rows) = normalShare classes rows := by
  unfold pairsFpr normalShare
  cases hidx : classes.finIdxOf? "Normal Traffic" with
  | none => simp [List.finIdxOf?_eq_none_iff.mp hidx]
  | some normalIdx =>
    have hget : classes.get normalIdx = "Normal Traffic" := (List.finIdxOf?_eq_some_iff.mp hidx).1
    have hval : classes.idxOf "Normal Traffic" = normalIdx.val := by
      rw [← hget]
      exact hnodup.idxOf_getElem _ _
    have hmem : "Normal Traffic" ∈ classes := hget ▸ List.get_mem _ _
    have hfp := countP_pairsOf h hnodup hget fun n => decide (n = normalIdx.val)
    have htn := countP_pairsOf h hnodup hget fun n => !decide (n = normalIdx.val)
    simp only [decide_eq_true_iff, Bool.not_eq_true', decide_eq_false_iff_not, Fin.val_inj]
      at hfp htn
    dsimp only
    rw [hfp, htn, hval]
    generalize notNormal classes rows = others
    have htotal : (others.countP fun row => decide (row.2 = normalIdx.val)) +
        (others.countP fun row => !decide (row.2 = normalIdx.val)) = others.length := by
      rw [List.length_eq_countP_add_countP fun row : String × ℕ => decide (row.2 = normalIdx.val)]
      simp only [decide_eq_true_iff, decide_not]
    generalize (others.countP fun row => !decide (row.2 = normalIdx.val)) = tn at htotal ⊢
    generalize (others.countP fun row => decide (row.2 = normalIdx.val)) = fp at htotal ⊢
    unfold falsePositiveRate
    rcases eq_or_ne others [] with rfl | hsome
    · rw [List.length_nil] at htotal
      rw [if_neg (show ¬ (0 : ℤ) < fp + tn by omega), if_neg fun hboth => hboth.2 rfl]
    · have hpos := List.length_pos_of_ne_nil hsome
      rw [if_pos (show (0 : ℤ) < fp + tn by omega), if_pos ⟨hmem, hsome⟩, ← htotal]
      push_cast
      rfl

/-- The row-wise evaluator has the rate of the pairs of the rows with a known label. -/
theorem evaluateMain_eq {classes : List String} {rows : List (String × ℕ)}
    (h : PredictsClasses classes Prod.fst Prod.snd rows) :
    evaluateMain classes rows =
      if pairsOf classes Prod.fst Prod.snd rows = [] then .error .valueError
      else .ok (pairsFpr classes (pairsOf classes Prod.fst Prod.snd rows)) := by
  obtain ⟨hencoded, hpredictions⟩ := encoded_kept h
  have hempty : (rows.filter fun row => row.1 ∈ classes).isEmpty = true ↔
      pairsOf classes Prod.fst Prod.snd rows = [] := by
    rw [List.isEmpty_iff, ← List.length_eq_zero_iff, ← List.length_eq_zero_iff, length_pairsOf h]
  unfold evaluateMain
  dsimp only
  split
  · next hnone => rw [if_pos (hempty.mp hnone)]
  · next hsome =>
    rw [if_neg (mt hempty.mpr hsome), hencoded, hpredictions]
    exact congrArg Except.ok (normalFpr_map classes _)

theorem evaluateModel_eq {Row Cleaned : Type} {env : EvaluationEnv Row Cleaned}
    {classes : List String} {file : List Row} {chunkSize progressEvery : ℤ}
    (hchunk : 0 < chunkSize) (hprogress : 0 < progressEvery)
    (h : PredictsClasses classes env.label env.predict (file.filterMap env.clean)) :
    (evaluateModel env classes file chunkSize progressEvery).map Benchmark.normalTrafficFpr =
      if pairsOf classes env.label env.predict (file.filterMap env.clean) = [] then
        .error .valueError
      else .ok (pairsFpr classes (pairsOf classes env.label env.predict
        (file.filterMap env.clean))) := by
  unfold evaluateModel
  rw [if_neg (not_le.mpr hchunk), if_neg (not_le.mpr hprogress), streamEvaluationConfusion_eq _ h]
  simp only [bind, Except.bind, metricsFromConfusionMatrix_eq]
  rw [← normalTrafficFpr_tally]
  simp only [countsOf, Nat.le_zero, List.length_eq_zero_iff]
  split <;> rfl

/-- The matrix accumulated in chunks gives the rate counted over the rows, the share of the rows
predicted normal among those that are not, and the evaluators agree on it; every cleaned row is
evaluated or filtered. -/
theorem normalTrafficFpr_eq_normalFpr {Row Cleaned : Type} (env : EvaluationEnv Row Cleaned)
    (classes : List String) (file : List Row) (chunkSize : ℕ) (hchunk : 0 < chunkSize)
    (hpredict : ∀ row ∈ file.filterMap env.clean, env.label row ∈ classes →
      env.predict row < classes.length) :
    let cleaned := file.filterMap env.clean
    let rows := cleaned.map fun row => (env.label row, env.predict row)
    ∃ counts yTest,
      streamEvaluationConfusion env classes chunkSize file = .ok counts ∧
      counts.rowsEvaluated + counts.unknownLabelsFiltered = cleaned.length ∧
      (rows.filter fun row => row.1 ∈ classes).mapM (fun row => transform classes row.1) =
        .ok yTest ∧
      normalTrafficFpr classes counts.confusion =
        normalFpr classes yTest ((rows.filter fun row => row.1 ∈ classes).map Prod.snd) ∧
      (classes.Nodup → normalTrafficFpr classes counts.confusion = normalShare classes rows) ∧
      ∀ progressEvery : ℤ, 0 < progressEvery →
        (evaluateModel env classes file chunkSize progressEvery).map Benchmark.normalTrafficFpr =
          evaluateMain classes rows := by
  intro cleaned rows
  have hrows : PredictsClasses classes Prod.fst Prod.snd rows := by
    intro row hrow
    obtain ⟨r, hr, rfl⟩ := List.mem_map.mp hrow
    exact hpredict r hr
  have hpairs : pairsOf classes Prod.fst Prod.snd rows =
      pairsOf classes env.label env.predict cleaned := List.filterMap_map
  obtain ⟨hencoded, hpredictions⟩ := encoded_kept hrows
  refine ⟨_, _, streamEvaluationConfusion_eq chunkSize hpredict, rows_countsOf hpredict, hencoded,
    ?_, fun hnodup => ?_, fun progressEvery hprogress => ?_⟩
  · rw [hpredictions, normalFpr_map, hpairs]
    exact normalTrafficFpr_tally classes _
  · rw [← pairsFpr_eq_normalShare hrows hnodup, hpairs]
    exact normalTrafficFpr_tally classes _
  · rw [evaluateMain_eq hrows, hpairs]
    exact evaluateModel_eq (Int.natCast_pos.mpr hchunk) hprogress hpredict

theorem normalTrafficFpr_eq_normalFpr_alert :
    let env : EvaluationEnv (Option (String × ℕ)) (String × ℕ) := ⟨id, Prod.fst, Prod.snd⟩
    let file := [some ("Botnet", 1), none, some ("Infiltration", 0), some ("Normal Traffic", 1)]
    (evaluateModel env ["Botnet", "Normal Traffic"] file 2 20).map Benchmark.normalTrafficFpr =
      evaluateMain ["Botnet", "Normal Traffic"]
        [("Botnet", 1), ("Infiltration", 0), ("Normal Traffic", 1)] := by
  intro env file
  obtain ⟨_, _, _, _, _, _, _, hagree⟩ := normalTrafficFpr_eq_normalFpr env
    ["Botnet", "Normal Traffic"] file 2 Nat.two_pos (by simp [env, file])
  exact hagree 20 (by norm_num)

end SmartIDS.ML
