import Mathlib.Data.List.MinMax
import SmartIDS.ML.Training
set_option autoImplicit false

/-!
# ML: the training report

`train_model` of `train_xgboost_cicids2018.py`.  XGBoost is a parameter: what it trains may
depend on the batches the iterator delivers, and so on the chunk size.  The report counts
every cleaned row once, in the cell of its label and of the booster's class for it.
-/

namespace SmartIDS.ML

open SmartIDS.Foundation SmartIDS.Foundation.Contingency SmartIDS.Foundation.Ratios
open SmartIDS.Python

section definitions

variable {Row Cleaned : Type} (env : TrainingEnv Row Cleaned) (classes : List String)

/-- `np.asarray(probabilities).argmax(axis=1)`, which needs a second axis with an entry. -/
def argmaxRows {n : ℕ} : Probabilities n → Except PyError (List (Fin n))
  | .vector _ => .error .valueError
  | .table rows => rows.mapM fun row =>
    match (List.finRange n).argmax row with
    | some index => .ok index
    | none => .error .valueError

/-- The body of the loop of `_stream_confusion_matrix`. -/
def confuseChunk (booster : Booster Cleaned classes.length) (confusion : Confusion classes.length)
    (chunk : List Row) : Except PyError (Confusion classes.length) :=
  let cleaned := chunk.filterMap env.clean
  if cleaned.isEmpty then .ok confusion
  else do
    let labels ← cleaned.mapM fun row => transform classes (env.label row)
    let predictions ← argmaxRows (booster cleaned)
    return (labels.zip predictions).foldl
      (fun confusion pair => increment confusion pair.1 pair.2) confusion

/-- `_stream_confusion_matrix`. -/
def streamConfusionMatrix (booster : Booster Cleaned classes.length) (chunkSize : ℕ)
    (file : List Row) : Except PyError (Confusion classes.length) :=
  (file.toChunks chunkSize).foldlM (confuseChunk env classes booster) fun _ _ => 0

end definitions

/-- The training report. -/
structure TrainingReport (n : ℕ) where
  metrics : Metrics n
  rows : ℤ
  labelDistribution : List (String × ℤ)

/-- The encoder and the report `train_model` writes. -/
structure TrainedModel where
  classes : List String
  report : TrainingReport classes.length

/-- `train_model`, over a training file that may not be there. -/
def trainModel {Row Cleaned : Type} (env : TrainingEnv Row Cleaned) (file : Option (List Row))
    (chunkSize progressEvery : ℤ) : Except PyError TrainedModel :=
  match file with
  | none => .error .osError
  | some rows =>
    if chunkSize ≤ 0 then .error .valueError
    else if progressEvery ≤ 0 then .error .valueError
    else
      let labelCounts := countTrainingLabels env chunkSize.toNat rows
      if labelCounts.entries = [] then .error .valueError
      else do
        let classes := labelClasses labelCounts
        -- a call more than there are chunks: the last one finds the pass over
        let calls := (rows.toChunks chunkSize.toNat).length + 1
        let batches ← pullBatches env classes chunkSize.toNat rows calls {}
        let booster ← env.train classes.length batches
        let confusion ← streamConfusionMatrix env classes booster chunkSize.toNat rows
        let metrics ← metricsFromConfusionMatrix confusion classes.get
        return {
          classes := classes
          report := {
            metrics := metrics
            rows := (labelCounts.entries.map Prod.snd).sum
            labelDistribution := sortedCounter labelCounts } }

/-! ## What the report describes -/

theorem labelClasses_pairwise (counts : Counter String) :
    (labelClasses counts).Pairwise (· < ·) := by
  have hsorted : (labelClasses counts).Pairwise (· ≤ ·) :=
    List.pairwise_mergeSort' (· ≤ ·) counts.keys
  have hnodup : (labelClasses counts).Nodup :=
    (List.mergeSort_perm _ _).nodup_iff.mpr counts.nodup_keys
  exact (hsorted.and hnodup).imp fun ⟨hle, hne⟩ => lt_of_le_of_ne hle hne

/-- The distribution lists the classes in their order. -/
theorem map_fst_sortedCounter (counts : Counter String) :
    (sortedCounter counts).map Prod.fst = labelClasses counts := by
  have hperm : ((sortedCounter counts).map Prod.fst).Perm (labelClasses counts) :=
    ((List.mergeSort_perm _ _).map Prod.fst).trans (List.mergeSort_perm _ _).symm
  have hsorted : ((sortedCounter counts).map Prod.fst).Pairwise (· ≤ ·) := by
    rw [List.pairwise_map]
    exact List.pairwise_mergeSort' (fun a b : String × ℤ => a.1 ≤ b.1) counts.entries
  exact hperm.eq_of_pairwise (fun _ _ _ _ => le_antisymm) hsorted
    ((labelClasses_pairwise counts).imp le_of_lt)

theorem sortedCounter_of (labels : List String) :
    sortedCounter (Counter.of labels) =
      (labelClasses (Counter.of labels)).map fun label => (label, (labels.count label : ℤ)) := by
  rw [← map_fst_sortedCounter, List.map_map]
  refine (List.map_id' _).symm.trans (List.map_congr_left fun entry hentry => ?_)
  obtain ⟨-, hcount⟩ := (Counter.mem_entries_of labels entry.1 entry.2).mp
    (List.mem_mergeSort.mp hentry)
  exact Prod.ext rfl hcount

/-- The counts add up to the number of labels. -/
theorem sum_counts_of (labels : List String) :
    ((Counter.of labels).entries.map Prod.snd).sum = labels.length := by
  have hperm : (Counter.of labels).keys.Perm labels.dedup := by
    refine (List.perm_ext_iff_of_nodup (Counter.of labels).nodup_keys labels.nodup_dedup).mpr
      fun label => ?_
    rw [List.mem_dedup, ← mem_labelClasses labels label, labelClasses, List.mem_mergeSort]
  have hcounts : (Counter.of labels).entries.map Prod.snd =
      (Counter.of labels).keys.map fun label => (labels.count label : ℤ) := by
    unfold Dict.keys
    rw [List.map_map]
    exact List.map_congr_left fun entry hentry =>
      ((Counter.mem_entries_of labels entry.1 entry.2).mp hentry).2
  calc ((Counter.of labels).entries.map Prod.snd).sum
      = (labels.dedup.map fun label => (labels.count label : ℤ)).sum := by
        rw [hcounts]
        exact (hperm.map _).sum_eq
    _ = ((labels.dedup.map fun label => labels.count label).sum : ℕ) := by
        rw [Nat.cast_list_sum, List.map_map]
        rfl
    _ = labels.length := congrArg Nat.cast (List.sum_map_count_dedup_eq_length labels)

section report

variable {Row Cleaned : Type} {env : TrainingEnv Row Cleaned} {classes : List String}

/-- The booster's class for a row does not depend on the other rows of a matrix. -/
def Predicts {n : ℕ} (booster : Booster Cleaned n) (predict : Cleaned → Fin n) : Prop :=
  ∀ rows, rows ≠ [] → argmaxRows (booster rows) = .ok (rows.map predict)

theorem Predicts.eq {n : ℕ} {booster : Booster Cleaned n} {predict other : Cleaned → Fin n}
    (h : Predicts booster predict) (hother : Predicts booster other) : predict = other := by
  funext row
  have hone := (h [row] (List.cons_ne_nil _ _)).symm.trans (hother [row] (List.cons_ne_nil _ _))
  exact (List.cons.inj (Except.ok.inj hone)).1

variable (predict : Cleaned → Fin classes.length)

/-- The cells that the rows are counted in. -/
def cellsOf (env : TrainingEnv Row Cleaned) (rows : List Cleaned) :
    List (Fin classes.length × Fin classes.length) :=
  (encodeRows env classes rows).zip (rows.map predict)

theorem cellsOf_append {rows more : List Cleaned} (h : ∀ row ∈ rows, env.label row ∈ classes) :
    cellsOf predict env (rows ++ more) = cellsOf predict env rows ++ cellsOf predict env more := by
  unfold cellsOf
  rw [encodeRows_append, List.map_append, List.zip_append]
  rw [length_encodeRows h, List.length_map]

variable {predict} {booster : Booster Cleaned classes.length}

theorem confuseChunk_tally (hpredict : Predicts booster predict)
    (done : List (Fin classes.length × Fin classes.length))
    {chunk : List Row} (h : ∀ row ∈ chunk.filterMap env.clean, env.label row ∈ classes) :
    confuseChunk env classes booster (tally done) chunk =
      .ok (tally (done ++ cellsOf predict env (chunk.filterMap env.clean))) := by
  have hmapM := mapM_transform h
  unfold confuseChunk cellsOf
  generalize chunk.filterMap env.clean = cleaned at hmapM ⊢
  dsimp only
  split
  · next hempty =>
    rw [List.isEmpty_iff.mp hempty]
    simp [encodeRows]
  · next hne =>
    rw [hmapM, hpredict cleaned (by simpa using hne)]
    exact congrArg Except.ok (foldl_increment_tally _ done)

theorem foldlM_confuseChunk (hpredict : Predicts booster predict)
    (done : List (Fin classes.length × Fin classes.length)) {chunks : List (List Row)}
    (h : ∀ row ∈ chunks.flatten.filterMap env.clean, env.label row ∈ classes) :
    chunks.foldlM (confuseChunk env classes booster) (tally done) =
      .ok (tally (done ++ cellsOf predict env (chunks.flatten.filterMap env.clean))) := by
  induction chunks generalizing done with
  | nil => simp [cellsOf, encodeRows]; rfl
  | cons chunk chunks ih =>
    rw [List.flatten_cons, List.filterMap_append, List.forall_mem_append] at h
    rw [List.foldlM_cons, confuseChunk_tally hpredict done h.1, List.flatten_cons,
      List.filterMap_append, cellsOf_append predict h.1, ← List.append_assoc]
    exact ih _ h.2

theorem streamConfusionMatrix_eq (hpredict : Predicts booster predict) (chunkSize : ℕ)
    {file : List Row} (h : ∀ row ∈ file.filterMap env.clean, env.label row ∈ classes) :
    streamConfusionMatrix env classes booster chunkSize file =
      .ok (tally (cellsOf predict env (file.filterMap env.clean))) := by
  rw [← flatten_toChunks chunkSize file] at h
  have hrun := foldlM_confuseChunk hpredict [] h
  rw [flatten_toChunks, List.nil_append] at hrun
  exact hrun

theorem confuseChunk_vector {values : List ℚ} (confusion : Confusion classes.length)
    {chunk : List Row} (h : ∀ row ∈ chunk.filterMap env.clean, env.label row ∈ classes)
    (hne : chunk.filterMap env.clean ≠ [])
    (hvalues : booster (chunk.filterMap env.clean) = .vector values) :
    confuseChunk env classes booster confusion chunk = .error .valueError := by
  unfold confuseChunk
  dsimp only
  rw [if_neg (by simpa using hne), mapM_transform h, hvalues]
  rfl

/-- A booster with one number a row stops the pass at the first cleaned row. -/
theorem streamConfusionMatrix_vector (chunkSize : ℕ) {file : List Row}
    (hvector : ∀ rows, rows ≠ [] → ∃ values, booster rows = .vector values)
    (h : ∀ row ∈ file.filterMap env.clean, env.label row ∈ classes)
    (hne : file.filterMap env.clean ≠ []) :
    streamConfusionMatrix env classes booster chunkSize file = .error .valueError := by
  have hchunks (confusion : Confusion classes.length) (chunks : List (List Row))
      (h : ∀ row ∈ chunks.flatten.filterMap env.clean, env.label row ∈ classes)
      (hne : chunks.flatten.filterMap env.clean ≠ []) :
      chunks.foldlM (confuseChunk env classes booster) confusion = .error .valueError := by
    induction chunks with
    | nil => exact absurd rfl hne
    | cons chunk chunks ih =>
      rw [List.flatten_cons, List.filterMap_append] at hne
      rw [List.flatten_cons, List.filterMap_append, List.forall_mem_append] at h
      rw [List.foldlM_cons]
      by_cases hempty : chunk.filterMap env.clean = []
      · rw [hempty, List.nil_append] at hne
        unfold confuseChunk
        rw [hempty]
        exact ih h.2 hne
      · obtain ⟨values, hvalues⟩ := hvector _ hempty
        rw [confuseChunk_vector confusion h.1 hempty hvalues]
        rfl
  rw [← flatten_toChunks chunkSize file] at h hne
  exact hchunks _ _ h hne

variable (predict)

/-- The cells decode to the labels of the rows and what is predicted for them. -/
theorem map_get_cellsOf {rows : List Cleaned} (h : ∀ row ∈ rows, env.label row ∈ classes) :
    (cellsOf predict env rows).map (Prod.map classes.get id) =
      rows.map fun row => (env.label row, predict row) := by
  unfold cellsOf
  rw [← List.zip_map_left, map_get_encodeRows h, List.zip_map']

/-- A cell counts the rows with its label that are given its class. -/
theorem tally_cellsOf (hnodup : classes.Nodup) {rows : List Cleaned}
    (h : ∀ row ∈ rows, env.label row ∈ classes) (i j : Fin classes.length) :
    tally (cellsOf predict env rows) i j =
      rows.countP fun row => env.label row = classes.get i ∧ predict row = j := by
  have hrows := congrArg
    (List.countP fun pair : String × _ => pair.1 = classes.get i ∧ pair.2 = j)
    (map_get_cellsOf predict h)
  simp only [List.countP_map, Function.comp_def, Prod.map_fst, Prod.map_snd, id_eq,
    hnodup.injective_get.eq_iff] at hrows
  rw [tally_eq_countP]
  exact hrows

/-- The diagonal counts the rows that are given their own class. -/
theorem sum_diagonal_cellsOf (hnodup : classes.Nodup) {rows : List Cleaned}
    (h : ∀ row ∈ rows, env.label row ∈ classes) :
    ∑ i, tally (cellsOf predict env rows) i i =
      rows.countP fun row => env.label row = classes.get (predict row) := by
  have hrows := congrArg
    (List.countP fun pair : String × _ => pair.1 = classes.get pair.2) (map_get_cellsOf predict h)
  simp only [List.countP_map, Function.comp_def, Prod.map_fst, Prod.map_snd, id_eq,
    hnodup.injective_get.eq_iff] at hrows
  rw [sum_diagonal]
  exact hrows

/-- A row of the matrix adds up to the rows with its label. -/
theorem support_cellsOf (hnodup : classes.Nodup) {rows : List Cleaned}
    (h : ∀ row ∈ rows, env.label row ∈ classes) (i : Fin classes.length) :
    support (tally (cellsOf predict env rows)) i = (rows.map env.label).count (classes.get i) := by
  have hrows := congrArg (List.countP fun pair : String × Fin classes.length =>
    pair.1 = classes.get i) (map_get_cellsOf predict h)
  simp only [List.countP_map, Function.comp_def, Prod.map_fst, hnodup.injective_get.eq_iff]
    at hrows
  unfold support
  rw [sum_row, hrows, List.count_eq_countP, List.countP_map]
  rfl

theorem length_cellsOf {rows : List Cleaned} (h : ∀ row ∈ rows, env.label row ∈ classes) :
    (cellsOf predict env rows).length = rows.length := by
  simpa using congrArg List.length (map_get_cellsOf predict h)

theorem accuracyOf_cellsOf (hnodup : classes.Nodup) {rows : List Cleaned} (hne : rows ≠ [])
    (h : ∀ row ∈ rows, env.label row ∈ classes) :
    accuracyOf (tally (cellsOf predict env rows)) =
      (rows.countP fun row => env.label row = classes.get (predict row) : ℕ) / rows.length := by
  have hpos : (0 : ℚ) < rows.length := Nat.cast_pos.mpr (List.length_pos_iff.mpr hne)
  unfold accuracyOf diagonal ratio
  rw [sum_support, sum_all, length_cellsOf predict h, if_pos hpos, ← Nat.cast_sum,
    sum_diagonal_cellsOf predict hnodup h]

end report

/-- What is relied on of XGBoost: a booster for more than one class gives every row of a matrix
probabilities of its own, one for each class, and a booster for one class, where there is one, a
single number a row. -/
structure TrainingEnv.Softprob {Row Cleaned : Type} (env : TrainingEnv Row Cleaned) : Prop where
  rowwise : ∀ (n : ℕ) (batches : List (List Cleaned × List (Fin n))) (booster : Booster Cleaned n),
    2 ≤ n → env.train n batches = .ok booster →
    ∃ probabilities : Cleaned → Fin n → ℚ, ∀ rows, rows ≠ [] →
      booster rows = .table (rows.map probabilities)
  one_class : ∀ (n : ℕ) (batches : List (List Cleaned × List (Fin n)))
    (booster : Booster Cleaned n), n = 1 → env.train n batches = .ok booster →
    ∀ rows, rows ≠ [] → ∃ values, booster rows = .vector values

/-- A booster for more than one class predicts row by row. -/
theorem TrainingEnv.Softprob.predicts {Row Cleaned : Type} {env : TrainingEnv Row Cleaned}
    (h : env.Softprob) {n : ℕ} {batches : List (List Cleaned × List (Fin n))}
    {booster : Booster Cleaned n} (hn : 2 ≤ n) (htrain : env.train n batches = .ok booster) :
    ∃ predict, Predicts booster predict := by
  obtain ⟨probabilities, hrows⟩ := h.rowwise n batches booster hn htrain
  have hargmax (row : Cleaned) :
      ∃ index, (List.finRange n).argmax (probabilities row) = some index := by
    refine Option.ne_none_iff_exists'.mp fun hnone => ?_
    have hlength := congrArg List.length (List.argmax_eq_none.mp hnone)
    rw [List.length_finRange, List.length_nil] at hlength
    omega
  choose predict hpredict using hargmax
  refine ⟨predict, fun rows hne => ?_⟩
  rw [hrows rows hne]
  clear hne hrows
  unfold argmaxRows
  induction rows with
  | nil => rfl
  | cons row rows ih =>
    dsimp only at ih ⊢
    rw [List.map_cons, List.mapM_cons, ih, hpredict]
    rfl

/-- The rows by which the report's matrix has them under each class. -/
def TrainedModel.supports (model : TrainedModel) : List (String × ℚ) :=
  List.ofFn fun i => (model.classes.get i, support model.report.metrics.confusionMatrix i)

/-- What the encoder and the report say of the cleaned rows, with the predictions of the
booster that was trained with the batches of this chunk size. -/
structure TrainedModel.Describes {Row Cleaned : Type} (model : TrainedModel)
    (env : TrainingEnv Row Cleaned) (chunkSize : ℕ) (file : List Row) : Prop where
  classes_sorted : model.classes.Pairwise (· < ·)
  mem_classes : ∀ label, label ∈ model.classes ↔ label ∈ (file.filterMap env.clean).map env.label
  rows_counted : model.report.rows = (file.filterMap env.clean).length
  labelDistribution : model.report.labelDistribution = model.classes.map fun label =>
    (label, (((file.filterMap env.clean).map env.label).count label : ℤ))
  supports : model.supports = model.classes.map fun label =>
    (label, (((file.filterMap env.clean).map env.label).count label : ℚ))
  metrics : ∃ booster predict,
    env.train model.classes.length (batchesOf env model.classes (file.toChunks chunkSize)) =
      .ok booster ∧
    Predicts booster predict ∧
    let rows := file.filterMap env.clean
    let metrics := model.report.metrics
    metricsFromConfusionMatrix metrics.confusionMatrix model.classes.get = .ok metrics ∧
      (∀ i j, metrics.confusionMatrix i j =
        rows.countP fun row => env.label row = model.classes.get i ∧ predict row = j) ∧
      metrics.accuracy =
        (rows.countP fun row => env.label row = model.classes.get (predict row) : ℕ) / rows.length

section trained

variable {Row Cleaned : Type} (env : TrainingEnv Row Cleaned) (rows : List Cleaned)

/-- What `train_model` gives on cleaned rows with a booster that predicts so. -/
def trainedOn (predict : Cleaned → Fin (labelClasses (Counter.of (rows.map env.label))).length) :
    Except PyError TrainedModel := do
  let labelCounts := Counter.of (rows.map env.label)
  let classes := labelClasses labelCounts
  let metrics ← metricsFromConfusionMatrix (tally (cellsOf predict env rows)) classes.get
  return {
    classes := classes
    report := {
      metrics := metrics
      rows := (labelCounts.entries.map Prod.snd).sum
      labelDistribution := sortedCounter labelCounts } }

/-- The classes of a file: the labels of its cleaned rows, sorted. -/
abbrev classesOf (file : List Row) : List String :=
  labelClasses (Counter.of ((file.filterMap env.clean).map env.label))

/-- What XGBoost makes of the batches of a file. -/
abbrev boosterOf (chunkSize : ℕ) (file : List Row) :
    Except PyError (Booster Cleaned (classesOf env file).length) :=
  env.train _ (batchesOf env (classesOf env file) (file.toChunks chunkSize))

variable {env rows}

theorem entries_of_eq_nil_iff (labels : List String) :
    (Counter.of labels).entries = [] ↔ labels = [] := by
  constructor
  · intro h
    have hsum := sum_counts_of labels
    rw [h] at hsum
    exact List.length_eq_zero_iff.mp (Nat.cast_eq_zero.mp hsum.symm)
  · rintro rfl
    rfl

/-- With positive sizes and a row left, the booster decides. -/
theorem trainModel_eq {file : List Row} {chunkSize progressEvery : ℤ} (hchunk : 0 < chunkSize)
    (hprogress : 0 < progressEvery) (hne : file.filterMap env.clean ≠ []) :
    trainModel env (some file) chunkSize progressEvery = (do
      let labelCounts := Counter.of ((file.filterMap env.clean).map env.label)
      let booster ← boosterOf env chunkSize.toNat file
      let confusion ← streamConfusionMatrix env (classesOf env file) booster chunkSize.toNat file
      let metrics ← metricsFromConfusionMatrix confusion (classesOf env file).get
      return {
        classes := classesOf env file
        report := {
          metrics := metrics
          rows := (labelCounts.entries.map Prod.snd).sum
          labelDistribution := sortedCounter labelCounts } }) := by
  have hentries : (Counter.of ((file.filterMap env.clean).map env.label)).entries ≠ [] := by
    rw [Ne, entries_of_eq_nil_iff, List.map_eq_nil_iff]
    exact hne
  unfold trainModel
  dsimp only
  rw [if_neg (not_le.mpr hchunk), if_neg (not_le.mpr hprogress)]
  generalize hcounts : countTrainingLabels env chunkSize.toNat file = counts
  rw [countTrainingLabels_eq] at hcounts
  subst hcounts
  rw [if_neg hentries, pullBatches_eq label_mem_labelClasses]
  rfl

theorem trainModel_of_predicts {file : List Row} {chunkSize progressEvery : ℤ}
    {booster : Booster Cleaned _} {predict : Cleaned → Fin _}
    (hchunk : 0 < chunkSize) (hprogress : 0 < progressEvery)
    (hne : file.filterMap env.clean ≠ [])
    (htrain : boosterOf env chunkSize.toNat file = .ok booster)
    (hpredict : Predicts booster predict) :
    trainModel env (some file) chunkSize progressEvery =
      trainedOn env (file.filterMap env.clean) predict := by
  rw [trainModel_eq hchunk hprogress hne]
  dsimp only
  rw [htrain]
  simp only [bind, Except.bind]
  rw [streamConfusionMatrix_eq hpredict _ label_mem_labelClasses]
  rfl

/-- There are two classes exactly if there are two labels. -/
theorem two_le_length_labelClasses_iff (labels : List String) :
    2 ≤ (labelClasses (Counter.of labels)).length ↔ ∃ a ∈ labels, ∃ b ∈ labels, a ≠ b := by
  have hnodup : (labelClasses (Counter.of labels)).Nodup :=
    (labelClasses_pairwise _).imp ne_of_lt
  rw [← List.toFinset_card_of_nodup hnodup, Nat.succ_le_iff, Finset.one_lt_card]
  simp only [List.mem_toFinset, mem_labelClasses labels]

theorem trainModel_nil {file : List Row} {chunkSize progressEvery : ℤ} (hchunk : 0 < chunkSize)
    (hprogress : 0 < progressEvery) (hnil : file.filterMap env.clean = []) :
    trainModel env (some file) chunkSize progressEvery = .error .valueError := by
  unfold trainModel
  dsimp only
  rw [if_neg (not_le.mpr hchunk), if_neg (not_le.mpr hprogress), countTrainingLabels_eq, hnil]
  rfl

/-- The rows of one label train a booster whose predictions have one axis. -/
theorem trainModel_of_one_label (hsoftprob : env.Softprob) {file : List Row}
    {chunkSize progressEvery : ℤ} (hchunk : 0 < chunkSize) (hprogress : 0 < progressEvery)
    (hone : ¬ ∃ a ∈ (file.filterMap env.clean).map env.label,
      ∃ b ∈ (file.filterMap env.clean).map env.label, a ≠ b) :
    ∃ e, trainModel env (some file) chunkSize progressEvery = .error e := by
  by_cases hnil : file.filterMap env.clean = []
  · exact ⟨_, trainModel_nil hchunk hprogress hnil⟩
  have hlength : (classesOf env file).length = 1 := by
    obtain ⟨row, hrow⟩ := List.exists_mem_of_ne_nil _ hnil
    have hclass : env.label row ∈ classesOf env file := label_mem_labelClasses row hrow
    have hpos := List.length_pos_of_mem hclass
    have hlt : ¬ 2 ≤ (classesOf env file).length :=
      fun htwo => hone ((two_le_length_labelClasses_iff _).mp htwo)
    omega
  rw [trainModel_eq hchunk hprogress hnil]
  dsimp only
  cases htrain : boosterOf env chunkSize.toNat file with
  | error e => exact ⟨e, rfl⟩
  | ok booster =>
    have hvector := hsoftprob.one_class _ _ booster hlength htrain
    simp only [bind, Except.bind]
    rw [streamConfusionMatrix_vector _ hvector label_mem_labelClasses hnil]
    exact ⟨_, rfl⟩

/-- Sizes that are not positive are refused. -/
theorem trainModel_refuses {file : List Row} {chunkSize progressEvery : ℤ}
    (h : ¬ (0 < chunkSize ∧ 0 < progressEvery)) :
    trainModel env (some file) chunkSize progressEvery = .error .valueError := by
  unfold trainModel
  dsimp only
  by_cases hchunk : chunkSize ≤ 0
  · rw [if_pos hchunk]
  · have hprogress : progressEvery ≤ 0 := not_lt.mp fun hpos => h ⟨not_le.mp hchunk, hpos⟩
    rw [if_neg hchunk, if_pos hprogress]

theorem ne_nil_of_two_labels {cleaned : List Cleaned}
    (htwo : ∃ a ∈ cleaned.map env.label, ∃ b ∈ cleaned.map env.label, a ≠ b) : cleaned ≠ [] := by
  rintro rfl
  obtain ⟨a, ha, -⟩ := htwo
  exact List.not_mem_nil ha

/-- A booster for two labels gives a model, with its classes for the rows. -/
theorem trainModel_of_two_labels (hsoftprob : env.Softprob) {file : List Row}
    {chunkSize progressEvery : ℤ} {booster : Booster Cleaned _} (hchunk : 0 < chunkSize)
    (hprogress : 0 < progressEvery)
    (htwo : ∃ a ∈ (file.filterMap env.clean).map env.label,
      ∃ b ∈ (file.filterMap env.clean).map env.label, a ≠ b)
    (htrain : boosterOf env chunkSize.toNat file = .ok booster) :
    ∃ predict, Predicts booster predict ∧
      trainModel env (some file) chunkSize progressEvery =
        trainedOn env (file.filterMap env.clean) predict := by
  obtain ⟨predict, hpredict⟩ :=
    hsoftprob.predicts ((two_le_length_labelClasses_iff _).mpr htwo) htrain
  exact ⟨predict, hpredict,
    trainModel_of_predicts hchunk hprogress (ne_nil_of_two_labels htwo) htrain hpredict⟩

theorem trainedOn_describes {file : List Row} {chunkSize : ℕ} {booster : Booster Cleaned _}
    {predict : Cleaned → Fin _} (hne : file.filterMap env.clean ≠ [])
    (htrain : boosterOf env chunkSize file = .ok booster)
    (hpredict : Predicts booster predict) :
    ∃ model, trainedOn env (file.filterMap env.clean) predict = .ok model ∧
      model.Describes env chunkSize file := by
  have hsorted := labelClasses_pairwise (Counter.of ((file.filterMap env.clean).map env.label))
  have hnodup := hsorted.imp ne_of_lt
  unfold trainedOn
  simp only [metricsFromConfusionMatrix_eq]
  refine ⟨_, rfl, ?_⟩
  exact {
    classes_sorted := hsorted
    mem_classes := mem_labelClasses _
    rows_counted := (sum_counts_of _).trans (by rw [List.length_map])
    labelDistribution := sortedCounter_of _
    supports := by
      unfold TrainedModel.supports
      simp only [support_cellsOf predict hnodup label_mem_labelClasses]
      exact List.ofFn_getElem_eq_map _ fun label =>
        (label, (((file.filterMap env.clean).map env.label).count label : ℚ))
    metrics := ⟨booster, predict, htrain, hpredict, metricsFromConfusionMatrix_eq _ _,
      tally_cellsOf _ hnodup label_mem_labelClasses,
      accuracyOf_cellsOf _ hnodup hne label_mem_labelClasses⟩ }

theorem classes_of_trainedOn {predict : Cleaned → Fin _} {model : TrainedModel}
    (h : trainedOn env rows predict = .ok model) :
    model.classes = labelClasses (Counter.of (rows.map env.label)) := by
  unfold trainedOn at h
  simp only [metricsFromConfusionMatrix_eq] at h
  rw [← Except.ok.inj h]

/-- What a training needs. -/
theorem conditions_of_trainModel (hsoftprob : env.Softprob) {file : List Row}
    {chunkSize progressEvery : ℤ} {model : TrainedModel}
    (h : trainModel env (some file) chunkSize progressEvery = .ok model) :
    0 < chunkSize ∧ 0 < progressEvery ∧
      (∃ a ∈ (file.filterMap env.clean).map env.label,
        ∃ b ∈ (file.filterMap env.clean).map env.label, a ≠ b) ∧
      ∃ booster, boosterOf env chunkSize.toNat file = .ok booster := by
  by_cases hpos : 0 < chunkSize ∧ 0 < progressEvery
  · have htwo : ∃ a ∈ (file.filterMap env.clean).map env.label,
        ∃ b ∈ (file.filterMap env.clean).map env.label, a ≠ b := by
      by_contra hone
      obtain ⟨e, he⟩ := trainModel_of_one_label hsoftprob hpos.1 hpos.2 hone
      rw [he] at h
      cases h
    refine ⟨hpos.1, hpos.2, htwo, ?_⟩
    rw [trainModel_eq hpos.1 hpos.2 (ne_nil_of_two_labels htwo)] at h
    dsimp only at h
    cases htrain : boosterOf env chunkSize.toNat file with
    | ok booster => exact ⟨booster, rfl⟩
    | error e =>
      rw [htrain] at h
      cases h
  · rw [trainModel_refuses hpos] at h
    cases h

/-- What a training that succeeds comes from, and what its report describes. -/
theorem trainedOn_of_trainModel (hsoftprob : env.Softprob) {file : List Row}
    {chunkSize progressEvery : ℤ} {model : TrainedModel}
    (h : trainModel env (some file) chunkSize progressEvery = .ok model) :
    ∃ booster predict,
      boosterOf env chunkSize.toNat file = .ok booster ∧ Predicts booster predict ∧
      trainedOn env (file.filterMap env.clean) predict = .ok model ∧
      model.Describes env chunkSize.toNat file := by
  obtain ⟨hchunk, hprogress, htwo, booster, htrain⟩ := conditions_of_trainModel hsoftprob h
  obtain ⟨predict, hpredict, heq⟩ :=
    trainModel_of_two_labels hsoftprob hchunk hprogress htwo htrain
  obtain ⟨trained, htrained, hdescribes⟩ :=
    trainedOn_describes (ne_nil_of_two_labels htwo) htrain hpredict
  obtain rfl : trained = model := Except.ok.inj ((heq.trans htrained).symm.trans h)
  exact ⟨booster, predict, htrain, hpredict, htrained, hdescribes⟩

end trained

/-- A training succeeds exactly with positive sizes, a file that has rows of two labels left by
the cleaning, and batches of them that XGBoost trains with.  Its report then describes those
rows, each counted once in every part of it.  Another chunk size cuts other batches for the
booster, which may then predict otherwise: the classes, their rows and the distribution stay,
and the whole report does where the same booster comes out. -/
theorem training_report {Row Cleaned : Type} (env : TrainingEnv Row Cleaned)
    (hsoftprob : env.Softprob) (file : List Row) (chunkSize progressEvery : ℤ) :
    let labels := (file.filterMap env.clean).map env.label
    ((∃ model, trainModel env (some file) chunkSize progressEvery = .ok model) ↔
      0 < chunkSize ∧ 0 < progressEvery ∧ (∃ a ∈ labels, ∃ b ∈ labels, a ≠ b) ∧
        ∃ booster, boosterOf env chunkSize.toNat file = .ok booster) ∧
    ∀ model, trainModel env (some file) chunkSize progressEvery = .ok model →
      model.Describes env chunkSize.toNat file ∧
      ∀ other every again, trainModel env (some file) other every = .ok again →
        again.classes = model.classes ∧ again.supports = model.supports ∧
          again.report.rows = model.report.rows ∧
          again.report.labelDistribution = model.report.labelDistribution ∧
          (boosterOf env other.toNat file = boosterOf env chunkSize.toNat file → again = model) := by
  intro labels
  refine ⟨⟨?_, ?_⟩, fun model hmodel => ?_⟩
  · rintro ⟨model, hmodel⟩
    exact conditions_of_trainModel hsoftprob hmodel
  · rintro ⟨hchunk, hprogress, htwo, booster, htrain⟩
    obtain ⟨predict, hpredict, heq⟩ :=
      trainModel_of_two_labels hsoftprob hchunk hprogress htwo htrain
    obtain ⟨model, hmodel, -⟩ :=
      trainedOn_describes (ne_nil_of_two_labels htwo) htrain hpredict
    exact ⟨model, heq.trans hmodel⟩
  · obtain ⟨booster, predict, htrain, hpredict, htrained, hdescribes⟩ :=
      trainedOn_of_trainModel hsoftprob hmodel
    refine ⟨hdescribes, fun other every again hagain => ?_⟩
    obtain ⟨another, guess, htrain', hguess, htrained', hdescribes'⟩ :=
      trainedOn_of_trainModel hsoftprob hagain
    have hclasses : again.classes = model.classes :=
      (classes_of_trainedOn htrained').trans (classes_of_trainedOn htrained).symm
    refine ⟨hclasses, ?_, ?_, ?_, fun hsame => ?_⟩
    · rw [hdescribes'.supports, hdescribes.supports, hclasses]
    · rw [hdescribes'.rows_counted, hdescribes.rows_counted]
    · rw [hdescribes'.labelDistribution, hdescribes.labelDistribution, hclasses]
    · rw [htrain, htrain'] at hsame
      obtain rfl : another = booster := Except.ok.inj hsame
      obtain rfl : guess = predict := hguess.eq hpredict
      exact Except.ok.inj (htrained'.symm.trans htrained)

/-- Rows with the same features, of which a booster learns how frequent the classes are. -/
def frequencyTraining : TrainingEnv (Option String) String where
  clean := id
  label := id
  train n batches := .ok fun rows =>
    let labels := batches.flatMap Prod.snd
    if n = 1 then .vector (rows.map fun _ => 1)
    else .table (rows.map fun _ j => labels.count j / labels.length)

theorem frequencyTraining_softprob : frequencyTraining.Softprob where
  rowwise n batches booster hn htrain := by
    rw [← Except.ok.inj htrain]
    exact ⟨_, fun rows _ => if_neg (by omega)⟩
  one_class n batches booster hn htrain rows _ := by
    rw [← Except.ok.inj htrain]
    exact ⟨_, if_pos hn⟩

theorem training_report_frequency :
    (∃ model, trainModel frequencyTraining
        (some [some "DoS", none, some "Normal Traffic", some "DoS"]) 2 20 = .ok model ∧
      model.report.rows = 3) ∧
    ¬ ∃ model, trainModel frequencyTraining (some [some "DoS", none, some "DoS"]) 2 20 =
      .ok model := by
  constructor
  · have hreport := training_report _ frequencyTraining_softprob
      [some "DoS", none, some "Normal Traffic", some "DoS"] 2 20
    obtain ⟨model, hmodel⟩ := hreport.1.mpr
      ⟨by decide, by decide, ⟨"DoS", by decide, "Normal Traffic", by decide, by decide⟩, _, rfl⟩
    exact ⟨model, hmodel, (hreport.2 model hmodel).1.rows_counted⟩
  · rintro hmodel
    obtain ⟨-, -, ⟨a, ha, b, hb, hne⟩, -⟩ := (training_report _ frequencyTraining_softprob
      [some "DoS", none, some "DoS"] 2 20).1.mp hmodel
    have hlabel (c : String) (hc : c ∈ (([some "DoS", none, some "DoS"].filterMap
        frequencyTraining.clean).map frequencyTraining.label)) : c = "DoS" := by
      simpa [frequencyTraining] using hc
    exact hne ((hlabel a ha).trans (hlabel b hb).symm)

end SmartIDS.ML
