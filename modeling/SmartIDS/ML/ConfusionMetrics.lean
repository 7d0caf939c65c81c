import Mathlib.Data.Rat.Cast.Order
import Mathlib.Data.Set.Function
import Mathlib.Order.Interval.Set.Basic
import SmartIDS.Foundation.Dict
import SmartIDS.Foundation.Ratios
import SmartIDS.Python.Value
set_option autoImplicit false

/-!
# ML: the metrics of a confusion matrix

`_metrics_from_confusion_matrix` of `train_xgboost_cicids2018.py`, with rationals for the
doubles.  A division by zero, which numpy answers with an infinity or NaN, is an error here.
-/

namespace SmartIDS.ML

open SmartIDS.Foundation SmartIDS.Foundation.Ratios SmartIDS.Python

/-- How many rows of each actual class (first) were given each predicted class. -/
abbrev Confusion (n : ℕ) : Type := Fin n → Fin n → ℕ

/-- The four numbers of a class in the report; `recallScore` is its `recall`. -/
structure Scores where
  precision : ℚ
  recallScore : ℚ
  f1Score : ℚ
  support : ℚ
  deriving DecidableEq

/-- An entry of the classification report. -/
inductive ReportEntry where
  | scores (scores : Scores)
  | number (value : ℚ)
  deriving DecidableEq

/-- The dictionary `_metrics_from_confusion_matrix` returns. -/
structure Metrics (n : ℕ) where
  accuracy : ℚ
  precisionWeighted : ℚ
  recallWeighted : ℚ
  f1Weighted : ℚ
  confusionMatrix : Confusion n
  classificationReport : Dict String ReportEntry

/-- The division of two numbers. -/
def trueDivide (a b : ℚ) : Except PyError ℚ := if b = 0 then .error .other else .ok (a / b)

section

variable {n : ℕ}

/-- `np.divide(a, b, out=np.zeros_like(a), where=mask)`. -/
def divideWhere (a b : Fin n → ℚ) (mask : Fin n → Bool) : Except PyError (Fin n → ℚ) :=
  if ∃ i, mask i = true ∧ b i = 0 then .error .other
  else .ok fun i => if mask i then a i / b i else 0

variable (confusion : Confusion n)

/-- `np.diag(confusion)`. -/
def diagonal (i : Fin n) : ℚ := confusion i i

/-- `confusion.sum(axis=1)`. -/
def support (i : Fin n) : ℚ := (∑ j, confusion i j : ℕ)

/-- `confusion.sum(axis=0)`. -/
def predicted (j : Fin n) : ℚ := (∑ i, confusion i j : ℕ)

/-- The arrays `precision_per_class`, `recall_per_class` and `f1_per_class`, with the support. -/
def scoresPerClass : Except PyError (Fin n → Scores) := do
  let precisionPerClass ← divideWhere (diagonal confusion) (predicted confusion)
    fun i => 0 < predicted confusion i
  let recallPerClass ← divideWhere (diagonal confusion) (support confusion)
    fun i => 0 < support confusion i
  let f1PerClass ← divideWhere (fun i => 2 * precisionPerClass i * recallPerClass i)
    (fun i => precisionPerClass i + recallPerClass i)
    fun i => 0 < precisionPerClass i + recallPerClass i
  return fun i =>
    ⟨precisionPerClass i, recallPerClass i, f1PerClass i, support confusion i⟩

/-- The value of `accuracy`. -/
def accuracyScore : Except PyError ℚ :=
  let total := ∑ i, ∑ j, confusion i j
  if total = 0 then .ok 0 else trueDivide (∑ i, diagonal confusion i) total

/-- `_metrics_from_confusion_matrix`. -/
def metricsFromConfusionMatrix (labelNames : Fin n → String) : Except PyError (Metrics n) := do
  let scores ← scoresPerClass confusion
  let supportSum := ∑ i, support confusion i
  let weightedDivisor := if 0 < supportSum then supportSum else 1
  let weightedPrecision ←
    trueDivide (∑ i, (scores i).precision * support confusion i) weightedDivisor
  let weightedRecall ←
    trueDivide (∑ i, (scores i).recallScore * support confusion i) weightedDivisor
  let weightedF1 ← trueDivide (∑ i, (scores i).f1Score * support confusion i) weightedDivisor
  let accuracy ← accuracyScore confusion
  let report := Dict.tabulate labelNames (fun i => .scores (scores i)) (List.finRange n)
  let report := report.set "accuracy" (.number accuracy)
  let report := report.set "weighted avg"
    (.scores ⟨weightedPrecision, weightedRecall, weightedF1, weightedDivisor⟩)
  return {
    accuracy := accuracy
    precisionWeighted := weightedPrecision
    recallWeighted := weightedRecall
    f1Weighted := weightedF1
    confusionMatrix := confusion
    classificationReport := report }

/-! ## What is computed -/

/-- The scores of a class, as shares of its column and of its row. -/
def classScores (i : Fin n) : Scores :=
  let ofPredicted := ratio (diagonal confusion i) (predicted confusion i)
  let ofSupport := ratio (diagonal confusion i) (support confusion i)
  ⟨ofPredicted, ofSupport, harmonicMean ofPredicted ofSupport, support confusion i⟩

/-- The mean of a score by support. -/
def weightedScore (score : Scores → ℚ) : ℚ :=
  weightedMean (fun i => score (classScores confusion i)) (support confusion)

/-- The share of the rows that were given their own class. -/
def accuracyOf : ℚ := ratio (∑ i, diagonal confusion i) (∑ i, support confusion i)

theorem divideWhere_pos (a b : Fin n → ℚ) :
    divideWhere a b (fun i => 0 < b i) = .ok fun i => ratio (a i) (b i) := by
  have hdefined : ¬ ∃ i, decide (0 < b i) = true ∧ b i = 0 := by
    rintro ⟨i, hpos, hzero⟩
    rw [decide_eq_true_iff, hzero] at hpos
    exact lt_irrefl 0 hpos
  unfold divideWhere
  rw [if_neg hdefined]
  simp only [decide_eq_true_iff, ratio]

theorem scoresPerClass_eq : scoresPerClass confusion = .ok (classScores confusion) := by
  unfold scoresPerClass
  simp only [divideWhere_pos]
  rfl

theorem trueDivide_divisor (a : ℚ) (w : Fin n → ℚ) :
    trueDivide a (divisor w) = .ok (a / divisor w) :=
  if_neg (divisor_pos w).ne'

theorem sum_support : ∑ i, support confusion i = ((∑ i, ∑ j, confusion i j : ℕ) : ℚ) :=
  (Nat.cast_sum _ _).symm

theorem accuracyScore_eq : accuracyScore confusion = .ok (accuracyOf confusion) := by
  unfold accuracyScore accuracyOf ratio trueDivide
  rw [sum_support]
  rcases Nat.eq_zero_or_pos (∑ i, ∑ j, confusion i j) with h | h
  · rw [h]
    rfl
  · rw [if_neg h.ne', if_neg (Nat.cast_pos.mpr h).ne', if_pos (Nat.cast_pos.mpr h)]

variable (labelNames : Fin n → String)

/-- The report, from the scores of the classes and the aggregates. -/
def reportOf : Dict String ReportEntry :=
  ((Dict.tabulate labelNames (fun i => .scores (classScores confusion i)) (List.finRange n)).set
    "accuracy" (.number (accuracyOf confusion))).set "weighted avg"
      (.scores ⟨weightedScore confusion Scores.precision,
        weightedScore confusion Scores.recallScore, weightedScore confusion Scores.f1Score,
        divisor (support confusion)⟩)

/-- The keys of the report for all classes. -/
def aggregateKeys : List String := ["accuracy", "weighted avg"]

theorem metricsFromConfusionMatrix_eq :
    metricsFromConfusionMatrix confusion labelNames = .ok {
      accuracy := accuracyOf confusion
      precisionWeighted := weightedScore confusion Scores.precision
      recallWeighted := weightedScore confusion Scores.recallScore
      f1Weighted := weightedScore confusion Scores.f1Score
      confusionMatrix := confusion
      classificationReport := reportOf confusion labelNames } := by
  have hdivisor : (if 0 < ∑ i, support confusion i then ∑ i, support confusion i else 1) =
      divisor (support confusion) := rfl
  unfold metricsFromConfusionMatrix
  rw [scoresPerClass_eq]
  simp only [bind, Except.bind, hdivisor, trueDivide_divisor, accuracyScore_eq]
  rfl

/-! ## Bounds -/

theorem diagonal_nonneg (i : Fin n) : 0 ≤ diagonal confusion i := Nat.cast_nonneg _

theorem support_nonneg (i : Fin n) : 0 ≤ support confusion i := Nat.cast_nonneg _

theorem diagonal_le_support (i : Fin n) : diagonal confusion i ≤ support confusion i :=
  Nat.cast_le.mpr
    (Finset.single_le_sum (f := confusion i) (fun _ _ => Nat.zero_le _) (Finset.mem_univ i))

theorem diagonal_le_predicted (i : Fin n) : diagonal confusion i ≤ predicted confusion i :=
  Nat.cast_le.mpr
    (Finset.single_le_sum (f := fun k => confusion k i) (fun _ _ => Nat.zero_le _)
      (Finset.mem_univ i))

/-- The three shares among the scores are shares, and F1 is between the other two. -/
structure Scores.Consistent (s : Scores) : Prop where
  precision : s.precision ∈ Set.Icc 0 1
  recallScore : s.recallScore ∈ Set.Icc 0 1
  f1Score : s.f1Score ∈ Set.Icc 0 1
  f1Score_between :
    s.f1Score ∈ Set.Icc (min s.precision s.recallScore) (max s.precision s.recallScore)

theorem classScores_consistent (i : Fin n) : (classScores confusion i).Consistent := by
  have hp : ratio (diagonal confusion i) (predicted confusion i) ∈ Set.Icc (0 : ℚ) 1 :=
    ⟨ratio_nonneg (diagonal_nonneg confusion i), ratio_le_one (diagonal_le_predicted confusion i)⟩
  have hr : ratio (diagonal confusion i) (support confusion i) ∈ Set.Icc (0 : ℚ) 1 :=
    ⟨ratio_nonneg (diagonal_nonneg confusion i), ratio_le_one (diagonal_le_support confusion i)⟩
  have hmin := min_le_harmonicMean hp.1 hr.1
  have hmax := harmonicMean_le_max hp.1 hr.1
  exact {
    precision := hp
    recallScore := hr
    f1Score := ⟨(le_min hp.1 hr.1).trans hmin, hmax.trans (max_le hp.2 hr.2)⟩
    f1Score_between := ⟨hmin, hmax⟩ }

theorem weightedScore_mem {score : Scores → ℚ}
    (h : ∀ i, score (classScores confusion i) ∈ Set.Icc 0 1) :
    weightedScore confusion score ∈ Set.Icc 0 1 :=
  ⟨weightedMean_nonneg (fun i => (h i).1) (support_nonneg confusion),
    weightedMean_le_one (fun i => (h i).2) (support_nonneg confusion)⟩

/-- The recall of a class undoes its weight. -/
theorem weightedScore_recall : weightedScore confusion Scores.recallScore = accuracyOf confusion :=
  weightedMean_ratio (diagonal_nonneg confusion) (diagonal_le_support confusion)

theorem accuracyOf_mem : accuracyOf confusion ∈ Set.Icc 0 1 := by
  rw [← weightedScore_recall]
  exact weightedScore_mem confusion fun i => (classScores_consistent confusion i).recallScore

/-! ## Another order of the classes -/

section permuted

variable (σ : Equiv.Perm (Fin n))

/-- The matrix with its classes in another order. -/
def Confusion.permute : Confusion n := fun i j => confusion (σ i) (σ j)

theorem support_permute (i : Fin n) :
    support (confusion.permute σ) i = support confusion (σ i) :=
  congrArg Nat.cast (Equiv.sum_comp σ (confusion (σ i)))

theorem predicted_permute (i : Fin n) :
    predicted (confusion.permute σ) i = predicted confusion (σ i) :=
  congrArg Nat.cast (Equiv.sum_comp σ fun k => confusion k (σ i))

theorem classScores_permute (i : Fin n) :
    classScores (confusion.permute σ) i = classScores confusion (σ i) := by
  unfold classScores
  rw [support_permute, predicted_permute]
  rfl

theorem weightedScore_permute (score : Scores → ℚ) :
    weightedScore (confusion.permute σ) score = weightedScore confusion score := by
  have hscores : (fun i => score (classScores (confusion.permute σ) i)) =
      (fun i => score (classScores confusion i)) ∘ σ :=
    funext fun i => congrArg score (classScores_permute confusion σ i)
  have hsupport : support (confusion.permute σ) = support confusion ∘ σ :=
    funext (support_permute confusion σ)
  unfold weightedScore
  rw [hscores, hsupport, weightedMean_comp]

theorem accuracyOf_permute : accuracyOf (confusion.permute σ) = accuracyOf confusion := by
  rw [← weightedScore_recall, ← weightedScore_recall, weightedScore_permute]

theorem divisor_support_permute :
    divisor (support (confusion.permute σ)) = divisor (support confusion) := by
  rw [funext (support_permute confusion σ)]
  exact divisor_comp (support confusion) σ

/-- The entries of the report stay, whatever the order of distinct classes. -/
theorem reportOf_permute (h : Function.Injective labelNames) (key : String) :
    (reportOf (confusion.permute σ) (labelNames ∘ σ)).get? key =
      (reportOf confusion labelNames).get? key := by
  have hclasses : (Dict.tabulate (labelNames ∘ σ)
      (fun i => ReportEntry.scores (classScores (confusion.permute σ) i)) (List.finRange n)).get?
        key =
      (Dict.tabulate labelNames (fun i => ReportEntry.scores (classScores confusion i))
        (List.finRange n)).get? key := by
    apply Option.ext
    intro entry
    rw [Dict.get?_tabulate_iff _ _ _ (h.comp σ.injective), Dict.get?_tabulate_iff _ _ _ h]
    simp only [List.mem_finRange, true_and, classScores_permute, Function.comp_apply]
    exact (σ.surjective.exists (p := fun i => labelNames i = key ∧
      ReportEntry.scores (classScores confusion i) = entry)).symm
  unfold reportOf
  simp only [weightedScore_permute, accuracyOf_permute, divisor_support_permute, Dict.get?_set,
    hclasses]

theorem reportOf_permute_aggregate {key : String} (h : key ∈ aggregateKeys) :
    (reportOf (confusion.permute σ) (labelNames ∘ σ)).get? key =
      (reportOf confusion labelNames).get? key := by
  unfold reportOf
  simp only [weightedScore_permute, accuracyOf_permute, divisor_support_permute, Dict.get?_set]
  rw [aggregateKeys, List.mem_pair] at h
  rcases h with rfl | rfl
  · rw [if_neg (by decide), if_pos rfl, if_neg (by decide), if_pos rfl]
  · rfl

end permuted

/-! ## The function -/

/-- The numbers over all classes. -/
def Metrics.aggregates (m : Metrics n) : List ℚ :=
  [m.accuracy, m.precisionWeighted, m.recallWeighted, m.f1Weighted]

/-- What a returned dictionary keeps to: its shares are shares, and its report has the
aggregates under their keys and the scores of the classes under every other one. -/
structure Metrics.Consistent (m : Metrics n) (perClass : Fin n → Scores) : Prop where
  scores : ∀ i, (perClass i).Consistent
  aggregates : ∀ x ∈ m.aggregates, x ∈ Set.Icc 0 1
  recall_accuracy : m.recallWeighted = m.accuracy
  labels : ∀ i, labelNames i ∈ m.classificationReport.keys
  accuracyEntry : m.classificationReport.get? "accuracy" = some (.number m.accuracy)
  weightedEntry : m.classificationReport.get? "weighted avg" =
    some (.scores ⟨m.precisionWeighted, m.recallWeighted, m.f1Weighted,
      divisor (support m.confusionMatrix)⟩)
  report : ∀ key ∉ aggregateKeys, ∀ entry, m.classificationReport.get? key = some entry →
    ∃ i, labelNames i = key ∧ entry = .scores (perClass i)
  classEntry : Function.Injective labelNames → ∀ i, labelNames i ∉ aggregateKeys →
    m.classificationReport.get? (labelNames i) = some (.scores (perClass i))

theorem mem_keys_reportOf (i : Fin n) : labelNames i ∈ (reportOf confusion labelNames).keys := by
  unfold reportOf
  rw [Dict.mem_keys_set, Dict.mem_keys_set, Dict.mem_keys_tabulate]
  exact .inr (.inr (List.mem_map_of_mem (List.mem_finRange i)))

theorem reportOf_accuracy :
    (reportOf confusion labelNames).get? "accuracy" = some (.number (accuracyOf confusion)) := by
  unfold reportOf
  rw [Dict.get?_set_of_ne _ _ (by decide), Dict.get?_set_self]

theorem reportOf_weighted :
    (reportOf confusion labelNames).get? "weighted avg" =
      some (.scores ⟨weightedScore confusion Scores.precision,
        weightedScore confusion Scores.recallScore, weightedScore confusion Scores.f1Score,
        divisor (support confusion)⟩) :=
  Dict.get?_set_self _ _ _

theorem reportOf_of_notMem {key : String} (h : key ∉ aggregateKeys) :
    (reportOf confusion labelNames).get? key =
      (Dict.tabulate labelNames (fun i => ReportEntry.scores (classScores confusion i))
        (List.finRange n)).get? key := by
  rw [aggregateKeys, List.mem_pair, not_or] at h
  unfold reportOf
  rw [Dict.get?_set_of_ne _ _ h.2, Dict.get?_set_of_ne _ _ h.1]

theorem reportOf_entry {key : String} (hkey : key ∉ aggregateKeys) {entry : ReportEntry}
    (h : (reportOf confusion labelNames).get? key = some entry) :
    ∃ i, labelNames i = key ∧ entry = .scores (classScores confusion i) := by
  rw [reportOf_of_notMem confusion labelNames hkey] at h
  obtain ⟨i, _, hi, hentry⟩ := Dict.exists_of_get?_tabulate _ _ _ h
  exact ⟨i, hi, hentry.symm⟩

theorem reportOf_class (hinjective : Function.Injective labelNames) {i : Fin n}
    (hi : labelNames i ∉ aggregateKeys) :
    (reportOf confusion labelNames).get? (labelNames i) =
      some (.scores (classScores confusion i)) := by
  rw [reportOf_of_notMem confusion labelNames hi, Dict.get?_tabulate_iff _ _ _ hinjective]
  exact ⟨i, List.mem_finRange i, rfl, rfl⟩

/-- The call returns for every matrix.  What it reports is consistent; with the classes and
their names in another order the scores are in that order, and everything else stays. -/
theorem metricsFromConfusionMatrix_consistent (n : ℕ) (confusion : Confusion n)
    (labelNames : Fin n → String) :
    ∃ scores m, scoresPerClass confusion = .ok scores ∧
      metricsFromConfusionMatrix confusion labelNames = .ok m ∧
      m.Consistent labelNames scores ∧
      ∀ σ : Equiv.Perm (Fin n), ∃ m',
        scoresPerClass (confusion.permute σ) = .ok (scores ∘ σ) ∧
        metricsFromConfusionMatrix (confusion.permute σ) (labelNames ∘ σ) = .ok m' ∧
        m'.aggregates = m.aggregates ∧
        (∀ key ∈ aggregateKeys,
          m'.classificationReport.get? key = m.classificationReport.get? key) ∧
        (Function.Injective labelNames → ∀ key,
          m'.classificationReport.get? key = m.classificationReport.get? key) := by
  refine ⟨_, _, scoresPerClass_eq confusion, metricsFromConfusionMatrix_eq confusion labelNames,
    ?_, fun σ => ⟨_, ?_, metricsFromConfusionMatrix_eq _ _, ?_, ?_, ?_⟩⟩
  · exact {
      scores := classScores_consistent confusion
      aggregates := by
        have hprecision := weightedScore_mem confusion fun i =>
          (classScores_consistent confusion i).precision
        have hrecall := weightedScore_mem confusion fun i =>
          (classScores_consistent confusion i).recallScore
        have hf1 := weightedScore_mem confusion fun i =>
          (classScores_consistent confusion i).f1Score
        intro x hx
        simp only [Metrics.aggregates, List.mem_cons, List.not_mem_nil, or_false] at hx
        rcases hx with rfl | rfl | rfl | rfl
        · exact accuracyOf_mem confusion
        · exact hprecision
        · exact hrecall
        · exact hf1
      recall_accuracy := weightedScore_recall confusion
      labels := mem_keys_reportOf confusion labelNames
      accuracyEntry := reportOf_accuracy confusion labelNames
      weightedEntry := reportOf_weighted confusion labelNames
      report := fun _ hkey _ => reportOf_entry confusion labelNames hkey
      classEntry := fun h _ hi => reportOf_class confusion labelNames h hi }
  · rw [scoresPerClass_eq]
    exact congrArg Except.ok (funext (classScores_permute confusion σ))
  · simp only [Metrics.aggregates, weightedScore_permute, accuracyOf_permute]
  · exact fun _ => reportOf_permute_aggregate confusion labelNames σ
  · exact fun h => reportOf_permute confusion labelNames σ h

end

end SmartIDS.ML
