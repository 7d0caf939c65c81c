import Mathlib.Algebra.Order.Ring.Rat
import SmartIDS.Foundation.Dispersion
set_option autoImplicit false

/-!
# FeatureEngine: the statistics helpers

`feature_engine/stats.py` in exact arithmetic.  The features are numbers of an
ordered field `R` into which the rationals embed; `math.sqrt` is an argument, so
that the helpers can be evaluated at a rational approximation of it and reasoned
about at the square root of the reals.
-/

namespace SmartIDS.FeatureEngine

open SmartIDS.Foundation

def safeMin (values : List ℚ) : ℚ := values.min?.getD 0

def safeMax (values : List ℚ) : ℚ := values.max?.getD 0

def safeMean (values : List ℚ) : ℚ :=
  match values with
  | [] => 0
  | values => mean values

/-- `statistics.pvariance`. -/
def pvariance (values : List ℚ) : ℚ := deviation (mean values) values / values.length

def safeVariance (values : List ℚ) : ℚ :=
  match values with
  | [] => 0
  | [_] => 0
  | values => pvariance values

/-- `safe_std`; `statistics.pstdev` is the root of `statistics.pvariance`. -/
def safeStd {R : Type} [Zero R] (sqrt : ℚ → R) (values : List ℚ) : R :=
  match values with
  | [] => 0
  | [_] => 0
  | values => sqrt (pvariance values)

def safeRate (value : ℚ) (duration : Option ℚ) : ℚ :=
  match duration with
  | none => 0
  | some duration => if duration ≤ 0 then 0 else value / duration

/-- What `safe_iat_stats` returns. -/
structure IatStats (R : Type) where
  min : ℚ
  max : ℚ
  mean : ℚ
  std : R
  total : ℚ

def IatStats.zero {R : Type} [Zero R] : IatStats R := ⟨0, 0, 0, 0, 0⟩

/-- The differences of neighbours. -/
def gaps (ordered : List ℚ) : List ℚ :=
  List.zipWith (fun later earlier => later - earlier) ordered.tail ordered

/-- The inter-arrival times `safe_iat_stats` keeps. -/
def cleanedIats (timestamps : List ℚ) : List ℚ :=
  (gaps timestamps.mergeSort).filter (0 ≤ ·)

def safeIatStats {R : Type} [Zero R] (sqrt : ℚ → R) (timestamps : List ℚ) : IatStats R :=
  if timestamps.length < 2 then .zero
  else
    match cleanedIats timestamps with
    | [] => .zero
    | iats => ⟨safeMin iats, safeMax iats, safeMean iats, safeStd sqrt iats, iats.sum⟩

/-- `sanitize_feature_dict`; `none` is a value that is not a finite number. -/
def sanitizeFeatureDict {R : Type} [Zero R] (features : List (String × Option R)) :
    List (String × R) :=
  features.map fun feature => (feature.1, feature.2.getD 0)

/-! ## Facts about the helpers -/

theorem safeMean_eq (values : List ℚ) : safeMean values = mean values := by
  cases values with
  | nil => rw [mean_nil, safeMean]
  | cons value rest => rfl

/-- The guard for short lists is redundant in the variance. -/
theorem safeVariance_eq (values : List ℚ) : safeVariance values = pvariance values := by
  match values with
  | [] => simp [safeVariance, pvariance]
  | [value] => simp [safeVariance, pvariance]
  | _ :: _ :: _ => rfl

/-- It is redundant in the standard deviation if 0 is the root of 0. -/
theorem safeStd_eq {R : Type} [Zero R] {sqrt : ℚ → R} (hsqrt : sqrt 0 = 0) (values : List ℚ) :
    safeStd sqrt values = sqrt (pvariance values) := by
  match values with
  | [] => simp [safeStd, pvariance, hsqrt]
  | [value] => simp [safeStd, pvariance, hsqrt]
  | _ :: _ :: _ => rfl

/-- Least, mean and greatest value are in order. -/
theorem safeMin_le_safeMean (values : List ℚ) : safeMin values ≤ safeMean values := by
  rw [safeMean_eq]
  rcases eq_or_ne values [] with rfl | hne
  · simp [safeMin]
  · obtain ⟨least, hleast⟩ := Option.isSome_iff_exists.mp (List.isSome_min?_of_ne_nil hne)
    rw [safeMin, hleast]
    exact le_mean hne (List.min?_eq_some_iff.mp hleast).2

theorem safeMean_le_safeMax (values : List ℚ) : safeMean values ≤ safeMax values := by
  rw [safeMean_eq]
  rcases eq_or_ne values [] with rfl | hne
  · simp [safeMax]
  · obtain ⟨greatest, hgreatest⟩ := Option.isSome_iff_exists.mp (List.isSome_max?_of_ne_nil hne)
    rw [safeMax, hgreatest]
    exact mean_le hne (List.max?_eq_some_iff.mp hgreatest).2

/-- So they are for inter-arrival times. -/
theorem safeIatStats_ordered {R : Type} [Zero R] (sqrt : ℚ → R) (timestamps : List ℚ) :
    (safeIatStats sqrt timestamps).min ≤ (safeIatStats sqrt timestamps).mean ∧
      (safeIatStats sqrt timestamps).mean ≤ (safeIatStats sqrt timestamps).max := by
  unfold safeIatStats
  split_ifs
  · exact ⟨le_refl _, le_refl _⟩
  · split
    · exact ⟨le_refl _, le_refl _⟩
    · exact ⟨safeMin_le_safeMean _, safeMean_le_safeMax _⟩

end SmartIDS.FeatureEngine
