import SmartIDS.Foundation.NamedColumns
import SmartIDS.ML.Cicids2018Mapping
import SmartIDS.ML.CleanFrame
set_option autoImplicit false

/-!
# ML: the features of a CIC IDS 2018 frame

`ml/features/cicids2018_validation.py`.  Raw columns are renamed and their times, in
microseconds, converted to seconds; canonical columns are taken as they are.  Two columns
may come to one name, and then both are kept.  The rounding of a double is a parameter.
-/

namespace SmartIDS.ML

open SmartIDS.Foundation SmartIDS.Python

/-- An exception with its message. -/
structure Raised where
  error : PyError
  message : String
  deriving DecidableEq

/-- `RAW_MICROSECOND_COLUMNS`. -/
def rawMicrosecondColumns : List String :=
  ["Flow Duration", "Flow IAT Min", "Flow IAT Max", "Flow IAT Mean", "Flow IAT Std",
    "Fwd IAT Min", "Fwd IAT Max", "Fwd IAT Mean", "Fwd IAT Std", "Fwd IAT Tot"]

/-- Only raw names are converted. -/
theorem canonical_notMem_rawMicrosecondColumns :
    ∀ name ∈ canonicalColumns, name ∉ rawMicrosecondColumns := by
  decide +kernel

namespace Number

/-- `number / 1_000_000.0`. -/
def perMillion (nearest : ℚ → ℚ) (n : Number) : Number :=
  match n.astypeFloat64 with
  | .float64 (.finite v) => .float64 (.finite (nearest (v / 1000000)))
  | n => n

/-- `np.isfinite`. -/
def isFinite (n : Number) : Bool :=
  match n.value with
  | .finite _ => true
  | _ => false

end Number

namespace Series

variable {Cell : Type}

/-- `np.isfinite(series.to_numpy(dtype=float))`; objects are left in frames without rows only. -/
def isFinite : Series Cell → List Bool
  | .numeric values => values.map Number.isFinite
  | .object cells => cells.map fun _ => false

end Series

/-- The number of rows. -/
def DataFrame.rowCount {Cell : Type} (dataframe : DataFrame Cell) : ℕ :=
  (dataframe.columns.head?.map fun column => column.2.length).getD 0

/-- `df.columns = [col.strip() for col in df.columns]`. -/
def DataFrame.stripNames {Cell : Type} (dataframe : DataFrame Cell) : DataFrame Cell :=
  ⟨NamedColumns.rename strip dataframe.columns⟩

section

variable {Cell : Type} (pd : Pandas Cell) (nearest : ℚ → ℚ)

/-- The body of the loop of `coerce_cicids2018_features`; pandas refuses to convert the frame
it finds under a name that two columns have. -/
def toSeconds (normalized : List (String × Series Cell)) (column : String) :
    Except Raised (List (String × Series Cell)) :=
  match (NamedColumns.under column normalized).length with
  | 0 => .ok normalized
  | 1 => .ok (NamedColumns.modify column
      (fun series => .numeric ((pd.numbers series).map (Number.perMillion nearest))) normalized)
  | _ => .error ⟨.typeError, "arg must be a list, tuple, 1-d array, or Series"⟩

/-- `dataframe.apply(pd.to_numeric, errors="coerce")`; a frame without rows is only copied. -/
def applyToNumeric (dataframe : DataFrame Cell) : DataFrame Cell :=
  if dataframe.rowCount = 0 then dataframe
  else ⟨NamedColumns.mapColumns (fun series => .numeric (pd.numbers series)) dataframe.columns⟩

/-- `coerce_cicids2018_features`. -/
def coerceCicids2018Features (dataframe : DataFrame Cell) : Except Raised (DataFrame Cell) := do
  let normalized ← rawMicrosecondColumns.foldlM (toSeconds pd nearest) dataframe.stripNames.columns
  let mapped := NamedColumns.rename toInternal normalized
  let missingFeatures := featureColumns.filter fun feature =>
    !(NamedColumns.names mapped).contains feature
  if missingFeatures = [] then
    return applyToNumeric pd ⟨NamedColumns.select featureColumns mapped⟩
  else
    .error ⟨.valueError, "Missing canonical CICIDS2018 feature columns: " ++
      String.intercalate ", " missingFeatures⟩

/-- The features whose column, at their own place, has a value that is not finite. -/
def invalidFeatures (features : DataFrame Cell) : List String :=
  ((featureColumns.zip features.columns).filter fun pair => !pair.2.2.isFinite.all id).map Prod.fst

/-- `prepare_cicids2018_features`. -/
def prepareCicids2018Features (dataframe : DataFrame Cell) : Except Raised (DataFrame Cell) := do
  let features ← coerceCicids2018Features pd nearest dataframe
  if invalidFeatures features = [] then return features
  else
    .error ⟨.valueError, "Invalid canonical CICIDS2018 feature values: " ++
      String.intercalate ", " (invalidFeatures features)⟩

/-! ## What is returned -/

/-- The columns hold numbers; those of a frame without rows may hold objects. -/
def DataFrame.IsNumeric (dataframe : DataFrame Cell) : Prop :=
  dataframe.rowCount = 0 ∨ ∀ column ∈ dataframe.columns, ∃ values, column.2 = .numeric values

/-- The shape of a frame that was coerced: the features in order, each under its own name and
perhaps more than once, as numbers. -/
structure IsCoerced (features : DataFrame Cell) : Prop where
  grouped : NamedColumns.select featureColumns features.columns = features.columns
  complete : ∀ feature ∈ featureColumns, feature ∈ NamedColumns.names features.columns
  numeric : features.IsNumeric

theorem applyToNumeric_columns (dataframe : DataFrame Cell) :
    ∃ f : Series Cell → Series Cell,
      (applyToNumeric pd dataframe).columns = NamedColumns.mapColumns f dataframe.columns := by
  unfold applyToNumeric
  split
  · exact ⟨id, (NamedColumns.mapColumns_of_fixed fun _ _ => rfl).symm⟩
  · exact ⟨fun series => .numeric (pd.numbers series), rfl⟩

variable {pd nearest}

/-- Numbers stay as they are. -/
theorem applyToNumeric_of_isNumeric {features : DataFrame Cell} (h : features.IsNumeric) :
    applyToNumeric pd features = features := by
  unfold applyToNumeric
  split
  · rfl
  · next hrows =>
    have hnumeric := h.resolve_left hrows
    have hsame : NamedColumns.mapColumns (fun series => .numeric (pd.numbers series))
        features.columns = features.columns := by
      apply NamedColumns.mapColumns_of_fixed
      intro column hcolumn
      obtain ⟨values, hvalues⟩ := hnumeric column hcolumn
      rw [hvalues]
      rfl
    rw [hsame]

theorem isNumeric_applyToNumeric (dataframe : DataFrame Cell) :
    (applyToNumeric pd dataframe).IsNumeric := by
  unfold applyToNumeric
  split
  · next hrows => exact .inl hrows
  · refine .inr fun column hcolumn => ?_
    obtain ⟨original, _, rfl⟩ := List.mem_map.mp hcolumn
    exact ⟨_, rfl⟩

/-- Coercion returns the selection of the features from the renamed columns. -/
theorem coerce_ok {dataframe features : DataFrame Cell}
    (h : coerceCicids2018Features pd nearest dataframe = .ok features) :
    ∃ mapped, (∀ feature ∈ featureColumns, feature ∈ NamedColumns.names mapped) ∧
      features = applyToNumeric pd ⟨NamedColumns.select featureColumns mapped⟩ := by
  unfold coerceCicids2018Features at h
  cases hloop :
      rawMicrosecondColumns.foldlM (toSeconds pd nearest) dataframe.stripNames.columns with
  | error raised =>
    rw [hloop] at h
    cases h
  | ok normalized =>
    rw [hloop] at h
    simp only [bind, Except.bind] at h
    split at h
    · next hmissing =>
      refine ⟨NamedColumns.rename toInternal normalized, fun feature hfeature => ?_,
        (Except.ok.inj h).symm⟩
      have hpresent := List.filter_eq_nil_iff.mp hmissing feature hfeature
      simpa using hpresent
    · cases h

theorem isCoerced {dataframe features : DataFrame Cell}
    (h : coerceCicids2018Features pd nearest dataframe = .ok features) : IsCoerced features := by
  obtain ⟨mapped, hcomplete, rfl⟩ := coerce_ok h
  obtain ⟨f, hf⟩ := applyToNumeric_columns pd ⟨NamedColumns.select featureColumns mapped⟩
  refine ⟨?_, fun feature hfeature => ?_, isNumeric_applyToNumeric _⟩
  · rw [hf, NamedColumns.select_mapColumns, NamedColumns.select_select nodup_featureColumns]
  · rw [hf, NamedColumns.names_mapColumns]
    exact NamedColumns.mem_names_select.mpr ⟨hfeature, hcomplete feature hfeature⟩

/-! ## Coercing once more -/

/-- Columns that are not there are not converted. -/
theorem foldlM_toSeconds {normalized : List (String × Series Cell)} {columns : List String}
    (h : ∀ column ∈ columns, column ∉ NamedColumns.names normalized) :
    columns.foldlM (toSeconds pd nearest) normalized = .ok normalized := by
  induction columns with
  | nil => rfl
  | cons column columns ih =>
    obtain ⟨hcolumn, hrest⟩ := List.forall_mem_cons.mp h
    have hstep : toSeconds pd nearest normalized column = .ok normalized := by
      unfold toSeconds
      rw [NamedColumns.under_eq_nil hcolumn]
      rfl
    rw [List.foldlM_cons, hstep]
    exact ih hrest

theorem IsCoerced.names {features : DataFrame Cell} (h : IsCoerced features) :
    ∀ name ∈ NamedColumns.names features.columns, name ∈ featureColumns := by
  intro name hname
  rw [← h.grouped] at hname
  exact (NamedColumns.mem_names_select.mp hname).1

theorem IsCoerced.canonical {features : DataFrame Cell} (h : IsCoerced features)
    {others : List (String × Series Cell)}
    (hothers : ∀ name ∈ NamedColumns.names others, name = labelColumn) :
    ∀ name ∈ NamedColumns.names (features.columns ++ others), name ∈ canonicalColumns := by
  intro name hname
  rw [NamedColumns.names_append, List.mem_append] at hname
  rcases hname with hfeature | hother
  · exact List.mem_append_left _ (h.names name hfeature)
  · rw [hothers name hother]
    exact labelColumn_mem

/-- A coerced frame, with a column of labels or without, comes out as it is: no name of it is
a raw one, so that nothing is converted and nothing renamed. -/
theorem coerce_of_isCoerced {features : DataFrame Cell} (h : IsCoerced features)
    {others : List (String × Series Cell)}
    (hothers : ∀ name ∈ NamedColumns.names others, name = labelColumn) :
    coerceCicids2018Features pd nearest ⟨features.columns ++ others⟩ = .ok features := by
  have hnames := h.canonical hothers
  have hstrip : (DataFrame.stripNames ⟨features.columns ++ others⟩).columns =
      features.columns ++ others :=
    NamedColumns.rename_of_fixed fun name hname =>
      DataFrame.strip_canonicalColumns name (hnames name hname)
  have hloop : rawMicrosecondColumns.foldlM (toSeconds pd nearest) (features.columns ++ others) =
      .ok (features.columns ++ others) :=
    foldlM_toSeconds fun column hcolumn hname =>
      canonical_notMem_rawMicrosecondColumns column (hnames column hname) hcolumn
  have hrename : NamedColumns.rename toInternal (features.columns ++ others) =
      features.columns ++ others :=
    NamedColumns.rename_of_fixed fun name hname => toInternal_canonical name (hnames name hname)
  have hmissing : featureColumns.filter (fun feature =>
      !(NamedColumns.names (features.columns ++ others)).contains feature) = [] := by
    rw [List.filter_eq_nil_iff]
    intro feature hfeature
    have hpresent := List.mem_append_left (NamedColumns.names others) (h.complete feature hfeature)
    rw [← NamedColumns.names_append] at hpresent
    simpa using hpresent
  have hselect : NamedColumns.select featureColumns (features.columns ++ others) =
      features.columns := by
    rw [NamedColumns.select_append, h.grouped]
    intro name hname hother
    exact labelColumn_notMem (hothers name hother ▸ hname)
  unfold coerceCicids2018Features
  rw [hstrip, hloop]
  simp only [bind, Except.bind, hrename]
  rw [if_pos hmissing, hselect]
  exact congrArg Except.ok (applyToNumeric_of_isNumeric h.numeric)

/-- The frames `prepare_cicids2018_features` returns. -/
structure IsPrepared (features : DataFrame Cell) : Prop extends IsCoerced features where
  valid : invalidFeatures features = []

theorem isPrepared {dataframe features : DataFrame Cell}
    (h : prepareCicids2018Features pd nearest dataframe = .ok features) : IsPrepared features := by
  unfold prepareCicids2018Features at h
  cases hcoerce : coerceCicids2018Features pd nearest dataframe with
  | error raised =>
    rw [hcoerce] at h
    cases h
  | ok coerced =>
    rw [hcoerce] at h
    simp only [bind, Except.bind] at h
    split at h
    · next hvalid =>
      obtain rfl := Except.ok.inj h
      exact ⟨isCoerced hcoerce, hvalid⟩
    · cases h

variable (pd nearest) in
/-- Preparing them again returns them. -/
theorem prepare_of_isPrepared {features : DataFrame Cell} (h : IsPrepared features)
    (others : List (String × Series Cell))
    (hothers : ∀ name ∈ NamedColumns.names others, name = labelColumn) :
    prepareCicids2018Features pd nearest ⟨features.columns ++ others⟩ = .ok features := by
  unfold prepareCicids2018Features
  rw [coerce_of_isCoerced h.toIsCoerced hothers]
  exact if_pos h.valid

end

end SmartIDS.ML
