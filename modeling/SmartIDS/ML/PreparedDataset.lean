import SmartIDS.ML.Cicids2018Validation
import SmartIDS.ML.SplitPrepared
set_option autoImplicit false

/-!
# ML: preparing the dataset, and preparing it again

`prepare_dataset` writes rows of features and a label.  Training
(`train_cicids2018_live_compatible.py`) and evaluation (`evaluate_cicids2018.py`) prepare the
rows they read once more.  Reading and writing the files is left to pandas.
-/

namespace SmartIDS.ML

open SmartIDS.Foundation SmartIDS.Python

/-- `RAW_LABEL_COLUMN`. -/
def rawLabelColumn : String := "Label"

section rows

variable {Cell : Type}

/-- `series.iloc[indices]`. -/
def Series.iloc (indices : List ℕ) : Series Cell → Series Cell
  | .numeric values => .numeric (ML.iloc values indices)
  | .object cells => .object (ML.iloc cells indices)

/-- `dataframe.iloc[indices]`. -/
def DataFrame.iloc (dataframe : DataFrame Cell) (indices : List ℕ) : DataFrame Cell :=
  ⟨NamedColumns.mapColumns (Series.iloc indices) dataframe.columns⟩

/-- `dataframe.loc[keep]`. -/
def DataFrame.loc (dataframe : DataFrame Cell) (keep : List Bool) : DataFrame Cell :=
  ⟨NamedColumns.mapColumns (Series.mask keep) dataframe.columns⟩

/-- `np.isfinite(dataframe.to_numpy(dtype=float)).all(axis=1)`. -/
def DataFrame.finiteRows (dataframe : DataFrame Cell) : List Bool :=
  (List.range dataframe.rowCount).map fun row =>
    dataframe.columns.all fun column => column.2.isFinite.getD row true

/-- `name in dataframe.columns`. -/
def DataFrame.hasColumn (dataframe : DataFrame Cell) (name : String) : Bool :=
  (NamedColumns.names dataframe.columns).contains name

end rows

section functions

variable {Cell : Type} (pd : Pandas Cell) (nearest : ℚ → ℚ)

/-- The texts `str` makes of labels; a missing one is NaN. -/
def labelTexts (series : Series Cell) : List String :=
  (pd.asText series).map fun label => label.getD "nan"

/-- `series.apply(normalize_cicids2018_label).astype(str)`. -/
def normalizedLabels (series : Series Cell) : List String :=
  (labelTexts pd series).map normalizeCicids2018Label

/-- `prepare_dataset`, from the frame without duplicate rows and blank labels to `prepared`. -/
def prepareDataset (cleanedSource : DataFrame Cell) : Except Raised (DataFrame Cell) :=
  if cleanedSource.hasColumn rawLabelColumn then do
    let features ← coerceCicids2018Features pd nearest cleanedSource
    let filteredSource := cleanedSource.loc features.finiteRows
    if filteredSource.rowCount = 0 then
      .error ⟨.valueError, "No valid CICIDS2018 rows remain after canonical filtering"⟩
    else do
      let cleanedFeatures ← prepareCicids2018Features pd nearest filteredSource
      let labels := normalizedLabels pd (filteredSource.column rawLabelColumn)
      return ⟨cleanedFeatures.columns ++ [(labelColumn, .object (labels.map pd.text))]⟩
  else .error ⟨.valueError, "Raw label column 'Label' not found in source dataset"⟩

/-- `_prepare_live_compatible_dataset` on a frame as `_load_dataset` returns it, up to the
encoding of the labels. -/
def prepareLiveCompatibleDataset (df : DataFrame Cell) :
    Except Raised (DataFrame Cell × List String) :=
  let df := df.stripNames
  if df.hasColumn labelColumn then do
    let features ← prepareCicids2018Features pd nearest df
    return (features, normalizedLabels pd (df.column labelColumn))
  else .error ⟨.valueError, "Label column 'Attack Type' not found in dataset"⟩

/-- The frame and the labels `evaluate_cicids2018.main` evaluates, before unknown labels are
dropped. -/
def evaluationRows (df : DataFrame Cell) : Except Raised (DataFrame Cell × List String) :=
  let df := df.stripNames
  if df.hasColumn labelColumn then do
    let features ← prepareCicids2018Features pd nearest df
    if features.rowCount = 0 then .error ⟨.valueError, "Test dataset contains no rows."⟩
    else return (features, normalizedLabels pd (df.column labelColumn))
  else .error ⟨.valueError, "Label column 'Attack Type' not found in test dataset."⟩

end functions

/-! ## Rows of a prepared frame -/

theorem iloc_map {α β : Type} (f : α → β) (rows : List α) (indices : List ℕ) :
    iloc (rows.map f) indices = (iloc rows indices).map f := by
  unfold iloc
  rw [List.map_filterMap]
  apply List.filterMap_congr
  intro i _
  exact List.getElem?_map

theorem mem_of_mem_iloc {α : Type} {rows : List α} {indices : List ℕ} {row : α}
    (h : row ∈ iloc rows indices) : row ∈ rows := by
  obtain ⟨i, _, hrow⟩ := List.mem_filterMap.mp h
  exact List.mem_of_getElem? hrow

theorem length_iloc_eq_zero {α : Type} {rows : List α} {indices : List ℕ}
    (h : rows.length = 0) : (iloc rows indices).length = 0 := by
  rw [List.length_eq_zero_iff] at h ⊢
  subst h
  exact List.eq_nil_iff_forall_not_mem.mpr fun row hrow => List.not_mem_nil (mem_of_mem_iloc hrow)

section selection

variable {Cell : Type} {indices : List ℕ}

theorem Series.isFinite_iloc (series : Series Cell) :
    (series.iloc indices).isFinite = ML.iloc series.isFinite indices := by
  cases series with
  | numeric values => exact (iloc_map Number.isFinite values indices).symm
  | object cells => exact (iloc_map (fun _ => false) cells indices).symm

theorem Series.length_iloc_of_length {series : Series Cell} (h : series.length = 0) :
    (series.iloc indices).length = 0 := by
  cases series with
  | numeric values => exact length_iloc_eq_zero h
  | object cells => exact length_iloc_eq_zero h

theorem rowCount_iloc {dataframe : DataFrame Cell} (h : dataframe.rowCount = 0) :
    (dataframe.iloc indices).rowCount = 0 := by
  obtain ⟨columns⟩ := dataframe
  cases columns with
  | nil => rfl
  | cons column columns => exact Series.length_iloc_of_length h

variable (indices) in
theorem isPrepared_iloc {features : DataFrame Cell} (h : IsPrepared features) :
    IsPrepared (features.iloc indices) where
  grouped := by
    unfold DataFrame.iloc
    rw [NamedColumns.select_mapColumns, h.grouped]
  complete := by
    unfold DataFrame.iloc
    rw [NamedColumns.names_mapColumns]
    exact h.complete
  numeric := by
    refine h.numeric.imp rowCount_iloc fun hnumeric column hcolumn => ?_
    obtain ⟨original, horiginal, rfl⟩ := List.mem_map.mp hcolumn
    obtain ⟨values, hvalues⟩ := hnumeric original horiginal
    exact ⟨iloc values indices, congrArg (Series.iloc indices) hvalues⟩
  valid := by
    have hvalid := h.valid
    unfold invalidFeatures at hvalid ⊢
    rw [List.map_eq_nil_iff, List.filter_eq_nil_iff] at hvalid ⊢
    intro pair hpair
    unfold DataFrame.iloc NamedColumns.mapColumns at hpair
    rw [List.zip_map_right] at hpair
    obtain ⟨original, horiginal, rfl⟩ := List.mem_map.mp hpair
    have hfinite := hvalid original horiginal
    simp only [Bool.not_eq_true', Bool.not_eq_false, List.all_eq_true] at hfinite
    simp only [Bool.not_eq_true', Bool.not_eq_false, List.all_eq_true, Prod.map_snd]
    intro value hvalue
    rw [Series.isFinite_iloc] at hvalue
    exact hfinite value (mem_of_mem_iloc hvalue)

/-- The column of labels behind the features. -/
theorem column_labelColumn {features : DataFrame Cell} (h : IsCoerced features)
    (labels : Series Cell) :
    (⟨features.columns ++ [(labelColumn, labels)]⟩ : DataFrame Cell).column labelColumn =
      labels := by
  have hnone : features.columns.find? (fun column => strip column.1 == labelColumn) = none := by
    rw [List.find?_eq_none]
    intro column hcolumn heq
    have hname := h.names column.1 (List.mem_map_of_mem hcolumn)
    rw [DataFrame.strip_canonicalColumns column.1 (List.mem_append_left _ hname), beq_iff_eq] at heq
    exact ne_labelColumn hname heq
  have hself : strip labelColumn == labelColumn :=
    beq_iff_eq.mpr (DataFrame.strip_canonicalColumns labelColumn labelColumn_mem)
  unfold DataFrame.column
  rw [List.find?_append, hnone, Option.none_or, List.find?_cons, hself]
  rfl

theorem labelTexts_text (pd : Pandas Cell) (labels : List String) :
    labelTexts pd (.object (labels.map pd.text)) = labels := by
  unfold labelTexts
  rw [pd.asText_text, List.map_map]
  exact List.map_id labels

theorem normalizedLabels_text (pd : Pandas Cell) (labels : List String) :
    normalizedLabels pd (.object ((labels.map normalizeCicids2018Label).map pd.text)) =
      labels.map normalizeCicids2018Label := by
  have hidem : normalizeCicids2018Label ∘ normalizeCicids2018Label = normalizeCicids2018Label := by
    funext label
    rw [Function.comp_apply, normalizeCicids2018Label_idem]
  unfold normalizedLabels
  rw [labelTexts_text, List.map_map, hidem]

end selection

/-! ## The second preparation -/

section second

variable {Cell : Type} {pd : Pandas Cell} {nearest : ℚ → ℚ}

/-- A prepared frame: the features of the rows that are kept, and labels that are normalized. -/
theorem prepareDataset_ok {source prepared : DataFrame Cell}
    (h : prepareDataset pd nearest source = .ok prepared) :
    ∃ filteredSource features, prepareCicids2018Features pd nearest filteredSource = .ok features ∧
      ∃ labels : List String, prepared = ⟨features.columns ++
        [(labelColumn, .object ((labels.map normalizeCicids2018Label).map pd.text))]⟩ := by
  unfold prepareDataset at h
  split at h
  · cases hcoerce : coerceCicids2018Features pd nearest source with
    | error raised =>
      rw [hcoerce] at h
      cases h
    | ok coerced =>
      rw [hcoerce] at h
      simp only [bind, Except.bind] at h
      split at h
      · cases h
      · split at h
        · cases h
        · next features hfeatures =>
          exact ⟨_, features, hfeatures, _, (Except.ok.inj h).symm⟩
  · cases h

/-- Rows of a prepared frame are themselves prepared features with normalized labels. -/
theorem iloc_prepared {features : DataFrame Cell} (labels : List String) (indices : List ℕ) :
    DataFrame.iloc ⟨features.columns ++
        [(labelColumn, .object ((labels.map normalizeCicids2018Label).map pd.text))]⟩ indices =
      ⟨(features.iloc indices).columns ++ [(labelColumn,
        .object (((ML.iloc labels indices).map normalizeCicids2018Label).map pd.text))]⟩ := by
  unfold DataFrame.iloc NamedColumns.mapColumns
  rw [List.map_append, ← iloc_map, ← iloc_map]
  rfl

variable (pd nearest) in
/-- What the second preparation finds in prepared features with normalized labels. -/
theorem prepared_again {features : DataFrame Cell} (h : IsPrepared features)
    (labels : List String) {df : DataFrame Cell} (hdf : df = ⟨features.columns ++
      [(labelColumn, .object ((labels.map normalizeCicids2018Label).map pd.text))]⟩) :
    df.stripNames = df ∧ df.hasColumn labelColumn = true ∧
      prepareCicids2018Features pd nearest df = .ok features ∧
      normalizedLabels pd (df.column labelColumn) = labels.map normalizeCicids2018Label := by
  subst hdf
  have hlabel : ∀ name ∈ NamedColumns.names [(labelColumn,
      Series.object ((labels.map normalizeCicids2018Label).map pd.text))], name = labelColumn :=
    fun name hname => List.mem_singleton.mp hname
  refine ⟨?_, ?_, ?_, ?_⟩
  · exact congrArg DataFrame.mk (NamedColumns.rename_of_fixed fun name hname =>
      DataFrame.strip_canonicalColumns name (h.canonical hlabel name hname))
  · unfold DataFrame.hasColumn
    rw [List.contains_iff_mem, NamedColumns.names_append]
    exact List.mem_append_right _ List.mem_cons_self
  · exact prepare_of_isPrepared pd nearest h _ hlabel
  · rw [column_labelColumn h.toIsCoerced, normalizedLabels_text]

theorem prepareLiveCompatibleDataset_again {features : DataFrame Cell} (h : IsPrepared features)
    (labels : List String) :
    prepareLiveCompatibleDataset pd nearest ⟨features.columns ++
        [(labelColumn, .object ((labels.map normalizeCicids2018Label).map pd.text))]⟩ =
      .ok (features, labels.map normalizeCicids2018Label) := by
  obtain ⟨hstrip, hcolumn, hprepare, hlabels⟩ := prepared_again pd nearest h labels rfl
  unfold prepareLiveCompatibleDataset
  dsimp only
  rw [hstrip, if_pos hcolumn, hprepare, hlabels]
  rfl

theorem evaluationRows_again {features : DataFrame Cell} (h : IsPrepared features)
    (hrows : features.rowCount ≠ 0) (labels : List String) :
    evaluationRows pd nearest ⟨features.columns ++
        [(labelColumn, .object ((labels.map normalizeCicids2018Label).map pd.text))]⟩ =
      .ok (features, labels.map normalizeCicids2018Label) := by
  obtain ⟨hstrip, hcolumn, hprepare, hlabels⟩ := prepared_again pd nearest h labels rfl
  unfold evaluationRows
  dsimp only
  rw [hstrip, if_pos hcolumn, hprepare, hlabels]
  exact if_neg hrows

/-- Prepared features, normalized labels and so any rows of a prepared dataset come out of a
second preparation as they are. -/
theorem second_preparation (pd : Pandas Cell) (nearest : ℚ → ℚ)
    (dataframe features source prepared : DataFrame Cell) (label : String) (indices : List ℕ)
    (hfeatures : prepareCicids2018Features pd nearest dataframe = .ok features)
    (hprepared : prepareDataset pd nearest source = .ok prepared) :
    prepareCicids2018Features pd nearest features = .ok features ∧
      normalizeCicids2018Label (normalizeCicids2018Label label) = normalizeCicids2018Label label ∧
      ∃ (rows : DataFrame Cell) (labels : List String),
        (prepared.iloc indices).columns =
          rows.columns ++ [(labelColumn, .object (labels.map pd.text))] ∧
        prepareLiveCompatibleDataset pd nearest (prepared.iloc indices) = .ok (rows, labels) ∧
        (rows.rowCount ≠ 0 →
          evaluationRows pd nearest (prepared.iloc indices) = .ok (rows, labels)) := by
  refine ⟨?_, normalizeCicids2018Label_idem label, ?_⟩
  · have hagain := prepare_of_isPrepared pd nearest (isPrepared hfeatures) [] fun name hname =>
      absurd hname List.not_mem_nil
    rw [List.append_nil] at hagain
    exact hagain
  · obtain ⟨_, all, hall, labels, rfl⟩ := prepareDataset_ok hprepared
    have hrows := isPrepared_iloc indices (isPrepared hall)
    refine ⟨all.iloc indices, (iloc labels indices).map normalizeCicids2018Label, ?_, ?_, ?_⟩
    · rw [iloc_prepared]
    · rw [iloc_prepared]
      exact prepareLiveCompatibleDataset_again hrows _
    · intro hnonempty
      rw [iloc_prepared]
      exact evaluationRows_again hrows hnonempty _

end second

/-- One raw row, with two seconds under every time. -/
def rawRow : DataFrame String :=
  ⟨cicids2018ToInternal.map (fun entry => (entry.1, .numeric [.int64 2000000])) ++
    [(rawLabelColumn, .object ["DDOS attack-HOIC"])]⟩

theorem exists_of_isOk {ε α : Type} {x : Except ε α} (h : x.isOk = true) : ∃ a, x = .ok a := by
  cases x with
  | error e => cases h
  | ok a => exact ⟨a, rfl⟩

theorem second_preparation_of_rawRow :
    ∃ dataframe features prepared,
      prepareDataset Pandas.ofTexts id rawRow = .ok prepared ∧
      prepareCicids2018Features Pandas.ofTexts id dataframe = .ok features ∧
      prepareCicids2018Features Pandas.ofTexts id features = .ok features ∧
      ∃ rows labels, prepareLiveCompatibleDataset Pandas.ofTexts id (prepared.iloc [0]) =
        .ok (rows, labels) := by
  obtain ⟨prepared, hprepared⟩ := exists_of_isOk
    (show (prepareDataset Pandas.ofTexts id rawRow).isOk = true by decide +kernel)
  obtain ⟨dataframe, features, hfeatures, -⟩ := prepareDataset_ok hprepared
  obtain ⟨hagain, -, rows, labels, -, htraining, -⟩ := second_preparation Pandas.ofTexts id
    dataframe features rawRow prepared "DDOS attack-HOIC" [0] hfeatures hprepared
  exact ⟨dataframe, features, prepared, hprepared, hfeatures, hagain, rows, labels, htraining⟩

end SmartIDS.ML
