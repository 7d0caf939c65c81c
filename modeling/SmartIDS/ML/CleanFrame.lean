import SmartIDS.ML.CleanChunk
set_option autoImplicit false

/-!
# ML: clean frames stay as they are

A frame comes out with every cell in its range, and a second cleaning changes nothing,
exactly if the numbers of the integer columns that have no range of their own fit
into 64 bits.
-/

namespace SmartIDS.ML

open SmartIDS.Foundation SmartIDS.Python

/-- The numbers in a column meet `P`; a column of objects has no cells. -/
def Series.AllNumbers {Cell : Type} (P : PyFloat → Prop) : Series Cell → Prop
  | .numeric values => ∀ n ∈ values, P n.value
  | .object cells => cells = []

/-- Every canonical column is there once, up to blanks around its name. -/
def DataFrame.HasCanonicalColumns {Cell : Type} (dataframe : DataFrame Cell) : Prop :=
  ∀ name ∈ canonicalColumns, (dataframe.columns.map fun column => strip column.1).count name = 1

/-- What cleaning is to return. -/
structure CleanFrame {Cell : Type} (pd : Pandas Cell) (dataframe : DataFrame Cell) : Prop where
  names : dataframe.columns.map Prod.fst = canonicalColumns
  features : ∀ name ∈ featureColumns, (dataframe.column name).AllNumbers Number.IsNat
  protocol : (dataframe.column "protocol").AllNumbers fun x => ∃ n ∈ validProtocols, x = .finite n
  port : (dataframe.column "dst_port").AllNumbers fun x =>
    ∃ n : ℤ, x = .finite n ∧ 0 ≤ n ∧ n ≤ 65535
  labels : ∃ labels : List String, dataframe.column labelColumn = .object (labels.map pd.text) ∧
    ∀ label ∈ labels, strip label = label ∧ lower label ∉ badLabels

namespace DataFrame

variable {Cell : Type}

theorem strip_canonicalColumns : ∀ name ∈ canonicalColumns, strip name = name := by
  have hlist : ∀ name ∈ canonicalColumns, stripList isSpace name.toList = name.toList := by
    decide +kernel
  intro name hname
  unfold strip
  rw [hlist name hname, String.ofList_toList]

theorem column_canonical (working : String → Series Cell) {name : String}
    (h : name ∈ canonicalColumns) : (canonical working).column name = working name := by
  have hfind : ∀ names : List String, (∀ name ∈ names, strip name = name) → name ∈ names →
      (names.map fun name => (name, working name)).find? (fun column => strip column.1 == name) =
        some (name, working name) := by
    intro names hstrip hmem
    induction names with
    | nil => exact absurd hmem List.not_mem_nil
    | cons first names ih =>
      obtain ⟨hfirst, hrest⟩ := List.forall_mem_cons.mp hstrip
      rw [List.map_cons, List.find?_cons]
      dsimp only
      rw [hfirst]
      rcases eq_or_ne first name with rfl | hne
      · rw [beq_self_eq_true]
      · rw [beq_eq_false_iff_ne.mpr hne]
        exact ih hrest ((List.mem_cons.mp hmem).resolve_left hne.symm)
  unfold column canonical
  rw [hfind _ strip_canonicalColumns h]
  rfl

theorem names_canonical (working : String → Series Cell) :
    (canonical working).columns.map Prod.fst = canonicalColumns := by
  unfold canonical
  rw [List.map_map]
  exact List.map_id _

theorem mem_names_canonical (working : String → Series Cell) :
    ∀ name ∈ canonicalColumns,
      name ∈ (canonical working).columns.map fun column => strip column.1 := by
  intro name hname
  refine List.mem_map.mpr ⟨(name, working name), List.mem_map.mpr ⟨name, hname, rfl⟩, ?_⟩
  exact strip_canonicalColumns name hname

theorem hasCanonicalColumns_canonical (working : String → Series Cell) :
    (canonical working).HasCanonicalColumns := by
  have hnames : (canonical working).columns.map (fun column => strip column.1) = canonicalColumns := by
    unfold canonical
    rw [List.map_map]
    exact (List.map_congr_left fun name hname => strip_canonicalColumns name hname).trans
      (List.map_id _)
  intro name hname
  rw [hnames]
  exact List.count_eq_one_of_mem nodup_canonicalColumns hname

end DataFrame

namespace Pandas

variable {Cell : Type} (pd : Pandas Cell)

theorem length_mask_le (keep : List Bool) (series : Series Cell) :
    (series.mask keep).length ≤ keep.count true := by
  cases series with
  | numeric values => exact Columns.length_mask_le keep values
  | object cells => exact Columns.length_mask_le keep cells

theorem mask_of_forall {keep : List Bool} (h : ∀ b ∈ keep, b = true) {series : Series Cell}
    (hlength : series.length ≤ keep.length) : series.mask keep = series := by
  cases series with
  | numeric values => exact congrArg Series.numeric (Columns.mask_of_forall h hlength)
  | object cells => exact congrArg Series.object (Columns.mask_of_forall h hlength)

theorem length_numbers (series : Series Cell) : (pd.numbers series).length = series.length := by
  cases series with
  | numeric values => rfl
  | object cells => exact pd.length_toNumeric cells

/-- A column has no more rows than there are labels that are kept. -/
theorem length_keptColumn_le (dataframe : DataFrame Cell) (name : String) :
    (pd.keptColumn dataframe name).length ≤ (pd.keptLabels dataframe).length := by
  refine (length_mask_le _ _).trans ?_
  unfold keptLabels
  rw [← List.countP_eq_length_filter, List.count, List.countP_map]
  exact (List.countP_congr fun label _ => by simp).le

theorem length_cleaned_le (dataframe : DataFrame Cell) {name : String} (hname : name ≠ labelColumn) :
    (pd.cleaned dataframe name).length ≤ (pd.keptLabels dataframe).length := by
  have hkept := pd.length_keptColumn_le dataframe name
  rcases eq_or_ne (pd.keptLabels dataframe) [] with hnone | hsome
  · rw [pd.cleaned_of_none hname hnone]
    exact hkept
  · rw [pd.cleaned_of_some hname hsome, Series.length, List.length_map, length_numbers]
    exact hkept

theorem keptLabels_spec (dataframe : DataFrame Cell) :
    ∀ label ∈ pd.keptLabels dataframe, strip label = label ∧ lower label ∉ badLabels := by
  intro label hmem
  obtain ⟨hlabel, hgood⟩ := List.mem_filter.mp hmem
  obtain ⟨raw, -, rfl⟩ := List.mem_map.mp hlabel
  refine ⟨strip_strip raw, fun hbad => ?_⟩
  rw [List.contains_iff_mem.mpr hbad] at hgood
  exact absurd hgood (by decide)

/-! ## A second cleaning -/

section again

variable (dataframe : DataFrame Cell)

theorem labels_again :
    pd.asText ((DataFrame.canonical (pd.cleaned dataframe)).column labelColumn) =
      (pd.keptLabels dataframe).map some := by
  rw [DataFrame.column_canonical _ labelColumn_mem, cleaned_label, asText_text]

theorem stripped_again :
    ((pd.keptLabels dataframe).map some).reduceOption.map strip = pd.keptLabels dataframe := by
  have hsome : ((pd.keptLabels dataframe).map some).reduceOption = pd.keptLabels dataframe := by
    unfold List.reduceOption
    rw [List.filterMap_map]
    exact List.filterMap_some
  rw [hsome]
  exact (List.map_congr_left fun label hlabel => (pd.keptLabels_spec dataframe label hlabel).1).trans
    (List.map_id _)

theorem good_again : ∀ label ∈ pd.keptLabels dataframe, (!badLabels.contains (lower label)) = true := by
  intro label hlabel
  have hgood := (pd.keptLabels_spec dataframe label hlabel).2
  rw [Bool.not_eq_true', ← Bool.not_eq_true]
  exact mt List.contains_iff_mem.mp hgood

/-- Every row is kept. -/
theorem keptLabels_again :
    pd.keptLabels (.canonical (pd.cleaned dataframe)) = pd.keptLabels dataframe := by
  conv_lhs => unfold keptLabels
  rw [labels_again, stripped_again]
  exact List.filter_eq_self.mpr (pd.good_again dataframe)

theorem keptColumn_again {name : String} (hname : name ∈ featureColumns) :
    pd.keptColumn (.canonical (pd.cleaned dataframe)) name = pd.cleaned dataframe name := by
  have hne := ne_labelColumn hname
  have hlength := pd.length_cleaned_le dataframe hne
  have hlabelled : (pd.cleaned dataframe name).mask
      (((pd.keptLabels dataframe).map some).map Option.isSome) = pd.cleaned dataframe name :=
    mask_of_forall (by simp) (by simpa using hlength)
  have hgood : (pd.cleaned dataframe name).mask
      ((pd.keptLabels dataframe).map fun label => !badLabels.contains (lower label)) =
        pd.cleaned dataframe name := by
    refine mask_of_forall (fun b hb => ?_) (by rw [List.length_map]; exact hlength)
    obtain ⟨label, hlabel, rfl⟩ := List.mem_map.mp hb
    exact pd.good_again dataframe label hlabel
  unfold keptColumn
  dsimp only
  rw [labels_again, stripped_again, DataFrame.column_canonical _ (List.mem_append_left _ hname),
    hlabelled, hgood]

/-- Where every cell comes out clean, a second cleaning changes nothing. -/
theorem sanitize_again
    (h : ∀ name ∈ featureColumns, ∀ n ∈ pd.numbers (pd.keptColumn dataframe name),
      Number.IsClean name (Number.cleanCell name n)) :
    pd.sanitizePreparedChunk (.canonical (pd.cleaned dataframe)) =
      .ok (.canonical (pd.cleaned dataframe)) := by
  rw [sanitize_eq _ _ (DataFrame.mem_names_canonical _)]
  refine congrArg Except.ok (canonical_congr fun name hname => ?_)
  have hlabels := pd.keptLabels_again dataframe
  rcases eq_or_ne name labelColumn with rfl | hne
  · rw [cleaned_label, cleaned_label, hlabels]
  · have hfeature := mem_featureColumns hname hne
    have hcolumn := pd.keptColumn_again dataframe hfeature
    rcases eq_or_ne (pd.keptLabels dataframe) [] with hnone | hsome
    · rw [pd.cleaned_of_none hne (hlabels.trans hnone), hcolumn]
    · rw [pd.cleaned_of_some hne (hlabels.trans_ne hsome), hcolumn, pd.cleaned_of_some hne hsome]
      refine congrArg Series.numeric ?_
      change ((pd.numbers (pd.keptColumn dataframe name)).map (Number.cleanCell name)).map
        (Number.cleanCell name) = _
      rw [List.map_map]
      exact List.map_congr_left fun n hn => Number.cleanCell_of_isClean (h name hfeature n hn)

end again

/-! ## Which frames come out clean -/

-- a column of a cleaned frame is rewritten, never computed
attribute [local irreducible] DataFrame.column

/-- A column without rows has no numbers. -/
theorem numbers_keptColumn_of_none {dataframe : DataFrame Cell}
    (h : pd.keptLabels dataframe = []) (name : String) :
    pd.numbers (pd.keptColumn dataframe name) = [] := by
  have hlength := pd.length_keptColumn_le dataframe name
  rw [h] at hlength
  exact List.length_eq_zero_iff.mp ((pd.length_numbers _).trans (Nat.le_zero.mp hlength))

/-- The numbers of a cleaned column are those of its cells, or there are none. -/
theorem allNumbers_cleaned_iff {dataframe : DataFrame Cell} {name : String}
    (hname : name ∈ featureColumns) (P : PyFloat → Prop) :
    ((DataFrame.canonical (pd.cleaned dataframe)).column name).AllNumbers P ↔
      ∀ n ∈ pd.numbers (pd.keptColumn dataframe name), P (Number.cleanCell name n).value := by
  have hne := ne_labelColumn hname
  rw [DataFrame.column_canonical _ (List.mem_append_left _ hname)]
  rcases eq_or_ne (pd.keptLabels dataframe) [] with hnone | hsome
  · rw [pd.cleaned_of_none hne hnone]
    have hlength := pd.length_keptColumn_le dataframe name
    rw [hnone] at hlength
    rw [pd.numbers_keptColumn_of_none hnone]
    refine iff_of_true ?_ (List.forall_mem_nil _)
    cases hseries : pd.keptColumn dataframe name with
    | numeric values =>
      rw [hseries] at hlength
      rw [List.length_eq_zero_iff.mp (Nat.le_zero.mp hlength)]
      exact List.forall_mem_nil _
    | object cells =>
      rw [hseries] at hlength
      exact List.length_eq_zero_iff.mp (Nat.le_zero.mp hlength)
  · rw [pd.cleaned_of_some hne hsome]
    exact List.forall_mem_map

/-- The numbers of the integer columns without a range of their own fit into 64 bits. -/
def CountersFit (dataframe : DataFrame Cell) : Prop :=
  ∀ name, Number.IsCounter name →
    ∀ n ∈ pd.numbers (pd.keptColumn dataframe name), Number.Fits n

theorem intColumns_subset : ∀ name ∈ intColumns, name ∈ featureColumns := by
  have hsublist : intColumns.Sublist featureColumns := by decide +kernel
  exact fun name hname => hsublist.subset hname

theorem protocol_mem : "protocol" ∈ featureColumns := intColumns_subset _ (by decide)

theorem dst_port_mem : "dst_port" ∈ featureColumns := intColumns_subset _ (by decide)

theorem cleanFrame_iff (dataframe : DataFrame Cell) :
    CleanFrame pd (.canonical (pd.cleaned dataframe)) ↔ pd.CountersFit dataframe := by
  constructor
  · intro hclean name hcounter n hn
    have hfeature := intColumns_subset name hcounter.1
    exact Number.fits_of_isNat hcounter
      ((pd.allNumbers_cleaned_iff hfeature _).mp (hclean.features name hfeature) n hn)
  · intro hfit
    have hcells : ∀ name, ∀ n ∈ pd.numbers (pd.keptColumn dataframe name),
        Number.IsClean name (Number.cleanCell name n) := fun name n hn =>
      Number.isClean_cleanCell fun hcounter => hfit name hcounter n hn
    refine ⟨DataFrame.names_canonical _, fun name hname => ?_, ?_, ?_, ?_⟩
    · exact (pd.allNumbers_cleaned_iff hname _).mpr fun n hn =>
        Number.isNat_of_isClean (hcells name n hn)
    · refine (pd.allNumbers_cleaned_iff protocol_mem _).mpr fun n hn => ?_
      obtain ⟨i, hi, hmem⟩ := hcells "protocol" n hn
      exact ⟨i.toInt, hmem, by rw [hi]; rfl⟩
    · refine (pd.allNumbers_cleaned_iff dst_port_mem _).mpr fun n hn => ?_
      obtain ⟨i, hi, hrange⟩ := hcells "dst_port" n hn
      exact ⟨i.toInt, by rw [hi]; rfl, hrange⟩
    · refine ⟨pd.keptLabels dataframe, ?_, pd.keptLabels_spec dataframe⟩
      rw [DataFrame.column_canonical _ labelColumn_mem, cleaned_label]

/-- Cleaning returns a clean frame that a second cleaning leaves as it is, exactly if the
counters fit. -/
theorem sanitize_clean_iff (dataframe : DataFrame Cell) (h : dataframe.HasCanonicalColumns) :
    (∃ cleaned, pd.sanitizePreparedChunk dataframe = .ok cleaned ∧ CleanFrame pd cleaned ∧
      pd.sanitizePreparedChunk cleaned = .ok cleaned) ↔ pd.CountersFit dataframe := by
  have hnames : ∀ name ∈ canonicalColumns,
      name ∈ dataframe.columns.map fun column => strip column.1 := fun name hname =>
    List.count_pos_iff.mp (by rw [h name hname]; exact Nat.one_pos)
  rw [pd.sanitize_eq dataframe hnames]
  constructor
  · rintro ⟨cleaned, heq, hclean, -⟩
    obtain rfl := Except.ok.inj heq
    exact (pd.cleanFrame_iff dataframe).mp hclean
  · intro hfit
    refine ⟨_, rfl, (pd.cleanFrame_iff dataframe).mpr hfit, pd.sanitize_again dataframe ?_⟩
    exact fun name _ n hn => Number.isClean_cleanCell fun hcounter => hfit name hcounter n hn

/-- Objects that are texts, none of them a number. -/
def ofTexts : Pandas String where
  toNumeric cells := cells.map fun _ => .float64 .nan
  length_toNumeric _ := List.length_map _
  asText
    | .numeric values => values.map fun _ => none
    | .object cells => cells.map some
  text := id
  asText_text texts := by rw [List.map_id]

/-- One row with this header length, and ones elsewhere. -/
def oneRow (headerLength : Number) : DataFrame String := .canonical fun name =>
  if name = labelColumn then .object ["DDoS"]
  else .numeric [if name = "fwd_header_length" then headerLength else .int64 1]

theorem keptColumn_oneRow (headerLength : Number) {name : String} (h : name ∈ featureColumns) :
    ofTexts.keptColumn (oneRow headerLength) name =
      .numeric [if name = "fwd_header_length" then headerLength else .int64 1] := by
  unfold keptColumn oneRow
  rw [DataFrame.column_canonical _ labelColumn_mem, if_pos rfl,
    DataFrame.column_canonical _ (List.mem_append_left _ h), if_neg (ne_labelColumn h)]
  have hkeep : ∀ b ∈ [true], b = true := by decide
  exact mask_of_forall hkeep (Nat.le_refl 1)

theorem sanitize_clean_iff_of_oneRow :
    ∃ cleaned, ofTexts.sanitizePreparedChunk (oneRow (.int64 40)) = .ok cleaned ∧
      CleanFrame ofTexts cleaned ∧ ofTexts.sanitizePreparedChunk cleaned = .ok cleaned := by
  refine (ofTexts.sanitize_clean_iff (oneRow (.int64 40))
    (DataFrame.hasCanonicalColumns_canonical _)).mpr ?_
  intro name hcounter n hn
  rw [keptColumn_oneRow _ (intColumns_subset name hcounter.1)] at hn
  obtain ⟨i, rfl⟩ : ∃ i, n = .int64 i := by
    rw [List.mem_singleton.mp hn]
    split <;> exact ⟨_, rfl⟩
  intro v hv
  obtain rfl := PyFloat.finite.inj hv
  rw [pyRound_intCast]
  exact i.toInt_lt

theorem header_length_overflows :
    ¬ ∃ cleaned, ofTexts.sanitizePreparedChunk (oneRow (.float64 (.finite (2 ^ 63)))) = .ok cleaned ∧
      CleanFrame ofTexts cleaned ∧ ofTexts.sanitizePreparedChunk cleaned = .ok cleaned := by
  rintro ⟨cleaned, heq, hclean, -⟩
  rw [sanitize_eq _ (oneRow _) (DataFrame.mem_names_canonical _)] at heq
  obtain rfl := Except.ok.inj heq
  have hfit := (ofTexts.cleanFrame_iff _).mp hclean "fwd_header_length"
    ⟨by decide, by decide, by decide⟩
    (.float64 (.finite (2 ^ 63))) (by
      rw [keptColumn_oneRow _ (by decide +kernel)]
      exact List.mem_singleton_self _)
  have hround : pyRound ((2 ^ 63 : ℤ) : ℚ) = 2 ^ 63 := pyRound_intCast _
  rw [Int.cast_pow, Int.cast_ofNat] at hround
  have hlt := hfit _ rfl
  rw [hround] at hlt
  exact absurd hlt (lt_irrefl _)

end Pandas

end SmartIDS.ML
