import SmartIDS.ML.PreparedChunk
set_option autoImplicit false

/-!
# ML: what cleaning a chunk comes to

Cleaning acts cell by cell on the rows that are kept (`sanitize_eq`).  A cell that is
clean stays as it is, and every cell comes out clean but one kind: a number of an
integer column that does not fit into 64 bits comes out negative.
-/

namespace SmartIDS.ML

open SmartIDS.Foundation SmartIDS.Python

namespace Number

/-! ## Numbers -/

/-- A number that is finite and not negative. -/
def IsNat (x : PyFloat) : Prop := ∃ v : ℚ, x = .finite v ∧ 0 ≤ v

/-- The number in a cell once gaps are filled and the range is clipped. -/
def filled : PyFloat → ℚ
  | .finite v => max v 0
  | _ => 0

theorem filled_nonneg (x : PyFloat) : 0 ≤ filled x := by
  cases x with
  | finite v => exact le_max_right v 0
  | inf => exact le_rfl
  | negInf => exact le_rfl
  | nan => exact le_rfl

/-- `pd.to_numeric` is behind a cell; this is what stands in front of the casts. -/
def prepared (n : Number) : Number := n.replaceInf.fillna.clip

theorem finite_lt_iff (a b : ℚ) : PyFloat.finite a < .finite b ↔ a < b := by
  change ((PyFloat.finite a).le (.finite b) = true ∧ ¬ (PyFloat.finite b).le (.finite a) = true) ↔ _
  simp only [PyFloat.le, decide_eq_true_eq]
  exact ⟨fun h => not_le.mp h.2, fun h => ⟨h.le, not_le.mpr h⟩⟩

theorem value_zero (n : Number) : n.zero.value = .finite 0 := by
  cases n <;> simp [zero, value]

theorem clip_of_finite {n : Number} {v : ℚ} (h : n.value = .finite v) :
    n.clip.value = .finite (max v 0) := by
  have hneg : n.value < .finite 0 ↔ v < 0 := by rw [h, finite_lt_iff]
  unfold clip
  split
  · next hlt => rw [value_zero, max_eq_right (hneg.mp hlt).le]
  · next hge => rw [h, max_eq_left (not_lt.mp (mt hneg.mpr hge))]

theorem value_prepared (n : Number) : n.prepared.value = .finite (filled n.value) := by
  have hfilled : ∃ v, n.replaceInf.fillna.value = .finite v ∧ max v 0 = filled n.value := by
    cases n with
    | int64 n => exact ⟨_, rfl, rfl⟩
    | uint64 n => exact ⟨_, rfl, rfl⟩
    | float64 x =>
      cases x with
      | finite v => exact ⟨v, rfl, rfl⟩
      | inf => exact ⟨0, rfl, max_self 0⟩
      | negInf => exact ⟨0, rfl, max_self 0⟩
      | nan => exact ⟨0, rfl, max_self 0⟩
  obtain ⟨v, hv, hmax⟩ := hfilled
  unfold prepared
  rw [clip_of_finite hv, hmax]

/-- The integer a finite number is cast to. -/
def toInt64 (n : Number) : Int64 :=
  match n.astypeInt64 with
  | .ok i => i
  | .error _ => 0

theorem astypeInt64_of_finite {n : Number} {v : ℚ} (h : n.value = .finite v) :
    n.astypeInt64 = .ok n.toInt64 := by
  cases n with
  | int64 n => rfl
  | uint64 n => rfl
  | float64 x =>
    obtain rfl : x = .finite v := h
    rfl

theorem round_of_finite {n : Number} {v : ℚ} (h : n.value = .finite v) :
    n.round.value = .finite (pyRound v) := by
  cases n with
  | int64 n =>
    obtain rfl := PyFloat.finite.inj h
    rw [pyRound_intCast]
    rfl
  | uint64 n =>
    obtain rfl := PyFloat.finite.inj h
    have hcast : ((n.toNat : ℕ) : ℚ) = ((n.toNat : ℤ) : ℚ) := (Int.cast_natCast _).symm
    rw [hcast, pyRound_intCast]
    rfl
  | float64 x =>
    obtain rfl : x = .finite v := h
    rfl

theorem truncate_intCast (n : ℤ) : truncate n = n := by
  unfold truncate
  rw [Int.floor_intCast, Int.ceil_intCast, ite_self]

theorem toInt_toInt64 (n : UInt64) :
    n.toInt64.toInt = if n.toNat < 2 ^ 63 then (n.toNat : ℤ) else n.toNat - 2 ^ 64 := by
  have hbits : n.toInt64.toInt = n.toBitVec.toInt := rfl
  have hnat : n.toBitVec.toNat = n.toNat := rfl
  rw [hbits, BitVec.toInt_eq_toNat_cond, hnat]
  split <;> split <;> omega

/-- A number that rounds to a 64 bit integer is cast to it, a greater one to a negative one. -/
theorem toInt_round {n : Number} {v : ℚ} (h : n.value = .finite v) (hv : 0 ≤ v) :
    (pyRound v < 2 ^ 63 → n.round.toInt64.toInt = pyRound v) ∧
      (2 ^ 63 ≤ pyRound v → n.round.toInt64.toInt < 0) := by
  cases n with
  | int64 n =>
    obtain rfl := PyFloat.finite.inj h
    have hcast : (Number.int64 n).round.toInt64 = n := rfl
    rw [pyRound_intCast, hcast]
    exact ⟨fun _ => rfl, fun hge => absurd n.toInt_lt (not_lt.mpr hge)⟩
  | uint64 n =>
    obtain rfl := PyFloat.finite.inj h
    have hcast : (Number.uint64 n).round.toInt64 = n.toInt64 := rfl
    have hlt := n.toNat_lt
    rw [← Int.cast_natCast, pyRound_intCast, hcast, toInt_toInt64]
    refine ⟨fun hsmall => ?_, fun hlarge => ?_⟩
    · rw [if_pos (by omega)]
    · rw [if_neg (by omega)]
      omega
  | float64 x =>
    obtain rfl : x = .finite v := h
    have hcast : (Number.float64 (.finite v)).round.toInt64 = castInt64 (pyRound v) := rfl
    have hnonneg : 0 ≤ pyRound v := le_pyRound (by exact_mod_cast hv)
    rw [hcast]
    unfold castInt64
    rw [truncate_intCast]
    refine ⟨fun hsmall => ?_, fun hlarge => ?_⟩
    · rw [if_pos ⟨by omega, hsmall⟩, Int64.toInt_ofInt_of_le (by omega) hsmall]
    · rw [if_neg (fun hfits => absurd hfits.2 (not_lt.mpr hlarge)), Int64.toInt_minValue]
      norm_num

theorem prepared_int64 {i : Int64} (h : 0 ≤ i.toInt) : (Number.int64 i).prepared = .int64 i := by
  have hnot : ¬ (Number.int64 i).value < .finite 0 := by
    change ¬ PyFloat.finite (i.toInt : ℚ) < .finite 0
    rw [finite_lt_iff, not_lt]
    exact_mod_cast h
  exact if_neg hnot

theorem prepared_float64 {v : ℚ} (h : 0 ≤ v) :
    (Number.float64 (.finite v)).prepared = .float64 (.finite v) := by
  have hnot : ¬ (Number.float64 (.finite v)).value < .finite 0 := by
    change ¬ PyFloat.finite v < .finite 0
    rw [finite_lt_iff, not_lt]
    exact h
  exact if_neg hnot

theorem nearestDouble_nonneg {n : ℤ} (h : 0 ≤ n) : 0 ≤ nearestDouble n := by
  have hn : (0 : ℚ) ≤ n := by exact_mod_cast h
  unfold nearestDouble
  split
  · exact hn
  · have hunit : (0 : ℚ) < 2 ^ (n.natAbs.log2 - 52) := pow_pos two_pos _
    have hround : 0 ≤ pyRound (n / 2 ^ (n.natAbs.log2 - 52)) :=
      le_pyRound (by exact_mod_cast div_nonneg hn hunit.le)
    exact mul_nonneg (by exact_mod_cast hround) hunit.le

/-- A number in the range of ports, or the zero in its place. -/
theorem value_validPort {n : Number} {v : ℚ} (h : n.value = .finite v) :
    ∃ w : ℚ, n.validPort.value = .finite w ∧ 0 ≤ w ∧ w ≤ 65535 := by
  have hcases : (n.value < .finite 0 ∨ .finite 65535 < n.value) ↔ v < 0 ∨ 65535 < v := by
    rw [h, finite_lt_iff, finite_lt_iff]
  unfold validPort
  split
  · exact ⟨0, value_zero n, le_rfl, by norm_num⟩
  · next hrange =>
    rw [hcases, not_or, not_lt, not_lt] at hrange
    exact ⟨v, h, hrange⟩

theorem validPort_int64 {i : Int64} (h : 0 ≤ i.toInt) (h' : i.toInt ≤ 65535) :
    (Number.int64 i).validPort = .int64 i := by
  have hnot : ¬ ((Number.int64 i).value < .finite 0 ∨ .finite 65535 < (Number.int64 i).value) := by
    change ¬ (PyFloat.finite (i.toInt : ℚ) < .finite 0 ∨ .finite 65535 < PyFloat.finite (i.toInt : ℚ))
    rw [finite_lt_iff, finite_lt_iff, not_or, not_lt, not_lt]
    exact ⟨by exact_mod_cast h, by exact_mod_cast h'⟩
  exact if_neg hnot

theorem validProtocol_mem (i : Int64) : (validProtocol i).toInt ∈ validProtocols := by
  unfold validProtocol
  split
  · next hmem => exact List.contains_iff_mem.mp hmem
  · decide

theorem validProtocol_of_mem {i : Int64} (h : i.toInt ∈ validProtocols) : validProtocol i = i :=
  if_pos (List.contains_iff_mem.mpr h)

/-! ## Cells -/

/-- What becomes of a cell of a column. -/
def cleanCell (column : String) (n : Number) : Number :=
  if column = "protocol" then .int64 (validProtocol n.prepared.round.toInt64)
  else if column = "dst_port" then .int64 n.prepared.round.validPort.round.toInt64
  else if column ∈ intColumns then .int64 n.prepared.round.toInt64
  else n.prepared.astypeFloat64

/-- A cell as cleaning is to leave it. -/
def IsClean (column : String) (n : Number) : Prop :=
  if column = "protocol" then ∃ i, n = .int64 i ∧ i.toInt ∈ validProtocols
  else if column = "dst_port" then ∃ i, n = .int64 i ∧ 0 ≤ i.toInt ∧ i.toInt ≤ 65535
  else if column ∈ intColumns then ∃ i, n = .int64 i ∧ 0 ≤ i.toInt
  else ∃ v, n = .float64 (.finite v) ∧ 0 ≤ v

/-- An integer column without a range of its own. -/
def IsCounter (column : String) : Prop :=
  column ∈ intColumns ∧ column ≠ "protocol" ∧ column ≠ "dst_port"

/-- A number that rounds to a 64 bit integer, or none at all. -/
def Fits (n : Number) : Prop := ∀ v, n.value = .finite v → pyRound v < 2 ^ 63

/-- A clean cell is a number that is finite and not negative. -/
theorem isNat_of_isClean {column : String} {n : Number} (h : IsClean column n) : IsNat n.value := by
  have hint : ∀ i : Int64, 0 ≤ i.toInt → IsNat (Number.int64 i).value := fun i hi =>
    ⟨i.toInt, rfl, by exact_mod_cast hi⟩
  unfold IsClean at h
  split_ifs at h
  · obtain ⟨i, rfl, hi⟩ := h
    refine hint i ?_
    simp only [validProtocols, List.mem_cons, List.not_mem_nil, or_false] at hi
    omega
  · obtain ⟨i, rfl, hi, -⟩ := h
    exact hint i hi
  · obtain ⟨i, rfl, hi⟩ := h
    exact hint i hi
  · obtain ⟨v, rfl, hv⟩ := h
    exact ⟨v, rfl, hv⟩

/-- What is clean stays as it is. -/
theorem cleanCell_of_isClean {column : String} {n : Number} (h : IsClean column n) :
    cleanCell column n = n := by
  have hnat := isNat_of_isClean h
  have hint : ∀ i : Int64, IsNat (Number.int64 i).value → 0 ≤ i.toInt := by
    rintro i ⟨v, hv, hnonneg⟩
    obtain rfl := PyFloat.finite.inj hv
    exact_mod_cast hnonneg
  have hround : ∀ i : Int64, (Number.int64 i).round.toInt64 = i := fun _ => rfl
  unfold cleanCell
  unfold IsClean at h
  split_ifs at h ⊢
  · obtain ⟨i, rfl, hi⟩ := h
    rw [prepared_int64 (hint i hnat), hround, validProtocol_of_mem hi]
  · obtain ⟨i, rfl, hi, hi'⟩ := h
    have hport : (Number.int64 i).round.validPort = .int64 i := validPort_int64 hi hi'
    rw [prepared_int64 hi, hport, hround]
  · obtain ⟨i, rfl, hi⟩ := h
    rw [prepared_int64 hi, hround]
  · obtain ⟨v, rfl, hv⟩ := h
    rw [prepared_float64 hv]
    rfl

/-- A counter comes out clean, or negative. -/
theorem nonneg_counter_iff (n : Number) : 0 ≤ n.prepared.round.toInt64.toInt ↔ Fits n := by
  obtain ⟨hsmall, hlarge⟩ := toInt_round (value_prepared n) (filled_nonneg n.value)
  have hfits : Fits n ↔ pyRound (filled n.value) < 2 ^ 63 := by
    unfold Fits
    cases n.value with
    | finite v =>
      have hzero : pyRound 0 = 0 := by exact_mod_cast pyRound_intCast 0
      have hmax : pyRound (max v 0) < 2 ^ 63 ↔ pyRound v < 2 ^ 63 := by
        rcases le_total v 0 with hle | hge
        · have hround : pyRound v ≤ 0 := pyRound_le (by exact_mod_cast hle)
          rw [max_eq_right hle, hzero]
          omega
        · rw [max_eq_left hge]
      exact ⟨fun h => hmax.mpr (h v rfl), fun h w hw => PyFloat.finite.inj hw ▸ hmax.mp h⟩
    | inf | negInf | nan =>
      have hzero : pyRound 0 = 0 := by exact_mod_cast pyRound_intCast 0
      refine iff_of_true (fun w hw => absurd hw (by simp)) ?_
      change pyRound 0 < 2 ^ 63
      rw [hzero]
      norm_num
  rw [hfits]
  constructor
  · exact fun hnonneg => lt_of_not_ge fun hge => absurd (hlarge hge) (not_lt.mpr hnonneg)
  · intro hlt
    rw [hsmall hlt]
    exact le_pyRound (by exact_mod_cast filled_nonneg n.value)

/-- Every cell comes out clean, a counter if it fits. -/
theorem isClean_cleanCell {column : String} {n : Number} (h : IsCounter column → Fits n) :
    IsClean column (cleanCell column n) := by
  have hvalue := value_prepared n
  unfold IsClean cleanCell
  split_ifs with hprotocol hport hint
  · exact ⟨_, rfl, validProtocol_mem _⟩
  · obtain ⟨w, hw, hnonneg, hle⟩ := value_validPort (round_of_finite hvalue)
    have hround : pyRound w ≤ 65535 := pyRound_le (by exact_mod_cast hle)
    refine ⟨_, rfl, ?_⟩
    rw [(toInt_round hw hnonneg).1 (by omega)]
    exact ⟨le_pyRound (by exact_mod_cast hnonneg), hround⟩
  · exact ⟨_, rfl, (nonneg_counter_iff n).mpr (h ⟨hint, hprotocol, hport⟩)⟩
  · have hnonneg := filled_nonneg n.value
    cases hn : n.prepared with
    | int64 i =>
      rw [hn] at hvalue
      refine ⟨_, rfl, nearestDouble_nonneg ?_⟩
      rw [← PyFloat.finite.inj hvalue] at hnonneg
      exact_mod_cast hnonneg
    | uint64 i => exact ⟨_, rfl, nearestDouble_nonneg (Int.natCast_nonneg _)⟩
    | float64 x =>
      rw [hn] at hvalue
      obtain rfl : x = .finite _ := hvalue
      exact ⟨_, rfl, hnonneg⟩

theorem fits_of_isNat {column : String} (hcounter : IsCounter column) {n : Number}
    (h : IsNat (cleanCell column n).value) : Fits n := by
  obtain ⟨hint, hprotocol, hport⟩ := hcounter
  unfold cleanCell at h
  rw [if_neg hprotocol, if_neg hport, if_pos hint] at h
  obtain ⟨v, hv, hnonneg⟩ := h
  obtain rfl := PyFloat.finite.inj hv
  exact (nonneg_counter_iff n).mp (by exact_mod_cast hnonneg)

end Number

/-! ## Frames -/

theorem roundInt64_of_finite {values : List Number} (h : ∀ n ∈ values, ∃ v, n.value = .finite v) :
    Pandas.roundInt64 values = .ok (values.map fun n => n.round.toInt64) := by
  unfold Pandas.roundInt64
  rw [Columns.mapM_of_forall_ok (g := Number.toInt64), List.map_map]
  · rfl
  · intro n hn
    obtain ⟨m, hm, rfl⟩ := List.mem_map.mp hn
    obtain ⟨v, hv⟩ := h m hm
    exact Number.astypeInt64_of_finite (Number.round_of_finite hv)

namespace Pandas

variable {Cell : Type} (pd : Pandas Cell)

/-- The labels of the rows that are kept, stripped. -/
def keptLabels (dataframe : DataFrame Cell) : List String :=
  ((pd.asText (dataframe.column labelColumn)).reduceOption.map strip).filter
    fun label => !badLabels.contains (lower label)

/-- The rows of a column that are kept. -/
def keptColumn (dataframe : DataFrame Cell) (column : String) : Series Cell :=
  let labels := pd.asText (dataframe.column labelColumn)
  ((dataframe.column column).mask (labels.map Option.isSome)).mask
    ((labels.reduceOption.map strip).map fun label => !badLabels.contains (lower label))

/-- The columns of a cleaned frame. -/
def cleaned (dataframe : DataFrame Cell) (column : String) : Series Cell :=
  if column = labelColumn then .object ((pd.keptLabels dataframe).map pd.text)
  else if pd.keptLabels dataframe = [] then pd.keptColumn dataframe column
  else .numeric ((pd.numbers (pd.keptColumn dataframe column)).map (Number.cleanCell column))

theorem cleaned_label (dataframe : DataFrame Cell) :
    pd.cleaned dataframe labelColumn = .object ((pd.keptLabels dataframe).map pd.text) := if_pos rfl

theorem cleaned_of_none {dataframe : DataFrame Cell} {column : String} (hne : column ≠ labelColumn)
    (hnone : pd.keptLabels dataframe = []) :
    pd.cleaned dataframe column = pd.keptColumn dataframe column := by
  unfold cleaned
  rw [if_neg hne, if_pos hnone]

theorem cleaned_of_some {dataframe : DataFrame Cell} {column : String} (hne : column ≠ labelColumn)
    (hsome : pd.keptLabels dataframe ≠ []) :
    pd.cleaned dataframe column =
      .numeric ((pd.numbers (pd.keptColumn dataframe column)).map (Number.cleanCell column)) := by
  unfold cleaned
  rw [if_neg hne, if_neg hsome]

theorem canonical_congr {working working' : String → Series Cell}
    (h : ∀ column ∈ canonicalColumns, working column = working' column) :
    DataFrame.canonical working = .canonical working' := by
  unfold DataFrame.canonical
  rw [List.map_congr_left fun column hcolumn => by rw [h column hcolumn]]

theorem labelledRows_label (dataframe : DataFrame Cell) :
    pd.labelledRows dataframe.column labelColumn =
      .object ((pd.keptLabels dataframe).map pd.text) := by
  unfold labelledRows keptLabels
  rw [Function.update_self]
  dsimp only [Series.mask]
  rw [Columns.mask_map, Columns.mask_eq_filter]

theorem labelledRows_of_ne (dataframe : DataFrame Cell) {column : String}
    (h : column ≠ labelColumn) :
    pd.labelledRows dataframe.column column = pd.keptColumn dataframe column := by
  unfold labelledRows keptColumn
  simp only [Function.update_of_ne h]

/-- What becomes of a cell behind the clipping. -/
def castCell (column : String) (n : Number) : Number :=
  if column = "protocol" then .int64 (Number.validProtocol n.round.toInt64)
  else if column = "dst_port" then .int64 n.round.validPort.round.toInt64
  else if column ∈ intColumns then .int64 n.round.toInt64
  else n.astypeFloat64

/-- The columns with the protocols and the ports set to 0 where they are not valid. -/
def rangedColumns (numeric : String → List Number) : String → List Number :=
  let protocol := (numeric "protocol").map fun n => n.round.toInt64
  let numeric := Function.update numeric "protocol"
    (protocol.map fun n => .int64 (Number.validProtocol n))
  Function.update numeric "dst_port" ((numeric "dst_port").map fun n => n.round.validPort)

/-- The two columns with a range of their own are finite behind it. -/
theorem finite_ranged {numeric : String → List Number}
    (h : ∀ column, ∀ n ∈ numeric column, ∃ v, n.value = .finite v) (column : String) :
    ∀ n ∈ rangedColumns numeric column, ∃ v, n.value = .finite v := by
  unfold rangedColumns
  intro n hn
  rcases eq_or_ne column "dst_port" with rfl | hport
  · rw [Function.update_self, Function.update_of_ne (by decide)] at hn
    obtain ⟨m, hm, rfl⟩ := List.mem_map.mp hn
    obtain ⟨v, hv⟩ := h _ m hm
    obtain ⟨w, hw, -⟩ := Number.value_validPort (Number.round_of_finite hv)
    exact ⟨w, hw⟩
  · rw [Function.update_of_ne hport] at hn
    rcases eq_or_ne column "protocol" with rfl | hprotocol
    · rw [Function.update_self] at hn
      obtain ⟨m, -, rfl⟩ := List.mem_map.mp hn
      exact ⟨_, rfl⟩
    · rw [Function.update_of_ne hprotocol] at hn
      exact h column n hn

/-- The columns once the integer columns are cast. -/
def intTable (numeric : String → List Number) (column : String) : List Number :=
  if column ∈ intColumns then
    ((rangedColumns numeric column).map fun n => n.round.toInt64).map .int64
  else rangedColumns numeric column

theorem intTable_eq {numeric : String → List Number} {column : String} (h : column ∈ intColumns) :
    intTable numeric column = (numeric column).map (castCell column) := by
  unfold intTable rangedColumns
  rw [if_pos h]
  rcases eq_or_ne column "dst_port" with rfl | hport
  · rw [Function.update_self, Function.update_of_ne (by decide), List.map_map, List.map_map]
    exact List.map_congr_left fun n _ => rfl
  · rw [Function.update_of_ne hport]
    rcases eq_or_ne column "protocol" with rfl | hprotocol
    · rw [Function.update_self, List.map_map, List.map_map, List.map_map]
      exact List.map_congr_left fun n _ => rfl
    · rw [Function.update_of_ne hprotocol, List.map_map]
      refine List.map_congr_left fun n _ => ?_
      unfold castCell
      rw [if_neg hprotocol, if_neg hport, if_pos h]
      rfl

theorem castColumns_eq {numeric : String → List Number}
    (h : ∀ column, ∀ n ∈ numeric column, ∃ v, n.value = .finite v) :
    ∃ cast, castColumns numeric = .ok cast ∧
      ∀ column ∈ featureColumns, cast column = (numeric column).map (castCell column) := by
  have hfold := Columns.foldlM_assign (List.map Number.int64) nodup_intColumns
    fun column _ => roundInt64_of_finite (finite_ranged h column)
  have hcast : castColumns numeric = .ok
      ((featureColumns.filter fun column => !intColumns.contains column).foldl
        (fun numeric column =>
          Function.update numeric column ((numeric column).map Number.astypeFloat64))
        (intTable numeric)) := by
    exact (Columns.bind_of_ok (roundInt64_of_finite (h "protocol")) _).trans
      (Columns.bind_of_ok hfold _)
  refine ⟨_, hcast, fun column hcolumn => ?_⟩
  have hassign := Columns.foldl_assign (fun _ values => values.map Number.astypeFloat64)
    (nodup_featureColumns.filter fun column => !intColumns.contains column) (intTable numeric) column
  refine hassign.trans ?_
  rcases em (column ∈ intColumns) with hint | hfloat
  · rw [if_neg (by simp [hint]), intTable_eq hint]
  · have hother : ∀ other ∈ intColumns, column ≠ other := fun other hmem heq => hfloat (heq ▸ hmem)
    rw [if_pos (by simp [hcolumn, hfloat]), intTable, if_neg hfloat, rangedColumns,
      Function.update_of_ne (hother _ (by decide)), Function.update_of_ne (hother _ (by decide))]
    refine List.map_congr_left fun n _ => ?_
    unfold castCell
    rw [if_neg (hother _ (by decide)), if_neg (hother _ (by decide)), if_neg hfloat]

/-- Cleaning raises nothing, and acts cell by cell on the rows that are kept. -/
theorem sanitize_eq (dataframe : DataFrame Cell)
    (h : ∀ column ∈ canonicalColumns, column ∈ dataframe.columns.map fun column => strip column.1) :
    pd.sanitizePreparedChunk dataframe = .ok (.canonical (pd.cleaned dataframe)) := by
  have hheader : validatePreparedHeader (dataframe.columns.map fun column => strip column.1) =
      .ok () := by
    unfold validatePreparedHeader
    refine if_pos ?_
    rw [List.isEmpty_iff, List.filter_eq_nil_iff]
    intro column hcolumn
    rw [List.contains_iff_mem.mpr (h column hcolumn)]
    decide
  have hempty : (pd.labelledRows dataframe.column labelColumn).length = 0 ↔
      pd.keptLabels dataframe = [] := by
    rw [labelledRows_label, Series.length, List.length_map, List.length_eq_zero_iff]
  obtain ⟨cast, hcast, hcells⟩ := @castColumns_eq (fun column =>
      (pd.numbers (pd.labelledRows dataframe.column column)).map Number.prepared)
    fun column n hn => by
      obtain ⟨m, -, rfl⟩ := List.mem_map.mp hn
      exact ⟨_, Number.value_prepared m⟩
  have hrest : pd.sanitizePreparedChunk dataframe =
      if (pd.labelledRows dataframe.column labelColumn).length = 0 then
        .ok (.canonical (pd.labelledRows dataframe.column))
      else .ok (.canonical fun column => if featureColumns.contains column then .numeric (cast column)
        else pd.labelledRows dataframe.column column) := by
    refine (Columns.bind_of_ok hheader _).trans (if_congr Iff.rfl rfl ?_)
    exact Columns.bind_of_ok hcast _
  rw [hrest]
  split
  · next hnone =>
    refine congrArg Except.ok (canonical_congr fun column _ => ?_)
    rcases eq_or_ne column labelColumn with rfl | hne
    · rw [cleaned_label, labelledRows_label]
    · rw [pd.cleaned_of_none hne (hempty.mp hnone), pd.labelledRows_of_ne dataframe hne]
  · next hsome =>
    refine congrArg Except.ok (canonical_congr fun column hcolumn => ?_)
    rcases eq_or_ne column labelColumn with rfl | hne
    · rw [cleaned_label, if_neg (by simp [labelColumn_notMem]), labelledRows_label]
    · have hfeature := mem_featureColumns hcolumn hne
      rw [pd.cleaned_of_some hne (mt hempty.mpr hsome), if_pos (List.contains_iff_mem.mpr hfeature),
        hcells column hfeature, pd.labelledRows_of_ne dataframe hne, List.map_map]
      rfl

end Pandas

end SmartIDS.ML
