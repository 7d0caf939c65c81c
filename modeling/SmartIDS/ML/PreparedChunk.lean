import Mathlib.Data.List.ReduceOption
import SmartIDS.Foundation.Columns
import SmartIDS.ML.FeatureSchema
import SmartIDS.Python.Counter
import SmartIDS.Python.Value
set_option autoImplicit false

/-!
# ML: cleaning a chunk of the prepared dataset

`prepared_cicids2018_common.py`.  A frame is kept by columns; a numeric column has
64 bit integers or doubles in it, any other column holds objects.  What pandas makes
of the objects is a parameter.  A cell is a number of one of three kinds, so that the
cast to `int64` can be told from the number.
-/

namespace SmartIDS.ML

open SmartIDS.Foundation SmartIDS.Python

/-! ## Names -/

/-- `BAD_LABELS`. -/
def badLabels : List String := ["", "nan", "none", "null", "label", "attack type"]

/-- `VALID_PROTOCOLS`. -/
def validProtocols : List ℤ := [0, 1, 6, 17]

/-- `INT_COLUMNS`. -/
def intColumns : List String :=
  ["dst_port", "protocol", "total_fwd_packets", "total_fwd_bytes", "fin_flag_count",
    "syn_flag_count", "rst_flag_count", "psh_flag_count", "ack_flag_count", "urg_flag_count",
    "fwd_header_length", "init_win_bytes_forward", "act_data_pkt_fwd", "min_seg_size_forward"]

theorem nodup_intColumns : intColumns.Nodup := by decide +kernel

/-- `CANONICAL_COLUMNS`. -/
def canonicalColumns : List String := featureColumns ++ [labelColumn]

theorem labelColumn_mem : labelColumn ∈ canonicalColumns :=
  List.mem_append_right _ (List.mem_singleton_self _)

theorem mem_featureColumns {name : String} (h : name ∈ canonicalColumns) (hne : name ≠ labelColumn) :
    name ∈ featureColumns :=
  (List.mem_append.mp h).resolve_right fun hmem => hne (List.mem_singleton.mp hmem)

theorem nodup_canonicalColumns : canonicalColumns.Nodup :=
  nodup_featureColumns.append (List.nodup_singleton _)
    (List.disjoint_singleton.mpr labelColumn_notMem)

/-! ## Numbers -/

/-- A cell of a numeric column. -/
inductive Number where
  | int64 (n : Int64)
  | uint64 (n : UInt64)
  | float64 (x : PyFloat)
  deriving DecidableEq

/-- The double nearest to an integer; a tie goes to the even significand. -/
def nearestDouble (n : ℤ) : ℚ :=
  if n.natAbs < 2 ^ 53 then n
  else
    let unit : ℚ := 2 ^ (n.natAbs.log2 - 52)
    pyRound (n / unit) * unit

namespace Number

/-- The number in the cell. -/
def value : Number → PyFloat
  | .int64 n => .finite n.toInt
  | .uint64 n => .finite n.toNat
  | .float64 x => x

/-- The zero that is written to a cell of this kind. -/
def zero : Number → Number
  | .int64 _ => .int64 0
  | .uint64 _ => .uint64 0
  | .float64 _ => .float64 (.finite 0)

/-- `replace([np.inf, -np.inf], np.nan)`. -/
def replaceInf : Number → Number
  | .float64 .inf => .float64 .nan
  | .float64 .negInf => .float64 .nan
  | n => n

/-- `fillna(0)`. -/
def fillna : Number → Number
  | .float64 .nan => .float64 (.finite 0)
  | n => n

/-- `clip(lower=0)`. -/
def clip (n : Number) : Number := if n.value < .finite 0 then n.zero else n

/-- `round()`. -/
def round : Number → Number
  | .float64 (.finite v) => .float64 (.finite (pyRound v))
  | n => n

/-- The cast of a double; one that does not fit comes out as the least integer. -/
def castInt64 (v : ℚ) : Int64 :=
  if -2 ^ 63 ≤ truncate v ∧ truncate v < 2 ^ 63 then Int64.ofInt (truncate v) else Int64.minValue

/-- `astype("int64")`; a number that is not finite raises a `ValueError`. -/
def astypeInt64 : Number → Except PyError Int64
  | .int64 n => .ok n
  | .uint64 n => .ok n.toInt64
  | .float64 (.finite v) => .ok (castInt64 v)
  | .float64 _ => .error .valueError

/-- `astype("float64")`. -/
def astypeFloat64 : Number → Number
  | .int64 n => .float64 (.finite (nearestDouble n.toInt))
  | .uint64 n => .float64 (.finite (nearestDouble n.toNat))
  | .float64 x => .float64 x

/-- `working.loc[~working["protocol"].isin(VALID_PROTOCOLS), "protocol"] = 0`. -/
def validProtocol (n : Int64) : Int64 := if validProtocols.contains n.toInt then n else 0

/-- `working.loc[(working["dst_port"] < 0) | (working["dst_port"] > 65535), "dst_port"] = 0`. -/
def validPort (n : Number) : Number :=
  if n.value < .finite 0 ∨ .finite 65535 < n.value then n.zero else n

end Number

/-! ## Frames -/

/-- A column; the cells of a numeric one are of one kind. -/
inductive Series (Cell : Type) where
  | numeric (values : List Number)
  | object (cells : List Cell)

namespace Series

variable {Cell : Type}

def length : Series Cell → ℕ
  | .numeric values => values.length
  | .object cells => cells.length

def mask (keep : List Bool) : Series Cell → Series Cell
  | .numeric values => .numeric (Columns.mask keep values)
  | .object cells => .object (Columns.mask keep cells)

end Series

/-- The columns with their names. -/
structure DataFrame (Cell : Type) where
  columns : List (String × Series Cell)

/-- The column under a name, up to blanks around it. -/
def DataFrame.column {Cell : Type} (dataframe : DataFrame Cell) (name : String) : Series Cell :=
  ((dataframe.columns.find? fun column => strip column.1 == name).map Prod.snd).getD (.object [])

/-- The canonical columns of a table, `working.loc[:, CANONICAL_COLUMNS]`. -/
def DataFrame.canonical {Cell : Type} (working : String → Series Cell) : DataFrame Cell :=
  ⟨canonicalColumns.map fun name => (name, working name)⟩

/-- What pandas makes of the objects in a column. -/
structure Pandas (Cell : Type) where
  /-- `pd.to_numeric(series, errors="coerce")` of objects. -/
  toNumeric : List Cell → List Number
  length_toNumeric : ∀ cells, (toNumeric cells).length = cells.length
  /-- `astype(str)`; `none` where `notna` is false. -/
  asText : Series Cell → List (Option String)
  /-- A string as an object. -/
  text : String → Cell
  asText_text : ∀ texts : List String, asText (.object (texts.map text)) = texts.map some

namespace Pandas

variable {Cell : Type} (pd : Pandas Cell)

/-- `pd.to_numeric(series, errors="coerce")`; a numeric column stays as it is. -/
def numbers : Series Cell → List Number
  | .numeric values => values
  | .object cells => pd.toNumeric cells

/-- `working[column].round().astype("int64")`. -/
def roundInt64 (values : List Number) : Except PyError (List Int64) :=
  (values.map Number.round).mapM Number.astypeInt64

/-- `validate_prepared_header`. -/
def validatePreparedHeader (columns : List String) : Except PyError Unit :=
  let missing := canonicalColumns.filter fun column => !columns.contains column
  if missing.isEmpty then .ok () else .error .valueError

/-- The rows with a label that is not bad, their labels stripped. -/
def labelledRows (working : String → Series Cell) : String → Series Cell :=
  let labels := pd.asText (working labelColumn)
  let working := fun column => (working column).mask (labels.map Option.isSome)
  let labels := labels.reduceOption.map strip
  let working := Function.update working labelColumn (.object (labels.map pd.text))
  let good := labels.map fun label => !badLabels.contains (lower label)
  fun column => (working column).mask good

/-- The columns behind the clipping: protocols and ports are set to 0 where they are not
valid, and every column is cast to its type. -/
def castColumns (numeric : String → List Number) : Except PyError (String → List Number) := do
  let protocol ← roundInt64 (numeric "protocol")
  let numeric := Function.update numeric "protocol"
    (protocol.map fun n => .int64 (Number.validProtocol n))
  let numeric := Function.update numeric "dst_port"
    ((numeric "dst_port").map fun n => n.round.validPort)
  let numeric ← intColumns.foldlM (fun numeric column => do
    return Function.update numeric column ((← roundInt64 (numeric column)).map .int64)) numeric
  return (featureColumns.filter fun column => !intColumns.contains column).foldl
    (fun numeric column =>
      Function.update numeric column ((numeric column).map Number.astypeFloat64)) numeric

/-- `sanitize_prepared_chunk`. -/
def sanitizePreparedChunk (dataframe : DataFrame Cell) : Except PyError (DataFrame Cell) := do
  validatePreparedHeader (dataframe.columns.map fun column => strip column.1)
  let working := pd.labelledRows dataframe.column
  if (working labelColumn).length = 0 then return .canonical working
  let numeric ← castColumns fun column =>
    (pd.numbers (working column)).map fun n => n.replaceInf.fillna.clip
  return .canonical fun column =>
    if featureColumns.contains column then .numeric (numeric column) else working column

end Pandas

end SmartIDS.ML
