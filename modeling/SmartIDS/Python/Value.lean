import Mathlib.Data.List.DropRight
import Mathlib.Data.List.TakeWhile
import Mathlib.Data.Rat.Floor
import SmartIDS.Foundation.Effect
import SmartIDS.PacketCapture.PacketData
set_option autoImplicit false

/-!
# Python: the values a command is made of

JSON values as `json.loads` builds them, and the built-ins the engine applies to
them: `str`, `str.strip`, `str.lower`, truth testing, `int`.  `int` is the one
that raises; which values make it raise decides whether a command can be
applied, so its string grammar is spelled out in full.
-/

namespace SmartIDS.Python

open SmartIDS.PacketCapture

/-- The exceptions raised by the modelled code.  `jsonDecodeError` and
`unicodeDecodeError` are classes below `ValueError`; `valueError` is raised as
that class itself. -/
inductive PyError where
  | valueError
  | typeError
  | overflowError
  | osError
  | jsonDecodeError
  | unicodeDecodeError
  | recursionError
  | other
  deriving DecidableEq, Repr

/-- A Python `float`: finite values are rationals. -/
inductive PyFloat where
  | finite (value : ℚ)
  | inf
  | negInf
  | nan
  deriving DecidableEq

/-- A JSON value; `json.loads` also accepts `NaN` and `Infinity`. -/
inductive Json where
  | null
  | bool (value : Bool)
  | int (value : ℤ)
  | float (value : PyFloat)
  | str (value : String)
  | arr (items : List Json)
  | obj (entries : List (String × Json))

/-! ## Strings -/

/-- The characters `str.strip` removes. -/
def isSpace (c : Char) : Bool :=
  let n := c.toNat
  (0x9 ≤ n && n ≤ 0xd) || (0x1c ≤ n && n ≤ 0x20) || n == 0x85 || n == 0xa0 || n == 0x1680 ||
    (0x2000 ≤ n && n ≤ 0x200a) || n == 0x2028 || n == 0x2029 || n == 0x202f || n == 0x205f ||
    n == 0x3000

/-- Drop a class of characters at both ends of a list. -/
def stripList (q : Char → Bool) (s : List Char) : List Char :=
  ((s.dropWhile q).reverse.dropWhile q).reverse

/-- `str.strip()`. -/
def strip (s : String) : String := String.ofList (stripList isSpace s.toList)

theorem stripList_append_of_all {q : Char → Bool} {front : List Char} (h : ∀ c ∈ front, q c = true)
    (s : List Char) : stripList q (front ++ s) = stripList q s := by
  unfold stripList
  rw [List.dropWhile_append_of_pos h]

theorem stripList_eq_nil_iff {q : Char → Bool} (s : List Char) :
    stripList q s = [] ↔ ∀ c ∈ s, q c = true := by
  constructor
  · intro h
    unfold stripList at h
    rw [List.reverse_eq_nil_iff, List.dropWhile_eq_nil_iff] at h
    have hnil : s.dropWhile q = [] := by
      refine List.eq_nil_iff_forall_not_mem.mpr fun c hc => ?_
      have hne : s.dropWhile q ≠ [] := List.ne_nil_of_mem hc
      have hhead := List.head_dropWhile_not q hne
      rw [h _ (List.mem_reverse.mpr (List.head_mem hne))] at hhead
      exact absurd hhead (by decide)
    exact List.dropWhile_eq_nil_iff.mp hnil
  · intro h
    rw [← List.append_nil s, stripList_append_of_all h]
    rfl

theorem strip_strip (s : String) : strip (strip s) = strip s := by
  have hhead : ∀ l : List Char, (l.dropWhile isSpace).rdropWhile isSpace =
      ((l.dropWhile isSpace).rdropWhile isSpace).dropWhile isSpace := by
    intro l
    refine (List.dropWhile_eq_self_iff.mpr fun hlen => ?_).symm
    have hinitial := List.rdropWhile_prefix isSpace (l := l.dropWhile isSpace)
    have hget := hinitial.getElem hlen
    rw [hget]
    exact List.dropWhile_get_zero_not isSpace l _
  have hidem : ∀ l : List Char, stripList isSpace (stripList isSpace l) = stripList isSpace l := by
    intro l
    change (((l.dropWhile isSpace).rdropWhile isSpace).dropWhile isSpace).rdropWhile isSpace =
      (l.dropWhile isSpace).rdropWhile isSpace
    rw [← hhead l, List.rdropWhile_idempotent]
  unfold strip
  rw [String.toList_ofList, hidem]

/-- `str.lower()` on the characters whose lower case is ASCII: `A`-`Z` and the
Kelvin sign.  The other characters are left alone; the engine compares the
result with ASCII words only. -/
def lower (s : String) : String :=
  String.ofList (s.toList.map fun c => if c.toNat = 0x212a then 'k' else c.toLower)

/-- `str(value)`.  `repr` is the rendering of floats and containers. -/
def str (repr : Json → String) : Json → String
  | .null => "None"
  | .bool true => "True"
  | .bool false => "False"
  | .int n => toString n
  | .str s => s
  | j => repr j

/-! ## Integers -/

/-- The code points of the decimal digits zero. -/
def decimalZeros : List ℕ :=
  [48, 1632, 1776, 1984, 2406, 2534, 2662, 2790, 2918, 3046, 3174, 3302, 3430, 3558, 3664, 3792,
    3872, 4160, 4240, 6112, 6160, 6470, 6608, 6784, 6800, 6992, 7088, 7232, 7248, 42528, 43216,
    43264, 43472, 43504, 43600, 44016, 65296, 66720, 68912, 69734, 69872, 69942, 70096, 70384,
    70736, 70864, 71248, 71360, 71472, 71904, 72016, 72784, 73040, 73120, 92768, 92864, 93008,
    120782, 120792, 120802, 120812, 120822, 123200, 123632, 125264, 130032]

/-- The value of a decimal digit of any script. -/
def decimal? (c : Char) : Option ℕ :=
  (decimalZeros.find? fun z => z ≤ c.toNat && c.toNat ≤ z + 9).map fun z => c.toNat - z

/-- The blanks `int` skips: in ASCII only the C ones, outside it all of them. -/
def isIntSpace (c : Char) : Bool := isSpace c && !(0x1c ≤ c.toNat && c.toNat ≤ 0x1f)

/-- The digits of a literal; single underscores may separate them. -/
def literalDigits : List Char → Option (List ℕ)
  | [] => none
  | [c] => (decimal? c).map fun d => [d]
  | c :: '_' :: rest => do return (← decimal? c) :: (← literalDigits rest)
  | c :: rest => do return (← decimal? c) :: (← literalDigits rest)

/-- `int` refuses literals with more digits than this. -/
def maxStrDigits : ℕ := 4300

/-- The value of an unsigned literal. -/
def unsignedLiteral (s : List Char) : Option ℕ :=
  (literalDigits s).bind fun ds =>
    if maxStrDigits < ds.length then none else some (ds.foldl (fun acc d => 10 * acc + d) 0)

/-- `int(text)`; `none` where it raises `ValueError`. -/
def intLiteral? (s : String) : Option ℤ :=
  match stripList isIntSpace s.toList with
  | '-' :: rest => (unsignedLiteral rest).map fun n => -(n : ℤ)
  | '+' :: rest => (unsignedLiteral rest).map fun n => (n : ℤ)
  | rest => (unsignedLiteral rest).map fun n => (n : ℤ)

/-- Rounding towards zero. -/
def truncate (x : ℚ) : ℤ := if 0 ≤ x then ⌊x⌋ else ⌈x⌉

namespace Json

/-- Truth testing. -/
def truthy : Json → Bool
  | .null => false
  | .bool b => b
  | .int n => n != 0
  | .float (.finite x) => x != 0
  | .float _ => true
  | .str s => s != ""
  | .arr items => !items.isEmpty
  | .obj entries => !entries.isEmpty

/-- `int(value)`. -/
def toInt : Json → Except PyError ℤ
  | .bool b => .ok (if b then 1 else 0)
  | .int n => .ok n
  | .float (.finite x) => .ok (truncate x)
  | .float .nan => .error .valueError
  | .float _ => .error .overflowError
  | .str s => (intLiteral? s).elim (.error .valueError) .ok
  | .null => .error .typeError
  | .arr _ => .error .typeError
  | .obj _ => .error .typeError

end Json

/-- A JSON object; a repeated key keeps its last value. -/
abbrev JsonObject : Type := List (String × Json)

/-- `command.get(key, default)`. -/
def JsonObject.getD (o : JsonObject) (key : String) (default : Json) : Json :=
  (o.reverse.lookup key).getD default

/-! ## Doubles -/

/-- Whether an `int` converts to a `float`. -/
def FitsDouble (n : ℤ) : Prop := n.natAbs < 2 ^ 1024 - 2 ^ 970

instance (n : ℤ) : Decidable (FitsDouble n) := inferInstanceAs (Decidable (_ < _))

namespace PyFloat

/-- The comparison `a <= b`; it is false when either side is a NaN. -/
def le : PyFloat → PyFloat → Bool
  | .nan, _ => false
  | _, .nan => false
  | .finite a, .finite b => a ≤ b
  | .negInf, _ => true
  | _, .inf => true
  | _, _ => false

instance : LE PyFloat := ⟨fun a b => le a b⟩

instance (a b : PyFloat) : Decidable (a ≤ b) := inferInstanceAs (Decidable (_ = true))

instance : LT PyFloat := ⟨fun a b => a ≤ b ∧ ¬ b ≤ a⟩

instance (a b : PyFloat) : Decidable (a < b) := inferInstanceAs (Decidable (_ ∧ _))

/-- `max(a, b)`: the second argument has to be greater to be taken. -/
def pyMax (a b : PyFloat) : PyFloat := if a < b then b else a

/-- `min(a, b)`. -/
def pyMin (a b : PyFloat) : PyFloat := if b < a then b else a

/-- The double product of `x` and `2 ** n`: exact unless it leaves the range of
the finite doubles, where it is infinite. -/
def scaled (x : PyFloat) (n : ℕ) : PyFloat :=
  match x with
  | .finite v =>
    if 2 ^ 1024 ≤ v * 2 ^ n then .inf
    else if v * 2 ^ n ≤ -2 ^ 1024 then .negInf
    else .finite (v * 2 ^ n)
  | x => x

/-- `x * (2 ** n)`.  The power is an `int` and is converted before it is
multiplied; the conversion is what raises. -/
def mulTwoPow (x : PyFloat) (n : ℕ) : Except PyError PyFloat :=
  if FitsDouble (2 ^ n) then .ok (x.scaled n) else .error .overflowError

theorem le_trans {a b c : PyFloat} (hab : a ≤ b) (hbc : b ≤ c) : a ≤ c := by
  change le a b = true at hab
  change le b c = true at hbc
  change le a c = true
  cases a <;> cases b <;> cases c <;> simp_all [le]
  exact hab.trans hbc

theorem le_pyMax_left {a b : PyFloat} (ha : a ≤ a) : a ≤ pyMax a b := by
  unfold pyMax
  split_ifs with h
  · exact h.1
  · exact ha

theorem pyMin_le_right {a b : PyFloat} (h : a ≤ b ∨ b ≤ a) (hb : b ≤ b) : pyMin a b ≤ b := by
  unfold pyMin
  split_ifs with hlt
  · exact hb
  · refine h.elim id fun hba => ?_
    exact not_not.mp fun hab => hlt ⟨hba, hab⟩

theorem pyMin_le_left {a b : PyFloat} (ha : a ≤ a) : pyMin a b ≤ a := by
  unfold pyMin
  split_ifs with hlt
  · exact hlt.1
  · exact ha

theorem le_pyMin {a b c : PyFloat} (ha : c ≤ a) (hb : c ≤ b) : c ≤ pyMin a b := by
  unfold pyMin
  split_ifs
  · exact hb
  · exact ha

/-- The values above a finite one are ordered. -/
theorem le_total_of_le {v : ℚ} {a b : PyFloat} (ha : .finite v ≤ a) (hb : .finite v ≤ b) :
    a ≤ b ∨ b ≤ a := by
  change le (.finite v) a = true at ha
  change le (.finite v) b = true at hb
  change le a b = true ∨ le b a = true
  cases a <;> cases b <;> simp_all [le]
  exact le_total _ _

end PyFloat

/-! ## Time stamps -/

/-- `t + n` for a float `t` and an int `n`. -/
def addSeconds (t : Time) (n : ℤ) : Except PyError Time :=
  if FitsDouble n then .ok (t + n) else .error .overflowError

/-- The first instant of the year 1 and of the year 10000. -/
def minTimestamp : Time := -62135596800
def maxTimestamp : Time := 253402300800

/-- `datetime.fromtimestamp(t, tz=timezone.utc)`.  The C library reports seconds
it cannot convert before the year is checked. -/
def fromTimestamp (t : Time) : Except PyError Time :=
  if t < -2 ^ 63 ∨ 2 ^ 63 ≤ t then .error .overflowError
  else if t < -67768040609740800 ∨ 67768036191676800 ≤ t then .error .osError
  else if t < minTimestamp ∨ maxTimestamp ≤ t then .error .valueError
  else .ok t

/-- The powers of two that are doubles. -/
theorem fitsDouble_two_pow_iff (n : ℕ) : FitsDouble (2 ^ n) ↔ n < 1024 := by
  have hmid : 2 ^ 1023 = 2 ^ 970 * 2 ^ 53 := by rw [← pow_add]
  have htop : 2 ^ 1024 = 2 ^ 970 * 2 ^ 54 := by rw [← pow_add]
  have hroom : ∀ a : ℕ, 0 < a → a * 2 ^ 53 < a * 2 ^ 54 - a := by
    intro a ha
    omega
  have habs : ((2 : ℤ) ^ n).natAbs = 2 ^ n := by rw [Int.natAbs_pow]; rfl
  unfold FitsDouble
  rw [habs]
  refine ⟨fun hfits => ?_, fun hn => ?_⟩
  · refine lt_of_not_ge fun hn => ?_
    have hle : 2 ^ 1024 ≤ 2 ^ n := pow_le_pow_right₀ one_le_two hn
    exact absurd (hfits.trans_le (Nat.sub_le _ _)) (not_lt.mpr hle)
  · have hle : 2 ^ n ≤ 2 ^ 1023 := pow_le_pow_right₀ one_le_two (by omega)
    rw [htop]
    refine hle.trans_lt ?_
    rw [hmid]
    exact hroom _ (pow_pos two_pos _)

theorem fitsDouble_of_lt {n : ℤ} (h : n.natAbs < 2 ^ 64) : FitsDouble n := by
  have hsplit : 2 ^ 1024 = 2 ^ 970 * 2 ^ 54 := by rw [← pow_add]
  have hle : 2 ^ 64 ≤ 2 ^ 970 := pow_le_pow_right₀ one_le_two (by omega)
  have hroom : ∀ a : ℕ, a ≤ a * 2 ^ 54 - a := by
    intro a
    omega
  unfold FitsDouble
  rw [hsplit]
  exact h.trans_le (hle.trans (hroom _))

theorem addSeconds_of_fits {n : ℤ} (h : FitsDouble n) (t : Time) :
    addSeconds t n = .ok (t + n) := if_pos h

theorem addSeconds_of_not_fits {n : ℤ} (h : ¬ FitsDouble n) (t : Time) :
    addSeconds t n = .error .overflowError := if_neg h

theorem fromTimestamp_ok_iff (t u : Time) :
    fromTimestamp t = .ok u ↔ u = t ∧ minTimestamp ≤ t ∧ t < maxTimestamp := by
  unfold fromTimestamp minTimestamp maxTimestamp
  split_ifs with h₁ h₂ h₃
  · simp only [false_iff]
    rintro ⟨-, hlow, hhigh⟩
    rcases h₁ with h | h <;> norm_num at h <;> linarith
  · simp only [false_iff]
    rintro ⟨-, hlow, hhigh⟩
    rcases h₂ with h | h <;> linarith
  · simp only [false_iff]
    rintro ⟨-, hlow, hhigh⟩
    rcases h₃ with h | h <;> linarith
  · rw [not_or, not_lt, not_le] at h₃
    simp [h₃, eq_comm]

end SmartIDS.Python
