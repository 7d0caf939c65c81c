import SmartIDS.Foundation.Dict
import SmartIDS.Python.JsonText
import SmartIDS.Python.Value
set_option autoImplicit false

/-!
# Python: `json.dumps` and `json.loads`

The encoder with its default separators and `ensure_ascii=True`, and the scanner
of the decoder, errors included.  Both descend at most as deep as the interpreter's
recursion limit leaves them (`depth`), and both refuse an integer of more than 4300
digits with a plain `ValueError`.  The texts of floats are a parameter (`FloatText`).

A `String` holds no lone surrogate, so a text that escapes one has no value here
and is read as `other`.
-/

namespace SmartIDS.Python

open SmartIDS.Foundation

/-! ## The texts of numbers -/

/-- The sign in front of a literal. -/
def signText (negative : Bool) : List Char := if negative then ['-'] else []

/-- The fraction of a literal, or nothing. -/
def IsFraction (text : List Char) : Prop :=
  text = [] ∨ ∃ ds, text = '.' :: ds ∧ ds ≠ [] ∧ ∀ c ∈ ds, c.isDigit = true

/-- The exponent of a literal, or nothing. -/
def IsExponent (text : List Char) : Prop :=
  text = [] ∨ ∃ sign ds, text = 'e' :: (sign ++ ds) ∧ (sign = ['+'] ∨ sign = ['-']) ∧ ds ≠ [] ∧
    ∀ c ∈ ds, c.isDigit = true

/-- What `float.__repr__` writes for a finite number. -/
def IsFloatLiteral (text : List Char) : Prop :=
  ∃ negative whole fraction exponent, IsFraction fraction ∧ IsExponent exponent ∧
    fraction ++ exponent ≠ [] ∧
    text = signText negative ++ (Nat.toDigits 10 whole ++ (fraction ++ exponent))

/-- `float.__repr__` and `float(literal)`: a double is written so that it reads back,
and only doubles are read. -/
structure FloatText where
  IsDouble : ℚ → Prop
  repr : ℚ → List Char
  parse : List Char → PyFloat
  repr_isFloatLiteral : ∀ x, IsDouble x → IsFloatLiteral (repr x)
  parse_repr : ∀ x, IsDouble x → parse (repr x) = .finite x
  isDouble_of_parse : ∀ text x, parse text = .finite x → IsDouble x

/-! ## Writing -/

/-- An integer; `int.__repr__` refuses one of too many digits. -/
def intText (n : ℤ) : Except PyError String :=
  let digits := Nat.toDigits 10 n.natAbs
  if maxStrDigits < digits.length then .error .valueError
  else .ok (String.ofList (signText (n < 0) ++ digits))

/-- A float. -/
def floatText (floats : FloatText) : PyFloat → String
  | .finite x => String.ofList (floats.repr x)
  | .inf => "Infinity"
  | .negInf => "-Infinity"
  | .nan => "NaN"

/-- `json.dumps(value, ensure_ascii=True)`. -/
def dumps (floats : FloatText) : ℕ → Json → Except PyError String
  | _, .null => .ok "null"
  | _, .bool true => .ok "true"
  | _, .bool false => .ok "false"
  | _, .int n => intText n
  | _, .float x => .ok (floatText floats x)
  | _, .str s => .ok (jsonString s)
  | 0, .arr _ => .error .recursionError
  | 0, .obj _ => .error .recursionError
  | depth + 1, .arr items => do return jsonArray (← items.mapM (dumps floats depth))
  | depth + 1, .obj entries => do
    return jsonObject (← entries.mapM fun entry => do return (entry.1, ← dumps floats depth entry.2))

/-! ## Reading -/

/-- Reads a phrase at the front of a text and hands back what stands behind it. -/
abbrev Scan (α : Type) : Type := List Char → Except PyError (α × List Char)

/-- `WHITESPACE`. -/
def isJsonSpace (c : Char) : Bool := c = ' ' || c = '\t' || c = '\n' || c = '\r'

/-- `WHITESPACE.match(s, end).end()`. -/
def skipSpace (s : List Char) : List Char := s.dropWhile isJsonSpace

/-- The value of a hexadecimal digit of either case. -/
def hexDigit? (c : Char) : Option ℕ :=
  if '0' ≤ c ∧ c ≤ '9' then some (c.toNat - '0'.toNat)
  else if 'a' ≤ c ∧ c ≤ 'f' then some (c.toNat - 'a'.toNat + 10)
  else if 'A' ≤ c ∧ c ≤ 'F' then some (c.toNat - 'A'.toNat + 10)
  else none

/-- The four digits behind a `\u`. -/
def hexUnit : List Char → Option (ℕ × List Char)
  | a :: b :: c :: d :: rest => do
    let n := 4096 * (← hexDigit? a) + 256 * (← hexDigit? b) + 16 * (← hexDigit? c) + (← hexDigit? d)
    return (n, rest)
  | _ => none

/-- The low surrogate of a pair, escaped in turn. -/
def lowSurrogate? (s : List Char) : Option (ℕ × List Char) :=
  match s with
  | '\\' :: 'u' :: rest =>
    (hexUnit rest).filter fun unit => 0xdc00 ≤ unit.1 ∧ unit.1 ≤ 0xdfff
  | _ => none

/-- What stands behind `\u`. -/
def scanUnicode : Scan Char := fun s =>
  match hexUnit s with
  | none => .error .jsonDecodeError
  | some (n, rest) =>
    if 0xd800 ≤ n ∧ n ≤ 0xdbff then
      match lowSurrogate? rest with
      | some (m, rest) => .ok (Char.ofNat (0x10000 + (n - 0xd800) * 0x400 + (m - 0xdc00)), rest)
      | none => .error .other
    else if 0xdc00 ≤ n ∧ n ≤ 0xdfff then .error .other
    else .ok (Char.ofNat n, rest)

/-- One character of a string, which may be escaped; a control character may not
stand for itself. -/
def scanChar : Scan Char
  | '\\' :: '"' :: rest => .ok ('"', rest)
  | '\\' :: '\\' :: rest => .ok ('\\', rest)
  | '\\' :: '/' :: rest => .ok ('/', rest)
  | '\\' :: 'b' :: rest => .ok ('\x08', rest)
  | '\\' :: 'f' :: rest => .ok ('\x0c', rest)
  | '\\' :: 'n' :: rest => .ok ('\n', rest)
  | '\\' :: 'r' :: rest => .ok ('\r', rest)
  | '\\' :: 't' :: rest => .ok ('\t', rest)
  | '\\' :: 'u' :: rest => scanUnicode rest
  | '\\' :: _ => .error .jsonDecodeError
  | c :: rest => if c.toNat ≤ 0x1f then .error .jsonDecodeError else .ok (c, rest)
  | [] => .error .jsonDecodeError

/-- `scanstring` behind the opening quote.  Every character takes up some of the
text, so its length is fuel enough. -/
def scanStringFuel : ℕ → Scan (List Char)
  | _, '"' :: rest => .ok ([], rest)
  | 0, _ => .error .jsonDecodeError
  | fuel + 1, s => do
    let (c, s) ← scanChar s
    let (cs, s) ← scanStringFuel fuel s
    return (c :: cs, s)

/-- `scanstring`. -/
def scanString : Scan String := fun s => do
  let (cs, rest) ← scanStringFuel s.length s
  return (String.ofList cs, rest)

/-- The sign of a number. -/
def scanSign : List Char → Bool × List Char
  | '-' :: rest => (true, rest)
  | s => (false, s)

/-- `0|[1-9][0-9]*`. -/
def scanWhole : List Char → Option (List Char × List Char)
  | '0' :: rest => some (['0'], rest)
  | s => if s.takeWhile Char.isDigit = [] then none
    else some (s.takeWhile Char.isDigit, s.dropWhile Char.isDigit)

/-- `(\.[0-9]+)?`. -/
def scanFraction : List Char → List Char × List Char
  | '.' :: rest =>
    if rest.takeWhile Char.isDigit = [] then ([], '.' :: rest)
    else ('.' :: rest.takeWhile Char.isDigit, rest.dropWhile Char.isDigit)
  | s => ([], s)

/-- `[-+]?`. -/
def scanExponentSign : List Char → List Char × List Char
  | '+' :: rest => (['+'], rest)
  | '-' :: rest => (['-'], rest)
  | s => ([], s)

/-- `([eE][-+]?[0-9]+)?`. -/
def scanExponent : List Char → List Char × List Char
  | e :: rest =>
    if e = 'e' ∨ e = 'E' then
      let (sign, digits) := scanExponentSign rest
      if digits.takeWhile Char.isDigit = [] then ([], e :: rest)
      else (e :: (sign ++ digits.takeWhile Char.isDigit), digits.dropWhile Char.isDigit)
    else ([], e :: rest)
  | [] => ([], [])

/-- `_match_number`: a float where there is a fraction or an exponent. -/
def scanNumber (floats : FloatText) : Scan Json := fun s =>
  let (negative, unsigned) := scanSign s
  match scanWhole unsigned with
  | none => .error .jsonDecodeError
  | some (whole, s) =>
    let (fraction, s) := scanFraction s
    let (exponent, s) := scanExponent s
    if fraction ++ exponent ≠ [] then
      .ok (.float (floats.parse (signText negative ++ (whole ++ (fraction ++ exponent)))), s)
    else if maxStrDigits < whole.length then .error .valueError
    else
      let n : ℤ := Nat.ofDigitChars 10 whole 0
      .ok (.int (if negative then -n else n), s)

/-- Everything but arrays and objects. -/
def scanScalar (floats : FloatText) : Scan Json
  | '"' :: rest => do
    let (s, rest) ← scanString rest
    return (.str s, rest)
  | 'n' :: 'u' :: 'l' :: 'l' :: rest => .ok (.null, rest)
  | 't' :: 'r' :: 'u' :: 'e' :: rest => .ok (.bool true, rest)
  | 'f' :: 'a' :: 'l' :: 's' :: 'e' :: rest => .ok (.bool false, rest)
  | 'N' :: 'a' :: 'N' :: rest => .ok (.float .nan, rest)
  | 'I' :: 'n' :: 'f' :: 'i' :: 'n' :: 'i' :: 't' :: 'y' :: rest => .ok (.float .inf, rest)
  | '-' :: 'I' :: 'n' :: 'f' :: 'i' :: 'n' :: 'i' :: 't' :: 'y' :: rest => .ok (.float .negInf, rest)
  | s => scanNumber floats s

/-- The loop over the phrases of an array or object, up to the closing bracket.
Every comma takes up some of the text, so its length is fuel enough. -/
def scanListFuel {α : Type} (phrase : Scan α) (close : Char) : ℕ → Scan (List α)
  | 0, _ => .error .jsonDecodeError
  | fuel + 1, s => do
    let (x, s) ← phrase s
    match skipSpace s with
    | [] => .error .jsonDecodeError
    | c :: rest =>
      if c = close then return ([x], rest)
      else if c = ',' then
        let (xs, s) ← scanListFuel phrase close fuel (skipSpace rest)
        return (x :: xs, s)
      else .error .jsonDecodeError

/-- The phrases behind an opening bracket; there may be none. -/
def scanList {α : Type} (phrase : Scan α) (close : Char) : Scan (List α) := fun s =>
  match skipSpace s with
  | [] => .error .jsonDecodeError
  | c :: rest =>
    if c = close then .ok ([], rest)
    else scanListFuel phrase close (rest.length + 1) (c :: rest)

/-- A key, a colon and a value. -/
def scanEntry (value : Scan Json) : Scan (String × Json)
  | '"' :: rest => do
    let (key, s) ← scanString rest
    match skipSpace s with
    | ':' :: rest => do
      let (x, s) ← value (skipSpace rest)
      return ((key, x), s)
    | _ => .error .jsonDecodeError
  | _ => .error .jsonDecodeError

/-- `dict(pairs)`. -/
def dictOf (pairs : List (String × Json)) : Dict String Json :=
  pairs.foldl (fun d pair => d.set pair.1 pair.2) .empty

/-- `scan_once`. -/
def scanOnce (floats : FloatText) : ℕ → Scan Json
  | 0, '[' :: _ => .error .recursionError
  | 0, '\x7b' :: _ => .error .recursionError
  | depth + 1, '[' :: rest => do
    let (items, s) ← scanList (scanOnce floats depth) ']' rest
    return (.arr items, s)
  | depth + 1, '\x7b' :: rest => do
    let (pairs, s) ← scanList (scanEntry (scanOnce floats depth)) '\x7d' rest
    return (.obj (dictOf pairs).entries, s)
  | _, s => scanScalar floats s

/-- `json.loads(text)`. -/
def loads (floats : FloatText) (depth : ℕ) (text : String) : Except PyError Json :=
  match text.toList with
  | '\ufeff' :: _ => .error .jsonDecodeError
  | s => do
    let (value, s) ← scanOnce floats depth (skipSpace s)
    if skipSpace s = [] then return value else .error .jsonDecodeError

end SmartIDS.Python
