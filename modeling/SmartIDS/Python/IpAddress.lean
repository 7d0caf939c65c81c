import Mathlib.Algebra.Group.Nat.Defs
import Mathlib.Data.List.Basic
set_option autoImplicit false

/-!
# Python: `ipaddress.ip_address`

The engine validates every address with `ipaddress.ip_address` and then asks for
`is_loopback`.  The parser below follows the documented grammar of the standard
library: dotted quads without leading zeros; IPv6 with one `::`, an optional
dotted-quad tail and an optional RFC 4007 scope identifier after `%`.  Strings
are lists of characters, as everything here splits and scans them.
-/

namespace SmartIDS.Python

/-- A parsed address, as the integer the standard library stores. -/
inductive IPAddress where
  | v4 (ip : ℕ)
  | v6 (ip : ℕ) (scopeId : Option (List Char))
  deriving DecidableEq, Repr

namespace IPAddress

def isAsciiDigit (c : Char) : Bool := '0' ≤ c && c ≤ '9'

/-- The value of a hexadecimal digit. -/
def hexDigit? (c : Char) : Option ℕ :=
  if isAsciiDigit c then some (c.toNat - '0'.toNat)
  else if 'a' ≤ c && c ≤ 'f' then some (c.toNat - 'a'.toNat + 10)
  else if 'A' ≤ c && c ≤ 'F' then some (c.toNat - 'A'.toNat + 10)
  else none

/-- Read digits in a base, most significant first. -/
def ofDigits (base : ℕ) (ds : List ℕ) : ℕ := ds.foldl (fun acc d => acc * base + d) 0

/-- `_parse_octet`: one to three ASCII digits, no leading zero, at most 255. -/
def parseOctet (s : List Char) : Option ℕ :=
  if s.isEmpty || !s.all isAsciiDigit || 3 < s.length || (s != ['0'] && s.head? == some '0') then
    none
  else
    let octet := ofDigits 10 (s.map fun c => c.toNat - '0'.toNat)
    if 255 < octet then none else some octet

/-- `IPv4Address(address)`. -/
def parseV4 (s : List Char) : Option ℕ :=
  let octets := s.splitOn '.'
  if s.contains '/' || octets.length != 4 then none
  else (octets.mapM parseOctet).map (ofDigits 256)

/-- `_parse_hextet`: one to four hexadecimal digits. -/
def parseHextet (s : List Char) : Option ℕ :=
  if s.isEmpty || 4 < s.length then none else (s.mapM hexDigit?).map (ofDigits 16)

/-- Replace a dotted-quad tail by its two hextets. -/
def expandV4Tail (parts : List (List Char)) : Option (List (List Char)) :=
  match parts.getLast? with
  | none => some parts
  | some last =>
    if last.contains '.' then
      (parseV4 last).map fun ip =>
        parts.dropLast ++ [Nat.toDigits 16 (ip / 65536 % 65536), Nat.toDigits 16 (ip % 65536)]
    else some parts

/-- The positions of the empty parts other than the first and the last. -/
def skipIndices (parts : List (List Char)) : List ℕ :=
  (List.range parts.length).filter fun i =>
    1 ≤ i && i + 1 < parts.length && (parts.getD i []).isEmpty

/-- The value of the first `hi` and the last `lo` parts around `skipped` zero hextets. -/
def assemble (parts : List (List Char)) (hi lo skipped : ℕ) : Option ℕ := do
  let high ← (parts.take hi).mapM parseHextet
  let low ← (parts.drop (parts.length - lo)).mapM parseHextet
  return ofDigits 65536 (high ++ List.replicate skipped 0 ++ low)

/-- `_BaseV6._ip_int_from_string` after the parts have been split off. -/
def parseHextets (parts : List (List Char)) : Option ℕ :=
  let leadingEmpty := parts.head? == some []
  let trailingEmpty := parts.getLast? == some []
  if 9 < parts.length then none
  else
    match skipIndices parts with
    | [] =>
      if parts.length != 8 || leadingEmpty || trailingEmpty then none
      else assemble parts 8 0 0
    | [skip] =>
      let hi := if leadingEmpty then skip - 1 else skip
      let lo := if trailingEmpty then parts.length - skip - 2 else parts.length - skip - 1
      -- an empty end is only allowed as part of the `::` itself
      if (leadingEmpty && hi != 0) || (trailingEmpty && lo != 0) || 7 < hi + lo then none
      else assemble parts hi lo (8 - (hi + lo))
    | _ => none

/-- `_split_scope_id`: the address and the scope identifier after `%`. -/
def splitScopeId (s : List Char) : Option (List Char × Option (List Char)) :=
  match s.splitOn '%' with
  | [addr] => some (addr, none)
  | [addr, scopeId] => if scopeId.isEmpty then none else some (addr, some scopeId)
  | _ => none

/-- `IPv6Address(address)`. -/
def parseV6 (s : List Char) : Option (ℕ × Option (List Char)) := do
  if s.contains '/' then none
  let (addr, scopeId) ← splitScopeId s
  let parts := addr.splitOn ':'
  if parts.length < 3 then none
  let parts ← expandV4Tail parts
  let ip ← parseHextets parts
  return (ip, scopeId)

/-- `127.0.0.0/8` for IPv4, `::1` for IPv6. -/
def isLoopback : IPAddress → Bool
  | .v4 ip => ip / 2 ^ 24 == 127
  | .v6 ip _ => ip == 1

end IPAddress

/-- `ipaddress.ip_address`; `none` where it raises `ValueError`. -/
def ipAddress (s : String) : Option IPAddress :=
  match IPAddress.parseV4 s.toList with
  | some ip => some (.v4 ip)
  | none => (IPAddress.parseV6 s.toList).map fun (ip, scopeId) => .v6 ip scopeId

end SmartIDS.Python
