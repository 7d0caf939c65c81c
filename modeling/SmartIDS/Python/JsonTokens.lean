import SmartIDS.Python.JsonDocument
set_option autoImplicit false

/-!
# Python: the strings and numbers of a JSON text

Each literal the encoder writes is read at the front of a text, up to what may
follow it there.
-/

namespace SmartIDS.Python

open SmartIDS.Foundation

/-! ## Strings -/

theorem hexDigit?_digitChar (n : ℕ) : hexDigit? (Nat.digitChar (n % 16)) = some (n % 16) := by
  have hall : ∀ i < 16, hexDigit? (Nat.digitChar i) = some i := by decide
  exact hall _ (Nat.mod_lt n (by omega))

theorem hexUnit_unicodeEscape {n : ℕ} (hn : n < 0x10000) (rest : List Char) :
    hexUnit ((unicodeEscape n).drop 2 ++ rest) = some (n, rest) := by
  have hsum : 4096 * (n / 4096 % 16) + 256 * (n / 256 % 16) + 16 * (n / 16 % 16) + n % 16 = n := by
    omega
  simp only [unicodeEscape, List.drop_succ_cons, List.drop_zero, List.cons_append, List.nil_append,
    hexUnit, hexDigit?_digitChar, Option.bind_eq_bind, Option.bind_some, Option.pure_def, hsum]

theorem unicodeEscape_eq (n : ℕ) :
    unicodeEscape n = '\\' :: 'u' :: (unicodeEscape n).drop 2 := rfl

theorem scanChar_unicodeEscape (n : ℕ) (rest : List Char) :
    scanChar (unicodeEscape n ++ rest) = scanUnicode ((unicodeEscape n).drop 2 ++ rest) := rfl

/-- A character of the basic plane. -/
theorem scanUnicode_basic {c : Char} (hc : c.toNat < 0x10000) (rest : List Char) :
    scanUnicode ((unicodeEscape c.toNat).drop 2 ++ rest) = .ok (c, rest) := by
  have hvalid : c.toNat.isValidChar := c.valid
  have hlow : ¬ (0xd800 ≤ c.toNat ∧ c.toNat ≤ 0xdbff) := by
    rcases hvalid with h | h <;> omega
  have hhigh : ¬ (0xdc00 ≤ c.toNat ∧ c.toNat ≤ 0xdfff) := by
    rcases hvalid with h | h <;> omega
  simp only [scanUnicode, hexUnit_unicodeEscape hc, if_neg hlow, if_neg hhigh, Char.ofNat_toNat]

theorem scanUnicode_of_units {s rest rest' : List Char} {n m code : ℕ}
    (hunit : hexUnit s = some (n, rest)) (hlow : 0xd800 ≤ n) (hhigh : n ≤ 0xdbff)
    (hsecond : lowSurrogate? rest = some (m, rest'))
    (hcode : 0x10000 + (n - 0xd800) * 0x400 + (m - 0xdc00) = code) :
    scanUnicode s = .ok (Char.ofNat code, rest') := by
  unfold scanUnicode
  rw [hunit]
  simp only [if_pos (And.intro hlow hhigh), hsecond, hcode]

theorem lowSurrogate?_unicodeEscape {m : ℕ} (hlow : 0xdc00 ≤ m) (hhigh : m ≤ 0xdfff)
    (rest : List Char) : lowSurrogate? (unicodeEscape m ++ rest) = some (m, rest) := by
  rw [unicodeEscape_eq]
  simp only [List.cons_append, lowSurrogate?, hexUnit_unicodeEscape (by omega : m < 0x10000)]
  exact Option.filter_some_pos (by simpa using And.intro hlow hhigh)

/-- A character beyond it is a pair. -/
theorem scanUnicode_pair {c : Char} (hc : 0x10000 ≤ c.toNat) (rest : List Char) :
    scanUnicode ((unicodeEscape (0xd800 + (c.toNat - 0x10000) / 0x400)).drop 2 ++
      (unicodeEscape (0xdc00 + (c.toNat - 0x10000) % 0x400) ++ rest)) = .ok (c, rest) := by
  have hmax : c.toNat < 0x110000 := by
    rcases c.valid with h | h
    · exact lt_trans h (by omega)
    · exact h.2
  obtain ⟨n, hn⟩ : ∃ n, n = 0xd800 + (c.toNat - 0x10000) / 0x400 := ⟨_, rfl⟩
  obtain ⟨m, hm⟩ : ∃ m, m = 0xdc00 + (c.toNat - 0x10000) % 0x400 := ⟨_, rfl⟩
  rw [← hn, ← hm]
  have hread : scanUnicode ((unicodeEscape n).drop 2 ++ (unicodeEscape m ++ rest)) =
      .ok (Char.ofNat c.toNat, rest) :=
    scanUnicode_of_units (hexUnit_unicodeEscape (by omega) _) (by omega) (by omega)
      (lowSurrogate?_unicodeEscape (by omega) (by omega) rest) (by omega)
  rwa [Char.ofNat_toNat] at hread

/-- A character that stands for itself. -/
theorem scanChar_plain {c : Char} (hc : c ≠ '\\') (hcontrol : ' ' ≤ c) (rest : List Char) :
    scanChar (c :: rest) = .ok (c, rest) := by
  have hcode : ¬ c.toNat ≤ 0x1f := by
    have hle : (' ' : Char).toNat ≤ c.toNat := hcontrol
    have hspace : (' ' : Char).toNat = 0x20 := rfl
    omega
  unfold scanChar
  split <;> simp_all

theorem scanChar_escapeChar (c : Char) (rest : List Char) :
    scanChar (escapeChar c ++ rest) = .ok (c, rest) := by
  unfold escapeChar
  split_ifs with hquote hslash hline hreturn htab hform hback hplain hbasic
  · rw [hquote]; rfl
  · rw [hslash]; rfl
  · rw [hline]; rfl
  · rw [hreturn]; rfl
  · rw [htab]; rfl
  · rw [hform]; rfl
  · rw [hback]; rfl
  · exact scanChar_plain hslash hplain.1 rest
  · rw [scanChar_unicodeEscape, scanUnicode_basic hbasic]
  · rw [List.append_assoc, scanChar_unicodeEscape, scanUnicode_pair (not_lt.mp hbasic)]

/-- An escaped character does not begin with a quote. -/
theorem escapeChar_head (c : Char) : ∃ d ds, escapeChar c = d :: ds ∧ d ≠ '"' := by
  unfold escapeChar
  split_ifs with hquote hslash hline hreturn htab hform hback hplain hbasic
  · exact ⟨_, _, rfl, by decide⟩
  · exact ⟨_, _, rfl, by decide⟩
  · exact ⟨_, _, rfl, by decide⟩
  · exact ⟨_, _, rfl, by decide⟩
  · exact ⟨_, _, rfl, by decide⟩
  · exact ⟨_, _, rfl, by decide⟩
  · exact ⟨_, _, rfl, by decide⟩
  · exact ⟨_, _, rfl, hquote⟩
  · exact ⟨_, _, rfl, by decide⟩
  · exact ⟨_, _, rfl, by decide⟩

theorem scanStringFuel_escaped (cs : List Char) (rest : List Char) {fuel : ℕ}
    (hfuel : cs.length ≤ fuel) :
    scanStringFuel fuel (cs.flatMap escapeChar ++ '"' :: rest) = .ok (cs, rest) := by
  induction cs generalizing fuel with
  | nil => cases fuel <;> rfl
  | cons c cs ih =>
    obtain ⟨fuel, rfl⟩ := Nat.exists_eq_succ_of_ne_zero (Nat.ne_of_gt (Nat.lt_of_lt_of_le
      (Nat.succ_pos _) hfuel))
    obtain ⟨d, ds, hhead, hd⟩ := escapeChar_head c
    have hread := scanChar_escapeChar c (cs.flatMap escapeChar ++ '"' :: rest)
    have hrest := ih (Nat.le_of_succ_le_succ hfuel)
    rw [List.flatMap_cons, List.append_assoc]
    rw [hhead, List.cons_append] at hread ⊢
    have hopen : ∀ tail, d :: (ds ++ (cs.flatMap escapeChar ++ '"' :: rest)) = '"' :: tail → False :=
      fun _ heq => hd (List.cons.inj heq).1
    rw [scanStringFuel.eq_3 _ _ hopen, hread]
    simp only [bind, Except.bind, hrest]
    rfl

theorem length_le_length_escaped (cs : List Char) : cs.length ≤ (cs.flatMap escapeChar).length := by
  induction cs with
  | nil => exact le_rfl
  | cons c cs ih =>
    obtain ⟨d, ds, hhead, -⟩ := escapeChar_head c
    rw [List.flatMap_cons, List.length_append, hhead, List.length_cons, List.length_cons]
    omega

theorem toList_jsonString (text : String) :
    (jsonString text).toList = '"' :: (text.toList.flatMap escapeChar ++ ['"']) := by
  unfold jsonString
  rw [String.toList_append, String.toList_append, String.toList_ofList, String.toList_ofList,
    List.append_assoc]
  rfl

/-- A string is read back, whatever stands behind it. -/
theorem scanString_jsonString (text : String) (rest : List Char) :
    scanString ((jsonString text).toList.tail ++ rest) = .ok (text, rest) := by
  have hlen : text.toList.length ≤
      (text.toList.flatMap escapeChar ++ '"' :: rest).length := by
    have hbody := length_le_length_escaped text.toList
    rw [List.length_append]
    omega
  rw [toList_jsonString, List.tail_cons, List.append_assoc, List.singleton_append]
  simp only [scanString, scanStringFuel_escaped text.toList rest hlen, bind, Except.bind, pure,
    Except.pure, String.ofList_toList]

/-! ## What may follow -/

/-- Behind a value the text ends, or goes on with a comma or a closing bracket. -/
def Follows (rest : List Char) : Prop := ∀ c ∈ rest.head?, c = ',' ∨ c = ']' ∨ c = '\x7d'

theorem follows_cons {c : Char} (hc : c = ',' ∨ c = ']' ∨ c = '\x7d') (rest : List Char) :
    Follows (c :: rest) := by
  intro d hd
  obtain rfl : c = d := Option.some.inj hd
  exact hc

theorem Follows.not_digit {rest : List Char} (h : Follows rest) :
    ∀ c ∈ rest.head?, c.isDigit = false := by
  intro c hc
  rcases h c hc with rfl | rfl | rfl <;> decide

/-- A run of digits ends where the digits do. -/
theorem digits_append {ds : List Char} (hds : ∀ c ∈ ds, c.isDigit = true) {rest : List Char}
    (hrest : ∀ c ∈ rest.head?, c.isDigit = false) :
    (ds ++ rest).takeWhile Char.isDigit = ds ∧ (ds ++ rest).dropWhile Char.isDigit = rest := by
  have hnone : rest.takeWhile Char.isDigit = [] ∧ rest.dropWhile Char.isDigit = rest := by
    cases rest with
    | nil => exact ⟨rfl, rfl⟩
    | cons c rest =>
      have hc : ¬ c.isDigit = true := Bool.eq_false_iff.mp (hrest c rfl)
      exact ⟨List.takeWhile_cons_of_neg hc, List.dropWhile_cons_of_neg hc⟩
  rw [List.takeWhile_append_of_pos hds, List.dropWhile_append_of_pos hds, hnone.1, hnone.2,
    List.append_nil]
  exact ⟨rfl, rfl⟩

/-! ## Numbers -/

theorem toDigits_isDigit (n : ℕ) : ∀ c ∈ Nat.toDigits 10 n, c.isDigit = true := fun _ hc =>
  Nat.isDigit_of_mem_toDigits (by omega) (by omega) hc

/-- The digits of a number begin with a zero only where they are that zero. -/
theorem toDigits_head (n : ℕ) : n = 0 ∨ ∃ c cs, Nat.toDigits 10 n = c :: cs ∧ c ≠ '0' := by
  induction n using Nat.strongRecOn with
  | ind n ih =>
    by_cases hlt : n < 10
    · have hall : ∀ i < 10, i = 0 ∨ ∃ c cs, Nat.toDigits 10 i = c :: cs ∧ c ≠ '0' := by
        intro i hi
        rw [Nat.toDigits_of_lt_base hi]
        refine or_iff_not_imp_left.mpr fun hne => ⟨_, _, rfl, ?_⟩
        have hchars : ∀ j < 10, j ≠ 0 → Nat.digitChar j ≠ '0' := by decide
        exact hchars i hi hne
      exact hall n hlt
    · obtain hzero | ⟨c, cs, hcons, hc⟩ := ih (n / 10) (by omega)
      · omega
      · refine Or.inr ⟨c, cs ++ [Nat.digitChar (n % 10)], ?_, hc⟩
        rw [Nat.toDigits_of_base_le (by omega) (by omega), hcons]
        rfl

theorem scanWhole_toDigits (n : ℕ) {rest : List Char}
    (hrest : ∀ c ∈ rest.head?, c.isDigit = false) :
    scanWhole (Nat.toDigits 10 n ++ rest) = some (Nat.toDigits 10 n, rest) := by
  obtain rfl | ⟨c, cs, hcons, hc⟩ := toDigits_head n
  · rw [Nat.toDigits_zero]
    rfl
  · have hdigits := toDigits_isDigit n
    obtain ⟨htake, hdrop⟩ := digits_append hdigits hrest
    rw [hcons] at htake hdrop ⊢
    rw [List.cons_append] at htake hdrop ⊢
    unfold scanWhole
    split
    · next heq => exact absurd (List.cons.inj heq).1 hc
    · rw [htake, hdrop, if_neg (List.cons_ne_nil _ _)]

theorem scanFraction_of_isFraction {fraction : List Char} (h : IsFraction fraction)
    {rest : List Char} (hrest : ∀ c ∈ rest.head?, c.isDigit = false ∧ c ≠ '.') :
    scanFraction (fraction ++ rest) = (fraction, rest) := by
  rcases h with rfl | ⟨ds, rfl, hne, hds⟩
  · rw [List.nil_append]
    unfold scanFraction
    split
    · exact absurd rfl (hrest _ rfl).2
    · rfl
  · obtain ⟨htake, hdrop⟩ := digits_append hds fun c hc => (hrest c hc).1
    rw [List.cons_append]
    simp only [scanFraction, htake, hdrop, if_neg hne]

theorem scanExponent_of_isExponent {exponent : List Char} (h : IsExponent exponent)
    {rest : List Char} (hrest : Follows rest) :
    scanExponent (exponent ++ rest) = (exponent, rest) := by
  rcases h with rfl | ⟨sign, ds, rfl, hsign, hne, hds⟩
  · cases rest with
    | nil => rfl
    | cons c rest =>
      have hc : ¬ (c = 'e' ∨ c = 'E') := by
        rcases hrest c rfl with rfl | rfl | rfl <;> decide
      exact if_neg hc
  · obtain ⟨htake, hdrop⟩ := digits_append hds hrest.not_digit
    have hscan : scanExponentSign (sign ++ (ds ++ rest)) = (sign, ds ++ rest) := by
      rcases hsign with rfl | rfl <;> rfl
    rw [List.cons_append, List.append_assoc]
    simp only [scanExponent, true_or, if_true, hscan, htake, hdrop, if_neg hne]

theorem scanSign_append (negative : Bool) {s : List Char} (hs : ∀ c ∈ s.head?, c.isDigit = true) :
    scanSign (signText negative ++ s) = (negative, s) := by
  cases negative with
  | true => rfl
  | false =>
    change scanSign s = (false, s)
    unfold scanSign
    split
    · exact absurd (hs _ rfl) (by decide)
    · rfl

theorem toDigits_append_head (n : ℕ) (s : List Char) :
    ∀ c ∈ (Nat.toDigits 10 n ++ s).head?, c.isDigit = true := by
  obtain ⟨c, cs, hcons⟩ := List.exists_cons_of_ne_nil (Nat.toDigits_ne_nil (n := n) (b := 10))
  intro d hd
  rw [hcons] at hd
  obtain rfl : c = d := Option.some.inj hd
  exact toDigits_isDigit n c (hcons ▸ List.mem_cons_self)

theorem IsFraction.head {fraction : List Char} (h : IsFraction fraction) {s : List Char}
    (hs : ∀ c ∈ s.head?, c.isDigit = false) : ∀ c ∈ (fraction ++ s).head?, c.isDigit = false := by
  rcases h with rfl | ⟨ds, rfl, -, -⟩
  · exact hs
  · intro c hc
    obtain rfl : '.' = c := Option.some.inj hc
    decide

theorem IsExponent.head {exponent : List Char} (h : IsExponent exponent) {rest : List Char}
    (hrest : Follows rest) :
    ∀ c ∈ (exponent ++ rest).head?, c.isDigit = false ∧ c ≠ '.' := by
  rcases h with rfl | ⟨sign, ds, rfl, -, -, -⟩
  · intro c hc
    rcases hrest c hc with rfl | rfl | rfl <;> decide
  · intro c hc
    obtain rfl : 'e' = c := Option.some.inj hc
    decide

/-- The four parts of a number are found again. -/
theorem scanNumber_parts (floats : FloatText) (negative : Bool) (n : ℕ)
    {fraction exponent rest : List Char} (hfraction : IsFraction fraction)
    (hexponent : IsExponent exponent) (hrest : Follows rest) :
    scanNumber floats
        (signText negative ++ (Nat.toDigits 10 n ++ (fraction ++ (exponent ++ rest)))) =
      if fraction ++ exponent ≠ [] then
        .ok (.float (floats.parse
          (signText negative ++ (Nat.toDigits 10 n ++ (fraction ++ exponent)))), rest)
      else if maxStrDigits < (Nat.toDigits 10 n).length then .error .valueError
      else .ok (.int (if negative then -(n : ℤ) else n), rest) := by
  have hbehind := hexponent.head hrest
  have hwhole := scanWhole_toDigits n (hfraction.head fun c hc => (hbehind c hc).1)
  unfold scanNumber
  rw [scanSign_append negative (toDigits_append_head n _)]
  simp only [hwhole, scanFraction_of_isFraction hfraction hbehind,
    scanExponent_of_isExponent hexponent hrest, Nat.ofDigitChars_ten_toDigits]

/-- An integer is its sign and its absolute value. -/
theorem signed_natAbs (n : ℤ) :
    (if decide (n < 0) = true then -(n.natAbs : ℤ) else n.natAbs) = n := by
  by_cases hn : n < 0
  · rw [decide_eq_true hn, if_pos rfl]
    omega
  · rw [decide_eq_false hn, if_neg Bool.false_ne_true]
    omega

theorem scanNumber_intText (floats : FloatText) {n : ℤ} {text : String}
    (h : intText n = .ok text) {rest : List Char} (hrest : Follows rest) :
    scanNumber floats (text.toList ++ rest) = .ok (.int n, rest) := by
  unfold intText at h
  dsimp only at h
  split_ifs at h with hdigits
  obtain rfl := Except.ok.inj h
  have hparts := scanNumber_parts floats (n < 0) n.natAbs (Or.inl rfl) (Or.inl rfl) hrest
  rw [List.nil_append, List.nil_append, if_neg (by simp), if_neg hdigits] at hparts
  rw [String.toList_ofList, List.append_assoc, hparts, signed_natAbs]

theorem scanNumber_repr (floats : FloatText) {x : ℚ} (hx : floats.IsDouble x) {rest : List Char}
    (hrest : Follows rest) :
    scanNumber floats (floats.repr x ++ rest) = .ok (.float (.finite x), rest) := by
  obtain ⟨negative, n, fraction, exponent, hfraction, hexponent, hne, heq⟩ :=
    floats.repr_isFloatLiteral x hx
  have hparts := scanNumber_parts floats negative n hfraction hexponent hrest
  rw [if_pos hne, ← heq, floats.parse_repr x hx] at hparts
  rw [heq]
  simpa only [List.append_assoc] using hparts

/-! ## A float text -/

/-- The floats that are integers, written with the fraction `.0`. -/
def integralFloats : FloatText where
  IsDouble x := x = Rat.ofInt x.num
  repr x := signText (x.num < 0) ++ (Nat.toDigits 10 x.num.natAbs ++ ['.', '0'])
  parse text :=
    let (negative, digits) := scanSign text
    let n : ℤ := Nat.ofDigitChars 10 (digits.takeWhile Char.isDigit) 0
    .finite (Rat.ofInt (if negative then -n else n))
  repr_isFloatLiteral x _ :=
    ⟨x.num < 0, x.num.natAbs, ['.', '0'], [], Or.inr ⟨['0'], rfl, List.cons_ne_nil _ _,
      fun _ hc => List.mem_singleton.mp hc ▸ rfl⟩, Or.inl rfl, List.cons_ne_nil _ _, rfl⟩
  parse_repr x hx := by
    have hpoint : ∀ c ∈ ['.', '0'].head?, c.isDigit = false := fun c hc =>
      Option.some.inj hc ▸ rfl
    have htake : (Nat.toDigits 10 x.num.natAbs ++ ['.', '0']).takeWhile Char.isDigit =
        Nat.toDigits 10 x.num.natAbs := (digits_append (toDigits_isDigit x.num.natAbs) hpoint).1
    rw [scanSign_append _ (toDigits_append_head _ _)]
    simp only [htake, Nat.ofDigitChars_ten_toDigits, signed_natAbs]
    exact congrArg PyFloat.finite hx.symm
  isDouble_of_parse text x h := by
    obtain rfl := PyFloat.finite.inj h
    rfl

end SmartIDS.Python
