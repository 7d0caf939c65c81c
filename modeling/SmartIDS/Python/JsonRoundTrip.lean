import SmartIDS.Foundation.Outcomes
import SmartIDS.Python.JsonTokens
set_option autoImplicit false

/-!
# Python: `json.loads` reads what `json.dumps` wrote

Each phrase the encoder writes is read at the front of a text, up to what may
follow it there.  The values are those a Python program can hold: the keys of an
object are distinct, and its floats are doubles (`Proper`).
-/

namespace SmartIDS.Python

open SmartIDS.Foundation

/-! ## Lists of phrases -/

/-- The text stands for the value, wherever a value may stand. -/
structure Phrase {α : Type} (scan : Scan α) (text : List Char) (x : α) : Prop where
  head : ∃ c cs, text = c :: cs ∧ isJsonSpace c = false ∧ c ≠ ']' ∧ c ≠ '\x7d'
  reads : ∀ rest, Follows rest → scan (text ++ rest) = .ok (x, rest)

section lists

variable {α : Type} {phrase : Scan α} {text : List Char} {x : α}

theorem Phrase.skipSpace (h : Phrase phrase text x) (rest : List Char) :
    skipSpace (text ++ rest) = text ++ rest := by
  obtain ⟨c, cs, rfl, hspace, -, -⟩ := h.head
  exact List.dropWhile_cons_of_neg (by simp [hspace])

theorem intercalate_eq_append (separator text : List Char) (texts : List (List Char)) :
    ∃ tail, separator.intercalate (text :: texts) = text ++ tail := by
  cases texts with
  | nil => exact ⟨[], by rw [List.intercalate_singleton, List.append_nil]⟩
  | cons _ _ => exact ⟨_, List.intercalate_cons_cons.trans (List.append_assoc _ _ _)⟩

/-- Every phrase takes up some of the text. -/
theorem length_le_length_intercalate {texts : List (List Char)} {xs : List α}
    (h : List.Forall₂ (Phrase phrase) texts xs) :
    texts.length ≤ ([',', ' '].intercalate texts).length := by
  induction h with
  | nil => exact Nat.zero_le _
  | @cons text x texts xs hphrase hphrases ih =>
    obtain ⟨c, cs, rfl, -⟩ := hphrase.head
    cases texts with
    | nil => simp
    | cons next texts =>
      rw [List.intercalate_cons_cons]
      simp only [List.length_cons, List.length_append] at ih ⊢
      omega

/-- The loop reads the phrases up to the closing bracket. -/
theorem scanListFuel_intercalate {close : Char} (hclose : close = ']' ∨ close = '\x7d')
    {texts : List (List Char)} {xs : List α} (h : List.Forall₂ (Phrase phrase) texts xs)
    (hne : texts ≠ []) (rest : List Char) {fuel : ℕ} (hfuel : texts.length ≤ fuel) :
    scanListFuel phrase close fuel ([',', ' '].intercalate texts ++ close :: rest) =
      .ok (xs, rest) := by
  have hend : skipSpace (close :: rest) = close :: rest := by
    rcases hclose with rfl | rfl <;> rfl
  have hcomma : close ≠ ',' := by
    rcases hclose with rfl | rfl <;> decide
  induction h generalizing fuel with
  | nil => exact absurd rfl hne
  | @cons text x texts xs hphrase hphrases ih =>
    obtain ⟨fuel, rfl⟩ := Nat.exists_eq_succ_of_ne_zero (Nat.ne_of_gt (Nat.lt_of_lt_of_le
      (Nat.succ_pos _) hfuel))
    cases hphrases with
    | nil =>
      have hread := hphrase.reads (close :: rest) (follows_cons (Or.inr hclose) rest)
      rw [List.intercalate_singleton]
      simp only [scanListFuel, hread, bind, Except.bind, hend, if_true, pure, Except.pure]
    | @cons next y texts ys hnext hphrases =>
      have hrest := ih (List.cons_ne_nil _ _) (Nat.le_of_succ_le_succ hfuel)
      have hread := hphrase.reads
        (',' :: ' ' :: ([',', ' '].intercalate (next :: texts) ++ close :: rest))
        (follows_cons (Or.inl rfl) _)
      have hskip : skipSpace (' ' :: ([',', ' '].intercalate (next :: texts) ++ close :: rest)) =
          [',', ' '].intercalate (next :: texts) ++ close :: rest := by
        obtain ⟨tail, htail⟩ := intercalate_eq_append [',', ' '] next texts
        rw [htail, List.append_assoc]
        exact hnext.skipSpace _
      have hskipComma : ∀ s, skipSpace (',' :: s) = ',' :: s := fun _ => rfl
      rw [List.intercalate_cons_cons, List.append_assoc, List.append_assoc]
      simp only [List.cons_append, List.nil_append, scanListFuel, hread, bind, Except.bind,
        hskipComma, if_neg hcomma.symm, if_true, hskip, hrest, pure, Except.pure]

/-- The phrases behind an opening bracket. -/
theorem scanList_intercalate {close : Char} (hclose : close = ']' ∨ close = '\x7d')
    {texts : List (List Char)} {xs : List α} (h : List.Forall₂ (Phrase phrase) texts xs)
    (rest : List Char) :
    scanList phrase close ([',', ' '].intercalate texts ++ close :: rest) = .ok (xs, rest) := by
  cases h with
  | nil =>
    have hend : skipSpace (close :: rest) = close :: rest := by
      rcases hclose with rfl | rfl <;> rfl
    simp only [List.intercalate_nil, List.nil_append, scanList, hend, if_true]
  | @cons text x texts xs hphrase hphrases =>
    have hlength := length_le_length_intercalate (hphrases.cons hphrase)
    obtain ⟨tail, htail⟩ := intercalate_eq_append [',', ' '] text texts
    obtain ⟨c, cs, hhead, hspace, hbracket, hbrace⟩ := hphrase.head
    have hc : c ≠ close := by
      rcases hclose with rfl | rfl
      · exact hbracket
      · exact hbrace
    have hwhole : [',', ' '].intercalate (text :: texts) ++ close :: rest =
        c :: (cs ++ (tail ++ close :: rest)) := by
      rw [htail, hhead]
      simp only [List.cons_append, List.append_assoc]
    have hfuel : (text :: texts).length ≤ (cs ++ (tail ++ close :: rest)).length + 1 := by
      have hlen := congrArg List.length hwhole
      rw [List.length_append, List.length_cons (a := c)] at hlen
      omega
    have hread := scanListFuel_intercalate hclose (hphrases.cons hphrase) (List.cons_ne_nil _ _)
      rest hfuel
    rw [hwhole] at hread ⊢
    have hskip : skipSpace (c :: (cs ++ (tail ++ close :: rest))) =
        c :: (cs ++ (tail ++ close :: rest)) := List.dropWhile_cons_of_neg (by simp [hspace])
    simp only [scanList, hskip, if_neg hc, hread]

end lists

/-! ## Values -/

/-- A value a program can hold: its floats are doubles and the keys of its objects
are distinct. -/
inductive Json.Proper (floats : FloatText) : Json → Prop
  | null : Proper floats .null
  | bool (b : Bool) : Proper floats (.bool b)
  | int (n : ℤ) : Proper floats (.int n)
  | float {x : PyFloat} : (∀ q, x = .finite q → floats.IsDouble q) → Proper floats (.float x)
  | str (s : String) : Proper floats (.str s)
  | arr {items : List Json} : (∀ item ∈ items, Proper floats item) → Proper floats (.arr items)
  | obj {entries : List (String × Json)} : (entries.map Prod.fst).Nodup →
      (∀ entry ∈ entries, Proper floats entry.2) → Proper floats (.obj entries)

/-- The pairs of a dictionary build it again. -/
theorem dictOf_entries {entries : List (String × Json)} (h : (entries.map Prod.fst).Nodup) :
    (dictOf entries).entries = entries := by
  have hloop : ∀ (rest : List (String × Json)) (d : Dict String Json),
      ((d.entries ++ rest).map Prod.fst).Nodup →
      (rest.foldl (fun d pair => d.set pair.1 pair.2) d).entries = d.entries ++ rest := by
    intro rest
    induction rest with
    | nil => exact fun d _ => (List.append_nil _).symm
    | cons pair rest ih =>
      intro d hnodup
      have hfresh : pair.1 ∉ d.entries.map Prod.fst := by
        rw [List.map_append, List.map_cons] at hnodup
        exact fun hmem => List.disjoint_of_nodup_append hnodup hmem List.mem_cons_self
      have hset : (d.set pair.1 pair.2).entries = d.entries ++ [pair] := by
        unfold Dict.set
        rw [dif_neg hfresh]
      have hnext : d.entries ++ [pair] ++ rest = d.entries ++ pair :: rest := by simp
      rw [List.foldl_cons, ih _ (by rw [hset, hnext]; exact hnodup), hset, hnext]
  exact hloop entries .empty h

/-- A text beginning like a number is read as one. -/
theorem scanScalar_number (floats : FloatText) {c : Char} {cs : List Char}
    (hc : c.isDigit = true ∨ (c = '-' ∧ ∀ d ∈ cs.head?, d.isDigit = true)) :
    scanScalar floats (c :: cs) = scanNumber floats (c :: cs) := by
  unfold scanScalar
  split
  all_goals first | rfl | skip
  all_goals
    next heq =>
      obtain ⟨rfl, rfl⟩ := List.cons.inj heq
      rcases hc with hc | ⟨hc, hdigit⟩
      · exact absurd hc (by decide)
      · first
          | exact absurd hc (by decide)
          | exact absurd (hdigit _ rfl) (by decide)

theorem scanOnce_scalar (floats : FloatText) (depth : ℕ) {s : List Char}
    (hs : ∀ c ∈ s.head?, c ≠ '[' ∧ c ≠ '\x7b') : scanOnce floats depth s = scanScalar floats s := by
  cases s with
  | nil => cases depth <;> rfl
  | cons c cs =>
    obtain ⟨hbracket, hbrace⟩ := hs c rfl
    unfold scanOnce
    split
    all_goals first | rfl | skip
    all_goals
      next heq => first | exact absurd (List.cons.inj heq).1 hbracket |
        exact absurd (List.cons.inj heq).1 hbrace

/-- A scalar stands for itself at any depth. -/
theorem phrase_of_scalar {floats : FloatText} {depth : ℕ} {c : Char} {cs : List Char} {v : Json}
    (hc : c ∉ [' ', '\t', '\n', '\r', '[', ']', '\x7b', '\x7d'])
    (h : ∀ rest, Follows rest → scanScalar floats (c :: (cs ++ rest)) = .ok (v, rest)) :
    Phrase (scanOnce floats depth) (c :: cs) v where
  head := by
    refine ⟨c, cs, rfl, ?_, fun heq => hc (by simp [heq]), fun heq => hc (by simp [heq])⟩
    unfold isJsonSpace
    simp_all
  reads rest hrest := by
    rw [List.cons_append, scanOnce_scalar floats depth, h rest hrest]
    intro d hd
    obtain rfl : c = d := Option.some.inj hd
    exact ⟨fun heq => hc (by simp [heq]), fun heq => hc (by simp [heq])⟩

theorem isDigit_notMem {c : Char} (hc : c.isDigit = true) :
    c ∉ [' ', '\t', '\n', '\r', '[', ']', '\x7b', '\x7d'] := by
  intro hmem
  simp only [List.mem_cons, List.not_mem_nil, or_false] at hmem
  rcases hmem with rfl | rfl | rfl | rfl | rfl | rfl | rfl | rfl <;> exact absurd hc (by decide)

/-- A text that begins with the sign and the digits of a number. -/
theorem phrase_of_number {floats : FloatText} {depth : ℕ} {text : List Char} {v : Json}
    (htext : ∃ negative n tail, text = signText negative ++ (Nat.toDigits 10 n ++ tail))
    (h : ∀ rest, Follows rest → scanNumber floats (text ++ rest) = .ok (v, rest)) :
    Phrase (scanOnce floats depth) text v := by
  obtain ⟨negative, n, tail, rfl⟩ := htext
  obtain ⟨c, cs, hcons⟩ := List.exists_cons_of_ne_nil (Nat.toDigits_ne_nil (n := n) (b := 10))
  have hdigit : c.isDigit = true := toDigits_isDigit n c (hcons ▸ List.mem_cons_self)
  rw [hcons] at h ⊢
  cases negative with
  | true =>
    refine phrase_of_scalar (by decide) fun rest hrest => ?_
    refine Eq.trans ?_ (h rest hrest)
    refine scanScalar_number floats (Or.inr ⟨rfl, fun d hd => ?_⟩)
    obtain rfl : c = d := Option.some.inj hd
    exact hdigit
  | false =>
    refine phrase_of_scalar (isDigit_notMem hdigit) fun rest hrest => ?_
    exact (scanScalar_number floats (Or.inl hdigit)).trans (h rest hrest)

theorem phrase_intText (floats : FloatText) (depth : ℕ) {n : ℤ} {text : String}
    (h : intText n = .ok text) : Phrase (scanOnce floats depth) text.toList (.int n) := by
  refine phrase_of_number ?_ fun rest hrest => scanNumber_intText floats h hrest
  unfold intText at h
  dsimp only at h
  split_ifs at h with hdigits
  obtain rfl := Except.ok.inj h
  exact ⟨n < 0, n.natAbs, [], by rw [String.toList_ofList, List.append_nil]⟩

theorem phrase_floatText (floats : FloatText) (depth : ℕ) {x : PyFloat}
    (hx : ∀ q, x = .finite q → floats.IsDouble q) :
    Phrase (scanOnce floats depth) (floatText floats x).toList (.float x) := by
  cases x with
  | finite q =>
    have hq := hx q rfl
    unfold floatText
    rw [String.toList_ofList]
    refine phrase_of_number ?_ fun rest hrest => scanNumber_repr floats hq hrest
    obtain ⟨negative, n, fraction, exponent, -, -, -, heq⟩ := floats.repr_isFloatLiteral q hq
    exact ⟨negative, n, fraction ++ exponent, heq⟩
  | inf =>
    rw [show (floatText floats .inf).toList = ['I', 'n', 'f', 'i', 'n', 'i', 't', 'y'] from
      String.toList_ofList]
    exact phrase_of_scalar (by decide) fun _ _ => rfl
  | negInf =>
    rw [show (floatText floats .negInf).toList = ['-', 'I', 'n', 'f', 'i', 'n', 'i', 't', 'y'] from
      String.toList_ofList]
    exact phrase_of_scalar (by decide) fun _ _ => rfl
  | nan =>
    rw [show (floatText floats .nan).toList = ['N', 'a', 'N'] from String.toList_ofList]
    exact phrase_of_scalar (by decide) fun _ _ => rfl

theorem phrase_jsonString (floats : FloatText) (depth : ℕ) (s : String) :
    Phrase (scanOnce floats depth) (jsonString s).toList (.str s) := by
  rw [toList_jsonString]
  refine phrase_of_scalar (by decide) fun rest _ => ?_
  have hread := scanString_jsonString s rest
  rw [toList_jsonString, List.tail_cons] at hread
  simp only [scanScalar, hread, bind, Except.bind, pure, Except.pure]

theorem toList_jsonArray (values : List String) :
    (jsonArray values).toList = '[' :: ([',', ' '].intercalate (values.map String.toList) ++ [']']) := by
  have hopen : "[".toList = ['['] := String.toList_ofList
  have hclose : "]".toList = [']'] := String.toList_ofList
  have hseparator : ", ".toList = [',', ' '] := String.toList_ofList
  unfold jsonArray
  rw [String.toList_append, String.toList_append, String.toList_intercalate, hopen, hclose,
    hseparator, List.append_assoc]
  rfl

/-- The text of an entry. -/
def entryText (entry : String × String) : List Char :=
  (jsonString entry.1).toList ++ (':' :: ' ' :: entry.2.toList)

theorem toList_jsonObject (entries : List (String × String)) :
    (jsonObject entries).toList =
      '\x7b' :: ([',', ' '].intercalate (entries.map entryText) ++ ['\x7d']) := by
  have hopen : "\x7b".toList = ['\x7b'] := String.toList_ofList
  have hclose : "\x7d".toList = ['\x7d'] := String.toList_ofList
  have hseparator : ", ".toList = [',', ' '] := String.toList_ofList
  have hcolon : ": ".toList = [':', ' '] := String.toList_ofList
  have hentries : (entries.map fun entry => jsonString entry.1 ++ ": " ++ entry.2).map
      String.toList = entries.map entryText := by
    rw [List.map_map]
    refine List.map_congr_left fun entry _ => ?_
    rw [Function.comp_apply, String.toList_append, String.toList_append, hcolon, List.append_assoc]
    rfl
  unfold jsonObject
  rw [String.toList_append, String.toList_append, String.toList_intercalate, hopen, hclose,
    hseparator, hentries, List.append_assoc]
  rfl

/-- A key, a colon and a value. -/
theorem phrase_entry {value : Scan Json} {key text : String} {v : Json}
    (h : Phrase value text.toList v) :
    Phrase (scanEntry value) (entryText (key, text)) (key, v) where
  head := by
    unfold entryText
    rw [toList_jsonString]
    exact ⟨'"', _, rfl, by decide, by decide, by decide⟩
  reads rest hrest := by
    have hread := scanString_jsonString key (':' :: ' ' :: (text.toList ++ rest))
    have hcolon : ∀ s, skipSpace (':' :: s) = ':' :: s := fun _ => rfl
    have hspace : skipSpace (' ' :: (text.toList ++ rest)) = text.toList ++ rest := h.skipSpace rest
    unfold entryText
    rw [toList_jsonString] at hread ⊢
    rw [List.tail_cons] at hread
    simp only [List.cons_append, List.append_assoc] at hread ⊢
    simp only [scanEntry, hread, bind, Except.bind, hcolon, hspace, h.reads rest hrest, pure,
      Except.pure]

/-- Everything but arrays and objects, at any depth. -/
theorem phrase_dumps_scalar {floats : FloatText} {depth depth' : ℕ} {v : Json} {text : String}
    (h : dumps floats depth v = .ok text) (hv : v.Proper floats)
    (harr : ∀ items, v ≠ .arr items) (hobj : ∀ entries, v ≠ .obj entries) :
    Phrase (scanOnce floats depth') text.toList v := by
  cases hv with
  | null =>
    simp only [dumps, Except.ok.injEq] at h
    rw [← h, show "null".toList = ['n', 'u', 'l', 'l'] from String.toList_ofList]
    exact phrase_of_scalar (by decide) fun _ _ => rfl
  | bool b =>
    cases b with
    | true =>
      simp only [dumps, Except.ok.injEq] at h
      rw [← h, show "true".toList = ['t', 'r', 'u', 'e'] from String.toList_ofList]
      exact phrase_of_scalar (by decide) fun _ _ => rfl
    | false =>
      simp only [dumps, Except.ok.injEq] at h
      rw [← h, show "false".toList = ['f', 'a', 'l', 's', 'e'] from String.toList_ofList]
      exact phrase_of_scalar (by decide) fun _ _ => rfl
  | int n => exact phrase_intText floats depth' (by simpa only [dumps] using h)
  | float hx =>
    simp only [dumps, Except.ok.injEq] at h
    rw [← h]
    exact phrase_floatText floats depth' hx
  | str s =>
    simp only [dumps, Except.ok.injEq] at h
    rw [← h]
    exact phrase_jsonString floats depth' s
  | @arr items _ => exact absurd rfl (harr items)
  | @obj entries _ _ => exact absurd rfl (hobj entries)

/-- An array, once its items are read. -/
theorem phrase_jsonArray {floats : FloatText} {depth : ℕ} {texts : List String}
    {items : List Json}
    (h : List.Forall₂ (fun t item => Phrase (scanOnce floats depth) (String.toList t) item) texts
      items) :
    Phrase (scanOnce floats (depth + 1)) (jsonArray texts).toList (.arr items) := by
  rw [toList_jsonArray]
  refine ⟨⟨'[', _, rfl, by decide, by decide, by decide⟩, fun rest _ => ?_⟩
  have hread := scanList_intercalate (Or.inl rfl) (List.forall₂_map_left_iff.mpr h) rest
  simp only [List.cons_append, List.append_assoc, List.nil_append, scanOnce, hread, bind,
    Except.bind, pure, Except.pure]

/-- An object, once its values are read. -/
theorem phrase_jsonObject {floats : FloatText} {depth : ℕ} {texts : List (String × String)}
    {entries : List (String × Json)} (hnodup : (entries.map Prod.fst).Nodup)
    (h : List.Forall₂ (fun t entry => Phrase (scanEntry (scanOnce floats depth)) (entryText t) entry)
      texts entries) :
    Phrase (scanOnce floats (depth + 1)) (jsonObject texts).toList (.obj entries) := by
  rw [toList_jsonObject]
  refine ⟨⟨'\x7b', _, rfl, by decide, by decide, by decide⟩, fun rest _ => ?_⟩
  have hread := scanList_intercalate (Or.inr rfl) (List.forall₂_map_left_iff.mpr h) rest
  simp only [List.cons_append, List.append_assoc, List.nil_append, scanOnce, hread, bind,
    Except.bind, pure, Except.pure, dictOf_entries hnodup]

/-- What the encoder writes is read back by a decoder that may go as deep. -/
theorem phrase_dumps {floats : FloatText} {depth depth' : ℕ} (hdepth : depth ≤ depth') {v : Json}
    {text : String} (h : dumps floats depth v = .ok text) (hv : v.Proper floats) :
    Phrase (scanOnce floats depth') text.toList v := by
  induction depth generalizing depth' v text with
  | zero =>
    refine phrase_dumps_scalar h hv (fun items heq => ?_) fun entries heq => ?_
    all_goals subst heq; simp [dumps] at h
  | succ depth ih =>
    obtain ⟨depth', rfl⟩ := Nat.exists_eq_succ_of_ne_zero (Nat.ne_of_gt (Nat.lt_of_lt_of_le
      (Nat.succ_pos _) hdepth))
    have hle := Nat.le_of_succ_le_succ hdepth
    cases hv with
    | @arr items hitems =>
      obtain ⟨texts, hmap, hjoin⟩ := bind_eq_ok_iff.mp h
      rw [← Except.ok.inj hjoin]
      exact phrase_jsonArray (forall₂_of_mapM hmap fun item hitem text htext =>
        ih hle htext (hitems item hitem))
    | @obj entries hnodup hvalues =>
      obtain ⟨texts, hmap, hjoin⟩ := bind_eq_ok_iff.mp h
      rw [← Except.ok.inj hjoin]
      refine phrase_jsonObject hnodup (forall₂_of_mapM hmap fun entry hentry text htext => ?_)
      obtain ⟨value, hvalue, hpair⟩ := bind_eq_ok_iff.mp htext
      rw [← Except.ok.inj hpair]
      exact phrase_entry (ih hle hvalue (hvalues entry hentry))
    | _ => exact phrase_dumps_scalar h (by constructor <;> assumption) (by simp) (by simp)

/-! ## One line of ASCII -/

theorem digit_printable {c : Char} (hc : c.isDigit = true) : ' ' ≤ c ∧ c ≤ '~' := by
  simp only [Char.isDigit, Bool.and_eq_true, decide_eq_true_eq] at hc
  exact ⟨le_trans (by decide) hc.1, le_trans hc.2 (by decide)⟩

theorem signText_printable (negative : Bool) : ∀ c ∈ signText negative, ' ' ≤ c ∧ c ≤ '~' := by
  cases negative with
  | true => exact fun c hc => List.mem_singleton.mp hc ▸ ⟨by decide, by decide⟩
  | false => exact fun c hc => absurd hc List.not_mem_nil

theorem IsFraction.printable {fraction : List Char} (h : IsFraction fraction) :
    ∀ c ∈ fraction, ' ' ≤ c ∧ c ≤ '~' := by
  rcases h with rfl | ⟨ds, rfl, -, hds⟩
  · simp
  · intro c hc
    rcases List.mem_cons.mp hc with rfl | hc
    · decide
    · exact digit_printable (hds c hc)

theorem IsExponent.printable {exponent : List Char} (h : IsExponent exponent) :
    ∀ c ∈ exponent, ' ' ≤ c ∧ c ≤ '~' := by
  rcases h with rfl | ⟨sign, ds, rfl, hsign, -, hds⟩
  · simp
  · intro c hc
    rcases List.mem_cons.mp hc with rfl | hc
    · decide
    rcases List.mem_append.mp hc with hc | hc
    · rcases hsign with rfl | rfl <;> obtain rfl := List.mem_singleton.mp hc <;> decide
    · exact digit_printable (hds c hc)

theorem IsFloatLiteral.printable {text : List Char} (h : IsFloatLiteral text) :
    ∀ c ∈ text, ' ' ≤ c ∧ c ≤ '~' := by
  obtain ⟨negative, n, fraction, exponent, hfraction, hexponent, -, rfl⟩ := h
  intro c hc
  rcases List.mem_append.mp hc with hc | hc
  · exact signText_printable negative c hc
  rcases List.mem_append.mp hc with hc | hc
  · exact digit_printable (toDigits_isDigit n c hc)
  rcases List.mem_append.mp hc with hc | hc
  · exact hfraction.printable c hc
  · exact hexponent.printable c hc

theorem printable_intText {n : ℤ} {text : String} (h : intText n = .ok text) : Printable text := by
  unfold intText at h
  dsimp only at h
  split_ifs at h with hdigits
  obtain rfl := Except.ok.inj h
  intro c hc
  rw [String.toList_ofList] at hc
  rcases List.mem_append.mp hc with hc | hc
  · exact signText_printable _ c hc
  · exact digit_printable (toDigits_isDigit _ c hc)

theorem printable_floatText (floats : FloatText) {x : PyFloat}
    (hx : ∀ q, x = .finite q → floats.IsDouble q) : Printable (floatText floats x) := by
  cases x with
  | finite q =>
    intro c hc
    unfold floatText at hc
    rw [String.toList_ofList] at hc
    exact (floats.repr_isFloatLiteral q (hx q rfl)).printable c hc
  | inf => exact (by decide : Printable "Infinity")
  | negInf => exact (by decide : Printable "-Infinity")
  | nan => exact (by decide : Printable "NaN")

theorem forall_of_forall₂ {α β : Type} {p : α → Prop} {ys : List α} {l : List β}
    (h : List.Forall₂ (fun y _ => p y) ys l) : ∀ y ∈ ys, p y := by
  induction h with
  | nil => simp
  | cons hhead _ ih => exact List.forall_mem_cons.mpr ⟨hhead, ih⟩

theorem printable_dumps_scalar {floats : FloatText} {depth : ℕ} {v : Json} {text : String}
    (h : dumps floats depth v = .ok text) (hv : v.Proper floats)
    (harr : ∀ items, v ≠ .arr items) (hobj : ∀ entries, v ≠ .obj entries) : Printable text := by
  cases hv with
  | null =>
    simp only [dumps, Except.ok.injEq] at h
    exact h ▸ (by decide : Printable "null")
  | bool b =>
    cases b with
    | true =>
      simp only [dumps, Except.ok.injEq] at h
      exact h ▸ (by decide : Printable "true")
    | false =>
      simp only [dumps, Except.ok.injEq] at h
      exact h ▸ (by decide : Printable "false")
  | int n => exact printable_intText (by simpa only [dumps] using h)
  | float hx =>
    simp only [dumps, Except.ok.injEq] at h
    exact h ▸ printable_floatText floats hx
  | str s =>
    simp only [dumps, Except.ok.injEq] at h
    exact h ▸ printable_jsonString s
  | @arr items _ => exact absurd rfl (harr items)
  | @obj entries _ _ => exact absurd rfl (hobj entries)

/-- Whatever is written stands on one line. -/
theorem printable_dumps {floats : FloatText} {depth : ℕ} {v : Json} {text : String}
    (h : dumps floats depth v = .ok text) (hv : v.Proper floats) : Printable text := by
  induction depth generalizing v text with
  | zero =>
    refine printable_dumps_scalar h hv (fun items heq => ?_) fun entries heq => ?_
    all_goals subst heq; simp [dumps] at h
  | succ depth ih =>
    cases hv with
    | @arr items hitems =>
      obtain ⟨texts, hmap, hjoin⟩ := bind_eq_ok_iff.mp h
      rw [← Except.ok.inj hjoin]
      exact printable_jsonArray (forall_of_forall₂ (forall₂_of_mapM hmap
        fun item hitem text htext => ih htext (hitems item hitem)))
    | @obj entries hnodup hvalues =>
      obtain ⟨texts, hmap, hjoin⟩ := bind_eq_ok_iff.mp h
      rw [← Except.ok.inj hjoin]
      refine printable_jsonObject (forall_of_forall₂ (forall₂_of_mapM hmap
        fun entry hentry text htext => ?_))
      obtain ⟨value, hvalue, hpair⟩ := bind_eq_ok_iff.mp htext
      rw [← Except.ok.inj hpair]
      exact ih hvalue (hvalues entry hentry)
    | _ => exact printable_dumps_scalar h (by constructor <;> assumption) (by simp) (by simp)

/-! ## Documents -/

/-- `json.loads` inverts `json.dumps`. -/
theorem loads_dumps {floats : FloatText} {depth depth' : ℕ} (hdepth : depth ≤ depth') {v : Json}
    {text : String} (h : dumps floats depth v = .ok text) (hv : v.Proper floats) :
    loads floats depth' text = .ok v := by
  have hphrase := phrase_dumps hdepth h hv
  have hskip := hphrase.skipSpace []
  have hread := hphrase.reads [] (by simp [Follows])
  have hprintable := printable_dumps h hv
  obtain ⟨c, cs, hcons, -⟩ := hphrase.head
  have hmark : c ≠ '\ufeff' := by
    have hc := (hprintable c (hcons ▸ List.mem_cons_self)).2
    rintro rfl
    exact absurd hc (by decide)
  rw [List.append_nil, hcons] at hskip hread
  unfold loads
  rw [hcons]
  split
  · next heq => exact absurd (List.cons.inj heq).1 hmark
  · simp only [hskip, hread, bind, Except.bind, pure, Except.pure]
    rfl

example :
    loads integralFloats 7 "\x7b\"note\": \"\\u00e9\\n\", \"scores\": [-4, Infinity]\x7d" =
      .ok (.obj [("note", .str "é\n"), ("scores", .arr [.int (-4), .float .inf])]) := by
  refine loads_dumps (by decide : 2 ≤ 7) (by decide) (.obj (by decide) ?_)
  intro entry hentry
  rcases List.mem_pair.mp hentry with rfl | rfl
  · exact .str _
  · refine .arr fun item hitem => ?_
    rcases List.mem_pair.mp hitem with rfl | rfl
    · exact .int _
    · exact .float fun q hq => by simp at hq

end SmartIDS.Python
