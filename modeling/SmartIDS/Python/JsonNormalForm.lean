import SmartIDS.Python.JsonRoundTrip
set_option autoImplicit false

/-!
# Python: what `json.loads` returns can be dumped again

Whatever text is accepted, the value is one a program can hold, no deeper than the
decoder may go and with integers of no more digits than `int` writes.  So dumping
it succeeds, and loading that text gives the same value: `dumps` after `loads` is
a normal form of the texts that are accepted.
-/

namespace SmartIDS.Python

open SmartIDS.Foundation

/-- What a decoder returns: a value of a program that the encoder does not refuse. -/
structure Decoded (floats : FloatText) (depth : ℕ) (v : Json) : Prop where
  proper : v.Proper floats
  written : ∃ text, dumps floats depth v = .ok text

variable {floats : FloatText} {depth : ℕ}

/-! ## Scalars -/

/-- A number of at most so many digits is written with at most so many. -/
theorem length_toDigits_ofDigitChars {ds : List Char} (hds : ∀ c ∈ ds, c.isDigit = true)
    (hne : ds ≠ []) : (Nat.toDigits 10 (Nat.ofDigitChars 10 ds 0)).length ≤ ds.length := by
  have hbound : ∀ (ds : List Char) (init : ℕ), (∀ c ∈ ds, c.isDigit = true) →
      Nat.ofDigitChars 10 ds init < 10 ^ ds.length * (init + 1) := by
    intro ds
    induction ds with
    | nil => intro init _; simp
    | cons c ds ih =>
      intro init hds
      obtain ⟨hc, hds⟩ := List.forall_mem_cons.mp hds
      have hdigit : c.toNat - '0'.toNat ≤ 9 := by
        have hle : c.toNat ≤ '9'.toNat := by
          simp only [Char.isDigit, Bool.and_eq_true, decide_eq_true_eq] at hc
          exact hc.2
        have hnine : '9'.toNat = 57 := rfl
        have hzero : '0'.toNat = 48 := rfl
        omega
      have hstep : 10 * init + (c.toNat - '0'.toNat) + 1 ≤ 10 * (init + 1) := by omega
      rw [Nat.ofDigitChars_cons, List.length_cons, pow_succ, mul_assoc]
      exact (ih _ hds).trans_le (Nat.mul_le_mul_left _ hstep)
  have hlt := hbound ds 0 hds
  rw [Nat.length_toDigits_le_iff (by omega) (List.length_pos_iff.mpr hne)]
  simpa using hlt

theorem exists_intText {n : ℤ} (h : (Nat.toDigits 10 n.natAbs).length ≤ maxStrDigits) :
    ∃ text, intText n = .ok text := by
  unfold intText
  exact ⟨_, if_neg (not_lt.mpr h)⟩

theorem scanWhole_isDigit {s whole rest : List Char} (h : scanWhole s = some (whole, rest)) :
    whole ≠ [] ∧ ∀ c ∈ whole, c.isDigit = true := by
  unfold scanWhole at h
  split at h
  · obtain ⟨rfl, -⟩ := Prod.mk.inj (Option.some.inj h)
    exact ⟨by simp, by simp⟩
  · split_ifs at h with hnil
    obtain ⟨rfl, -⟩ := Prod.mk.inj (Option.some.inj h)
    exact ⟨hnil, fun c hc => List.mem_takeWhile_imp hc⟩

theorem decoded_int {n : ℤ} {whole : List Char} (hwhole : whole ≠ [] ∧ ∀ c ∈ whole, c.isDigit = true)
    (hdigits : whole.length ≤ maxStrDigits) (hn : n.natAbs = Nat.ofDigitChars 10 whole 0) :
    Decoded floats depth (.int n) := by
  refine ⟨.int n, ?_⟩
  simp only [dumps]
  refine exists_intText ?_
  rw [hn]
  exact (length_toDigits_ofDigitChars hwhole.2 hwhole.1).trans hdigits

theorem decoded_float {x : PyFloat} (hx : ∀ q, x = .finite q → floats.IsDouble q) :
    Decoded floats depth (.float x) := ⟨.float hx, floatText floats x, by simp only [dumps]⟩

theorem decoded_scanNumber {s rest : List Char} {v : Json}
    (h : scanNumber floats s = .ok (v, rest)) : Decoded floats depth v := by
  unfold scanNumber at h
  dsimp only at h
  split at h
  · exact absurd h (by simp)
  · next whole s' hwhole =>
    split at h
    · obtain ⟨rfl, -⟩ := Prod.mk.inj (Except.ok.inj h)
      exact decoded_float fun q hq => floats.isDouble_of_parse _ q hq
    split at h
    · exact absurd h (by simp)
    · next hdigits =>
      obtain ⟨rfl, -⟩ := Prod.mk.inj (Except.ok.inj h)
      refine decoded_int (scanWhole_isDigit hwhole) (not_lt.mp hdigits) ?_
      split_ifs <;> simp

theorem decoded_scanScalar {s rest : List Char} {v : Json}
    (h : scanScalar floats s = .ok (v, rest)) : Decoded floats depth v := by
  unfold scanScalar at h
  split at h
  · obtain ⟨⟨text, rest'⟩, -, h⟩ := bind_eq_ok_iff.mp h
    obtain ⟨rfl, -⟩ := Prod.mk.inj (Except.ok.inj h)
    exact ⟨.str text, jsonString text, by simp only [dumps]⟩
  · obtain ⟨rfl, -⟩ := Prod.mk.inj (Except.ok.inj h)
    exact ⟨.null, "null", by simp only [dumps]⟩
  · obtain ⟨rfl, -⟩ := Prod.mk.inj (Except.ok.inj h)
    exact ⟨.bool true, "true", by simp only [dumps]⟩
  · obtain ⟨rfl, -⟩ := Prod.mk.inj (Except.ok.inj h)
    exact ⟨.bool false, "false", by simp only [dumps]⟩
  · obtain ⟨rfl, -⟩ := Prod.mk.inj (Except.ok.inj h)
    exact decoded_float fun q hq => by simp at hq
  · obtain ⟨rfl, -⟩ := Prod.mk.inj (Except.ok.inj h)
    exact decoded_float fun q hq => by simp at hq
  · obtain ⟨rfl, -⟩ := Prod.mk.inj (Except.ok.inj h)
    exact decoded_float fun q hq => by simp at hq
  · exact decoded_scanNumber h

/-! ## Arrays and objects -/

section lists

variable {α : Type} {phrase : Scan α} {close : Char} {p : α → Prop}

/-- What the phrases have, every item of the list has. -/
theorem forall_of_scanListFuel (hphrase : ∀ s x rest, phrase s = .ok (x, rest) → p x) {fuel : ℕ}
    {s rest : List Char} {xs : List α} (h : scanListFuel phrase close fuel s = .ok (xs, rest)) :
    ∀ x ∈ xs, p x := by
  induction fuel generalizing s xs rest with
  | zero => exact absurd h (by simp [scanListFuel])
  | succ fuel ih =>
    obtain ⟨⟨x, s'⟩, hx, h⟩ := bind_eq_ok_iff.mp h
    have hp := hphrase _ _ _ hx
    dsimp only at h
    split at h
    · exact absurd h (by simp)
    · split_ifs at h with hend hcomma
      · obtain ⟨rfl, -⟩ := Prod.mk.inj (Except.ok.inj h)
        simpa using hp
      · obtain ⟨⟨ys, s''⟩, hys, h⟩ := bind_eq_ok_iff.mp h
        obtain ⟨rfl, -⟩ := Prod.mk.inj (Except.ok.inj h)
        exact List.forall_mem_cons.mpr ⟨hp, ih hys⟩

theorem forall_of_scanList (hphrase : ∀ s x rest, phrase s = .ok (x, rest) → p x)
    {s rest : List Char} {xs : List α} (h : scanList phrase close s = .ok (xs, rest)) :
    ∀ x ∈ xs, p x := by
  unfold scanList at h
  split at h
  · exact absurd h (by simp)
  · split_ifs at h with hend
    · obtain ⟨rfl, -⟩ := Prod.mk.inj (Except.ok.inj h)
      simp
    · exact forall_of_scanListFuel hphrase h

end lists

theorem scanEntry_value {value : Scan Json} {p : Json → Prop}
    (hvalue : ∀ s v rest, value s = .ok (v, rest) → p v) {s rest : List Char}
    {entry : String × Json} (h : scanEntry value s = .ok (entry, rest)) : p entry.2 := by
  unfold scanEntry at h
  split at h
  · obtain ⟨⟨key, s'⟩, -, h⟩ := bind_eq_ok_iff.mp h
    dsimp only at h
    split at h
    · obtain ⟨⟨v, s''⟩, hv, h⟩ := bind_eq_ok_iff.mp h
      obtain ⟨rfl, -⟩ := Prod.mk.inj (Except.ok.inj h)
      exact hvalue _ _ _ hv
    · exact absurd h (by simp)
  · exact absurd h (by simp)

/-- The values of a dictionary are values of the pairs it was built from. -/
theorem forall_mem_dictOf {p : Json → Prop} {pairs : List (String × Json)}
    (h : ∀ pair ∈ pairs, p pair.2) : ∀ entry ∈ (dictOf pairs).entries, p entry.2 := by
  have hset : ∀ (d : Dict String Json) (pair : String × Json), p pair.2 →
      (∀ entry ∈ d.entries, p entry.2) → ∀ entry ∈ (d.set pair.1 pair.2).entries, p entry.2 := by
    intro d pair hpair hd entry hentry
    rcases (Dict.mem_entries_set_iff d _ _ _).mp hentry with rfl | ⟨hmem, -⟩
    · exact hpair
    · exact hd entry hmem
  have hloop : ∀ (rest : List (String × Json)) (d : Dict String Json), (∀ pair ∈ rest, p pair.2) →
      (∀ entry ∈ d.entries, p entry.2) →
      ∀ entry ∈ (rest.foldl (fun d pair => d.set pair.1 pair.2) d).entries, p entry.2 := by
    intro rest
    induction rest with
    | nil => exact fun d _ hd => hd
    | cons pair rest ih =>
      intro d hrest hd
      obtain ⟨hpair, hrest⟩ := List.forall_mem_cons.mp hrest
      exact ih _ hrest (hset d pair hpair hd)
  exact hloop pairs .empty h (by simp)

theorem decoded_arr {items : List Json} (h : ∀ item ∈ items, Decoded floats depth item) :
    Decoded floats (depth + 1) (.arr items) := by
  refine ⟨.arr fun item hitem => (h item hitem).proper, ?_⟩
  obtain ⟨texts, htexts⟩ := exists_mapM_eq_ok fun item hitem => (h item hitem).written
  exact ⟨jsonArray texts, by simp only [dumps, htexts, bind, Except.bind, pure, Except.pure]⟩

theorem decoded_obj {entries : List (String × Json)} (hnodup : (entries.map Prod.fst).Nodup)
    (h : ∀ entry ∈ entries, Decoded floats depth entry.2) :
    Decoded floats (depth + 1) (.obj entries) := by
  refine ⟨.obj hnodup fun entry hentry => (h entry hentry).proper, ?_⟩
  have hpairs : ∀ entry ∈ entries, ∃ text,
      (do return (entry.1, ← dumps floats depth entry.2) : Except PyError (String × String)) =
        .ok text := by
    intro entry hentry
    obtain ⟨text, htext⟩ := (h entry hentry).written
    exact ⟨(entry.1, text), bind_eq_ok_iff.mpr ⟨text, htext, rfl⟩⟩
  obtain ⟨texts, htexts⟩ := exists_mapM_eq_ok hpairs
  exact ⟨jsonObject texts, bind_eq_ok_iff.mpr ⟨texts, htexts, rfl⟩⟩

/-! ## Documents -/

theorem decoded_scanOnce {s rest : List Char} {v : Json}
    (h : scanOnce floats depth s = .ok (v, rest)) : Decoded floats depth v := by
  induction depth generalizing s rest v with
  | zero =>
    unfold scanOnce at h
    split at h
    all_goals first | exact decoded_scanScalar h | skip
    all_goals contradiction
  | succ depth ih =>
    unfold scanOnce at h
    split at h
    · contradiction
    · contradiction
    · rename_i depth' rest' heq
      obtain rfl := Nat.succ.inj heq
      obtain ⟨⟨items, s'⟩, hitems, h⟩ := bind_eq_ok_iff.mp h
      obtain ⟨rfl, -⟩ := Prod.mk.inj (Except.ok.inj h)
      exact decoded_arr (forall_of_scanList (fun _ _ _ => ih) hitems)
    · rename_i depth' rest' heq
      obtain rfl := Nat.succ.inj heq
      obtain ⟨⟨pairs, s'⟩, hpairs, h⟩ := bind_eq_ok_iff.mp h
      obtain ⟨rfl, -⟩ := Prod.mk.inj (Except.ok.inj h)
      refine decoded_obj (dictOf pairs).nodup (forall_mem_dictOf ?_)
      exact forall_of_scanList (fun _ _ _ => scanEntry_value fun _ _ _ => ih) hpairs
    · exact decoded_scanScalar h

theorem decoded_loads {text : String} {v : Json} (h : loads floats depth text = .ok v) :
    Decoded floats depth v := by
  unfold loads at h
  split at h
  · exact absurd h (by simp)
  · obtain ⟨⟨value, s⟩, hvalue, h⟩ := bind_eq_ok_iff.mp h
    dsimp only at h
    split_ifs at h with hend
    obtain rfl := Except.ok.inj h
    exact decoded_scanOnce hvalue

/-- A text that is accepted has a normal form on one line of ASCII, which stands for
the same value. -/
theorem loads_normalForm {text : String} {v : Json} (h : loads floats depth text = .ok v) :
    ∃ line, dumps floats depth v = .ok line ∧ Printable line ∧ loads floats depth line = .ok v := by
  obtain ⟨hproper, line, hline⟩ := decoded_loads h
  exact ⟨line, hline, printable_dumps hline hproper, loads_dumps le_rfl hline hproper⟩

/-- A text with blanks, a repeated key and an escape that is not needed. -/
def spacedText : String := "\x7b \"a\" : 1.0, \"b\":[ ] ,\"a\":[1,\"\\/\"]\x7d"

example : loads integralFloats 2 spacedText =
    .ok (.obj [("a", .arr [.int 1, .str "/"]), ("b", .arr [])]) := by
  have htext : spacedText.toList = ['\x7b', ' ', '"', 'a', '"', ' ', ':', ' ', '1', '.', '0', ',',
      ' ', '"', 'b', '"', ':', '[', ' ', ']', ' ', ',', '"', 'a', '"', ':', '[', '1', ',', '"',
      '\\', '/', '"', ']', '\x7d'] := String.toList_ofList
  unfold loads
  rw [htext]
  rfl

end SmartIDS.Python
