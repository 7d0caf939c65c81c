import SmartIDS.Foundation.Separated
import SmartIDS.Forwarding.SpillSpec
set_option autoImplicit false

/-!
# Forwarding: payloads with an id

The payloads of one key whose value is a number, as `json` writes and reads
them.  The integers that stand alone on a line are JSON without being an object,
and those of more than 4300 digits make `json.loads` raise a plain `ValueError`.
-/

namespace SmartIDS.Forwarding

open SmartIDS.Foundation SmartIDS.Python

/-- What `json.dumps` makes of the payload with this id. -/
def idText (id : ℕ) : String := "\x7b\"id\": " ++ toString id ++ "\x7d"

/-- `json` on these payloads. -/
def idCodec : JsonCodec ℕ where
  dumps id := .ok (idText id)
  loads line :=
    let id := Nat.ofDigitChars 10 ((line.toList.drop 7).dropLast) 0
    if line = idText id then .ok (some id)
    else if line ≠ "" ∧ line.toList.all Char.isDigit then
      if maxStrDigits < line.length then .error .valueError else .ok none
    else .error .jsonDecodeError

theorem toList_idText (id : ℕ) :
    (idText id).toList = '\x7b' :: ("\"id\": ".toList ++ (Nat.toDigits 10 id ++ ['\x7d'])) := by
  have hdigits : (toString id).toList = Nat.toDigits 10 id := Nat.toList_repr
  unfold idText
  rw [String.toList_append, String.toList_append, hdigits, List.append_assoc]
  rfl

/-- Nothing is stripped off a text between two characters that are not blank. -/
theorem stripList_of_ends {q : Char → Bool} {a b : Char} (ha : q a = false) (hb : q b = false)
    (middle : List Char) : stripList q (a :: (middle ++ [b])) = a :: (middle ++ [b]) := by
  unfold stripList
  rw [List.dropWhile_cons_of_neg (by simp [ha]), List.reverse_cons, List.reverse_append,
    List.reverse_singleton, List.singleton_append, List.cons_append,
    List.dropWhile_cons_of_neg (by simp [hb])]
  simp

theorem strip_idText (id : ℕ) : strip (idText id) = idText id := by
  have hstrip : stripList isSpace (idText id).toList = (idText id).toList := by
    rw [toList_idText, ← List.append_assoc]
    exact stripList_of_ends (by decide) (by decide) _
  unfold strip
  rw [hstrip, String.ofList_toList]

theorem lacks_idText {c : Char} (hc : c.isDigit = false) (hname : c ∉ "\x7b\"id\": \x7d".toList)
    (id : ℕ) : Separated.Lacks c (idText id) := by
  refine .append (.append ?_ (Separated.lacks_toString hc id)) ?_
  · exact fun hmem => hname (by simp_all)
  · exact fun hmem => hname (by simp_all)

theorem loads_idText (id : ℕ) : idCodec.loads (idText id) = .ok (some id) := by
  have hbody : ((idText id).toList.drop 7).dropLast = Nat.toDigits 10 id := by
    rw [toList_idText]
    exact List.dropLast_concat
  simp only [idCodec, hbody, Nat.ofDigitChars_ten_toDigits, if_true]

theorem idCodec_lawful : idCodec.Lawful := by
  intro id
  refine ⟨idText id, rfl, ⟨⟨?_, ?_⟩, ?_⟩, strip_idText id, loads_idText id⟩
  · exact lacks_idText (by decide) (by decide) id
  · exact lacks_idText (by decide) (by decide) id
  · rw [strip_idText]
    intro hempty
    have hlist := congrArg String.toList hempty
    rw [toList_idText] at hlist
    exact absurd hlist (by simp)

/-- Behind something that is not blank, nothing is stripped off a text that ends
with a character that is not blank. -/
theorem stripList_append_of_end {q : Char → Bool} {b : Char} (hb : q b = false)
    {front : List Char} (hfront : front.dropWhile q ≠ []) (middle : List Char) :
    stripList q (front ++ (middle ++ [b])) = front.dropWhile q ++ (middle ++ [b]) := by
  unfold stripList
  rw [List.dropWhile_append, if_neg (by simpa using hfront), ← List.append_assoc,
    List.reverse_append, List.reverse_singleton, List.singleton_append,
    List.dropWhile_cons_of_neg (by simp [hb])]
  simp

/-- The opening brace of an object stands at its front and nowhere else. -/
theorem idCodec_selfDelimiting : DiskSpillStore.SelfDelimiting idCodec := by
  intro id line hline front hfront
  obtain rfl : idText id = line := Except.ok.inj hline.dumps
  have hdrop : front.toList.dropWhile isSpace ≠ [] := by
    intro hnil
    have hspace := List.dropWhile_eq_nil_iff.mp hnil
    refine hfront ?_
    unfold strip
    rw [(stripList_eq_nil_iff _).mpr hspace]
  have hstrip : (strip (front ++ idText id)).toList =
      front.toList.dropWhile isSpace ++ (idText id).toList := by
    unfold strip
    rw [String.toList_ofList, String.toList_append, toList_idText, ← List.append_assoc _ _ ['\x7d'],
      ← List.cons_append]
    exact stripList_append_of_end (by decide) hdrop _
  have hne : ∀ id', strip (front ++ idText id) ≠ idText id' := by
    intro id' heq
    have hlist := hstrip.symm.trans (congrArg String.toList heq)
    obtain ⟨c, rest, hcons⟩ := List.exists_cons_of_ne_nil hdrop
    rw [hcons, toList_idText, toList_idText, List.cons_append] at hlist
    have htail := (List.cons.inj hlist).2
    have hmem : '\x7b' ∈ "\"id\": ".toList ++ (Nat.toDigits 10 id' ++ ['\x7d']) :=
      htail ▸ List.mem_append_right rest List.mem_cons_self
    rcases List.mem_append.mp hmem with h | h
    · exact absurd h (by decide)
    · rcases List.mem_append.mp h with h | h
      · exact absurd (Nat.isDigit_of_mem_toDigits (by omega) (by omega) h) (by decide)
      · exact absurd (List.mem_singleton.mp h) (by decide)
  unfold DiskSpillStore.entry
  cases hloads : idCodec.loads (strip (front ++ idText id)) with
  | error e => rfl
  | ok payload =>
    simp only [idCodec] at hloads
    rw [if_neg (hne _)] at hloads
    split at hloads
    · split at hloads
      · exact absurd hloads (by simp)
      · exact (Except.ok.inj hloads).symm
    · exact absurd hloads (by simp)

/-! ## Lines `json.loads` refuses -/

/-- The integer of `n + 2` ones. -/
def ones (n : ℕ) : String := String.ofList ('1' :: (List.replicate n '1' ++ ['1']))

theorem toList_ones (n : ℕ) : (ones n).toList = '1' :: (List.replicate n '1' ++ ['1']) :=
  String.toList_ofList

theorem strip_ones (n : ℕ) : strip (ones n) = ones n := by
  unfold strip
  rw [toList_ones, stripList_of_ends (by decide) (by decide)]
  rfl

theorem eq_of_mem_ones {n : ℕ} {c : Char} (h : c ∈ (ones n).toList) : c = '1' := by
  rw [toList_ones] at h
  rcases List.mem_cons.mp h with rfl | h
  · rfl
  · rcases List.mem_append.mp h with h | h
    · exact List.eq_of_mem_replicate h
    · exact List.mem_singleton.mp h

theorem ones_ne_empty (n : ℕ) : ones n ≠ "" := by
  intro hempty
  have hlist := congrArg String.toList hempty
  rw [toList_ones] at hlist
  exact absurd hlist (by simp)

theorem isLine_ones (n : ℕ) : IsLine (ones n) where
  unbroken := ⟨fun h => absurd (eq_of_mem_ones h) (by decide),
    fun h => absurd (eq_of_mem_ones h) (by decide)⟩
  nonblank := by
    rw [strip_ones]
    exact ones_ne_empty n

/-- An integer of more than 4300 digits. -/
theorem loads_ones {n : ℕ} (hn : maxStrDigits < n + 2) :
    idCodec.loads (ones n) = .error .valueError := by
  have hne : ∀ id, ones n ≠ idText id := by
    intro id heq
    have htexts := congrArg String.toList heq
    rw [toList_ones, toList_idText] at htexts
    exact absurd (List.cons.inj htexts).1 (by decide)
  have hdigits : (ones n).toList.all Char.isDigit :=
    List.all_eq_true.mpr fun c hc => by rw [eq_of_mem_ones hc]; decide
  have hlong : maxStrDigits < (ones n).length := by
    rw [← String.length_toList, toList_ones, List.length_cons, List.length_append,
      List.length_replicate]
    exact hn
  simp only [idCodec]
  rw [if_neg (hne _), if_pos ⟨ones_ne_empty n, hdigits⟩, if_pos hlong]

/-- The file of one such line. -/
def onesFile (n : ℕ) : File := some (ones n ++ "\n").toUTF8

theorem onesFile_spec (n : ℕ) : TerminatedFile (onesFile n) ∧ linesOf (onesFile n) = [ones n] := by
  have hmissing : TerminatedFile none := trivial
  have h := hmissing.extend (isLine_ones n)
  have hfile : File.extend none (ones n ++ "\n").toUTF8 = onesFile n :=
    congrArg some ByteArray.empty_append
  rw [hfile] at h
  exact h

theorem raises_ones {n : ℕ} (hn : maxStrDigits < n + 2) :
    DiskSpillStore.Raises idCodec (ones n) :=
  ⟨.valueError, by rw [strip_ones, loads_ones hn], by decide⟩

end SmartIDS.Forwarding
