import Mathlib.Data.String.Basic
import Mathlib.Data.Nat.Digits.Defs
set_option autoImplicit false

/-!
# Python: what `json.dumps` writes

`json.dumps(·, ensure_ascii=True)` for the texts, arrays and objects the engine
logs, with the default separators.  Whatever a text holds, what is written has
printable ASCII characters only (`Printable`), and therefore stands on one line.
-/

namespace SmartIDS.Python

/-- Only the characters from the blank to the tilde. -/
def Printable (text : String) : Prop := ∀ c ∈ text.toList, ' ' ≤ c ∧ c ≤ '~'

instance : DecidablePred Printable := fun text =>
  List.decidableBAll (fun c => ' ' ≤ c ∧ c ≤ '~') text.toList

/-- `'\\u{0:04x}'.format(n)`. -/
def unicodeEscape (n : ℕ) : List Char :=
  ['\\', 'u', Nat.digitChar (n / 4096 % 16), Nat.digitChar (n / 256 % 16),
    Nat.digitChar (n / 16 % 16), Nat.digitChar (n % 16)]

/-- A character in a JSON text; beyond the basic plane it is a surrogate pair. -/
def escapeChar (c : Char) : List Char :=
  if c = '"' then ['\\', '"']
  else if c = '\\' then ['\\', '\\']
  else if c = '\n' then ['\\', 'n']
  else if c = '\r' then ['\\', 'r']
  else if c = '\t' then ['\\', 't']
  else if c = '\x0c' then ['\\', 'f']
  else if c = '\x08' then ['\\', 'b']
  else if ' ' ≤ c ∧ c ≤ '~' then [c]
  else if c.toNat < 0x10000 then unicodeEscape c.toNat
  else
    let n := c.toNat - 0x10000
    unicodeEscape (0xd800 + n / 0x400) ++ unicodeEscape (0xdc00 + n % 0x400)

/-- A text. -/
def jsonString (text : String) : String :=
  "\"" ++ String.ofList (text.toList.flatMap escapeChar) ++ "\""

/-- An array of values that are written already. -/
def jsonArray (values : List String) : String := "[" ++ ", ".intercalate values ++ "]"

/-- An object of values that are written already, in the order of its entries. -/
def jsonObject (entries : List (String × String)) : String :=
  "\x7b" ++ ", ".intercalate (entries.map fun entry => jsonString entry.1 ++ ": " ++ entry.2) ++
    "\x7d"

/-! ## Printable texts -/

theorem Printable.append {s t : String} (hs : Printable s) (ht : Printable t) :
    Printable (s ++ t) := by
  intro c hc
  rw [String.toList_append] at hc
  exact (List.mem_append.mp hc).elim (hs c) (ht c)

theorem Printable.intercalate {separator : String} (hseparator : Printable separator)
    {values : List String} (hvalues : ∀ value ∈ values, Printable value) :
    Printable (separator.intercalate values) := by
  induction values with
  | nil => exact fun c hc => absurd hc (by simp)
  | cons value rest ih =>
    obtain ⟨hvalue, hrest⟩ := List.forall_mem_cons.mp hvalues
    cases rest with
    | nil => simpa using hvalue
    | cons next rest =>
      rw [String.intercalate_cons_cons]
      exact (hvalue.append hseparator).append (ih hrest)

theorem digitChar_printable (n : ℕ) : ' ' ≤ Nat.digitChar (n % 16) ∧ Nat.digitChar (n % 16) ≤ '~' := by
  have hall : ∀ i < 16, ' ' ≤ Nat.digitChar i ∧ Nat.digitChar i ≤ '~' := by decide
  exact hall _ (Nat.mod_lt n (by omega))

theorem unicodeEscape_printable (n : ℕ) : ∀ c ∈ unicodeEscape n, ' ' ≤ c ∧ c ≤ '~' := by
  intro c hc
  simp only [unicodeEscape, List.mem_cons, List.not_mem_nil, or_false] at hc
  rcases hc with rfl | rfl | rfl | rfl | rfl | rfl
  · decide
  · decide
  all_goals exact digitChar_printable _

theorem ite_printable {p : Prop} [Decidable p] {s t : List Char}
    (hs : p → ∀ d ∈ s, ' ' ≤ d ∧ d ≤ '~') (ht : ¬ p → ∀ d ∈ t, ' ' ≤ d ∧ d ≤ '~') :
    ∀ d ∈ (if p then s else t), ' ' ≤ d ∧ d ≤ '~' := by
  split
  · exact hs ‹_›
  · exact ht ‹_›

theorem escapeChar_printable (c : Char) : ∀ d ∈ escapeChar c, ' ' ≤ d ∧ d ≤ '~' := by
  have hpair : ∀ a : Char, ' ' ≤ a ∧ a ≤ '~' → ∀ d ∈ ['\\', a], ' ' ≤ d ∧ d ≤ '~' := by
    intro a ha d hd
    rcases List.mem_pair.mp hd with rfl | rfl
    · decide
    · exact ha
  unfold escapeChar
  -- the two characters of an escape, seven times
  refine ite_printable (fun _ => hpair _ (by decide)) fun _ => ?_
  refine ite_printable (fun _ => hpair _ (by decide)) fun _ => ?_
  refine ite_printable (fun _ => hpair _ (by decide)) fun _ => ?_
  refine ite_printable (fun _ => hpair _ (by decide)) fun _ => ?_
  refine ite_printable (fun _ => hpair _ (by decide)) fun _ => ?_
  refine ite_printable (fun _ => hpair _ (by decide)) fun _ => ?_
  refine ite_printable (fun _ => hpair _ (by decide)) fun _ => ?_
  refine ite_printable (fun hplain => ?_) fun _ => ite_printable (fun _ => ?_) fun _ => ?_
  · intro d hd
    rw [List.mem_singleton.mp hd]
    exact hplain
  · exact unicodeEscape_printable _
  · intro d hd
    exact (List.mem_append.mp hd).elim (unicodeEscape_printable _ d) (unicodeEscape_printable _ d)

theorem printable_jsonString (text : String) : Printable (jsonString text) := by
  have hbody : Printable (String.ofList (text.toList.flatMap escapeChar)) := by
    intro d hd
    rw [String.toList_ofList] at hd
    obtain ⟨c, -, hmem⟩ := List.mem_flatMap.mp hd
    exact escapeChar_printable c d hmem
  have hquote : Printable "\"" := by decide
  exact (hquote.append hbody).append hquote

theorem printable_jsonArray {values : List String} (h : ∀ value ∈ values, Printable value) :
    Printable (jsonArray values) := by
  have hopen : Printable "[" := by decide
  have hclose : Printable "]" := by decide
  have hseparator : Printable ", " := by decide
  exact (hopen.append (.intercalate hseparator h)).append hclose

theorem printable_jsonObject {entries : List (String × String)}
    (h : ∀ entry ∈ entries, Printable entry.2) : Printable (jsonObject entries) := by
  have hopen : Printable "\x7b" := by decide
  have hclose : Printable "\x7d" := by decide
  have hseparator : Printable ", " := by decide
  have hcolon : Printable ": " := by decide
  refine (hopen.append (.intercalate hseparator ?_)).append hclose
  intro value hvalue
  obtain ⟨entry, hentry, rfl⟩ := List.mem_map.mp hvalue
  exact ((printable_jsonString entry.1).append hcolon).append (h entry hentry)

theorem printable_toString (n : ℕ) : Printable (toString n) := by
  intro c hc
  have hdigits : (toString n).toList = Nat.toDigits 10 n := Nat.toList_repr
  rw [hdigits] at hc
  have hdigit := Nat.isDigit_of_mem_toDigits (by omega) (by omega) hc
  simp only [Char.isDigit, Bool.and_eq_true, decide_eq_true_eq] at hdigit
  exact ⟨le_trans (by decide) hdigit.1, le_trans hdigit.2 (by decide)⟩

theorem jsonObject_ne_empty (entries : List (String × String)) : jsonObject entries ≠ "" := by
  intro h
  have hlist := congrArg String.toList h
  rw [jsonObject, String.toList_append, String.toList_append] at hlist
  simp at hlist

example : jsonObject [("ip", jsonString "é\n"), ("attack_types_used", jsonArray ["1", "2"])] =
    "\x7b\"ip\": \"\\u00e9\\n\", \"attack_types_used\": [1, 2]\x7d" := by decide

end SmartIDS.Python
