import SmartIDS.Foundation.TextLines
import SmartIDS.Python.Value
set_option autoImplicit false

/-!
# Python: text files

`Path.read_text(encoding="utf-8")` and `str.split("\n")`.  A file is its bytes;
reading it fails where it does not exist, and raises a `UnicodeDecodeError`
where its bytes are not UTF-8.
-/

namespace SmartIDS.Python

open SmartIDS.Foundation

/-- The bytes of a file; `none` where there is no file. -/
abbrev File : Type := Option ByteArray

/-- `read_text(encoding="utf-8")`. -/
def readText : File → Except PyError String
  | none => .error .osError
  | some bytes =>
    match String.fromUTF8? bytes with
    | some text => .ok (String.ofList (TextLines.universal text.toList))
    | none => .error .unicodeDecodeError

/-- Whether the bytes are those of a text. -/
def IsText : File → Prop
  | none => True
  | some bytes => bytes.IsValidUTF8

instance : DecidablePred IsText
  | none => inferInstanceAs (Decidable True)
  | some bytes => inferInstanceAs (Decidable bytes.IsValidUTF8)

/-- The blank lines are those `strip` leaves nothing of. -/
def isBlank (line : List Char) : Bool := (stripList isSpace line).isEmpty

/-- `[line for line in text.split("\n") if line.strip()]`. -/
def nonblankLines (text : String) : List String :=
  (TextLines.split isBlank text.toList).map String.ofList

/-- `"".join(f"{line}\n" for line in lines)`. -/
def joinLines (lines : List String) : String :=
  String.ofList (TextLines.written (lines.map String.toList))

/-! ## What is read -/

theorem fromUTF8?_toUTF8 (text : String) : String.fromUTF8? text.toUTF8 = some text := by
  have hvalid : text.toUTF8.IsValidUTF8 := text.isValidUTF8
  unfold String.fromUTF8?
  rw [dif_pos hvalid]
  rfl

theorem readText_toUTF8 (text : String) :
    readText (some text.toUTF8) = .ok (String.ofList (TextLines.universal text.toList)) := by
  simp only [readText, fromUTF8?_toUTF8]

/-- A file is missing, no text, or read. -/
theorem readText_cases (file : File) :
    readText file = .error .osError ∨ readText file = .error .unicodeDecodeError ∨
      ∃ text, readText file = .ok text := by
  cases file with
  | none => exact Or.inl rfl
  | some bytes =>
    cases htext : String.fromUTF8? bytes with
    | none => exact Or.inr (Or.inl (by simp only [readText, htext]))
    | some text =>
      refine Or.inr (Or.inr ⟨String.ofList (TextLines.universal text.toList), ?_⟩)
      simp only [readText, htext]

theorem readText_of_not_isText {file : File} (h : ¬ IsText file) :
    readText file = .error .unicodeDecodeError := by
  cases file with
  | none => exact absurd trivial h
  | some bytes =>
    have hnone : String.fromUTF8? bytes = none := dif_neg h
    simp only [readText, hnone]

theorem IsText.eq_toUTF8 {bytes : ByteArray} (h : IsText (some bytes)) :
    ∃ text : String, bytes = text.toUTF8 := ⟨String.fromUTF8 bytes h, rfl⟩

/-- The lines of a file, as far as it can be read. -/
def linesOf (file : File) : List String :=
  match readText file with
  | .ok text => nonblankLines text
  | .error _ => []

theorem linesOf_toUTF8 (text : String) :
    linesOf (some text.toUTF8) = (TextLines.readLines isBlank text.toList).map String.ofList := by
  simp only [linesOf, readText_toUTF8, nonblankLines, TextLines.readLines, String.toList_ofList]

theorem isBlank_eq_false_iff (line : String) : isBlank line.toList = false ↔ strip line ≠ "" := by
  have hempty : strip line = "" ↔ stripList isSpace line.toList = [] := by
    unfold strip
    rw [← String.toList_inj, String.toList_ofList]
    rfl
  rw [Ne, hempty]
  unfold isBlank
  rw [List.isEmpty_eq_false_iff]

/-- A line without a line end in it that is not blank. -/
structure IsLine (line : String) : Prop where
  unbroken : TextLines.Unbroken line.toList
  nonblank : strip line ≠ ""

theorem isLine_of_mem_linesOf {file : File} {line : String} (h : line ∈ linesOf file) :
    IsLine line := by
  cases file with
  | none => simp [linesOf, readText] at h
  | some bytes =>
    rcases em (IsText (some bytes)) with htext | htext
    · obtain ⟨text, rfl⟩ := htext.eq_toUTF8
      rw [linesOf_toUTF8] at h
      obtain ⟨chars, hmem, rfl⟩ := List.mem_map.mp h
      obtain ⟨hunbroken, hblank⟩ := TextLines.mem_readLines hmem
      have hlist : (String.ofList chars).toList = chars := String.toList_ofList
      refine ⟨by rw [hlist]; exact hunbroken, ?_⟩
      rw [← isBlank_eq_false_iff, hlist]
      exact hblank
    · simp [linesOf, readText_of_not_isText htext] at h

/-! ## What is written -/

/-- A text that is empty or ends with a line end; so is a file that is missing. -/
def TerminatedFile : File → Prop
  | none => True
  | some bytes => ∃ text : String, bytes = text.toUTF8 ∧ TextLines.Terminated text.toList

theorem TerminatedFile.isText {file : File} (h : TerminatedFile file) : IsText file := by
  cases file with
  | none => trivial
  | some bytes =>
    obtain ⟨text, rfl, -⟩ := h
    exact text.isValidUTF8

/-- The file behind the bytes appended to it. -/
def File.extend (file : File) (bytes : ByteArray) : File :=
  some (file.getD ByteArray.empty ++ bytes)

/-- A terminated file is a terminated text; a missing one is the empty text. -/
theorem TerminatedFile.exists_text {file : File} (h : TerminatedFile file) :
    ∃ text : String, file.getD ByteArray.empty = text.toUTF8 ∧
      TextLines.Terminated text.toList ∧
      linesOf file = (TextLines.readLines isBlank text.toList).map String.ofList := by
  cases file with
  | none => exact ⟨"", rfl, Or.inl rfl, rfl⟩
  | some bytes =>
    obtain ⟨text, rfl, hterm⟩ := h
    exact ⟨text, rfl, hterm, linesOf_toUTF8 text⟩

/-- A line appended to a terminated file is its last line. -/
theorem TerminatedFile.extend {file : File} (h : TerminatedFile file) {line : String}
    (hline : IsLine line) :
    TerminatedFile (file.extend (line ++ "\n").toUTF8) ∧
      linesOf (file.extend (line ++ "\n").toUTF8) = linesOf file ++ [line] := by
  obtain ⟨text, hbytes, hterm, hlines⟩ := h.exists_text
  have hfile : file.extend (line ++ "\n").toUTF8 = some (text ++ (line ++ "\n")).toUTF8 := by
    unfold File.extend
    rw [hbytes]
    rfl
  have hlist : (text ++ (line ++ "\n")).toList = text.toList ++ line.toList ++ ['\n'] := by
    rw [String.toList_append, String.toList_append, List.append_assoc]
    rfl
  have hblank := (isBlank_eq_false_iff line).mpr hline.nonblank
  have hne : line.toList ≠ [] := by
    intro hnil
    rw [hnil] at hblank
    exact absurd hblank (by decide)
  rw [hfile, linesOf_toUTF8, hlist,
    TextLines.readLines_append (by decide) hterm hline.unbroken hblank, hlines]
  refine ⟨⟨_, rfl, ?_⟩, by simp⟩
  rw [hlist]
  exact .append hline.unbroken hne

/-! ## A file cut off in its last line -/

/-- The text of a file; a missing one is the empty text. -/
def textOf (file : File) : String := (file.bind String.fromUTF8?).getD ""

theorem IsText.getD_eq {file : File} (h : IsText file) :
    file.getD ByteArray.empty = (textOf file).toUTF8 := by
  cases file with
  | none => rfl
  | some bytes =>
    obtain ⟨text, rfl⟩ := h.eq_toUTF8
    simp only [textOf, Option.bind_some, fromUTF8?_toUTF8, Option.getD_some]

theorem IsText.linesOf_eq {file : File} (h : IsText file) :
    linesOf file = (TextLines.readLines isBlank (textOf file).toList).map String.ofList := by
  cases file with
  | none => rfl
  | some bytes =>
    obtain ⟨text, rfl⟩ := h.eq_toUTF8
    simp only [textOf, Option.bind_some, fromUTF8?_toUTF8, Option.getD_some, linesOf_toUTF8]

/-- The lines of a file that have their line end. -/
def closedLinesOf (file : File) : List String :=
  (TextLines.split isBlank (TextLines.closed (textOf file).toList)).map String.ofList

/-- What stands behind the last line end of a file. -/
def fragmentOf (file : File) : String := String.ofList (TextLines.fragment (textOf file).toList)

theorem toList_fragmentOf (file : File) :
    (fragmentOf file).toList = TextLines.fragment (textOf file).toList := String.toList_ofList

/-- The lines of a file are those with a line end, and the fragment unless it is blank. -/
theorem IsText.linesOf_fragment {file : File} (h : IsText file) :
    linesOf file =
      closedLinesOf file ++ if strip (fragmentOf file) = "" then [] else [fragmentOf file] := by
  have hblank := isBlank_eq_false_iff (fragmentOf file)
  rw [toList_fragmentOf] at hblank
  rw [h.linesOf_eq, TextLines.readLines_eq (by decide), List.map_append]
  refine congrArg (closedLinesOf file ++ ·) ?_
  split
  · next hstrip =>
    have htrue : isBlank (TextLines.fragment (textOf file).toList) = true := by
      rw [← Bool.not_eq_false, hblank, not_not]
      exact hstrip
    simp only [htrue, List.filter_cons_of_neg, Bool.not_true, Bool.false_eq_true,
      not_false_eq_true, List.filter_nil, List.map_nil]
  · next hstrip =>
    simp only [hblank.mpr hstrip, Bool.not_false, List.filter_cons_of_pos, List.filter_nil,
      List.map_cons, List.map_nil, fragmentOf]

/-- The text of a file and a line behind it. -/
theorem toList_append_line (file : File) (line : String) :
    (textOf file ++ (line ++ "\n")).toList = (textOf file).toList ++ line.toList ++ ['\n'] := by
  rw [String.toList_append, String.toList_append, List.append_assoc]
  rfl

theorem IsText.extend_eq {file : File} (h : IsText file) (text : String) :
    file.extend text.toUTF8 = some (textOf file ++ text).toUTF8 := by
  unfold File.extend
  rw [h.getD_eq]
  rfl

/-- A line appended to a file is one line with the fragment in front of it. -/
theorem IsText.extend_line {file : File} (h : IsText file) {line : String} (hline : IsLine line)
    (hjoined : strip (fragmentOf file ++ line) ≠ "") :
    IsText (file.extend (line ++ "\n").toUTF8) ∧
      linesOf (file.extend (line ++ "\n").toUTF8) =
        closedLinesOf file ++ [fragmentOf file ++ line] := by
  have hne : line.toList ≠ [] := by
    intro hnil
    have hblank := (isBlank_eq_false_iff line).mpr hline.nonblank
    rw [hnil] at hblank
    exact absurd hblank (by decide)
  have hblank := (isBlank_eq_false_iff _).mpr hjoined
  rw [String.toList_append, toList_fragmentOf] at hblank
  rw [h.extend_eq]
  refine ⟨(textOf file ++ (line ++ "\n")).isValidUTF8, ?_⟩
  rw [linesOf_toUTF8, toList_append_line, TextLines.readLines_append_fragment (by decide) hline.unbroken hne,
    List.map_append]
  simp [closedLinesOf, hblank, fragmentOf, String.ofList_append]

/-- Lines that are written are the lines of the file. -/
theorem linesOf_joinLines {lines : List String} (h : ∀ line ∈ lines, IsLine line) :
    TerminatedFile (some (joinLines lines).toUTF8) ∧
      linesOf (some (joinLines lines).toUTF8) = lines := by
  have hlist : (joinLines lines).toList = TextLines.written (lines.map String.toList) :=
    String.toList_ofList
  have hlines : ∀ line ∈ lines.map String.toList,
      TextLines.Unbroken line ∧ isBlank line = false := by
    intro line hmem
    obtain ⟨l, hl, rfl⟩ := List.mem_map.mp hmem
    exact ⟨(h l hl).unbroken, (isBlank_eq_false_iff l).mpr (h l hl).nonblank⟩
  obtain ⟨hterm, hread⟩ := TextLines.readLines_written (by decide) hlines
  refine ⟨⟨_, rfl, by rw [hlist]; exact hterm⟩, ?_⟩
  rw [linesOf_toUTF8, hlist, hread, List.map_map]
  exact (List.map_congr_left fun l _ => String.ofList_toList).trans (List.map_id lines)

end SmartIDS.Python
