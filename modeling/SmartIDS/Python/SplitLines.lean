import SmartIDS.Python.JsonText
import SmartIDS.Python.TextFile
set_option autoImplicit false

/-!
# Python: `str.splitlines`

A text is cut at more characters than the line ends of a file.  Behind a text that
ends with a line end the lines of what follows are the lines that follow
(`splitlines_append`), and a file written from lines is read back as these lines.
-/

namespace SmartIDS.Python

open SmartIDS.Foundation

/-- Where `str.splitlines` cuts. -/
def isLineBoundary (c : Char) : Bool :=
  let n := c.toNat
  (0xa ≤ n && n ≤ 0xd) || (0x1c ≤ n && n ≤ 0x1e) || n == 0x85 || n == 0x2028 || n == 0x2029

/-- `str.splitlines()`. -/
def splitlines : List Char → List (List Char)
  | [] => []
  | '\r' :: '\n' :: rest => [] :: splitlines rest
  | c :: rest =>
    if isLineBoundary c then [] :: splitlines rest
    else
      match splitlines rest with
      | [] => [[c]]
      | line :: lines => (c :: line) :: lines

/-- Empty, or with a line end at the end. -/
def Closed (text : List Char) : Prop := text = [] ∨ ∃ front, text = front ++ ['\n']

theorem Closed.tail {c : Char} {rest : List Char} (h : Closed (c :: rest)) :
    (rest = [] ∧ c = '\n') ∨ (rest ≠ [] ∧ Closed rest) := by
  rcases h with hnil | ⟨front, hfront⟩
  · exact absurd hnil (by simp)
  · cases front with
    | nil =>
      obtain ⟨rfl, rfl⟩ := List.cons.inj hfront
      exact Or.inl ⟨rfl, rfl⟩
    | cons d front =>
      obtain ⟨-, rfl⟩ := List.cons.inj hfront
      exact Or.inr ⟨by simp, Or.inr ⟨front, rfl⟩⟩

theorem splitlines_ne_nil {text : List Char} (h : text ≠ []) : splitlines text ≠ [] := by
  fun_cases splitlines text with
  | case1 => exact absurd rfl h
  | case2 rest => simp
  | case3 c rest _ hc => simp
  | case4 c rest _ hc hnil => simp
  | case5 c rest _ hc line lines hlines => simp

/-- In front of a closed text that is not empty, a pair `\r\n` stays a pair. -/
theorem pair_of_append {c : Char} {rest back : List Char} (h : Closed (c :: rest))
    (hpair : ∀ tail, c = '\r' → rest = '\n' :: tail → False) :
    ∀ tail, c = '\r' → rest ++ back = '\n' :: tail → False := by
  rintro tail rfl heq
  rcases h.tail with ⟨-, hc⟩ | ⟨hne, -⟩
  · exact absurd hc (by decide)
  · obtain ⟨d, rest, rfl⟩ := List.exists_cons_of_ne_nil hne
    obtain ⟨rfl, -⟩ := List.cons.inj heq
    exact hpair rest rfl rfl

/-- Behind a line end the lines begin anew. -/
theorem splitlines_append {text : List Char} (h : Closed text) (back : List Char) :
    splitlines (text ++ back) = splitlines text ++ splitlines back := by
  fun_induction splitlines text with
  | case1 => rfl
  | case2 rest ih =>
    have hrest : Closed rest := by
      rcases h.tail with ⟨hnil, -⟩ | ⟨-, htail⟩
      · exact absurd hnil (by simp)
      · rcases htail.tail with ⟨rfl, -⟩ | ⟨-, hrest⟩
        · exact Or.inl rfl
        · exact hrest
    simp only [List.cons_append, splitlines, ih hrest]
  | case3 c rest hpair hc ih =>
    have hrest : Closed rest := h.tail.elim (fun hnil => Or.inl hnil.1) And.right
    rw [List.cons_append, splitlines.eq_3 _ _ (pair_of_append h hpair), if_pos hc, ih hrest,
      List.cons_append]
  | case4 c rest hpair hc hnil ih =>
    rcases h.tail with ⟨-, rfl⟩ | ⟨hne, -⟩
    · exact absurd (by decide) hc
    · exact absurd hnil (splitlines_ne_nil hne)
  | case5 c rest hpair hc line lines hlines ih =>
    rcases h.tail with ⟨-, rfl⟩ | ⟨-, hrest⟩
    · exact absurd (by decide) hc
    · rw [List.cons_append, splitlines.eq_3 _ _ (pair_of_append h hpair), if_neg hc, ih hrest,
        hlines, List.cons_append, List.cons_append]

/-- A line without a boundary in it. -/
def IsWhole (line : List Char) : Prop := ∀ c ∈ line, isLineBoundary c = false

theorem splitlines_line {line : List Char} (h : IsWhole line) :
    splitlines (line ++ ['\n']) = [line] := by
  induction line with
  | nil => decide
  | cons c line ih =>
    obtain ⟨hc, hline⟩ := List.forall_mem_cons.mp h
    have hpair : ∀ tail, c = '\r' → line ++ ['\n'] = '\n' :: tail → False := by
      rintro tail rfl
      exact absurd hc (by decide)
    rw [List.cons_append, splitlines.eq_3 _ _ hpair, if_neg (by simp [hc]), ih hline]

/-- The pieces of a text have no boundary in them. -/
theorem isWhole_of_mem_splitlines (text : List Char) :
    ∀ line ∈ splitlines text, IsWhole line := by
  have hnil : IsWhole [] := fun c hc => absurd hc List.not_mem_nil
  fun_induction splitlines text with
  | case1 => exact List.forall_mem_nil _
  | case2 rest ih => exact List.forall_mem_cons.mpr ⟨hnil, ih⟩
  | case3 c rest _ hc ih => exact List.forall_mem_cons.mpr ⟨hnil, ih⟩
  | case4 c rest _ hc _ ih =>
    refine List.forall_mem_singleton.mpr fun d hd => ?_
    rw [List.mem_singleton.mp hd]
    exact Bool.eq_false_of_not_eq_true hc
  | case5 c rest _ hc line lines hlines ih =>
    rw [hlines] at ih
    obtain ⟨hline, hrest⟩ := List.forall_mem_cons.mp ih
    refine List.forall_mem_cons.mpr ⟨List.forall_mem_cons.mpr ⟨?_, hline⟩, hrest⟩
    exact Bool.eq_false_of_not_eq_true hc

/-- Lines that are written are cut into these lines. -/
theorem splitlines_written {lines : List (List Char)} (h : ∀ line ∈ lines, IsWhole line) :
    splitlines (TextLines.written lines) = lines := by
  induction lines with
  | nil => rfl
  | cons line lines ih =>
    obtain ⟨hline, hlines⟩ := List.forall_mem_cons.mp h
    have hclosed : Closed (line ++ ['\n']) := Or.inr ⟨line, rfl⟩
    rw [TextLines.written, List.flatMap_cons, splitlines_append hclosed, splitlines_line hline]
    exact congrArg (line :: ·) (ih hlines)

/-! ## The lines of a file -/

/-- `read_text(encoding="utf-8").splitlines()`; a missing file has no lines. -/
def splitlinesOf (file : File) : List String :=
  (splitlines (TextLines.universal (textOf file).toList)).map String.ofList

theorem splitlinesOf_toUTF8 (text : String) :
    splitlinesOf (some text.toUTF8) =
      (splitlines (TextLines.universal text.toList)).map String.ofList := by
  simp only [splitlinesOf, textOf, Option.bind_some, fromUTF8?_toUTF8, Option.getD_some]

theorem isWhole_of_mem_splitlinesOf {file : File} {line : String} (h : line ∈ splitlinesOf file) :
    IsWhole line.toList := by
  obtain ⟨chars, hmem, rfl⟩ := List.mem_map.mp h
  rw [String.toList_ofList]
  exact isWhole_of_mem_splitlines _ chars hmem

theorem TerminatedFile.terminated {file : File} (h : TerminatedFile file) :
    TextLines.Terminated (textOf file).toList := by
  cases file with
  | none => exact Or.inl rfl
  | some bytes =>
    obtain ⟨text, rfl, hterm⟩ := h
    simpa only [textOf, Option.bind_some, fromUTF8?_toUTF8, Option.getD_some] using hterm

theorem Printable.unbroken {line : String} (h : Printable line) :
    TextLines.Unbroken line.toList :=
  ⟨fun hmem => absurd (h _ hmem).1 (by decide), fun hmem => absurd (h _ hmem).1 (by decide)⟩

theorem Printable.isWhole {line : String} (h : Printable line) : IsWhole line.toList := by
  intro c hc
  obtain ⟨hlow, hhigh⟩ := h c hc
  have hlow' : 32 ≤ c.toNat := hlow
  have hhigh' : c.toNat ≤ 126 := hhigh
  simp only [isLineBoundary, Bool.or_eq_false_iff, Bool.and_eq_false_iff, decide_eq_false_iff_not,
    beq_eq_false_iff_ne]
  omega

/-- A printable line appended to a terminated file is its last line. -/
theorem TerminatedFile.extend_splitlines {file : File} (h : TerminatedFile file) {line : String}
    (hline : Printable line) (hne : line ≠ "") :
    TerminatedFile (file.extend (line ++ "\n").toUTF8) ∧
      splitlinesOf (file.extend (line ++ "\n").toUTF8) = splitlinesOf file ++ [line] := by
  have hlist := toList_append_line file line
  have hcons : line.toList ≠ [] := fun hnil => hne (String.toList_inj.mp hnil)
  rw [h.isText.extend_eq, splitlinesOf_toUTF8, hlist, TextLines.universal_append_line hline.unbroken hcons,
    splitlines_append h.terminated, splitlines_line hline.isWhole, List.map_append]
  refine ⟨⟨_, rfl, ?_⟩, by simp [splitlinesOf]⟩
  rw [hlist]
  exact .append hline.unbroken hcons

/-- `"\n".join(lines) + "\n"`. -/
def joinedLines (lines : List String) : String := "\n".intercalate lines ++ "\n"

theorem toList_joinedLines {lines : List String} (h : lines ≠ []) :
    (joinedLines lines).toList = TextLines.written (lines.map String.toList) := by
  unfold joinedLines
  induction lines with
  | nil => exact absurd rfl h
  | cons line rest ih =>
    cases rest with
    | nil => simp [TextLines.written]
    | cons next rest =>
      have hrest := ih (by simp)
      rw [String.toList_append] at hrest
      rw [String.intercalate_cons_cons, String.toList_append, String.toList_append,
        String.toList_append, List.append_assoc, hrest]
      simp [TextLines.written]

/-- Lines of a file that are written are the lines of the file. -/
theorem splitlinesOf_joinedLines {lines : List String} (h : ∀ line ∈ lines, IsWhole line.toList)
    (hne : lines ≠ []) :
    TerminatedFile (some (joinedLines lines).toUTF8) ∧
      splitlinesOf (some (joinedLines lines).toUTF8) = lines := by
  have hwhole : ∀ line ∈ lines.map String.toList, IsWhole line := by
    intro line hmem
    obtain ⟨l, hl, rfl⟩ := List.mem_map.mp hmem
    exact h l hl
  have hclean : '\r' ∉ TextLines.written (lines.map String.toList) := by
    intro hmem
    obtain ⟨line, hline, hr⟩ := List.mem_flatMap.mp hmem
    rcases List.mem_append.mp hr with hr | hr
    · exact absurd (hwhole line hline _ hr) (by decide)
    · exact absurd (List.mem_singleton.mp hr) (by decide)
  obtain ⟨front, last, rfl⟩ := List.eq_nil_or_concat' lines |>.resolve_left hne
  refine ⟨⟨_, rfl, Or.inr ?_⟩, ?_⟩
  · rw [toList_joinedLines hne, TextLines.universal_of_notMem hclean, List.map_append,
      List.map_singleton, TextLines.written_concat]
    exact ⟨_, rfl⟩
  · rw [splitlinesOf_toUTF8, toList_joinedLines hne, TextLines.universal_of_notMem hclean,
      splitlines_written hwhole, List.map_map]
    exact (List.map_congr_left fun l _ => String.ofList_toList).trans (List.map_id _)

end SmartIDS.Python
