import Mathlib.Data.List.Basic
import Mathlib.Data.List.DropRight
import Mathlib.Data.List.Induction
set_option autoImplicit false

/-!
# Foundation: text files of lines

A text file is a list of characters in which a line ends at `\n`, at `\r` or at
`\r\n`.  Reading translates the three to `\n`, splits there and leaves out the
lines that count as blank.

Two laws are what a log of lines rests on: a line appended to a terminated text
is read back behind the lines that were there (`readLines_append`), and a text
written from lines is read back as these lines (`readLines_written`).  Where the
text is not terminated, the line is appended to the fragment behind the last line
end (`readLines_append_fragment`).
-/

namespace SmartIDS.Foundation.TextLines

/-- The translation of line ends on reading. -/
def universal : List Char → List Char
  | [] => []
  | '\r' :: '\n' :: rest => '\n' :: universal rest
  | '\r' :: rest => '\n' :: universal rest
  | c :: rest => c :: universal rest

theorem notMem_universal (l : List Char) : '\r' ∉ universal l := by
  fun_induction universal l with
  | case1 => exact List.not_mem_nil
  | case2 rest ih => exact List.not_mem_cons_of_ne_of_not_mem (by decide) ih
  | case3 rest _ ih => exact List.not_mem_cons_of_ne_of_not_mem (by decide) ih
  | case4 c rest _ hc ih => exact List.not_mem_cons_of_ne_of_not_mem (fun h => hc h.symm) ih

theorem universal_of_notMem {l : List Char} (h : '\r' ∉ l) : universal l = l := by
  fun_induction universal l with
  | case1 => rfl
  | case2 rest ih => exact absurd List.mem_cons_self h
  | case3 rest _ ih => exact absurd List.mem_cons_self h
  | case4 c rest _ _ ih => rw [ih (List.not_mem_of_not_mem_cons h)]

/-- Texts are translated one after the other, unless a `\r\n` is cut in two. -/
theorem universal_append (l : List Char) {r : List Char} (h : r.head? ≠ some '\n') :
    universal (l ++ r) = universal l ++ universal r := by
  fun_induction universal l with
  | case1 => rfl
  | case2 rest ih => simp only [List.cons_append, universal, ih]
  | case3 rest hrest ih =>
    have hhead : ∀ rest', rest ++ r = '\n' :: rest' → False := by
      intro rest' heq
      cases rest with
      | nil => exact h (by rw [show r = _ from heq]; rfl)
      | cons c rest =>
        obtain ⟨rfl, -⟩ := List.cons.inj heq
        exact hrest rest rfl
    rw [List.cons_append, universal.eq_3 _ hhead, ih, List.cons_append]
  | case4 c rest hpair hc ih =>
    have htail : ∀ rest', c = '\r' → rest ++ r = '\n' :: rest' → False :=
      fun _ heq _ => hc heq
    rw [List.cons_append, universal.eq_4 _ _ htail hc, ih, List.cons_append]

/-- The empty text, and a text that ends with a line end. -/
def Terminated (text : List Char) : Prop :=
  universal text = [] ∨ ∃ front, universal text = front ++ ['\n']

/-- Text without a line end. -/
def Unbroken (line : List Char) : Prop := '\n' ∉ line ∧ '\r' ∉ line

/-- A piece of a split list has no separator, and nothing the list does not have. -/
theorem mem_splitOn {a : Char} {l piece : List Char} (h : piece ∈ l.splitOn a) :
    a ∉ piece ∧ piece ⊆ l := by
  induction l generalizing piece with
  | nil =>
    obtain rfl : piece = [] := by simpa using h
    exact ⟨List.not_mem_nil, List.Subset.refl _⟩
  | cons c l ih =>
    obtain ⟨first, rest, hsplit⟩ := List.exists_cons_of_ne_nil (List.splitOn_ne_nil a l)
    have hold : ∀ p ∈ l.splitOn a, a ∉ p ∧ p ⊆ c :: l := fun p hp =>
      ⟨(ih hp).1, List.subset_cons_of_subset c (ih hp).2⟩
    rw [List.splitOn_cons_eq_if_modifyHead, hsplit] at h
    split at h
    · rcases List.mem_cons.mp h with rfl | hmem
      · exact ⟨List.not_mem_nil, List.nil_subset _⟩
      · exact hold piece (hsplit ▸ hmem)
    · next hne =>
      rcases List.mem_cons.mp h with rfl | hmem
      · obtain ⟨hnot, hsub⟩ := ih (hsplit ▸ List.mem_cons_self)
        refine ⟨List.not_mem_cons_of_ne_of_not_mem (fun heq => hne ?_) hnot, ?_⟩
        · exact beq_iff_eq.mpr heq.symm
        · exact List.cons_subset_cons c hsub
      · exact hold piece (hsplit ▸ List.mem_cons_of_mem first hmem)

section reading

variable (blank : List Char → Bool)

/-- The pieces between the line ends, but for the blank ones. -/
def split (text : List Char) : List (List Char) :=
  (text.splitOn '\n').filter fun line => !blank line

/-- The lines of a text that are not blank. -/
def readLines (text : List Char) : List (List Char) := split blank (universal text)

/-- The text of a list of lines. -/
def written (lines : List (List Char)) : List Char :=
  lines.flatMap fun line => line ++ ['\n']

variable {blank}

/-- What is read is not blank and has no line end in it. -/
theorem mem_readLines {text line : List Char} (h : line ∈ readLines blank text) :
    Unbroken line ∧ blank line = false := by
  obtain ⟨hmem, hblank⟩ := List.mem_filter.mp h
  obtain ⟨hnot, hsub⟩ := mem_splitOn hmem
  exact ⟨⟨hnot, fun hr => notMem_universal text (hsub hr)⟩, by simpa using hblank⟩

theorem head?_ne_of_unbroken {line rest : List Char} (h : Unbroken line) (hne : line ≠ []) :
    (line ++ rest).head? ≠ some '\n' := by
  obtain ⟨c, line, rfl⟩ := List.exists_cons_of_ne_nil hne
  rintro ⟨⟩
  exact h.1 List.mem_cons_self

/-- Translation leaves a line in front of a line end alone. -/
theorem universal_append_line {text line : List Char} (h : Unbroken line) (hne : line ≠ []) :
    universal (text ++ line ++ ['\n']) = universal text ++ (line ++ ['\n']) := by
  have hclean : '\r' ∉ line ++ ['\n'] := by simpa using h.2
  rw [List.append_assoc, universal_append text (head?_ne_of_unbroken h hne),
    universal_of_notMem hclean]

theorem Terminated.append {text line : List Char} (h : Unbroken line) (hne : line ≠ []) :
    Terminated (text ++ line ++ ['\n']) := by
  refine Or.inr ⟨universal text ++ line, ?_⟩
  rw [universal_append_line h hne, List.append_assoc]

/-- Behind a line end, or nothing, the pieces begin anew. -/
theorem split_append (hblank : blank [] = true) {text : List Char}
    (htext : text = [] ∨ ∃ front, text = front ++ ['\n']) (rest : List Char) :
    split blank (text ++ rest) = split blank text ++ split blank rest := by
  unfold split
  rcases htext with rfl | ⟨front, rfl⟩
  · simp [hblank]
  · have hold : (front ++ ['\n']).splitOn '\n' = front.splitOn '\n' ++ [[]] := by
      rw [List.splitOn_append_cons_self, List.splitOn_nil]
    rw [List.append_assoc, List.singleton_append, List.splitOn_append_cons_self, hold,
      List.filter_append, List.filter_append]
    simp [hblank]

/-- A piece without a line end in it. -/
theorem split_of_notMem {piece : List Char} (h : '\n' ∉ piece) :
    split blank piece = [piece].filter fun line => !blank line := by
  unfold split
  rw [List.splitOn_eq_singleton h]

theorem split_line (hblank : blank [] = true) {line : List Char} (h : '\n' ∉ line) :
    split blank (line ++ ['\n']) = [line].filter fun line => !blank line := by
  have hsplit : (line ++ ['\n']).splitOn '\n' = [line, []] := by
    rw [List.splitOn_append_cons_self_of_not_mem h]
    rfl
  unfold split
  rw [hsplit, ← List.singleton_append, List.filter_append]
  simp [hblank]

/-- A line appended to a terminated text is read behind the lines that were there. -/
theorem readLines_append (hblank : blank [] = true) {text line : List Char}
    (htext : Terminated text) (h : Unbroken line) (hline : blank line = false) :
    readLines blank (text ++ line ++ ['\n']) = readLines blank text ++ [line] := by
  have hne : line ≠ [] := by
    rintro rfl
    simp [hblank] at hline
  unfold readLines
  rw [universal_append_line h hne, split_append hblank htext, split_line hblank h.1]
  simp [hline]

/-- The text up to its last line end. -/
def closed (text : List Char) : List Char := (universal text).rdropWhile (· != '\n')

/-- The text behind its last line end. -/
def fragment (text : List Char) : List Char := (universal text).rtakeWhile (· != '\n')

theorem closed_append_fragment (text : List Char) : closed text ++ fragment text = universal text :=
  List.rdropWhile_append_rtakeWhile

theorem closed_cases (text : List Char) :
    closed text = [] ∨ ∃ front, closed text = front ++ ['\n'] := by
  rcases List.eq_nil_or_concat' (closed text) with hnil | ⟨front, c, hconcat⟩
  · exact Or.inl hnil
  · have hne : closed text ≠ [] := by simp [hconcat]
    have hlast : ¬ ((closed text).getLast hne != '\n') = true := List.rdropWhile_last_not _ _ hne
    have hc : (closed text).getLast hne = c := by simp [hconcat]
    rw [hc, bne_iff_ne, not_not] at hlast
    exact Or.inr ⟨front, hlast ▸ hconcat⟩

theorem notMem_fragment (text : List Char) : '\n' ∉ fragment text := by
  intro hmem
  have h := List.mem_rtakeWhile_imp hmem
  simp at h

/-- What is read of any text: its lines, and the fragment unless it is blank. -/
theorem readLines_eq (hblank : blank [] = true) (text : List Char) :
    readLines blank text =
      split blank (closed text) ++ [fragment text].filter fun line => !blank line := by
  unfold readLines
  rw [← closed_append_fragment, split_append hblank (closed_cases text),
    split_of_notMem (notMem_fragment text)]

/-- A line appended to any text is read as one with the fragment in front of it. -/
theorem readLines_append_fragment (hblank : blank [] = true) {text line : List Char}
    (h : Unbroken line) (hne : line ≠ []) :
    readLines blank (text ++ line ++ ['\n']) =
      split blank (closed text) ++ [fragment text ++ line].filter fun line => !blank line := by
  have hnot : '\n' ∉ fragment text ++ line := by
    rw [List.mem_append, not_or]
    exact ⟨notMem_fragment text, h.1⟩
  unfold readLines
  rw [universal_append_line h hne, ← closed_append_fragment, List.append_assoc,
    ← List.append_assoc (fragment text), split_append hblank (closed_cases text),
    split_line hblank hnot]

@[simp] theorem written_nil : written [] = [] := rfl

theorem written_concat (lines : List (List Char)) (line : List Char) :
    written (lines ++ [line]) = written lines ++ line ++ ['\n'] := by
  simp [written]

/-- A text written from lines is terminated and is read back as these lines. -/
theorem readLines_written (hblank : blank [] = true) {lines : List (List Char)}
    (h : ∀ line ∈ lines, Unbroken line ∧ blank line = false) :
    Terminated (written lines) ∧ readLines blank (written lines) = lines := by
  induction lines using List.reverseRecOn with
  | nil => exact ⟨Or.inl rfl, by simp [readLines, split, universal, hblank]⟩
  | append_singleton lines line ih =>
    obtain ⟨hunbroken, hline⟩ := h line (by simp)
    obtain ⟨hterm, hread⟩ := ih fun l hl => h l (List.mem_append_left _ hl)
    have hne : line ≠ [] := by
      rintro rfl
      simp [hblank] at hline
    rw [written_concat]
    refine ⟨Terminated.append hunbroken hne, ?_⟩
    rw [readLines_append hblank hterm hunbroken hline, hread]

end reading

end SmartIDS.Foundation.TextLines
