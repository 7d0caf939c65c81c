import Mathlib.Data.List.Nodup
set_option autoImplicit false

/-!
# Foundation: columns under names that may repeat

A table as the list of its columns with their names.  Columns are renamed, changed in
place and selected by name; a selection takes all columns of a name, so it may have more
columns than names.  Selecting once more changes nothing.
-/

namespace SmartIDS.Foundation.NamedColumns

variable {κ β γ : Type}

/-- The names, in order. -/
def names (columns : List (κ × β)) : List κ := columns.map Prod.fst

/-- The columns under other names. -/
def rename (f : κ → κ) (columns : List (κ × β)) : List (κ × β) :=
  columns.map fun column => (f column.1, column.2)

/-- Other columns under the names. -/
def mapColumns (f : β → γ) (columns : List (κ × β)) : List (κ × γ) :=
  columns.map fun column => (column.1, f column.2)

theorem names_append (columns others : List (κ × β)) :
    names (columns ++ others) = names columns ++ names others :=
  List.map_append

@[simp] theorem names_mapColumns (f : β → γ) (columns : List (κ × β)) :
    names (mapColumns f columns) = names columns := by
  unfold names mapColumns
  rw [List.map_map]
  rfl

theorem rename_of_fixed {f : κ → κ} {columns : List (κ × β)}
    (h : ∀ name ∈ names columns, f name = name) : rename f columns = columns := by
  unfold rename
  conv_rhs => rw [← List.map_id columns]
  apply List.map_congr_left
  intro column hcolumn
  rw [h column.1 (List.mem_map_of_mem hcolumn)]
  rfl

theorem mapColumns_of_fixed {f : β → β} {columns : List (κ × β)}
    (h : ∀ column ∈ columns, f column.2 = column.2) : mapColumns f columns = columns := by
  unfold mapColumns
  conv_rhs => rw [← List.map_id columns]
  apply List.map_congr_left
  intro column hcolumn
  rw [h column hcolumn]
  rfl

section

variable [DecidableEq κ]

/-- The columns of one name. -/
def under (name : κ) (columns : List (κ × β)) : List (κ × β) :=
  columns.filter fun column => column.1 = name

/-- Change the columns of one name. -/
def modify (name : κ) (f : β → β) (columns : List (κ × β)) : List (κ × β) :=
  columns.map fun column => if column.1 = name then (column.1, f column.2) else column

/-- The columns of the wanted names, name by name. -/
def select (wanted : List κ) (columns : List (κ × β)) : List (κ × β) :=
  wanted.flatMap fun name => under name columns

theorem under_append (name : κ) (columns others : List (κ × β)) :
    under name (columns ++ others) = under name columns ++ under name others :=
  List.filter_append ..

theorem under_eq_nil {name : κ} {columns : List (κ × β)} (h : name ∉ names columns) :
    under name columns = [] := by
  rw [under, List.filter_eq_nil_iff]
  intro column hcolumn heq
  exact h (of_decide_eq_true heq ▸ List.mem_map_of_mem hcolumn)

theorem under_under (name other : κ) (columns : List (κ × β)) :
    under name (under other columns) = if name = other then under name columns else [] := by
  unfold under
  rw [List.filter_filter]
  split
  · next h => simp [h]
  · next h =>
    rw [List.filter_eq_nil_iff]
    intro column _ hboth
    rw [Bool.and_eq_true, decide_eq_true_iff, decide_eq_true_iff] at hboth
    exact h (hboth.1.symm.trans hboth.2)

theorem under_mapColumns (name : κ) (f : β → γ) (columns : List (κ × β)) :
    under name (mapColumns f columns) = mapColumns f (under name columns) := by
  unfold under mapColumns
  rw [List.filter_map]
  rfl

theorem mem_names_select {wanted : List κ} {columns : List (κ × β)} {name : κ} :
    name ∈ names (select wanted columns) ↔ name ∈ wanted ∧ name ∈ names columns := by
  unfold names select under
  simp only [List.mem_map, List.mem_flatMap, List.mem_filter, decide_eq_true_iff]
  constructor
  · rintro ⟨column, ⟨other, hother, hcolumn, rfl⟩, rfl⟩
    exact ⟨hother, column, hcolumn, rfl⟩
  · rintro ⟨hname, column, hcolumn, rfl⟩
    exact ⟨column, ⟨column.1, hname, hcolumn, rfl⟩, rfl⟩

/-- A selection has all columns of a wanted name. -/
theorem under_select {wanted : List κ} (hnodup : wanted.Nodup) {name : κ} (h : name ∈ wanted)
    (columns : List (κ × β)) : under name (select wanted columns) = under name columns := by
  induction wanted with
  | nil => exact absurd h List.not_mem_nil
  | cons first wanted ih =>
    obtain ⟨hfirst, hrest⟩ := List.nodup_cons.mp hnodup
    unfold select at ih ⊢
    rw [List.flatMap_cons, under_append, under_under]
    rcases List.mem_cons.mp h with rfl | hmem
    · have hnone : under name (select wanted columns) = [] :=
        under_eq_nil fun hname => hfirst (mem_names_select.mp hname).1
      unfold select at hnone
      rw [if_pos rfl, hnone, List.append_nil]
    · rw [if_neg fun heq : name = first => hfirst (heq ▸ hmem), List.nil_append, ih hrest hmem]

theorem select_select {wanted : List κ} (hnodup : wanted.Nodup) (columns : List (κ × β)) :
    select wanted (select wanted columns) = select wanted columns :=
  List.flatMap_congr fun _ hname => under_select hnodup hname columns

/-- Columns under no wanted name are not selected. -/
theorem select_append {wanted : List κ} (columns : List (κ × β)) {others : List (κ × β)}
    (h : ∀ name ∈ wanted, name ∉ names others) :
    select wanted (columns ++ others) = select wanted columns := by
  apply List.flatMap_congr
  intro name hname
  rw [under_append, under_eq_nil (h name hname), List.append_nil]

theorem select_mapColumns (wanted : List κ) (f : β → γ) (columns : List (κ × β)) :
    select wanted (mapColumns f columns) = mapColumns f (select wanted columns) := by
  unfold select
  simp only [under_mapColumns]
  unfold mapColumns
  rw [List.map_flatMap]

end

end SmartIDS.Foundation.NamedColumns
