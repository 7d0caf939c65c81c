import Mathlib.Data.List.Basic
import Mathlib.Data.List.Forall2
import Mathlib.Data.List.Induction
import Mathlib.Data.List.Nodup
import Mathlib.Data.List.Perm.Basic
set_option autoImplicit false

/-!
# Foundation: insertion-ordered dictionaries

A dictionary keeps its keys distinct and its entries in the order in which the
keys were first written.  Overwriting a key keeps its place; erasing a key and
writing it again moves it to the end.  The order matters to every loop that
walks a dictionary, so the entries are a list and not a function of the key.

The invariant that no key occurs twice is a field of the structure: no
operation below can build a dictionary that violates it.
-/

namespace SmartIDS.Foundation

/-- A finite map with distinct keys, entries in insertion order. -/
structure Dict (α β : Type) where
  /-- The entries, oldest key first. -/
  entries : List (α × β)
  /-- No key occurs twice. -/
  nodup : (entries.map Prod.fst).Nodup

namespace Dict

variable {α β : Type}

/-- The keys, oldest first. -/
def keys (d : Dict α β) : List α := d.entries.map Prod.fst

/-- Number of entries. -/
def size (d : Dict α β) : Nat := d.entries.length

/-- The dictionary without entries. -/
def empty : Dict α β := ⟨[], List.nodup_nil⟩

instance : Inhabited (Dict α β) := ⟨empty⟩

theorem ext {d e : Dict α β} (h : d.entries = e.entries) : d = e := by
  cases d; cases e; simp_all

instance [DecidableEq α] [DecidableEq β] : DecidableEq (Dict α β) := fun d e =>
  decidable_of_iff (d.entries = e.entries) ⟨ext, fun h => by rw [h]⟩

/-- Keep the entries whose key satisfies `q`. -/
def restrict (d : Dict α β) (q : α → Bool) : Dict α β :=
  ⟨d.entries.filter fun e => q e.1, d.nodup.sublist (List.filter_sublist.map _)⟩

/-- Keep the entries that satisfy `q`. -/
def filter (d : Dict α β) (q : α × β → Bool) : Dict α β :=
  ⟨d.entries.filter q, d.nodup.sublist (List.filter_sublist.map _)⟩

@[simp] theorem keys_empty : (empty : Dict α β).keys = [] := rfl

@[simp] theorem entries_empty : (empty : Dict α β).entries = [] := rfl

@[simp] theorem entries_restrict (d : Dict α β) (q : α → Bool) :
    (d.restrict q).entries = d.entries.filter fun e => q e.1 := rfl

theorem nodup_keys (d : Dict α β) : d.keys.Nodup := d.nodup

theorem length_keys (d : Dict α β) : d.keys.length = d.size := List.length_map _

theorem mem_keys_of_mem {d : Dict α β} {e : α × β} (h : e ∈ d.entries) : e.1 ∈ d.keys :=
  List.mem_map_of_mem h

section

variable [DecidableEq α]

/-- The value stored under a key. -/
def get? (d : Dict α β) (k : α) : Option β := d.entries.lookup k

/-- Erase a key; nothing happens when it is absent. -/
def erase (d : Dict α β) (k : α) : Dict α β :=
  ⟨d.entries.filter fun e => e.1 ≠ k, d.nodup.sublist (List.filter_sublist.map _)⟩

/-- Replace the value of one key in a list of entries. -/
def overwrite (k : α) (v : β) (l : List (α × β)) : List (α × β) :=
  l.map fun e => if e.1 = k then (k, v) else e

theorem map_fst_overwrite (k : α) (v : β) (l : List (α × β)) :
    (overwrite k v l).map Prod.fst = l.map Prod.fst := by
  rw [overwrite, List.map_map]
  apply List.map_congr_left
  intro e _
  by_cases h : e.1 = k <;> simp [h]

theorem overwrite_of_notMem {k : α} (v : β) {l : List (α × β)} (h : k ∉ l.map Prod.fst) :
    overwrite k v l = l := by
  rw [overwrite]
  conv_rhs => rw [← List.map_id l]
  apply List.map_congr_left
  intro e he
  have : e.1 ≠ k := fun hek => h (hek ▸ List.mem_map_of_mem he)
  simp [this]

/-- Write a value: in place when the key is present, at the end otherwise. -/
def set (d : Dict α β) (k : α) (v : β) : Dict α β :=
  if h : k ∈ d.entries.map Prod.fst then
    ⟨overwrite k v d.entries, by rw [map_fst_overwrite]; exact d.nodup⟩
  else
    ⟨d.entries ++ [(k, v)], by
      rw [List.map_append, List.map_singleton, ← List.concat_eq_append]
      exact d.nodup.concat h⟩

/-! ## Reading -/

@[simp] theorem get?_empty (k : α) : (empty : Dict α β).get? k = none := rfl

theorem get?_eq_none_iff (d : Dict α β) (k : α) : d.get? k = none ↔ k ∉ d.keys := by
  simp only [get?, keys, List.lookup_eq_none_iff, List.mem_map, not_exists, not_and, bne_iff_ne,
    ne_eq]
  constructor
  · intro h e he hk
    exact h e he hk.symm
  · intro h e he hk
    exact h e he hk.symm

theorem get?_isSome_iff (d : Dict α β) (k : α) : (d.get? k).isSome ↔ k ∈ d.keys := by
  rw [Option.isSome_iff_ne_none, ne_eq, get?_eq_none_iff, not_not]

/-- With distinct keys, looking a key up and finding an entry are the same. -/
theorem get?_eq_some_iff (d : Dict α β) (k : α) (v : β) :
    d.get? k = some v ↔ (k, v) ∈ d.entries := by
  obtain ⟨l, hnodup⟩ := d
  show l.lookup k = some v ↔ (k, v) ∈ l
  induction l with
  | nil => simp
  | cons e rest ih =>
    obtain ⟨j, w⟩ := e
    simp only [List.map_cons, List.nodup_cons] at hnodup
    rw [List.lookup_cons]
    by_cases hj : k = j
    · subst hj
      have hrest : (k, v) ∉ rest := fun hm => hnodup.1 (List.mem_map_of_mem (f := Prod.fst) hm)
      simp [hrest, eq_comm]
    · have hbeq : (k == j) = false := by simpa using hj
      simp [hbeq, hj, ih hnodup.2]

theorem exists_get?_of_mem {d : Dict α β} {k : α} (h : k ∈ d.keys) : ∃ v, d.get? k = some v :=
  Option.isSome_iff_exists.mp ((get?_isSome_iff d k).mpr h)

theorem mem_keys_of_get? {d : Dict α β} {k : α} {v : β} (h : d.get? k = some v) :
    k ∈ d.keys := by
  rw [← get?_isSome_iff, h]
  rfl

/-! ## Writing -/

theorem set_of_mem {d : Dict α β} {k : α} (v : β) (h : k ∈ d.keys) :
    (d.set k v).entries = overwrite k v d.entries := by
  have h' : k ∈ d.entries.map Prod.fst := h
  simp only [set, h', dif_pos]

theorem set_of_notMem {d : Dict α β} {k : α} (v : β) (h : k ∉ d.keys) :
    (d.set k v).entries = d.entries ++ [(k, v)] := by
  have h' : k ∉ d.entries.map Prod.fst := h
  simp only [set, h', dif_neg, not_false_eq_true]

theorem keys_set_of_mem {d : Dict α β} {k : α} (v : β) (h : k ∈ d.keys) :
    (d.set k v).keys = d.keys := by
  rw [keys, set_of_mem v h, map_fst_overwrite]
  rfl

theorem keys_set_of_notMem {d : Dict α β} {k : α} (v : β) (h : k ∉ d.keys) :
    (d.set k v).keys = d.keys ++ [k] := by
  rw [keys, set_of_notMem v h]
  simp [keys]

theorem size_set_of_mem {d : Dict α β} {k : α} (v : β) (h : k ∈ d.keys) :
    (d.set k v).size = d.size := by
  rw [← length_keys, keys_set_of_mem v h, length_keys]

theorem size_set_le (d : Dict α β) (k : α) (v : β) : (d.set k v).size ≤ d.size + 1 := by
  rw [← length_keys, ← length_keys]
  rcases em (k ∈ d.keys) with hmem | hmem
  · rw [keys_set_of_mem v hmem]
    exact Nat.le_succ _
  · rw [keys_set_of_notMem v hmem, List.length_append]
    exact Nat.le_refl _

@[simp] theorem mem_keys_set (d : Dict α β) (k j : α) (v : β) :
    j ∈ (d.set k v).keys ↔ j = k ∨ j ∈ d.keys := by
  by_cases h : k ∈ d.keys
  · rw [keys_set_of_mem v h]
    constructor
    · exact Or.inr
    · rintro (rfl | hj)
      · exact h
      · exact hj
  · rw [keys_set_of_notMem v h]
    simp [or_comm]

theorem lookup_overwrite (k j : α) (v : β) (l : List (α × β)) :
    (overwrite k v l).lookup j =
      if j = k ∧ k ∈ l.map Prod.fst then some v else l.lookup j := by
  induction l with
  | nil => simp [overwrite]
  | cons e rest ih =>
    obtain ⟨i, w⟩ := e
    have hcons : overwrite k v ((i, w) :: rest) =
        (if i = k then (k, v) else (i, w)) :: overwrite k v rest := rfl
    rw [hcons]
    by_cases hi : i = k
    · subst hi
      by_cases hj : j = i
      · subst hj; simp
      · have hbeq : (j == i) = false := by simpa using hj
        simp only [if_true, List.lookup_cons, hbeq, ih]
        simp [hj]
    · rw [if_neg hi, List.lookup_cons, List.lookup_cons, ih]
      have hik : ¬ k = i := fun h => hi h.symm
      by_cases hj : j = i
      · subst hj; simp [hi]
      · have hbeq : (j == i) = false := by simpa using hj
        simp only [hbeq, List.map_cons, List.mem_cons, hik, false_or]

/-- Writing changes exactly one lookup. -/
theorem get?_set (d : Dict α β) (k j : α) (v : β) :
    (d.set k v).get? j = if j = k then some v else d.get? j := by
  by_cases hk : k ∈ d.keys
  · have hk' : k ∈ d.entries.map Prod.fst := hk
    rw [get?, set_of_mem v hk, lookup_overwrite]
    simp [hk', get?]
  · rw [get?, set_of_notMem v hk, List.lookup_append]
    by_cases hj : j = k
    · subst hj
      have hnone : d.entries.lookup j = none := (get?_eq_none_iff d j).mpr hk
      simp [hnone]
    · have hbeq : (j == k) = false := by simpa using hj
      simp [hj, hbeq, get?, List.lookup_cons]

@[simp] theorem get?_set_self (d : Dict α β) (k : α) (v : β) :
    (d.set k v).get? k = some v := by
  simp [get?_set]

theorem get?_set_of_ne (d : Dict α β) {k j : α} (v : β) (h : j ≠ k) :
    (d.set k v).get? j = d.get? j := by
  simp [get?_set, h]

theorem mem_entries_set_iff (d : Dict α β) (k : α) (v : β) (e : α × β) :
    e ∈ (d.set k v).entries ↔ e = (k, v) ∨ (e ∈ d.entries ∧ e.1 ≠ k) := by
  obtain ⟨j, w⟩ := e
  rw [← get?_eq_some_iff, ← get?_eq_some_iff, get?_set]
  by_cases hj : j = k
  · subst hj; simp [eq_comm]
  · simp [hj]

/-- The second of two writes to one key decides. -/
theorem set_set (d : Dict α β) (k : α) (v w : β) : (d.set k v).set k w = d.set k w := by
  apply ext
  have hk' : k ∈ (d.set k v).keys := (mem_keys_set _ _ _ _).mpr (Or.inl rfl)
  rw [set_of_mem w hk']
  rcases em (k ∈ d.keys) with hk | hk
  · rw [set_of_mem v hk, set_of_mem w hk, overwrite, overwrite, List.map_map]
    apply List.map_congr_left
    intro e _
    rcases eq_or_ne e.1 k with he | he <;> simp [he]
  · have hlast : overwrite k w (d.entries ++ [(k, v)]) = overwrite k w d.entries ++ [(k, w)] := by
      simp [overwrite]
    rw [set_of_notMem v hk, set_of_notMem w hk, hlast, overwrite_of_notMem w hk]

/-! ## Erasing -/

theorem mem_entries_erase_iff (d : Dict α β) (k : α) (e : α × β) :
    e ∈ (d.erase k).entries ↔ e ∈ d.entries ∧ e.1 ≠ k := by
  simp [erase]

/-- Erasing changes exactly one lookup. -/
theorem get?_erase (d : Dict α β) (k j : α) :
    (d.erase k).get? j = if j = k then none else d.get? j := by
  apply Option.ext
  intro v
  rw [get?_eq_some_iff, mem_entries_erase_iff]
  by_cases hj : j = k
  · simp [hj]
  · simp [hj, get?_eq_some_iff]

@[simp] theorem get?_erase_self (d : Dict α β) (k : α) : (d.erase k).get? k = none := by
  simp [get?_erase]

theorem get?_erase_of_ne (d : Dict α β) {k j : α} (h : j ≠ k) :
    (d.erase k).get? j = d.get? j := by
  simp [get?_erase, h]

@[simp] theorem mem_keys_erase (d : Dict α β) (k j : α) :
    j ∈ (d.erase k).keys ↔ j ∈ d.keys ∧ j ≠ k := by
  rw [← get?_isSome_iff, ← get?_isSome_iff, get?_erase]
  by_cases hj : j = k <;> simp [hj]

theorem erase_of_notMem {d : Dict α β} {k : α} (h : k ∉ d.keys) : d.erase k = d := by
  apply ext
  simp only [erase]
  rw [List.filter_eq_self]
  intro e he
  have : e.1 ≠ k := fun hk => h (hk ▸ mem_keys_of_mem he)
  simpa using this

theorem erase_set (d : Dict α β) (k : α) (v : β) : (d.set k v).erase k = d.erase k := by
  apply ext
  rcases em (k ∈ d.keys) with hk | hk
  · simp only [erase, set_of_mem v hk, overwrite]
    induction d.entries with
    | nil => rfl
    | cons e rest ih =>
      rw [List.map_cons, List.filter_cons, List.filter_cons, ih]
      rcases eq_or_ne e.1 k with he | he <;> simp [he]
  · simp only [erase, set_of_notMem v hk, List.filter_append]
    simp

/-- Erasing a list of keys one after the other keeps exactly the other entries. -/
theorem entries_foldl_erase (ks : List α) (d : Dict α β) :
    (ks.foldl erase d).entries = d.entries.filter fun e => e.1 ∉ ks := by
  induction ks generalizing d with
  | nil => simp
  | cons k ks ih =>
    rw [List.foldl_cons, ih]
    simp only [erase, List.filter_filter]
    apply List.filter_congr
    intro e _
    by_cases hk : e.1 = k <;> simp [hk]

theorem get?_foldl_erase (ks : List α) (d : Dict α β) (k : α) :
    (ks.foldl erase d).get? k = if k ∈ ks then none else d.get? k := by
  apply Option.ext
  intro v
  rw [get?_eq_some_iff, entries_foldl_erase, List.mem_filter]
  by_cases hk : k ∈ ks <;> simp [hk, get?_eq_some_iff]

/-! ## Filtering and restricting -/

theorem get?_filter (d : Dict α β) (q : α × β → Bool) (k : α) :
    (d.filter q).get? k = (d.get? k).filter fun v => q (k, v) := by
  apply Option.ext
  intro v
  rw [get?_eq_some_iff, Option.filter_eq_some_iff, get?_eq_some_iff]
  exact List.mem_filter

theorem get?_restrict (d : Dict α β) (q : α → Bool) (k : α) :
    (d.restrict q).get? k = if q k then d.get? k else none := by
  apply Option.ext
  intro v
  rw [get?_eq_some_iff, entries_restrict, List.mem_filter]
  by_cases hq : q k <;> simp [hq, get?_eq_some_iff]

theorem get?_restrict_of_pos (d : Dict α β) {q : α → Bool} {k : α} (h : q k = true) :
    (d.restrict q).get? k = d.get? k := by
  simp [get?_restrict, h]

theorem mem_keys_restrict (d : Dict α β) (q : α → Bool) (k : α) :
    k ∈ (d.restrict q).keys ↔ k ∈ d.keys ∧ q k = true := by
  rw [← get?_isSome_iff, ← get?_isSome_iff, get?_restrict]
  by_cases hq : q k <;> simp [hq]

theorem restrict_erase (d : Dict α β) (q : α → Bool) (k : α) :
    (d.erase k).restrict q = (d.restrict q).erase k := by
  apply ext
  simp only [erase, entries_restrict, List.filter_filter, Bool.and_comm]

/-- Erasing a key that the restriction drops is invisible to it. -/
theorem restrict_erase_of_neg (d : Dict α β) {q : α → Bool} {k : α} (h : q k = false) :
    (d.erase k).restrict q = d.restrict q := by
  rw [restrict_erase]
  apply erase_of_notMem
  simp [mem_keys_restrict, h]

theorem filter_overwrite (q : α → Bool) (k : α) (v : β) (l : List (α × β)) :
    (overwrite k v l).filter (fun e => q e.1) = overwrite k v (l.filter fun e => q e.1) := by
  induction l with
  | nil => rfl
  | cons e rest ih =>
    have hcons : ∀ (x : α × β) (l : List (α × β)), overwrite k v (x :: l) =
        (if x.1 = k then (k, v) else x) :: overwrite k v l := fun _ _ => rfl
    have hkey : (if e.1 = k then (k, v) else e).1 = e.1 := by
      by_cases he : e.1 = k <;> simp [he]
    rw [hcons, List.filter_cons, List.filter_cons, hkey, ih]
    by_cases hq : q e.1 <;> simp [hq, hcons]

theorem restrict_set_of_pos (d : Dict α β) {q : α → Bool} {k : α} (v : β) (h : q k = true) :
    (d.set k v).restrict q = (d.restrict q).set k v := by
  apply ext
  by_cases hk : k ∈ d.keys
  · have hk' : k ∈ (d.restrict q).keys := (mem_keys_restrict d q k).mpr ⟨hk, h⟩
    rw [entries_restrict, set_of_mem v hk, set_of_mem v hk', filter_overwrite]
    rfl
  · have hk' : k ∉ (d.restrict q).keys := fun hm => hk ((mem_keys_restrict d q k).mp hm).1
    rw [entries_restrict, set_of_notMem v hk, set_of_notMem v hk', List.filter_append]
    simp [h]

theorem restrict_set_of_neg (d : Dict α β) {q : α → Bool} {k : α} (v : β) (h : q k = false) :
    (d.set k v).restrict q = d.restrict q := by
  apply ext
  by_cases hk : k ∈ d.keys
  · have hk' : k ∉ (d.restrict q).keys := by simp [mem_keys_restrict, h]
    rw [entries_restrict, set_of_mem v hk, filter_overwrite]
    exact overwrite_of_notMem v hk'
  · rw [entries_restrict, set_of_notMem v hk, List.filter_append]
    simp [h]

/-! ## Comprehensions -/

/-- `{key a: value a for a in l}`: of two items with one key the later one stays. -/
def tabulate {ι : Type} (key : ι → α) (value : ι → β) (l : List ι) : Dict α β :=
  l.foldl (fun d a => d.set (key a) (value a)) empty

section

variable {ι : Type} (key : ι → α) (value : ι → β) (l : List ι)

theorem get?_tabulate (k : α) :
    (tabulate key value l).get? k = (l.reverse.find? fun a => key a = k).map value := by
  unfold tabulate
  induction l using List.reverseRecOn with
  | nil => rfl
  | append_singleton l a ih =>
    rw [List.foldl_append, List.foldl_cons, List.foldl_nil, get?_set, ih, List.reverse_append,
      List.reverse_singleton, List.singleton_append, List.find?_cons]
    by_cases h : key a = k
    · simp [h]
    · simp [h, Ne.symm h]

/-- What is found under a key was written for an item with that key. -/
theorem exists_of_get?_tabulate {k : α} {v : β} (h : (tabulate key value l).get? k = some v) :
    ∃ a ∈ l, key a = k ∧ value a = v := by
  rw [get?_tabulate, Option.map_eq_some_iff] at h
  obtain ⟨a, hfind, hvalue⟩ := h
  have hkey : key a = k := by simpa using List.find?_some hfind
  exact ⟨a, List.mem_reverse.mp (List.mem_of_find?_eq_some hfind), hkey, hvalue⟩

theorem mem_keys_tabulate (k : α) : k ∈ (tabulate key value l).keys ↔ k ∈ l.map key := by
  rw [← get?_isSome_iff, get?_tabulate, Option.isSome_map, List.find?_isSome]
  simp

/-- With keys told apart the dictionary has one entry for each item. -/
theorem get?_tabulate_iff (hkey : Function.Injective key) (k : α) (v : β) :
    (tabulate key value l).get? k = some v ↔ ∃ a ∈ l, key a = k ∧ value a = v := by
  constructor
  · exact exists_of_get?_tabulate key value l
  · rintro ⟨a, ha, rfl, rfl⟩
    have hmem : key a ∈ (tabulate key value l).keys :=
      (mem_keys_tabulate key value l (key a)).mpr (List.mem_map_of_mem ha)
    obtain ⟨v, hv⟩ := exists_get?_of_mem hmem
    obtain ⟨b, _, hb, rfl⟩ := exists_of_get?_tabulate key value l hv
    rw [hv, hkey hb]

end

/-! ## Entries up to order -/

omit [DecidableEq α] in
theorem nodup_entries (d : Dict α β) : d.entries.Nodup := d.nodup.of_map

theorem perm_cons_erase_iff (d e : Dict α β) (k : α) (v : β) :
    e.entries.Perm ((k, v) :: (d.erase k).entries) ↔
      ∀ entry, entry ∈ e.entries ↔ entry ∈ (k, v) :: (d.erase k).entries := by
  have hnotMem : (k, v) ∉ (d.erase k).entries := by
    rw [mem_entries_erase_iff]
    simp
  exact List.perm_ext_iff_of_nodup (nodup_entries _)
    (List.nodup_cons.mpr ⟨hnotMem, nodup_entries _⟩)

/-- Writing a key puts its new entry beside the entries of the other keys. -/
theorem entries_set_perm (d : Dict α β) (k : α) (v : β) :
    (d.set k v).entries.Perm ((k, v) :: (d.erase k).entries) := by
  rw [perm_cons_erase_iff]
  intro e
  rw [mem_entries_set_iff, List.mem_cons, mem_entries_erase_iff]

/-- An entry beside the entries of the other keys. -/
theorem entries_perm_of_get? {d : Dict α β} {k : α} {v : β} (h : d.get? k = some v) :
    d.entries.Perm ((k, v) :: (d.erase k).entries) := by
  rw [perm_cons_erase_iff]
  rintro ⟨j, w⟩
  rw [List.mem_cons, mem_entries_erase_iff, ← get?_eq_some_iff]
  rcases eq_or_ne j k with rfl | hne
  · simp [h, eq_comm]
  · simp [hne]

/-! ## Dictionaries related value by value -/

/-- The same keys in the same order, with related values. -/
def Related {γ : Type} (R : β → γ → Prop) (d : Dict α β) (e : Dict α γ) : Prop :=
  List.Forall₂ (fun x y => x.1 = y.1 ∧ R x.2 y.2) d.entries e.entries

namespace Related

variable {γ : Type} {R : β → γ → Prop} {d : Dict α β} {e : Dict α γ}

omit [DecidableEq α] in
theorem keys_eq (h : Related R d e) : d.keys = e.keys := by
  have hkeys : List.Forall₂ Eq d.keys e.keys := List.rel_map (fun _ _ hxy => hxy.1) h
  rwa [List.forall₂_eq_eq_eq] at hkeys

/-- A value of the first dictionary is related to the value of the second. -/
theorem get? (h : Related R d e) {k : α} {v : β} (hv : d.get? k = some v) :
    ∃ w, e.get? k = some w ∧ R v w := by
  have hmem : ∀ (l : List (α × β)) (m : List (α × γ)),
      List.Forall₂ (fun x y => x.1 = y.1 ∧ R x.2 y.2) l m → (k, v) ∈ l →
      ∃ w, (k, w) ∈ m ∧ R v w := by
    intro l m hlm
    induction hlm with
    | nil => intro hkv; exact absurd hkv List.not_mem_nil
    | @cons x y _ _ hxy _ ih =>
      intro hkv
      rcases List.mem_cons.mp hkv with rfl | hrest
      · exact ⟨y.2, by rw [show k = y.1 from hxy.1]; exact List.mem_cons_self, hxy.2⟩
      · obtain ⟨w, hw, hR⟩ := ih hrest
        exact ⟨w, List.mem_cons_of_mem _ hw, hR⟩
  obtain ⟨w, hw, hR⟩ := hmem _ _ h ((get?_eq_some_iff _ _ _).mp hv)
  exact ⟨w, (get?_eq_some_iff _ _ _).mpr hw, hR⟩

theorem get?_eq_none (h : Related R d e) {k : α} (hk : d.get? k = none) : e.get? k = none := by
  rw [Dict.get?_eq_none_iff, ← h.keys_eq, ← Dict.get?_eq_none_iff]
  exact hk

omit [DecidableEq α] in
theorem filter {q : α × β → Bool} {r : α × γ → Bool} (h : Related R d e)
    (hqr : ∀ k v w, R v w → q (k, v) = r (k, w)) : Related R (d.filter q) (e.filter r) := by
  apply List.rel_filter _ h
  rintro ⟨j, v⟩ ⟨k, w⟩ ⟨rfl, hR⟩
  exact iff_of_eq (congrArg (· = true) (hqr j v w hR))

theorem erase (h : Related R d e) (k : α) : Related R (d.erase k) (e.erase k) := by
  apply List.rel_filter _ h
  intro x y hxy
  simp only [hxy.1]

theorem set (h : Related R d e) (k : α) {v : β} {w : γ} (hR : R v w) :
    Related R (d.set k v) (e.set k w) := by
  unfold Related
  rcases em (k ∈ d.keys) with hk | hk
  · rw [set_of_mem v hk, set_of_mem w (by rw [← h.keys_eq]; exact hk)]
    apply List.rel_map _ h
    intro x y hxy
    simp only [hxy.1]
    split_ifs
    · exact ⟨rfl, hR⟩
    · exact hxy
  · rw [set_of_notMem v hk, set_of_notMem w (by rw [← h.keys_eq]; exact hk)]
    exact List.rel_append h (.cons ⟨rfl, hR⟩ .nil)

end Related

end

end Dict

end SmartIDS.Foundation
