import Mathlib.Data.List.DropRight
import SmartIDS.Foundation.BoundedFifo
import SmartIDS.Python.Value
set_option autoImplicit false

/-!
# ResponseEngine: the processed command store

`response_engine/processed_command_store.py`.  The ids of the commands that took
effect, oldest first: what `_load` makes of a JSON document, and the ids in memory.
The file, and how far a save comes, are in the modules on saved state.

What a store must be able to do is to come back: a document of the ids in memory
loads as these ids.  That is a field of the structure, so that a store that would
forget ids over a save and a load cannot be built.
-/

namespace SmartIDS.ResponseEngine

open SmartIDS.Foundation SmartIDS.Python

/-- `_positive_int`; `none` where the argument or the variable is not set. -/
def positiveInt (value : Option ℤ) (variable_ : Option String) (default_ : ℤ) : ℤ :=
  let parsed := match value, variable_ with
    | some n, _ => n
    | none, some text => (intLiteral? text).getD default_
    | none, none => default_
  max 1 parsed

theorem positiveInt_pos (value : Option ℤ) (variable_ : Option String) (default_ : ℤ) :
    0 < positiveInt value variable_ default_ :=
  lt_of_lt_of_le Int.one_pos (le_max_left 1 _)

namespace ProcessedCommandStore

/-- `_normalize`. -/
def normalize (repr : Json → String) (value : Json) : String :=
  strip (str repr (if value.truthy then value else .str ""))

/-- The values a `for` loop over a JSON value runs through; a key of an object stands
where it came first. -/
def iterate : Json → Except PyError (List Json)
  | .arr items => .ok items
  | .str s => .ok (s.toList.map fun c => .str (String.singleton c))
  | .obj entries => .ok ((entries.map Prod.fst).eraseDups.map .str)
  | _ => .error .typeError

/-- The loop of `_load`: skip what is blank or was seen. -/
def collect (ids : List String) : List String :=
  ids.foldl (fun acc id => if id ≠ "" ∧ id ∉ acc then acc ++ [id] else acc) []

/-- The values listed in a document. -/
def listed : Json → Except PyError (List Json)
  | .arr items => .ok items
  | .obj entries => iterate (JsonObject.getD entries "command_ids" (.arr []))
  | _ => .ok []

/-- `_load`; `none` is a file that is missing or cannot be decoded. -/
def load (repr : Json → String) (maxCommandIds : ℕ) : Option Json → Except PyError (List String)
  | none => .ok []
  | some payload => do
    let values ← listed payload
    return BoundedFifo.newest maxCommandIds (collect (values.map (normalize repr)))

/-- The document `_save` writes. -/
def document (ids : List String) : Json := .obj [("command_ids", .arr (ids.map .str))]

/-! ## What a load can return -/

/-- Ids as the store keeps them: stripped, not blank, without repetition. -/
structure Tidy (ids : List String) : Prop where
  stripped : ∀ id ∈ ids, strip id = id
  nonblank : ∀ id ∈ ids, id ≠ ""
  nodup : ids.Nodup

theorem tidy_nil : Tidy [] := ⟨by simp, by simp, List.nodup_nil⟩

theorem Tidy.sublist {ids ids' : List String} (h : Tidy ids) (hsub : ids'.Sublist ids) :
    Tidy ids' :=
  ⟨fun id hid => h.stripped id (hsub.subset hid), fun id hid => h.nonblank id (hsub.subset hid),
    h.nodup.sublist hsub⟩

theorem Tidy.append {ids : List String} (h : Tidy ids) {id : String} (hstrip : strip id = id)
    (hblank : id ≠ "") (hfresh : id ∉ ids) : Tidy (ids ++ [id]) where
  stripped := by
    intro x hx
    rcases List.mem_append.mp hx with hx | hx
    · exact h.stripped x hx
    · obtain rfl := List.mem_singleton.mp hx
      exact hstrip
  nonblank := by
    intro x hx
    rcases List.mem_append.mp hx with hx | hx
    · exact h.nonblank x hx
    · obtain rfl := List.mem_singleton.mp hx
      exact hblank
  nodup := by
    refine List.nodup_append.mpr ⟨h.nodup, List.nodup_singleton id, ?_⟩
    intro x hx y hy
    obtain rfl := List.mem_singleton.mp hy
    exact fun heq => hfresh (heq ▸ hx)

/-- The collected ids are tidy: the accumulator is, at every turn of the loop. -/
theorem tidy_collect {ids : List String} (hstrip : ∀ id ∈ ids, strip id = id) :
    Tidy (collect ids) := by
  have hloop : ∀ (rest acc : List String), (∀ id ∈ rest, strip id = id) → Tidy acc →
      Tidy (rest.foldl (fun acc id => if id ≠ "" ∧ id ∉ acc then acc ++ [id] else acc) acc) := by
    intro rest
    induction rest with
    | nil => exact fun acc _ hacc => hacc
    | cons id rest ih =>
      intro acc hrest hacc
      obtain ⟨hid, hrest⟩ := List.forall_mem_cons.mp hrest
      rw [List.foldl_cons]
      refine ih _ hrest ?_
      split_ifs with hnew
      · exact hacc.append hid hnew.1 hnew.2
      · exact hacc
  exact hloop ids [] hstrip tidy_nil

/-- Tidy ids are collected as they are. -/
theorem collect_of_tidy {ids : List String} (h : Tidy ids) : collect ids = ids := by
  have hloop : ∀ (rest acc : List String), Tidy (acc ++ rest) →
      rest.foldl (fun acc id => if id ≠ "" ∧ id ∉ acc then acc ++ [id] else acc) acc =
        acc ++ rest := by
    intro rest
    induction rest with
    | nil => exact fun acc _ => (List.append_nil acc).symm
    | cons id rest ih =>
      intro acc htidy
      have hblank : id ≠ "" := htidy.nonblank id (by simp)
      have hfresh : id ∉ acc := fun hmem =>
        List.disjoint_of_nodup_append htidy.nodup hmem (List.mem_cons_self)
      have hnext : acc ++ [id] ++ rest = acc ++ id :: rest := by simp
      rw [List.foldl_cons, if_pos ⟨hblank, hfresh⟩, ih (acc ++ [id]) (hnext ▸ htidy), hnext]
  exact hloop ids [] h

theorem strip_normalize (repr : Json → String) (value : Json) :
    strip (normalize repr value) = normalize repr value := strip_strip _

/-- Whatever the file holds, the ids read from it are tidy and not too many. -/
theorem load_tidy {repr : Json → String} {maxCommandIds : ℕ} {file : Option Json}
    {ids : List String} (h : load repr maxCommandIds file = .ok ids) :
    Tidy ids ∧ ids.length ≤ maxCommandIds := by
  cases file with
  | none =>
    obtain rfl : [] = ids := Except.ok.inj h
    exact ⟨tidy_nil, Nat.zero_le _⟩
  | some payload =>
    cases hlisted : listed payload with
    | error e => simp [load, hlisted, bind, Except.bind] at h
    | ok values =>
      simp only [load, hlisted, bind, Except.bind, pure, Except.pure, Except.ok.injEq] at h
      subst h
      have hstrip : ∀ id ∈ values.map (normalize repr), strip id = id := by
        intro id hid
        obtain ⟨value, -, rfl⟩ := List.mem_map.mp hid
        exact strip_normalize repr value
      exact ⟨(tidy_collect hstrip).sublist (BoundedFifo.newest_suffix _ _).sublist,
        BoundedFifo.length_newest_le _ _⟩

theorem normalize_str (repr : Json → String) {id : String} (hstrip : strip id = id) :
    normalize repr (.str id) = id := by
  unfold normalize
  split_ifs with htruthy
  · exact hstrip
  · have hempty : id = "" := by
      simpa [Json.truthy] using htruthy
    rw [hempty]
    rfl

/-- Reading back what was saved. -/
theorem load_document (repr : Json → String) {maxCommandIds : ℕ} {ids : List String}
    (htidy : Tidy ids) (hlen : ids.length ≤ maxCommandIds) :
    load repr maxCommandIds (some (document ids)) = .ok ids := by
  have hvalues : (ids.map Json.str).map (normalize repr) = ids := by
    rw [List.map_map]
    conv_rhs => rw [← List.map_id ids]
    exact List.map_congr_left fun id hid => normalize_str repr (htidy.stripped id hid)
  have hlisted : listed (document ids) = .ok (ids.map .str) := rfl
  simp only [load, hlisted, bind, Except.bind, pure, Except.pure]
  rw [hvalues, collect_of_tidy htidy, BoundedFifo.newest_of_length_le hlen]

end ProcessedCommandStore

/-! ## The store -/

open ProcessedCommandStore in
/-- `ProcessedCommandStore`. -/
structure ProcessedCommandStore (repr : Json → String) where
  maxCommandIds : ℕ
  commandIds : List String
  maxCommandIds_pos : 0 < maxCommandIds
  /-- What `_save` writes loads as what is in memory. -/
  load_saved : load repr maxCommandIds (some (document commandIds)) = .ok commandIds

namespace ProcessedCommandStore

variable {repr : Json → String}

theorem tidy (s : ProcessedCommandStore repr) : Tidy s.commandIds := (load_tidy s.load_saved).1

theorem length_le (s : ProcessedCommandStore repr) : s.commandIds.length ≤ s.maxCommandIds :=
  (load_tidy s.load_saved).2

/-- The store of these ids. -/
def ofTidy (maxCommandIds : ℕ) (hpos : 0 < maxCommandIds) (ids : List String)
    (h : Tidy ids ∧ ids.length ≤ maxCommandIds) : ProcessedCommandStore repr :=
  ⟨maxCommandIds, ids, hpos, load_document repr h.1 h.2⟩

/-- `__init__` over a file. -/
def init (maxCommandIds : ℕ) (hpos : 0 < maxCommandIds) (file : Option Json) :
    Except PyError (ProcessedCommandStore repr) :=
  match hload : load repr maxCommandIds file with
  | .ok ids => .ok (.ofTidy maxCommandIds hpos ids (load_tidy hload))
  | .error e => .error e

theorem init_of_load {maxCommandIds : ℕ} (hpos : 0 < maxCommandIds) {file : Option Json}
    {ids : List String} (h : load repr maxCommandIds file = .ok ids) :
    (init maxCommandIds hpos file : Except PyError (ProcessedCommandStore repr)) =
      .ok (.ofTidy maxCommandIds hpos ids (load_tidy h)) := by
  unfold init
  split
  · next ids' hload =>
    obtain rfl : ids' = ids := Except.ok.inj (hload.symm.trans h)
    rfl
  · next e hload => exact absurd (hload.symm.trans h) (by simp)

theorem init_of_load_error {maxCommandIds : ℕ} (hpos : 0 < maxCommandIds) {file : Option Json}
    {e : PyError} (h : load repr maxCommandIds file = .error e) :
    (init maxCommandIds hpos file : Except PyError (ProcessedCommandStore repr)) = .error e := by
  unfold init
  split
  · next ids hload => exact absurd (hload.symm.trans h) (by simp)
  · next e' hload =>
    obtain rfl : e' = e := Except.error.inj (hload.symm.trans h)
    rfl

theorem load_of_init {maxCommandIds : ℕ} {hpos : 0 < maxCommandIds} {file : Option Json}
    {s : ProcessedCommandStore repr} (h : init maxCommandIds hpos file = .ok s) :
    load repr maxCommandIds file = .ok s.commandIds ∧ s.maxCommandIds = maxCommandIds := by
  unfold init at h
  split at h
  · next ids hload =>
    obtain rfl := Except.ok.inj h
    exact ⟨hload, rfl⟩
  · next e hload => exact absurd h (by simp)

/-- A store whose file was never written. -/
def empty (maxCommandIds : ℕ) (hpos : 0 < maxCommandIds) : ProcessedCommandStore repr :=
  .ofTidy maxCommandIds hpos [] ⟨tidy_nil, Nat.zero_le _⟩

/-- `contains`. -/
def contains (s : ProcessedCommandStore repr) (commandId : String) : Bool :=
  let normalized := strip commandId
  if normalized = "" then false else normalized ∈ s.commandIds

theorem newest_tidy (s : ProcessedCommandStore repr) {commandId : String}
    (h : ¬ (strip commandId = "" ∨ strip commandId ∈ s.commandIds)) :
    Tidy (BoundedFifo.newest s.maxCommandIds (s.commandIds ++ [strip commandId])) ∧
      (BoundedFifo.newest s.maxCommandIds (s.commandIds ++ [strip commandId])).length ≤
        s.maxCommandIds := by
  obtain ⟨hblank, hfresh⟩ := not_or.mp h
  exact ⟨(s.tidy.append (strip_strip commandId) hblank hfresh).sublist
    (BoundedFifo.newest_suffix _ _).sublist, BoundedFifo.length_newest_le _ _⟩

/-- `add`, as far as the ids in memory go. -/
def add (s : ProcessedCommandStore repr) (commandId : String) : ProcessedCommandStore repr :=
  let normalized := strip commandId
  if hskip : normalized = "" ∨ normalized ∈ s.commandIds then s
  else .ofTidy s.maxCommandIds s.maxCommandIds_pos
    (BoundedFifo.newest s.maxCommandIds (s.commandIds ++ [normalized])) (s.newest_tidy hskip)

/-- For the stripped, nonblank ids the dispatcher passes, `contains` is
membership. -/
theorem contains_iff (s : ProcessedCommandStore repr) {id : String} (hstrip : strip id = id)
    (hblank : id ≠ "") : s.contains id = true ↔ id ∈ s.commandIds := by
  unfold contains
  simp only [hstrip]
  rw [if_neg hblank, decide_eq_true_iff]

/-- For such ids `add` is a push on the bounded set. -/
theorem commandIds_add (s : ProcessedCommandStore repr) {id : String} (hstrip : strip id = id)
    (hblank : id ≠ "") :
    (s.add id).commandIds = BoundedFifo.push s.maxCommandIds s.commandIds id := by
  unfold add BoundedFifo.push
  simp only [hstrip]
  rcases em (id ∈ s.commandIds) with hmem | hmem
  · rw [dif_pos (Or.inr hmem), if_pos hmem]
  · rw [dif_neg (not_or.mpr ⟨hblank, hmem⟩), if_neg hmem]
    rfl

@[simp] theorem maxCommandIds_add (s : ProcessedCommandStore repr) (id : String) :
    (s.add id).maxCommandIds = s.maxCommandIds := by
  unfold add
  simp only
  split_ifs <;> rfl

end ProcessedCommandStore

end SmartIDS.ResponseEngine
