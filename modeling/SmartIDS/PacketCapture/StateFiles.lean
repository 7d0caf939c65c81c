import SmartIDS.Forwarding.SpillFifo
import SmartIDS.ResponseEngine.ProcessedCommandStore
set_option autoImplicit false

/-!
# Packet capture: the state files the engine starts from

`ProcessedCommandStore`, `DiskSpillStore` and `EngineLocalConfig.load` each read
a file that may hold anything.  Two of them decode it under the same
`except (OSError, json.JSONDecodeError)`, which lets the error of bytes that are
not UTF-8 through; the third decodes it as well to count its lines.
-/

namespace SmartIDS.PacketCapture

open SmartIDS.Foundation SmartIDS.Python SmartIDS.ResponseEngine SmartIDS.Forwarding

/-- `json.loads`. -/
abbrev JsonLoads : Type := String → Except PyError Json

/-- The `try` of the two loaders: the document of the file, or nothing. -/
def decodeFile (loads : JsonLoads) (file : File) : Except PyError (Option Json) :=
  match readText file >>= loads with
  | .ok payload => .ok (some payload)
  | .error .osError => .ok none
  | .error .jsonDecodeError => .ok none
  | .error e => .error e

/-- `ProcessedCommandStore.__init__` over a file; `variable_` is the environment
variable. -/
def commandStoreOf {repr : Json → String} (loads : JsonLoads) (maxCommandIds : Option ℤ)
    (variable_ : Option String) (file : File) : Except PyError (ProcessedCommandStore repr) := do
  let payload ← decodeFile loads file
  ProcessedCommandStore.init (positiveInt maxCommandIds variable_ 10000).toNat
    (Int.pos_iff_toNat_pos.mp (positiveInt_pos ..)) payload

namespace EngineLocalConfig

/-- `_REQUIRED_FIELDS`. -/
def requiredFields : List String :=
  ["engine_id", "engine_secret", "backend_url", "heartbeat_interval_seconds"]

/-- The fields of an object. -/
def HasFields (payload : JsonObject) : Prop :=
  ∀ field ∈ requiredFields, field ∈ payload.map Prod.fst

instance (payload : JsonObject) : Decidable (HasFields payload) :=
  inferInstanceAs (Decidable (∀ field ∈ requiredFields, field ∈ payload.map Prod.fst))

/-- `load`. -/
def load (loads : JsonLoads) (file : File) : Except PyError (Option JsonObject) := do
  match ← decodeFile loads file with
  | some (.obj payload) => return if HasFields payload then some payload else none
  | _ => return none

end EngineLocalConfig

/-! ## The contents a loader returns on -/

/-- The bytes are a text, and on the text `json.loads` raises nothing that the
loaders do not catch. -/
structure Decodes (loads : JsonLoads) (file : File) : Prop where
  isText : IsText file
  caught : ∀ text e, readText file = .ok text → loads text = .error e →
    e = .osError ∨ e = .jsonDecodeError

/-- The values a `for` loop accepts. -/
def IsIterable : Json → Prop
  | .arr _ => True
  | .str _ => True
  | .obj _ => True
  | _ => False

/-- What stands under `command_ids`, if anything does, can be iterated. -/
def ListsIds : Json → Prop
  | .obj entries => IsIterable (JsonObject.getD entries "command_ids" (.arr []))
  | _ => True

section decoding

variable {loads : JsonLoads} {file : File}

theorem readText_of_isText (h : IsText file) :
    (∃ text, readText file = .ok text) ∨ readText file = .error .osError := by
  cases file with
  | none => exact Or.inr rfl
  | some bytes =>
    obtain ⟨text, rfl⟩ := h.eq_toUTF8
    exact Or.inl ⟨_, readText_toUTF8 text⟩

/-- The document of a file that decodes. -/
theorem Decodes.decodeFile (h : Decodes loads file) :
    (∃ text payload, readText file = .ok text ∧ loads text = .ok payload ∧
      decodeFile loads file = .ok (some payload)) ∨ decodeFile loads file = .ok none := by
  unfold PacketCapture.decodeFile
  rcases readText_of_isText h.isText with ⟨text, htext⟩ | herror
  · cases hloads : loads text with
    | ok payload => exact Or.inl ⟨text, payload, htext, hloads, by simp only [htext, bind,
        Except.bind, hloads]⟩
    | error e =>
      refine Or.inr ?_
      rcases h.caught text e htext hloads with rfl | rfl <;>
        simp only [htext, bind, Except.bind, hloads]
  · exact Or.inr (by simp only [herror, bind, Except.bind])

theorem decodeFile_of_not_decodes (h : ¬ Decodes loads file) :
    ∃ e, decodeFile loads file = .error e := by
  unfold decodeFile
  rcases em (IsText file) with htext | htext
  · obtain ⟨text, e, hread, hloads, hcaught⟩ : ∃ text e, readText file = .ok text ∧
        loads text = .error e ∧ ¬ (e = .osError ∨ e = .jsonDecodeError) := by
      refine not_forall_not.mp fun hnone => h ⟨htext, fun text e hread hloads => ?_⟩
      exact not_not.mp fun hcaught => hnone text ⟨e, hread, hloads, hcaught⟩
    rw [not_or] at hcaught
    refine ⟨e, ?_⟩
    simp only [hread, bind, Except.bind, hloads]
    cases e <;> first | rfl | exact absurd rfl hcaught.1 | exact absurd rfl hcaught.2
  · exact ⟨_, by simp only [readText_of_not_isText htext, bind, Except.bind]; rfl⟩

theorem listed_of_listsIds {payload : Json} (h : ListsIds payload) :
    ∃ values, ProcessedCommandStore.listed payload = .ok values := by
  cases payload with
  | obj entries =>
    have hiter : IsIterable (JsonObject.getD entries "command_ids" (.arr [])) := h
    change ∃ values, ProcessedCommandStore.iterate _ = .ok values
    cases hids : JsonObject.getD entries "command_ids" (.arr []) <;> rw [hids] at hiter
    all_goals first | exact ⟨_, rfl⟩ | exact hiter.elim
  | _ => exact ⟨_, rfl⟩

theorem listed_of_not_listsIds {payload : Json} (h : ¬ ListsIds payload) :
    ProcessedCommandStore.listed payload = .error .typeError := by
  cases payload with
  | obj entries =>
    have hiter : ¬ IsIterable (JsonObject.getD entries "command_ids" (.arr [])) := h
    change ProcessedCommandStore.iterate _ = _
    cases hids : JsonObject.getD entries "command_ids" (.arr []) <;> rw [hids] at hiter
    all_goals first | rfl | exact absurd trivial hiter
  | _ => exact absurd trivial h

end decoding

/-! ## The three loaders -/

section loaders

variable {repr : Json → String} {loads : JsonLoads} {file : File}

theorem init_of_listsIds {maxCommandIds : ℕ} (hpos : 0 < maxCommandIds) {payload : Option Json}
    (h : ∀ j, payload = some j → ListsIds j) :
    ∃ s : ProcessedCommandStore repr,
      ProcessedCommandStore.init maxCommandIds hpos payload = .ok s ∧
        s.maxCommandIds = maxCommandIds := by
  obtain ⟨ids, hload⟩ : ∃ ids, ProcessedCommandStore.load repr maxCommandIds payload = .ok ids := by
    cases payload with
    | none => exact ⟨[], rfl⟩
    | some j =>
      obtain ⟨values, hlisted⟩ := listed_of_listsIds (h j rfl)
      exact ⟨_, by simp only [ProcessedCommandStore.load, hlisted, bind, Except.bind]; rfl⟩
  exact ⟨_, ProcessedCommandStore.init_of_load hpos hload, rfl⟩

theorem init_of_not_listsIds {maxCommandIds : ℕ} (hpos : 0 < maxCommandIds) {j : Json}
    (h : ¬ ListsIds j) :
    (ProcessedCommandStore.init maxCommandIds hpos (some j) :
      Except PyError (ProcessedCommandStore repr)) = .error .typeError := by
  have hload : ProcessedCommandStore.load repr maxCommandIds (some j) = .error .typeError := by
    simp only [ProcessedCommandStore.load, listed_of_not_listsIds h, bind, Except.bind]
  exact ProcessedCommandStore.init_of_load_error hpos hload

/-- The file of a command store that can be constructed. -/
structure ReadableCommands (loads : JsonLoads) (file : File) : Prop where
  decodes : Decodes loads file
  listsIds : ∀ text payload, readText file = .ok text → loads text = .ok payload →
    ListsIds payload

theorem commandStoreOf_returns_iff (maxCommandIds : Option ℤ) (variable_ : Option String) :
    (∃ s : ProcessedCommandStore repr,
      commandStoreOf loads maxCommandIds variable_ file = .ok s ∧
        s.maxCommandIds = (positiveInt maxCommandIds variable_ 10000).toNat) ↔
      ReadableCommands loads file := by
  constructor
  · rintro ⟨s, hs, -⟩
    have hdecodes : Decodes loads file := by
      refine not_not.mp fun hnot => ?_
      obtain ⟨e, he⟩ := decodeFile_of_not_decodes hnot
      simp only [commandStoreOf, he, bind, Except.bind, reduceCtorEq] at hs
    refine ⟨hdecodes, fun text payload htext hloads => not_not.mp fun hnot => ?_⟩
    have hdecode : decodeFile loads file = .ok (some payload) := by
      simp only [decodeFile, htext, bind, Except.bind, hloads]
    simp only [commandStoreOf, hdecode, bind, Except.bind, init_of_not_listsIds _ hnot,
      reduceCtorEq] at hs
  · intro h
    rcases h.decodes.decodeFile with ⟨text, payload, htext, hloads, hdecode⟩ | hdecode
    · simp only [commandStoreOf, hdecode, bind, Except.bind]
      refine init_of_listsIds _ fun j hj => ?_
      obtain rfl : payload = j := Option.some.inj hj
      exact h.listsIds text payload htext hloads
    · simp only [commandStoreOf, hdecode, bind, Except.bind]
      exact init_of_listsIds _ fun j hj => by simp at hj

theorem spillStore_returns_iff (maxEntries : ℤ) :
    (∃ s, DiskSpillStore.init .working maxEntries file = .ok s) ↔ IsText file := by
  unfold DiskSpillStore.init DiskSpillStore.countLinesLocked
  constructor
  · rintro ⟨s, hs⟩
    refine not_not.mp fun hnot => ?_
    have hlegible : ¬ DiskSpillStore.Legible .working file := fun h => hnot (h rfl)
    simp only [DiskSpillStore.readLinesLocked_of_not_legible hlegible, bind, Except.bind,
      reduceCtorEq] at hs
  · intro h
    rw [DiskSpillStore.readLinesLocked_of_legible fun _ => h]
    exact ⟨_, rfl⟩

/-- What `EngineLocalConfig.load` returns has all required fields. -/
theorem localConfig_load_iff :
    (∃ config, EngineLocalConfig.load loads file = .ok config ∧
      ∀ payload, config = some payload → EngineLocalConfig.HasFields payload) ↔
      Decodes loads file := by
  constructor
  · rintro ⟨config, hload, -⟩
    refine not_not.mp fun hnot => ?_
    obtain ⟨e, he⟩ := decodeFile_of_not_decodes hnot
    simp only [EngineLocalConfig.load, he, bind, Except.bind, reduceCtorEq] at hload
  · intro h
    obtain ⟨document, hdecode⟩ : ∃ document, decodeFile loads file = .ok document :=
      h.decodeFile.elim (fun ⟨_, payload, _, _, hdecode⟩ => ⟨some payload, hdecode⟩)
        fun hdecode => ⟨none, hdecode⟩
    simp only [EngineLocalConfig.load, hdecode, bind, Except.bind]
    split
    · next entries =>
      refine ⟨_, rfl, fun payload hpayload => ?_⟩
      split at hpayload
      · next hfields =>
        obtain rfl : entries = payload := Option.some.inj hpayload
        exact hfields
      · simp at hpayload
    · exact ⟨none, rfl, fun payload hpayload => by simp at hpayload⟩

end loaders

/-! ## Starting up -/

/-- The settings of the two stores. -/
structure StateSettings where
  maxCommandIds : Option ℤ
  /-- `SMARTIDS_PROCESSED_COMMAND_MAX_IDS`. -/
  maxIdsVariable : Option String
  maxEntries : ℤ

/-- The three files, by content. -/
structure StateFiles where
  commands : File
  spill : File
  config : File

variable {repr : Json → String} {loads : JsonLoads}

/-- Everything that reads a state file returns, and what it holds is in order. -/
structure StartsUp (repr : Json → String) (loads : JsonLoads) (settings : StateSettings)
    (files : StateFiles) : Prop where
  commands : ∃ s : ProcessedCommandStore repr,
    commandStoreOf loads settings.maxCommandIds settings.maxIdsVariable files.commands = .ok s ∧
      ProcessedCommandStore.Tidy s.commandIds ∧ s.commandIds.length ≤ s.maxCommandIds ∧
      s.maxCommandIds = (positiveInt settings.maxCommandIds settings.maxIdsVariable 10000).toNat
  spill : ∃ s, DiskSpillStore.init .working settings.maxEntries files.spill = .ok s
  config : ∃ config, EngineLocalConfig.load loads files.config = .ok config ∧
    ∀ payload, config = some payload → EngineLocalConfig.HasFields payload

/-- The contents that keep the engine from starting: bytes that are not UTF-8,
texts on which `json.loads` raises no decode error, and ids that cannot be
iterated. -/
structure ReadableFiles (loads : JsonLoads) (files : StateFiles) : Prop where
  commands : ReadableCommands loads files.commands
  spill : IsText files.spill
  config : Decodes loads files.config

theorem startsUp_iff (settings : StateSettings) (files : StateFiles) :
    StartsUp repr loads settings files ↔ ReadableFiles loads files := by
  constructor
  · rintro ⟨⟨s, hs, -, -, hmax⟩, hspill, hconfig⟩
    exact ⟨(commandStoreOf_returns_iff _ _).mp ⟨s, hs, hmax⟩, (spillStore_returns_iff _).mp hspill,
      localConfig_load_iff.mp hconfig⟩
  · rintro ⟨hcommands, hspill, hconfig⟩
    obtain ⟨s, hs, hmax⟩ := (commandStoreOf_returns_iff _ _).mpr hcommands
    exact ⟨⟨s, hs, s.tidy, s.length_le, hmax⟩, (spillStore_returns_iff _).mpr hspill,
      localConfig_load_iff.mpr hconfig⟩

/-- A file of the single byte `0xff`. -/
def notText : File := some ⟨#[0xff]⟩

theorem not_startsUp_of_notText :
    ¬ ∀ (loads : JsonLoads) (settings : StateSettings) (files : StateFiles),
      StartsUp (fun _ => "") loads settings files := by
  intro hall
  have hstarts := hall (fun _ => .error .jsonDecodeError) ⟨none, none, 2000⟩
    ⟨notText, notText, notText⟩
  have htext : IsText notText := (spillStore_returns_iff _).mp hstarts.spill
  exact absurd htext (by decide)

end SmartIDS.PacketCapture
