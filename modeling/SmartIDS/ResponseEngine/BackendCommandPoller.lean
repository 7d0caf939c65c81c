import SmartIDS.PacketCapture.StateFiles
set_option autoImplicit false

/-!
# ResponseEngine: the command poller

`response_engine/backend_command_poller.py`: what `poll_commands` makes of the
response to `GET /engine-commands`, and the bodies a backend may answer with.
The poller looks for the list at the top of the document; in the success envelope
it stands under `data`.
-/

namespace SmartIDS.ResponseEngine

open SmartIDS.Python SmartIDS.PacketCapture

/-! ## Polling -/

/-- What `urlopen` returns; for an error status it raises `HTTPError`. -/
structure HttpResponse where
  status : ℤ
  body : ByteArray

/-- A status `2xx`. -/
def HttpResponse.Succeeded (response : HttpResponse) : Prop :=
  200 ≤ response.status ∧ response.status < 300

instance (response : HttpResponse) : Decidable response.Succeeded :=
  inferInstanceAs (Decidable (_ ∧ _))

/-- `body.decode("utf-8")`. -/
def decodeUtf8 (body : ByteArray) : Except PyError String :=
  match String.fromUTF8? body with
  | some text => .ok text
  | none => .error .unicodeDecodeError

/-- What the `except` clause of `poll_commands` names: `URLError` and `TimeoutError`
are below `OSError`, the decoding errors below `ValueError`. -/
def Caught (e : PyError) : Prop :=
  e = .valueError ∨ e = .osError ∨ e = .jsonDecodeError ∨ e = .unicodeDecodeError

instance (e : PyError) : Decidable (Caught e) := inferInstanceAs (Decidable (_ ∨ _))

namespace BackendCommandPoller

/-- `[item for item in items if isinstance(item, dict)]`. -/
def objects (items : List Json) : List JsonObject :=
  items.filterMap fun item =>
    match item with
    | .obj entries => some entries
    | _ => none

/-- The objects of a list; of anything else, none. -/
def listed : Json → List JsonObject
  | .arr items => objects items
  | _ => []

/-- The commands in a document. -/
def commandsOf : Json → List JsonObject
  | .obj entries => listed (JsonObject.getD entries "commands" (.arr []))
  | json => listed json

/-- The `try` block: the document, or nothing where the status is no success. -/
def readPayload (loads : JsonLoads) (fetched : Except PyError HttpResponse) :
    Except PyError (Option Json) := do
  let response ← fetched
  if response.Succeeded then
    let text ← decodeUtf8 response.body
    return some (← loads text)
  else return none

/-- `poll_commands`, over what `urlopen` comes to. -/
def pollCommands (loads : JsonLoads) (fetched : Except PyError HttpResponse) :
    Except PyError (List JsonObject) :=
  match readPayload loads fetched with
  | .ok none => .ok []
  | .ok (some payload) => .ok (commandsOf payload)
  | .error e => if Caught e then .ok [] else .error e

section Polling

variable {loads : JsonLoads} {response : HttpResponse} (hstatus : response.Succeeded)
include hstatus

theorem pollCommands_of_undecodable (htext : String.fromUTF8? response.body = none) :
    pollCommands loads (.ok response) = .ok [] := by
  have hread : readPayload loads (.ok response) = .error .unicodeDecodeError := by
    simp only [readPayload, bind, Except.bind, if_pos hstatus, decodeUtf8, htext]
  unfold pollCommands
  rw [hread]
  rfl

variable {text : String} (htext : String.fromUTF8? response.body = some text)
include htext

theorem pollCommands_of_loads {json : Json} (hloads : loads text = .ok json) :
    pollCommands loads (.ok response) = .ok (commandsOf json) := by
  have hread : readPayload loads (.ok response) = .ok (some json) := by
    simp only [readPayload, bind, Except.bind, if_pos hstatus, decodeUtf8, htext, hloads]
    rfl
  unfold pollCommands
  rw [hread]

theorem pollCommands_of_raises {e : PyError} (hloads : loads text = .error e) :
    pollCommands loads (.ok response) = if Caught e then .ok [] else .error e := by
  have hread : readPayload loads (.ok response) = .error e := by
    simp only [readPayload, bind, Except.bind, if_pos hstatus, decodeUtf8, htext, hloads]
  unfold pollCommands
  rw [hread]

end Polling

/-! ## The bodies of the API -/

/-- The forms in which a body carries a list of commands. -/
inductive Shape where
  /-- `{"success": true, "message": …, "data": {"commands": […]}, "meta": …}` -/
  | envelope
  /-- `[…]` -/
  | bare
  /-- `{"commands": […]}` -/
  | direct
  deriving DecidableEq

/-- The success envelope of the API, its fields in any order. -/
def IsEnvelope (data : Json) (entries : JsonObject) : Prop :=
  ∃ message info, entries.Perm
    [("success", .bool true), ("message", .str message), ("data", data), ("meta", info)]

/-- The error envelope of the API, its fields in any order. -/
def IsErrorEnvelope (entries : JsonObject) : Prop :=
  ∃ message errorCode details info, entries.Perm
    [("success", .bool false), ("message", .str message), ("error_code", .str errorCode),
      ("details", details), ("meta", info)]

/-- A document that carries a list, in one of the forms. -/
def Carries (items : List Json) : Shape → Json → Prop
  | .envelope, .obj entries => IsEnvelope (.obj [("commands", .arr items)]) entries
  | .bare, json => json = .arr items
  | .direct, json => json = .obj [("commands", .arr items)]
  | .envelope, _ => False

/-- A list stands under a key. -/
def HoldsList (key : String) (entries : JsonObject) : Prop :=
  ∃ items, (key, Json.arr items) ∈ entries

/-- A document without a list of commands: none at the top, none under `commands`,
none under `data.commands`. -/
def CarriesNone : Json → Prop
  | .arr _ => False
  | .obj entries => ¬ HoldsList "commands" entries ∧
      ∀ data, ("data", Json.obj data) ∈ entries → ¬ HoldsList "commands" data
  | _ => True

/-- What `get` returns stands in the object, or is the default. -/
theorem getD_mem_or (entries : JsonObject) (key : String) (default : Json) :
    (key, JsonObject.getD entries key default) ∈ entries ∨
      JsonObject.getD entries key default = default := by
  unfold JsonObject.getD
  cases hlookup : entries.reverse.lookup key with
  | none => exact Or.inr rfl
  | some value =>
    obtain ⟨before, after, hsplit, -⟩ := List.lookup_eq_some_iff.mp hlookup
    left
    rw [← List.mem_reverse, hsplit]
    exact List.mem_append_right _ List.mem_cons_self

theorem commandsOf_of_not_holdsList {entries : JsonObject} (h : ¬ HoldsList "commands" entries) :
    commandsOf (.obj entries) = [] := by
  rw [commandsOf]
  rcases getD_mem_or entries "commands" (.arr []) with hmem | hdefault
  · cases hvalue : JsonObject.getD entries "commands" (.arr []) with
    | arr items =>
      rw [hvalue] at hmem
      exact absurd ⟨items, hmem⟩ h
    | _ => rfl
  · rw [hdefault]
    rfl

/-- The poller finds nothing in the success envelope. -/
theorem commandsOf_envelope {data : Json} {entries : JsonObject} (h : IsEnvelope data entries) :
    commandsOf (.obj entries) = [] := by
  apply commandsOf_of_not_holdsList
  rintro ⟨items, hmem⟩
  obtain ⟨message, info, hperm⟩ := h
  have hkey : "commands" ∈ ["success", "message", "data", "meta"] :=
    List.mem_map_of_mem (f := Prod.fst) (hperm.mem_iff.mp hmem)
  exact absurd hkey (by decide)

theorem commandsOf_of_carriesNone {json : Json} (h : CarriesNone json) : commandsOf json = [] := by
  cases json with
  | arr items => exact h.elim
  | obj entries => exact commandsOf_of_not_holdsList h.1
  | _ => rfl

/-- The error envelope carries no list, whatever its details. -/
theorem carriesNone_of_isErrorEnvelope {entries : JsonObject} (h : IsErrorEnvelope entries) :
    CarriesNone (.obj entries) := by
  obtain ⟨message, errorCode, details, info, hperm⟩ := h
  have hnot : ∀ key value, (key, value) ∈ entries →
      key ∈ ["success", "message", "error_code", "details", "meta"] := fun key value hmem =>
    List.mem_map_of_mem (f := Prod.fst) (hperm.mem_iff.mp hmem)
  refine ⟨?_, fun data hmem => ?_⟩
  · rintro ⟨items, hmem⟩
    exact absurd (hnot _ _ hmem) (by decide)
  · exact absurd (hnot _ _ hmem) (by decide)

/-- What the poller makes of a document that carries a list. -/
theorem commandsOf_of_carries {items : List Json} {shape : Shape} {json : Json}
    (h : Carries items shape json) :
    commandsOf json = if shape = .envelope then [] else objects items := by
  cases shape with
  | envelope =>
    cases json with
    | obj entries => exact commandsOf_envelope h
    | _ => exact h.elim
  | bare =>
    obtain rfl : json = .arr items := h
    rfl
  | direct =>
    obtain rfl : json = .obj [("commands", .arr items)] := h
    rfl

end BackendCommandPoller

end SmartIDS.ResponseEngine
