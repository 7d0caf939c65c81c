import SmartIDS.Foundation.AtomicReplace
import SmartIDS.PacketCapture.StateFiles
import SmartIDS.Python.JsonNormalForm
set_option autoImplicit false

/-!
# Packet capture: the state files the engine writes

`ProcessedCommandStore._save` and `EngineLocalConfig.save` write their document to a
sibling file and rename it.  How far a save comes is an input, so that a full disk
and a process killed in the middle of a save are runs like any other.
-/

namespace SmartIDS.PacketCapture

open SmartIDS.Foundation SmartIDS.Python SmartIDS.ResponseEngine

/-- `temp_path.write_text(json.dumps(payload, ensure_ascii=True), encoding="utf-8")`
and `temp_path.replace(path)`.  Nothing is opened where `json.dumps` raises. -/
def saveJson (floats : FloatText) (depth : ℕ) (payload : Json) (how : Replacing ByteArray) :
    Effect PyError (Renamed ByteArray) Unit := do
  let text ← Effect.ofExcept (dumps floats depth payload)
  Effect.modify fun s => s.save text.toUTF8 how
  match how with
  | .renamed => pure ()
  | _ => Effect.ofExcept (.error .osError)

section json

variable {floats : FloatText} {depth depth' : ℕ}

/-- What was written is read back, character by character. -/
theorem readText_of_printable {text : String} (h : Printable text) :
    readText (some text.toUTF8) = .ok text := by
  have hreturn : '\r' ∉ text.toList := fun hmem => absurd (h _ hmem).1 (by decide)
  rw [readText_toUTF8, TextLines.universal_of_notMem hreturn, String.ofList_toList]

theorem decodeFile_of_dumps (hdepth : depth ≤ depth') {payload : Json} {text : String}
    (h : dumps floats depth payload = .ok text) (hproper : payload.Proper floats) :
    decodeFile (loads floats depth') (some text.toUTF8) = .ok (some payload) := by
  unfold decodeFile
  rw [readText_of_printable (printable_dumps h hproper)]
  simp only [bind, Except.bind, loads_dumps hdepth h hproper]

theorem saveJson_of_dumps {payload : Json} {text : String}
    (h : dumps floats depth payload = .ok text) (how : Replacing ByteArray)
    (s : Renamed ByteArray) :
    saveJson floats depth payload how s =
      (match how with
        | .renamed => .ok ()
        | _ => .error .osError, s.save text.toUTF8 how) := by
  unfold saveJson
  rw [h]
  cases how <;> rfl

/-- A document that is not written changes nothing. -/
theorem saveJson_of_error {payload : Json} {e : PyError} (h : dumps floats depth payload = .error e)
    (how : Replacing ByteArray) (s : Renamed ByteArray) :
    saveJson floats depth payload how s = (.error e, s) := by
  unfold saveJson
  rw [h]
  rfl

/-- Behind a save the file holds the new document or is the old one. -/
theorem file_saveJson {payload : Json} {text : String} (h : dumps floats depth payload = .ok text)
    (how : Replacing ByteArray) (s : Renamed ByteArray) :
    (how = .renamed ∧ (saveJson floats depth payload how s).1 = .ok () ∧
        (saveJson floats depth payload how s).2.file = some text.toUTF8) ∨
      (how ≠ .renamed ∧ (saveJson floats depth payload how s).1 = .error .osError ∧
        (saveJson floats depth payload how s).2.file = s.file) := by
  rw [saveJson_of_dumps h]
  cases how with
  | renamed => exact Or.inl ⟨rfl, rfl, rfl⟩
  | refused => exact Or.inr ⟨by simp, rfl, rfl⟩
  | torn part => exact Or.inr ⟨by simp, rfl, rfl⟩
  | unrenamed => exact Or.inr ⟨by simp, rfl, rfl⟩

end json

/-! ## The processed command store -/

/-- `ProcessedCommandStore` over the bytes of its file. -/
structure SavedCommands where
  maxCommandIds : ℕ
  commandIds : List String
  disk : Renamed ByteArray
  maxCommandIds_pos : 0 < maxCommandIds

namespace SavedCommands

variable (floats : FloatText) (depth : ℕ) (repr : Json → String)

/-- `_save`. -/
def save (how : Replacing ByteArray) : Effect PyError SavedCommands Unit := do
  let s ← Effect.get
  Effect.zoom disk (fun disk s => { s with disk := disk })
    (saveJson floats depth (ProcessedCommandStore.document s.commandIds) how)

/-- `add`. -/
def add (commandId : String) (how : Replacing ByteArray) : Effect PyError SavedCommands Unit := do
  let s ← Effect.get
  let normalized := strip commandId
  if normalized = "" ∨ normalized ∈ s.commandIds then return ()
  Effect.modify fun s =>
    { s with commandIds := BoundedFifo.newest s.maxCommandIds (s.commandIds ++ [normalized]) }
  save floats depth how

/-- `__init__` over the file a process left behind. -/
def reopen (s : SavedCommands) : Except PyError SavedCommands := do
  let payload ← decodeFile (loads floats depth) s.disk.file
  let ids ← ProcessedCommandStore.load repr s.maxCommandIds payload
  return { s with commandIds := ids }

/-- What happens to a store; a process may end at any point, in the middle of a save
that is not renamed as well. -/
inductive Event where
  | add (commandId : String) (how : Replacing ByteArray)
  | restart

/-- The store over its lifetime.  A process that cannot read the file does not come up. -/
def lifetime : Machine SavedCommands Event (Except PyError Unit) where
  step s
    | .add commandId how => ((add floats depth commandId how s).2, (add floats depth commandId how s).1)
    | .restart =>
      match reopen floats depth repr s with
      | .ok t => (t, .ok ())
      | .error e => (s, .error e)

/-! ## What the store is for -/

/-- The ids a store knows, and those it would know after a restart. -/
structure Memory where
  known : List String
  saved : List String

/-- An id is learnt at once, and everything known is saved by a save that renames. -/
def Memory.next (maxCommandIds : ℕ) (m : Memory) : Event → Memory
  | .add commandId how =>
    let normalized := strip commandId
    if normalized = "" ∨ normalized ∈ m.known then m
    else
      let known := BoundedFifo.newest maxCommandIds (m.known ++ [normalized])
      match how with
      | .renamed => ⟨known, known⟩
      | _ => ⟨known, m.saved⟩
  | .restart => ⟨m.saved, m.saved⟩

/-- Two lists of ids over their lifetime. -/
def memories (maxCommandIds : ℕ) : Machine Memory Event Unit where
  step m e := (m.next maxCommandIds e, ())

theorem memories_step (maxCommandIds : ℕ) (m : Memory) (e : Event) :
    ((memories maxCommandIds).step m e).1 = m.next maxCommandIds e := rfl

/-- The store holds these ids, and its file those. -/
structure Holds (s : SavedCommands) (m : Memory) : Prop where
  known : s.commandIds = m.known
  tidy : ProcessedCommandStore.Tidy m.known
  length_le : m.known.length ≤ s.maxCommandIds
  saved : ∃ payload, decodeFile (loads floats depth) s.disk.file = .ok payload ∧
    ProcessedCommandStore.load repr s.maxCommandIds payload = .ok m.saved

section holds

variable {floats : FloatText} {depth : ℕ} {repr : Json → String} {s : SavedCommands} {m : Memory}

variable (floats) in
theorem proper_document (ids : List String) :
    (ProcessedCommandStore.document ids).Proper floats := by
  refine .obj (by simp) fun entry hentry => ?_
  obtain rfl := List.mem_singleton.mp hentry
  refine .arr fun item hitem => ?_
  obtain ⟨id, -, rfl⟩ := List.mem_map.mp hitem
  exact .str id

variable (floats) in
/-- Ids can always be dumped: two levels are enough. -/
theorem exists_dumps_document (hdepth : 2 ≤ depth) (ids : List String) :
    ∃ text, dumps floats depth (ProcessedCommandStore.document ids) = .ok text := by
  obtain ⟨depth, rfl⟩ : ∃ k, depth = k + 2 := ⟨depth - 2, by omega⟩
  have hitem : ∀ item ∈ ids.map Json.str, Decoded floats depth item := by
    intro item hmem
    obtain ⟨id, -, rfl⟩ := List.mem_map.mp hmem
    exact ⟨.str id, jsonString id, by simp only [dumps]⟩
  have hdocument : Decoded floats (depth + 2) (ProcessedCommandStore.document ids) := by
    refine decoded_obj (by simp) fun entry hentry => ?_
    obtain rfl := List.mem_singleton.mp hentry
    exact decoded_arr hitem
  exact hdocument.written

theorem Holds.reopen (h : Holds floats depth repr s m) :
    reopen floats depth repr s = .ok { s with commandIds := m.saved } := by
  obtain ⟨payload, hdecode, hload⟩ := h.saved
  simp only [SavedCommands.reopen, hdecode, hload, bind, Except.bind, pure, Except.pure]

/-- The file a store starts from decides what both lists are. -/
theorem holds_of_reopen {t : SavedCommands} (h : SavedCommands.reopen floats depth repr s = .ok t) :
    Holds floats depth repr t ⟨t.commandIds, t.commandIds⟩ := by
  obtain ⟨payload, hdecode, h⟩ := bind_eq_ok_iff.mp h
  obtain ⟨ids, hload, h⟩ := bind_eq_ok_iff.mp h
  obtain rfl := Except.ok.inj h
  obtain ⟨htidy, hlen⟩ := ProcessedCommandStore.load_tidy hload
  exact ⟨rfl, htidy, hlen, payload, hdecode, hload⟩

/-- What was saved is tidy as well. -/
theorem Holds.saved_tidy (h : Holds floats depth repr s m) :
    ProcessedCommandStore.Tidy m.saved ∧ m.saved.length ≤ s.maxCommandIds := by
  obtain ⟨payload, -, hload⟩ := h.saved
  exact ProcessedCommandStore.load_tidy hload

theorem add_of_known {commandId : String} (how : Replacing ByteArray)
    (h : strip commandId = "" ∨ strip commandId ∈ s.commandIds) :
    add floats depth commandId how s = (.ok (), s) := by
  unfold SavedCommands.add
  rw [Effect.bind_apply, Effect.get_apply]
  simp only [if_pos h]
  rfl

/-- An id that is new is in memory whatever becomes of the save. -/
theorem add_of_fresh {commandId : String} (how : Replacing ByteArray)
    (h : ¬ (strip commandId = "" ∨ strip commandId ∈ s.commandIds)) :
    add floats depth commandId how s =
      let ids := BoundedFifo.newest s.maxCommandIds (s.commandIds ++ [strip commandId])
      let saved := saveJson floats depth (ProcessedCommandStore.document ids) how s.disk
      (saved.1, { s with commandIds := ids, disk := saved.2 }) := by
  unfold SavedCommands.add
  rw [Effect.bind_apply, Effect.get_apply]
  simp only [if_neg h]
  rfl

theorem Holds.add (hdepth : 2 ≤ depth) (h : Holds floats depth repr s m) (commandId : String)
    (how : Replacing ByteArray) :
    Holds floats depth repr (add floats depth commandId how s).2
        (m.next s.maxCommandIds (.add commandId how)) ∧
      (add floats depth commandId how s).2.maxCommandIds = s.maxCommandIds := by
  by_cases hskip : strip commandId = "" ∨ strip commandId ∈ s.commandIds
  · have hnext : m.next s.maxCommandIds (.add commandId how) = m := if_pos (h.known ▸ hskip)
    rw [add_of_known how hskip, hnext]
    exact ⟨h, rfl⟩
  · obtain ⟨hblank, hfresh⟩ := not_or.mp hskip
    have htidy := (h.tidy.append (strip_strip commandId) hblank (h.known ▸ hfresh)).sublist
      (BoundedFifo.newest_suffix s.maxCommandIds _).sublist
    have hlen := BoundedFifo.length_newest_le s.maxCommandIds (m.known ++ [strip commandId])
    obtain ⟨text, htext⟩ := exists_dumps_document floats hdepth
      (BoundedFifo.newest s.maxCommandIds (m.known ++ [strip commandId]))
    have hproper := proper_document floats
      (BoundedFifo.newest s.maxCommandIds (m.known ++ [strip commandId]))
    have hdecode := decodeFile_of_dumps le_rfl htext hproper
    have hload := ProcessedCommandStore.load_document repr htidy hlen
    obtain ⟨payload, hpayload, hsaved⟩ := h.saved
    rw [add_of_fresh how hskip, h.known]
    rw [h.known] at hskip
    refine ⟨?_, rfl⟩
    rcases file_saveJson htext how s.disk with ⟨rfl, -, hfile⟩ | ⟨hhow, -, hfile⟩
    · have hnext : m.next s.maxCommandIds (.add commandId .renamed) =
          ⟨BoundedFifo.newest s.maxCommandIds (m.known ++ [strip commandId]),
            BoundedFifo.newest s.maxCommandIds (m.known ++ [strip commandId])⟩ := if_neg hskip
      rw [hnext]
      exact ⟨rfl, htidy, hlen, _, by rw [hfile]; exact hdecode, hload⟩
    · have hnext : m.next s.maxCommandIds (.add commandId how) =
          ⟨BoundedFifo.newest s.maxCommandIds (m.known ++ [strip commandId]), m.saved⟩ := by
        refine (if_neg hskip).trans ?_
        cases how <;> first | rfl | exact absurd rfl hhow
      rw [hnext]
      exact ⟨rfl, htidy, hlen, payload, by rw [hfile]; exact hpayload, hsaved⟩

theorem lifetime_add (commandId : String) (how : Replacing ByteArray) :
    ((lifetime floats depth repr).step s (.add commandId how)).1 =
      (add floats depth commandId how s).2 := by
  simp only [lifetime]

theorem lifetime_restart :
    ((lifetime floats depth repr).step s .restart).1 =
      (SavedCommands.reopen floats depth repr s).toOption.getD s := by
  simp only [lifetime]
  cases SavedCommands.reopen floats depth repr s with
  | ok t => rfl
  | error e => rfl

theorem Holds.step (hdepth : 2 ≤ depth) (h : Holds floats depth repr s m) (e : Event) :
    Holds floats depth repr ((lifetime floats depth repr).step s e).1 (m.next s.maxCommandIds e) ∧
      ((lifetime floats depth repr).step s e).1.maxCommandIds = s.maxCommandIds := by
  cases e with
  | add commandId how =>
    rw [lifetime_add]
    exact h.add hdepth commandId how
  | restart =>
    have hstep : ((lifetime floats depth repr).step s .restart).1 =
        { s with commandIds := m.saved } := by
      rw [lifetime_restart, h.reopen]
      rfl
    rw [hstep]
    obtain ⟨htidy, hlen⟩ := h.saved_tidy
    exact ⟨⟨rfl, htidy, hlen, h.saved⟩, rfl⟩

theorem Holds.exec (hdepth : 2 ≤ depth) (h : Holds floats depth repr s m) (es : List Event) :
    Holds floats depth repr ((lifetime floats depth repr).exec s es)
      ((memories s.maxCommandIds).exec m es) := by
  induction es generalizing s m with
  | nil => exact h
  | cons e es ih =>
    obtain ⟨hnext, hsame⟩ := h.step hdepth e
    have hrest := ih hnext
    rw [hsame] at hrest
    exact hrest

/-- Whatever becomes of the saves, the store knows what it was told, and a restart
finds what it knew at the last save that was renamed. -/
theorem restart_finds_saved (hdepth : 2 ≤ depth) {t : SavedCommands}
    (hopen : SavedCommands.reopen floats depth repr s = .ok t) (es : List Event) :
    ((lifetime floats depth repr).exec t es).commandIds =
        ((memories t.maxCommandIds).exec ⟨t.commandIds, t.commandIds⟩ es).known ∧
      SavedCommands.reopen floats depth repr ((lifetime floats depth repr).exec t es) =
        .ok { (lifetime floats depth repr).exec t es with
          commandIds := ((memories t.maxCommandIds).exec ⟨t.commandIds, t.commandIds⟩ es).saved } := by
  have h := (holds_of_reopen hopen).exec hdepth es
  exact ⟨h.known, h.reopen⟩

end holds

theorem restart_finds_saved_of_torn :
    let t : SavedCommands := ⟨3, [], ⟨none, none⟩, by decide⟩
    let es : List Event := [.add "a" .renamed, .add "b" (.torn ⟨#[0x7b]⟩), .restart]
    ((lifetime integralFloats 2 fun _ => "").exec t es).commandIds =
        ((memories 3).exec ⟨[], []⟩ es).known ∧
      SavedCommands.reopen integralFloats 2 (fun _ => "")
          ((lifetime integralFloats 2 fun _ => "").exec t es) =
        .ok { (lifetime integralFloats 2 fun _ => "").exec t es with
          commandIds := ((memories 3).exec ⟨[], []⟩ es).saved } :=
  restart_finds_saved le_rfl (s := ⟨3, [], ⟨none, none⟩, by decide⟩) rfl _

/-! ## A command that was saved is not forgotten -/

/-- The id that is added; `add` ignores a blank one. -/
def addedId : Event → Option String
  | .add commandId _ => if strip commandId = "" then none else some (strip commandId)
  | .restart => none

/-- The ids that are added. -/
def addedIds (es : List Event) : Finset String := (es.filterMap addedId).toFinset

theorem addedIds_append (es es' : List Event) :
    addedIds (es ++ es') = addedIds es ∪ addedIds es' := by
  unfold addedIds
  rw [List.filterMap_append, List.toFinset_append]

/-- Both lists hold the id, with nothing newer than what came since. -/
structure Memory.Remembers (id : String) (since : Finset String) (m : Memory) : Prop where
  known_nodup : m.known.Nodup
  saved_nodup : m.saved.Nodup
  known : BoundedFifo.Holds id since m.known
  saved : BoundedFifo.Holds id since m.saved

theorem Memory.Remembers.mono {id : String} {since since' : Finset String} {m : Memory}
    (h : m.Remembers id since) (hle : since ⊆ since') : m.Remembers id since' :=
  ⟨h.known_nodup, h.saved_nodup, h.known.mono hle, h.saved.mono hle⟩

theorem Memory.Remembers.next {id : String} {since : Finset String} {m : Memory}
    {maxCommandIds : ℕ} (h : m.Remembers id since) (e : Event)
    (hcard : ((addedIds [e] ∪ since).erase id).card < maxCommandIds) :
    (m.next maxCommandIds e).Remembers id (addedIds [e] ∪ since) := by
  cases e with
  | restart => exact ⟨h.saved_nodup, h.saved_nodup, h.saved.mono (by simp), h.saved.mono (by simp)⟩
  | add commandId how =>
    by_cases hskip : strip commandId = "" ∨ strip commandId ∈ m.known
    · rw [show m.next maxCommandIds (.add commandId how) = m from if_pos hskip]
      exact h.mono Finset.subset_union_right
    · obtain ⟨hblank, hfresh⟩ := not_or.mp hskip
      have hadded : addedIds [.add commandId how] ∪ since = insert (strip commandId) since := by
        simp [addedIds, addedId, hblank]
      rw [hadded] at hcard ⊢
      have hpush := h.known.push h.known_nodup hcard
      have hnodup : (BoundedFifo.push maxCommandIds m.known (strip commandId)).Nodup :=
        BoundedFifo.nodup_push h.known_nodup _
      rw [BoundedFifo.push_of_notMem hfresh] at hpush hnodup
      have hsaved := h.saved.mono (Finset.subset_insert (strip commandId) since)
      have hnext : m.next maxCommandIds (.add commandId how) = _ := if_neg hskip
      rw [hnext]
      cases how with
      | renamed => exact ⟨hnodup, hnodup, hpush, hpush⟩
      | refused => exact ⟨hnodup, h.saved_nodup, hpush, hsaved⟩
      | torn part => exact ⟨hnodup, h.saved_nodup, hpush, hsaved⟩
      | unrenamed => exact ⟨hnodup, h.saved_nodup, hpush, hsaved⟩

theorem Memory.Remembers.exec {id : String} {since : Finset String} {m : Memory}
    {maxCommandIds : ℕ} (h : m.Remembers id since) (es : List Event)
    (hcard : ((addedIds es ∪ since).erase id).card < maxCommandIds) :
    ((memories maxCommandIds).exec m es).Remembers id (addedIds es ∪ since) := by
  induction es generalizing m since with
  | nil => exact h.mono (by simp)
  | cons e es ih =>
    have hsplit : addedIds (e :: es) ∪ since = addedIds es ∪ (addedIds [e] ∪ since) := by
      rw [show e :: es = [e] ++ es from rfl, addedIds_append, Finset.union_left_comm,
        Finset.union_assoc]
    rw [hsplit] at hcard ⊢
    refine ih (h.next e (lt_of_le_of_lt (Finset.card_le_card ?_) hcard)) hcard
    exact Finset.erase_subset_erase id Finset.subset_union_right

/-- The moment of the save. -/
theorem Memory.remembers_self {m : Memory} {commandId : String} {maxCommandIds : ℕ}
    (hmax : 0 < maxCommandIds) (hnodup : m.known.Nodup) (hblank : strip commandId ≠ "")
    (hfresh : strip commandId ∉ m.known) :
    (m.next maxCommandIds (.add commandId .renamed)).Remembers (strip commandId) ∅ := by
  have hholds : BoundedFifo.Holds (strip commandId) ∅
      (BoundedFifo.push maxCommandIds m.known (strip commandId)) :=
    BoundedFifo.holds_push_self hmax hfresh
  have hpush : (BoundedFifo.push maxCommandIds m.known (strip commandId)).Nodup :=
    BoundedFifo.nodup_push hnodup _
  rw [BoundedFifo.push_of_notMem hfresh] at hholds hpush
  have hnext : m.next maxCommandIds (.add commandId .renamed) = _ :=
    if_neg (not_or.mpr ⟨hblank, hfresh⟩)
  rw [hnext]
  exact ⟨hpush, hpush, hholds, hholds⟩

/-- What is known or saved was so before, or was added. -/
theorem Memory.mem_next {m : Memory} {maxCommandIds : ℕ} {e : Event} {id : String}
    (h : id ∈ (m.next maxCommandIds e).known ∨ id ∈ (m.next maxCommandIds e).saved) :
    id ∈ m.known ∨ id ∈ m.saved ∨ id ∈ addedIds [e] := by
  cases e with
  | restart => exact Or.inr (Or.inl (h.elim (fun h => h) fun h => h))
  | add commandId how =>
    by_cases hskip : strip commandId = "" ∨ strip commandId ∈ m.known
    · rw [show m.next maxCommandIds (.add commandId how) = m from if_pos hskip] at h
      exact h.imp_right Or.inl
    · have hnewest : ∀ x ∈ BoundedFifo.newest maxCommandIds (m.known ++ [strip commandId]),
          x ∈ m.known ∨ x ∈ addedIds [.add commandId how] := by
        intro x hx
        rcases List.mem_append.mp ((BoundedFifo.newest_suffix _ _).subset hx) with hx | hx
        · exact Or.inl hx
        · simp [addedIds, addedId, (not_or.mp hskip).1, List.mem_singleton.mp hx]
      have hnext : m.next maxCommandIds (.add commandId how) = _ := if_neg hskip
      rw [hnext] at h
      cases how with
      | renamed => exact (hnewest id (h.elim (fun h => h) fun h => h)).imp_right Or.inr
      | refused => exact h.elim (fun h => (hnewest id h).imp_right Or.inr) fun h => Or.inr (Or.inl h)
      | torn part => exact h.elim (fun h => (hnewest id h).imp_right Or.inr) fun h => Or.inr (Or.inl h)
      | unrenamed => exact h.elim (fun h => (hnewest id h).imp_right Or.inr) fun h => Or.inr (Or.inl h)

theorem Memory.mem_exec {m : Memory} {maxCommandIds : ℕ} {es : List Event} {id : String}
    (h : id ∈ ((memories maxCommandIds).exec m es).known ∨
      id ∈ ((memories maxCommandIds).exec m es).saved) :
    id ∈ m.known ∨ id ∈ m.saved ∨ id ∈ addedIds es := by
  induction es generalizing m with
  | nil => exact h.imp_right Or.inl
  | cons e es ih =>
    have hsplit : addedIds (e :: es) = addedIds [e] ∪ addedIds es := addedIds_append [e] es
    rw [hsplit, Finset.mem_union]
    rcases ih h with hknown | hsaved | hadded
    · rcases mem_next (Or.inl hknown) with h | h | h <;> tauto
    · rcases mem_next (Or.inr hsaved) with h | h | h <;> tauto
    · exact Or.inr (Or.inr (Or.inr hadded))

/-- Behind a save that was renamed, both lists hold the id until `max_command_ids` others
have been added. -/
theorem remembers_of_saved {floats : FloatText} {depth : ℕ} {repr : Json → String}
    (hdepth : 2 ≤ depth) {s t : SavedCommands} (hopen : reopen floats depth repr s = .ok t)
    (before after : List Event) {commandId : String} (hblank : strip commandId ≠ "")
    (hfresh : strip commandId ∉ ((lifetime floats depth repr).exec t before).commandIds)
    (hfew : ((addedIds after).erase (strip commandId)).card < t.maxCommandIds) :
    ∃ m : Memory, Holds floats depth repr
        ((lifetime floats depth repr).exec t (before ++ .add commandId .renamed :: after)) m ∧
      m.Remembers (strip commandId) (addedIds after) := by
  have hbefore := (holds_of_reopen hopen).exec hdepth before
  have hall := (holds_of_reopen hopen).exec hdepth (before ++ .add commandId .renamed :: after)
  rw [hbefore.known] at hfresh
  have hself := Memory.remembers_self t.maxCommandIds_pos hbefore.tidy.nodup hblank hfresh
  have hremembers := hself.exec after (by rwa [Finset.union_empty])
  rw [(memories t.maxCommandIds).exec_append, Machine.exec_cons, memories_step] at hall
  rw [Finset.union_empty] at hremembers
  exact ⟨_, hall, hremembers⟩

/-- An id whose save was renamed is known until `max_command_ids` others have been
added, through any later saves that fail and any restarts. -/
theorem saved_command_remembered {floats : FloatText} {depth : ℕ} {repr : Json → String}
    (hdepth : 2 ≤ depth) {s t : SavedCommands} (hopen : reopen floats depth repr s = .ok t)
    (before after : List Event) {commandId : String} (hblank : strip commandId ≠ "")
    (hfresh : strip commandId ∉ ((lifetime floats depth repr).exec t before).commandIds)
    (hfew : ((addedIds after).erase (strip commandId)).card < t.maxCommandIds) :
    let u := (lifetime floats depth repr).exec t (before ++ .add commandId .renamed :: after)
    strip commandId ∈ u.commandIds ∧
      ∃ v, reopen floats depth repr u = .ok v ∧ strip commandId ∈ v.commandIds := by
  obtain ⟨m, hholds, hremembers⟩ := remembers_of_saved hdepth hopen before after hblank hfresh hfew
  exact ⟨hholds.known ▸ hremembers.known.mem, _, hholds.reopen, hremembers.saved.mem⟩

theorem saved_command_remembered_of_full_disk :
    let t : SavedCommands := ⟨2, [], ⟨none, none⟩, by decide⟩
    let u := (lifetime integralFloats 2 fun _ => "").exec t
      ([] ++ .add " b " .renamed :: [.add "c" .refused, .restart, .add "c" .unrenamed])
    strip " b " ∈ u.commandIds ∧
      ∃ v, reopen integralFloats 2 (fun _ => "") u = .ok v ∧ strip " b " ∈ v.commandIds :=
  saved_command_remembered le_rfl (s := ⟨2, [], ⟨none, none⟩, by decide⟩) rfl [] _ (by decide)
    (by decide) (by decide)

end SavedCommands

/-! ## The local configuration -/

/-- The arguments of `save`. -/
structure EngineConfig where
  engineId : String
  engineSecret : String
  backendUrl : String
  heartbeatIntervalSeconds : ℤ

namespace EngineLocalConfig

/-- The dictionary `save` writes. -/
def payload (config : EngineConfig) : JsonObject :=
  [("engine_id", .str config.engineId), ("engine_secret", .str config.engineSecret),
    ("backend_url", .str config.backendUrl),
    ("heartbeat_interval_seconds", .int config.heartbeatIntervalSeconds)]

variable (floats : FloatText) (depth : ℕ)

/-- `save`. -/
def save (config : EngineConfig) (how : Replacing ByteArray) :
    Effect PyError (Renamed ByteArray) Unit :=
  saveJson floats depth (.obj (payload config)) how

/-- Saves one after the other, in any processes. -/
def saves : Machine (Renamed ByteArray) (EngineConfig × Replacing ByteArray) (Except PyError Unit)
    where
  step s call := ((save floats depth call.1 call.2 s).2, (save floats depth call.1 call.2 s).1)

/-- The configuration of the last save that returned. -/
def lastSaved (calls : List (EngineConfig × Replacing ByteArray)) : Option EngineConfig :=
  calls.foldl (fun last call =>
    match call.2, intText call.1.heartbeatIntervalSeconds with
    | .renamed, .ok _ => some call.1
    | _, _ => last) none

section config

variable {floats depth} {depth' : ℕ}

theorem proper_payload (config : EngineConfig) : (Json.obj (payload config)).Proper floats := by
  refine .obj (by simp [payload]) fun entry hentry => ?_
  simp only [payload, List.mem_cons, List.not_mem_nil, or_false] at hentry
  rcases hentry with rfl | rfl | rfl | rfl
  · exact .str _
  · exact .str _
  · exact .str _
  · exact .int _

theorem hasFields_payload (config : EngineConfig) : HasFields (payload config) := by
  intro field hfield
  simpa [requiredFields, payload] using hfield

variable (floats) in
/-- The one argument that may not be written is an integer of too many digits. -/
theorem dumps_payload (hdepth : 0 < depth) (config : EngineConfig) :
    (∃ text, intText config.heartbeatIntervalSeconds = .ok text ∧
        ∃ line, dumps floats depth (.obj (payload config)) = .ok line) ∨
      ∃ e, intText config.heartbeatIntervalSeconds = .error e ∧
        dumps floats depth (.obj (payload config)) = .error e := by
  obtain ⟨depth, rfl⟩ : ∃ k, depth = k + 1 := ⟨depth - 1, by omega⟩
  cases hint : intText config.heartbeatIntervalSeconds with
  | ok text =>
    refine Or.inl ⟨text, rfl, ?_⟩
    simp [dumps, payload, hint, bind, Except.bind, pure, Except.pure]
  | error e =>
    refine Or.inr ⟨e, rfl, ?_⟩
    simp [dumps, payload, hint, bind, Except.bind, pure, Except.pure]

theorem lastSaved_concat (calls : List (EngineConfig × Replacing ByteArray))
    (config : EngineConfig) (how : Replacing ByteArray) :
    lastSaved (calls ++ [(config, how)]) =
      match how, intText config.heartbeatIntervalSeconds with
      | .renamed, .ok _ => some config
      | _, _ => lastSaved calls := by
  unfold lastSaved
  rw [List.foldl_concat]

theorem load_of_dumps (hdepth : depth ≤ depth') {config : EngineConfig} {line : String}
    (h : dumps floats depth (.obj (payload config)) = .ok line) :
    load (loads floats depth') (some line.toUTF8) = .ok (some (payload config)) := by
  have hdecode := decodeFile_of_dumps hdepth h (proper_payload config)
  simp only [load, hdecode, bind, Except.bind, pure, Except.pure, if_pos (hasFields_payload config)]

/-- What the saves write: nothing where a configuration has no text. -/
def attempts (floats : FloatText) (depth : ℕ) (calls : List (EngineConfig × Replacing ByteArray)) :
    List (ByteArray × Replacing ByteArray) :=
  calls.filterMap fun call =>
    (dumps floats depth (.obj (payload call.1))).toOption.map fun line => (line.toUTF8, call.2)

theorem attempts_concat (calls : List (EngineConfig × Replacing ByteArray))
    (call : EngineConfig × Replacing ByteArray) :
    attempts floats depth (calls ++ [call]) =
      attempts floats depth calls ++ attempts floats depth [call] := List.filterMap_append

theorem attempts_of_dumps {config : EngineConfig} {line : String}
    (h : dumps floats depth (.obj (payload config)) = .ok line) (how : Replacing ByteArray) :
    attempts floats depth [(config, how)] = [(line.toUTF8, how)] := by
  simp [attempts, h, Except.toOption]

theorem attempts_of_error {config : EngineConfig} {e : PyError}
    (h : dumps floats depth (.obj (payload config)) = .error e) (how : Replacing ByteArray) :
    attempts floats depth [(config, how)] = [] := by
  simp [attempts, h, Except.toOption]

theorem exec_saves (s : Renamed ByteArray) (calls : List (EngineConfig × Replacing ByteArray)) :
    (saves floats depth).exec s calls = Renamed.saves.exec s (attempts floats depth calls) := by
  induction calls using List.reverseRecOn with
  | nil => rfl
  | append_singleton calls call ih =>
    obtain ⟨config, how⟩ := call
    rw [Machine.exec_concat, ih, attempts_concat, Machine.exec_append]
    simp only [saves, save]
    cases hdumps : dumps floats depth (.obj (payload config)) with
    | ok line =>
      rw [saveJson_of_dumps hdumps, attempts_of_dumps hdumps]
      rfl
    | error e =>
      rw [saveJson_of_error hdumps, attempts_of_error hdumps]
      rfl

/-- The last contents renamed are the text of the last configuration saved. -/
theorem lastRenamed_attempts (floats : FloatText) (hpos : 0 < depth)
    (calls : List (EngineConfig × Replacing ByteArray)) :
    match lastSaved calls with
    | some config => ∃ line, dumps floats depth (.obj (payload config)) = .ok line ∧
        Renamed.lastRenamed (attempts floats depth calls) = some line.toUTF8
    | none => Renamed.lastRenamed (attempts floats depth calls) = none := by
  induction calls using List.reverseRecOn with
  | nil => rfl
  | append_singleton calls call ih =>
    obtain ⟨config, how⟩ := call
    rw [lastSaved_concat, attempts_concat]
    rcases dumps_payload floats hpos config with ⟨text, hint, line, hline⟩ | ⟨e, hint, herror⟩
    · rw [hint, attempts_of_dumps hline, Renamed.lastRenamed_concat]
      cases how with
      | renamed => exact ⟨line, hline, rfl⟩
      | refused => exact ih
      | torn part => exact ih
      | unrenamed => exact ih
    · rw [hint, attempts_of_error herror, List.append_nil]
      cases how <;> exact ih

/-- What `load` makes of the file after any saves: the configuration of the last one
that returned, and of those that failed or were killed half way nothing at all. -/
theorem load_after_saves (hpos : 0 < depth) (hdepth : depth ≤ depth') (s : Renamed ByteArray)
    (calls : List (EngineConfig × Replacing ByteArray)) :
    load (loads floats depth') ((saves floats depth).exec s calls).file =
      match lastSaved calls with
      | some config => .ok (some (payload config))
      | none => load (loads floats depth') s.file := by
  have hlast := lastRenamed_attempts floats hpos calls
  rw [exec_saves, Renamed.file_exec]
  cases hsaved : lastSaved calls with
  | none =>
    rw [hsaved] at hlast
    rw [hlast, Option.none_or]
  | some config =>
    rw [hsaved] at hlast
    obtain ⟨line, hline, hrenamed⟩ := hlast
    rw [hrenamed, Option.some_or]
    exact load_of_dumps hdepth hline

theorem load_after_saves_of_killed :
    load (loads integralFloats 1) ((saves integralFloats 1).exec ⟨none, none⟩
        [(⟨"e1", "s1", "http://h", 30⟩, .renamed), (⟨"e2", "s2", "http://h", 30⟩, .unrenamed)]).file =
      match lastSaved [(⟨"e1", "s1", "http://h", 30⟩, .renamed),
          (⟨"e2", "s2", "http://h", 30⟩, .unrenamed)] with
      | some config => .ok (some (payload config))
      | none => load (loads integralFloats 1) none :=
  load_after_saves (by decide) le_rfl _ _

end config

end EngineLocalConfig

end SmartIDS.PacketCapture
