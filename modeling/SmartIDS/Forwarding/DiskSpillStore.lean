import SmartIDS.Foundation.BoundedFifo
import SmartIDS.Python.TextFile
set_option autoImplicit false

/-!
# Forwarding: the disk spill store

`packet_capture/forwarding/disk_spill_store.py`.  One JSON object a line in one
file, and a counter of its lines in memory.  `json` is a parameter: `dumps` and
`loads` return or raise as the library does.  What the disk does in a call is a
parameter of the call, so that every failure of a file operation is an input.
-/

namespace SmartIDS.Forwarding

open SmartIDS.Foundation SmartIDS.Python

/-- `json.dumps(·, ensure_ascii=True)` and `json.loads` on the payloads. -/
structure JsonCodec (P : Type) where
  dumps : P → Except PyError String
  /-- `none` where the document is not an object. -/
  loads : String → Except PyError (Option P)

/-- What an `open(path, "a")` with its `write` and `flush` comes to. -/
inductive Appending where
  | done
  /-- The file cannot be opened. -/
  | refused
  /-- The write fails after some bytes. -/
  | torn (bytes : ℕ)
  deriving DecidableEq

/-- Part of the text may have been written. -/
def Appending.isTorn : Appending → Bool
  | .torn _ => true
  | _ => false

/-- What the disk does during one call of the store.  No call appends, reads or
rewrites twice. -/
structure Disk where
  appends : Appending
  reads : Bool
  /-- `write_text` to the temporary file and `replace`. -/
  rewrites : Bool
  deriving DecidableEq

/-- No file operation fails. -/
def Disk.working : Disk := ⟨.done, true, true⟩

/-- `DiskSpillStore`; `_count` is the counter. -/
structure DiskSpillStore where
  maxEntries : ℕ
  count : ℕ
  file : File
  maxEntries_pos : 0 < maxEntries

namespace DiskSpillStore

variable {P : Type} (codec : JsonCodec P) (disk : Disk)

/-- `_try_decode`: the payload, and whether the line is corrupt. -/
def tryDecode (line : String) : Except PyError (Option P × Bool) :=
  let stripped := strip line
  if stripped = "" then .ok (none, false)
  else
    match codec.loads stripped with
    | .error .jsonDecodeError => .ok (none, true)
    | .error e => .error e
    | .ok none => .ok (none, true)
    | .ok (some payload) => .ok (some payload, false)

/-- `_decode_line` and `_decode_line_quiet`. -/
def decodeLine (line : String) : Except PyError (Option P) := do
  let (payload, _) ← tryDecode codec line
  return payload

/-- `_read_lines_locked`. -/
def readLinesLocked (file : File) : Except PyError (List String) :=
  match if disk.reads then readText file else .error .osError with
  | .ok text => .ok (nonblankLines text)
  | .error .osError => .ok []
  | .error e => .error e

/-- `_count_lines_locked`. -/
def countLinesLocked (file : File) : Except PyError ℕ := do
  let lines ← readLinesLocked disk file
  return lines.length

/-- `__init__` over a file. -/
def init (maxEntries : ℤ) (file : File) : Except PyError DiskSpillStore := do
  let count ← countLinesLocked disk file
  return ⟨(max 1 maxEntries).toNat, count, file, by omega⟩

/-- `_write_lines_locked`. -/
def writeLinesLocked (lines : List String) : Effect PyError DiskSpillStore Unit :=
  if disk.rewrites then Effect.modify fun s => { s with file := some (joinLines lines).toUTF8 }
  else Effect.ofExcept (.error .osError)

/-- `_compact_locked`. -/
def compactLocked : Effect PyError DiskSpillStore Unit := do
  let s ← Effect.get
  let lines ← Effect.ofExcept (readLinesLocked disk s.file)
  let trimmed := BoundedFifo.newest s.maxEntries lines
  writeLinesLocked disk trimmed
  Effect.modify fun s => { s with count := trimmed.length }

/-- The `with open(self.file_path, "a")` of `append`. -/
def appendFile (text : String) : Effect PyError DiskSpillStore Unit :=
  match disk.appends with
  | .done => Effect.modify fun s => { s with file := s.file.extend text.toUTF8 }
  | .refused => Effect.ofExcept (.error .osError)
  | .torn bytes => do
    Effect.modify fun s => { s with file := s.file.extend (text.toUTF8.extract 0 bytes) }
    Effect.ofExcept (.error .osError)

/-- `append`.  `1.1 * max_entries` is compared exactly; between integers the
rounding of the double product makes no difference. -/
def append (payload : P) : Effect PyError DiskSpillStore Unit := do
  let line ← Effect.ofExcept (codec.dumps payload)
  appendFile disk (line ++ "\n")
  Effect.modify fun s => { s with count := s.count + 1 }
  let s ← Effect.get
  if 11 * s.maxEntries < 10 * s.count then compactLocked disk

/-- The loop of `peek_batch`. -/
def peekLoop (maxItems : ℕ) : List String → List P → Except PyError (List P)
  | [], items => .ok items
  | line :: rest, items =>
    if maxItems ≤ items.length then .ok items
    else do
      match ← decodeLine codec line with
      | some payload => peekLoop maxItems rest (items ++ [payload])
      | none => peekLoop maxItems rest items

/-- `peek_batch`. -/
def peekBatch (maxItems : ℤ) : Effect PyError DiskSpillStore (List P) := do
  if maxItems ≤ 0 then return []
  let s ← Effect.get
  let lines ← Effect.ofExcept (readLinesLocked disk s.file)
  Effect.ofExcept (peekLoop codec maxItems.toNat lines [])

/-- The loop of `discard_batch`: the `cut_index` it ends with. -/
def cutLoop (count : ℕ) : List String → (index validSeen : ℕ) → Except PyError ℕ
  | [], index, _ => .ok index
  | line :: rest, index, validSeen => do
    match ← decodeLine codec line with
    | some _ =>
      if count ≤ validSeen + 1 then return index + 1
      else cutLoop count rest (index + 1) (validSeen + 1)
    | none => cutLoop count rest (index + 1) validSeen

/-- `discard_batch`. -/
def discardBatch (count : ℤ) : Effect PyError DiskSpillStore Unit := do
  if count ≤ 0 then return
  let s ← Effect.get
  let lines ← Effect.ofExcept (readLinesLocked disk s.file)
  let cutIndex ← Effect.ofExcept (cutLoop codec count.toNat lines 0 0)
  let remaining := lines.drop cutIndex
  writeLinesLocked disk remaining
  Effect.modify fun s => { s with count := remaining.length }

/-- `is_empty`. -/
def isEmpty (s : DiskSpillStore) : Bool := s.count = 0

end DiskSpillStore

end SmartIDS.Forwarding
