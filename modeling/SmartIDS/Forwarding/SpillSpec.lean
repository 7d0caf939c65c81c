import SmartIDS.Forwarding.DiskSpillStore
set_option autoImplicit false

/-!
# Forwarding: what one call of the spill store does

The two scans of the store walk the lines of the file until they have seen
enough valid ones.  A line that is not JSON is skipped; a line on which
`json.loads` raises anything else ends the call.  So a call returns exactly when
no such line stands among those it walks (`Scans`).
-/

namespace SmartIDS.Forwarding

open SmartIDS.Foundation SmartIDS.Python

variable {P : Type}

/-- The payload is written as one line, and `loads` reads it back. -/
structure JsonCodec.Serialises (codec : JsonCodec P) (payload : P) (line : String) : Prop where
  dumps : codec.dumps payload = .ok line
  isLine : IsLine line
  stripped : strip line = line
  loads : codec.loads line = .ok (some payload)

/-- `loads` inverts `dumps`. -/
def JsonCodec.Inverts (codec : JsonCodec P) : Prop :=
  ∀ payload line, codec.dumps payload = .ok line → codec.Serialises payload line

/-- Moreover every payload can be serialised. -/
def JsonCodec.Lawful (codec : JsonCodec P) : Prop :=
  ∀ payload, ∃ line, codec.Serialises payload line

theorem JsonCodec.Lawful.inverts {codec : JsonCodec P} (h : codec.Lawful) : codec.Inverts := by
  intro payload line hdumps
  obtain ⟨line', hline⟩ := h payload
  obtain rfl : line' = line := Except.ok.inj (hline.dumps.symm.trans hdumps)
  exact hline

namespace DiskSpillStore

section scans

variable (codec : JsonCodec P)

/-- The payload of a line that holds an object. -/
def entry (line : String) : Option P :=
  match codec.loads (strip line) with
  | .ok payload => payload
  | .error _ => none

/-- The payloads of the valid lines, in order. -/
def valid (lines : List String) : List P := lines.filterMap (entry codec)

/-- `json.loads` raises something else than a `JSONDecodeError` on the line. -/
def Raises (line : String) : Prop :=
  ∃ e, codec.loads (strip line) = .error e ∧ e ≠ .jsonDecodeError

/-- No line with fewer than `n` valid lines in front of it makes `json.loads`
raise anything but a `JSONDecodeError`. -/
def Scans (n : ℕ) (lines : List String) : Prop :=
  ∀ front line back, lines = front ++ line :: back →
    (valid codec front).length < n → ¬ Raises codec line

variable {codec}

theorem entry_of_serialises {payload : P} {line : String} (h : codec.Serialises payload line) :
    entry codec line = some payload := by
  unfold entry
  rw [h.stripped, h.loads]

theorem valid_append (front back : List String) :
    valid codec (front ++ back) = valid codec front ++ valid codec back :=
  List.filterMap_append

theorem valid_cons (line : String) (rest : List String) :
    valid codec (line :: rest) = (entry codec line).toList ++ valid codec rest := by
  unfold valid
  cases h : entry codec line <;> simp [h]

theorem decodeLine_of_not_raises {line : String} (hblank : strip line ≠ "")
    (h : ¬ Raises codec line) : decodeLine codec line = .ok (entry codec line) := by
  unfold decodeLine tryDecode entry
  simp only [if_neg hblank]
  cases hloads : codec.loads (strip line) with
  | ok payload => cases payload <;> rfl
  | error e =>
    have he : e = .jsonDecodeError := not_not.mp fun hne => h ⟨e, hloads, hne⟩
    rw [he]
    rfl

theorem decodeLine_of_raises {line : String} (hblank : strip line ≠ "")
    (h : Raises codec line) : ∃ e, decodeLine codec line = .error e := by
  obtain ⟨e, hloads, hne⟩ := h
  refine ⟨e, ?_⟩
  unfold decodeLine tryDecode
  simp only [if_neg hblank, hloads]
  cases e <;> first | exact absurd rfl hne | rfl

theorem scans_cons (n : ℕ) (line : String) (rest : List String) :
    Scans codec n (line :: rest) ↔
      n = 0 ∨ (¬ Raises codec line ∧ Scans codec (n - (entry codec line).toList.length) rest) := by
  constructor
  · intro h
    refine n.eq_zero_or_pos.imp_right fun hn => ⟨h [] line rest rfl hn, ?_⟩
    intro front l back hsplit hlen
    refine h (line :: front) l back (by rw [hsplit]; rfl) ?_
    rw [valid_cons, List.length_append]
    omega
  · rintro (rfl | ⟨hline, hrest⟩) front l back hsplit hlen
    · exact absurd hlen (Nat.not_lt_zero _)
    · cases front with
      | nil =>
        obtain ⟨rfl, -⟩ := List.cons.inj hsplit
        exact hline
      | cons l' front =>
        obtain ⟨rfl, htail⟩ := List.cons.inj hsplit
        rw [valid_cons, List.length_append] at hlen
        exact hrest front l back htail (by omega)

/-- The turn of a scan at a line that decodes. -/
theorem Scans.tail {n : ℕ} {line : String} {rest : List String} (hn : 0 < n)
    (h : Scans codec n (line :: rest)) :
    ¬ Raises codec line ∧ Scans codec (n - (entry codec line).toList.length) rest :=
  ((scans_cons n line rest).mp h).resolve_left (by omega)

theorem scans_nil (n : ℕ) : Scans codec n [] := fun _ _ _ hsplit => by simp at hsplit

/-- A scan that fails does so at the first line or behind it. -/
theorem step_of_not_scans {n : ℕ} {line : String} {rest : List String}
    (h : ¬ Scans codec n (line :: rest)) :
    0 < n ∧ (Raises codec line ∨
      (¬ Raises codec line ∧ ¬ Scans codec (n - (entry codec line).toList.length) rest)) := by
  rw [scans_cons, not_or] at h
  refine ⟨Nat.pos_of_ne_zero h.1, ?_⟩
  by_cases hraises : Raises codec line
  · exact .inl hraises
  · exact .inr ⟨hraises, fun hscans => h.2 ⟨hraises, hscans⟩⟩

theorem scans_of_not_raises {lines : List String} (h : ∀ line ∈ lines, ¬ Raises codec line)
    (n : ℕ) : Scans codec n lines := by
  intro front line back hsplit _
  exact h line (by simp [hsplit])

/-- A scan that comes to the end of the lines, or sees enough valid ones, has
collected the first `maxItems` payloads. -/
theorem peekLoop_of_scans {maxItems : ℕ} {lines : List String} (items : List P)
    (hblank : ∀ line ∈ lines, strip line ≠ "")
    (h : Scans codec (maxItems - items.length) lines) :
    peekLoop codec maxItems lines items =
      .ok (items ++ (valid codec lines).take (maxItems - items.length)) := by
  induction lines generalizing items with
  | nil => simp [peekLoop, valid]
  | cons line rest ih =>
    obtain ⟨hline, hrest⟩ := List.forall_mem_cons.mp hblank
    unfold peekLoop
    split
    · next hfull => simp [Nat.sub_eq_zero_of_le hfull]
    · next hroom =>
      obtain ⟨hraises, hscans⟩ := h.tail (by omega)
      rw [decodeLine_of_not_raises hline hraises, valid_cons]
      cases hentry : entry codec line with
      | none =>
        rw [hentry] at hscans
        exact ih items hrest hscans
      | some payload =>
        rw [hentry] at hscans
        have hlen : maxItems - (items ++ [payload]).length = maxItems - items.length - 1 := by
          rw [List.length_append, List.length_singleton]
          omega
        have hpos : maxItems - items.length = maxItems - items.length - 1 + 1 := by omega
        have hloop := ih (items ++ [payload]) hrest (by rw [hlen]; exact hscans)
        rw [hlen] at hloop
        refine hloop.trans ?_
        rw [Option.toList_some, List.singleton_append, hpos, List.take_succ_cons,
          List.append_assoc, List.singleton_append]
        rfl

theorem peekLoop_of_not_scans {maxItems : ℕ} {lines : List String} (items : List P)
    (hblank : ∀ line ∈ lines, strip line ≠ "")
    (h : ¬ Scans codec (maxItems - items.length) lines) :
    ∃ e, peekLoop codec maxItems lines items = .error e := by
  induction lines generalizing items with
  | nil => exact absurd (scans_nil _) h
  | cons line rest ih =>
    obtain ⟨hline, hrest⟩ := List.forall_mem_cons.mp hblank
    obtain ⟨hroom, hstep⟩ := step_of_not_scans h
    unfold peekLoop
    rw [if_neg (by omega)]
    rcases hstep with hraises | ⟨hraises, hscans⟩
    · obtain ⟨e, he⟩ := decodeLine_of_raises hline hraises
      exact ⟨e, by rw [he]; rfl⟩
    · rw [decodeLine_of_not_raises hline hraises]
      cases hentry : entry codec line with
      | none =>
        rw [hentry] at hscans
        exact ih items hrest hscans
      | some payload =>
        rw [hentry] at hscans
        refine ih (items ++ [payload]) hrest ?_
        rw [List.length_append, List.length_singleton, ← Nat.sub_sub]
        exact hscans

/-- The cut leaves all payloads but the first `count` ones. -/
theorem cutLoop_of_scans {count : ℕ} {lines : List String} (index : ℕ) {validSeen : ℕ}
    (hblank : ∀ line ∈ lines, strip line ≠ "") (hseen : validSeen < count)
    (h : Scans codec (count - validSeen) lines) :
    ∃ k, cutLoop codec count lines index validSeen = .ok (index + k) ∧
      valid codec (lines.drop k) = (valid codec lines).drop (count - validSeen) := by
  induction lines generalizing index validSeen with
  | nil => exact ⟨0, rfl, by simp [valid]⟩
  | cons line rest ih =>
    obtain ⟨hline, hrest⟩ := List.forall_mem_cons.mp hblank
    obtain ⟨hraises, hscans⟩ := h.tail (by omega)
    unfold cutLoop
    rw [decodeLine_of_not_raises hline hraises, valid_cons]
    cases hentry : entry codec line with
    | none =>
      rw [hentry] at hscans
      obtain ⟨k, hk, hdrop⟩ := ih (index + 1) hrest hseen hscans
      exact ⟨k + 1, by rw [← Nat.add_assoc, Nat.add_right_comm]; exact hk, hdrop⟩
    | some payload =>
      rw [hentry] at hscans
      have hpos : count - validSeen = count - (validSeen + 1) + 1 := by omega
      rw [Option.toList_some, List.singleton_append, hpos, List.drop_succ_cons]
      rcases Nat.lt_or_ge (validSeen + 1) count with hmore | hlast
      · obtain ⟨k, hk, hdrop⟩ := ih (index + 1) hrest hmore hscans
        refine ⟨k + 1, ?_, hdrop⟩
        rw [← Nat.add_assoc, Nat.add_right_comm, ← hk]
        exact if_neg (by omega)
      · refine ⟨1, if_pos hlast, ?_⟩
        rw [Nat.sub_eq_zero_of_le hlast, List.drop_zero]
        rfl

theorem cutLoop_of_not_scans {count : ℕ} {lines : List String} (index : ℕ) {validSeen : ℕ}
    (hblank : ∀ line ∈ lines, strip line ≠ "") (hseen : validSeen < count)
    (h : ¬ Scans codec (count - validSeen) lines) :
    ∃ e, cutLoop codec count lines index validSeen = .error e := by
  induction lines generalizing index validSeen with
  | nil => exact absurd (scans_nil _) h
  | cons line rest ih =>
    obtain ⟨hline, hrest⟩ := List.forall_mem_cons.mp hblank
    unfold cutLoop
    obtain ⟨-, hraises | ⟨hraises, hscans⟩⟩ := step_of_not_scans h
    · obtain ⟨e, he⟩ := decodeLine_of_raises hline hraises
      exact ⟨e, by rw [he]; rfl⟩
    · rw [decodeLine_of_not_raises hline hraises]
      cases hentry : entry codec line with
      | none =>
        rw [hentry] at hscans
        exact ih (index + 1) hrest hseen hscans
      | some payload =>
        rw [hentry] at hscans
        -- the last valid line is not the one that raises, so the scan goes on
        have hmore : validSeen + 1 < count := by
          refine lt_of_not_ge fun hlast => hscans ?_
          intro front l back _ hlen
          rw [Option.toList_some, List.length_singleton] at hlen
          omega
        obtain ⟨e, he⟩ := ih (index + 1) hrest hmore (by
          rw [← Nat.sub_sub]
          exact hscans)
        exact ⟨e, (if_neg (by omega)).trans he⟩

/-- An object's text with something in front of it is not the text of an object. -/
def SelfDelimiting (codec : JsonCodec P) : Prop :=
  ∀ payload line, codec.Serialises payload line →
    ∀ front, strip front ≠ "" → entry codec (front ++ line) = none

end scans

section calls

variable {codec : JsonCodec P} {disk : Disk} {s : DiskSpillStore}

/-- The lines a read gives; a read that fails gives none. -/
def seen (disk : Disk) (file : File) : List String := if disk.reads then linesOf file else []

/-- A read of the file does not raise: the error of a failing read is caught. -/
def Legible (disk : Disk) (file : File) : Prop := disk.reads = true → IsText file

theorem readLinesLocked_of_legible {file : File} (h : Legible disk file) :
    readLinesLocked disk file = .ok (seen disk file) := by
  unfold readLinesLocked seen
  cases hreads : disk.reads with
  | false => rfl
  | true =>
    have htext := h hreads
    cases file with
    | none => rfl
    | some bytes =>
      obtain ⟨text, rfl⟩ := htext.eq_toUTF8
      simp only [if_true, linesOf, readText_toUTF8]

theorem readLinesLocked_of_not_legible {file : File} (h : ¬ Legible disk file) :
    readLinesLocked disk file = .error .unicodeDecodeError := by
  obtain ⟨hreads, htext⟩ := Classical.not_imp.mp h
  unfold readLinesLocked
  simp only [hreads, if_true, readText_of_not_isText htext]

theorem isLine_of_mem_seen {file : File} {line : String} (h : line ∈ seen disk file) :
    IsLine line := by
  unfold seen at h
  split at h
  · exact isLine_of_mem_linesOf h
  · simp at h

theorem nonblank_of_mem_seen {file : File} {line : String} (h : line ∈ seen disk file) :
    strip line ≠ "" := (isLine_of_mem_seen h).nonblank

/-- The file can be scanned for `n` valid lines. -/
def Readable (codec : JsonCodec P) (disk : Disk) (n : ℤ) (file : File) : Prop :=
  Legible disk file ∧ Scans codec n.toNat (seen disk file)

theorem peekBatch_of_readable {n : ℤ} (hn : 0 < n) (h : Readable codec disk n s.file) :
    peekBatch codec disk n s = (.ok ((valid codec (seen disk s.file)).take n.toNat), s) := by
  have hloop : peekLoop codec n.toNat (seen disk s.file) [] =
      .ok ([] ++ (valid codec (seen disk s.file)).take (n.toNat - 0)) :=
    peekLoop_of_scans [] (fun _ => nonblank_of_mem_seen) h.2
  rw [Nat.sub_zero, List.nil_append] at hloop
  unfold peekBatch
  rw [if_neg (by omega), Effect.bind_of_ok (Effect.get_apply s), Effect.bind_apply]
  simp only [Effect.ofExcept_apply, readLinesLocked_of_legible h.1, hloop]

theorem peekBatch_of_not_readable {n : ℤ} (hn : 0 < n) (h : ¬ Readable codec disk n s.file) :
    ∃ e, peekBatch codec disk n s = (.error e, s) := by
  unfold peekBatch
  rw [if_neg (by omega), Effect.bind_of_ok (Effect.get_apply s), Effect.bind_apply]
  rcases em (Legible disk s.file) with hlegible | hlegible
  · have hscans : ¬ Scans codec (n.toNat - ([] : List P).length) (seen disk s.file) :=
      fun hscans => h ⟨hlegible, hscans⟩
    obtain ⟨e, he⟩ := peekLoop_of_not_scans [] (fun _ => nonblank_of_mem_seen) hscans
    refine ⟨e, ?_⟩
    simp only [Effect.ofExcept_apply, readLinesLocked_of_legible hlegible, he]
  · refine ⟨.unicodeDecodeError, ?_⟩
    simp only [Effect.ofExcept_apply, readLinesLocked_of_not_legible hlegible]

theorem peekBatch_of_nonpos {n : ℤ} (hn : n ≤ 0) : peekBatch codec disk n s = (.ok [], s) := by
  unfold peekBatch
  rw [if_pos hn]
  rfl

/-- What becomes of the store when its file is rewritten with the lines. -/
def rewrite (disk : Disk) (s : DiskSpillStore) (lines : List String) :
    Except PyError Unit × DiskSpillStore :=
  if disk.rewrites then
    (.ok (), { s with file := some (joinLines lines).toUTF8, count := lines.length })
  else (.error .osError, s)

theorem writeLinesLocked_modify (lines : List String) :
    (do
      writeLinesLocked disk lines
      Effect.modify fun s => { s with count := lines.length }) s = rewrite disk s lines := by
  unfold writeLinesLocked rewrite
  cases disk.rewrites <;> rfl

theorem compactLocked_of_legible (h : Legible disk s.file) :
    compactLocked disk s = rewrite disk s (BoundedFifo.newest s.maxEntries (seen disk s.file)) := by
  unfold compactLocked
  rw [Effect.bind_of_ok (Effect.get_apply s), Effect.bind_apply]
  simp only [Effect.ofExcept_apply, readLinesLocked_of_legible h]
  exact writeLinesLocked_modify _

theorem compactLocked_of_not_legible (h : ¬ Legible disk s.file) :
    compactLocked disk s = (.error .unicodeDecodeError, s) := by
  unfold compactLocked
  rw [Effect.bind_of_ok (Effect.get_apply s), Effect.bind_apply]
  simp only [Effect.ofExcept_apply, readLinesLocked_of_not_legible h]

theorem discardBatch_of_readable {n : ℤ} (hn : 0 < n) (h : Readable codec disk n s.file) :
    ∃ k, discardBatch codec disk n s = rewrite disk s ((seen disk s.file).drop k) ∧
      valid codec ((seen disk s.file).drop k) = (valid codec (seen disk s.file)).drop n.toNat := by
  have hcount : 0 < n.toNat := by omega
  have hscans : Scans codec (n.toNat - 0) (seen disk s.file) := h.2
  obtain ⟨k, hloop, hvalid⟩ := cutLoop_of_scans 0 (fun _ => nonblank_of_mem_seen) hcount hscans
  have hcut : cutLoop codec n.toNat (seen disk s.file) 0 0 = .ok k :=
    hloop.trans (by rw [Nat.zero_add])
  refine ⟨k, ?_, hvalid⟩
  unfold discardBatch
  rw [if_neg (by omega), Effect.bind_of_ok (Effect.get_apply s), Effect.bind_apply]
  simp only [Effect.ofExcept_apply, readLinesLocked_of_legible h.1]
  rw [Effect.bind_apply]
  simp only [Effect.ofExcept_apply, hcut]
  exact writeLinesLocked_modify _

theorem discardBatch_of_not_readable {n : ℤ} (hn : 0 < n)
    (h : ¬ Readable codec disk n s.file) : ∃ e, discardBatch codec disk n s = (.error e, s) := by
  unfold discardBatch
  rw [if_neg (by omega), Effect.bind_of_ok (Effect.get_apply s), Effect.bind_apply]
  rcases em (Legible disk s.file) with hlegible | hlegible
  · have hcount : 0 < n.toNat := by omega
    have hscans : ¬ Scans codec (n.toNat - 0) (seen disk s.file) :=
      fun hscans => h ⟨hlegible, hscans⟩
    obtain ⟨e, he⟩ : ∃ e, cutLoop codec n.toNat (seen disk s.file) 0 0 = .error e :=
      cutLoop_of_not_scans 0 (fun _ => nonblank_of_mem_seen) hcount hscans
    refine ⟨e, ?_⟩
    simp only [Effect.ofExcept_apply, readLinesLocked_of_legible hlegible]
    rw [Effect.bind_apply]
    simp only [Effect.ofExcept_apply, he]
  · refine ⟨.unicodeDecodeError, ?_⟩
    simp only [Effect.ofExcept_apply, readLinesLocked_of_not_legible hlegible]

theorem discardBatch_of_nonpos {n : ℤ} (hn : n ≤ 0) :
    discardBatch codec disk n s = (.ok (), s) := by
  unfold discardBatch
  rw [if_pos hn]
  rfl

/-- The store behind a line that was appended, before its size is checked. -/
def appended (s : DiskSpillStore) (line : String) : DiskSpillStore :=
  { s with file := s.file.extend (line ++ "\n").toUTF8, count := s.count + 1 }

/-- One entry more is too many. -/
def Overflows (s : DiskSpillStore) : Prop := 11 * s.maxEntries < 10 * (s.count + 1)

instance (s : DiskSpillStore) : Decidable (Overflows s) := inferInstanceAs (Decidable (_ < _))

theorem append_of_done {payload : P} {line : String} (hdumps : codec.dumps payload = .ok line)
    (hdone : disk.appends = .done) :
    append codec disk payload s =
      if Overflows s then compactLocked disk (appended s line) else (.ok (), appended s line) := by
  unfold append appendFile
  rw [Effect.bind_of_ok (a := line) (t := s) (by simp only [Effect.ofExcept_apply, hdumps])]
  simp only [hdone]
  rw [Effect.bind_of_ok (Effect.modify_apply _ s), Effect.bind_of_ok (Effect.modify_apply _ _),
    Effect.bind_of_ok (Effect.get_apply _)]
  rcases em (Overflows s) with hover | hover
  · rw [if_pos hover]
    exact congrFun (if_pos hover) _
  · rw [if_neg hover]
    exact congrFun (if_neg hover) _

/-- An `append` comes to its end: the payload is serialised and written, and
where the file has grown too long, it is read and rewritten. -/
def Appends (codec : JsonCodec P) (disk : Disk) (payload : P) (s : DiskSpillStore) : Prop :=
  ∃ line, codec.dumps payload = .ok line ∧ disk.appends = .done ∧
    (Overflows s → Legible disk (appended s line).file ∧ disk.rewrites = true)

theorem append_returns_iff (payload : P) :
    (append codec disk payload s).1 = .ok () ↔ Appends codec disk payload s := by
  cases hdumps : codec.dumps payload with
  | error e =>
    have hraises : append codec disk payload s = (.error e, s) :=
      Effect.bind_of_error (by simp only [Effect.ofExcept_apply, hdumps])
    simp [hraises, Appends, hdumps]
  | ok line =>
    cases hdone : disk.appends with
    | done =>
      rw [append_of_done hdumps hdone]
      simp only [Appends, hdumps, hdone, Except.ok.injEq, true_and, exists_eq_left']
      split
      · next hover =>
        rcases em (Legible disk (appended s line).file) with hlegible | hlegible
        · rw [compactLocked_of_legible hlegible]
          cases hrewrites : disk.rewrites <;> simp [rewrite, hrewrites, hover, hlegible]
        · simp [compactLocked_of_not_legible hlegible, hover, hlegible]
      · next hover => simp [hover]
    | refused => simp [append, appendFile, hdumps, hdone, Appends, Effect.bind_apply]
    | torn k => simp [append, appendFile, hdumps, hdone, Appends, Effect.bind_apply]

end calls

end DiskSpillStore

end SmartIDS.Forwarding
