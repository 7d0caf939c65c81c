import SmartIDS.Forwarding.SpillFifo
set_option autoImplicit false

/-!
# Forwarding: what an append makes recoverable

A crash may cut an `append` off in its line.  The store opens the file for
appending, so that the next payload is written behind what is left of that line,
the two make one line, and the line is corrupt.  The counter has counted the
fragment as a line of its own and counts the payload as another one.
-/

namespace SmartIDS.Forwarding.DiskSpillStore

open SmartIDS.Foundation SmartIDS.Python

variable {P : Type} {codec : JsonCodec P} {disk : Disk} {s t : DiskSpillStore}

/-! ## The last payload of the file -/

/-- The payload is the last of every batch that is large enough, and the counter
counts the lines of the file. -/
structure Recovered (codec : JsonCodec P) (payload : P) (t : DiskSpillStore) : Prop where
  peeked : ∀ n : ℤ, (pending codec t).length ≤ n →
    ∃ items, peekBatch codec .working n t = (.ok (items ++ [payload]), t)
  count_eq : t.count = (linesOf t.file).length

theorem not_raises_of_scans {lines : List String}
    (h : Scans codec ((valid codec lines).length + 1) lines) :
    ∀ line ∈ lines, ¬ Raises codec line := by
  intro line hmem
  obtain ⟨front, back, hsplit⟩ := List.append_of_mem hmem
  refine h front line back hsplit ?_
  have hlen := congrArg List.length (congrArg (valid codec) hsplit)
  rw [valid_append, List.length_append] at hlen
  omega

/-- Every batch that is large enough ends with the payload exactly if all lines
are scanned and the payload is the last one. -/
theorem peeked_iff (htext : IsText t.file) (payload : P) :
    (∀ n : ℤ, (pending codec t).length ≤ n →
      ∃ items, peekBatch codec .working n t = (.ok (items ++ [payload]), t)) ↔
    (∀ line ∈ linesOf t.file, ¬ Raises codec line) ∧
      (pending codec t).getLast? = some payload := by
  have hpeek : ∀ n : ℤ, 0 < n → (pending codec t).length ≤ n →
      Scans codec n.toNat (linesOf t.file) →
      peekBatch codec .working n t = (.ok (pending codec t), t) := by
    intro n hn hlen hscans
    rw [peekBatch_working htext hn hscans, List.take_of_length_le (by omega)]
  constructor
  · intro h
    obtain ⟨items, hitems⟩ := h ((pending codec t).length + 1 : ℕ) (by omega)
    have hscans : Scans codec ((pending codec t).length + 1) (linesOf t.file) := by
      by_contra hnot
      have hread := mt (readable_working_iff htext ((pending codec t).length + 1 : ℕ)).mp hnot
      obtain ⟨e, he⟩ := peekBatch_of_not_readable (by omega) hread
      rw [he] at hitems
      exact absurd (congrArg Prod.fst hitems) (by simp)
    have heq := hpeek ((pending codec t).length + 1 : ℕ) (by omega) (by omega) hscans
    rw [hitems] at heq
    have hlist : items ++ [payload] = pending codec t := Except.ok.inj (congrArg Prod.fst heq)
    exact ⟨not_raises_of_scans hscans, by rw [← hlist, List.getLast?_concat]⟩
  · rintro ⟨hparses, hlast⟩ n hn
    obtain ⟨items, hitems⟩ := List.getLast?_eq_some_iff.mp hlast
    have hpos : 0 < n := by
      rw [hitems, List.length_append, List.length_singleton] at hn
      omega
    exact ⟨items, by rw [hpeek n hpos hn (scans_of_not_raises hparses _), hitems]⟩

/-! ## What an append leaves -/

theorem init_of_isText {maxEntries : ℤ} {file : File} (htext : IsText file)
    (hinit : init .working maxEntries file = .ok s) :
    s.file = file ∧ s.count = (linesOf file).length := by
  unfold init countLinesLocked at hinit
  rw [readLinesLocked_of_legible (fun _ => htext), seen_working] at hinit
  obtain rfl := Except.ok.inj hinit
  exact ⟨rfl, rfl⟩

/-- The old lines that are kept: those that have their line end, but the oldest
of them where the file has grown too long. -/
def retained (s : DiskSpillStore) : List String :=
  if Overflows s then BoundedFifo.newest (s.maxEntries - 1) (closedLinesOf s.file)
  else closedLinesOf s.file

/-- What the payload's line has become. -/
def joined (s : DiskSpillStore) (line : String) : String := fragmentOf s.file ++ line

theorem strip_joined_ne {line : String} (hline : IsLine line) : strip (joined s line) ≠ "" := by
  have hblank := (isBlank_eq_false_iff line).mpr hline.nonblank
  rw [← isBlank_eq_false_iff]
  unfold isBlank at hblank ⊢
  rw [List.isEmpty_eq_false_iff] at hblank ⊢
  intro hnil
  refine hblank ((stripList_eq_nil_iff _).mpr fun c hc => ?_)
  refine (stripList_eq_nil_iff _).mp hnil c ?_
  rw [joined, String.toList_append]
  exact List.mem_append_right _ hc

theorem appended_spec (htext : IsText s.file) {line : String} (hline : IsLine line) :
    IsText (appended s line).file ∧
      linesOf (appended s line).file = closedLinesOf s.file ++ [joined s line] :=
  htext.extend_line hline (strip_joined_ne hline)

/-- The lines an append that returns leaves, and its count.  Where the file is
too long and cannot be read, it is rewritten without any line. -/
theorem append_lines (htext : IsText s.file) {payload : P} {line : String}
    (hdumps : codec.dumps payload = .ok line) (hline : IsLine line)
    (happend : append codec disk payload s = (.ok (), t)) :
    IsText t.file ∧
      (Overflows s → disk.reads = false → linesOf t.file = []) ∧
      ((Overflows s → disk.reads = true) → linesOf t.file = retained s ++ [joined s line]) ∧
      t.count = if Overflows s then (linesOf t.file).length else s.count + 1 := by
  obtain ⟨line', hdumps', hdone, hcompacts⟩ :=
    (append_returns_iff payload).mp (congrArg Prod.fst happend)
  obtain ⟨htext', hlines⟩ := appended_spec htext hline
  rw [append_of_done hdumps hdone] at happend
  have hmax := s.maxEntries_pos
  unfold retained
  rcases em (Overflows s) with hover | hover
  · have hseen : ∀ l ∈ BoundedFifo.newest s.maxEntries (seen disk (appended s line).file),
        IsLine l := fun l hl => isLine_of_mem_seen (BoundedFifo.mem_of_mem_newest hl)
    obtain ⟨t', hrewrite, hsound, -, hfile⟩ :=
      rewrite_of_rewrites (s := appended s line) (hcompacts hover).2 hseen
    rw [if_pos hover, compactLocked_of_legible (fun _ => htext')] at happend
    obtain rfl : t' = t := congrArg Prod.snd (hrewrite.symm.trans happend)
    rw [if_pos hover, if_pos hover, hsound.count_eq]
    refine ⟨hsound.terminated.isText, fun _ hreads => ?_, fun hreads => ?_, rfl⟩
    · rw [hfile, seen, if_neg (by simp [hreads])]
      exact List.drop_nil
    · rw [hfile, seen_of_reads (hreads hover), hlines,
        BoundedFifo.newest_append (by simp only [List.length_singleton]; omega)]
      unfold BoundedFifo.newest
      rw [List.length_singleton]
      congr 2
      omega
  · rw [if_neg hover] at happend
    obtain rfl : appended s line = t := congrArg Prod.snd happend
    rw [if_neg hover, if_neg hover]
    exact ⟨htext', fun h => absurd h hover, fun _ => hlines, rfl⟩

/-! ## When the payload is recovered -/

/-- The payload's line stands alone, or the file is trimmed and the last payload
it keeps is the same one; and `json.loads` can be applied to what is kept. -/
structure Undamaged (codec : JsonCodec P) (disk : Disk) (payload : P) (line : String)
    (s : DiskSpillStore) : Prop where
  reads : Overflows s → disk.reads = true
  parses : ∀ l ∈ retained s ++ [joined s line], ¬ Raises codec l
  apart : strip (fragmentOf s.file) = "" ∨
    (Overflows s ∧ (valid codec (retained s)).getLast? = some payload)

/-- A blank fragment is stripped off. -/
theorem entry_joined {payload : P} {line : String} (hline : codec.Serialises payload line)
    (hblank : strip (fragmentOf s.file) = "") : entry codec (joined s line) = some payload := by
  have hfront : stripList isSpace (fragmentOf s.file).toList = [] := by
    have hlist := congrArg String.toList hblank
    rwa [strip, String.toList_ofList] at hlist
  have hstrip : strip (joined s line) = strip line := by
    unfold strip joined
    rw [String.toList_append,
      stripList_append_of_all ((stripList_eq_nil_iff _).mp hfront)]
  have hentry := entry_of_serialises hline
  unfold entry at hentry ⊢
  rw [hstrip]
  exact hentry

/-- The count of an opened store counts the fragment unless it is blank. -/
theorem count_of_opened (htext : IsText s.file) (hcount : s.count = (linesOf s.file).length) :
    s.count = (closedLinesOf s.file).length ↔ strip (fragmentOf s.file) = "" := by
  rw [hcount, htext.linesOf_fragment, List.length_append]
  split
  · next hblank => exact iff_of_true (by simp) hblank
  · next hblank => exact iff_of_false (by simp) hblank

/-- The last payload that is left. -/
theorem last_pending_iff (hdelim : SelfDelimiting codec) {payload : P} {line : String}
    (hline : codec.Serialises payload line)
    (hlines : linesOf t.file = retained s ++ [joined s line]) :
    (pending codec t).getLast? = some payload ↔
      strip (fragmentOf s.file) = "" ∨ (valid codec (retained s)).getLast? = some payload := by
  have hpending : pending codec t =
      valid codec (retained s) ++ (entry codec (joined s line)).toList := by
    unfold pending
    rw [hlines, valid_append, valid_cons]
    simp [valid]
  rw [hpending]
  rcases em (strip (fragmentOf s.file) = "") with hblank | hblank
  · rw [entry_joined hline hblank]
    simp [hblank]
  · rw [joined, hdelim payload line hline _ hblank]
    simp [hblank]

/-- A trimmed file is counted anew. -/
theorem count_eq_iff (htext : IsText s.file) (hcount : s.count = (linesOf s.file).length)
    {line : String} (hlines : linesOf t.file = retained s ++ [joined s line])
    (hcount' : t.count = if Overflows s then (linesOf t.file).length else s.count + 1) :
    t.count = (linesOf t.file).length ↔ Overflows s ∨ strip (fragmentOf s.file) = "" := by
  rw [hcount', ← count_of_opened htext hcount]
  rcases em (Overflows s) with hover | hover
  · simp [hover]
  · rw [if_neg hover, hlines, retained, if_neg hover, List.length_append, List.length_singleton]
    simp [hover]

theorem recovered_iff (hdelim : SelfDelimiting codec) {payload : P} {line : String}
    (hline : codec.Serialises payload line) (htext : IsText s.file)
    (hcount : s.count = (linesOf s.file).length)
    (happend : append codec disk payload s = (.ok (), t)) :
    Recovered codec payload t ↔ Undamaged codec disk payload line s := by
  obtain ⟨htext', hlost, hkept, hcount'⟩ := append_lines htext hline.dumps hline.isLine happend
  rcases em (Overflows s → disk.reads = true) with hreads | hreads
  · have hlines := hkept hreads
    have hlast := last_pending_iff hdelim hline hlines
    have hcounted := count_eq_iff htext hcount hlines hcount'
    constructor
    · rintro ⟨hpeeked, hcounts⟩
      obtain ⟨hparses, hpayload⟩ := (peeked_iff htext' payload).mp hpeeked
      rw [hlines] at hparses
      refine ⟨hreads, hparses, ?_⟩
      rcases em (strip (fragmentOf s.file) = "") with hblank | hblank
      · exact Or.inl hblank
      · exact Or.inr ⟨(hcounted.mp hcounts).resolve_right hblank,
          (hlast.mp hpayload).resolve_left hblank⟩
    · rintro ⟨-, hparses, hapart⟩
      refine ⟨(peeked_iff htext' payload).mpr ⟨by rw [hlines]; exact hparses, ?_⟩, ?_⟩
      · exact hlast.mpr (hapart.imp_right And.right)
      · exact hcounted.mpr (hapart.symm.imp_left And.left)
  · refine iff_of_false ?_ fun h => hreads h.reads
    intro hrecovered
    obtain ⟨hover, hfails⟩ := Classical.not_imp.mp hreads
    have hpayload := ((peeked_iff htext' payload).mp hrecovered.peeked).2
    unfold pending at hpayload
    rw [hlost hover (by simpa using hfails)] at hpayload
    exact absurd hpayload (by simp [valid])

/-- An append to a store opened over any text is recovered exactly if it is not
damaged: what is torn off at the end of the file takes the payload with it. -/
theorem append_recovered_iff (codec : JsonCodec P) (hdelim : SelfDelimiting codec) {payload : P}
    {line : String} (hline : codec.Serialises payload line) (maxEntries : ℤ) {file : File}
    (htext : IsText file) (disk : Disk) {s t : DiskSpillStore}
    (hinit : init .working maxEntries file = .ok s)
    (happend : append codec disk payload s = (.ok (), t)) :
    Recovered codec payload t ↔ Undamaged codec disk payload line s := by
  obtain ⟨hfile, hcount⟩ := init_of_isText htext hinit
  rw [← hfile] at htext hcount
  exact recovered_iff hdelim hline htext hcount happend

/-- The file an append of `{"id": 7}` leaves when it is cut off after seven bytes. -/
def tornFile : File := some "\x7b\"id\": ".toUTF8

theorem isText_tornFile : IsText tornFile := "\x7b\"id\": ".isValidUTF8

theorem textOf_tornFile : textOf tornFile = "\x7b\"id\": " := by
  simp only [textOf, tornFile, Option.bind_some, fromUTF8?_toUTF8, Option.getD_some]

theorem fragmentOf_tornFile : fragmentOf tornFile = "\x7b\"id\": " := by
  unfold fragmentOf
  rw [textOf_tornFile]
  decide

theorem linesOf_tornFile : linesOf tornFile = ["\x7b\"id\": "] := by
  unfold tornFile
  rw [linesOf_toUTF8]
  decide

/-- The store opened over that file, with room for three entries. -/
def tornStore : DiskSpillStore := ⟨3, 1, tornFile, by decide⟩

theorem init_tornFile : init .working 3 tornFile = .ok tornStore := by
  unfold init countLinesLocked
  rw [readLinesLocked_of_legible (fun _ => isText_tornFile), seen_working, linesOf_tornFile]
  rfl

theorem append_tornStore :
    append idCodec .working 8 tornStore = (.ok (), appended tornStore (idText 8)) := by
  have hroom : ¬ Overflows tornStore := by decide
  rw [append_of_done rfl rfl, if_neg hroom]

theorem append_recovered_iff_of_torn :
    Recovered idCodec 8 (appended tornStore (idText 8)) ↔
      Undamaged idCodec .working 8 (idText 8) tornStore := by
  obtain ⟨line, hline⟩ := idCodec_lawful 8
  obtain rfl : idText 8 = line := Except.ok.inj hline.dumps
  exact append_recovered_iff idCodec idCodec_selfDelimiting hline 3 isText_tornFile .working
    init_tornFile append_tornStore

/-- Behind a torn line the next payload is lost. -/
theorem torn_append_loses_next :
    idCodec.Lawful ∧ IsText tornFile ∧ init .working 3 tornFile = .ok tornStore ∧
      append idCodec .working 8 tornStore = (.ok (), appended tornStore (idText 8)) ∧
      ¬ Recovered idCodec 8 (appended tornStore (idText 8)) := by
  refine ⟨idCodec_lawful, isText_tornFile, init_tornFile, append_tornStore, fun hrecovered => ?_⟩
  obtain ⟨line, hline⟩ := idCodec_lawful 8
  have hcount : tornStore.count = (linesOf tornStore.file).length :=
    (congrArg List.length linesOf_tornFile).symm
  have hundamaged := (recovered_iff idCodec_selfDelimiting hline isText_tornFile hcount
    append_tornStore).mp hrecovered
  rcases hundamaged.apart with hblank | ⟨hover, -⟩
  · have hfragment : fragmentOf tornStore.file = "\x7b\"id\": " := fragmentOf_tornFile
    rw [hfragment] at hblank
    exact absurd hblank (by decide)
  · exact absurd hover (by decide)

end SmartIDS.Forwarding.DiskSpillStore
