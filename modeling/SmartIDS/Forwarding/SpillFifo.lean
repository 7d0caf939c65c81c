import SmartIDS.Foundation.Machine
import SmartIDS.Forwarding.IdPayloads
set_option autoImplicit false

/-!
# Forwarding: the spill store as a bounded queue

What the store is for: its valid lines are a queue, appended to at the back,
discarded at the front, and trimmed at the front where it grows too long.  The
file keeps that promise between any two calls; a call keeps it exactly when
`json.loads` raises nothing but decode errors on the lines the call walks.
-/

namespace SmartIDS.Forwarding

open SmartIDS.Foundation SmartIDS.Python

variable {P : Type}

namespace DiskSpillStore

variable {codec : JsonCodec P} {s : DiskSpillStore}

/-- The queue in the file. -/
def pending (codec : JsonCodec P) (s : DiskSpillStore) : List P := valid codec (linesOf s.file)

/-- The file is a terminated text, and the counter counts its lines. -/
structure Sound (s : DiskSpillStore) : Prop where
  terminated : TerminatedFile s.file
  count_eq : s.count = (linesOf s.file).length

theorem seen_of_reads {disk : Disk} (h : disk.reads = true) (file : File) :
    seen disk file = linesOf file := if_pos h

theorem seen_working (file : File) : seen .working file = linesOf file := seen_of_reads rfl file

theorem Sound.legible (h : Sound s) (disk : Disk) : Legible disk s.file :=
  fun _ => h.terminated.isText

theorem Sound.isEmpty_iff (h : Sound s) : s.isEmpty = true ↔ linesOf s.file = [] := by
  rw [isEmpty, decide_eq_true_iff, h.count_eq, List.length_eq_zero_iff]

theorem readable_working_iff (htext : IsText s.file) (n : ℤ) :
    Readable codec .working n s.file ↔ Scans codec n.toNat (linesOf s.file) := by
  rw [Readable, seen_working]
  exact and_iff_right fun _ => htext

theorem peekBatch_working (htext : IsText s.file) {n : ℤ} (hn : 0 < n)
    (hscans : Scans codec n.toNat (linesOf s.file)) :
    peekBatch codec .working n s = (.ok ((pending codec s).take n.toNat), s) := by
  have hpeek := peekBatch_of_readable hn ((readable_working_iff htext n).mpr hscans)
  rwa [seen_working] at hpeek

theorem init_of_terminated (maxEntries : ℤ) {file : File} (h : TerminatedFile file) :
    ∃ s, init .working maxEntries file = .ok s ∧ s.file = file ∧ Sound s ∧
      s.maxEntries = (max 1 maxEntries).toNat := by
  refine ⟨⟨(max 1 maxEntries).toNat, (linesOf file).length, file, by omega⟩, ?_, rfl, ⟨h, rfl⟩,
    rfl⟩
  unfold init countLinesLocked
  rw [readLinesLocked_of_legible (fun _ => h.isText)]
  rfl

/-- A rewritten store is sound: what is written are lines of the file. -/
theorem rewrite_of_rewrites {disk : Disk} (hrewrites : disk.rewrites = true) {lines : List String}
    (hlines : ∀ line ∈ lines, IsLine line) :
    ∃ t, rewrite disk s lines = (.ok (), t) ∧ Sound t ∧ t.maxEntries = s.maxEntries ∧
      linesOf t.file = lines := by
  obtain ⟨hterm, hread⟩ := linesOf_joinLines hlines
  refine ⟨_, if_pos hrewrites, ⟨hterm, ?_⟩, rfl, hread⟩
  change lines.length = (linesOf _).length
  rw [hread]

theorem rewrite_of_not_rewrites {disk : Disk} (h : disk.rewrites = false) (lines : List String) :
    rewrite disk s lines = (.error .osError, s) := if_neg (by simp [h])

theorem Sound.appended (h : Sound s) {line : String} (hline : IsLine line) :
    Sound (appended s line) ∧ linesOf (DiskSpillStore.appended s line).file =
      linesOf s.file ++ [line] := by
  obtain ⟨hterm, hlines⟩ := h.terminated.extend hline
  have hread : linesOf (DiskSpillStore.appended s line).file = linesOf s.file ++ [line] := hlines
  refine ⟨⟨hterm, ?_⟩, hread⟩
  change s.count + 1 = _
  rw [hread, List.length_append, List.length_singleton, h.count_eq]

/-- What an `append` leaves: the lines behind some point of the file, and the
new one.  Nothing is dropped unless the file has grown too long. -/
theorem Sound.append (h : Sound s) {disk : Disk} (hdone : disk.appends = .done)
    (hreads : disk.reads = true) {payload : P} {line : String}
    (hline : codec.Serialises payload line) :
    ∃ t k, (append codec disk payload s).2 = t ∧ Sound t ∧ t.maxEntries = s.maxEntries ∧
      linesOf t.file = (linesOf s.file).drop k ++ [line] ∧
      (10 * ((linesOf s.file).length + 1) ≤ 11 * s.maxEntries → k = 0) ∧
      (disk.rewrites = true →
        (append codec disk payload s).1 = .ok () ∧ 10 * t.count ≤ 11 * t.maxEntries) := by
  obtain ⟨hsound, hread⟩ := h.appended hline.isLine
  rw [append_of_done hline.dumps hdone]
  have hmax := s.maxEntries_pos
  split
  · next hover =>
    have hnewest : BoundedFifo.newest s.maxEntries (linesOf s.file ++ [line]) =
        (linesOf s.file).drop ((linesOf s.file).length + 1 - s.maxEntries) ++ [line] := by
      rw [BoundedFifo.newest_append (by simp only [List.length_singleton]; omega)]
      rfl
    have hlines : ∀ l ∈ BoundedFifo.newest s.maxEntries (linesOf s.file ++ [line]), IsLine l := by
      intro l hl
      rw [← hread] at hl
      exact isLine_of_mem_linesOf (BoundedFifo.mem_of_mem_newest hl)
    have hcompact : compactLocked disk (DiskSpillStore.appended s line) =
        rewrite disk (DiskSpillStore.appended s line)
          (BoundedFifo.newest s.maxEntries (linesOf s.file ++ [line])) := by
      rw [compactLocked_of_legible (hsound.legible _), seen_of_reads hreads, hread]
      rfl
    rw [hcompact]
    cases hrewrites : disk.rewrites with
    | true =>
      obtain ⟨t, hrewrite, ht, hmaxt, hfile⟩ :=
        rewrite_of_rewrites (s := DiskSpillStore.appended s line) hrewrites hlines
      have hlen : t.count ≤ s.maxEntries := by
        rw [ht.count_eq, hfile]
        exact BoundedFifo.length_newest_le _ _
      have hsame : t.maxEntries = s.maxEntries := hmaxt
      rw [hrewrite]
      refine ⟨t, _, rfl, ht, hsame, hfile.trans hnewest, ?_, fun _ => ⟨rfl, by omega⟩⟩
      intro hroom
      unfold Overflows at hover
      rw [h.count_eq] at hover
      omega
    | false =>
      rw [rewrite_of_not_rewrites hrewrites]
      exact ⟨_, 0, rfl, hsound, rfl, hread, fun _ => rfl, fun hfalse => by simp at hfalse⟩
  · next hover =>
    refine ⟨_, 0, rfl, hsound, rfl, hread, fun _ => rfl, fun _ => ⟨rfl, ?_⟩⟩
    unfold Overflows at hover
    exact not_lt.mp hover

/-- A `discard_batch` drops the first payloads, or leaves the store alone. -/
theorem Sound.discardBatch (h : Sound s) {disk : Disk} (hreads : disk.reads = true) {n : ℤ}
    (hn : 0 < n) :
    ((DiskSpillStore.discardBatch codec disk n s).2 = s ∨
      ∃ t, (DiskSpillStore.discardBatch codec disk n s).2 = t ∧ Sound t ∧
        pending codec t = (pending codec s).drop n.toNat) ∧
    (Scans codec n.toNat (linesOf s.file) → disk.rewrites = true →
      ∃ t, DiskSpillStore.discardBatch codec disk n s = (.ok (), t) ∧ Sound t ∧
        linesOf t.file <:+ linesOf s.file ∧
        pending codec t = (pending codec s).drop n.toNat) := by
  have hreadable : Readable codec disk n s.file ↔ Scans codec n.toNat (linesOf s.file) := by
    unfold Readable
    rw [seen_of_reads hreads]
    exact and_iff_right (h.legible _)
  rcases em (Scans codec n.toNat (linesOf s.file)) with hscans | hscans
  · obtain ⟨k, heq, hvalid⟩ := discardBatch_of_readable hn (hreadable.mpr hscans)
    rw [seen_of_reads hreads] at heq hvalid
    have hlines : ∀ line ∈ (linesOf s.file).drop k, IsLine line :=
      fun line hmem => isLine_of_mem_linesOf (List.mem_of_mem_drop hmem)
    cases hrewrites : disk.rewrites with
    | true =>
      obtain ⟨t, hrewrite, ht, -, hfile⟩ := rewrite_of_rewrites (s := s) hrewrites hlines
      have hpending : pending codec t = (pending codec s).drop n.toNat := by
        unfold pending
        rw [hfile]
        exact hvalid
      have hcall := heq.trans hrewrite
      have hsuffix : linesOf t.file <:+ linesOf s.file := hfile ▸ List.drop_suffix k _
      exact ⟨Or.inr ⟨t, by rw [hcall], ht, hpending⟩,
        fun _ _ => ⟨t, hcall, ht, hsuffix, hpending⟩⟩
    | false =>
      rw [heq, rewrite_of_not_rewrites hrewrites]
      exact ⟨Or.inl rfl, fun _ hfalse => by simp at hfalse⟩
  · obtain ⟨e, heq⟩ := discardBatch_of_not_readable hn fun hr => hscans (hreadable.mp hr)
    rw [heq]
    exact ⟨Or.inl rfl, fun hcontra => absurd hcontra hscans⟩

/-! ## Sequences of calls -/

/-- The calls a store answers; `reopen` is `__init__` over the same file. -/
inductive Call (P : Type) where
  | append (payload : P)
  | peekBatch (maxItems : ℤ)
  | discardBatch (count : ℤ)
  | reopen (maxEntries : ℤ)

/-- What a call returns. -/
inductive Answer (P : Type) where
  | none
  | batch (items : List P)

/-- One call on a disk that works. -/
def answer (codec : JsonCodec P) (s : DiskSpillStore) :
    Call P → Except PyError (Answer P) × DiskSpillStore
  | .append payload =>
    let (result, t) := DiskSpillStore.append codec .working payload s
    (result.map fun _ => .none, t)
  | .peekBatch maxItems =>
    let (result, t) := DiskSpillStore.peekBatch codec .working maxItems s
    (result.map .batch, t)
  | .discardBatch count =>
    let (result, t) := DiskSpillStore.discardBatch codec .working count s
    (result.map fun _ => .none, t)
  | .reopen maxEntries =>
    match init .working maxEntries s.file with
    | .ok t => (.ok .none, t)
    | .error e => (.error e, s)

/-- The store under a sequence of calls. -/
def calls (codec : JsonCodec P) :
    Machine DiskSpillStore (Call P) (Except PyError (Answer P)) where
  step s c := ((answer codec s c).2, (answer codec s c).1)

/-- What a bounded queue does at a call. -/
def Queues (codec : JsonCodec P) (s : DiskSpillStore) (c : Call P) : Prop :=
  let (result, t) := answer codec s c
  t.count = (linesOf t.file).length ∧
    match c with
    | .append payload =>
      result = .ok .none ∧
        (∃ kept, kept <:+ pending codec s ∧ pending codec t = kept ++ [payload]) ∧
        (10 * ((linesOf s.file).length + 1) ≤ 11 * s.maxEntries →
          pending codec t = pending codec s ++ [payload]) ∧
        10 * t.count ≤ 11 * s.maxEntries
    | .peekBatch n => result = .ok (.batch ((pending codec s).take n.toNat)) ∧ t = s
    | .discardBatch n =>
      n ≤ (pending codec s).length →
        result = .ok .none ∧ pending codec t = (pending codec s).drop n.toNat
    | .reopen _ => result = .ok .none ∧ pending codec t = pending codec s

/-- The lines a call walks are JSON, or `json.loads` says that they are not. -/
def Parses (codec : JsonCodec P) (s : DiskSpillStore) : Call P → Prop
  | .append _ => True
  | .peekBatch n => Scans codec n.toNat (linesOf s.file)
  | .discardBatch n =>
    n ≤ (pending codec s).length → Scans codec n.toNat (linesOf s.file)
  | .reopen _ => True

theorem answer_append (hcodec : codec.Lawful) (h : Sound s) (payload : P) :
    Sound (answer codec s (.append payload)).2 ∧ Queues codec s (.append payload) := by
  obtain ⟨line, hline⟩ := hcodec payload
  have hworking : Disk.working.appends = .done := rfl
  obtain ⟨t, k, hstate, ht, hmax, hfile, hall, hends⟩ := h.append hworking rfl hline
  obtain ⟨hok, hbound⟩ := hends rfl
  have heq : DiskSpillStore.append codec .working payload s = (.ok (), t) := Prod.ext hok hstate
  have hanswer : answer codec s (.append payload) = (.ok .none, t) := by
    simp only [answer, heq]
    rfl
  have hpending : pending codec t = valid codec ((linesOf s.file).drop k) ++ [payload] := by
    unfold pending
    rw [hfile, valid_append, valid_cons, entry_of_serialises hline]
    rfl
  unfold Queues
  rw [hanswer]
  refine ⟨ht, ht.count_eq, rfl, ⟨_, ?_, hpending⟩, fun hroom => ?_, hmax ▸ hbound⟩
  · exact (List.drop_suffix k _).filterMap _
  · rw [hpending, hall hroom, List.drop_zero]
    rfl

theorem answer_peekBatch (h : Sound s) (n : ℤ) :
    Sound (answer codec s (.peekBatch n)).2 ∧
      (Queues codec s (.peekBatch n) ↔ Parses codec s (.peekBatch n)) := by
  unfold Queues Parses
  rcases Int.lt_or_le 0 n with hn | hn
  · rcases em (Scans codec n.toNat (linesOf s.file)) with hscans | hscans
    · have heq := peekBatch_working h.terminated.isText hn hscans
      simp only [answer, heq, Except.map, h.count_eq, hscans, and_self, h]
    · have hread := mt (readable_working_iff h.terminated.isText n).mp hscans
      obtain ⟨e, heq⟩ := peekBatch_of_not_readable hn hread
      simp only [answer, heq, Except.map, hscans, h, true_and, iff_false]
      rintro ⟨-, hok, -⟩
      exact absurd hok (by simp)
  · have heq : peekBatch codec .working n s = (.ok [], s) := peekBatch_of_nonpos hn
    simp only [answer, heq, Except.map, Int.toNat_of_nonpos hn, List.take_zero, h.count_eq,
      and_self, h, true_and, true_iff]
    exact fun _ _ _ _ hlen => absurd hlen (Nat.not_lt_zero _)

theorem answer_discardBatch (h : Sound s) (n : ℤ) :
    Sound (answer codec s (.discardBatch n)).2 ∧
      (Queues codec s (.discardBatch n) ↔ Parses codec s (.discardBatch n)) := by
  unfold Queues Parses
  rcases Int.lt_or_le 0 n with hn | hn
  · rcases em (Scans codec n.toNat (linesOf s.file)) with hscans | hscans
    · have hworking : Disk.working.reads = true := rfl
      obtain ⟨t, heq, ht, -, hpending⟩ := (h.discardBatch hworking hn).2 hscans rfl
      simp only [answer, heq, Except.map, ht.count_eq, hscans, hpending, and_self, ht, implies_true]
    · have hread : ¬ Readable codec .working n s.file := fun hr => hscans hr.2
      obtain ⟨e, heq⟩ := discardBatch_of_not_readable hn hread
      simp only [answer, heq, Except.map, hscans, h, true_and, h.count_eq, imp_false, reduceCtorEq,
        false_and]
  · have heq : DiskSpillStore.discardBatch codec .working n s = (.ok (), s) :=
      discardBatch_of_nonpos hn
    simp only [answer, heq, Except.map, Int.toNat_of_nonpos hn, List.drop_zero, h.count_eq,
      and_self, h, true_and, implies_true, true_iff]
    exact fun _ _ _ _ _ hlen => absurd hlen (Nat.not_lt_zero _)

theorem answer_reopen (h : Sound s) (maxEntries : ℤ) :
    Sound (answer codec s (.reopen maxEntries)).2 ∧ Queues codec s (.reopen maxEntries) := by
  obtain ⟨t, heq, hfile, ht, -⟩ := init_of_terminated maxEntries h.terminated
  unfold Queues
  simp only [answer, heq, pending, hfile]
  exact ⟨ht, hfile ▸ ht.count_eq, trivial, trivial⟩

/-- At a sound store, a call does what a queue does exactly when the lines it
walks parse; the store is sound behind it in any case. -/
theorem queues_iff (hcodec : codec.Lawful) (h : Sound s) (c : Call P) :
    Sound (answer codec s c).2 ∧ (Queues codec s c ↔ Parses codec s c) := by
  cases c with
  | append payload =>
    obtain ⟨hsound, hqueues⟩ := answer_append hcodec h payload
    exact ⟨hsound, iff_of_true hqueues trivial⟩
  | peekBatch n => exact answer_peekBatch h n
  | discardBatch n => exact answer_discardBatch h n
  | reopen maxEntries =>
    obtain ⟨hsound, hqueues⟩ : Sound (answer codec s (.reopen maxEntries)).2 ∧
        Queues codec s (.reopen maxEntries) := answer_reopen h maxEntries
    exact ⟨hsound, iff_of_true hqueues trivial⟩

/-- The spill store is a bounded queue, over any terminated file and through
any calls and restarts, at exactly the calls whose lines parse. -/
theorem spillStore_queues_iff (codec : JsonCodec P) (hcodec : codec.Lawful) (maxEntries : ℤ)
    {file : File} (hfile : TerminatedFile file) :
    ∃ s, init .working maxEntries file = .ok s ∧ s.file = file ∧
      s.count = (linesOf file).length ∧
      ∀ cs, (calls codec).Guarded (fun t c => Queues codec t c ↔ Parses codec t c) s cs := by
  obtain ⟨s, hinit, rfl, hs, -⟩ := init_of_terminated maxEntries hfile
  refine ⟨s, hinit, rfl, hs.count_eq, fun cs => ?_⟩
  have hall : (calls codec).Guarded (fun _ _ => True) s cs :=
    (Machine.guarded_iff _ _ _ _).mpr fun _ _ _ _ => trivial
  exact Machine.guarded_of_guarded (calls codec)
    (fun t c (ht : Sound t) _ => queues_iff hcodec ht c) hs hall

/-- A corrupt line between two entries. -/
def mixedFile : File := some (joinLines [idText 1, "?", idText 2]).toUTF8

theorem mixedFile_spec :
    TerminatedFile mixedFile ∧ linesOf mixedFile = [idText 1, "?", idText 2] := by
  have hentry : ∀ id, IsLine (idText id) := by
    intro id
    obtain ⟨line, hline⟩ := idCodec_lawful id
    obtain rfl : idText id = line := Except.ok.inj hline.dumps
    exact hline.isLine
  have hcorrupt : IsLine "?" := ⟨⟨by decide, by decide⟩, by decide⟩
  exact linesOf_joinLines (by simp [hentry, hcorrupt])

theorem spillStore_queues_iff_of_mixed :
    ∃ s, init .working 3 mixedFile = .ok s ∧ s.file = mixedFile ∧
      s.count = (linesOf mixedFile).length ∧
      ∀ cs, (calls idCodec).Guarded (fun t c => Queues idCodec t c ↔ Parses idCodec t c) s cs :=
  spillStore_queues_iff idCodec idCodec_lawful 3 mixedFile_spec.1

/-- An integer of 4301 digits makes `peek_batch` raise. -/
theorem spillStore_not_queues_of_long_integer :
    idCodec.Lawful ∧ TerminatedFile (onesFile 4299) ∧
      ∃ s, init .working 3 (onesFile 4299) = .ok s ∧
        ¬ (calls idCodec).Guarded (Queues idCodec) s [.peekBatch 1] := by
  obtain ⟨hterm, hlines⟩ := onesFile_spec 4299
  obtain ⟨s, hinit, hfile, hs, -⟩ := init_of_terminated 3 hterm
  refine ⟨idCodec_lawful, hterm, s, hinit, fun hguard => ?_⟩
  have hscans : Scans idCodec 1 (linesOf s.file) := (queues_iff idCodec_lawful hs _).2.mp hguard.1
  rw [hfile, hlines] at hscans
  have hdigits : maxStrDigits < 4299 + 2 := by
    unfold maxStrDigits
    omega
  exact hscans [] (ones 4299) [] rfl Nat.one_pos (raises_ones hdigits)

end DiskSpillStore

end SmartIDS.Forwarding
