import SmartIDS.Forwarding.SpillFifo
import SmartIDS.Python.JsonNormalForm
set_option autoImplicit false

/-!
# Forwarding: the spill store over `json` itself

The codec of the store is what `json.dumps` and `json.loads` do, on the
dictionaries that `json.dumps` does not refuse.  A store that starts without a file
holds nothing but lines it wrote, so no call ever meets a corrupt one: every call
does what a bounded queue does.
-/

namespace SmartIDS.Forwarding

open SmartIDS.Foundation SmartIDS.Python

/-- A dictionary that `json.dumps` does not refuse. -/
structure Payload (floats : FloatText) (depth : ℕ) where
  entries : JsonObject
  decoded : Decoded floats depth (.obj entries)

/-- `json.dumps(payload, ensure_ascii=True)`, and `json.loads` with the check that
the document is a dictionary. -/
def jsonCodec (floats : FloatText) (depth : ℕ) : JsonCodec (Payload floats depth) where
  dumps payload := dumps floats depth (.obj payload.entries)
  loads line :=
    match h : loads floats depth line with
    | .ok (.obj entries) => .ok (some ⟨entries, decoded_loads h⟩)
    | .ok _ => .ok none
    | .error e => .error e

theorem jsonCodec_loads {floats : FloatText} {depth : ℕ} {line : String}
    (payload : Payload floats depth) (h : loads floats depth line = .ok (.obj payload.entries)) :
    (jsonCodec floats depth).loads line = .ok (some payload) := by
  unfold jsonCodec
  dsimp only
  split
  · next entries heq =>
    obtain rfl : entries = payload.entries := Json.obj.inj (Except.ok.inj (heq.symm.trans h))
    rfl
  · next j hj heq => exact absurd (Except.ok.inj (heq.symm.trans h)) fun hobj => hj _ hobj
  · next e heq => exact absurd (heq.symm.trans h) (by simp)

/-- A text of printable characters between braces is one line, and nothing is stripped off it. -/
theorem isLine_jsonObject {texts : List (String × String)} (h : Printable (jsonObject texts)) :
    IsLine (jsonObject texts) ∧ strip (jsonObject texts) = jsonObject texts := by
  have hstrip : strip (jsonObject texts) = jsonObject texts := by
    have hends : stripList isSpace (jsonObject texts).toList = (jsonObject texts).toList := by
      rw [toList_jsonObject]
      exact stripList_of_ends (by decide) (by decide) _
    unfold strip
    rw [hends, String.ofList_toList]
  refine ⟨⟨⟨?_, ?_⟩, ?_⟩, hstrip⟩
  · exact fun hc => absurd (h _ hc).1 (by decide)
  · exact fun hc => absurd (h _ hc).1 (by decide)
  · rw [hstrip]
    exact jsonObject_ne_empty texts

theorem serialises_of_dumps {floats : FloatText} {depth : ℕ} {payload : Payload floats depth}
    {line : String} (h : dumps floats depth (.obj payload.entries) = .ok line) :
    (jsonCodec floats depth).Serialises payload line := by
  have hproper := payload.decoded.proper
  obtain ⟨isLine, stripped⟩ : IsLine line ∧ strip line = line := by
    have hprintable := printable_dumps h hproper
    cases depth with
    | zero => exact absurd h (by simp [dumps])
    | succ depth =>
      obtain ⟨texts, -, hjoin⟩ := bind_eq_ok_iff.mp h
      rw [← Except.ok.inj hjoin] at hprintable ⊢
      exact isLine_jsonObject hprintable
  exact ⟨h, isLine, stripped, jsonCodec_loads payload (loads_dumps le_rfl h hproper)⟩

theorem jsonCodec_lawful (floats : FloatText) (depth : ℕ) : (jsonCodec floats depth).Lawful := by
  intro payload
  obtain ⟨line, hline⟩ := payload.decoded.written
  exact ⟨line, serialises_of_dumps hline⟩

/-! ## A store of its own lines -/

namespace DiskSpillStore

variable {P : Type} {codec : JsonCodec P} {s : DiskSpillStore}

/-- A sound store whose lines are all dumps of payloads. -/
structure Written (codec : JsonCodec P) (s : DiskSpillStore) : Prop where
  sound : Sound s
  dumped : ∀ line ∈ linesOf s.file, ∃ payload, codec.Serialises payload line

theorem not_raises_of_serialises {payload : P} {line : String} (h : codec.Serialises payload line) :
    ¬ Raises codec line := by
  rintro ⟨e, hloads, -⟩
  rw [h.stripped, h.loads] at hloads
  exact absurd hloads (by simp)

/-- Every line parses. -/
theorem Written.scans (h : Written codec s) (n : ℕ) : Scans codec n (linesOf s.file) :=
  scans_of_not_raises (fun line hline => by
    obtain ⟨payload, hpayload⟩ := h.dumped line hline
    exact not_raises_of_serialises hpayload) n

theorem Written.queues (h : Written codec s) (hcodec : codec.Lawful) (c : Call P) :
    Queues codec s c := by
  refine (queues_iff hcodec h.sound c).2.mpr ?_
  cases c with
  | append payload => trivial
  | peekBatch n => exact h.scans _
  | discardBatch n => exact fun _ => h.scans _
  | reopen maxEntries => trivial

/-- The lines behind a call: some of the file, and the one it appends. -/
theorem Written.answer (h : Written codec s) (hcodec : codec.Lawful) (c : Call P) :
    Written codec (answer codec s c).2 := by
  refine ⟨(queues_iff hcodec h.sound c).1, fun line hline => ?_⟩
  have hworking : Disk.working.appends = .done ∧ Disk.working.reads = true := ⟨rfl, rfl⟩
  cases c with
  | append payload =>
    obtain ⟨new, hnew⟩ := hcodec payload
    obtain ⟨t, k, hstate, -, -, hfile, -⟩ := h.sound.append hworking.1 rfl hnew
    rw [show (DiskSpillStore.answer codec s (.append payload)).2 = t from hstate, hfile] at hline
    rcases List.mem_append.mp hline with hmem | hmem
    · exact h.dumped line (List.mem_of_mem_drop hmem)
    · rw [List.mem_singleton.mp hmem]
      exact ⟨payload, hnew⟩
  | peekBatch n =>
    have hsame : (DiskSpillStore.answer codec s (.peekBatch n)).2 = s :=
      (h.queues hcodec (.peekBatch n)).2.2
    rw [hsame] at hline
    exact h.dumped line hline
  | discardBatch n =>
    rcases Int.lt_or_le 0 n with hn | hn
    · obtain ⟨t, heq, -, hsuffix, -⟩ := (h.sound.discardBatch hworking.2 hn).2 (h.scans _) rfl
      have hstate : (DiskSpillStore.answer codec s (.discardBatch n)).2 = t := congrArg Prod.snd heq
      rw [hstate] at hline
      exact h.dumped line (hsuffix.subset hline)
    · have hsame : (DiskSpillStore.answer codec s (.discardBatch n)).2 = s :=
        congrArg Prod.snd (discardBatch_of_nonpos hn)
      rw [hsame] at hline
      exact h.dumped line hline
  | reopen maxEntries =>
    obtain ⟨t, heq, hfile, -⟩ := init_of_terminated maxEntries h.sound.terminated
    simp only [DiskSpillStore.answer, heq, hfile] at hline
    exact h.dumped line hline

/-- A store that starts without a file is a bounded queue of dictionaries, through any
calls and restarts: what a batch holds are the very payloads that were appended. -/
theorem jsonSpill_queues (floats : FloatText) (depth : ℕ) (maxEntries : ℤ) :
    ∃ s, init .working maxEntries none = .ok s ∧ pending (jsonCodec floats depth) s = [] ∧
      ∀ cs, (calls (jsonCodec floats depth)).Guarded
        (fun t c => Queues (jsonCodec floats depth) t c) s cs := by
  have hempty : TerminatedFile none := trivial
  obtain ⟨s, hinit, hfile, hs, -⟩ := init_of_terminated maxEntries hempty
  have hwritten : Written (jsonCodec floats depth) s :=
    ⟨hs, fun line hline => absurd hline (by rw [hfile]; simp [linesOf, readText])⟩
  refine ⟨s, hinit, ?_, fun cs => ?_⟩
  · unfold pending
    rw [hfile]
    rfl
  · have hlawful := jsonCodec_lawful floats depth
    have hall : (calls (jsonCodec floats depth)).Guarded (fun _ _ => True) s cs :=
      (Machine.guarded_iff _ _ _ _).mpr fun _ _ _ _ => trivial
    exact Machine.guarded_of_guarded (calls (jsonCodec floats depth))
      (fun t c (ht : Written _ t) _ => ⟨ht.answer hlawful c, ht.queues hlawful c⟩) hwritten hall

end DiskSpillStore

end SmartIDS.Forwarding
