import Mathlib.Data.List.ReduceOption
import SmartIDS.ResponseEngine.IpActivityLedger
set_option autoImplicit false

/-!
# ResponseEngine: the log file of the IP activity tracker

Every record is appended to the file, and whenever so many of them have been written
the file is cut down to its newest lines.  The counter is set back before the file is
read, so that it is the number of records modulo the interval; the file is longer
than its limit by the counter at most, once it has been cut down.
-/

namespace SmartIDS.ResponseEngine

open SmartIDS.Foundation SmartIDS.PacketCapture SmartIDS.Python

/-! ## What is written is one line -/

theorem printable_dumps (e : ActionEntry) : Printable e.dumps := by
  refine printable_jsonObject fun entry hentry => ?_
  simp only [List.mem_cons, List.not_mem_nil, or_false] at hentry
  rcases hentry with rfl | rfl | rfl <;> exact printable_jsonString _

theorem IpActivity.printable_payload (maxActionHistory : ℕ) (ipAddress : String)
    (recordedAt : Datetime) (a : IpActivity) :
    Printable (a.payload maxActionHistory ipAddress recordedAt) := by
  have htypes : Printable (jsonArray ((a.attackTypesUsed.sort (· ≤ ·)).map jsonString)) := by
    refine printable_jsonArray fun value hvalue => ?_
    obtain ⟨attackType, -, rfl⟩ := List.mem_map.mp hvalue
    exact printable_jsonString attackType
  have hhistory : Printable (jsonArray
      ((BoundedFifo.newest maxActionHistory a.actionHistory).map ActionEntry.dumps)) := by
    refine printable_jsonArray fun value hvalue => ?_
    obtain ⟨e, -, rfl⟩ := List.mem_map.mp hvalue
    exact printable_dumps e
  refine printable_jsonObject fun entry hentry => ?_
  simp only [List.mem_cons, List.not_mem_nil, or_false] at hentry
  rcases hentry with rfl | rfl | rfl | rfl | rfl | rfl | rfl | rfl
  · exact printable_jsonString _
  · exact printable_jsonString _
  · exact printable_jsonString _
  · exact printable_toString _
  · exact htypes
  · exact printable_jsonString _
  · exact hhistory
  · exact printable_jsonString _

theorem IpActivity.payload_ne_empty (maxActionHistory : ℕ) (ipAddress : String)
    (recordedAt : Datetime) (a : IpActivity) :
    a.payload maxActionHistory ipAddress recordedAt ≠ "" := jsonObject_ne_empty _

namespace IPActivityTracker

variable {s : IPActivityTracker}

/-! ## One call -/

theorem file_pruneState (s : IPActivityTracker) : s.pruneState.file = s.file := by
  unfold pruneState
  split <;> rfl

theorem records_pruneState (s : IPActivityTracker) :
    s.pruneState.recordsSinceCompaction = s.recordsSinceCompaction := by
  unfold pruneState
  split <;> rfl

/-- The line a call writes. -/
def line (s : IPActivityTracker) (now : Datetime) (c : ActivityCall) : String :=
  (s.activity now.isoformat c.record).payload s.limits.maxActionHistory c.record.ipAddress
    c.recordedAt

/-- The tracker once the line is written. -/
def logged (s : IPActivityTracker) (now : Datetime) (c : ActivityCall) : IPActivityTracker :=
  { (s.noted now c.record).pruneState with
    file := s.file.extend (s.line now c ++ "\n").toUTF8
    recordsSinceCompaction := s.recordsSinceCompaction + 1 }

/-- Once the line is appended the file is cut down, if that is due. -/
theorem recordActivity_of_appended {now : Datetime} {c : ActivityCall}
    (hnow : Datetime.fromTimestamp c.record.timestamp = .ok now) (hdisk : c.disk.appends = .done) :
    recordActivity c.record c.recordedAt c.disk s =
      compactFileIfNeeded c.disk (s.logged now c) := by
  unfold recordActivity
  rw [hdisk, Effect.bind_of_ok (a := now) (t := s) (by rw [Effect.ofExcept_apply, hnow]),
    Effect.bind_of_ok (Effect.get_apply s), Effect.bind_of_ok (Effect.modify_apply _ s),
    Effect.bind_of_ok (Effect.modify_apply _ _)]
  have hfile : (s.noted now c.record).pruneState.file = s.file := file_pruneState _
  have happend : onFile (appendText .done (s.line now c ++ "\n"))
      (s.noted now c.record).pruneState =
        (.ok (), { (s.noted now c.record).pruneState with
          file := s.file.extend (s.line now c ++ "\n").toUTF8 }) := by
    rw [← hfile]
    rfl
  refine (Effect.bind_of_ok happend).trans ((Effect.bind_of_ok (Effect.modify_apply _ _)).trans ?_)
  have hcount := records_pruneState (s.noted now c.record)
  simp only [logged, hcount]
  rfl

theorem recordActivity_working {now : Datetime} {c : ActivityCall}
    (hnow : Datetime.fromTimestamp c.record.timestamp = .ok now) (hdisk : c.disk = .working) :
    recordActivity c.record c.recordedAt c.disk s =
      compactFileIfNeeded .working (s.logged now c) := by
  rw [recordActivity_of_appended hnow (by rw [hdisk]; rfl), hdisk]

theorem readText_terminated {file : File} (h : TerminatedFile file) :
    (readText file = .error .osError ∧ splitlinesOf file = []) ∨
      ∃ text, readText file = .ok text ∧
        (splitlines text.toList).map String.ofList = splitlinesOf file := by
  cases file with
  | none => exact Or.inl ⟨rfl, rfl⟩
  | some bytes =>
    obtain ⟨text, rfl, -⟩ := h
    refine Or.inr ⟨_, readText_toUTF8 text, ?_⟩
    rw [String.toList_ofList, splitlinesOf_toUTF8]

/-- The file is cut down when its time has come, and stays as it is otherwise. -/
theorem compactFileIfNeeded_working (hterm : TerminatedFile s.file) :
    ∃ t, compactFileIfNeeded .working s = (.ok (), t) ∧ t.limits = s.limits ∧
      TerminatedFile t.file ∧
      (s.recordsSinceCompaction < s.limits.fileCompactionIntervalRecords →
        t.recordsSinceCompaction = s.recordsSinceCompaction ∧
          splitlinesOf t.file = splitlinesOf s.file) ∧
      (s.limits.fileCompactionIntervalRecords ≤ s.recordsSinceCompaction →
        t.recordsSinceCompaction = 0 ∧
          splitlinesOf t.file =
            BoundedFifo.newest s.limits.maxFileEntries (splitlinesOf s.file)) := by
  unfold compactFileIfNeeded
  rw [Effect.bind_of_ok (Effect.get_apply s)]
  rcases lt_or_ge s.recordsSinceCompaction s.limits.fileCompactionIntervalRecords with hlt | hge
  · rw [if_pos hlt]
    exact ⟨s, rfl, rfl, hterm, fun _ => ⟨rfl, rfl⟩, fun hge => absurd hlt (by omega)⟩
  · rw [if_neg (by omega), Effect.bind_of_ok (Effect.modify_apply _ s)]
    rcases readText_terminated hterm with ⟨hread, hnone⟩ | ⟨text, hread, htext⟩
    · refine ⟨{ s with recordsSinceCompaction := 0 }, ?_, rfl, hterm,
        fun hlt => absurd hge (by omega), fun _ => ⟨rfl, ?_⟩⟩
      · simp only [LogDisk.working, if_pos, hread]
        rfl
      · simp only [hnone]
        exact (BoundedFifo.newest_of_length_le (Nat.zero_le _)).symm
    · simp only [LogDisk.working, if_pos, hread, htext]
      split
      · next hroom =>
        refine ⟨_, rfl, rfl, hterm, fun hlt => absurd hge (by omega), fun _ => ⟨rfl, ?_⟩⟩
        exact (BoundedFifo.newest_of_length_le hroom).symm
      · next hfull =>
        have hne : BoundedFifo.newest s.limits.maxFileEntries (splitlinesOf s.file) ≠ [] := by
          have hlength := BoundedFifo.length_newest s.limits.maxFileEntries (splitlinesOf s.file)
          have hpos := s.limits.maxFileEntries_pos
          intro hnil
          rw [hnil, List.length_nil] at hlength
          omega
        obtain ⟨hterm', hlines⟩ := splitlinesOf_joinedLines
          (fun line hline => isWhole_of_mem_splitlinesOf (BoundedFifo.mem_of_mem_newest hline)) hne
        exact ⟨_, rfl, rfl, hterm', fun hlt => absurd hge (by omega), fun _ => ⟨rfl, hlines⟩⟩

/-! ## When a call returns -/

/-- The file can be cut down, if that is due: what can be read is a text, and where lines have
to go it can be written. -/
def Compactable (disk : LogDisk) (s : IPActivityTracker) : Prop :=
  s.limits.fileCompactionIntervalRecords ≤ s.recordsSinceCompaction → disk.reads = true →
    readText s.file ≠ .error .unicodeDecodeError ∧
      ∀ text, readText s.file = .ok text →
        s.limits.maxFileEntries < (splitlines text.toList).length → disk.rewrites = .done

theorem compactFileIfNeeded_returns_iff (disk : LogDisk) :
    (compactFileIfNeeded disk s).1 = .ok () ↔ s.Compactable disk := by
  unfold compactFileIfNeeded Compactable
  rw [Effect.bind_of_ok (Effect.get_apply s)]
  rcases lt_or_ge s.recordsSinceCompaction s.limits.fileCompactionIntervalRecords with hlt | hge
  · rw [if_pos hlt]
    exact iff_of_true rfl fun hge => absurd hlt (by omega)
  · rw [if_neg (by omega), Effect.bind_of_ok (Effect.modify_apply _ s)]
    cases hreads : disk.reads with
    | false => exact iff_of_true rfl fun _ hreads => by cases hreads
    | true =>
      simp only [if_pos]
      rcases readText_cases s.file with hread | hread | ⟨text, hread⟩
      · rw [hread]
        exact iff_of_true rfl fun _ _ => ⟨by simp, fun text htext => by cases htext⟩
      · rw [hread]
        exact iff_of_false (by simp) fun h => (h hge trivial).1 rfl
      · rw [hread]
        dsimp only
        rw [List.length_map]
        split
        · next hroom =>
          refine iff_of_true rfl fun _ _ => ⟨by simp, fun text' htext hfull => ?_⟩
          obtain rfl := Except.ok.inj htext
          omega
        · next hfull =>
          constructor
          · intro hwrite
            refine fun _ _ => ⟨by simp, fun _ _ _ => ?_⟩
            cases hrewrites : disk.rewrites with
            | done => rfl
            | refused => rw [hrewrites] at hwrite; cases hwrite
            | torn bytes => rw [hrewrites] at hwrite; cases hwrite
          · intro h
            rw [(h hge trivial).2 text rfl (by omega)]
            rfl

/-- The call is logged: its time is a date, the line is appended, and the file can be cut down
behind it. -/
structure Accepts (s : IPActivityTracker) (c : ActivityCall) : Prop where
  dated : ∃ now, Datetime.fromTimestamp c.record.timestamp = .ok now
  appends : c.disk.appends = .done
  compacts : ∀ now, Datetime.fromTimestamp c.record.timestamp = .ok now →
    (s.logged now c).Compactable c.disk

theorem recordActivity_returns_iff (c : ActivityCall) :
    (recordActivity c.record c.recordedAt c.disk s).1 = .ok () ↔ s.Accepts c := by
  cases hnow : Datetime.fromTimestamp c.record.timestamp with
  | error e =>
    refine iff_of_false ?_ fun h => ?_
    · unfold recordActivity
      rw [hnow, Effect.bind_of_error (Effect.ofExcept_apply _ _)]
      simp
    · obtain ⟨now, hok⟩ := h.dated
      rw [hnow] at hok
      cases hok
  | ok now =>
    rcases em (c.disk.appends = .done) with happends | happends
    · rw [recordActivity_of_appended hnow happends, compactFileIfNeeded_returns_iff]
      refine ⟨fun h => ⟨⟨now, hnow⟩, happends, fun now' hnow' => ?_⟩, fun h => h.compacts now hnow⟩
      obtain rfl := Except.ok.inj (hnow.symm.trans hnow')
      exact h
    · refine iff_of_false ?_ fun h => happends h.appends
      unfold recordActivity
      rw [Effect.bind_of_ok (a := now) (t := s) (by rw [Effect.ofExcept_apply, hnow]),
        Effect.bind_of_ok (Effect.get_apply s), Effect.bind_of_ok (Effect.modify_apply _ s),
        Effect.bind_of_ok (Effect.modify_apply _ _)]
      cases hdisk : c.disk.appends with
      | done => exact absurd hdisk happends
      | refused =>
        intro h
        cases h
      | torn bytes =>
        intro h
        cases h

/-! ## Runs -/

/-- The record a call writes; none where its time stamp is refused. -/
def written (s : IPActivityTracker) (c : ActivityCall) : Option String :=
  match Datetime.fromTimestamp c.record.timestamp with
  | .ok now => some (s.line now c)
  | .error _ => none

/-- The tracker under a sequence of calls, with the records they write. -/
def logging : Machine IPActivityTracker ActivityCall (Option String) where
  step s c := ((recordActivity c.record c.recordedAt c.disk s).2, s.written c)

/-- The records a sequence of calls writes. -/
def records (s : IPActivityTracker) (cs : List ActivityCall) : List String :=
  (logging.trace s cs).reduceOption

/-- What the file is once these records are written to it. -/
structure Logs (limits : TrackerLimits) (file : File) (records : List String)
    (s : IPActivityTracker) : Prop where
  limits_eq : s.limits = limits
  terminated : TerminatedFile s.file
  suffix : splitlinesOf s.file <:+ splitlinesOf file ++ records
  newest : ∀ record, records.getLast? = some record → (splitlinesOf s.file).getLast? = some record
  counter : s.recordsSinceCompaction = records.length % limits.fileCompactionIntervalRecords
  bounded : limits.fileCompactionIntervalRecords ≤ records.length →
    (splitlinesOf s.file).length ≤
      limits.maxFileEntries + records.length % limits.fileCompactionIntervalRecords

theorem logs_init (limits : TrackerLimits) {file : File} (hterm : TerminatedFile file) :
    Logs limits file [] (init limits file) where
  limits_eq := rfl
  terminated := hterm
  suffix := by
    rw [List.append_nil]
    exact List.suffix_rfl
  newest _ hnone := absurd hnone (by simp)
  counter := (Nat.zero_mod _).symm
  bounded hle := absurd limits.interval_pos (by simpa using hle)

/-- The counter before it is tested is one more than a remainder. -/
theorem mod_succ_cases (k : ℕ) {n : ℕ} (hn : 0 < n) :
    (k % n + 1 < n ∧ (k + 1) % n = k % n + 1 ∧ (n ≤ k + 1 → n ≤ k)) ∨
      (n ≤ k % n + 1 ∧ (k + 1) % n = 0) := by
  have hlt := Nat.mod_lt k hn
  rcases Nat.lt_or_ge (k % n + 1) n with hroom | hfull
  · refine Or.inl ⟨hroom, ?_, fun hle => ?_⟩
    · rw [← Nat.mod_add_mod, Nat.mod_eq_of_lt hroom]
    · by_contra hnot
      rw [Nat.mod_eq_of_lt (by omega)] at hroom
      omega
  · refine Or.inr ⟨hfull, ?_⟩
    have heq : k % n + 1 = n := by omega
    rw [← Nat.mod_add_mod, heq, Nat.mod_self]

/-- One record more.  It is behind the others in the file, and stays there when the file
is cut down. -/
theorem Logs.record {limits : TrackerLimits} {file : File} {records : List String}
    (h : Logs limits file records s) {c : ActivityCall} {now : Datetime}
    (hnow : Datetime.fromTimestamp c.record.timestamp = .ok now) (hdisk : c.disk = .working) :
    Logs limits file (records ++ [s.line now c])
      (recordActivity c.record c.recordedAt c.disk s).2 := by
  have hline : Printable (s.line now c) := IpActivity.printable_payload _ _ _ _
  have hne : s.line now c ≠ "" := IpActivity.payload_ne_empty _ _ _ _
  obtain ⟨hterm, hlines⟩ := h.terminated.extend_splitlines hline hne
  obtain ⟨t, hcall, hlimits, hterm', hkeep, hcut⟩ :=
    compactFileIfNeeded_working (s := s.logged now c) hterm
  have hlimits' : (s.logged now c).limits = limits := (limits_pruneState _).trans h.limits_eq
  have hlines' : splitlinesOf (s.logged now c).file = splitlinesOf s.file ++ [s.line now c] := hlines
  have hcounter : (s.logged now c).recordsSinceCompaction =
      records.length % limits.fileCompactionIntervalRecords + 1 := congrArg (· + 1) h.counter
  rw [hlimits', hlines', hcounter] at hkeep hcut
  have hsuffix : splitlinesOf s.file ++ [s.line now c] <:+
      splitlinesOf file ++ (records ++ [s.line now c]) := by
    rw [← List.append_assoc]
    exact List.suffix_append_self_iff.mpr h.suffix
  have hlength : (records ++ [s.line now c]).length = records.length + 1 := by
    rw [List.length_append, List.length_singleton]
  have hnewest : ∀ record, (records ++ [s.line now c]).getLast? = some record →
      record = s.line now c := by
    intro record hrecord
    rw [List.getLast?_concat] at hrecord
    exact (Option.some.inj hrecord).symm
  rw [recordActivity_working hnow hdisk, hcall]
  rcases mod_succ_cases records.length limits.interval_pos with
    ⟨hroom, hmod, hle⟩ | ⟨hfull, hmod⟩
  · obtain ⟨hsince, hfile⟩ := hkeep hroom
    refine ⟨hlimits.trans hlimits', hterm', hfile ▸ hsuffix, fun record hrecord => ?_, ?_, ?_⟩
    · rw [hfile, hnewest record hrecord, List.getLast?_concat]
    · rw [hsince, hlength, hmod]
    · rw [hfile, hlength, hmod, List.length_append, List.length_singleton]
      intro hmany
      have hbound := h.bounded (hle hmany)
      omega
  · obtain ⟨hsince, hfile⟩ := hcut hfull
    refine ⟨hlimits.trans hlimits', hterm', ?_, fun record hrecord => ?_, ?_, fun _ => ?_⟩
    · rw [hfile]
      exact (BoundedFifo.newest_suffix _ _).trans hsuffix
    · rw [hfile, hnewest record hrecord]
      exact BoundedFifo.getLast?_newest_concat limits.maxFileEntries_pos _ _
    · rw [hsince, hlength, hmod]
    · rw [hfile, hlength, hmod]
      exact BoundedFifo.length_newest_le _ _

theorem Logs.written {limits : TrackerLimits} {file : File} {records : List String}
    (h : Logs limits file records s) {c : ActivityCall} (hdisk : c.disk = .working) :
    Logs limits file (records ++ (s.written c).toList)
      (recordActivity c.record c.recordedAt c.disk s).2 := by
  cases hnow : Datetime.fromTimestamp c.record.timestamp with
  | error e =>
    have hnone : s.written c = none := by
      unfold IPActivityTracker.written
      rw [hnow]
    rw [recordActivity_of_error hnow, hnone, Option.toList_none, List.append_nil]
    exact h
  | ok now =>
    have hsome : s.written c = some (s.line now c) := by
      unfold IPActivityTracker.written
      rw [hnow]
    rw [hsome]
    exact h.record hnow hdisk

theorem logs_exec (limits : TrackerLimits) {file : File} (hterm : TerminatedFile file)
    (cs : List ActivityCall) (hdisk : ∀ c ∈ cs, c.disk = .working) :
    Logs limits file (records (init limits file) cs) (logging.exec (init limits file) cs) := by
  induction cs using List.reverseRecOn with
  | nil => exact logs_init limits hterm
  | append_singleton cs c ih =>
    have hlogs := ih fun d hd => hdisk d (List.mem_append_left _ hd)
    unfold records at hlogs ⊢
    rw [Machine.exec_concat, Machine.trace_concat, List.reduceOption_append, List.reduceOption_singleton]
    exact hlogs.written (hdisk c (by simp))

/-- The file is a bounded suffix of all that was ever written to it, and the newest
record is in it. -/
theorem log_bounded_suffix (limits : TrackerLimits) (file : File) (hterm : TerminatedFile file)
    (cs : List ActivityCall) (hdisk : ∀ c ∈ cs, c.disk = .working) :
    let written := records (init limits file) cs
    let lines := splitlinesOf (logging.exec (init limits file) cs).file
    lines <:+ splitlinesOf file ++ written ∧
      (∀ record, written.getLast? = some record → record ∈ lines) ∧
      (limits.fileCompactionIntervalRecords ≤ written.length →
        lines.length ≤
          limits.maxFileEntries + written.length % limits.fileCompactionIntervalRecords) := by
  have hlogs := logs_exec limits hterm cs hdisk
  exact ⟨hlogs.suffix, fun record hrecord => List.mem_of_getLast? (hlogs.newest record hrecord),
    hlogs.bounded⟩

/-- Two entries at most, cut down at every second record. -/
def smallLimits : TrackerLimits := ⟨10, 2, 2, 2, by decide, by decide, by decide, by decide⟩

/-- Three records on a working disk. -/
def threeCalls : List ActivityCall :=
  [⟨⟨"10.0.0.1", "scan", "blocked", 20⟩, ⟨62135596820000000, by decide⟩, .working⟩,
    ⟨⟨"10.0.0.2", "scan", "watchlist", 21⟩, ⟨62135596821000000, by decide⟩, .working⟩,
    ⟨⟨"10.0.0.1", "bruteforce", "blocked", 22⟩, ⟨62135596822000000, by decide⟩, .working⟩]

theorem log_bounded_suffix_three :
    let file := some "a\nb\nc\n".toUTF8
    let written := records (init smallLimits file) threeCalls
    let lines := splitlinesOf (logging.exec (init smallLimits file) threeCalls).file
    written.length = 3 ∧ lines <:+ ["a", "b", "c"] ++ written ∧ lines.length ≤ 3 := by
  have hlines : splitlinesOf (some "a\nb\nc\n".toUTF8) = ["a", "b", "c"] := by
    rw [splitlinesOf_toUTF8]
    decide +kernel
  have hlength : (records (init smallLimits (some "a\nb\nc\n".toUTF8)) threeCalls).length = 3 := by
    decide +kernel
  obtain ⟨hsuffix, -, hbound⟩ := log_bounded_suffix smallLimits (some "a\nb\nc\n".toUTF8)
    ⟨_, rfl, Or.inr ⟨"a\nb\nc".toList, by decide +kernel⟩⟩ threeCalls (by decide)
  rw [hlength] at hbound
  rw [hlines] at hsuffix
  exact ⟨hlength, hsuffix, hbound (by decide)⟩

end IPActivityTracker

end SmartIDS.ResponseEngine
