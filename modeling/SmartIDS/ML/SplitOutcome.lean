import SmartIDS.ML.StratifiedSplit
set_option autoImplicit false

/-!
# ML: how a split can end

`split_prepared_dataset` checks its arguments and counts the labels before it
deletes the outputs of an earlier run.  Behind the deletion one step can still
fail: the digest of a file that no row was written to.  Whether that happens is
decided by the targets, that is, before the deletion.
-/

namespace SmartIDS.ML

open SmartIDS.Foundation SmartIDS.Foundation.SelectionSampling SmartIDS.Python

variable {Row Cleaned : Type} (env : SplitEnv Row Cleaned)

/-! ## The two halves -/

/-- `split_prepared_dataset` up to the deletion of earlier outputs. -/
def splitChecks (files : List (List Row)) (testSize : ℚ) (chunkSize progressEvery : ℤ)
    (force : Bool) : Effect PyError (SplitOutputs Cleaned) (Counter String × ℕ × ℕ) := do
  if ¬ (0 < testSize ∧ testSize < 1) then .ofExcept (.error .valueError)
  if chunkSize ≤ 0 then .ofExcept (.error .valueError)
  if progressEvery ≤ 0 then .ofExcept (.error .valueError)
  let outputs ← .get
  if outputs.existing ∧ force = false then .ofExcept (.error .osError)
  .ofExcept (countLabels env chunkSize.toNat files)

/-- `split_prepared_dataset` from the deletion of earlier outputs. -/
def splitWrites (files : List (List Row)) (testSize : ℚ) (randomSeed chunkSize : ℤ)
    (counted : Counter String × ℕ × ℕ) : Effect PyError (SplitOutputs Cleaned) Unit := do
  let testTargets := computeTestTargets env counted.1 testSize
  .modify fun _ => {}
  let s ← .zoom (fun outputs => { train := outputs.train, test := outputs.test })
    (fun s outputs => { outputs with train := s.train, test := s.test })
    (splitFiles env randomSeed counted.1 testTargets chunkSize.toNat files >>= fun _ => .get)
  let trainSha256 ← .ofExcept (sha256Of env s.train)
  let testSha256 ← .ofExcept (sha256Of env s.test)
  let metadata := s.metadata testSize randomSeed chunkSize counted trainSha256 testSha256
  .modify fun outputs => { outputs with metadata := some metadata }

section halves

variable (files : List (List Row)) (testSize : ℚ) (randomSeed chunkSize progressEvery : ℤ)
  (force : Bool) (outputs : SplitOutputs Cleaned)

/-- What the checks let through. -/
structure Admitted : Prop where
  testSize : 0 < testSize ∧ testSize < 1
  chunkSize : 0 < chunkSize
  progressEvery : 0 < progressEvery
  outputs : outputs.existing = true → force = true

theorem splitChecks_of_admitted (h : Admitted testSize chunkSize progressEvery force outputs) :
    splitChecks env files testSize chunkSize progressEvery force outputs =
      (countLabels env chunkSize.toNat files, outputs) := by
  obtain ⟨hsize, hchunk, hprogress, hexisting⟩ := h
  have hforce : ¬ (outputs.existing = true ∧ force = false) := by
    rintro ⟨hsome, hnot⟩
    rw [hexisting hsome] at hnot
    cases hnot
  unfold splitChecks
  simp only [not_not.mpr hsize, if_false, not_le.mpr hchunk, not_le.mpr hprogress]
  rw [Effect.bind_of_ok (Effect.get_apply outputs), if_neg hforce]
  rfl

theorem splitChecks_of_not_admitted
    (h : ¬ Admitted testSize chunkSize progressEvery force outputs) :
    ∃ e, splitChecks env files testSize chunkSize progressEvery force outputs =
      (.error e, outputs) := by
  unfold splitChecks
  rcases em (0 < testSize ∧ testSize < 1) with hsize | hsize
  · rcases lt_or_ge 0 chunkSize with hchunk | hchunk
    · rcases lt_or_ge 0 progressEvery with hprogress | hprogress
      · have hforce : outputs.existing = true ∧ force = false := by
          by_contra hnot
          refine h ⟨hsize, hchunk, hprogress, fun hsome => ?_⟩
          exact (Bool.eq_false_or_eq_true force).resolve_right fun hfalse => hnot ⟨hsome, hfalse⟩
        simp only [not_not.mpr hsize, if_false, not_le.mpr hchunk, not_le.mpr hprogress]
        rw [Effect.bind_of_ok (Effect.get_apply outputs), if_pos hforce]
        exact ⟨.osError, rfl⟩
      · simp only [not_not.mpr hsize, if_false, not_le.mpr hchunk, if_pos hprogress]
        exact ⟨.valueError, rfl⟩
    · simp only [not_not.mpr hsize, if_false, if_pos hchunk]
      exact ⟨.valueError, rfl⟩
  · rw [if_pos hsize]
    exact ⟨.valueError, rfl⟩

/-- The split is the checks and then the writes. -/
theorem splitPreparedDataset_eq :
    splitPreparedDataset env files testSize randomSeed chunkSize progressEvery force =
      splitChecks env files testSize chunkSize progressEvery force >>=
        splitWrites env files testSize randomSeed chunkSize := by
  funext outputs
  unfold splitPreparedDataset splitChecks
  rcases em (0 < testSize ∧ testSize < 1) with hsize | hsize
  · simp only [not_not.mpr hsize, if_false]
    split
    · rfl
    · split
      · rfl
      · rcases em (outputs.existing = true ∧ force = false) with hforce | hforce
        · simp only [Effect.bind_apply, Effect.get_apply, if_pos hforce, Effect.ofExcept_apply]
        · simp only [Effect.bind_apply, Effect.get_apply, if_neg hforce, Effect.ofExcept_apply]
          cases countLabels env chunkSize.toNat files with
          | error e => rfl
          | ok counted => rfl
  · rw [if_pos hsize, if_pos hsize]
    rfl

end halves

/-! ## When both files get a row -/

/-- The targets give the test file a row, and leave the train file one. -/
def BothSides (testSize : ℚ) (labels : List String) : Prop :=
  let targets := computeTestTargets env (Counter.of labels) testSize
  (∃ label, 0 < targets.count label) ∧ ∃ label, targets.count label < labels.count label

theorem labelsOf_eq_nil_iff {rows : List Cleaned} :
    rows = [] ↔ ∀ label, (labelsOf env rows).count label ≤ 0 := by
  constructor
  · rintro rfl label
    exact le_rfl
  · intro h
    cases rows with
    | nil => rfl
    | cons row rows =>
      have hpos : 0 < (labelsOf env (row :: rows)).count (env.label row) :=
        List.count_pos_iff.mpr List.mem_cons_self
      exact absurd (h (env.label row)) (not_le.mpr hpos)

variable {env}

section partition

variable {testSize : ℚ} {rows train test : List Cleaned}
  (h : StratifiedPartition env testSize rows train test)

include h

theorem StratifiedPartition.count_add (label : String) :
    (labelsOf env test).count label + (labelsOf env train).count label =
      (labelsOf env rows).count label := by
  obtain ⟨tags, rfl, rfl, rfl⟩ := h.partition
  exact count_selected_add_count_rejected env.label tags label

/-- The targets decide whether a file stays without rows. -/
theorem StratifiedPartition.bothSides_iff :
    BothSides env testSize (labelsOf env rows) ↔ ¬ (train = [] ∨ test = []) := by
  have htest : (∃ label, 0 < (computeTestTargets env (Counter.of (labelsOf env rows))
      testSize).count label) ↔ test ≠ [] := by
    rw [Ne, labelsOf_eq_nil_iff env, not_forall]
    refine exists_congr fun label => ?_
    rw [← h.exact label, not_le, Nat.cast_pos]
  have htrain : (∃ label, (computeTestTargets env (Counter.of (labelsOf env rows))
      testSize).count label < (labelsOf env rows).count label) ↔ train ≠ [] := by
    rw [Ne, labelsOf_eq_nil_iff env, not_forall]
    refine exists_congr fun label => ?_
    have hadd := h.count_add label
    rw [← h.exact label, not_le]
    omega
  rw [not_or]
  exact (and_congr htest htrain).trans and_comm

end partition

/-! ## The outcome -/

variable (env)

/-- The three files are there; the rows of the two divide those of the sources, and
the metadata tells of these two files. -/
def Complete (testSize : ℚ) (rows : List Cleaned) (outputs : SplitOutputs Cleaned) : Prop :=
  ∃ train test metadata, train ≠ [] ∧ test ≠ [] ∧
    outputs = { train := csvOf train, test := csvOf test, metadata := some metadata } ∧
    StratifiedPartition env testSize rows train test ∧
    CountsWritten env rows train test metadata ∧ DigestsWritten env train test metadata

/-- The split completes, or it raises; and if there were outputs before, it raises in
the checks, which leave them alone. -/
def CompletesOrSpares (files : List (List Row)) (testSize : ℚ)
    (randomSeed chunkSize progressEvery : ℤ) (force : Bool) (outputs : SplitOutputs Cleaned) :
    Prop :=
  let run :=
    splitPreparedDataset env files testSize randomSeed chunkSize progressEvery force outputs
  (run.1 = .ok () ∧ Complete env testSize (cleanedRows env files) run.2) ∨
    ∃ e, run.1 = .error e ∧ (outputs.existing = true →
      splitChecks env files testSize chunkSize progressEvery force outputs = (.error e, outputs))

variable {env}

/-- A split that its checks admit completes if both files get a row; otherwise it
raises behind the deletion. -/
theorem split_of_admitted {testSize : ℚ} (hexact : Exact env testSize) {files : List (List Row)}
    (hrows : cleanedRows env files ≠ []) (randomSeed : ℤ) {chunkSize progressEvery : ℤ}
    {force : Bool} {outputs : SplitOutputs Cleaned}
    (h : Admitted testSize chunkSize progressEvery force outputs) :
    let run :=
      splitPreparedDataset env files testSize randomSeed chunkSize progressEvery force outputs
    (∃ counted, splitChecks env files testSize chunkSize progressEvery force outputs =
      (.ok counted, outputs)) ∧
    (BothSides env testSize (labelsOf env (cleanedRows env files)) →
      run.1 = .ok () ∧ Complete env testSize (cleanedRows env files) run.2) ∧
    (¬ BothSides env testSize (labelsOf env (cleanedRows env files)) →
      run.1 = .error .osError) := by
  obtain ⟨train, test, hpartition, hrun⟩ :=
    splitPreparedDataset_spec hexact h.testSize.1 h.testSize.2 files randomSeed
  obtain ⟨metadata, hcounts, hdigests, hsplit⟩ := hrun chunkSize progressEvery force outputs
    h.chunkSize h.progressEvery h.outputs hrows
  have hcount := countLabels_eq env chunkSize.toNat files
  rw [if_neg hrows] at hcount
  rw [hsplit, splitChecks_of_admitted env files _ _ _ _ _ h, hcount, hpartition.bothSides_iff]
  refine ⟨⟨_, rfl⟩, fun hboth => ?_, fun hnot => ?_⟩
  · rw [if_neg hboth]
    exact ⟨rfl, train, test, metadata, fun hnil => hboth (Or.inl hnil),
      fun hnil => hboth (Or.inr hnil), rfl, hpartition, hcounts, hdigests⟩
  · rw [if_pos (not_not.mp hnot)]

/-- With rows to split, the split completes or spares the earlier outputs exactly if
there are none, or it may not overwrite them, or an argument is refused, or both files
get a row. -/
theorem split_completes_or_spares_iff {testSize : ℚ} (hexact : Exact env testSize)
    (hpos : 0 < testSize) (hsize : testSize < 1) {files : List (List Row)}
    (hrows : cleanedRows env files ≠ []) (randomSeed chunkSize progressEvery : ℤ) (force : Bool)
    (outputs : SplitOutputs Cleaned) :
    CompletesOrSpares env files testSize randomSeed chunkSize progressEvery force outputs ↔
      (outputs.existing = true → force = true → 0 < chunkSize → 0 < progressEvery →
        BothSides env testSize (labelsOf env (cleanedRows env files))) := by
  simp only [CompletesOrSpares]
  rcases em (Admitted testSize chunkSize progressEvery force outputs) with hadmitted | hrefused
  · obtain ⟨⟨counted, hchecks⟩, hcompletes, hraises⟩ :=
      split_of_admitted hexact hrows randomSeed hadmitted
    rcases em (BothSides env testSize (labelsOf env (cleanedRows env files))) with hboth | hnot
    · exact iff_of_true (Or.inl (hcompletes hboth)) fun _ _ _ _ => hboth
    · rw [hraises hnot, hchecks]
      constructor
      · rintro (⟨hok, -⟩ | ⟨e, -, hspared⟩) hexisting
        · cases hok
        · cases hspared hexisting
      · intro hcond
        refine Or.inr ⟨.osError, rfl, fun hexisting => ?_⟩
        exact absurd (hcond hexisting (hadmitted.outputs hexisting) hadmitted.chunkSize
          hadmitted.progressEvery) hnot
  · obtain ⟨e, he⟩ := splitChecks_of_not_admitted env files _ _ _ _ _ hrefused
    have hraises : splitPreparedDataset env files testSize randomSeed chunkSize progressEvery force
        outputs = (.error e, outputs) := by
      rw [splitPreparedDataset_eq]
      exact Effect.bind_of_error he
    rw [hraises, he]
    refine iff_of_true (Or.inr ⟨e, rfl, fun _ => rfl⟩) fun _ hforce hchunk hprogress => ?_
    exact absurd ⟨⟨hpos, hsize⟩, hchunk, hprogress, fun _ => hforce⟩ hrefused

/-- Four rows of one label, of which one is a test row, over the outputs of an earlier
split. -/
theorem split_of_four_rows_completes :
    CompletesOrSpares labelsEnv [["DDoS", "DDoS", "DDoS", "DDoS"]] (1 / 4) 42 10000 10 true
      { train := some [.header], test := some [.header] } :=
  (split_completes_or_spares_iff (show Exact labelsEnv (1 / 4) from ⟨rfl, rfl⟩) (by norm_num) (by norm_num)
    (show cleanedRows labelsEnv [["DDoS", "DDoS", "DDoS", "DDoS"]] ≠ [] by decide)
    42 10000 10 true _).mpr fun _ _ _ _ =>
      ⟨⟨"DDoS", by decide +kernel⟩, ⟨"DDoS", by decide +kernel⟩⟩

/-- The files of an earlier split. -/
def earlierOutputs : SplitOutputs String where
  train := some [.header, .row "Botnet"]
  test := some [.header, .row "DDoS"]

/-- A single row is no test row, so the split fails after it has deleted the files of an
earlier split. -/
theorem single_row_split_loses_outputs :
    ¬ CompletesOrSpares labelsEnv [["DDoS"]] (1 / 4) 42 10000 10 true earlierOutputs := by
  have hadmitted : Admitted (1 / 4) 10000 10 true earlierOutputs :=
    ⟨by norm_num, by norm_num, by norm_num, fun _ => rfl⟩
  have hnot : ¬ BothSides labelsEnv (1 / 4) (labelsOf labelsEnv (cleanedRows labelsEnv
      [["DDoS"]])) := by
    rintro ⟨⟨label, hlabel⟩, -⟩
    have hlabels : labelsOf labelsEnv (cleanedRows labelsEnv [["DDoS"]]) = ["DDoS"] := rfl
    rw [hlabels, count_computeTestTargets] at hlabel
    split_ifs at hlabel with hmem
    · rw [List.mem_singleton.mp hmem] at hlabel
      exact absurd hlabel (by decide +kernel)
    · exact absurd hlabel (lt_irrefl 0)
  have hexact : Exact labelsEnv (1 / 4) := ⟨rfl, rfl⟩
  have hrows : cleanedRows labelsEnv [["DDoS"]] ≠ [] := by decide
  obtain ⟨⟨counted, hchecks⟩, -, hraises⟩ := split_of_admitted hexact hrows 42 hadmitted
  rintro (⟨hok, -⟩ | ⟨e, -, hspared⟩)
  · rw [hraises hnot] at hok
    cases hok
  · rw [hchecks] at hspared
    cases hspared rfl

end SmartIDS.ML
