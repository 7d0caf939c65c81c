import SmartIDS.Foundation.SelectionSampling
import SmartIDS.ML.SplitPrepared
set_option autoImplicit false

/-!
# ML: the split is an exact stratified partition

The loop of `split_prepared_dataset` is selection sampling over the cleaned rows
of all files: the chunks only cut the list into pieces.  Its counters are the
counters of the rows passed so far, from which the two numbers that a choice
compares are those of the sampler; so a division by zero never happens, and the
numbers of test rows are the targets.
-/

namespace SmartIDS.ML

open SmartIDS.Foundation SmartIDS.Foundation.SelectionSampling SmartIDS.Python

/-! ## Chunks -/

theorem flatten_toChunks_go {α : Type} (n : ℕ) (xs : List α) (current : Array α)
    (done : Array (List α)) : (List.toChunks.go n xs current done).flatten =
      done.toList.flatten ++ current.toList ++ xs := by
  induction xs generalizing current done with
  | nil => simp [List.toChunks.go]
  | cons x xs ih =>
    rw [List.toChunks.go]
    split <;> rw [ih] <;> simp

/-- The chunks of a file are its rows. -/
theorem flatten_toChunks {α : Type} (n : ℕ) (xs : List α) : (xs.toChunks n).flatten = xs := by
  cases xs with
  | nil => cases n <;> rfl
  | cons x xs =>
    cases n with
    | zero => simp [List.toChunks]
    | succ n => simp [List.toChunks, flatten_toChunks_go]

section rows

variable {Row Cleaned : Type} (env : SplitEnv Row Cleaned)

/-- The cleaned rows of all files, in order. -/
def cleanedRows (files : List (List Row)) : List Cleaned := files.flatten.filterMap env.clean

/-- The labels of rows. -/
def labelsOf (rows : List Cleaned) : List String := rows.map env.label

theorem flatten_iterCleanChunks (chunkSize : ℕ) (files : List (List Row)) :
    (files.flatMap (iterCleanChunks env chunkSize)).flatten = cleanedRows env files := by
  have hfile : ∀ file : List Row, (iterCleanChunks env chunkSize file).flatten =
      file.filterMap env.clean := by
    intro file
    unfold iterCleanChunks sanitizePreparedChunk
    rw [List.flatten_filter_not_isEmpty, ← List.filterMap_flatten, flatten_toChunks]
  unfold cleanedRows
  induction files with
  | nil => rfl
  | cons file files ih =>
    rw [List.flatMap_cons, List.flatten_append, List.flatten_cons, List.filterMap_append, hfile, ih]

/-! ## The first pass -/

theorem foldl_countChunk (chunks : List (List Row)) (counted : Counter String × ℕ × ℕ) :
    chunks.foldl (countChunk env) counted =
      (Counter.update counted.1 (labelsOf env (chunks.flatten.filterMap env.clean)),
        counted.2.1 + chunks.flatten.length,
        counted.2.2 + (chunks.flatten.filterMap env.clean).length) := by
  induction chunks generalizing counted with
  | nil => rfl
  | cons chunk chunks ih =>
    rw [List.foldl_cons, ih]
    simp only [countChunk, sanitizePreparedChunk, labelsOf, List.flatten_cons,
      List.filterMap_append, List.map_append, List.length_append, Counter.update_append,
      Nat.add_assoc]

/-- The first pass counts the labels of the cleaned rows, whatever the chunks. -/
theorem countLabels_eq (chunkSize : ℕ) (files : List (List Row)) :
    countLabels env chunkSize files =
      if cleanedRows env files = [] then .error .valueError
      else .ok (Counter.of (labelsOf env (cleanedRows env files)), files.flatten.length,
        (cleanedRows env files).length) := by
  have hflat : (files.flatMap (List.toChunks chunkSize)).flatten = files.flatten := by
    induction files with
    | nil => rfl
    | cons file files ih =>
      rw [List.flatMap_cons, List.flatten_append, List.flatten_cons, ih, flatten_toChunks]
  have hempty : (Counter.of (labelsOf env (cleanedRows env files))).entries = [] ↔
      cleanedRows env files = [] := by
    rw [← List.map_eq_nil_iff (f := env.label), List.eq_nil_iff_forall_not_mem,
      List.eq_nil_iff_forall_not_mem]
    constructor
    · exact fun h label hmem => h (label, _) ((Counter.mem_entries_of _ _ _).mpr ⟨hmem, rfl⟩)
    · exact fun h entry hmem => h entry.1 ((Counter.mem_entries_of _ entry.1 entry.2).mp hmem).1
  unfold countLabels
  rw [← List.foldl_flatMap, foldl_countChunk, hflat]
  simp only [Nat.zero_add]
  exact if_congr hempty rfl rfl

/-! ## The targets -/

theorem count_foldl_set (f : ℤ → ℤ) (entries : List (String × ℤ))
    (hnodup : (entries.map Prod.fst).Nodup) (targets : Counter String) (label : String) :
    Counter.count (entries.foldl (fun targets entry => targets.set entry.1 (f entry.2)) targets)
      label = ((entries.lookup label).map f).getD (targets.count label) := by
  induction entries generalizing targets with
  | nil => rfl
  | cons entry entries ih =>
    obtain ⟨key, count⟩ := entry
    rw [List.map_cons, List.nodup_cons] at hnodup
    rw [List.foldl_cons, ih hnodup.2, Counter.count_set, List.lookup_cons]
    rcases eq_or_ne label key with rfl | hne
    · have hnone : entries.lookup label = none := by
        rw [List.lookup_eq_none_iff]
        intro e he
        have hkey : e.1 ≠ label := fun heq => hnodup.1 (List.mem_map.mpr ⟨e, he, heq⟩)
        simpa using hkey.symm
      simp [hnone]
    · have hbeq : (label == key) = false := by simpa using hne
      simp [hbeq, hne]

/-- The target of a label that does not occur is nought. -/
theorem count_computeTestTargets (testSize : ℚ) (labels : List String) (label : String) :
    (computeTestTargets env (Counter.of labels) testSize).count label =
      if label ∈ labels then testTarget env testSize (labels.count label) else 0 := by
  have hlookup : (Counter.of labels).entries.lookup label =
      if label ∈ labels then some (labels.count label : ℤ) else none := by
    apply Option.ext
    intro n
    change (Counter.of labels).get? label = some n ↔ _
    rw [Dict.get?_eq_some_iff, Counter.mem_entries_of]
    split
    next hmem => simp [hmem, eq_comm]
    next hmem => simp [hmem]
  unfold computeTestTargets
  rw [count_foldl_set _ _ (Counter.of labels).nodup, hlookup]
  split <;> rfl

/-- The rounding of doubles keeps one and the size of the test set. -/
structure Exact (testSize : ℚ) : Prop where
  one : env.nearest 1 = 1
  testSize : env.nearest testSize = testSize

variable {env}

theorem testTarget_bounds {testSize : ℚ} (hexact : Exact env testSize) (hsize : testSize < 1)
    {count : ℤ} (hcount : 0 < count) :
    0 ≤ testTarget env testSize count ∧ testTarget env testSize count ≤ count ∧
      (1 < count → testTarget env testSize count < count) := by
  unfold testTarget
  simp only
  have hone : count = 1 → pyRound (env.nearest (env.nearest count * testSize)) ≤ 1 := by
    rintro rfl
    rw [Int.cast_one, hexact.one, one_mul, hexact.testSize]
    exact pyRound_le (by exact_mod_cast hsize.le)
  split_ifs <;> omega

end rows

/-! ## The choice of a row -/

section loop

variable {Row Cleaned : Type} {env : SplitEnv Row Cleaned} {seed : ℤ}
variable {labelTotals testTargets : Counter String}

/-- The comparison of a random number with the share of the rows that are left. -/
def acceptRow (env : SplitEnv Row Cleaned) (seed : ℤ) : Accept := fun drawn quota remaining =>
  decide (env.random seed drawn < env.nearest (quota / remaining))

/-- Where some of the rows of a label are left, the choice is the sampler's. -/
theorem chooseTest_apply {s : SplitState Cleaned} {m : Sampler String} {label : String}
    (hremaining : labelTotals.count label - (s.seenCounts.count label - 1) = m.remaining label)
    (hquota : testTargets.count label - s.testCounts.count label = m.quota label)
    (hdrawn : s.drawn = m.drawn) (hpos : 0 < m.remaining label) :
    chooseTest env seed labelTotals testTargets label s =
      (.ok (m.chooses (acceptRow env seed) label),
        { s with drawn := (m.step (acceptRow env seed) label).drawn }) := by
  unfold chooseTest
  rw [Effect.bind_of_ok (Effect.get_apply s)]
  simp only [hremaining, hquota, Nat.cast_pos, Nat.cast_inj, Sampler.step, ← hdrawn]
  rcases Nat.eq_zero_or_pos (m.quota label) with hzero | hwanted
  · have hdraws : ¬ m.Draws label := fun h => h.1 hzero
    rw [if_neg (by omega), if_neg hdraws, Sampler.chooses, if_pos hzero]
    rfl
  · rw [if_pos hwanted, Sampler.chooses, if_neg hwanted.ne']
    by_cases hall : m.remaining label = m.quota label
    · have hdraws : ¬ m.Draws label := fun h => h.2 hall
      rw [if_pos hall, if_pos hall, if_neg hdraws]
      rfl
    · have hdraws : m.Draws label := ⟨hwanted.ne', hall⟩
      have hdiv : trueDiv env (m.quota label) (m.remaining label) =
          .ok (env.nearest ((m.quota label : ℚ) / (m.remaining label : ℚ))) := by
        rw [trueDiv, if_neg (by omega)]
        simp
      have hrandom : rngRandom env seed s =
          (.ok (env.random seed s.drawn), { s with drawn := s.drawn + 1 }) := rfl
      rw [if_neg hall, if_neg hall, if_pos hdraws, hdiv, acceptRow, ← hdrawn]
      exact Effect.bind_of_ok hrandom

/-! ## The books of the loop -/

/-- The variables of the loop behind the rows `done`, of which the sampler `m` made
a choice. -/
structure Booked (env : SplitEnv Row Cleaned) (seed : ℤ) (m : Sampler String)
    (s : SplitState Cleaned) (done : List Cleaned) : Prop where
  drawn : s.drawn = (m.run (acceptRow env seed) env.label done).drawn
  seenCounts : s.seenCounts = Counter.of (labelsOf env done)
  trainCounts : s.trainCounts =
    Counter.of (labelsOf env (rejected (tag (acceptRow env seed) env.label m done)))
  testCounts : s.testCounts =
    Counter.of (labelsOf env (selected (tag (acceptRow env seed) env.label m done)))
  trainRows : s.trainRows = (rejected (tag (acceptRow env seed) env.label m done)).length
  testRows : s.testRows = (selected (tag (acceptRow env seed) env.label m done)).length

/-- The places of the rows of a chunk that are, or are not, selected. -/
def indicesOf (chosen : Bool) (tags : List (Cleaned × Bool)) : List ℕ :=
  (tags.zipIdx.filter fun t => t.1.2 == chosen).map Prod.snd

/-- The rows of the chunk that are chosen so far. -/
structure Chosen (s : SplitState Cleaned) (tags : List (Cleaned × Bool)) : Prop where
  trainIndices : s.trainIndices = indicesOf false tags
  testIndices : s.testIndices = indicesOf true tags

/-- A file of rows; without rows it is not written. -/
def csvOf : List Cleaned → CsvFile Cleaned
  | [] => none
  | row :: rows => some (.header :: .row row :: rows.map .row)

/-- The rows written so far. -/
structure Filed (s : SplitState Cleaned) (tags : List (Cleaned × Bool)) : Prop where
  train : s.train = csvOf (rejected tags)
  test : s.test = csvOf (selected tags)
  trainHeader : s.trainHeader = (rejected tags).isEmpty
  testHeader : s.testHeader = (selected tags).isEmpty

theorem indicesOf_concat_self (tags : List (Cleaned × Bool)) (row : Cleaned) (chosen : Bool) :
    indicesOf chosen (tags ++ [(row, chosen)]) = indicesOf chosen tags ++ [tags.length] := by
  unfold indicesOf
  rw [List.zipIdx_append, List.filter_append, List.map_append]
  simp

theorem indicesOf_concat_of_ne (tags : List (Cleaned × Bool)) (row : Cleaned) {b chosen : Bool}
    (h : b ≠ chosen) : indicesOf chosen (tags ++ [(row, b)]) = indicesOf chosen tags := by
  unfold indicesOf
  rw [List.zipIdx_append, List.filter_append, List.map_append]
  simp [h]

/-- The numbers the sampler starts from are those of the two passes. -/
structure Counts (labelTotals testTargets : Counter String) (m : Sampler String) : Prop where
  remaining : ∀ label, (m.remaining label : ℤ) = labelTotals.count label
  quota : ∀ label, (m.quota label : ℤ) = testTargets.count label

variable {m : Sampler String} {s : SplitState Cleaned} {done rest : List Cleaned} {a : Cleaned}

/-- The two numbers that are compared are those of the sampler. -/
theorem Booked.chooseTest (hbooked : Booked env seed m s done)
    (hcounts : Counts labelTotals testTargets m)
    (hfits : m.Fits (labelsOf env (done ++ a :: rest))) :
    chooseTest env seed labelTotals testTargets (env.label a)
        { s with seenCounts := s.seenCounts.increment (env.label a) } =
      (.ok ((m.run (acceptRow env seed) env.label done).chooses (acceptRow env seed) (env.label a)),
        { s with
          seenCounts := Counter.of (labelsOf env (done ++ [a]))
          drawn := (m.run (acceptRow env seed) env.label (done ++ [a])).drawn }) := by
  have hseen : s.seenCounts.increment (env.label a) = Counter.of (labelsOf env (done ++ [a])) := by
    rw [hbooked.seenCounts, labelsOf, labelsOf, List.map_append]
    exact (Counter.of_concat _ _).symm
  have hafter : (m.run (acceptRow env seed) env.label done).Fits ((a :: rest).map env.label) :=
    hfits.run _
  have hremaining := (hafter (env.label a)).1
  have hstart := (hfits (env.label a)).1
  rw [labelsOf, List.map_append, List.count_append, ← hremaining] at hstart
  have htotal := hcounts.remaining (env.label a)
  have hquota := hcounts.quota (env.label a)
  have hwanted := hfits.quota_run (acceptRow env seed) (env.label a)
  rw [hseen]
  refine (chooseTest_apply (m := m.run (acceptRow env seed) env.label done) ?_ ?_ ?_
    hafter.remaining_pos).trans ?_
  · rw [Counter.count_of, labelsOf, List.map_append, List.count_append, List.map_singleton,
      List.count_singleton_self, ← htotal]
    push_cast
    omega
  · rw [hbooked.testCounts, Counter.count_of, labelsOf, ← hquota]
    omega
  · exact hbooked.drawn
  · rw [run_append]
    rfl

/-- One row more. -/
theorem assignRow_spec (hcounts : Counts labelTotals testTargets m)
    (hfits : m.Fits (labelsOf env (done ++ a :: rest))) {chunk filed : List (Cleaned × Bool)}
    (hbooked : Booked env seed m s done) (hchosen : Chosen s chunk) (hfiled : Filed s filed) :
    (assignRow env seed labelTotals testTargets (env.label a, chunk.length)).Ensures s fun _ t =>
      Booked env seed m t (done ++ [a]) ∧ Chosen t (chunk ++
        [(a, (m.run (acceptRow env seed) env.label done).chooses (acceptRow env seed)
          (env.label a))]) ∧ Filed t filed := by
  have hlabels : ∀ rows : List Cleaned, labelsOf env (rows ++ [a]) =
      labelsOf env rows ++ [env.label a] := fun rows => List.map_append
  have hchoice := hbooked.chooseTest hcounts hfits
  unfold assignRow
  refine Effect.Ensures.bind (Effect.Ensures.modify ?_)
  refine Effect.Ensures.bind ⟨_, _, hchoice, Effect.Ensures.modify ?_⟩
  have htag : tag (acceptRow env seed) env.label m (done ++ [a]) = _ := tag_concat m done a
  cases hchosen' : (m.run (acceptRow env seed) env.label done).chooses (acceptRow env seed)
      (env.label a) with
  | true =>
    rw [hchosen'] at htag
    have hselected := congrArg selected htag
    have hrejected := congrArg rejected htag
    rw [selected_append, selected_singleton, if_pos rfl] at hselected
    rw [rejected_append, rejected_singleton, if_pos rfl, List.append_nil] at hrejected
    refine ⟨⟨rfl, rfl, ?_, ?_, ?_, ?_⟩, ⟨?_, ?_⟩, ⟨hfiled.1, hfiled.2, hfiled.3, hfiled.4⟩⟩
    · rw [hrejected]
      exact hbooked.trainCounts
    · rw [hselected, hlabels (selected _), Counter.of_concat, ← hbooked.testCounts]
      rfl
    · rw [hrejected]
      exact hbooked.trainRows
    · rw [hselected, List.length_append, ← hbooked.testRows]
      rfl
    · rw [indicesOf_concat_of_ne _ _ (by simp)]
      exact hchosen.trainIndices
    · rw [indicesOf_concat_self, ← hchosen.testIndices]
      rfl
  | false =>
    rw [hchosen'] at htag
    have hselected := congrArg selected htag
    have hrejected := congrArg rejected htag
    rw [selected_append, selected_singleton, if_neg Bool.false_ne_true, List.append_nil]
      at hselected
    rw [rejected_append, rejected_singleton, if_neg Bool.false_ne_true] at hrejected
    refine ⟨⟨rfl, rfl, ?_, ?_, ?_, ?_⟩, ⟨?_, ?_⟩, ⟨hfiled.1, hfiled.2, hfiled.3, hfiled.4⟩⟩
    · rw [hrejected, hlabels (rejected _), Counter.of_concat, ← hbooked.trainCounts]
      rfl
    · rw [hselected]
      exact hbooked.testCounts
    · rw [hrejected, List.length_append, ← hbooked.trainRows]
      rfl
    · rw [hselected]
      exact hbooked.testRows
    · rw [indicesOf_concat_self, ← hchosen.trainIndices]
      rfl
    · rw [indicesOf_concat_of_ne _ _ (by simp)]
      exact hchosen.testIndices

/-- The rows of a chunk, one after the other. -/
theorem assignRows_spec (hcounts : Counts labelTotals testTargets m) {todo : List Cleaned}
    (hfits : m.Fits (labelsOf env (done ++ todo ++ rest))) {chunk filed : List (Cleaned × Bool)}
    (hbooked : Booked env seed m s done) (hchosen : Chosen s chunk) (hfiled : Filed s filed) :
    Effect.Ensures (((todo.map env.label).zipIdx chunk.length).forM
        (assignRow env seed labelTotals testTargets)) s fun _ t =>
      Booked env seed m t (done ++ todo) ∧ Chosen t (chunk ++ tag (acceptRow env seed) env.label
        (m.run (acceptRow env seed) env.label done) todo) ∧ Filed t filed := by
  induction todo generalizing done chunk s with
  | nil =>
    refine Effect.Ensures.pure ⟨?_, ?_, hfiled⟩
    · rw [List.append_nil]
      exact hbooked
    · rw [tag, List.append_nil]
      exact hchosen
  | cons a todo ih =>
    have hshift : done ++ [a] ++ todo = done ++ a :: todo := by simp
    have hfirst : m.Fits (labelsOf env (done ++ a :: (todo ++ rest))) := by
      rw [← List.cons_append, ← List.append_assoc]
      exact hfits
    rw [← hshift] at hfits
    refine Effect.Ensures.bind
      ((assignRow_spec hcounts hfirst hbooked hchosen hfiled).mono fun _ t ht => ?_)
    have hrest := ih hfits ht.1 ht.2.1 ht.2.2
    rw [List.length_append, List.length_singleton, hshift, List.append_assoc, run_append] at hrest
    exact hrest

theorem filter_eq_map_zipIdx (chosen : Bool) (tags : List (Cleaned × Bool)) :
    tags.filter (fun t => t.2 == chosen) =
      (tags.zipIdx.filter fun t => t.1.2 == chosen).map Prod.fst := by
  conv_lhs => rw [← List.zipIdx_map_fst 0 tags, List.filter_map]
  rfl

theorem indicesOf_eq_nil_iff (chosen : Bool) (tags : List (Cleaned × Bool)) :
    indicesOf chosen tags = [] ↔ tags.filter (fun t => t.2 == chosen) = [] := by
  rw [filter_eq_map_zipIdx, indicesOf, List.map_eq_nil_iff, List.map_eq_nil_iff]

theorem iloc_indicesOf (chosen : Bool) (tags : List (Cleaned × Bool)) :
    iloc (tags.map Prod.fst) (indicesOf chosen tags) =
      (tags.filter fun t => t.2 == chosen).map Prod.fst := by
  have hplace : ∀ t ∈ tags.zipIdx.filter fun t => t.1.2 == chosen,
      ((fun i => (tags.map Prod.fst)[i]?) ∘ Prod.snd) t = some t.1.1 := by
    intro t ht
    have hget : tags[t.2]? = some t.1 :=
      List.mem_zipIdx_iff_getElem?.mp (List.mem_filter.mp ht).1
    rw [Function.comp_apply, List.getElem?_map, hget]
    rfl
  unfold iloc indicesOf
  rw [List.filterMap_map, List.filterMap_congr hplace, filter_eq_map_zipIdx, List.map_map]
  exact congrFun List.filterMap_eq_map _

theorem toCsv_csvOf (written : List Cleaned) {rows : List Cleaned} (h : rows ≠ []) :
    toCsv rows written.isEmpty (csvOf written) = csvOf (written ++ rows) := by
  cases written with
  | nil =>
    cases rows with
    | nil => exact absurd rfl h
    | cons row rows => rfl
  | cons row' written => simp [toCsv, csvOf]

/-- One file, with its header, behind the rows of a chunk that go to it. -/
def appended (chunk : List Cleaned) (indices : List ℕ) (header : Bool) (file : CsvFile Cleaned) :
    CsvFile Cleaned × Bool :=
  if indices = [] then (file, header) else (toCsv (iloc chunk indices) header file, false)

theorem appended_csvOf (written : List Cleaned) {chunk rows : List Cleaned} {indices : List ℕ}
    (hiloc : iloc chunk indices = rows) (hnil : indices = [] ↔ rows = []) :
    appended chunk indices written.isEmpty (csvOf written) =
      (csvOf (written ++ rows), (written ++ rows).isEmpty) := by
  unfold appended
  split
  next hempty => rw [hnil.mp hempty, List.append_nil]
  next hrows =>
    have hne : rows ≠ [] := fun hrows' => hrows (hnil.mpr hrows')
    rw [hiloc, toCsv_csvOf written hne]
    cases written <;> cases rows <;> first | rfl | exact absurd rfl hne

theorem writeTrain_eq (chunk : List Cleaned) (s : SplitState Cleaned) :
    s.writeTrain chunk = { s with
      train := (appended chunk s.trainIndices s.trainHeader s.train).1
      trainHeader := (appended chunk s.trainIndices s.trainHeader s.train).2 } := by
  unfold SplitState.writeTrain appended
  split <;> rfl

theorem writeTest_eq (chunk : List Cleaned) (s : SplitState Cleaned) :
    s.writeTest chunk = { s with
      test := (appended chunk s.testIndices s.testHeader s.test).1
      testHeader := (appended chunk s.testIndices s.testHeader s.test).2 } := by
  unfold SplitState.writeTest appended
  split <;> rfl

/-- The chunk is written behind what was written before. -/
theorem write_spec {chunk : List Cleaned} {filed tags : List (Cleaned × Bool)}
    (hbooked : Booked env seed m s done) (hfiled : Filed s filed) (hchosen : Chosen s tags)
    (hrows : tags.map Prod.fst = chunk) :
    Booked env seed m ((s.writeTrain chunk).writeTest chunk) done ∧
      Filed ((s.writeTrain chunk).writeTest chunk) (filed ++ tags) := by
  have hrejected : (tags.filter fun t => t.2 == false).map Prod.fst = rejected tags := by
    simp [rejected]
  have hselected : (tags.filter fun t => t.2 == true).map Prod.fst = selected tags := by
    simp [selected]
  have htrain := appended_csvOf (rejected filed) (iloc_indicesOf false tags)
    ((indicesOf_eq_nil_iff false tags).trans List.map_eq_nil_iff.symm)
  have htest := appended_csvOf (selected filed) (iloc_indicesOf true tags)
    ((indicesOf_eq_nil_iff true tags).trans List.map_eq_nil_iff.symm)
  rw [hrejected] at htrain
  rw [hselected] at htest
  rw [hrows, ← hchosen.trainIndices, ← hfiled.trainHeader, ← hfiled.train, ← rejected_append,
    Prod.ext_iff] at htrain
  rw [hrows, ← hchosen.testIndices, ← hfiled.testHeader, ← hfiled.test, ← selected_append,
    Prod.ext_iff] at htest
  rw [writeTest_eq, writeTrain_eq]
  exact ⟨⟨hbooked.1, hbooked.2, hbooked.3, hbooked.4, hbooked.5, hbooked.6⟩,
    ⟨htrain.1, htest.1, htrain.2, htest.2⟩⟩

/-- One chunk more. -/
theorem splitChunk_spec (hcounts : Counts labelTotals testTargets m) {chunk : List Cleaned}
    (hfits : m.Fits (labelsOf env (done ++ chunk ++ rest))) (hbooked : Booked env seed m s done)
    (hfiled : Filed s (tag (acceptRow env seed) env.label m done)) :
    (splitChunk env seed labelTotals testTargets chunk).Ensures s fun _ t =>
      Booked env seed m t (done ++ chunk) ∧
        Filed t (tag (acceptRow env seed) env.label m (done ++ chunk)) := by
  unfold splitChunk
  refine Effect.Ensures.bind (Effect.Ensures.modify ?_)
  have hfresh : Chosen { s with testIndices := [], trainIndices := [] } ([] : List (Cleaned × Bool)) :=
    ⟨rfl, rfl⟩
  have hrows := assignRows_spec hcounts hfits
    (s := { s with testIndices := [], trainIndices := [] })
    ⟨hbooked.1, hbooked.2, hbooked.3, hbooked.4, hbooked.5, hbooked.6⟩ hfresh
    ⟨hfiled.1, hfiled.2, hfiled.3, hfiled.4⟩
  refine Effect.Ensures.bind (hrows.mono fun _ t ht =>
    Effect.Ensures.bind (Effect.Ensures.modify (Effect.Ensures.modify ?_)))
  rw [tag_append]
  exact write_spec ht.1 ht.2.2 ht.2.1 (map_fst_tag _ _)

/-- The chunks, one after the other. -/
theorem splitChunks_spec (hcounts : Counts labelTotals testTargets m) {chunks : List (List Cleaned)}
    (hfits : m.Fits (labelsOf env (done ++ chunks.flatten))) (hbooked : Booked env seed m s done)
    (hfiled : Filed s (tag (acceptRow env seed) env.label m done)) :
    Effect.Ensures (chunks.forM (splitChunk env seed labelTotals testTargets)) s fun _ t =>
      Booked env seed m t (done ++ chunks.flatten) ∧
        Filed t (tag (acceptRow env seed) env.label m (done ++ chunks.flatten)) := by
  induction chunks generalizing done s with
  | nil =>
    rw [List.flatten_nil, List.append_nil]
    exact Effect.Ensures.pure ⟨hbooked, hfiled⟩
  | cons chunk chunks ih =>
    rw [List.flatten_cons, ← List.append_assoc] at hfits ⊢
    refine Effect.Ensures.bind ((splitChunk_spec hcounts hfits hbooked hfiled).mono fun _ t ht => ?_)
    exact ih hfits ht.1 ht.2

end loop

/-! ## The whole split -/

section split

variable {Row Cleaned : Type} (env : SplitEnv Row Cleaned)

/-- The sampler the loop starts from. -/
def startOf (labels : List String) (testTargets : Counter String) : Sampler String where
  remaining label := labels.count label
  quota label := (testTargets.count label).toNat
  drawn := 0

/-- The two files divide the rows, each in their order; of every label the test file
has its target, and of a label with more than one row the train file has one. -/
structure StratifiedPartition (testSize : ℚ) (rows train test : List Cleaned) : Prop where
  partition : ∃ tags : List (Cleaned × Bool), tags.map Prod.fst = rows ∧
    rejected tags = train ∧ selected tags = test
  exact : ∀ label, ((labelsOf env test).count label : ℤ) =
    (computeTestTargets env (Counter.of (labelsOf env rows)) testSize).count label
  kept : ∀ label, 1 < (labelsOf env rows).count label → label ∈ labelsOf env train

/-- The entries of a distribution are the labels of the rows with their numbers. -/
def Distributes (rows : List Cleaned) (distribution : List (String × ℤ)) : Prop :=
  ∀ label n, (label, n) ∈ distribution ↔
    label ∈ labelsOf env rows ∧ n = (labelsOf env rows).count label

/-- The counts of the metadata are those of the rows written. -/
structure CountsWritten (rows train test : List Cleaned) (metadata : SplitMetadata) : Prop where
  cleanedRows : metadata.cleanedRows = rows.length
  trainRows : metadata.trainRows = train.length
  testRows : metadata.testRows = test.length
  labels : Distributes env rows metadata.labelDistribution
  trainLabels : Distributes env train metadata.trainLabelDistribution
  testLabels : Distributes env test metadata.testLabelDistribution

/-- The digest of the file of some rows. -/
def digest (rows : List Cleaned) : String := ((csvOf rows).map env.sha256).getD ""

/-- The digests of the metadata are those of the two files. -/
structure DigestsWritten (train test : List Cleaned) (metadata : SplitMetadata) : Prop where
  train : metadata.trainSha256 = digest env train
  test : metadata.testSha256 = digest env test

variable {env}

theorem distributes_sortedCounter (rows : List Cleaned) :
    Distributes env rows (sortedCounter (Counter.of (labelsOf env rows))) := by
  intro label n
  rw [sortedCounter, List.mem_mergeSort, Counter.mem_entries_of]

section bounds

variable {testSize : ℚ} (hexact : Exact env testSize) (hsize : testSize < 1) (labels : List String)

include hexact hsize

theorem target_bounds (label : String) :
    0 ≤ (computeTestTargets env (Counter.of labels) testSize).count label ∧
      (computeTestTargets env (Counter.of labels) testSize).count label ≤ labels.count label ∧
      (1 < labels.count label →
        (computeTestTargets env (Counter.of labels) testSize).count label <
          labels.count label) := by
  rw [count_computeTestTargets]
  split
  next hmem =>
    have hcount : (0 : ℤ) < labels.count label := by exact_mod_cast List.count_pos_iff.mpr hmem
    obtain ⟨hlow, hhigh, hlt⟩ := testTarget_bounds hexact hsize hcount
    exact ⟨hlow, hhigh, fun hmany => hlt (by exact_mod_cast hmany)⟩
  next hmem =>
    rw [List.count_eq_zero_of_not_mem hmem]
    omega

theorem fits_startOf :
    (startOf labels (computeTestTargets env (Counter.of labels) testSize)).Fits labels := by
  intro label
  obtain ⟨hlow, hhigh, -⟩ := target_bounds hexact hsize labels label
  refine ⟨rfl, ?_⟩
  change (Counter.count _ label).toNat ≤ labels.count label
  omega

theorem counts_startOf : Counts (Counter.of labels)
    (computeTestTargets env (Counter.of labels) testSize)
    (startOf labels (computeTestTargets env (Counter.of labels) testSize)) where
  remaining label := (Counter.count_of labels label).symm
  quota label := Int.toNat_of_nonneg (target_bounds hexact hsize labels label).1

end bounds

/-- The loop over the files is one pass over the cleaned rows, whatever the chunks. -/
theorem splitFiles_spec (seed : ℤ) {labelTotals testTargets : Counter String} {m : Sampler String}
    (hcounts : Counts labelTotals testTargets m) (hdrawn : m.drawn = 0) (chunkSize : ℕ)
    (files : List (List Row)) (hfits : m.Fits (labelsOf env (cleanedRows env files))) :
    (splitFiles env seed labelTotals testTargets chunkSize files).Ensures {} fun _ t =>
      Booked env seed m t (cleanedRows env files) ∧
        Filed t (tag (acceptRow env seed) env.label m (cleanedRows env files)) := by
  have hflat := flatten_iterCleanChunks env chunkSize files
  have hloop : splitFiles env seed labelTotals testTargets chunkSize files =
      (files.flatMap (iterCleanChunks env chunkSize)).forM
        (splitChunk env seed labelTotals testTargets) := by
    unfold splitFiles
    rw [List.flatMap_def, ← Effect.forM_flatten, Effect.forM_map]
  rw [← hflat] at hfits ⊢
  rw [hloop]
  have hbooked : Booked env seed m ({} : SplitState Cleaned) [] :=
    ⟨hdrawn.symm, rfl, rfl, rfl, rfl, rfl⟩
  exact splitChunks_spec hcounts hfits hbooked ⟨rfl, rfl, rfl, rfl⟩

/-- Behind the checks, the first pass and the loop, the two digests are taken; a file
without rows has none. -/
theorem splitPreparedDataset_of_loop {files : List (List Row)} {testSize : ℚ}
    {randomSeed chunkSize progressEvery : ℤ} {force : Bool} {outputs : SplitOutputs Cleaned}
    {counted : Counter String × ℕ × ℕ} {s : SplitState Cleaned} {train test : List Cleaned}
    (hsize : 0 < testSize ∧ testSize < 1) (hchunk : 0 < chunkSize) (hprogress : 0 < progressEvery)
    (houtputs : outputs.existing = true → force = true)
    (hcount : countLabels env chunkSize.toNat files = .ok counted)
    (hloop : splitFiles env randomSeed counted.1 (computeTestTargets env counted.1 testSize)
      chunkSize.toNat files {} = (.ok (), s))
    (htrain : s.train = csvOf train) (htest : s.test = csvOf test) :
    splitPreparedDataset env files testSize randomSeed chunkSize progressEvery force outputs =
      if train = [] ∨ test = [] then
        (.error .osError, { train := csvOf train, test := csvOf test })
      else
        (.ok (), {
          train := csvOf train
          test := csvOf test
          metadata := some (s.metadata testSize randomSeed chunkSize counted
            (digest env train) (digest env test)) }) := by
  have hexisting : ¬ (outputs.existing = true ∧ force = false) := by
    rintro ⟨hsome, hforce⟩
    exact absurd (houtputs hsome) (by simp [hforce])
  have hpass : (splitFiles env randomSeed counted.1 (computeTestTargets env counted.1 testSize)
      chunkSize.toNat files >>= fun _ => Effect.get) {} = (.ok s, s) := Effect.bind_of_ok hloop
  have hzoom : Effect.zoom
      (fun outputs : SplitOutputs Cleaned => { train := outputs.train, test := outputs.test })
      (fun s outputs => { outputs with train := s.train, test := s.test })
      (splitFiles env randomSeed counted.1 (computeTestTargets env counted.1 testSize)
        chunkSize.toNat files >>= fun _ => Effect.get) {} =
      (.ok s, { train := csvOf train, test := csvOf test }) := by
    rw [Effect.zoom_apply, hpass, ← htrain, ← htest]
  unfold splitPreparedDataset
  simp only [not_not.mpr hsize, if_false, not_le.mpr hchunk, not_le.mpr hprogress, hcount]
  rw [Effect.bind_of_ok (Effect.get_apply outputs), if_neg hexisting]
  refine (Effect.bind_of_ok (Effect.ofExcept_apply _ _)).trans ?_
  refine (Effect.bind_of_ok (Effect.modify_apply _ _)).trans ?_
  refine (Effect.bind_of_ok hzoom).trans ?_
  rw [htrain, htest]
  cases train with
  | nil => exact Effect.bind_of_error (Effect.ofExcept_apply _ _)
  | cons row rows =>
    refine (Effect.bind_of_ok (Effect.ofExcept_apply _ _)).trans ?_
    cases test with
    | nil => exact Effect.bind_of_error (Effect.ofExcept_apply _ _)
    | cons row' rows' => exact Effect.bind_of_ok (Effect.ofExcept_apply _ _)

/-- The split writes a partition of the cleaned rows that does not depend on the size
of its chunks, with its counts and its digests. -/
theorem splitPreparedDataset_spec {testSize : ℚ} (hexact : Exact env testSize)
    (hpos : 0 < testSize) (hsize : testSize < 1) (files : List (List Row)) (randomSeed : ℤ) :
    ∃ train test, StratifiedPartition env testSize (cleanedRows env files) train test ∧
      ∀ (chunkSize progressEvery : ℤ) (force : Bool) (outputs : SplitOutputs Cleaned),
        0 < chunkSize → 0 < progressEvery → (outputs.existing = true → force = true) →
        cleanedRows env files ≠ [] →
        ∃ metadata, CountsWritten env (cleanedRows env files) train test metadata ∧
          DigestsWritten env train test metadata ∧
          splitPreparedDataset env files testSize randomSeed chunkSize progressEvery force outputs =
            if train = [] ∨ test = [] then
              (.error .osError, { train := csvOf train, test := csvOf test })
            else
              (.ok (), {
                train := csvOf train
                test := csvOf test
                metadata := some metadata }) := by
  have hcounts := counts_startOf hexact hsize (labelsOf env (cleanedRows env files))
  have hfits := fits_startOf hexact hsize (labelsOf env (cleanedRows env files))
  have hbounds := target_bounds hexact hsize (labelsOf env (cleanedRows env files))
  generalize hm : startOf (labelsOf env (cleanedRows env files)) _ = m at hcounts hfits
  have hdrawn : m.drawn = 0 := hm ▸ rfl
  have hselected : ∀ label, ((labelsOf env (selected (tag (acceptRow env randomSeed) env.label m
      (cleanedRows env files)))).count label : ℤ) = (computeTestTargets env
        (Counter.of (labelsOf env (cleanedRows env files))) testSize).count label := by
    intro label
    rw [← hcounts.quota, labelsOf, count_selected hfits]
  refine ⟨rejected (tag (acceptRow env randomSeed) env.label m (cleanedRows env files)),
    selected (tag (acceptRow env randomSeed) env.label m (cleanedRows env files)),
    ⟨⟨_, map_fst_tag _ _, rfl, rfl⟩, hselected, ?_⟩, ?_⟩
  · intro label hmany
    have hall := count_selected_add_count_rejected env.label
      (tag (acceptRow env randomSeed) env.label m (cleanedRows env files)) label
    rw [map_fst_tag] at hall
    have htest := hselected label
    have hlt := (hbounds label).2.2 hmany
    have htrain : 0 < (labelsOf env (rejected (tag (acceptRow env randomSeed) env.label m
        (cleanedRows env files)))).count label := by
      unfold labelsOf at htest hlt ⊢
      omega
    exact List.count_pos_iff.mp htrain
  · intro chunkSize progressEvery force outputs hchunk hprogress houtputs hrows
    have hloop := splitFiles_spec randomSeed hcounts hdrawn chunkSize.toNat files hfits
    obtain ⟨_, s, hrun, hbooked, hfiled⟩ := hloop
    have hcount := countLabels_eq env chunkSize.toNat files
    rw [if_neg hrows] at hcount
    have hsplit := splitPreparedDataset_of_loop ⟨hpos, hsize⟩ hchunk hprogress houtputs hcount
      hrun hfiled.train hfiled.test
    refine ⟨_, ⟨rfl, hbooked.trainRows, hbooked.testRows, ?_, ?_, ?_⟩, ⟨rfl, rfl⟩, hsplit⟩
    · exact distributes_sortedCounter _
    · change Distributes env _ (sortedCounter s.trainCounts)
      rw [hbooked.trainCounts]
      exact distributes_sortedCounter _
    · change Distributes env _ (sortedCounter s.testCounts)
      rw [hbooked.testCounts]
      exact distributes_sortedCounter _

/-- For every source and every stream of random numbers there is one partition of the
cleaned rows that the split writes, whatever the size of its chunks. -/
theorem split_is_stratified_partition {testSize : ℚ} (hexact : Exact env testSize)
    (hpos : 0 < testSize) (hsize : testSize < 1) (files : List (List Row)) (randomSeed : ℤ) :
    ∃ train test, StratifiedPartition env testSize (cleanedRows env files) train test ∧
      ∀ (chunkSize progressEvery : ℤ) (force : Bool) (outputs : SplitOutputs Cleaned),
        0 < chunkSize → 0 < progressEvery → (outputs.existing = true → force = true) →
        cleanedRows env files ≠ [] →
        ∃ metadata, CountsWritten env (cleanedRows env files) train test metadata ∧
          splitPreparedDataset env files testSize randomSeed chunkSize progressEvery force outputs =
            if train = [] ∨ test = [] then
              (.error .osError, { train := csvOf train, test := csvOf test })
            else
              (.ok (), {
                train := csvOf train
                test := csvOf test
                metadata := some metadata }) := by
  obtain ⟨train, test, hpartition, hrun⟩ :=
    splitPreparedDataset_spec hexact hpos hsize files randomSeed
  refine ⟨train, test, hpartition, fun chunkSize progressEvery force outputs hchunk hprogress
    houtputs hrows => ?_⟩
  obtain ⟨metadata, hcounts, -, hsplit⟩ :=
    hrun chunkSize progressEvery force outputs hchunk hprogress houtputs hrows
  exact ⟨metadata, hcounts, hsplit⟩

end split

/-- Rows that are their labels, and the first number of the default seed. -/
def labelsEnv : SplitEnv String String where
  clean := some
  label := id
  random _ _ := 5759444582531269 / 9007199254740992
  nearest := id
  sha256 _ := ""

/-- Two rows of one label, of which one is to be a test row. -/
theorem split_of_two_rows :
    ∃ train test, StratifiedPartition labelsEnv (1 / 2) (cleanedRows labelsEnv [["DDoS", "DDoS"]])
        train test ∧
      ∃ metadata, CountsWritten labelsEnv (cleanedRows labelsEnv [["DDoS", "DDoS"]]) train test
          metadata ∧
        splitPreparedDataset labelsEnv [["DDoS", "DDoS"]] (1 / 2) 42 10000 10 false {} =
          if train = [] ∨ test = [] then
            (.error .osError, { train := csvOf train, test := csvOf test })
          else
            (.ok (), { train := csvOf train, test := csvOf test, metadata := some metadata }) := by
  have hexact : Exact labelsEnv (1 / 2) := ⟨rfl, rfl⟩
  obtain ⟨train, test, hpartition, hrun⟩ := split_is_stratified_partition hexact (by norm_num)
    (by norm_num) [["DDoS", "DDoS"]] 42
  exact ⟨train, test, hpartition, hrun 10000 10 false {} (by norm_num) (by norm_num)
    (fun h => nomatch h) (List.cons_ne_nil _ _)⟩

end SmartIDS.ML
