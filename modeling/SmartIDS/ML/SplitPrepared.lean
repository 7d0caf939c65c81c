import SmartIDS.Foundation.Effect
import SmartIDS.ML.FeatureSchema
import SmartIDS.Python.Counter
import SmartIDS.Python.Value
set_option autoImplicit false

/-!
# ML: splitting the prepared dataset

`split_prepared_cicids2018.py`.  The source files are read twice, in chunks: the
first pass counts the labels, from which the number of test rows of each label
follows, and the second one writes every row to the train or to the test file.
Cleaning acts row by row; the random numbers, the digest and the rounding of a
double are parameters.
-/

namespace SmartIDS.ML

open SmartIDS.Foundation SmartIDS.Python

/-- A line of a written file. -/
inductive Line (Cleaned : Type) where
  | header
  | row (row : Cleaned)
  deriving DecidableEq

/-- A written file; `none` where there is none. -/
abbrev CsvFile (Cleaned : Type) : Type := Option (List (Line Cleaned))

/-- The functions the splitter uses, over the rows of the sources and the cleaned
rows. -/
structure SplitEnv (Row Cleaned : Type) where
  /-- `sanitize_prepared_chunk` on one row; `none` for a row it drops. -/
  clean : Row → Option Cleaned
  /-- The cell in `LABEL_COLUMN`. -/
  label : Cleaned → String
  /-- The numbers of `random.Random(random_seed).random`. -/
  random : ℤ → ℕ → ℚ
  /-- The double nearest to a number. -/
  nearest : ℚ → ℚ
  /-- `hashlib.sha256` of a file. -/
  sha256 : List (Line Cleaned) → String

section counting

variable {Row Cleaned : Type} (env : SplitEnv Row Cleaned)

/-- `sanitize_prepared_chunk`. -/
def sanitizePreparedChunk (chunk : List Row) : List Cleaned := chunk.filterMap env.clean

/-- The body of the loops of `_count_labels`: the label totals, the raw and the
cleaned rows. -/
def countChunk (counted : Counter String × ℕ × ℕ) (chunk : List Row) : Counter String × ℕ × ℕ :=
  let cleaned := sanitizePreparedChunk env chunk
  (Counter.update counted.1 (cleaned.map env.label), counted.2.1 + chunk.length,
    counted.2.2 + cleaned.length)

/-- `_count_labels`. -/
def countLabels (chunkSize : ℕ) (files : List (List Row)) :
    Except PyError (Counter String × ℕ × ℕ) :=
  let counted := files.foldl (fun counted file =>
    (file.toChunks chunkSize).foldl (countChunk env) counted) (Dict.empty, 0, 0)
  if counted.1.entries = [] then .error .valueError else .ok counted

/-- The target of a label in `_compute_test_targets`. -/
def testTarget (testSize : ℚ) (count : ℤ) : ℤ :=
  let target := pyRound (env.nearest (env.nearest count * testSize))
  let target := if 1 < count ∧ count ≤ target then count - 1 else target
  if target < 0 then 0 else target

/-- `_compute_test_targets`. -/
def computeTestTargets (labelTotals : Counter String) (testSize : ℚ) : Counter String :=
  labelTotals.entries.foldl
    (fun targets entry => targets.set entry.1 (testTarget env testSize entry.2)) Dict.empty

/-- `_sorted_counter`. -/
def sortedCounter (counter : Counter String) : List (String × ℤ) :=
  counter.entries.mergeSort fun a b => a.1 ≤ b.1

/-- `_iter_clean_chunks`. -/
def iterCleanChunks (chunkSize : ℕ) (file : List Row) : List (List Cleaned) :=
  ((file.toChunks chunkSize).map (sanitizePreparedChunk env)).filter fun chunk => !chunk.isEmpty

end counting

/-! ## The loop -/

/-- The variables of the loop of `split_prepared_dataset`, and the files it writes. -/
structure SplitState (Cleaned : Type) where
  drawn : ℕ := 0
  trainHeader : Bool := true
  testHeader : Bool := true
  seenCounts : Counter String := Dict.empty
  trainCounts : Counter String := Dict.empty
  testCounts : Counter String := Dict.empty
  trainRows : ℕ := 0
  testRows : ℕ := 0
  trainIndices : List ℕ := []
  testIndices : List ℕ := []
  train : CsvFile Cleaned := none
  test : CsvFile Cleaned := none

/-- `rows.iloc[indices]`. -/
def iloc {α : Type} (rows : List α) (indices : List ℕ) : List α :=
  indices.filterMap fun i => rows[i]?

/-- `to_csv(path, mode="a", header=header)`. -/
def toCsv {Cleaned : Type} (rows : List Cleaned) (header : Bool) (file : CsvFile Cleaned) :
    CsvFile Cleaned :=
  some (file.getD [] ++ (if header then [.header] else []) ++ rows.map .row)

section loop

variable {Row Cleaned : Type} (env : SplitEnv Row Cleaned) (seed : ℤ)

/-- `rng.random()`. -/
def rngRandom : Effect PyError (SplitState Cleaned) ℚ :=
  .state fun s => (env.random seed s.drawn, { s with drawn := s.drawn + 1 })

/-- The division of two integers. -/
def trueDiv (a b : ℤ) : Except PyError ℚ :=
  if b = 0 then .error .other else .ok (env.nearest (a / b))

variable (labelTotals testTargets : Counter String)

/-- The choice made for a row, behind the count of its label. -/
def chooseTest (label : String) : Effect PyError (SplitState Cleaned) Bool := do
  let s ← .get
  let remainingTotal := labelTotals.count label - (s.seenCounts.count label - 1)
  let remainingTest := testTargets.count label - s.testCounts.count label
  if 0 < remainingTest then
    if remainingTotal = remainingTest then return true
    else
      let number ← rngRandom env seed
      let share ← .ofExcept (trueDiv env remainingTest remainingTotal)
      return decide (number < share)
  else return false

/-- A row joins the test rows of its chunk. -/
def SplitState.toTest (s : SplitState Cleaned) (rowIndex : ℕ) (label : String) :
    SplitState Cleaned :=
  { s with
    testIndices := s.testIndices ++ [rowIndex]
    testCounts := s.testCounts.increment label
    testRows := s.testRows + 1 }

/-- A row joins the train rows of its chunk. -/
def SplitState.toTrain (s : SplitState Cleaned) (rowIndex : ℕ) (label : String) :
    SplitState Cleaned :=
  { s with
    trainIndices := s.trainIndices ++ [rowIndex]
    trainCounts := s.trainCounts.increment label
    trainRows := s.trainRows + 1 }

/-- The body of the loop over the labels of a chunk. -/
def assignRow (entry : String × ℕ) : Effect PyError (SplitState Cleaned) Unit := do
  .modify fun s => { s with seenCounts := s.seenCounts.increment entry.1 }
  let chosen ← chooseTest env seed labelTotals testTargets entry.1
  .modify fun s => if chosen then s.toTest entry.2 entry.1 else s.toTrain entry.2 entry.1

/-- Append the train rows of a chunk to their file. -/
def SplitState.writeTrain (chunk : List Cleaned) (s : SplitState Cleaned) : SplitState Cleaned :=
  if s.trainIndices = [] then s
  else
    { s with
      train := toCsv (iloc chunk s.trainIndices) s.trainHeader s.train
      trainHeader := false }

/-- Append the test rows of a chunk to their file. -/
def SplitState.writeTest (chunk : List Cleaned) (s : SplitState Cleaned) : SplitState Cleaned :=
  if s.testIndices = [] then s
  else
    { s with
      test := toCsv (iloc chunk s.testIndices) s.testHeader s.test
      testHeader := false }

/-- The body of the loop over the cleaned chunks. -/
def splitChunk (chunk : List Cleaned) : Effect PyError (SplitState Cleaned) Unit := do
  .modify fun s => { s with testIndices := [], trainIndices := [] }
  (chunk.map env.label).zipIdx.forM (assignRow env seed labelTotals testTargets)
  .modify (SplitState.writeTrain chunk)
  .modify (SplitState.writeTest chunk)

/-- The loop over the source files. -/
def splitFiles (chunkSize : ℕ) (files : List (List Row)) :
    Effect PyError (SplitState Cleaned) Unit :=
  files.forM fun file =>
    (iterCleanChunks env chunkSize file).forM (splitChunk env seed labelTotals testTargets)

end loop

/-! ## `split_prepared_dataset` -/

/-- The metadata file. -/
structure SplitMetadata where
  featureColumns : List String
  labelColumn : String
  testSize : ℚ
  randomSeed : ℤ
  chunkSize : ℤ
  rawRows : ℕ
  cleanedRows : ℕ
  trainRows : ℕ
  testRows : ℕ
  labelDistribution : List (String × ℤ)
  trainLabelDistribution : List (String × ℤ)
  testLabelDistribution : List (String × ℤ)
  trainSha256 : String
  testSha256 : String

/-- The files in the output directory. -/
structure SplitOutputs (Cleaned : Type) where
  train : CsvFile Cleaned := none
  test : CsvFile Cleaned := none
  metadata : Option SplitMetadata := none

section split

variable {Row Cleaned : Type} (env : SplitEnv Row Cleaned)

/-- `_sha256`; a file that is not there cannot be opened. -/
def sha256Of : CsvFile Cleaned → Except PyError String
  | none => .error .osError
  | some lines => .ok (env.sha256 lines)

/-- The metadata of a split, from what the first pass counted and what the loop left. -/
def SplitState.metadata (s : SplitState Cleaned) (testSize : ℚ) (randomSeed chunkSize : ℤ)
    (counted : Counter String × ℕ × ℕ) (trainSha256 testSha256 : String) : SplitMetadata where
  featureColumns := featureColumns
  labelColumn := labelColumn
  testSize := testSize
  randomSeed := randomSeed
  chunkSize := chunkSize
  rawRows := counted.2.1
  cleanedRows := counted.2.2
  trainRows := s.trainRows
  testRows := s.testRows
  labelDistribution := sortedCounter counted.1
  trainLabelDistribution := sortedCounter s.trainCounts
  testLabelDistribution := sortedCounter s.testCounts
  trainSha256 := trainSha256
  testSha256 := testSha256

/-- Whether `existing_outputs` has an entry. -/
def SplitOutputs.existing (outputs : SplitOutputs Cleaned) : Bool :=
  outputs.train.isSome || outputs.test.isSome || outputs.metadata.isSome

/-- `split_prepared_dataset` on the files that are resolved. -/
def splitPreparedDataset (files : List (List Row)) (testSize : ℚ) (randomSeed chunkSize : ℤ)
    (progressEvery : ℤ) (force : Bool) : Effect PyError (SplitOutputs Cleaned) Unit := do
  if ¬ (0 < testSize ∧ testSize < 1) then .ofExcept (.error .valueError)
  if chunkSize ≤ 0 then .ofExcept (.error .valueError)
  if progressEvery ≤ 0 then .ofExcept (.error .valueError)
  let outputs ← .get
  if outputs.existing ∧ force = false then .ofExcept (.error .osError)
  let counted ← .ofExcept (countLabels env chunkSize.toNat files)
  let testTargets := computeTestTargets env counted.1 testSize
  .modify fun _ => {}
  let s ← .zoom (fun outputs => { train := outputs.train, test := outputs.test })
    (fun s outputs => { outputs with train := s.train, test := s.test })
    (splitFiles env randomSeed counted.1 testTargets chunkSize.toNat files >>= fun _ => .get)
  let trainSha256 ← .ofExcept (sha256Of env s.train)
  let testSha256 ← .ofExcept (sha256Of env s.test)
  let metadata := s.metadata testSize randomSeed chunkSize counted trainSha256 testSha256
  .modify fun outputs => { outputs with metadata := some metadata }

end split

end SmartIDS.ML
