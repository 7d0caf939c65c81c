import Mathlib.Algebra.BigOperators.Group.List.Basic
import Mathlib.Data.String.Basic
import SmartIDS.Foundation.Machine
import SmartIDS.ML.NormalTrafficFpr
set_option autoImplicit false

/-!
# ML: passes over the training file

`train_xgboost_cicids2018.py`.  The training file is read in chunks several times: to
count the labels, by the iterator that the booster pulls batches from and starts over
whenever it likes, and for the confusion matrix of the report.  Every pass sees each
cleaned row once, in the order of the file and with the same class.  Here are the labels
and the iterator.
-/

namespace SmartIDS.ML

open SmartIDS.Foundation SmartIDS.Python

/-- An array of probabilities for rows: one number a row, or one for each class. -/
inductive Probabilities (n : ℕ) where
  | vector (values : List ℚ)
  | table (rows : List (Fin n → ℚ))

/-- `predict` of a trained booster. -/
abbrev Booster (Cleaned : Type) (n : ℕ) : Type := List Cleaned → Probabilities n

/-- The functions a training uses, over the rows of the training file and the cleaned
rows. -/
structure TrainingEnv (Row Cleaned : Type) where
  /-- `sanitize_prepared_chunk` on one row; `none` for a row it drops. -/
  clean : Row → Option Cleaned
  /-- The cell in `LABEL_COLUMN`. -/
  label : Cleaned → String
  /-- `xgb.train` for so many classes, over the batches of the iterator. -/
  train : (n : ℕ) → List (List Cleaned × List (Fin n)) → Except PyError (Booster Cleaned n)

section definitions

variable {Row Cleaned : Type} (env : TrainingEnv Row Cleaned)

/-- The body of the loop of `_count_labels`. -/
def countTrainingChunk (counts : Counter String) (chunk : List Row) : Counter String :=
  counts.update ((chunk.filterMap env.clean).map env.label)

/-- `_count_labels`. -/
def countTrainingLabels (chunkSize : ℕ) (file : List Row) : Counter String :=
  (file.toChunks chunkSize).foldl (countTrainingChunk env) Dict.empty

/-- `classes_` of the encoder fitted with `sorted(label_counts)`. -/
def labelClasses (counts : Counter String) : List String := counts.keys.mergeSort fun a b => a ≤ b

/-! ## `_PreparedTrainingIterator` -/

/-- What the booster calls. -/
inductive IteratorCall where
  | next
  | reset
  deriving DecidableEq

/-- What a call comes to: a batch for `input_data`, the `False` of a pass that is over,
an exception, or nothing. -/
inductive Delivery (Cleaned : Type) (n : ℕ) where
  | batch (rows : List Cleaned) (labels : List (Fin n))
  | exhausted
  | raised (error : PyError)
  | nothing

/-- The chunks that the reader has left; `none` where it is closed. -/
structure PreparedTrainingIterator (Row : Type) where
  reader : Option (List (List Row)) := none

variable (classes : List String)

/-- The loop of `next`. -/
def nextBatch : List (List Row) →
    PreparedTrainingIterator Row × Delivery Cleaned classes.length
  | [] => (⟨none⟩, .exhausted)
  | chunk :: rest =>
    let cleaned := chunk.filterMap env.clean
    if cleaned.isEmpty then nextBatch rest
    else
      match cleaned.mapM fun row => transform classes (env.label row) with
      | .ok labels => (⟨some rest⟩, .batch cleaned labels)
      | .error e => (⟨some rest⟩, .raised e)

/-- `next` and `reset`. -/
def trainingIterator (chunkSize : ℕ) (file : List Row) :
    Machine (PreparedTrainingIterator Row) IteratorCall (Delivery Cleaned classes.length) where
  step it call :=
    match call with
    | .next => nextBatch env classes (it.reader.getD (file.toChunks chunkSize))
    | .reset => (⟨some (file.toChunks chunkSize)⟩, .nothing)

/-- The batches that so many calls of `next` deliver, up to the end of the pass. -/
def pullBatches (chunkSize : ℕ) (file : List Row) : ℕ → PreparedTrainingIterator Row →
    Except PyError (List (List Cleaned × List (Fin classes.length)))
  | 0, _ => .ok []
  | calls + 1, it =>
    match (trainingIterator env classes chunkSize file).step it .next with
    | (it, .batch rows labels) => do
      return (rows, labels) :: (← pullBatches chunkSize file calls it)
    | (_, .raised error) => .error error
    | (_, _) => .ok []

end definitions

/-! ## Encoding with the labels of the file -/

section encoding

variable {Row Cleaned : Type} {env : TrainingEnv Row Cleaned} {classes : List String}

/-- The labels of rows as indices into the classes. -/
def encodeRows (env : TrainingEnv Row Cleaned) (classes : List String) (rows : List Cleaned) :
    List (Fin classes.length) :=
  rows.filterMap fun row => (classTable classes).get? (env.label row)

theorem encodeRows_append (rows more : List Cleaned) :
    encodeRows env classes (rows ++ more) =
      encodeRows env classes rows ++ encodeRows env classes more := List.filterMap_append

/-- A label that is a class is encoded as an index at which it stands. -/
theorem get?_classTable {label : String} (h : label ∈ classes) :
    ∃ index, (classTable classes).get? label = some index ∧ classes.get index = label := by
  obtain ⟨index, hindex⟩ := Dict.exists_get?_of_mem ((mem_keys_classTable classes label).mpr h)
  obtain ⟨_, _, hget, rfl⟩ := Dict.exists_of_get?_tabulate _ _ _ hindex
  exact ⟨_, hindex, hget⟩

theorem encodeRows_cons (rows : List Cleaned) {row : Cleaned} (h : env.label row ∈ classes) :
    ∃ index, transform classes (env.label row) = .ok index ∧
      classes.get index = env.label row ∧
      encodeRows env classes (row :: rows) = index :: encodeRows env classes rows := by
  obtain ⟨index, hindex, hget⟩ := get?_classTable h
  refine ⟨index, ?_, hget, List.filterMap_cons_some hindex⟩
  unfold transform
  rw [hindex]

theorem mapM_transform {rows : List Cleaned} (h : ∀ row ∈ rows, env.label row ∈ classes) :
    (rows.mapM fun row => transform classes (env.label row)) =
      .ok (encodeRows env classes rows) := by
  induction rows with
  | nil => rfl
  | cons row rows ih =>
    rw [List.forall_mem_cons] at h
    obtain ⟨index, htransform, -, hcons⟩ := encodeRows_cons rows h.1
    rw [List.mapM_cons, htransform, ih h.2, hcons]
    rfl

/-- Decoding gives the labels back. -/
theorem map_get_encodeRows {rows : List Cleaned} (h : ∀ row ∈ rows, env.label row ∈ classes) :
    (encodeRows env classes rows).map classes.get = rows.map env.label := by
  induction rows with
  | nil => rfl
  | cons row rows ih =>
    rw [List.forall_mem_cons] at h
    obtain ⟨index, -, hget, hcons⟩ := encodeRows_cons rows h.1
    rw [hcons, List.map_cons, List.map_cons, hget, ih h.2]

theorem length_encodeRows {rows : List Cleaned} (h : ∀ row ∈ rows, env.label row ∈ classes) :
    (encodeRows env classes rows).length = rows.length := by
  simpa using congrArg List.length (map_get_encodeRows h)

theorem countTrainingLabels_eq (chunkSize : ℕ) (file : List Row) :
    countTrainingLabels env chunkSize file =
      Counter.of ((file.filterMap env.clean).map env.label) := by
  have hchunks (counts : Counter String) (chunks : List (List Row)) :
      chunks.foldl (countTrainingChunk env) counts =
        counts.update ((chunks.flatten.filterMap env.clean).map env.label) := by
    induction chunks generalizing counts with
    | nil => rfl
    | cons chunk chunks ih =>
      rw [List.foldl_cons, ih, List.flatten_cons, List.filterMap_append, List.map_append,
        Counter.update_append]
      rfl
  have hfile := hchunks Dict.empty (file.toChunks chunkSize)
  rw [flatten_toChunks] at hfile
  exact hfile

theorem mem_labelClasses (labels : List String) (label : String) :
    label ∈ labelClasses (Counter.of labels) ↔ label ∈ labels := by
  unfold labelClasses
  rw [List.mem_mergeSort, Counter.of, Counter.mem_keys_update]
  exact or_iff_right List.not_mem_nil

/-- Every row has a label that is a class. -/
theorem label_mem_labelClasses {rows : List Cleaned} :
    ∀ row ∈ rows, env.label row ∈ labelClasses (Counter.of (rows.map env.label)) :=
  fun _ hrow => (mem_labelClasses _ _).mpr (List.mem_map_of_mem hrow)

end encoding

/-! ## The passes of the iterator -/

/-- Passes over batches, from the number of those already delivered. -/
def passes {Cleaned : Type} {n : ℕ} (batches : List (List Cleaned × List (Fin n))) :
    Machine ℕ IteratorCall (Delivery Cleaned n) where
  step delivered call :=
    match call with
    | .next =>
      match batches[delivered]? with
      | some batch => (delivered + 1, .batch batch.1 batch.2)
      | none => (0, .exhausted)
    | .reset => (0, .nothing)

section passes

theorem passes_next_of_none {Cleaned : Type} {n : ℕ} {batches : List (List Cleaned × List (Fin n))}
    {delivered : ℕ} (h : batches[delivered]? = none) :
    (passes batches).step delivered .next = (0, .exhausted) := by
  simp only [passes, h]

theorem passes_next_of_some {Cleaned : Type} {n : ℕ} {batches : List (List Cleaned × List (Fin n))}
    {delivered : ℕ} {batch : List Cleaned × List (Fin n)} (h : batches[delivered]? = some batch) :
    (passes batches).step delivered .next = (delivered + 1, .batch batch.1 batch.2) := by
  simp only [passes, h]

variable {Row Cleaned : Type} {env : TrainingEnv Row Cleaned} {classes : List String}

/-- The batches of chunks: those with cleaned rows, with their labels. -/
def batchesOf (env : TrainingEnv Row Cleaned) (classes : List String) (chunks : List (List Row)) :
    List (List Cleaned × List (Fin classes.length)) :=
  ((chunks.map (List.filterMap env.clean)).filter fun cleaned => !cleaned.isEmpty).map
    fun cleaned => (cleaned, encodeRows env classes cleaned)

theorem batchesOf_cons_of_isEmpty {chunk : List Row} (rest : List (List Row))
    (h : (chunk.filterMap env.clean).isEmpty = true) :
    batchesOf env classes (chunk :: rest) = batchesOf env classes rest := by
  unfold batchesOf
  rw [List.map_cons, List.filter_cons_of_neg (by rw [h]; decide)]

theorem batchesOf_cons {chunk : List Row} (rest : List (List Row))
    (h : ¬ (chunk.filterMap env.clean).isEmpty = true) :
    batchesOf env classes (chunk :: rest) =
      (chunk.filterMap env.clean, encodeRows env classes (chunk.filterMap env.clean)) ::
        batchesOf env classes rest := by
  unfold batchesOf
  rw [List.map_cons, List.filter_cons_of_pos (by simpa using h), List.map_cons]

theorem flatMap_batchesOf (chunks : List (List Row)) :
    (batchesOf env classes chunks).flatMap Prod.fst = chunks.flatten.filterMap env.clean := by
  induction chunks with
  | nil => rfl
  | cons chunk rest ih =>
    rw [List.flatten_cons, List.filterMap_append, ← ih]
    by_cases h : (chunk.filterMap env.clean).isEmpty = true
    · rw [batchesOf_cons_of_isEmpty rest h, List.isEmpty_iff.mp h, List.nil_append]
    · rw [batchesOf_cons rest h, List.flatMap_cons]

/-- The loop of `next` gives the first batch and leaves the chunks of the others. -/
theorem nextBatch_eq {chunks : List (List Row)}
    (h : ∀ row ∈ chunks.flatten.filterMap env.clean, env.label row ∈ classes) :
    (batchesOf env classes chunks = [] ∧
        nextBatch env classes chunks = (⟨none⟩, .exhausted)) ∨
      ∃ batch rest, rest <:+ chunks ∧
        batchesOf env classes chunks = batch :: batchesOf env classes rest ∧
        nextBatch env classes chunks = (⟨some rest⟩, .batch batch.1 batch.2) := by
  induction chunks with
  | nil => exact .inl ⟨rfl, rfl⟩
  | cons chunk rest ih =>
    rw [List.flatten_cons, List.filterMap_append, List.forall_mem_append] at h
    by_cases hempty : (chunk.filterMap env.clean).isEmpty = true
    · rw [batchesOf_cons_of_isEmpty rest hempty, nextBatch, if_pos hempty]
      rcases ih h.2 with hover | ⟨batch, later, hsuffix, hbatch⟩
      · exact .inl hover
      · exact .inr ⟨batch, later, hsuffix.trans (List.suffix_cons chunk rest), hbatch⟩
    · refine .inr ⟨_, rest, List.suffix_cons chunk rest, batchesOf_cons rest hempty, ?_⟩
      rw [nextBatch, if_neg hempty, mapM_transform h.1]

theorem length_batchesOf_le (chunks : List (List Row)) :
    (batchesOf env classes chunks).length ≤ chunks.length := by
  unfold batchesOf
  rw [List.length_map]
  exact (List.length_filter_le _ _).trans (List.length_map _).le

/-- Pulled often enough, the iterator gives the batches of the chunks that are left. -/
theorem pullBatches_of_left {chunkSize calls : ℕ} {file : List Row} {chunks : List (List Row)}
    {it : PreparedTrainingIterator Row} (hleft : it.reader.getD (file.toChunks chunkSize) = chunks)
    (h : ∀ row ∈ chunks.flatten.filterMap env.clean, env.label row ∈ classes)
    (hcalls : (batchesOf env classes chunks).length < calls) :
    pullBatches env classes chunkSize file calls it = .ok (batchesOf env classes chunks) := by
  induction calls generalizing chunks it with
  | zero => exact absurd hcalls (Nat.not_lt_zero _)
  | succ calls ih =>
    have hstep : (trainingIterator env classes chunkSize file).step it .next =
        nextBatch env classes chunks := congrArg (nextBatch env classes) hleft
    rcases nextBatch_eq h with ⟨hnil, hnext⟩ | ⟨batch, rest, hsuffix, hcons, hnext⟩
    · rw [pullBatches, hstep, hnext, hnil]
    · rw [hcons, List.length_cons] at hcalls
      have hrest : pullBatches env classes chunkSize file calls ⟨some rest⟩ =
          .ok (batchesOf env classes rest) :=
        ih rfl (fun row hrow => h row ((hsuffix.sublist.flatten.filterMap env.clean).subset hrow))
          (Nat.lt_of_succ_lt_succ hcalls)
      rw [pullBatches, hstep, hnext, hcons]
      dsimp only
      rw [hrest]
      rfl

/-- A pass of the iterator gives the batches of the file. -/
theorem pullBatches_eq {chunkSize : ℕ} {file : List Row}
    (h : ∀ row ∈ file.filterMap env.clean, env.label row ∈ classes) :
    pullBatches env classes chunkSize file ((file.toChunks chunkSize).length + 1) {} =
      .ok (batchesOf env classes (file.toChunks chunkSize)) := by
  rw [← flatten_toChunks chunkSize file] at h
  exact pullBatches_of_left rfl h (Nat.lt_succ_of_le (length_batchesOf_le _))

/-- No batch is empty, and the labels are those of its rows. -/
theorem batch_of_mem {chunks : List (List Row)} {batch : List Cleaned × List (Fin classes.length)}
    (hlabels : ∀ row ∈ chunks.flatten.filterMap env.clean, env.label row ∈ classes)
    (h : batch ∈ batchesOf env classes chunks) :
    batch.1 ≠ [] ∧ batch.2.map classes.get = batch.1.map env.label := by
  obtain ⟨cleaned, hcleaned, rfl⟩ := List.mem_map.mp h
  obtain ⟨hmem, hne⟩ := List.mem_filter.mp hcleaned
  refine ⟨by simpa using hne, map_get_encodeRows fun row hrow => hlabels row ?_⟩
  rw [List.filterMap_flatten]
  exact List.mem_flatten.mpr ⟨cleaned, hmem, hrow⟩

variable (env classes) in
/-- What the reader has left are the chunks of the batches not yet delivered. -/
structure StandsAt (chunks : List (List Row)) (it : PreparedTrainingIterator Row)
    (delivered : ℕ) : Prop where
  suffix : it.reader.getD chunks <:+ chunks
  batches : batchesOf env classes (it.reader.getD chunks) =
    (batchesOf env classes chunks).drop delivered

theorem StandsAt.start (chunks : List (List Row)) {it : PreparedTrainingIterator Row}
    (h : it.reader.getD chunks = chunks) : StandsAt env classes chunks it 0 where
  suffix := by rw [h]
  batches := by rw [h, List.drop_zero]

/-- One call, on both sides. -/
theorem StandsAt.step {chunkSize : ℕ} {file : List Row} {it : PreparedTrainingIterator Row}
    {delivered : ℕ} (hlabels : ∀ row ∈ file.filterMap env.clean, env.label row ∈ classes)
    (h : StandsAt env classes (file.toChunks chunkSize) it delivered) (call : IteratorCall) :
    let concrete := (trainingIterator env classes chunkSize file).step it call
    let abstract := (passes (batchesOf env classes (file.toChunks chunkSize))).step delivered call
    StandsAt env classes (file.toChunks chunkSize) concrete.1 abstract.1 ∧
      concrete.2 = abstract.2 := by
  intro concrete abstract
  cases call with
  | reset => exact ⟨.start _ rfl, rfl⟩
  | next =>
    have hleft : ∀ row ∈ (it.reader.getD (file.toChunks chunkSize)).flatten.filterMap env.clean,
        env.label row ∈ classes := by
      intro row hrow
      apply hlabels
      rw [← flatten_toChunks chunkSize file]
      exact (h.suffix.sublist.flatten.filterMap env.clean).subset hrow
    rcases nextBatch_eq hleft with ⟨hnil, hnext⟩ | ⟨batch, rest, hsuffix, hcons, hnext⟩
    · have hnone : (batchesOf env classes (file.toChunks chunkSize))[delivered]? = none := by
        rw [← List.head?_drop, ← h.batches, hnil]
        rfl
      have hconcrete : concrete = (⟨none⟩, .exhausted) := hnext
      have habstract : abstract = (0, .exhausted) := passes_next_of_none hnone
      rw [hconcrete, habstract]
      exact ⟨.start _ rfl, rfl⟩
    · have hsome : (batchesOf env classes (file.toChunks chunkSize))[delivered]? = some batch := by
        rw [← List.head?_drop, ← h.batches, hcons]
        rfl
      have hconcrete : concrete = (⟨some rest⟩, .batch batch.1 batch.2) := hnext
      have habstract : abstract = (delivered + 1, .batch batch.1 batch.2) :=
        passes_next_of_some hsome
      rw [hconcrete, habstract]
      refine ⟨⟨hsuffix.trans h.suffix, ?_⟩, rfl⟩
      rw [← List.tail_drop, ← h.batches, hcons]
      rfl

/-- Whatever the booster calls, the iterator goes over the same batches: together the cleaned
rows in the order of the file, none of them empty, with indices of classes that decode to the
labels of their rows.  A batch follows the one before it, `reset` and the end of a pass
start over, and nothing is raised. -/
theorem training_iterator (env : TrainingEnv Row Cleaned) (chunkSize : ℕ) (file : List Row) :
    let classes := labelClasses (countTrainingLabels env chunkSize file)
    ∃ batches : List (List Cleaned × List (Fin classes.length)),
      batches.flatMap Prod.fst = file.filterMap env.clean ∧
      (∀ batch ∈ batches, batch.1 ≠ [] ∧ batch.2.map classes.get = batch.1.map env.label) ∧
      ∀ calls, (trainingIterator env classes chunkSize file).trace {} calls =
        (passes batches).trace 0 calls := by
  intro classes
  have hlabels : ∀ row ∈ file.filterMap env.clean, env.label row ∈ classes := by
    intro row hrow
    unfold classes
    rw [countTrainingLabels_eq]
    exact label_mem_labelClasses row hrow
  refine ⟨batchesOf env classes (file.toChunks chunkSize), ?_, ?_, ?_⟩
  · rw [flatMap_batchesOf, flatten_toChunks]
  · intro batch hbatch
    rw [← flatten_toChunks chunkSize file] at hlabels
    exact batch_of_mem hlabels hbatch
  · intro calls
    rw [← List.forall₂_eq_eq_eq]
    have hstart : StandsAt env classes (file.toChunks chunkSize) {} 0 := .start _ rfl
    refine Machine.trace_related _ _ (fun it delivered call call' h hcall _ => ?_) hstart
      (List.forall₂_same.mpr fun call _ => rfl)
      (Machine.guarded_of_forall (G := fun _ _ => True) _ (fun _ _ _ => trivial) _)
    obtain rfl : call = call' := hcall
    exact h.step hlabels call

end passes

end SmartIDS.ML
