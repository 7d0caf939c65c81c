import SmartIDS.Foundation.Machine
import SmartIDS.Forwarding.IdPayloads
set_option autoImplicit false

/-!
# Forwarding: the background publisher

`packet_capture/forwarding/background_publisher.py`.  Producers submit to a
bounded queue; each worker is a thread in the loop of `_run`.  A step of a
worker is one call that others may come between: taking from the queue, one
`publish`, one operation of the spill store, which its lock makes atomic.  An
exception that leaves the loop ends the thread.
-/

namespace SmartIDS.Forwarding

open SmartIDS.Foundation SmartIDS.Python

/-- What a call of `publish` comes to; a returned value counts by its truth. -/
inductive Published where
  | returned (truthy : Bool)
  | raised
  deriving DecidableEq

/-- `delivered`, resp. `ok`: the exception is caught. -/
def Published.delivered : Published → Bool
  | .returned truthy => truthy
  | .raised => false

/-- Where in the loop a worker is: the call it makes next. -/
inductive Phase (P : Type) where
  /-- `self._queue.get()` -/
  | waiting
  /-- `publish` of a payload from the queue -/
  | publishing (payload : P)
  /-- `append` of a payload that was not delivered, if there is a store -/
  | failed (payload : P)
  /-- `is_empty`, if there is a store -/
  | checking
  /-- `peek_batch` -/
  | peeking
  /-- `publish` of the first of the items left of the batch -/
  | replaying (item : P) (rest : List P) (deliveredCount : ℕ)
  /-- `discard_batch` -/
  | discarding (deliveredCount : ℕ)
  /-- the thread has ended -/
  | dead

/-- Inside `_drain_spill_backlog`. -/
def Phase.inReplay {P : Type} : Phase P → Bool
  | .peeking => true
  | .replaying _ _ _ => true
  | .discarding _ => true
  | _ => false

/-- `_SPILL_DRAIN_BATCH_SIZE`. -/
def spillDrainBatchSize : ℤ := 50

/-- `BackgroundPublisher`. -/
structure BackgroundPublisher (P : Type) where
  maxQueueSize : ℕ
  queue : List P
  dropped : ℕ
  spillStore : Option DiskSpillStore
  workers : List (Phase P)

namespace BackgroundPublisher

variable {P : Type}

/-- `__init__`. -/
def init (maxQueueSize workerCount : ℤ) (spillStore : Option DiskSpillStore) :
    BackgroundPublisher P where
  maxQueueSize := (max 1 maxQueueSize).toNat
  queue := []
  dropped := 0
  spillStore := spillStore
  workers := List.replicate (max 1 workerCount).toNat .waiting

/-- `submit`, and what it returns. -/
def submit (payload : P) (s : BackgroundPublisher P) : Bool × BackgroundPublisher P :=
  if s.queue.length < s.maxQueueSize then (true, { s with queue := s.queue ++ [payload] })
  else (false, { s with dropped := s.dropped + 1 })

/-- Behind the loop of `_drain_spill_backlog`. -/
def endReplay (deliveredCount : ℕ) : Phase P :=
  if 0 < deliveredCount then .discarding deliveredCount else .waiting

/-- The loop of `_drain_spill_backlog` in front of an item. -/
def replay (batch : List P) (deliveredCount : ℕ) : Phase P :=
  match batch with
  | [] => endReplay deliveredCount
  | item :: rest => .replaying item rest deliveredCount

/-- A call of the store by a worker; nothing around it catches an exception.
Without a store there is none to call. -/
def callStore {α : Type} (s : BackgroundPublisher P) (call : Effect PyError DiskSpillStore α)
    (next : α → Phase P) : BackgroundPublisher P × Phase P :=
  match s.spillStore with
  | none => (s, .dead)
  | some store =>
    match call store with
    | (.ok a, store') => ({ s with spillStore := some store' }, next a)
    | (.error _, store') => ({ s with spillStore := some store' }, .dead)

variable (codec : JsonCodec P) (published : Published) (disk : Disk)

/-- The next call of a worker. -/
def work (s : BackgroundPublisher P) : Phase P → BackgroundPublisher P × Phase P
  | .waiting =>
    match s.queue with
    | [] => (s, .waiting)
    | payload :: rest => ({ s with queue := rest }, .publishing payload)
  | .publishing payload => (s, if published.delivered then .checking else .failed payload)
  | .failed payload =>
    if s.spillStore.isSome then
      callStore s (DiskSpillStore.append codec disk payload) fun _ => .waiting
    else (s, .waiting)
  | .checking =>
    (s, if s.spillStore.any fun store => !store.isEmpty then .peeking else .waiting)
  | .peeking =>
    callStore s (DiskSpillStore.peekBatch codec disk spillDrainBatchSize) fun batch =>
      replay batch 0
  | .replaying _ rest deliveredCount =>
    (s, if published.delivered then replay rest (deliveredCount + 1) else endReplay deliveredCount)
  | .discarding deliveredCount =>
    callStore s (DiskSpillStore.discardBatch codec disk deliveredCount) fun _ => .waiting
  | .dead => (s, .dead)

/-- A producer submits a payload, or a worker makes its next call. -/
inductive Event (P : Type) where
  | submit (payload : P)
  | work (worker : ℕ) (published : Published) (disk : Disk)

/-- One event. -/
def next (s : BackgroundPublisher P) : Event P → BackgroundPublisher P
  | .submit payload => (s.submit payload).2
  | .work i published disk =>
    match s.workers[i]? with
    | none => s
    | some phase =>
      let (t, phase') := work codec published disk s phase
      { t with workers := t.workers.set i phase' }

/-- The publisher under any interleaving of producers and workers. -/
def events : Machine (BackgroundPublisher P) (Event P) Unit where
  step s e := (next codec s e, ())

variable {codec published disk} {s : BackgroundPublisher P}

@[simp] theorem events_step (e : Event P) : ((events codec).step s e).1 = next codec s e := rfl

theorem next_work {i : ℕ} {phase : Phase P} (h : s.workers[i]? = some phase) :
    next codec s (.work i published disk) =
      { (work codec published disk s phase).1 with
        workers := (work codec published disk s phase).1.workers.set i
          (work codec published disk s phase).2 } := by
  simp only [next, h]

theorem next_work_of_none {i : ℕ} (h : s.workers[i]? = none) :
    next codec s (.work i published disk) = s := by
  simp only [next, h]

theorem replay_ne_dead (batch : List P) (n : ℕ) : replay batch n ≠ .dead := by
  unfold replay endReplay
  split
  · split <;> simp
  · simp

theorem callStore_workers {α : Type} (call : Effect PyError DiskSpillStore α)
    (f : α → Phase P) : (callStore s call f).1.workers = s.workers := by
  unfold callStore
  repeat' split
  all_goals rfl

/-- A worker's call leaves the other workers where they are. -/
theorem work_workers (phase : Phase P) :
    (work codec published disk s phase).1.workers = s.workers := by
  cases phase with
  | waiting =>
    simp only [work]
    split <;> rfl
  | failed payload =>
    simp only [work]
    split
    · exact callStore_workers _ _
    · rfl
  | peeking => exact callStore_workers _ _
  | discarding n => exact callStore_workers _ _
  | _ => rfl

theorem next_workers {i : ℕ} {phase : Phase P} (h : s.workers[i]? = some phase) :
    (next codec s (.work i published disk)).workers =
      s.workers.set i (work codec published disk s phase).2 := by
  rw [next_work h, work_workers]

theorem next_spillStore {i : ℕ} {phase : Phase P} (h : s.workers[i]? = some phase) :
    (next codec s (.work i published disk)).spillStore =
      (work codec published disk s phase).1.spillStore := by
  rw [next_work h]

end BackgroundPublisher

end SmartIDS.Forwarding
