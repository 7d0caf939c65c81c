import Mathlib.Algebra.Order.Group.Multiset
import Mathlib.Data.List.Perm.Basic
import Mathlib.Tactic.Abel
import SmartIDS.Forwarding.BackgroundPublisher
set_option autoImplicit false

/-!
# Forwarding: several workers at one queue

A publisher without a spill store.  Its workers take payloads in the order in which
they were accepted, and finish them in any order.
-/

namespace SmartIDS.Forwarding

open SmartIDS.Foundation SmartIDS.Python
open scoped List

variable {P : Type}

/-- The payload that is being published. -/
def Phase.job? : Phase P → Option P
  | .publishing payload => some payload
  | _ => none

namespace BackgroundPublisher

/-- The payloads that are being published. -/
def inHand (s : BackgroundPublisher P) : List P := s.workers.filterMap Phase.job?

/-- The payload whose `publish` the next call of a worker is. -/
def due (s : BackgroundPublisher P) (worker : ℕ) : Option P := s.workers[worker]?.bind Phase.job?

/-- Where the accepted payloads are: the workers took the first of them, and of these
some are published. -/
structure Dispatched (accepted published : List P) (s : BackgroundPublisher P) : Prop where
  store : s.spillStore = none
  taken : ∃ taken, accepted = taken ++ s.queue ∧ taken.Perm (s.inHand ++ published)

theorem inHand_init (maxQueueSize workerCount : ℤ) :
    (init maxQueueSize workerCount none : BackgroundPublisher P).inHand = [] := by
  unfold inHand init
  rw [List.filterMap_replicate]
  rfl

theorem Dispatched.init (maxQueueSize workerCount : ℤ) :
    Dispatched [] [] (init maxQueueSize workerCount none : BackgroundPublisher P) := by
  refine ⟨rfl, [], rfl, ?_⟩
  rw [inHand_init]
  exact List.Perm.refl _

section oneEvent

variable {accepted published : List P} {s : BackgroundPublisher P}

/-- A payload that is accepted goes to the end of the queue. -/
theorem Dispatched.submit (h : Dispatched accepted published s) (payload : P) :
    Dispatched (accepted ++ if (s.submit payload).1 then [payload] else []) published
      (s.submit payload).2 := by
  obtain ⟨taken, haccepted, hperm⟩ := h.taken
  by_cases hroom : s.queue.length < s.maxQueueSize
  · have hsubmit : s.submit payload = (true, { s with queue := s.queue ++ [payload] }) :=
      if_pos hroom
    rw [hsubmit, if_pos rfl]
    exact ⟨h.store, taken, by rw [haccepted, List.append_assoc], hperm⟩
  · have hsubmit : s.submit payload = (false, { s with dropped := s.dropped + 1 }) :=
      if_neg hroom
    rw [hsubmit, if_neg Bool.false_ne_true, List.append_nil]
    exact ⟨h.store, taken, haccepted, hperm⟩

theorem dropped_submit (payload : P) :
    (s.submit payload).2.dropped = s.dropped + if (s.submit payload).1 then 0 else 1 := by
  unfold BackgroundPublisher.submit
  split_ifs <;> simp_all

/-- The payloads in hand, seen from one worker. -/
theorem inHand_perm {i : ℕ} {phase : Phase P} (hi : s.workers[i]? = some phase) :
    s.inHand.Perm (phase.job?.toList ++ (s.workers.eraseIdx i).filterMap Phase.job?) := by
  obtain ⟨hlt, rfl⟩ := List.getElem?_eq_some_iff.mp hi
  have hperm := (List.getElem_cons_eraseIdx_perm hlt).symm.filterMap Phase.job?
  rw [List.filterMap_cons] at hperm
  cases hjob : s.workers[i].job? with
  | none => simpa [hjob, inHand] using hperm
  | some payload => simpa [hjob, inHand] using hperm

theorem inHand_set_perm {workers : List (Phase P)} {i : ℕ} (hlt : i < workers.length)
    (phase : Phase P) :
    ((workers.set i phase).filterMap Phase.job?).Perm
      (phase.job?.toList ++ (workers.eraseIdx i).filterMap Phase.job?) := by
  have hperm := (List.set_perm_cons_eraseIdx hlt phase).filterMap Phase.job?
  rw [List.filterMap_cons] at hperm
  cases hjob : phase.job? with
  | none => simpa [hjob] using hperm
  | some payload => simpa [hjob] using hperm

variable (codec : JsonCodec P) (outcome : Published) (disk : Disk)

/-- Where there is no store, a call of a worker moves at most the first payload of the
queue into its hand. -/
theorem work_storeless (hstore : s.spillStore = none) (phase : Phase P) :
    (work codec outcome disk s phase).1.spillStore = none ∧
      (work codec outcome disk s phase).1.dropped = s.dropped ∧
      (work codec outcome disk s phase).2.job?.toList ++
        (work codec outcome disk s phase).1.queue = s.queue := by
  obtain ⟨maxQueueSize, queue, dropped, spillStore, workers⟩ := s
  obtain rfl : spillStore = none := hstore
  cases phase with
  | waiting => cases queue <;> exact ⟨rfl, rfl, rfl⟩
  | publishing payload =>
    unfold work
    cases outcome.delivered <;> exact ⟨rfl, rfl, rfl⟩
  | replaying item rest n =>
    refine ⟨rfl, rfl, ?_⟩
    unfold work replay endReplay
    dsimp only
    repeat' split
    all_goals rfl
  | _ => exact ⟨rfl, rfl, rfl⟩

/-- A payload of the queue comes into a hand, and one goes from a hand to the
published. -/
theorem perm_exchange (finished others published started : List P) :
    finished ++ others ++ published ++ started ~ started ++ others ++ (published ++ finished) := by
  rw [← Multiset.coe_eq_coe]
  simp only [← Multiset.coe_add]
  abel

theorem dropped_next_work (hstore : s.spillStore = none) (i : ℕ) :
    (next codec s (.work i outcome disk)).dropped = s.dropped := by
  cases hi : s.workers[i]? with
  | none => rw [next_work_of_none hi]
  | some phase =>
    rw [next_work hi]
    exact (work_storeless codec outcome disk hstore phase).2.1

/-- A call of a worker publishes the payload due, or takes the next one, or neither. -/
theorem Dispatched.work (h : Dispatched accepted published s) (i : ℕ) :
    Dispatched accepted (published ++ (s.due i).toList) (next codec s (.work i outcome disk)) := by
  obtain ⟨taken, haccepted, hperm⟩ := h.taken
  unfold due
  cases hi : s.workers[i]? with
  | none =>
    rw [next_work_of_none hi, Option.bind_none, Option.toList_none, List.append_nil]
    exact h
  | some phase =>
    obtain ⟨hlt, -⟩ := List.getElem?_eq_some_iff.mp hi
    obtain ⟨hstore, -, hqueue⟩ := work_storeless codec outcome disk h.store phase
    have hnext : next codec s (.work i outcome disk) = _ := next_work hi
    have hafter : (next codec s (.work i outcome disk)).inHand.Perm _ :=
      next_workers hi ▸ inHand_set_perm hlt (BackgroundPublisher.work codec outcome disk s phase).2
    generalize hstart : (BackgroundPublisher.work codec outcome disk s phase).2.job?.toList = started at hqueue hafter
    rw [Option.bind_some]
    refine ⟨by rw [hnext]; exact hstore, taken ++ started, ?_, ?_⟩
    · rw [haccepted, ← hqueue, hnext, List.append_assoc]
    · calc taken ++ started
          _ ~ s.inHand ++ published ++ started := hperm.append_right _
          _ ~ phase.job?.toList ++ (s.workers.eraseIdx i).filterMap Phase.job? ++ published ++
              started := ((inHand_perm hi).append_right _).append_right _
          _ ~ started ++ (s.workers.eraseIdx i).filterMap Phase.job? ++
              (published ++ phase.job?.toList) := perm_exchange _ _ _ _
          _ ~ _ := hafter.symm.append_right _

end oneEvent

end BackgroundPublisher

end SmartIDS.Forwarding
