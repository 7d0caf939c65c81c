import Mathlib.Algebra.Order.Group.Multiset
import Mathlib.Tactic.Abel
import SmartIDS.Forwarding.SpillBooks
set_option autoImplicit false

/-!
# Forwarding: the accounts of a publisher with one worker

With one worker, disk operations that succeed and payloads that are JSON, every
accepted payload is in exactly one place.  The spill file counts without the
entries the replay in progress has delivered: these leave it when the batch
ends.
-/

namespace SmartIDS.Forwarding

open SmartIDS.Foundation SmartIDS.Python

variable {P : Type}

/-- The payload in the hands of a worker, from the queue. -/
def Phase.held : Phase P → List P
  | .publishing payload => [payload]
  | .failed payload => [payload]
  | _ => []

/-- The entries in front of the file that the replay in progress has delivered. -/
def Phase.settled : Phase P → ℕ
  | .replaying _ _ n => n
  | .discarding n => n
  | _ => 0

namespace Books

/-- The entries that were trimmed, resp. discarded. -/
def left (b : Books P) (fate : Fate) : List P :=
  (b.gone.filter fun entry => entry.2 = fate).map Prod.fst

theorem left_leave {b : Books P} {lost after : List P} (fate fate' : Fate) :
    (b.leave (lost ++ after) after fate).left fate' =
      b.left fate' ++ if fate = fate' then lost else [] := by
  unfold left
  rw [leave_gone, List.filter_append, List.map_append, List.filter_map]
  split
  · next heq => simp [Function.comp_def, heq]
  · next hne => simp [Function.comp_def, hne]

end Books

namespace Audited

open BackgroundPublisher DiskSpillStore

variable {codec : JsonCodec P} {w : Audited P}

/-- The payloads in flight. -/
def inFlight (s : BackgroundPublisher P) : List P := s.workers.flatMap Phase.held

/-- How many entries the replays in progress have delivered. -/
def settled (s : BackgroundPublisher P) : ℕ := (s.workers.map Phase.settled).sum

/-- The entries of the file without these. -/
def undelivered (codec : JsonCodec P) (s : BackgroundPublisher P) : List P :=
  (pendingOf codec s).drop (settled s)

/-- The accounts of a publisher. -/
structure Accounted (codec : JsonCodec P) (w : Audited P) : Prop where
  /-- Every accepted payload is in exactly one place. -/
  conserved : (w.books.accepted : Multiset P) =
    w.books.delivered + w.publisher.queue + inFlight w.publisher +
      undelivered codec w.publisher + w.books.left .trimmed
  /-- No payload is delivered more often than it was accepted. -/
  delivered_once : (w.books.delivered : Multiset P) ≤ w.books.accepted
  /-- What is replayed is replayed in the order of the spill, each entry once. -/
  in_order : w.books.replayed.Sublist w.books.log
  /-- What has left the file is older in the spill than what is in it. -/
  log_eq : w.books.log = w.books.gone.map Prod.fst ++ pendingOf codec w.publisher
  /-- The replayed entries are those that were discarded, and the ones that the
  replay in progress is about to discard. -/
  replayed_eq : w.books.replayed =
    w.books.left .discarded ++ (pendingOf codec w.publisher).take (settled w.publisher)

/-- No line of the file makes `json.loads` raise anything but a decode error. -/
def Clean (codec : JsonCodec P) (store : DiskSpillStore) : Prop :=
  ∀ line ∈ linesOf store.file, ¬ Raises codec line

theorem Clean.scans {store : DiskSpillStore} (h : Clean codec store) (n : ℕ) :
    Scans codec n (linesOf store.file) := by
  intro front line back hsplit _
  exact h line (by rw [hsplit]; simp)

/-- In a replay, nothing has left the front of the file since the batch was read. -/
def Fresh (b : Books P) : Phase P → Prop
  | .replaying _ _ _ => b.base 0 = b.gone.length
  | .discarding _ => b.base 0 = b.gone.length
  | _ => True

/-- The invariant of the only worker. -/
structure Balanced (codec : JsonCodec P) (w : Audited P) (phase : Phase P) : Prop where
  tracked : Tracked codec w
  clean : ∀ store, w.publisher.spillStore = some store → Clean codec store
  workers : w.publisher.workers = [phase]
  alive : phase ≠ .dead
  fresh : Fresh w.books phase
  settled_le : phase.settled ≤ (pendingOf codec w.publisher).length
  conserved : (w.books.accepted : Multiset P) =
    w.books.delivered + w.publisher.queue + phase.held +
      (pendingOf codec w.publisher).drop phase.settled + w.books.left .trimmed
  replayed_eq : w.books.replayed =
    w.books.left .discarded ++ (pendingOf codec w.publisher).take phase.settled

theorem left_sublist (b : Books P) (fate : Fate) :
    (b.left fate).Sublist (b.gone.map Prod.fst) :=
  List.filter_sublist.map Prod.fst

theorem Balanced.accounted {phase : Phase P} (h : Balanced codec w phase) : Accounted codec w := by
  have hheld : inFlight w.publisher = phase.held := by
    unfold inFlight
    rw [h.workers]
    simp
  have hsettled : settled w.publisher = phase.settled := by
    unfold settled
    rw [h.workers]
    simp
  have hlog := h.tracked.kept.log_eq
  refine ⟨?_, ?_, ?_, hlog, ?_⟩
  · unfold undelivered
    rw [hheld, hsettled, h.conserved]
  · rw [h.conserved]
    simp only [add_assoc]
    exact Multiset.le_add_right _ _
  · rw [h.replayed_eq, hlog]
    exact (left_sublist w.books .discarded).append (List.take_sublist _ _)
  · rw [hsettled, h.replayed_eq]

/-! ## The calls of the worker -/

section calls

variable {phase : Phase P} {published : Published}

theorem worker_eq (h : Balanced codec w phase) {i : ℕ} {phase' : Phase P}
    (hphase : w.publisher.workers[i]? = some phase') : i = 0 ∧ phase' = phase := by
  rw [h.workers] at hphase
  cases i with
  | zero => exact ⟨rfl, (Option.some.inj hphase).symm⟩
  | succ i => simp at hphase

theorem first_worker (h : Balanced codec w phase) : w.publisher.workers[0]? = some phase := by
  rw [h.workers]
  rfl

/-- The state behind a call of the worker. -/
theorem audit_work (h : Balanced codec w phase) :
    ((audit codec).step w (.work 0 published .working)).1 =
      ⟨next codec w.publisher (.work 0 published .working),
        recordCall codec published .working 0 (pendingOf codec w.publisher)
          (pendingOf codec (next codec w.publisher (.work 0 published .working))) w.books phase⟩ := by
  rw [audit_step, record_work (first_worker h)]

theorem next_workers_single (h : Balanced codec w phase) :
    (next codec w.publisher (.work 0 published .working)).workers =
      [(work codec published .working w.publisher phase).2] := by
  rw [next_workers (first_worker h), h.workers]
  rfl

theorem next_queue (h : Balanced codec w phase) :
    (next codec w.publisher (.work 0 published .working)).queue =
      (work codec published .working w.publisher phase).1.queue := by
  rw [next_work (first_worker h)]

theorem undisturbed_of_balanced (h : Balanced codec w phase) :
    Undisturbed w (.work 0 published .working) := by
  have hfresh := h.fresh
  simp only [Undisturbed, first_worker h]
  cases phase with
  | failed payload => exact ⟨rfl, rfl⟩
  | discarding n => exact ⟨rfl, hfresh⟩
  | _ => trivial

/-- A call that leaves the file alone: the payloads move between the other places. -/
theorem Balanced.quiet (h : Balanced codec w phase) (hcodec : codec.Lawful)
    (hsame : (work codec published .working w.publisher phase).1.spillStore =
      w.publisher.spillStore) {b : Books P}
    (hbooks : recordCall codec published .working 0 (pendingOf codec w.publisher)
      (pendingOf codec (next codec w.publisher (.work 0 published .working))) w.books phase = b)
    (halive : (work codec published .working w.publisher phase).2 ≠ .dead)
    (hfresh : Fresh b (work codec published .working w.publisher phase).2)
    (hsettled : (work codec published .working w.publisher phase).2.settled ≤
      (pendingOf codec w.publisher).length)
    (hconserved : (b.accepted : Multiset P) =
      b.delivered + (work codec published .working w.publisher phase).1.queue +
        (work codec published .working w.publisher phase).2.held +
        (pendingOf codec w.publisher).drop
          (work codec published .working w.publisher phase).2.settled + b.left .trimmed)
    (hreplayed : b.replayed = b.left .discarded ++ (pendingOf codec w.publisher).take
      (work codec published .working w.publisher phase).2.settled) :
    ∃ phase', Balanced codec ((audit codec).step w (.work 0 published .working)).1 phase' := by
  have hspill : (next codec w.publisher (.work 0 published .working)).spillStore =
      w.publisher.spillStore := (next_spillStore (first_worker h)).trans hsame
  have hpending : pendingOf codec (next codec w.publisher (.work 0 published .working)) =
      pendingOf codec w.publisher := by
    unfold pendingOf
    rw [hspill]
  have hguard : Undisturbed w (.work 0 published .working) := undisturbed_of_balanced h
  have htracked := h.tracked.next hcodec.inverts _ hguard
  rw [audit_work h, hbooks] at htracked ⊢
  refine ⟨_, htracked, ?_, next_workers_single h, halive, hfresh, ?_, ?_, ?_⟩
  · intro store hstore
    exact h.clean store (hspill ▸ hstore)
  · rw [hpending]
    exact hsettled
  · change (b.accepted : Multiset P) = _
    rw [hpending, next_queue h]
    exact hconserved
  · rw [hpending]
    exact hreplayed

/-- A call that moves no payload: only the phase of the worker changes. -/
theorem Balanced.idle (h : Balanced codec w phase) (hcodec : codec.Lawful) {phase' : Phase P}
    (hwork : work codec published .working w.publisher phase = (w.publisher, phase'))
    (hbooks : recordCall codec published .working 0 (pendingOf codec w.publisher)
      (pendingOf codec (next codec w.publisher (.work 0 published .working))) w.books phase =
      w.books)
    (halive : phase' ≠ .dead) (hfresh : Fresh w.books phase')
    (hsettled : phase'.settled = phase.settled) (hheld : phase'.held = phase.held) :
    ∃ phase', Balanced codec ((audit codec).step w (.work 0 published .working)).1 phase' := by
  refine h.quiet hcodec ?_ hbooks ?_ ?_ ?_ ?_ ?_ <;> rw [hwork]
  · exact halive
  · exact hfresh
  · rw [hsettled]
    exact h.settled_le
  · rw [hsettled, hheld]
    exact h.conserved
  · rw [hsettled]
    exact h.replayed_eq

theorem coe_cons (a : P) (l : List P) : ((a :: l : List P) : Multiset P) = {a} + l := rfl

theorem coe_concat (l : List P) (a : P) : ((l ++ [a] : List P) : Multiset P) = l + {a} :=
  (Multiset.coe_add l [a]).symm

theorem balanced_waiting (hcodec : codec.Lawful) (h : Balanced codec w .waiting) :
    ∃ phase', Balanced codec ((audit codec).step w (.work 0 published .working)).1 phase' := by
  cases hqueue : w.publisher.queue with
  | nil =>
    have hwork : work codec published .working w.publisher .waiting = (w.publisher, .waiting) := by
      simp only [work, hqueue]
    exact h.idle hcodec hwork rfl (by simp) trivial rfl rfl
  | cons payload rest =>
    have hwork : work codec published .working w.publisher .waiting =
        ({ w.publisher with queue := rest }, .publishing payload) := by
      simp only [work, hqueue]
    have hconserved := h.conserved
    rw [hqueue, coe_cons] at hconserved
    refine h.quiet hcodec ?_ (b := w.books) rfl ?_ ?_ ?_ ?_ ?_ <;> rw [hwork]
    · simp
    · trivial
    · exact h.settled_le
    · rw [hconserved]
      simp only [Phase.held, Phase.settled, Multiset.coe_singleton, Multiset.coe_nil]
      abel
    · exact h.replayed_eq

theorem balanced_publishing (hcodec : codec.Lawful) {payload : P}
    (h : Balanced codec w (.publishing payload)) :
    ∃ phase', Balanced codec ((audit codec).step w (.work 0 published .working)).1 phase' := by
  cases hdelivered : published.delivered with
  | false =>
    have hwork : work codec published .working w.publisher (.publishing payload) =
        (w.publisher, .failed payload) := by
      simp [work, hdelivered]
    have hbooks : recordCall codec published .working 0 (pendingOf codec w.publisher)
        (pendingOf codec (next codec w.publisher (.work 0 published .working))) w.books
        (.publishing payload) = w.books := by
      simp [recordCall, hdelivered]
    exact h.idle hcodec hwork hbooks (by simp) trivial rfl rfl
  | true =>
    have hwork : work codec published .working w.publisher (.publishing payload) =
        (w.publisher, .checking) := by
      simp [work, hdelivered]
    have hbooks : recordCall codec published .working 0 (pendingOf codec w.publisher)
        (pendingOf codec (next codec w.publisher (.work 0 published .working))) w.books
        (.publishing payload) =
        { w.books with delivered := w.books.delivered ++ [payload] } := by
      simp [recordCall, hdelivered]
    refine h.quiet hcodec ?_ hbooks ?_ ?_ ?_ ?_ ?_ <;> rw [hwork]
    · simp
    · trivial
    · exact h.settled_le
    · change (w.books.accepted : Multiset P) =
        (↑(w.books.delivered ++ [payload]) : Multiset P) + ↑w.publisher.queue + ↑([] : List P) +
          ↑((pendingOf codec w.publisher).drop 0) + ↑(w.books.left .trimmed)
      rw [h.conserved, coe_concat]
      simp only [Phase.held, Phase.settled, Multiset.coe_singleton, Multiset.coe_nil]
      abel
    · exact h.replayed_eq

theorem balanced_checking (hcodec : codec.Lawful) (h : Balanced codec w .checking) :
    ∃ phase', Balanced codec ((audit codec).step w (.work 0 published .working)).1 phase' := by
  rcases em ((w.publisher.spillStore.any fun store => !store.isEmpty) = true) with hany | hany
  · have hwork : work codec published .working w.publisher .checking =
        (w.publisher, .peeking) := by
      simp only [work, if_pos hany]
    exact h.idle hcodec hwork rfl (by simp) trivial rfl rfl
  · have hwork : work codec published .working w.publisher .checking =
        (w.publisher, .waiting) := by
      simp only [work, if_neg hany]
    exact h.idle hcodec hwork rfl (by simp) trivial rfl rfl

theorem fresh_replay {b : Books P} (hbase : b.base 0 = b.gone.length) (batch : List P) (n : ℕ) :
    Fresh b (replay batch n) := by
  unfold replay endReplay
  split
  · split
    · exact hbase
    · trivial
  · exact hbase

theorem replay_settled (batch : List P) (n : ℕ) :
    (replay batch n).settled = n ∧ (replay batch n).held = [] := by
  unfold replay endReplay
  split
  · split
    · exact ⟨rfl, rfl⟩
    · next hn => exact ⟨(Nat.eq_zero_of_not_pos hn).symm, rfl⟩
  · exact ⟨rfl, rfl⟩

theorem balanced_peeking (hcodec : codec.Lawful) (h : Balanced codec w .peeking) :
    ∃ phase', Balanced codec ((audit codec).step w (.work 0 published .working)).1 phase' := by
  obtain ⟨store, hstore, -⟩ := h.tracked.store
  have hread : Readable codec .working spillDrainBatchSize store.file :=
    ⟨fun _ => by
      obtain ⟨store', hstore', hs⟩ := h.tracked.store
      obtain rfl : store = store' := Option.some.inj (hstore.symm.trans hstore')
      exact hs.terminated.isText, (h.clean store hstore).scans _⟩
  have hpos : 0 < spillDrainBatchSize := by decide
  obtain ⟨batch, hpeek⟩ : ∃ batch,
      peekBatch codec .working spillDrainBatchSize store = (.ok batch, store) :=
    ⟨_, peekBatch_of_readable hpos hread⟩
  have hwork : work codec published .working w.publisher .peeking =
      (w.publisher, replay batch 0) := by
    simp only [work, callStore, hstore, hpeek]
    rw [← hstore]
  obtain ⟨hzero, hheld⟩ := replay_settled batch 0
  refine h.quiet hcodec ?_ (b := { w.books with
    base := Function.update w.books.base 0 w.books.gone.length }) rfl ?_ ?_ ?_ ?_ ?_ <;> rw [hwork]
  · exact replay_ne_dead batch 0
  · refine fresh_replay ?_ batch 0
    exact Function.update_self (f := w.books.base) 0 w.books.gone.length
  · rw [hzero]
    exact h.settled_le
  · rw [hzero, hheld]
    exact h.conserved
  · rw [hzero]
    exact h.replayed_eq

theorem balanced_replaying (hcodec : codec.Lawful) {item : P} {rest : List P} {n : ℕ}
    (h : Balanced codec w (.replaying item rest n)) :
    ∃ phase', Balanced codec ((audit codec).step w (.work 0 published .working)).1 phase' := by
  cases hdelivered : published.delivered with
  | false =>
    have hwork : work codec published .working w.publisher (.replaying item rest n) =
        (w.publisher, replay [] n) := by
      simp [work, hdelivered, replay]
    have hbooks : recordCall codec published .working 0 (pendingOf codec w.publisher)
        (pendingOf codec (next codec w.publisher (.work 0 published .working))) w.books
        (.replaying item rest n) = w.books := by
      simp [recordCall, hdelivered]
    obtain ⟨hn, hheld⟩ := replay_settled ([] : List P) n
    exact h.idle hcodec hwork hbooks (replay_ne_dead [] n) (fresh_replay h.fresh [] n) hn hheld
  | true =>
    have hwork : work codec published .working w.publisher (.replaying item rest n) =
        (w.publisher, replay rest (n + 1)) := by
      simp [work, hdelivered]
    have hbooks : recordCall codec published .working 0 (pendingOf codec w.publisher)
        (pendingOf codec (next codec w.publisher (.work 0 published .working))) w.books
        (.replaying item rest n) =
        { w.books with
          delivered := w.books.delivered ++ [item]
          replayed := w.books.replayed ++ [item]
          confirmed := w.books.confirmed ++ [(w.books.base 0 + n, item)] } := by
      simp [recordCall, hdelivered]
    obtain ⟨hn, hheld⟩ := replay_settled rest (n + 1)
    -- the item is the entry of the file behind the delivered ones
    obtain ⟨tail, htail⟩ : ∃ tail, (pendingOf codec w.publisher).drop n = item :: tail := by
      obtain ⟨⟨tail, htail⟩, -⟩ := h.tracked.sees 0 _ (first_worker h)
      refine ⟨rest ++ tail, ?_⟩
      rw [← List.cons_append, htail, show w.books.base 0 = _ from h.fresh, ← List.drop_drop,
        log_drop_gone h.tracked.kept]
    have htake : (pendingOf codec w.publisher).take (n + 1) =
        (pendingOf codec w.publisher).take n ++ [item] := by
      rw [List.take_add, htail]
      rfl
    have hdrop : (pendingOf codec w.publisher).drop (n + 1) = tail := by
      rw [← List.drop_drop, htail]
      rfl
    have hlen : n + 1 ≤ (pendingOf codec w.publisher).length := by
      have hlength := congrArg List.length htail
      rw [List.length_drop, List.length_cons] at hlength
      omega
    refine h.quiet hcodec ?_ hbooks ?_ ?_ ?_ ?_ ?_ <;> rw [hwork]
    · exact replay_ne_dead rest (n + 1)
    · exact fresh_replay h.fresh rest (n + 1)
    · rw [hn]
      exact hlen
    · rw [hn, hheld, hdrop]
      change (w.books.accepted : Multiset P) =
        (↑(w.books.delivered ++ [item]) : Multiset P) + ↑w.publisher.queue + ↑([] : List P) +
          ↑tail + ↑(w.books.left .trimmed)
      rw [h.conserved, coe_concat]
      simp only [Phase.held, Phase.settled, htail, coe_cons, Multiset.coe_nil]
      abel
    · rw [hn, htake]
      change w.books.replayed ++ [item] = w.books.left .discarded ++ _
      rw [h.replayed_eq, List.append_assoc]
      rfl

/-- A call that replaces the file and ends the replay, if there was one. -/
theorem Balanced.stored (h : Balanced codec w phase) (hcodec : codec.Lawful)
    {store t : DiskSpillStore} (hstore : w.publisher.spillStore = some store)
    (hwork : work codec published .working w.publisher phase =
      ({ w.publisher with spillStore := some t }, .waiting))
    (hclean : Clean codec t) {b : Books P}
    (hbooks : recordCall codec published .working 0 (pending codec store) (pending codec t)
      w.books phase = b)
    (hconserved : (b.accepted : Multiset P) =
      b.delivered + w.publisher.queue + pending codec t + b.left .trimmed)
    (hreplayed : b.replayed = b.left .discarded) :
    ∃ phase', Balanced codec ((audit codec).step w (.work 0 published .working)).1 phase' := by
  have hspill : (next codec w.publisher (.work 0 published .working)).spillStore = some t := by
    rw [next_spillStore (first_worker h), hwork]
  have hguard : Undisturbed w (.work 0 published .working) := undisturbed_of_balanced h
  have htracked := h.tracked.next hcodec.inverts _ hguard
  rw [audit_work h, pendingOf_some hspill, pendingOf_some hstore, hbooks] at htracked ⊢
  refine ⟨.waiting, htracked, ?_, ?_, by simp, trivial, Nat.zero_le _, ?_, ?_⟩
  · intro store' hstore'
    obtain rfl : t = store' := Option.some.inj (hspill.symm.trans hstore')
    exact hclean
  · exact (next_workers_single h).trans (by rw [hwork])
  · change (b.accepted : Multiset P) = _
    rw [pendingOf_some hspill, next_queue h, hwork, hconserved]
    simp only [Phase.held, Phase.settled, List.drop_zero, Multiset.coe_nil, add_zero]
  · change b.replayed = _
    rw [hreplayed]
    exact (List.append_nil _).symm

theorem append_working (hcodec : codec.Lawful) {store : DiskSpillStore} (hs : Sound store)
    (hclean : Clean codec store) (payload : P) :
    ∃ t lost, append codec .working payload store = (.ok (), t) ∧ Clean codec t ∧
      written codec .working payload = [payload] ∧
      pending codec store ++ [payload] = lost ++ pending codec t := by
  obtain ⟨line, hline⟩ := hcodec payload
  have hdone : Disk.working.appends = .done := rfl
  obtain ⟨t, k, hstate, -, -, hfile, -, hends⟩ := hs.append hdone rfl hline
  obtain ⟨-, lost, hlost⟩ := append_pending hcodec.inverts hs
    (show Disk.working.reads = true from rfl) rfl payload
  have hwritten : written codec .working payload = [payload] := by
    simp only [written, Disk.working, hline.dumps]
  rw [hwritten, hstate] at hlost
  refine ⟨t, lost, Prod.ext (hends rfl).1 hstate, ?_, hwritten, hlost⟩
  intro l hl
  rw [hfile] at hl
  rcases List.mem_append.mp hl with hold | hnew
  · exact hclean l (List.mem_of_mem_drop hold)
  · obtain rfl := List.mem_singleton.mp hnew
    rintro ⟨e, he, -⟩
    rw [hline.stripped, hline.loads] at he
    simp at he

theorem balanced_failed (hcodec : codec.Lawful) {payload : P}
    (h : Balanced codec w (.failed payload)) :
    ∃ phase', Balanced codec ((audit codec).step w (.work 0 published .working)).1 phase' := by
  obtain ⟨store, hstore, hs⟩ := h.tracked.store
  obtain ⟨t, lost, happend, hclean, hwritten, hlost⟩ :=
    append_working hcodec hs (h.clean store hstore) payload
  have hwork : work codec published .working w.publisher (.failed payload) =
      ({ w.publisher with spillStore := some t }, .waiting) := by
    simp [work, callStore, hstore, happend]
  have hconserved := h.conserved
  have hreplayed := h.replayed_eq
  rw [pendingOf_some hstore] at hconserved hreplayed
  refine h.stored hcodec hstore hwork hclean rfl ?_ ?_ <;> rw [recordCall, hwritten, hlost]
  · have hmoved : (pending codec store : Multiset P) + {payload} = lost + pending codec t := by
      rw [← coe_concat, hlost, Multiset.coe_add]
    rw [Books.left_leave, if_pos rfl, ← Multiset.coe_add]
    change (w.books.accepted : Multiset P) = (w.books.delivered : Multiset P) +
      ↑w.publisher.queue + ↑(pending codec t) + (↑(w.books.left .trimmed) + ↑lost)
    rw [hconserved]
    simp only [Phase.held, Phase.settled, List.drop_zero, Multiset.coe_singleton]
    calc (w.books.delivered : Multiset P) + ↑w.publisher.queue + {payload} +
          ↑(pending codec store) + ↑(w.books.left .trimmed)
        = ↑w.books.delivered + ↑w.publisher.queue + (↑(pending codec store) + {payload}) +
          ↑(w.books.left .trimmed) := by abel
      _ = _ := by rw [hmoved]; abel
  · change w.books.replayed = _
    rw [Books.left_leave, if_neg (by decide), List.append_nil, hreplayed]
    exact List.append_nil _

theorem discardBatch_working {store : DiskSpillStore} (hs : Sound store)
    (hclean : Clean codec store) (n : ℕ) :
    ∃ t, discardBatch codec .working n store = (.ok (), t) ∧ Clean codec t ∧
      pending codec t = (pending codec store).drop n := by
  rcases n.eq_zero_or_pos with rfl | hn
  · exact ⟨store, discardBatch_of_nonpos le_rfl, hclean, rfl⟩
  · have hpos : (0 : ℤ) < n := by omega
    have hreads : Disk.working.reads = true := rfl
    obtain ⟨t, heq, -, hlines, hpending⟩ := (hs.discardBatch hreads hpos).2 (hclean.scans _) rfl
    exact ⟨t, heq, fun line hline => hclean line (hlines.subset hline), hpending⟩

theorem balanced_discarding (hcodec : codec.Lawful) {n : ℕ}
    (h : Balanced codec w (.discarding n)) :
    ∃ phase', Balanced codec ((audit codec).step w (.work 0 published .working)).1 phase' := by
  obtain ⟨store, hstore, hs⟩ := h.tracked.store
  obtain ⟨t, hdiscard, hclean, hpending⟩ := discardBatch_working hs (h.clean store hstore) n
  have hwork : work codec published .working w.publisher (.discarding n) =
      ({ w.publisher with spillStore := some t }, .waiting) := by
    simp only [work, callStore, hstore, hdiscard]
  have hsplit : pending codec store = (pending codec store).take n ++ pending codec t := by
    rw [hpending, List.take_append_drop]
  have hconserved := h.conserved
  have hreplayed := h.replayed_eq
  rw [pendingOf_some hstore] at hconserved hreplayed
  refine h.stored hcodec hstore hwork hclean rfl ?_ ?_ <;> rw [recordCall, hsplit]
  · rw [Books.left_leave, if_neg (by decide), List.append_nil, hpending]
    change (w.books.accepted : Multiset P) = _
    rw [hconserved]
    simp only [Phase.held, Phase.settled, Multiset.coe_nil, add_zero]
    rfl
  · rw [Books.left_leave, if_pos rfl]
    exact hreplayed

/-- Whatever the worker does next, and whatever comes of it. -/
theorem balanced_next (hcodec : codec.Lawful) (h : Balanced codec w phase) {e : Event P}
    (hworking : ∀ i published disk, e = .work i published disk → disk = .working) :
    ∃ phase', Balanced codec ((audit codec).step w e).1 phase' := by
  cases e with
  | submit payload =>
    have hsubmit : Undisturbed w (.submit payload) := trivial
    have htracked := h.tracked.next hcodec.inverts _ hsubmit
    rcases em (w.publisher.queue.length < w.publisher.maxQueueSize) with hroom | hfull
    · have hsub : submit payload w.publisher =
          (true, { w.publisher with queue := w.publisher.queue ++ [payload] }) := if_pos hroom
      simp only [audit_step, record, BackgroundPublisher.next, hsub, if_true] at htracked ⊢
      refine ⟨phase, htracked, h.clean, h.workers, h.alive, h.fresh, h.settled_le, ?_,
        h.replayed_eq⟩
      change ((w.books.accepted ++ [payload] : List P) : Multiset P) =
        ↑w.books.delivered + ↑(w.publisher.queue ++ [payload]) + ↑phase.held +
          ↑((pendingOf codec w.publisher).drop phase.settled) + ↑(w.books.left .trimmed)
      rw [coe_concat, coe_concat, h.conserved]
      abel
    · have hsub : submit payload w.publisher =
          (false, { w.publisher with dropped := w.publisher.dropped + 1 }) := if_neg hfull
      simp only [audit_step, record, BackgroundPublisher.next, hsub, Bool.false_eq_true,
        if_false] at htracked ⊢
      exact ⟨phase, htracked, h.clean, h.workers, h.alive, h.fresh, h.settled_le, h.conserved,
        h.replayed_eq⟩
  | work i published disk =>
    obtain rfl := hworking i published disk rfl
    cases hphase : w.publisher.workers[i]? with
    | none =>
      have hrecord : record codec w.publisher w.books (.work i published .working) = w.books := by
        simp only [record, hphase]
      rw [audit_step, next_work_of_none hphase, hrecord]
      exact ⟨phase, h⟩
    | some phase' =>
      obtain ⟨rfl, -⟩ := worker_eq h hphase
      cases phase with
      | waiting => exact balanced_waiting hcodec h
      | publishing payload => exact balanced_publishing hcodec h
      | failed payload => exact balanced_failed hcodec h
      | checking => exact balanced_checking hcodec h
      | peeking => exact balanced_peeking hcodec h
      | replaying item rest n => exact balanced_replaying hcodec h
      | discarding n => exact balanced_discarding hcodec h
      | dead => exact absurd rfl h.alive

end calls

/-- The file operations of the event succeed. -/
def Works (_ : Audited P) (e : Event P) : Prop :=
  ∀ i published disk, e = .work i published disk → disk = .working

/-- The accounts of a publisher with one worker and a spill store that starts
empty are in order at every point of every run. -/
theorem accounted_always (codec : JsonCodec P) (hcodec : codec.Lawful) (maxQueueSize : ℤ)
    {workerCount : ℤ} (hone : workerCount ≤ 1) {store : DiskSpillStore} (hs : Sound store)
    (hempty : linesOf store.file = []) (es : List (Event P))
    (hworks : (audit codec).Guarded Works (init codec maxQueueSize workerCount store) es) :
    (audit codec).Always (Accounted codec) (init codec maxQueueSize workerCount store) es := by
  have hpending : pending codec store = [] := by
    unfold pending
    rw [hempty]
    rfl
  have hworkers : (init codec maxQueueSize workerCount store).publisher.workers = [.waiting] := by
    have hcount : (max 1 workerCount).toNat = 1 := by omega
    change List.replicate (max 1 workerCount).toNat _ = _
    rw [hcount]
    rfl
  have hinit : ∃ phase, Balanced codec (init codec maxQueueSize workerCount store) phase := by
    refine ⟨.waiting, tracked_init codec maxQueueSize workerCount hs, ?_, hworkers, by simp, trivial,
      Nat.zero_le _, ?_, rfl⟩
    · intro store' hstore' line hline
      obtain rfl : store = store' := Option.some.inj hstore'
      rw [hempty] at hline
      exact absurd hline List.not_mem_nil
    · change (([] : List P) : Multiset P) = ↑([] : List P) + ↑([] : List P) + ↑([] : List P) +
        ↑((pending codec store).drop 0) + ↑([] : List P)
      rw [hpending]
      rfl
  have hall := Machine.always_of_guarded (audit codec)
    (fun w e (h : ∃ phase, Balanced codec w phase) hw => h.elim fun _ hb => balanced_next hcodec hb hw)
    hinit hworks
  rw [Machine.always_iff] at hall ⊢
  intro pre suf hsplit
  obtain ⟨phase, hbalanced⟩ := hall pre suf hsplit
  exact hbalanced.accounted

instance (w : Audited ℕ) : ∀ e, Decidable (Works w e)
  | .submit _ => isTrue fun _ _ _ heq => by simp at heq
  | .work i published disk => decidable_of_iff (disk = .working) (by
      refine ⟨fun hdisk j published' disk' heq => ?_, fun hworks => hworks i published disk rfl⟩
      obtain ⟨-, -, rfl⟩ := Event.work.inj heq
      exact hdisk)

theorem accounted_always_replayOne :
    (audit idCodec).Always (Accounted idCodec) (init idCodec 512 1 ⟨2000, 0, none, by decide⟩)
      (spillOne 1 ++ spillOne 2 ++ replayOne) :=
  accounted_always idCodec idCodec_lawful 512 le_rfl sound_missing rfl _ (by decide +kernel)

/-- In the middle of a replay the delivered entry still stands in the file:
counted with the whole file, it is there twice. -/
theorem replay_counts_twice :
    let w := (audit idCodec).exec (init idCodec 512 1 ⟨2000, 0, none, by decide⟩)
      (spillOne 1 ++ spillOne 2 ++ replayOne.take 6)
    (w.books.accepted : Multiset ℕ) ≠ w.books.delivered + w.publisher.queue +
      inFlight w.publisher + pendingOf idCodec w.publisher + w.books.left .trimmed := by
  decide +kernel

end Audited

end SmartIDS.Forwarding
