import SmartIDS.Forwarding.WorkerSurvival
import SmartIDS.Forwarding.SpillFifo
set_option autoImplicit false

/-!
# Forwarding: how far replay drains the spill store

After a live success a worker replays up to fifty valid entries and discards
what it has delivered, together with the corrupt lines in front.  A corrupt line
behind the last valid entry is never in front of anything: it is left in the
file, the counter counts it, and every later success reads it again.
-/

namespace SmartIDS.Forwarding

open SmartIDS.Foundation SmartIDS.Python

variable {P : Type} {codec : JsonCodec P}

namespace DiskSpillStore

/-! ## Where a discard cuts -/

/-- The line of the `n`-th valid entry. -/
theorem exists_cut {n : ℕ} {lines : List String} (hn : 0 < n)
    (h : n ≤ (valid codec lines).length) :
    ∃ front line back, lines = front ++ line :: back ∧ (entry codec line).isSome = true ∧
      (valid codec front).length + 1 = n := by
  induction lines generalizing n with
  | nil => exact absurd h (by simp [valid]; omega)
  | cons line rest ih =>
    rw [valid_cons, List.length_append] at h
    rcases em ((entry codec line).isSome = true ∧ n = 1) with ⟨hentry, rfl⟩ | hlater
    · exact ⟨[], line, rest, rfl, hentry, rfl⟩
    · have hrest : 0 < n - (entry codec line).toList.length ∧
          n - (entry codec line).toList.length ≤ (valid codec rest).length := by
        cases hentry : entry codec line with
        | none =>
          rw [hentry] at h
          simp only [Option.toList_none, List.length_nil] at h ⊢
          omega
        | some payload =>
          have hne : n ≠ 1 := fun heq => hlater ⟨by rw [hentry]; rfl, heq⟩
          rw [hentry] at h
          simp only [Option.toList_some, List.length_singleton] at h ⊢
          omega
      obtain ⟨front, cut, back, rfl, hcut, hlen⟩ := ih hrest.1 hrest.2
      refine ⟨line :: front, cut, back, rfl, hcut, ?_⟩
      rw [valid_cons, List.length_append]
      omega

/-- A scan for more entries than stand in front of a line reads that line. -/
theorem Scans.parses_cut {n : ℕ} {front back : List String} {line : String}
    (h : Scans codec n (front ++ line :: back)) (hlt : (valid codec front).length < n) :
    ∀ l ∈ front ++ [line], ¬ Raises codec l := by
  intro l hl
  rcases List.mem_append.mp hl with hfront | hline
  · obtain ⟨before, after, rfl⟩ := List.append_of_mem hfront
    rw [valid_append, List.length_append] at hlt
    exact h before l (after ++ line :: back) (by simp) (by omega)
  · obtain rfl := List.mem_singleton.mp hline
    exact h front l back rfl hlt

/-- The loop of `discard_batch` stops behind that line. -/
theorem cutLoop_cut {count : ℕ} {front : List String} {line : String} (back : List String)
    (hblank : ∀ l ∈ front ++ [line], strip l ≠ "")
    (hparses : ∀ l ∈ front ++ [line], ¬ Raises codec l)
    (hentry : (entry codec line).isSome = true) (index : ℕ) {validSeen : ℕ}
    (hcount : validSeen + (valid codec front).length + 1 = count) :
    cutLoop codec count (front ++ line :: back) index validSeen =
      .ok (index + front.length + 1) := by
  induction front generalizing index validSeen with
  | nil =>
    obtain ⟨payload, hpayload⟩ := Option.isSome_iff_exists.mp hentry
    rw [List.nil_append, cutLoop, decodeLine_of_not_raises (hblank line (by simp))
      (hparses line (by simp)), hpayload]
    have hlast : count ≤ validSeen + 1 := by simp [valid] at hcount; omega
    exact if_pos hlast
  | cons l front ih =>
    obtain ⟨hl, hblank⟩ := List.forall_mem_cons.mp hblank
    obtain ⟨hlparses, hparses⟩ := List.forall_mem_cons.mp hparses
    rw [valid_cons, List.length_append] at hcount
    have hlen : index + (l :: front).length + 1 = index + 1 + front.length + 1 := by
      rw [List.length_cons]
      omega
    rw [List.cons_append, cutLoop, decodeLine_of_not_raises hl hlparses, hlen]
    cases hdecoded : entry codec l with
    | none =>
      rw [hdecoded, Option.toList_none, List.length_nil, Nat.zero_add] at hcount
      exact ih hblank hparses (index + 1) hcount
    | some payload =>
      rw [hdecoded, Option.toList_some, List.length_singleton] at hcount
      have hmore : ¬ count ≤ validSeen + 1 := by omega
      exact (if_neg hmore).trans (ih hblank hparses (index + 1) (by omega))

/-- Discarding the first entries leaves the lines behind the last of them. -/
theorem Sound.discardBatch_cut {s : DiskSpillStore} (h : Sound s) {front back : List String}
    {line : String} (hlines : linesOf s.file = front ++ line :: back)
    (hparses : ∀ l ∈ front ++ [line], ¬ Raises codec l)
    (hentry : (entry codec line).isSome = true) :
    ∃ t, DiskSpillStore.discardBatch codec .working ((valid codec front).length + 1 : ℕ) s =
        (.ok (), t) ∧ Sound t ∧ linesOf t.file = back := by
  have hline : ∀ l ∈ front ++ line :: back, IsLine l :=
    fun l hl => isLine_of_mem_linesOf (hlines ▸ hl)
  have hblank : ∀ l ∈ front ++ [line], strip l ≠ "" := by
    intro l hl
    refine (hline l ?_).nonblank
    rw [← List.singleton_append, ← List.append_assoc]
    exact List.mem_append_left back hl
  have hcount : 0 + (valid codec front).length + 1 = (valid codec front).length + 1 := by omega
  have hcut := cutLoop_cut back hblank hparses hentry 0 hcount
  have hdrop : (front ++ line :: back).drop (0 + front.length + 1) = back := by
    rw [Nat.zero_add, ← List.drop_drop, List.drop_left]
    rfl
  obtain ⟨t, hrewrite, ht, -, hfile⟩ := rewrite_of_rewrites (s := s)
    (show Disk.working.rewrites = true from rfl)
    (fun l hl => hline l (List.mem_append_right front (List.mem_cons_of_mem line hl)))
  refine ⟨t, ?_, ht, hfile⟩
  unfold DiskSpillStore.discardBatch
  rw [if_neg (by omega), Effect.bind_of_ok (Effect.get_apply s), Effect.bind_apply]
  simp only [Effect.ofExcept_apply, readLinesLocked_of_legible (h.legible .working), seen_working]
  rw [Effect.bind_apply]
  simp only [Effect.ofExcept_apply, hlines, Int.toNat_natCast, hcut, hdrop]
  exact (writeLinesLocked_modify back).trans hrewrite

/-- `json.loads` can be applied to every line, and the last line is valid. -/
structure Drainable (codec : JsonCodec P) (lines : List String) : Prop where
  parses : ∀ line ∈ lines, ¬ Raises codec line
  ends : ∀ line, lines.getLast? = some line → (entry codec line).isSome = true

theorem Drainable.of_suffix {lines rest : List String} (h : Drainable codec lines)
    (hsuffix : rest <:+ lines) : Drainable codec rest where
  parses line hmem := h.parses line (hsuffix.subset hmem)
  ends line hlast := by
    obtain ⟨front, rfl⟩ := hsuffix
    refine h.ends line ?_
    rw [List.getLast?_append, hlast]
    rfl

/-- Where a line is left, an entry is left. -/
theorem Drainable.exists_valid {lines : List String} (h : Drainable codec lines)
    (hne : lines ≠ []) : 0 < (valid codec lines).length := by
  have hmem := List.getLast_mem hne
  obtain ⟨payload, hpayload⟩ :=
    Option.isSome_iff_exists.mp (h.ends _ (List.getLast?_eq_some_getLast hne))
  exact List.length_pos_of_mem (List.mem_filterMap.mpr ⟨_, hmem, hpayload⟩)

/-- Where an entry is left, a batch is not empty. -/
theorem length_batch_pos {s : DiskSpillStore} (h : 0 < (pending codec s).length) :
    0 < ((pending codec s).take spillDrainBatchSize.toNat).length := by
  have hsize : 0 < spillDrainBatchSize.toNat := by decide
  rw [List.length_take]
  omega

/-- Lines behind a valid entry decide the lines as a whole. -/
theorem Drainable.of_cut {front back : List String} {line : String}
    (h : Drainable codec back) (hparses : ∀ l ∈ front ++ [line], ¬ Raises codec l)
    (hentry : (entry codec line).isSome = true) : Drainable codec (front ++ line :: back) where
  parses l hmem := by
    rw [← List.singleton_append, ← List.append_assoc] at hmem
    exact (List.mem_append.mp hmem).elim (hparses l) (h.parses l)
  ends l hlast := by
    rw [List.getLast?_append, List.getLast?_cons] at hlast
    cases hback : back.getLast? with
    | none =>
      rw [hback] at hlast
      obtain rfl : line = l := Option.some.inj hlast
      exact hentry
    | some last =>
      rw [hback] at hlast
      obtain rfl : last = l := Option.some.inj hlast
      exact h.ends last hback

end DiskSpillStore

/-- The worker's call is the `publish` of a payload from the queue. -/
def Phase.publishes : Phase P → ℕ
  | .publishing _ => 1
  | _ => 0

/-- Between a live success and the end of the replay it starts. -/
def Phase.succeeded : Phase P → Bool
  | .checking => true
  | phase => phase.inReplay

/-- What the phases are as long as every `publish` succeeds. -/
def Phase.Sane : Phase P → Prop
  | .failed _ => False
  | .discarding n => 0 < n
  | .dead => False
  | _ => True

namespace BackgroundPublisher

open DiskSpillStore

/-! ## Live successes -/

/-- Every call of `publish` succeeds, on a disk that works. -/
def Event.Succeeds : Event P → Prop
  | .submit _ => True
  | .work _ published disk => published.delivered = true ∧ disk = .working

/-- The event is a worker's `publish` of a payload from the queue. -/
def liveSuccess (s : BackgroundPublisher P) : Event P → ℕ
  | .submit _ => 0
  | .work i _ _ => (s.workers[i]?.map Phase.publishes).getD 0

/-- The live successes of a run in which every `publish` succeeds. -/
def liveSuccesses (codec : JsonCodec P) : BackgroundPublisher P → List (Event P) → ℕ
  | _, [] => 0
  | s, e :: es => liveSuccess s e + liveSuccesses codec (next codec s e) es

theorem liveSuccesses_append (s : BackgroundPublisher P) (es fs : List (Event P)) :
    liveSuccesses codec s (es ++ fs) =
      liveSuccesses codec s es + liveSuccesses codec ((events codec).exec s es) fs := by
  induction es generalizing s with
  | nil => exact (Nat.zero_add _).symm
  | cons e es ih => simp only [List.cons_append, liveSuccesses, ih, Machine.exec_cons, events_step,
      Nat.add_assoc]

/-- All workers wait for the next payload. -/
def Idle (s : BackgroundPublisher P) : Prop := ∀ phase ∈ s.workers, phase = .waiting

/-- `is_empty` is true and the file has no line. -/
def Drained (s : BackgroundPublisher P) : Prop :=
  ∀ store, s.spillStore = some store → store.isEmpty = true ∧ linesOf store.file = []

/-- However the workers are interleaved, none of them ends, and after enough live
successes and the replays they start the store is empty. -/
def Drains (codec : JsonCodec P) (s : BackgroundPublisher P) : Prop :=
  ∃ enough, ∀ es : List (Event P), (∀ e ∈ es, e.Succeeds) →
    Alive ((events codec).exec s es) ∧
      (enough ≤ liveSuccesses codec s es → Idle ((events codec).exec s es) →
        Drained ((events codec).exec s es))

/-! ## Every success makes progress -/

/-- The store has lost an entry for every live success but those whose replay is
not over; or it is empty. -/
structure Draining (codec : JsonCodec P) (total : ℕ) (s : BackgroundPublisher P)
    (store : DiskSpillStore) (successes : ℕ) : Prop where
  store_eq : s.spillStore = some store
  sound : Sound store
  drainable : Drainable codec (linesOf store.file)
  sane : ∀ phase ∈ s.workers, Phase.Sane phase
  progress : linesOf store.file ≠ [] →
    successes + (pending codec store).length ≤ total + s.workers.countP Phase.succeeded

variable {total successes : ℕ} {s t : BackgroundPublisher P} {store store' : DiskSpillStore}

/-- The one way a worker's call keeps the account: what the call adds to the
successes or the entries, it takes from the replays that are not over. -/
theorem Draining.moved (h : Draining codec total s store successes) {i : ℕ} {phase : Phase P}
    (hi : s.workers[i]? = some phase) {phase' : Phase P} {successes' : ℕ}
    (hworkers : t.workers = s.workers.set i phase') (hstore : t.spillStore = some store')
    (hsound : Sound store') (hsuffix : linesOf store'.file <:+ linesOf store.file)
    (hsane : phase'.Sane)
    (hprogress : linesOf store.file ≠ [] → linesOf store'.file ≠ [] →
      successes' + (pending codec store').length + (if phase.succeeded then 1 else 0) ≤
        successes + (pending codec store).length + (if phase'.succeeded then 1 else 0)) :
    Draining codec total t store' successes' := by
  obtain ⟨hlt, hget⟩ := List.getElem?_eq_some_iff.mp hi
  refine ⟨hstore, hsound, h.drainable.of_suffix hsuffix, ?_, fun hne' => ?_⟩
  · intro p hp
    rw [hworkers] at hp
    rcases List.mem_or_eq_of_mem_set hp with hp | rfl
    · exact h.sane p hp
    · exact hsane
  · have hne : linesOf store.file ≠ [] := by
      intro hnil
      rw [hnil, List.suffix_nil] at hsuffix
      exact hne' hsuffix
    have hstep := hprogress hne hne'
    have hold := h.progress hne
    have hcount : phase.succeeded = true → 0 < s.workers.countP Phase.succeeded := fun hp =>
      List.countP_pos_iff.mpr ⟨phase, List.mem_of_getElem? hi, hp⟩
    rw [hworkers, List.countP_set hlt, hget]
    cases hp : phase.succeeded with
    | false =>
      rw [hp] at hstep
      simp only [Bool.false_eq_true, if_false] at hstep ⊢
      omega
    | true =>
      have hpos := hcount hp
      rw [hp] at hstep
      simp only [if_true] at hstep ⊢
      omega

/-- A call that leaves the store as it is. -/
theorem Draining.kept (h : Draining codec total s store successes) {i : ℕ} {phase : Phase P}
    (hi : s.workers[i]? = some phase) {phase' : Phase P} {n : ℕ}
    (hworkers : t.workers = s.workers.set i phase') (hstore : t.spillStore = some store)
    (hsane : phase'.Sane)
    (hprogress : linesOf store.file ≠ [] → n + (if phase.succeeded then 1 else 0) ≤
      (if phase'.succeeded then 1 else 0)) :
    Draining codec total t store (successes + n) :=
  h.moved hi hworkers hstore h.sound List.suffix_rfl hsane fun hne _ => by
    have hmore := hprogress hne
    omega

theorem liveSuccess_work {i : ℕ} {phase : Phase P} (hi : s.workers[i]? = some phase)
    (published : Published) (disk : Disk) :
    liveSuccess s (.work i published disk) = phase.publishes := by
  simp only [liveSuccess, hi, Option.map_some, Option.getD_some]

theorem sane_replay {batch : List P} {n : ℕ} (h : batch ≠ [] ∨ 0 < n) :
    (replay batch n).Sane ∧ (replay batch n).succeeded = true := by
  cases batch with
  | nil =>
    have hn : 0 < n := h.resolve_left fun hne => hne rfl
    unfold replay endReplay
    rw [if_pos hn]
    exact ⟨hn, rfl⟩
  | cons item rest => exact ⟨trivial, rfl⟩

/-- A worker's call.  The store changes at a discard only: there it loses an entry,
or has been emptied by another worker. -/
theorem Draining.work (h : Draining codec total s store successes) {i : ℕ} {phase : Phase P}
    (hi : s.workers[i]? = some phase) {published : Published}
    (hpublished : published.delivered = true) :
    ∃ store', Draining codec total (next codec s (.work i published .working)) store'
      (successes + liveSuccess s (.work i published .working)) := by
  have hworkers : (next codec s (.work i published .working)).workers =
      s.workers.set i (BackgroundPublisher.work codec published .working s phase).2 :=
    next_workers hi
  have hstore : (next codec s (.work i published .working)).spillStore =
      (BackgroundPublisher.work codec published .working s phase).1.spillStore :=
    next_spillStore hi
  have hsane := h.sane phase (List.mem_of_getElem? hi)
  rw [liveSuccess_work hi]
  cases phase with
  | waiting =>
    cases hqueue : s.queue with
    | nil =>
      simp only [BackgroundPublisher.work, hqueue] at hworkers hstore
      exact ⟨store, h.kept hi hworkers (hstore.trans h.store_eq) trivial fun _ => le_rfl⟩
    | cons payload rest =>
      simp only [BackgroundPublisher.work, hqueue] at hworkers hstore
      exact ⟨store, h.kept hi hworkers (hstore.trans h.store_eq) trivial fun _ => le_rfl⟩
  | publishing payload =>
    simp only [BackgroundPublisher.work, hpublished, if_true] at hworkers hstore
    exact ⟨store, h.kept hi hworkers (hstore.trans h.store_eq) trivial fun _ => le_rfl⟩
  | failed payload => exact hsane.elim
  | checking =>
    simp only [BackgroundPublisher.work, h.store_eq, Option.any_some] at hworkers hstore
    cases hempty : store.isEmpty with
    | true =>
      have hnil := h.sound.isEmpty_iff.mp hempty
      simp only [hempty, Bool.not_true, Bool.false_eq_true, if_false] at hworkers
      exact ⟨store, h.kept hi hworkers hstore trivial fun hne => absurd hnil hne⟩
    | false =>
      simp only [hempty, Bool.not_false, if_true] at hworkers
      exact ⟨store, h.kept hi hworkers hstore trivial fun _ => le_rfl⟩
  | peeking =>
    have hpeek := peekBatch_working h.sound.terminated.isText
      (show 0 < spillDrainBatchSize by decide) (scans_of_not_raises h.drainable.parses _)
    simp only [BackgroundPublisher.work, callStore, h.store_eq, hpeek] at hworkers hstore
    rcases em (linesOf store.file = []) with hnil | hne
    · rw [pending, hnil] at hworkers
      exact ⟨store, h.kept hi hworkers hstore trivial fun hne => absurd hnil hne⟩
    · have hbatch := length_batch_pos (h.drainable.exists_valid hne)
      obtain ⟨hsane', hsucceeded⟩ := sane_replay (n := 0) (Or.inl (List.ne_nil_of_length_pos hbatch))
      exact ⟨store, h.kept hi hworkers hstore hsane' fun _ => by rw [hsucceeded]; exact le_rfl⟩
  | replaying item rest n =>
    simp only [BackgroundPublisher.work, hpublished, if_true] at hworkers hstore
    obtain ⟨hsane', hsucceeded⟩ :=
      sane_replay (show rest ≠ [] ∨ 0 < n + 1 from Or.inr n.succ_pos)
    exact ⟨store, h.kept hi hworkers (hstore.trans h.store_eq) hsane'
      fun _ => by rw [hsucceeded]; exact le_rfl⟩
  | discarding n =>
    have hn : 0 < n := hsane
    obtain ⟨store', hdiscard, hsound, hsuffix, hpending⟩ :=
      (h.sound.discardBatch (show Disk.working.reads = true from rfl) (by exact_mod_cast hn)).2
        (scans_of_not_raises h.drainable.parses (n : ℤ).toNat) rfl
    simp only [BackgroundPublisher.work, callStore, h.store_eq, hdiscard] at hworkers hstore
    refine ⟨store', h.moved hi hworkers hstore hsound hsuffix trivial fun hne _ => ?_⟩
    have hpos : 0 < (pending codec store).length := h.drainable.exists_valid hne
    rw [hpending, List.length_drop]
    simp [Phase.publishes, Phase.succeeded, Phase.inReplay]
    omega
  | dead => exact hsane.elim

theorem Draining.next (h : Draining codec total s store successes) {e : Event P}
    (he : e.Succeeds) :
    ∃ store', Draining codec total (BackgroundPublisher.next codec s e) store'
      (successes + liveSuccess s e) := by
  cases e with
  | submit payload =>
    refine ⟨store, ?_⟩
    change Draining codec total (s.submit payload).2 store successes
    unfold submit
    split
    · exact ⟨h.store_eq, h.sound, h.drainable, h.sane, h.progress⟩
    · exact ⟨h.store_eq, h.sound, h.drainable, h.sane, h.progress⟩
  | work i published disk =>
    obtain ⟨hpublished, rfl⟩ := he
    cases hi : s.workers[i]? with
    | none =>
      refine ⟨store, ?_⟩
      rw [next_work_of_none hi]
      simp only [liveSuccess, hi]
      exact h
    | some phase => exact h.work hi hpublished

theorem Draining.run (h : Draining codec total s store successes) {es : List (Event P)}
    (hes : ∀ e ∈ es, e.Succeeds) :
    ∃ store', Draining codec total ((events codec).exec s es) store'
      (successes + liveSuccesses codec s es) := by
  induction es generalizing s store successes with
  | nil => exact ⟨store, h⟩
  | cons e es ih =>
    obtain ⟨he, hes⟩ := List.forall_mem_cons.mp hes
    obtain ⟨store', hnext⟩ := h.next he
    rw [liveSuccesses, ← Nat.add_assoc]
    exact ih hnext hes

/-- Where the last line is valid and no line raises, the store is drained: each live
success costs it an entry. -/
theorem Draining.drains (h : Draining codec (pending codec store).length s store 0) :
    Drains codec s := by
  refine ⟨(pending codec store).length, fun es hes => ?_⟩
  obtain ⟨store', hrun⟩ := h.run hes
  refine ⟨fun phase hmem hdead => ?_, fun henough hidle => ?_⟩
  · have hsane := hrun.sane phase hmem
    rw [hdead] at hsane
    exact hsane
  · have hnil : linesOf store'.file = [] := by
      refine not_not.mp fun hne => ?_
      have hleft := hrun.drainable.exists_valid hne
      have hprogress := hrun.progress hne
      have hcount : ((events codec).exec s es).workers.countP Phase.succeeded = 0 :=
        List.countP_eq_zero.mpr fun phase hmem => by rw [hidle phase hmem]; simp [Phase.succeeded, Phase.inReplay]
      have hpending : pending codec store' = valid codec (linesOf store'.file) := rfl
      rw [hcount, hpending] at hprogress
      omega
    intro final hfinal
    obtain rfl : store' = final := Option.some.inj (hrun.store_eq.symm.trans hfinal)
    exact ⟨hrun.sound.isEmpty_iff.mpr hnil, hnil⟩

/-! ## One worker at a time -/

theorem Drains.exec (h : Drains codec s) {es : List (Event P)} (hes : ∀ e ∈ es, e.Succeeds) :
    Drains codec ((events codec).exec s es) := by
  obtain ⟨enough, henough⟩ := h
  refine ⟨enough, fun fs hfs => ?_⟩
  have hall := henough (es ++ fs) (List.forall_mem_append.mpr ⟨hes, hfs⟩)
  rw [Machine.exec_append, liveSuccesses_append] at hall
  exact ⟨hall.1, fun hle => hall.2 (by omega)⟩

/-- A run that ends where it begins can be repeated. -/
theorem exec_repeated {es : List (Event P)} (h : (events codec).exec s es = s) (n : ℕ) :
    (events codec).exec s (List.replicate n es).flatten = s ∧
      liveSuccesses codec s (List.replicate n es).flatten = n * liveSuccesses codec s es := by
  induction n with
  | zero => exact ⟨rfl, by simp [liveSuccesses]⟩
  | succ n ih =>
    rw [List.replicate_succ, List.flatten_cons, Machine.exec_append, liveSuccesses_append, h,
      ih.1, ih.2]
    exact ⟨rfl, by rw [Nat.succ_mul, Nat.add_comm]⟩

/-- Nothing is queued and no worker is busy. -/
structure Quiet (s : BackgroundPublisher P) (store : DiskSpillStore) : Prop where
  store_eq : s.spillStore = some store
  sound : Sound store
  queue_eq : s.queue = []
  room : 0 < s.maxQueueSize
  idle : Idle s
  staffed : 0 < s.workers.length

/-- The publisher with its first worker in another phase. -/
def withFirst (s : BackgroundPublisher P) (phase : Phase P) : BackgroundPublisher P :=
  { s with workers := s.workers.set 0 phase }

/-- The next call of the first worker; where it is a `publish`, it succeeds. -/
def turn : Event P := .work 0 (.returned true) .working

theorem succeeds_turn : (turn : Event P).Succeeds := ⟨rfl, rfl⟩

theorem Quiet.withFirst_waiting (h : Quiet s store) : s.withFirst .waiting = s := by
  have hfirst : s.workers.get ⟨0, h.staffed⟩ = .waiting := h.idle _ (List.getElem_mem _)
  have hset : s.workers.set 0 .waiting = s.workers := by
    rw [← hfirst]
    exact List.set_getElem_self h.staffed
  unfold withFirst
  rw [hset]

theorem Quiet.first (h : Quiet s store) (phase : Phase P) :
    (s.withFirst phase).workers[0]? = some phase :=
  List.getElem?_set_self h.staffed

/-- A turn of the first worker, where it is in a call that leaves the queue alone. -/
theorem Quiet.next_turn (h : Quiet s store) {phase phase' : Phase P}
    (hwork : work codec (.returned true) .working (s.withFirst phase) phase =
      (s.withFirst phase, phase')) :
    next codec (s.withFirst phase) turn = s.withFirst phase' := by
  rw [turn, next_work (h.first phase), hwork]
  unfold withFirst
  rw [List.set_set]

/-- A submitted payload is published, and the worker looks into the store. -/
theorem Quiet.exec_success (h : Quiet s store) (hne : store.isEmpty = false) (payload : P) :
    (events codec).exec s [.submit payload, turn, turn, turn] = s.withFirst .peeking ∧
      liveSuccesses codec s [.submit payload, turn, turn, turn] = 1 := by
  have hsubmit : next codec s (.submit payload) = { s with queue := [payload] } := by
    change (s.submit payload).2 = _
    have hroom : s.queue.length < s.maxQueueSize := by
      rw [h.queue_eq]
      exact h.room
    unfold submit
    rw [if_pos hroom, h.queue_eq]
    rfl
  have hfirst : s.workers[0]? = some .waiting := by
    rw [← h.withFirst_waiting]
    exact h.first .waiting
  have htake : next codec { s with queue := [payload] } turn =
      s.withFirst (.publishing payload) := by
    rw [turn, next_work (show ({ s with queue := [payload] } : BackgroundPublisher P).workers[0]? =
      some .waiting from hfirst)]
    simp only [work]
    unfold withFirst
    rw [← h.queue_eq]
  have hpublish : next codec (s.withFirst (.publishing payload)) turn = s.withFirst .checking :=
    h.next_turn rfl
  have hcheck : next codec (s.withFirst .checking) turn = s.withFirst .peeking := by
    refine h.next_turn ?_
    have hstore : (s.withFirst .checking).spillStore = some store := h.store_eq
    simp only [work, hstore, Option.any_some, hne, Bool.not_false, if_true]
  constructor
  · simp only [Machine.exec_cons, Machine.exec_nil, events_step, hsubmit, htake, hpublish, hcheck]
  · have hwaiting : liveSuccess { s with queue := [payload] } turn = 0 :=
      liveSuccess_work (s := { s with queue := [payload] }) hfirst (.returned true) .working
    have hpublishing : liveSuccess (s.withFirst (.publishing payload)) turn = 1 :=
      liveSuccess_work (h.first (.publishing payload)) (.returned true) .working
    have hchecking : liveSuccess (s.withFirst .checking) turn = 0 :=
      liveSuccess_work (h.first .checking) (.returned true) .working
    simp only [liveSuccesses, hsubmit, htake, hpublish, hwaiting, hpublishing, hchecking]
    rfl

/-- The items of a batch are delivered one after the other. -/
theorem Quiet.exec_replay (h : Quiet s store) (batch : List P) (n : ℕ) :
    (events codec).exec (s.withFirst (replay batch n)) (List.replicate batch.length turn) =
      s.withFirst (endReplay (n + batch.length)) := by
  induction batch generalizing n with
  | nil => rfl
  | cons item rest ih =>
    have hturn : next codec (s.withFirst (replay (item :: rest) n)) turn =
        s.withFirst (replay rest (n + 1)) := h.next_turn rfl
    have hlen : n + (rest.length + 1) = n + 1 + rest.length := by omega
    rw [List.length_cons, List.replicate_succ, Machine.exec_cons, events_step, hturn, hlen]
    exact ih (n + 1)

theorem succeeds_of_turns (payload : P) (n : ℕ) :
    ∀ e ∈ [.submit payload, turn, turn, turn] ++ List.replicate n turn, e.Succeeds := by
  intro e he
  simp only [List.mem_append, List.mem_cons, List.not_mem_nil, or_false, List.mem_replicate] at he
  rcases he with (rfl | rfl | rfl | rfl) | ⟨-, rfl⟩
  · trivial
  all_goals exact succeeds_turn

section sequential

variable (h : Quiet s store)

include h

theorem Quiet.isEmpty_eq_false (hne : linesOf store.file ≠ []) : store.isEmpty = false := by
  rw [← Bool.not_eq_true]
  exact mt h.sound.isEmpty_iff.mp hne

/-- The batch that is read where the lines in front of it can be read. -/
theorem Quiet.next_peeking (hscans : Scans codec spillDrainBatchSize.toNat (linesOf store.file)) :
    next codec (s.withFirst .peeking) turn =
      s.withFirst (replay ((pending codec store).take spillDrainBatchSize.toNat) 0) := by
  have hpeek := peekBatch_working h.sound.terminated.isText
    (show 0 < spillDrainBatchSize by decide) hscans
  refine h.next_turn ?_
  have hstore : (s.withFirst .peeking).spillStore = some store := h.store_eq
  simp only [work, callStore, hstore, hpeek]
  unfold withFirst pending
  rw [← h.store_eq]

variable [Inhabited P]

/-- A line that makes `json.loads` raise ends the worker. -/
theorem Quiet.scans_of_drains (hdrains : Drains codec s) (hne : linesOf store.file ≠ []) :
    Scans codec spillDrainBatchSize.toNat (linesOf store.file) := by
  by_contra hscans
  have hunreadable := mt (readable_working_iff h.sound.terminated.isText
    spillDrainBatchSize).mp hscans
  obtain ⟨e, he⟩ := peekBatch_of_not_readable (s := store) (by decide) hunreadable
  have hdead : next codec (s.withFirst .peeking) turn = s.withFirst .dead := by
    refine h.next_turn ?_
    have hstore : (s.withFirst .peeking).spillStore = some store := h.store_eq
    simp only [work, callStore, hstore, he]
    unfold withFirst
    rw [← h.store_eq]
  obtain ⟨enough, henough⟩ := hdrains
  have halive := (henough _ (succeeds_of_turns default 1)).1
  rw [Machine.exec_append, (h.exec_success (h.isEmpty_eq_false hne) default).1] at halive
  change Alive (next codec (s.withFirst .peeking) turn) at halive
  rw [hdead] at halive
  exact halive .dead (List.mem_of_getElem? (h.first .dead)) rfl

/-- Where no entry is left, a live success changes nothing. -/
theorem Quiet.pending_ne_nil (hdrains : Drains codec s) (hne : linesOf store.file ≠ []) :
    pending codec store ≠ [] := by
  intro hpending
  have hscans := h.scans_of_drains hdrains hne
  obtain ⟨hexec, hcount⟩ :
      (events codec).exec s [.submit default, turn, turn, turn] = s.withFirst .peeking ∧
        liveSuccesses codec s [.submit default, turn, turn, turn] = 1 :=
    h.exec_success (h.isEmpty_eq_false hne) default
  have hloop : (events codec).exec s
      ([.submit default, turn, turn, turn] ++ List.replicate 1 turn) = s := by
    rw [Machine.exec_append, hexec]
    change next codec (s.withFirst .peeking) turn = s
    rw [h.next_peeking hscans, hpending, List.take_nil]
    exact h.withFirst_waiting
  obtain ⟨enough, henough⟩ := hdrains
  obtain ⟨hback, htotal⟩ := exec_repeated hloop enough
  have hdrained := (henough (List.replicate enough _).flatten (by
    intro e he
    obtain ⟨es, hes, hmem⟩ := List.mem_flatten.mp he
    rw [List.eq_of_mem_replicate hes] at hmem
    exact succeeds_of_turns default 1 e hmem)).2
  rw [hback] at hdrained
  refine hne (hdrained ?_ h.idle store h.store_eq).2
  rw [htotal, liveSuccesses_append, hcount]
  exact Nat.le_mul_of_pos_right enough (by omega)

/-- One live success and its replay leave the lines behind the last replayed entry. -/
theorem Quiet.exec_drain (hne : linesOf store.file ≠ [])
    (hscans : Scans codec spillDrainBatchSize.toNat (linesOf store.file))
    (hpending : pending codec store ≠ []) :
    ∃ (es : List (Event P)) (front : List String) (line : String) (store' : DiskSpillStore),
      (∀ e ∈ es, e.Succeeds) ∧
      (events codec).exec s es = { s with spillStore := some store' } ∧ Sound store' ∧
      linesOf store.file = front ++ line :: linesOf store'.file ∧
      (∀ l ∈ front ++ [line], ¬ Raises codec l) ∧ (entry codec line).isSome = true := by
  have hlen : ((pending codec store).take spillDrainBatchSize.toNat).length ≤
      (valid codec (linesOf store.file)).length := List.length_take_le' _ _
  have hpos := length_batch_pos (List.length_pos_of_ne_nil hpending)
  have hbatch : ((pending codec store).take spillDrainBatchSize.toNat).length ≤
      spillDrainBatchSize.toNat := List.length_take_le _ _
  generalize hb : (pending codec store).take spillDrainBatchSize.toNat = batch at *
  obtain ⟨front, line, back, hlines, hentry, hcut⟩ := exists_cut hpos hlen
  have hparses : ∀ l ∈ front ++ [line], ¬ Raises codec l := by
    rw [hlines] at hscans
    exact hscans.parses_cut (by omega)
  obtain ⟨store', hdiscard, hsound, hback⟩ := h.sound.discardBatch_cut hlines hparses hentry
  rw [hcut] at hdiscard
  have hpeeked : next codec (s.withFirst .peeking) turn = s.withFirst (replay batch 0) := by
    rw [h.next_peeking hscans, hb]
  have hreplayed : endReplay (0 + batch.length) = (.discarding batch.length : Phase P) := by
    rw [Nat.zero_add]
    exact if_pos hpos
  have hdiscarded : next codec (s.withFirst (.discarding batch.length)) turn =
      { s with spillStore := some store' } := by
    have hstore : (s.withFirst (.discarding batch.length)).spillStore = some store := h.store_eq
    have hworkers : s.workers.set 0 .waiting = s.workers :=
      congrArg BackgroundPublisher.workers h.withFirst_waiting
    rw [turn, next_work (h.first _)]
    simp only [work, callStore, hstore, hdiscard]
    unfold withFirst
    rw [List.set_set, hworkers]
  refine ⟨[.submit default, turn, turn, turn] ++ List.replicate (1 + (batch.length + 1)) turn,
    front, line, store', succeeds_of_turns default _, ?_, hsound, by rw [hback]; exact hlines,
    hparses, hentry⟩
  have hturns : List.replicate (1 + (batch.length + 1)) (turn : Event P) =
      turn :: (List.replicate batch.length turn ++ [turn]) := by
    rw [Nat.add_comm, List.replicate_succ, List.replicate_succ']
  rw [Machine.exec_append, (h.exec_success (h.isEmpty_eq_false hne) default).1, hturns,
    Machine.exec_cons, Machine.exec_concat, events_step, events_step, hpeeked, h.exec_replay,
    hreplayed, hdiscarded]

/-- By induction on the entries that are left. -/
theorem Quiet.drainable (hdrains : Drains codec s) : Drainable codec (linesOf store.file) := by
  induction hn : (pending codec store).length using Nat.strong_induction_on
    generalizing s store with
  | _ n ih =>
    rcases em (linesOf store.file = []) with hnil | hne
    · rw [hnil]
      exact ⟨by simp, by simp⟩
    · obtain ⟨es, front, line, store', hes, hexec, hsound, hlines, hparses, hentry⟩ :=
        h.exec_drain hne (h.scans_of_drains hdrains hne) (h.pending_ne_nil hdrains hne)
      have hdrains' := hdrains.exec hes
      rw [hexec] at hdrains'
      have hquiet : Quiet { s with spillStore := some store' } store' :=
        ⟨rfl, hsound, h.queue_eq, h.room, h.idle, h.staffed⟩
      have hfewer : (pending codec store').length < n := by
        obtain ⟨payload, hpayload⟩ := Option.isSome_iff_exists.mp hentry
        rw [← hn]
        unfold pending
        rw [hlines, valid_append, valid_cons, hpayload]
        simp only [Option.toList_some, List.length_append, List.length_singleton]
        omega
      have hrest := ih _ hfewer hquiet hdrains' rfl
      rw [hlines]
      exact hrest.of_cut hparses hentry

end sequential

/-- The publisher over an opened store. -/
theorem drains_iff [Inhabited P] (maxQueueSize workerCount : ℤ) (hsound : Sound store) :
    Drains codec (init maxQueueSize workerCount (some store)) ↔
      Drainable codec (linesOf store.file) := by
  have hidle : Idle (init (P := P) maxQueueSize workerCount (some store)) :=
    fun phase hmem => mem_workers_init hmem
  constructor
  · intro hdrains
    refine Quiet.drainable ⟨rfl, hsound, rfl, ?_, hidle, ?_⟩ hdrains
    · change 0 < (max 1 maxQueueSize).toNat
      omega
    · change 0 < (List.replicate (max 1 workerCount).toNat Phase.waiting).length
      rw [List.length_replicate]
      omega
  · intro hdrainable
    refine Draining.drains ⟨rfl, hsound, hdrainable, ?_, fun _ => by omega⟩
    intro phase hmem
    rw [hidle phase hmem]
    trivial

/-- Over any terminated file, replay drains the store exactly if `json.loads` can be
applied to every line and the last line is valid. -/
theorem replay_drains_iff [Inhabited P] (codec : JsonCodec P)
    (maxEntries maxQueueSize workerCount : ℤ) {file : File} (hfile : TerminatedFile file) :
    ∃ store, DiskSpillStore.init .working maxEntries file = .ok store ∧
      (Drains codec (init maxQueueSize workerCount (some store)) ↔
        Drainable codec (linesOf file)) := by
  obtain ⟨store, hinit, rfl, hsound, -⟩ := init_of_terminated maxEntries hfile
  exact ⟨store, hinit, drains_iff maxQueueSize workerCount hsound⟩

/-- The file of an entry with a corrupt line behind it. -/
def corruptTail : File := (File.extend none (idText 1 ++ "\n").toUTF8).extend ("?" ++ "\n").toUTF8

theorem corruptTail_spec :
    TerminatedFile corruptTail ∧ linesOf corruptTail = [idText 1, "?"] := by
  obtain ⟨line, hline⟩ := idCodec_lawful 1
  obtain rfl : idText 1 = line := Except.ok.inj hline.dumps
  have hcorrupt : IsLine "?" := ⟨⟨by decide, by decide⟩, by decide⟩
  have hmissing : TerminatedFile none := trivial
  obtain ⟨hentry, hlines⟩ := hmissing.extend hline.isLine
  obtain ⟨htail, hlines'⟩ := hentry.extend hcorrupt
  refine ⟨htail, ?_⟩
  unfold corruptTail
  rw [hlines', hlines]
  rfl

theorem replay_drains_iff_of_corruptTail :
    ∃ store, DiskSpillStore.init .working 2000 corruptTail = .ok store ∧
      (Drains idCodec (init 512 1 (some store)) ↔ Drainable idCodec (linesOf corruptTail)) :=
  replay_drains_iff idCodec 2000 512 1 corruptTail_spec.1

/-- A corrupt line at the end is never removed. -/
theorem corruptTail_stays :
    TerminatedFile corruptTail ∧
      ∃ store, DiskSpillStore.init .working 2000 corruptTail = .ok store ∧
        ¬ Drains idCodec (init 512 1 (some store)) := by
  obtain ⟨hterm, hlines⟩ := corruptTail_spec
  obtain ⟨store, hinit, hfile, hsound, -⟩ := init_of_terminated 2000 hterm
  refine ⟨hterm, store, hinit, fun hdrains => ?_⟩
  have hdrainable := (drains_iff 512 1 hsound).mp hdrains
  rw [hfile, hlines] at hdrainable
  have hcorrupt : entry idCodec "?" = none := by decide
  have hentry := hdrainable.ends "?" rfl
  rw [hcorrupt] at hentry
  exact absurd hentry (by decide)

end BackgroundPublisher

end SmartIDS.Forwarding
