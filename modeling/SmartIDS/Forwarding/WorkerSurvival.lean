import SmartIDS.Forwarding.BackgroundPublisher
set_option autoImplicit false

/-!
# Forwarding: what ends a worker of the publisher

The loop of a worker catches what `publish` raises and nothing else.  A worker
therefore lives as long as every operation of the spill store it makes comes to
its end, and what that takes is known for each of them.
-/

namespace SmartIDS.Forwarding

open SmartIDS.Foundation SmartIDS.Python

namespace BackgroundPublisher

variable {P : Type} {codec : JsonCodec P} {published : Published} {disk : Disk}
  {s : BackgroundPublisher P}

/-- No worker has ended. -/
def Alive (s : BackgroundPublisher P) : Prop := ∀ phase ∈ s.workers, phase ≠ .dead

/-- Without a store, no worker is in a replay. -/
def Wired (s : BackgroundPublisher P) : Prop :=
  s.spillStore = none → ∀ phase ∈ s.workers, phase.inReplay = false

/-- The operation of the store at this point of the loop comes to its end. -/
def StoreReturns (codec : JsonCodec P) (disk : Disk) (store : DiskSpillStore) : Phase P → Prop
  | .failed payload => DiskSpillStore.Appends codec disk payload store
  | .peeking => DiskSpillStore.Readable codec disk spillDrainBatchSize store.file
  | .discarding n =>
    0 < n → DiskSpillStore.Readable codec disk n store.file ∧ disk.rewrites = true
  | _ => True

/-- The store operation of this event, if there is one, comes to its end. -/
def Survives (codec : JsonCodec P) (s : BackgroundPublisher P) : Event P → Prop
  | .submit _ => True
  | .work i _ disk => ∀ phase store, s.workers[i]? = some phase → s.spillStore = some store →
      StoreReturns codec disk store phase

theorem callStore_snd_ne_dead_iff {α : Type} {call : Effect PyError DiskSpillStore α}
    {f : α → Phase P} (hf : ∀ a, f a ≠ .dead) {store : DiskSpillStore}
    (hstore : s.spillStore = some store) :
    (callStore s call f).2 ≠ .dead ↔ ∃ a, (call store).1 = .ok a := by
  simp only [callStore, hstore]
  cases hcall : call store with
  | mk result store' =>
    cases result with
    | ok a => simp [hf]
    | error e => simp

theorem peekBatch_returns_iff {store : DiskSpillStore} :
    (∃ batch, (DiskSpillStore.peekBatch codec disk spillDrainBatchSize store).1 = .ok batch) ↔
      DiskSpillStore.Readable codec disk spillDrainBatchSize store.file := by
  have hpos : 0 < spillDrainBatchSize := by decide
  constructor
  · rintro ⟨batch, hok⟩
    refine not_not.mp fun hnot => ?_
    obtain ⟨e, he⟩ := DiskSpillStore.peekBatch_of_not_readable hpos hnot
    simp [he] at hok
  · intro h
    exact ⟨_, by rw [DiskSpillStore.peekBatch_of_readable hpos h]⟩

theorem discardBatch_returns_iff {store : DiskSpillStore} (n : ℕ) :
    (∃ u, (DiskSpillStore.discardBatch codec disk n store).1 = .ok u) ↔
      (0 < n → DiskSpillStore.Readable codec disk n store.file ∧ disk.rewrites = true) := by
  rcases n.eq_zero_or_pos with rfl | hn
  · have hzero : ((0 : ℕ) : ℤ) ≤ 0 := le_rfl
    refine iff_of_true ⟨(), ?_⟩ fun h => absurd h (Nat.lt_irrefl 0)
    rw [DiskSpillStore.discardBatch_of_nonpos hzero]
  · have hpos : (0 : ℤ) < n := by omega
    rcases em (DiskSpillStore.Readable codec disk n store.file) with hread | hread
    · obtain ⟨k, heq, -⟩ := DiskSpillStore.discardBatch_of_readable hpos hread
      rw [heq]
      cases hrewrites : disk.rewrites <;> simp [DiskSpillStore.rewrite, hrewrites, hread, hn]
    · obtain ⟨e, he⟩ := DiskSpillStore.discardBatch_of_not_readable hpos hread
      simp [he, hread, hn]

/-- The worker that makes a call goes on exactly when the store operation, if it
is one, comes to its end. -/
theorem work_ne_dead_iff {phase : Phase P}
    (hphase : phase ≠ .dead)
    (hstore : s.spillStore = none → phase.inReplay = false) :
    (work codec published disk s phase).2 ≠ .dead ↔
      ∀ store, s.spillStore = some store → StoreReturns codec disk store phase := by
  cases phase with
  | waiting =>
    simp only [work, StoreReturns]
    split <;> simp
  | publishing payload =>
    simp only [work, StoreReturns]
    split <;> simp
  | failed payload =>
    simp only [work, StoreReturns]
    cases hs : s.spillStore with
    | none => simp
    | some store =>
      rw [Option.isSome_some, if_pos rfl, callStore_snd_ne_dead_iff (by simp) hs]
      simp only [Option.some.injEq, forall_eq']
      rw [← DiskSpillStore.append_returns_iff]
      constructor
      · rintro ⟨_, h⟩
        exact h
      · exact fun h => ⟨(), h⟩
  | checking =>
    simp only [work, StoreReturns]
    split <;> simp
  | peeking =>
    cases hs : s.spillStore with
    | none => exact absurd (hstore hs) (by simp [Phase.inReplay])
    | some store =>
      simp only [work, StoreReturns, Option.some.injEq, forall_eq']
      rw [callStore_snd_ne_dead_iff (fun batch => replay_ne_dead batch 0) hs,
        peekBatch_returns_iff]
  | replaying item rest n =>
    simp only [work, StoreReturns]
    split
    · simp [replay_ne_dead]
    · simp only [endReplay]
      split <;> simp
  | discarding n =>
    cases hs : s.spillStore with
    | none => exact absurd (hstore hs) (by simp [Phase.inReplay])
    | some store =>
      simp only [work, StoreReturns, Option.some.injEq, forall_eq']
      rw [callStore_snd_ne_dead_iff (by simp) hs, discardBatch_returns_iff]
  | dead => exact absurd rfl hphase

theorem callStore_spillStore_isSome {α : Type} (call : Effect PyError DiskSpillStore α)
    (f : α → Phase P) :
    (callStore s call f).1.spillStore.isSome = s.spillStore.isSome := by
  unfold callStore
  cases hs : s.spillStore with
  | none => simp [hs]
  | some store =>
    simp only
    split <;> rfl

/-- The store is there from the start or not at all. -/
theorem work_spillStore_isSome (phase : Phase P) :
    (work codec published disk s phase).1.spillStore.isSome = s.spillStore.isSome := by
  cases phase with
  | waiting =>
    simp only [work]
    split <;> rfl
  | failed payload =>
    simp only [work]
    split
    · exact callStore_spillStore_isSome _ _
    · rfl
  | peeking => exact callStore_spillStore_isSome _ _
  | discarding n => exact callStore_spillStore_isSome _ _
  | _ => rfl

theorem work_inReplay_of_no_store (hs : s.spillStore = none) {phase : Phase P}
    (hphase : phase.inReplay = false) :
    (work codec published disk s phase).2.inReplay = false := by
  cases phase with
  | waiting =>
    simp only [work]
    split <;> rfl
  | publishing payload =>
    simp only [work]
    split <;> rfl
  | failed payload => simp [work, hs, Phase.inReplay]
  | checking => simp [work, hs, Phase.inReplay]
  | dead => rfl
  | _ => exact absurd hphase (by simp [Phase.inReplay])

theorem wired_next (h : Wired s) (e : Event P) : Wired (next codec s e) := by
  cases e with
  | submit payload =>
    intro hs phase hmem
    simp only [next, submit] at hs hmem
    split at hs <;> split at hmem <;> exact h hs phase hmem
  | work i published disk =>
    cases hphase : s.workers[i]? with
    | none =>
      rw [next_work_of_none hphase]
      exact h
    | some phase =>
      rw [next_work hphase]
      intro hs phase' hmem
      have hnone : s.spillStore = none := by
        have hsome : (work codec published disk s phase).1.spillStore.isSome =
            s.spillStore.isSome := work_spillStore_isSome phase
        have hafter : (work codec published disk s phase).1.spillStore = none := hs
        rw [hafter, Option.isSome_none] at hsome
        exact Option.not_isSome_iff_eq_none.mp (by rw [← hsome]; decide)
      simp only [work_workers] at hmem
      rcases List.mem_or_eq_of_mem_set hmem with hold | rfl
      · exact h hnone phase' hold
      · exact work_inReplay_of_no_store hnone (h hnone phase (List.mem_of_getElem? hphase))

/-- One event ends no worker exactly when it survives. -/
theorem alive_next_iff (hwired : Wired s) (halive : Alive s) (e : Event P) :
    Alive (next codec s e) ↔ Survives codec s e := by
  cases e with
  | submit payload =>
    refine iff_of_true ?_ trivial
    intro phase hmem
    simp only [next, submit] at hmem
    split at hmem <;> exact halive phase hmem
  | work i published disk =>
    cases hphase : s.workers[i]? with
    | none =>
      rw [next_work_of_none hphase]
      exact iff_of_true halive fun phase store hsome => by simp [hphase] at hsome
    | some phase =>
      have hmem := List.mem_of_getElem? hphase
      have hlive : (work codec published disk s phase).2 ≠ .dead ↔
          ∀ store, s.spillStore = some store → StoreReturns codec disk store phase :=
        work_ne_dead_iff (halive phase hmem) fun hs => hwired hs phase hmem
      obtain ⟨hlt, -⟩ := List.getElem?_eq_some_iff.mp hphase
      rw [next_work hphase]
      simp only [Survives, hphase, Option.some.injEq, Alive, work_workers]
      constructor
      · rintro hall phase' store rfl hstore
        exact hlive.mp (hall _ (List.mem_set hlt _)) store hstore
      · intro hreturns phase' hmem'
        rcases List.mem_or_eq_of_mem_set hmem' with hold | rfl
        · exact halive phase' hold
        · exact hlive.mpr fun store hstore => hreturns phase store rfl hstore

theorem mem_workers_init {maxQueueSize workerCount : ℤ} {spillStore : Option DiskSpillStore}
    {phase : Phase P} (h : phase ∈ (init maxQueueSize workerCount spillStore).workers) :
    phase = .waiting := List.eq_of_mem_replicate h

/-- Through any run, no worker ends exactly when every store operation of a
worker comes to its end. -/
theorem alive_always_iff (codec : JsonCodec P) (maxQueueSize workerCount : ℤ)
    (spillStore : Option DiskSpillStore) (es : List (Event P)) :
    (events codec).Always Alive (init maxQueueSize workerCount spillStore) es ↔
      (events codec).Guarded (Survives codec) (init maxQueueSize workerCount spillStore) es := by
  refine Machine.always_iff_guarded_under (events codec) (K := Wired)
    (fun s e hs => wired_next hs e) (fun s e hs halive => alive_next_iff hs halive e) ?_ ?_
  · intro _ phase hmem
    rw [mem_workers_init hmem]
    rfl
  · intro phase hmem
    rw [mem_workers_init hmem]
    simp

/-- Payloads with an id, and one with a value that is no JSON. -/
def partialCodec : JsonCodec (Option ℕ) where
  dumps
    | some id => idCodec.dumps id
    | none => .error .typeError
  loads line := (idCodec.loads line).map fun payload => payload.map some

/-- `publish` raises on a payload that is no JSON, and so does `append`: the
only worker ends, and what is submitted from then on stays in the queue. -/
theorem worker_ends_at_append :
    let s := (events partialCodec).exec (init 512 1 (some ⟨2000, 0, none, by decide⟩))
      [.submit none, .work 0 .raised .working, .work 0 .raised .working,
        .work 0 .raised .working, .submit (some 1)]
    (∀ phase ∈ s.workers, phase = .dead) ∧ s.queue = [some 1] :=
  ⟨fun _ hmem => List.mem_singleton.mp hmem, rfl⟩

end BackgroundPublisher

end SmartIDS.Forwarding
