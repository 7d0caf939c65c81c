import SmartIDS.Forwarding.BackgroundPublisher
import SmartIDS.Forwarding.SpillFifo
set_option autoImplicit false

/-!
# Forwarding: the books of a spill store

A publisher is watched by books that its code does not keep: every entry that
ever stood in the spill file has a position, and the books say which positions
have left the file, how, and for which of them a `publish` call returned a true
value.  `discard_batch` counts entries instead of naming them, so it removes
what its worker delivered exactly as long as nothing else has left the front of
the file since that worker's `peek_batch`.
-/

namespace SmartIDS.Forwarding

open SmartIDS.Foundation SmartIDS.Python

variable {P : Type}

/-- How an entry left the file. -/
inductive Fate where
  | trimmed
  | discarded
  deriving DecidableEq

/-- What happened to the payloads of a publisher. -/
structure Books (P : Type) where
  /-- submitted, and taken in -/
  accepted : List P
  /-- published with a true result -/
  delivered : List P
  /-- delivered in a replay -/
  replayed : List P
  /-- the entries that ever stood in the file -/
  log : List P
  /-- the first of them, which have left it -/
  gone : List (P × Fate)
  /-- the position of the front of the file at a worker's last `peek_batch` -/
  base : ℕ → ℕ
  /-- the positions that were delivered, with what was published -/
  confirmed : List (ℕ × P)

namespace Books

/-- Entries leave the front of the file. -/
def leave (b : Books P) (before after : List P) (fate : Fate) : Books P :=
  { b with gone := b.gone ++ (before.take (before.length - after.length)).map fun p => (p, fate) }

/-- No entry is lost: those that are not in the file have been trimmed, or were
delivered and then discarded. -/
structure Kept (b : Books P) (pending : List P) : Prop where
  log_eq : b.log = b.gone.map Prod.fst ++ pending
  discarded : ∀ k p, b.gone[k]? = some (p, .discarded) → (k, p) ∈ b.confirmed
  truthful : ∀ k p, (k, p) ∈ b.confirmed → b.log[k]? = some p

theorem leave_gone {b : Books P} {lost after : List P} (fate : Fate) :
    (b.leave (lost ++ after) after fate).gone = b.gone ++ lost.map fun p => (p, fate) := by
  unfold leave
  rw [List.length_append, Nat.add_sub_cancel, List.take_left']
  rfl

theorem Kept.extend {b : Books P} {pending : List P} (h : b.Kept pending) (new : List P) :
    Kept { b with log := b.log ++ new } (pending ++ new) where
  log_eq := by
    change b.log ++ new = _
    rw [h.log_eq, List.append_assoc]
  discarded := h.discarded
  truthful k p hmem := by
    have hold := h.truthful k p hmem
    obtain ⟨hlt, -⟩ := List.getElem?_eq_some_iff.mp hold
    change (b.log ++ new)[k]? = some p
    rw [List.getElem?_append_left hlt, hold]

theorem Kept.leave {b : Books P} {lost after : List P} (h : b.Kept (lost ++ after)) {fate : Fate}
    (hfate : fate = .discarded →
      ∀ m p, lost[m]? = some p → (b.gone.length + m, p) ∈ b.confirmed) :
    (b.leave (lost ++ after) after fate).Kept after where
  log_eq := by
    rw [leave_gone]
    change b.log = _
    rw [h.log_eq]
    simp [List.map_map, Function.comp_def]
  discarded k p hk := by
    rw [leave_gone] at hk
    change (k, p) ∈ b.confirmed
    rcases Nat.lt_or_ge k b.gone.length with hlt | hge
    · rw [List.getElem?_append_left hlt] at hk
      exact h.discarded k p hk
    · rw [List.getElem?_append_right hge, List.getElem?_map, Option.map_eq_some_iff] at hk
      obtain ⟨q, hq, heq⟩ := hk
      obtain ⟨rfl, rfl⟩ := Prod.mk.inj heq
      have hmem := hfate rfl _ _ hq
      rwa [Nat.add_sub_cancel' hge] at hmem
  truthful := h.truthful

/-- The first `n` entries from the base of the worker on were delivered. -/
def Confirmed (b : Books P) (i n : ℕ) : Prop :=
  ∀ m < n, ∃ p, (b.base i + m, p) ∈ b.confirmed

/-- Where the books see a worker: in front of the entries left of its batch, with
those before delivered. -/
def Sees (b : Books P) (i : ℕ) : Phase P → Prop
  | .replaying item rest n => (item :: rest) <+: b.log.drop (b.base i + n) ∧ b.Confirmed i n
  | .discarding n => b.Confirmed i n
  | _ => True

/-- Later books of the same worker. -/
structure Extends (b b' : Books P) (i : ℕ) : Prop where
  log : b.log <+: b'.log
  base : b'.base i = b.base i
  confirmed : b.confirmed ⊆ b'.confirmed

theorem Extends.refl (b : Books P) (i : ℕ) : Extends b b i :=
  ⟨List.prefix_rfl, rfl, List.Subset.refl _⟩

theorem Confirmed.mono {b b' : Books P} {i n : ℕ} (h : b.Confirmed i n) (hext : Extends b b' i) :
    b'.Confirmed i n := by
  intro m hm
  obtain ⟨p, hp⟩ := h m hm
  exact ⟨p, hext.base ▸ hext.confirmed hp⟩

theorem Sees.mono {b b' : Books P} {i : ℕ} {phase : Phase P} (h : b.Sees i phase)
    (hext : Extends b b' i) : b'.Sees i phase := by
  cases phase with
  | replaying item rest n =>
    obtain ⟨hfront, hconfirmed⟩ := h
    refine ⟨hfront.trans ?_, hconfirmed.mono hext⟩
    obtain ⟨new, hnew⟩ := hext.log
    rw [hext.base, ← hnew, List.drop_append]
    exact List.prefix_append _ _
  | discarding n => exact Confirmed.mono h hext
  | _ => trivial

end Books

/-- A publisher and its books. -/
structure Audited (P : Type) where
  publisher : BackgroundPublisher P
  books : Books P

namespace Audited

open BackgroundPublisher DiskSpillStore

/-- The entries in the file of the publisher. -/
def pendingOf (codec : JsonCodec P) (s : BackgroundPublisher P) : List P :=
  s.spillStore.elim [] (pending codec)

/-- What an `append` adds to the file. -/
def written (codec : JsonCodec P) (disk : Disk) (payload : P) : List P :=
  match disk.appends, codec.dumps payload with
  | .done, .ok _ => [payload]
  | _, _ => []

/-- The books behind a call of the worker `i` in the given phase; `before` and
`after` are the entries in the file. -/
def recordCall (codec : JsonCodec P) (published : Published) (disk : Disk) (i : ℕ)
    (before after : List P) (b : Books P) : Phase P → Books P
  | .publishing payload =>
    if published.delivered then { b with delivered := b.delivered ++ [payload] } else b
  | .failed payload =>
    let new := written codec disk payload
    { b with log := b.log ++ new }.leave (before ++ new) after .trimmed
  | .peeking => { b with base := Function.update b.base i b.gone.length }
  | .replaying item _ deliveredCount =>
    if published.delivered then
      { b with
        delivered := b.delivered ++ [item]
        replayed := b.replayed ++ [item]
        confirmed := b.confirmed ++ [(b.base i + deliveredCount, item)] }
    else b
  | .discarding _ => b.leave before after .discarded
  | _ => b

/-- The books behind an event at the publisher `s`. -/
def record (codec : JsonCodec P) (s : BackgroundPublisher P) (b : Books P) (e : Event P) :
    Books P :=
  match e with
  | .submit payload =>
    if (s.submit payload).1 then { b with accepted := b.accepted ++ [payload] } else b
  | .work i published disk =>
    match s.workers[i]? with
    | some phase =>
      recordCall codec published disk i (pendingOf codec s) (pendingOf codec (next codec s e)) b
        phase
    | none => b

/-- The publisher under any interleaving, with its books. -/
def audit (codec : JsonCodec P) : Machine (Audited P) (Event P) Unit where
  step w e := (⟨next codec w.publisher e, record codec w.publisher w.books e⟩, ())

/-- `BackgroundPublisher.__init__`, with empty books. -/
def init (codec : JsonCodec P) (maxQueueSize workerCount : ℤ) (store : DiskSpillStore) :
    Audited P where
  publisher := .init maxQueueSize workerCount (some store)
  books := ⟨[], [], [], pending codec store, [], fun _ => 0, []⟩

@[simp] theorem audit_step (codec : JsonCodec P) (w : Audited P) (e : Event P) :
    ((audit codec).step w e).1 =
      ⟨next codec w.publisher e, record codec w.publisher w.books e⟩ := rfl

/-- The publisher takes no notice of the books. -/
theorem exec_audit_publisher (codec : JsonCodec P) (w : Audited P) (es : List (Event P)) :
    ((audit codec).exec w es).publisher = (events codec).exec w.publisher es := by
  apply Machine.exec_related (audit codec) (events codec)
    (R := fun w publisher => w.publisher = publisher) (Q := Eq)
  · rintro w _ e _ rfl rfl
    rfl
  · rfl
  · exact List.forall₂_same.mpr fun _ _ => rfl

/-! ## What the store operations do to the books -/

section steps

variable {codec : JsonCodec P} {disk : Disk} {published : Published} {w : Audited P}
  {store : DiskSpillStore}

theorem append_pending (hinverts : codec.Inverts) (hs : Sound store) (hreads : disk.reads = true)
    (htorn : disk.appends.isTorn = false) (payload : P) :
    Sound (append codec disk payload store).2 ∧ ∃ lost,
      pending codec store ++ written codec disk payload =
        lost ++ pending codec (append codec disk payload store).2 := by
  have hsame : ∀ e, append codec disk payload store = (.error e, store) →
      written codec disk payload = [] →
      Sound (append codec disk payload store).2 ∧ ∃ lost,
        pending codec store ++ written codec disk payload =
          lost ++ pending codec (append codec disk payload store).2 := by
    intro e heq hwritten
    rw [heq, hwritten, List.append_nil]
    exact ⟨hs, [], rfl⟩
  cases hdumps : codec.dumps payload with
  | error e =>
    refine hsame e (Effect.bind_of_error (by simp only [Effect.ofExcept_apply, hdumps])) ?_
    unfold written
    rw [hdumps]
    cases disk.appends <;> rfl
  | ok line =>
    cases hdone : disk.appends with
    | done =>
      have hline := hinverts payload line hdumps
      obtain ⟨t, k, hstate, ht, -, hfile, -⟩ := hs.append hdone hreads hline
      have hwritten : written codec disk payload = [payload] := by
        unfold written
        rw [hdone, hdumps]
      rw [hstate, hwritten]
      refine ⟨ht, valid codec ((linesOf store.file).take k), ?_⟩
      unfold pending
      rw [hfile, valid_append, ← List.append_assoc, ← valid_append, List.take_append_drop,
        valid_cons, entry_of_serialises hline]
      rfl
    | refused =>
      refine hsame .osError ?_ (by simp [written, hdone])
      simp [append, appendFile, hdumps, hdone, Effect.bind_apply]
    | torn k => simp [hdone, Appending.isTorn] at htorn

theorem callStore_spillStore {α : Type} {s : BackgroundPublisher P}
    (hstore : s.spillStore = some store) (call : Effect PyError DiskSpillStore α)
    (f : α → Phase P) : (callStore s call f).1.spillStore = some (call store).2 := by
  unfold callStore
  rw [hstore]
  simp only
  split <;> next heq => rw [heq]

theorem pendingOf_some {s : BackgroundPublisher P} (hstore : s.spillStore = some store) :
    pendingOf codec s = pending codec store := by
  unfold pendingOf
  rw [hstore]
  rfl

/-- The books agree with the file and with every worker. -/
structure Tracked (codec : JsonCodec P) (w : Audited P) : Prop where
  store : ∃ store, w.publisher.spillStore = some store ∧ Sound store
  kept : w.books.Kept (pendingOf codec w.publisher)
  sees : ∀ i phase, w.publisher.workers[i]? = some phase → w.books.Sees i phase

/-- One worker has moved on; to the others the books have only grown. -/
theorem Tracked.moved (h : Tracked codec w) {i : ℕ} {phase' : Phase P}
    {t : BackgroundPublisher P} {b : Books P}
    (hworkers : t.workers = w.publisher.workers.set i phase')
    (hstore : ∃ store, t.spillStore = some store ∧ Sound store)
    (hkept : b.Kept (pendingOf codec t)) (hext : ∀ j, j ≠ i → Books.Extends w.books b j)
    (hsees : b.Sees i phase') : Tracked codec ⟨t, b⟩ where
  store := hstore
  kept := hkept
  sees j phase hphase := by
    have hget : (w.publisher.workers.set i phase')[j]? = some phase := hworkers ▸ hphase
    rcases eq_or_ne j i with rfl | hne
    · rw [List.getElem?_set] at hget
      split at hget
      · split at hget
        · obtain rfl := Option.some.inj hget
          exact hsees
        · simp at hget
      · next hne => exact absurd rfl hne
    · rw [List.getElem?_set_ne hne.symm] at hget
      exact (h.sees j phase hget).mono (hext j hne)

/-- The calls under which `discard_batch` removes what its worker delivered:
nothing has left the front of the file since the worker's `peek_batch`, the read
of the file succeeds, and a failing `append` writes nothing. -/
def UndisturbedCall (b : Books P) (i : ℕ) (disk : Disk) : Phase P → Prop
  | .failed _ => disk.reads = true ∧ disk.appends.isTorn = false
  | .discarding _ => disk.reads = true ∧ b.base i = b.gone.length
  | _ => True

def Undisturbed (w : Audited P) : Event P → Prop
  | .submit _ => True
  | .work i _ disk =>
    match w.publisher.workers[i]? with
    | some phase => UndisturbedCall w.books i disk phase
    | none => True

instance (b : Books P) (i : ℕ) (disk : Disk) :
    ∀ phase, Decidable (UndisturbedCall b i disk phase)
  | .failed _ => inferInstanceAs (Decidable (_ ∧ _))
  | .discarding _ => inferInstanceAs (Decidable (_ ∧ _))
  | .waiting => inferInstanceAs (Decidable True)
  | .publishing _ => inferInstanceAs (Decidable True)
  | .checking => inferInstanceAs (Decidable True)
  | .peeking => inferInstanceAs (Decidable True)
  | .replaying _ _ _ => inferInstanceAs (Decidable True)
  | .dead => inferInstanceAs (Decidable True)

instance (w : Audited P) : ∀ e, Decidable (Undisturbed w e)
  | .submit _ => inferInstanceAs (Decidable True)
  | .work i _ disk =>
    match h : w.publisher.workers[i]? with
    | some phase => decidable_of_iff (UndisturbedCall w.books i disk phase) (by
        simp only [Undisturbed, h])
    | none => isTrue (by simp only [Undisturbed, h])

theorem record_work {i : ℕ} {phase : Phase P} (h : w.publisher.workers[i]? = some phase) :
    record codec w.publisher w.books (.work i published disk) =
      recordCall codec published disk i (pendingOf codec w.publisher)
        (pendingOf codec (next codec w.publisher (.work i published disk))) w.books phase := by
  simp only [record, h]

/-- The worker's call is none of the store's that change the file. -/
theorem Tracked.quiet (h : Tracked codec w) {i : ℕ} {phase : Phase P}
    (hphase : w.publisher.workers[i]? = some phase)
    (hsame : (work codec published disk w.publisher phase).1.spillStore = w.publisher.spillStore)
    {b : Books P} (hkept : b.Kept (pendingOf codec w.publisher))
    (hext : ∀ j, j ≠ i → Books.Extends w.books b j)
    (hsees : b.Sees i (work codec published disk w.publisher phase).2) :
    Tracked codec ⟨next codec w.publisher (.work i published disk), b⟩ := by
  have hspill : (next codec w.publisher (.work i published disk)).spillStore =
      w.publisher.spillStore := (next_spillStore hphase).trans hsame
  have hpending : pendingOf codec (next codec w.publisher (.work i published disk)) =
      pendingOf codec w.publisher := by
    unfold pendingOf
    rw [hspill]
  exact h.moved (next_workers hphase) (hspill ▸ h.store) (hpending ▸ hkept) hext hsees

theorem tracked_failed (hinverts : codec.Inverts) (h : Tracked codec w) {i : ℕ} {payload : P}
    (hphase : w.publisher.workers[i]? = some (.failed payload)) (hreads : disk.reads = true)
    (htorn : disk.appends.isTorn = false) :
    Tracked codec ((audit codec).step w (.work i published disk)).1 := by
  obtain ⟨store, hstore, hs⟩ := h.store
  have hsome : w.publisher.spillStore.isSome = true := by rw [hstore]; rfl
  obtain ⟨hsound, lost, hlost⟩ := append_pending hinverts hs hreads htorn payload
  have hwork : work codec published disk w.publisher (.failed payload) =
      callStore w.publisher (append codec disk payload) fun _ => .waiting := by
    simp only [work]
    rw [if_pos hsome]
  have hspill : (next codec w.publisher (.work i published disk)).spillStore =
      some (append codec disk payload store).2 := by
    rw [next_spillStore hphase, hwork, callStore_spillStore hstore]
  rw [audit_step, record_work hphase, recordCall]
  rw [pendingOf_some hstore, pendingOf_some hspill, hlost]
  have hkept := h.kept
  rw [pendingOf_some hstore] at hkept
  have hleave := (hkept.extend (written codec disk payload))
  rw [hlost] at hleave
  refine h.moved (next_workers hphase) ⟨_, hspill, hsound⟩ ?_ (fun j _ => ?_) ?_
  · rw [pendingOf_some hspill]
    exact hleave.leave fun hfate => by simp at hfate
  · exact ⟨List.prefix_append _ _, rfl, List.Subset.refl _⟩
  · rw [hwork]
    unfold callStore
    rw [hstore]
    simp only
    split <;> trivial

theorem log_drop_gone {b : Books P} {pending : List P} (h : b.Kept pending) :
    b.log.drop b.gone.length = pending := by
  rw [h.log_eq]
  exact List.drop_left' (List.length_map _)

/-- What a worker discards is what it delivered: its base is the front of the file. -/
theorem confirmed_of_base {b : Books P} {pending : List P} (h : b.Kept pending) {i n : ℕ}
    (hconfirmed : b.Confirmed i n) (hbase : b.base i = b.gone.length) {m : ℕ} {p : P}
    (hm : (pending.take n)[m]? = some p) : (b.gone.length + m, p) ∈ b.confirmed := by
  obtain ⟨hlt, -⟩ := List.getElem?_eq_some_iff.mp hm
  rw [List.length_take] at hlt
  have hmn : m < n := by omega
  obtain ⟨q, hq⟩ := hconfirmed m hmn
  rw [hbase] at hq
  have hlog := h.truthful _ _ hq
  have hentry : b.log[b.gone.length + m]? = some p := by
    rw [← List.getElem?_drop, log_drop_gone h, ← List.getElem?_take_of_lt hmn, hm]
  obtain rfl : q = p := Option.some.inj (hlog.symm.trans hentry)
  exact hq

theorem discardBatch_pending (hs : Sound store) (hreads : disk.reads = true) (n : ℕ) :
    Sound (discardBatch codec disk n store).2 ∧ ∃ lost, lost <+: (pending codec store).take n ∧
      pending codec store = lost ++ pending codec (discardBatch codec disk n store).2 := by
  rcases n.eq_zero_or_pos with rfl | hn
  · have hnop : discardBatch codec disk ((0 : ℕ) : ℤ) store = (.ok (), store) :=
      discardBatch_of_nonpos le_rfl
    rw [hnop]
    exact ⟨hs, [], List.nil_prefix, rfl⟩
  · have hpos : (0 : ℤ) < n := by omega
    rcases (hs.discardBatch hreads hpos).1 with hsame | ⟨t, hstate, ht, hpending⟩
    · rw [hsame]
      exact ⟨hs, [], List.nil_prefix, rfl⟩
    · rw [hstate, hpending]
      exact ⟨ht, _, List.prefix_rfl, (List.take_append_drop _ _).symm⟩

theorem tracked_discarding (h : Tracked codec w) {i n : ℕ}
    (hphase : w.publisher.workers[i]? = some (.discarding n)) (hreads : disk.reads = true)
    (hbase : w.books.base i = w.books.gone.length) :
    Tracked codec ((audit codec).step w (.work i published disk)).1 := by
  obtain ⟨store, hstore, hs⟩ := h.store
  obtain ⟨hsound, lost, hfront, hlost⟩ := discardBatch_pending hs hreads n
  have hspill : (next codec w.publisher (.work i published disk)).spillStore =
      some (discardBatch codec disk n store).2 := by
    rw [next_spillStore hphase, work, callStore_spillStore hstore]
  have hconfirmed : w.books.Confirmed i n := h.sees i _ hphase
  have hkept := h.kept
  rw [audit_step, record_work hphase, recordCall]
  rw [pendingOf_some hstore, hlost] at hkept
  rw [pendingOf_some hstore, pendingOf_some hspill, hlost]
  refine h.moved (next_workers hphase) ⟨_, hspill, hsound⟩ ?_ (fun j _ => ?_) ?_
  · rw [pendingOf_some hspill]
    refine hkept.leave fun _ m p hm => ?_
    have hkept' := h.kept
    rw [pendingOf_some hstore] at hkept'
    refine confirmed_of_base hkept' hconfirmed hbase ?_
    obtain ⟨rest, hrest⟩ := hfront
    obtain ⟨hlt, -⟩ := List.getElem?_eq_some_iff.mp hm
    rw [← hrest, List.getElem?_append_left hlt, hm]
  · exact ⟨List.prefix_rfl, rfl, List.Subset.refl _⟩
  · rw [work]
    unfold callStore
    rw [hstore]
    simp only
    split <;> trivial

theorem peekBatch_pending :
    (peekBatch codec disk spillDrainBatchSize store).2 = store ∧
      ∀ batch, (peekBatch codec disk spillDrainBatchSize store).1 = .ok batch →
        batch <+: pending codec store := by
  have hpos : 0 < spillDrainBatchSize := by decide
  rcases em (Readable codec disk spillDrainBatchSize store.file) with hread | hread
  · rw [peekBatch_of_readable hpos hread]
    refine ⟨rfl, fun batch hok => ?_⟩
    obtain rfl := Except.ok.inj hok
    refine (List.take_prefix _ _).trans ?_
    unfold seen
    split
    · exact List.prefix_rfl
    · exact List.nil_prefix
  · obtain ⟨e, heq⟩ := peekBatch_of_not_readable hpos hread
    rw [heq]
    exact ⟨rfl, fun batch hok => by simp at hok⟩

theorem sees_replay {b : Books P} {i n : ℕ} {batch : List P}
    (hfront : batch <+: b.log.drop (b.base i + n)) (hconfirmed : b.Confirmed i n) :
    b.Sees i (replay batch n) := by
  cases batch with
  | nil =>
    simp only [replay, endReplay]
    split
    · exact hconfirmed
    · trivial
  | cons item rest => exact ⟨hfront, hconfirmed⟩

theorem tracked_peeking (h : Tracked codec w) {i : ℕ}
    (hphase : w.publisher.workers[i]? = some .peeking) :
    Tracked codec ((audit codec).step w (.work i published disk)).1 := by
  obtain ⟨store, hstore, -⟩ := h.store
  obtain ⟨hsame, hbatch⟩ : (peekBatch codec disk spillDrainBatchSize store).2 = store ∧
      ∀ batch, (peekBatch codec disk spillDrainBatchSize store).1 = .ok batch →
        batch <+: pending codec store := peekBatch_pending
  have hkept := h.kept
  rw [audit_step, record_work hphase, recordCall]
  refine h.quiet hphase ?_ ⟨hkept.log_eq, hkept.discarded, hkept.truthful⟩ (fun j hj => ?_) ?_
  · rw [work, callStore_spillStore hstore, hsame, hstore]
  · exact ⟨List.prefix_rfl, Function.update_of_ne hj _ _, List.Subset.refl _⟩
  · rw [work]
    unfold callStore
    rw [hstore]
    simp only
    split
    · next batch store' heq =>
      refine sees_replay ?_ fun m hm => absurd hm (Nat.not_lt_zero m)
      change batch <+: w.books.log.drop (Function.update w.books.base i w.books.gone.length i + 0)
      rw [Function.update_self, Nat.add_zero, log_drop_gone hkept, pendingOf_some hstore]
      exact hbatch batch (by rw [heq])
    · trivial

theorem tracked_replaying (h : Tracked codec w) {i n : ℕ} {item : P} {rest : List P}
    (hphase : w.publisher.workers[i]? = some (.replaying item rest n)) :
    Tracked codec ((audit codec).step w (.work i published disk)).1 := by
  obtain ⟨hfront, hconfirmed⟩ := h.sees i _ hphase
  have hkept := h.kept
  rw [audit_step, record_work hphase, recordCall]
  cases hdelivered : published.delivered with
  | false =>
    rw [if_neg (by decide)]
    refine h.quiet hphase rfl hkept (fun j _ => .refl _ j) ?_
    simp only [work, hdelivered]
    have hnone : ([] : List P) <+: w.books.log.drop (w.books.base i + n) := List.nil_prefix
    exact sees_replay hnone hconfirmed
  | true =>
    simp only [if_true]
    obtain ⟨tail, htail⟩ := hfront
    have hdrop : w.books.log.drop (w.books.base i + (n + 1)) = rest ++ tail := by
      rw [← Nat.add_assoc, ← List.drop_drop, ← htail]
      rfl
    have hitem : w.books.log[w.books.base i + n]? = some item := by
      rw [← Nat.add_zero (w.books.base i + n), ← List.getElem?_drop, ← htail]
      rfl
    refine h.quiet hphase rfl ⟨hkept.log_eq, ?_, ?_⟩ (fun j _ => ?_) ?_
    · exact fun k p hk => List.mem_append_left _ (hkept.discarded k p hk)
    · intro k p hmem
      rcases List.mem_append.mp hmem with hold | hnew
      · exact hkept.truthful k p hold
      · obtain ⟨rfl, rfl⟩ := Prod.mk.inj (List.mem_singleton.mp hnew)
        exact hitem
    · exact ⟨List.prefix_rfl, rfl, List.subset_append_left _ _⟩
    · simp only [work, hdelivered, if_true]
      refine sees_replay ⟨tail, hdrop.symm⟩ fun m hm => ?_
      rcases Nat.lt_or_ge m n with hlt | hge
      · obtain ⟨p, hp⟩ := hconfirmed m hlt
        exact ⟨p, List.mem_append_left _ hp⟩
      · obtain rfl : m = n := by omega
        exact ⟨item, List.mem_append_right _ List.mem_cons_self⟩

/-- An undisturbed event keeps the books right. -/
theorem Tracked.next (hinverts : codec.Inverts) (h : Tracked codec w) (e : Event P)
    (hguard : Undisturbed w e) : Tracked codec ((audit codec).step w e).1 := by
  have hkept := h.kept
  cases e with
  | submit payload =>
    simp only [audit_step, record, BackgroundPublisher.next, submit]
    split
    · exact ⟨h.store, ⟨hkept.log_eq, hkept.discarded, hkept.truthful⟩,
        fun i phase hphase => (h.sees i phase hphase).mono
          ⟨List.prefix_rfl, rfl, List.Subset.refl _⟩⟩
    · exact ⟨h.store, hkept, h.sees⟩
  | work i published disk =>
    cases hphase : w.publisher.workers[i]? with
    | none =>
      have hrecord : record codec w.publisher w.books (.work i published disk) = w.books := by
        simp only [record, hphase]
      rw [audit_step, next_work_of_none hphase, hrecord]
      exact h
    | some phase =>
      simp only [Undisturbed, hphase] at hguard
      cases phase with
      | failed payload => exact tracked_failed hinverts h hphase hguard.1 hguard.2
      | discarding n => exact tracked_discarding h hphase hguard.1 hguard.2
      | peeking => exact tracked_peeking h hphase
      | replaying item rest n => exact tracked_replaying h hphase
      | waiting =>
        rw [audit_step, record_work hphase]
        refine h.quiet hphase ?_ hkept (fun j _ => .refl _ j) ?_ <;>
          · simp only [work]
            split <;> trivial
      | publishing payload =>
        rw [audit_step, record_work hphase, recordCall]
        refine h.quiet hphase rfl ?_ (fun j _ => ?_) ?_
        · split
          · exact ⟨hkept.log_eq, hkept.discarded, hkept.truthful⟩
          · exact hkept
        · split
          · exact ⟨List.prefix_rfl, rfl, List.Subset.refl _⟩
          · exact .refl _ j
        · simp only [work]
          split <;> trivial
      | checking =>
        rw [audit_step, record_work hphase]
        refine h.quiet hphase rfl hkept (fun j _ => .refl _ j) ?_
        simp only [work]
        split <;> trivial
      | dead =>
        rw [audit_step, record_work hphase]
        exact h.quiet hphase rfl hkept (fun j _ => .refl _ j) trivial

end steps

theorem tracked_init (codec : JsonCodec P) (maxQueueSize workerCount : ℤ)
    {store : DiskSpillStore} (hs : Sound store) :
    Tracked codec (init codec maxQueueSize workerCount store) := by
  refine ⟨⟨store, rfl, hs⟩, ⟨rfl, fun k p hk => ?_, fun k p hk => ?_⟩, fun i phase hphase => ?_⟩
  · simp [init] at hk
  · simp [init] at hk
  · obtain rfl : phase = .waiting := List.eq_of_mem_replicate (List.mem_of_getElem? hphase)
    trivial

/-- Whatever the number of workers: in a run of undisturbed events every entry
that leaves the file is trimmed or was delivered. -/
theorem kept_of_undisturbed (codec : JsonCodec P) (hinverts : codec.Inverts)
    (maxQueueSize workerCount : ℤ) {store : DiskSpillStore} (hs : Sound store)
    (es : List (Event P))
    (hguard : (audit codec).Guarded Undisturbed (init codec maxQueueSize workerCount store) es) :
    (audit codec).Always (fun w => w.books.Kept (pendingOf codec w.publisher))
      (init codec maxQueueSize workerCount store) es := by
  have hall := Machine.always_of_guarded (audit codec)
    (fun w e (h : Tracked codec w) hg => h.next hinverts e hg)
    (tracked_init codec maxQueueSize workerCount hs) hguard
  rw [Machine.always_iff] at hall ⊢
  exact fun pre suf hsplit => (hall pre suf hsplit).kept

/-- A call on a disk that works. -/
def call (i : ℕ) (published : Published) : Event ℕ := .work i published .working

/-- The first worker takes a payload, fails to publish it and spills it. -/
def spillOne (id : ℕ) : List (Event ℕ) :=
  .submit id :: List.replicate 3 (call 0 .raised)

/-- It delivers the next one, finds the spill and replays one entry. -/
def replayOne : List (Event ℕ) :=
  [.submit 3, call 0 .raised, call 0 (.returned true), call 0 .raised, call 0 .raised,
    call 0 (.returned true), call 0 .raised, call 0 .raised]

theorem sound_missing : Sound ⟨2000, 0, none, by decide⟩ := ⟨trivial, rfl⟩

theorem kept_of_undisturbed_replayOne :
    (audit idCodec).Always (fun w => w.books.Kept (pendingOf idCodec w.publisher))
      (init idCodec 512 2 ⟨2000, 0, none, by decide⟩) (spillOne 1 ++ spillOne 2 ++ replayOne) :=
  kept_of_undisturbed idCodec idCodec_lawful.inverts 512 2 sound_missing _ (by decide +kernel)

/-- Two workers peek at the same two entries; each delivers the first and fails
on the second, and each discards one entry. -/
def overlappingReplays : List (Event ℕ) :=
  spillOne 1 ++ spillOne 2 ++ [.submit 3, .submit 4, call 0 .raised, call 1 .raised,
    call 0 (.returned true), call 1 (.returned true), call 0 .raised, call 1 .raised,
    call 0 .raised, call 1 .raised, call 0 (.returned true), call 0 .raised,
    call 1 (.returned true), call 1 .raised, call 0 .raised, call 1 .raised]

/-- The second entry is discarded, and no `publish` call has returned a true
value for it. -/
theorem overlappingReplays_lose :
    let w := (audit idCodec).exec (init idCodec 512 2 ⟨2000, 0, none, by decide⟩)
      overlappingReplays
    w.books.log = [1, 2] ∧ w.books.gone = [(1, .discarded), (2, .discarded)] ∧
      w.books.delivered = [3, 4, 1, 1] ∧ ¬ w.books.Kept (pendingOf idCodec w.publisher) := by
  intro w
  have hgone : w.books.gone = [(1, .discarded), (2, .discarded)] := by decide +kernel
  have hconfirmed : w.books.confirmed = [(0, 1), (0, 1)] := by decide +kernel
  refine ⟨by decide +kernel, hgone, by decide +kernel, fun hkept => ?_⟩
  have hmem := hkept.discarded 1 2 (by rw [hgone]; rfl)
  rw [hconfirmed] at hmem
  exact absurd hmem (by decide)

end Audited

end SmartIDS.Forwarding
