import SmartIDS.PacketCapture.Contracts
import SmartIDS.ResponseEngine.BlockerSpec
set_option autoImplicit false

/-!
# PacketCapture: the ledger of blocks and the events about it

The backend knows the engine's blocks by the events published about them.  A
book is the ledger and the events side by side; it is truthful if the last event
about an address says `blocked` exactly when the ledger has an entry for it.
Granting and lifting a block with its event keeps a book truthful, and so does a
sweep that finds nothing to drop.
-/

namespace SmartIDS.PacketCapture

open SmartIDS.Foundation SmartIDS.Python SmartIDS.ResponseEngine

/-- The event grants or lifts a block of the address. -/
def BlockEvent.Concerns (event : BlockEvent) (ip : String) : Prop :=
  event.sourceIp = ip ∧ (event.actionTaken = "blocked" ∨ event.actionTaken = "unblocked")

instance (event : BlockEvent) (ip : String) : Decidable (event.Concerns ip) :=
  inferInstanceAs (Decidable (_ ∧ _))

/-- The action of the last event that grants or lifts a block of the address. -/
def lastAction (events : List BlockEvent) (ip : String) : Option String :=
  (events.filter fun event => event.Concerns ip).getLast?.map (·.actionTaken)

/-- `_blocked_until` and the published block events. -/
structure BlockBook where
  ledger : Dict String Time
  events : List BlockEvent

namespace BlockBook

/-- The last event about every address agrees with the ledger. -/
def Truthful (book : BlockBook) : Prop :=
  ∀ ip, lastAction book.events ip = some "blocked" ↔ ip ∈ book.ledger.keys

/-- Drop the deadlines that have passed, without a word. -/
def sweep (now : Time) (book : BlockBook) : BlockBook :=
  { book with ledger := book.ledger.filter fun e => now < e.2 }

/-- Write down a deadline and publish an event. -/
def grant (ip : String) (deadline : Time) (event : BlockEvent) (book : BlockBook) : BlockBook where
  ledger := book.ledger.set ip deadline
  events := book.events ++ [event]

/-- Drop a deadline and publish an event. -/
def lift (ip : String) (event : BlockEvent) (book : BlockBook) : BlockBook where
  ledger := book.ledger.erase ip
  events := book.events ++ [event]

theorem lastAction_concat (events : List BlockEvent) (event : BlockEvent) (ip : String) :
    lastAction (events ++ [event]) ip =
      if event.Concerns ip then some event.actionTaken else lastAction events ip := by
  unfold lastAction
  rw [List.filter_append]
  split_ifs with hconcerns
  · simp [hconcerns]
  · simp [hconcerns]

theorem Truthful.grant {book : BlockBook} (h : Truthful book) {ip : String} {event : BlockEvent}
    (hsource : event.sourceIp = ip) (haction : event.actionTaken = "blocked") (deadline : Time) :
    Truthful (book.grant ip deadline event) := by
  intro j
  show lastAction (book.events ++ [event]) j = _ ↔ j ∈ (book.ledger.set ip deadline).keys
  rw [lastAction_concat, Dict.mem_keys_set]
  rcases eq_or_ne j ip with rfl | hne
  · rw [if_pos ⟨hsource, Or.inl haction⟩, haction]
    exact iff_of_true rfl (Or.inl rfl)
  · rw [if_neg fun hconcerns => hne (hconcerns.1.symm.trans hsource), h j]
    exact ⟨Or.inr, fun hor => hor.resolve_left hne⟩

theorem Truthful.lift {book : BlockBook} (h : Truthful book) {ip : String} {event : BlockEvent}
    (hsource : event.sourceIp = ip) (haction : event.actionTaken = "unblocked") :
    Truthful (book.lift ip event) := by
  intro j
  show lastAction (book.events ++ [event]) j = _ ↔ j ∈ (book.ledger.erase ip).keys
  rw [lastAction_concat, Dict.mem_keys_erase]
  rcases eq_or_ne j ip with rfl | hne
  · rw [if_pos ⟨hsource, Or.inr haction⟩, haction]
    exact iff_of_false (by simp) fun hmem => hmem.2 rfl
  · rw [if_neg fun hconcerns => hne (hconcerns.1.symm.trans hsource), h j]
    exact ⟨fun hmem => ⟨hmem, hne⟩, fun hmem => hmem.1⟩

/-- An event about the watchlist. -/
theorem Truthful.publish {book : BlockBook} (h : Truthful book) {event : BlockEvent}
    (hother : ∀ ip, ¬ event.Concerns ip) :
    Truthful { book with events := book.events ++ [event] } := by
  intro j
  show lastAction (book.events ++ [event]) j = _ ↔ _
  rw [lastAction_concat, if_neg (hother j)]
  exact h j

/-- A new deadline for an address that has one. -/
theorem Truthful.renew {book : BlockBook} (h : Truthful book) {ip : String}
    (hmem : ip ∈ book.ledger.keys) (deadline : Time) :
    Truthful { book with ledger := book.ledger.set ip deadline } := by
  intro j
  show _ ↔ j ∈ (book.ledger.set ip deadline).keys
  rw [h j, Dict.mem_keys_set]
  constructor
  · exact Or.inr
  · rintro (rfl | hj)
    · exact hmem
    · exact hj

/-- A sweep before any deadline drops nothing. -/
theorem sweep_eq {now : Time} {book : BlockBook} (h : ∀ e ∈ book.ledger.entries, now < e.2) :
    book.sweep now = book := by
  have hledger : book.ledger.filter (fun e => now < e.2) = book.ledger := by
    apply Dict.ext
    exact List.filter_eq_self.mpr fun e he => decide_eq_true (h e he)
  rw [sweep, hledger]

end BlockBook

/-! ## Requests -/

/-- A call of `temp_block` for an address that is routable. -/
structure Request (Ω : Type) where
  host : Host Ω
  ip : String
  duration : ℤ

namespace Request

variable {Ω : Type}

/-- When the request sweeps the ledger. -/
def sweepTime (r : Request Ω) : Time := r.host.clock.expireTime

/-- The deadline it writes down if it is granted. -/
def deadline (r : Request Ω) : Time := r.host.clock.now + (max 1 r.duration : ℤ)

/-- What a request does to the book: nothing without a firewall; a sweep; or a
sweep and a block, which is announced. -/
inductive Answered (r : Request Ω) : BlockBook → BlockBook → Prop where
  | unasked (book : BlockBook) : Answered r book book
  | refused (book : BlockBook) : Answered r book (book.sweep r.sweepTime)
  | granted (book : BlockBook) {event : BlockEvent} (hsource : event.sourceIp = r.ip)
      (haction : event.actionTaken = "blocked") :
      Answered r book ((book.sweep r.sweepTime).grant r.ip r.deadline event)

/-- The requests one after the other. -/
inductive AllAnswered : List (Request Ω) → BlockBook → BlockBook → Prop where
  | nil (book : BlockBook) : AllAnswered [] book book
  | cons {r : Request Ω} {rs : List (Request Ω)} {book book' book'' : BlockBook}
      (hfirst : Answered r book book') (hrest : AllAnswered rs book' book'') :
      AllAnswered (r :: rs) book book''

theorem AllAnswered.append {rs rs' : List (Request Ω)} {book book' book'' : BlockBook}
    (h : AllAnswered rs book book') (h' : AllAnswered rs' book' book'') :
    AllAnswered (rs ++ rs') book book'' := by
  induction h with
  | nil book => exact h'
  | cons hfirst hrest ih => exact .cons hfirst (ih h')

theorem AllAnswered.single {r : Request Ω} {book book' : BlockBook} (h : Answered r book book') :
    AllAnswered [r] book book' := .cons h (.nil _)

/-- No deadline passes while the requests are made: neither one of the ledger nor
one that an earlier request may write down. -/
structure Undisturbed (rs : List (Request Ω)) (ledger : Dict String Time) : Prop where
  standing : ∀ r ∈ rs, ∀ e ∈ ledger.entries, r.sweepTime < e.2
  granted : rs.Pairwise fun r r' => r'.sweepTime < r.deadline

instance (rs : List (Request Ω)) (ledger : Dict String Time) :
    Decidable (Undisturbed rs ledger) :=
  decidable_of_iff (_ ∧ _) ⟨fun hall => ⟨hall.1, hall.2⟩, fun hall => ⟨hall.1, hall.2⟩⟩

theorem Answered.truthful {r : Request Ω} {rs : List (Request Ω)} {book book' : BlockBook}
    (h : Answered r book book') (htrue : book.Truthful)
    (hquiet : Undisturbed (r :: rs) book.ledger) :
    book'.Truthful ∧ Undisturbed rs book'.ledger := by
  obtain ⟨hlater, hpairs⟩ := List.pairwise_cons.mp hquiet.granted
  have hrest : Undisturbed rs book.ledger :=
    ⟨fun r' hr' => hquiet.standing r' (List.mem_cons_of_mem _ hr'), hpairs⟩
  have hsweep : book.sweep r.sweepTime = book :=
    BlockBook.sweep_eq (hquiet.standing r List.mem_cons_self)
  cases h with
  | unasked => exact ⟨htrue, hrest⟩
  | refused =>
    rw [hsweep]
    exact ⟨htrue, hrest⟩
  | granted hsource haction =>
    rw [hsweep]
    refine ⟨htrue.grant hsource haction _, ?_, hpairs⟩
    intro r' hr' e he
    rcases (Dict.mem_entries_set_iff _ _ _ _).mp he with rfl | ⟨hold, -⟩
    · exact hlater r' hr'
    · exact hrest.standing r' hr' e hold

/-- Undisturbed requests keep a book truthful. -/
theorem AllAnswered.truthful {rs : List (Request Ω)} {book book' : BlockBook}
    (h : AllAnswered rs book book') (htrue : book.Truthful)
    (hquiet : Undisturbed rs book.ledger) : book'.Truthful := by
  induction h with
  | nil book => exact htrue
  | cons hfirst hrest ih =>
    obtain ⟨hnext, hquiet'⟩ := hfirst.truthful htrue hquiet
    exact ih hnext hquiet'

end Request

end SmartIDS.PacketCapture
