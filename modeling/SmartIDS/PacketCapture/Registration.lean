import SmartIDS.PacketCapture.SavedState
set_option autoImplicit false

/-!
# Packet capture: the registration of the engine

`registration_client.run_registration` with its `RegistrationServer`.  Three threads
share the server: the one that handles requests, the timer, and the one that waits
for the result and saves it.  A step is what one of them does between two points at
which the others may come in; a run is any interleaving of their steps, and an event
whose thread is not at that point is none.  The saving, with the load of what was saved and
the return, is one step: how far the save comes is part of it.
-/

namespace SmartIDS.PacketCapture

open SmartIDS.Foundation SmartIDS.Python SmartIDS.ResponseEngine

/-! ## A request -/

/-- A `POST`; `body` is what stands in the stream. -/
structure Post where
  path : String
  contentLength : Option String
  body : ByteArray

namespace Post

/-- `self.path.split("?", 1)[0].rstrip("/")`. -/
def route (post : Post) : String :=
  String.ofList ((post.path.toList.takeWhile (· != '?')).rdropWhile (· == '/'))

/-- `self.headers.get("Content-Length", "0") or "0"`. -/
def lengthText (post : Post) : String :=
  match post.contentLength with
  | none => "0"
  | some text => if text = "" then "0" else text

/-- `raw_body`; a `Content-Length` that is not a number raises. -/
def rawBody (post : Post) : Except PyError ByteArray :=
  match intLiteral? post.lengthText with
  | none => .error .valueError
  | some n => .ok (if 0 < n then post.body.extract 0 n.toNat else .empty)

/-- The class `ValueError` and the classes below it. -/
def isValueError : PyError → Bool
  | .valueError => true
  | .jsonDecodeError => true
  | .unicodeDecodeError => true
  | _ => false

/-- `raw_body.decode("utf-8")` and `json.loads`. -/
def decodeBody (loads : JsonLoads) (raw : ByteArray) : Except PyError Json :=
  match String.fromUTF8? raw with
  | none => .error .unicodeDecodeError
  | some text => loads text

/-- `payload`: `None` where there is no body or it is not JSON. -/
def payload (loads : JsonLoads) (post : Post) : Except PyError (Option Json) := do
  let raw ← post.rawBody
  if raw.size = 0 then return none
  match decodeBody loads raw with
  | .ok payload => return some payload
  | .error e => if isValueError e then return none else .error e

/-- `do_POST` up to the response: the dictionary it accepts, if it neither rejects the
request nor raises. -/
def accepted (loads : JsonLoads) (registrationId : String) (post : Post) : Option JsonObject :=
  if post.route ≠ "/complete" then none
  else
    match post.payload loads with
    | .ok (some (.obj entries)) =>
      match JsonObject.getD entries "registration_id" .null with
      | .str id => if id = registrationId then some entries else none
      | _ => none
    | _ => none

end Post

/-! ## Saving the result -/

/-- `_persist_result` up to the save: `None` where there is no credential. -/
def engineConfig (repr : Json → String) (fallbackBackendUrl : String) (result : JsonObject) :
    Except PyError (Option EngineConfig) :=
  let engineId := strip (str repr (JsonObject.getD result "engine_id" (.str "")))
  let engineSecret := strip (str repr (JsonObject.getD result "engine_secret" (.str "")))
  let backendUrl := JsonObject.getD result "backend_url" .null
  let resolvedBackendUrl :=
    strip (str repr (if backendUrl.truthy then backendUrl else .str fallbackBackendUrl))
  if engineId = "" ∨ engineSecret = "" then .ok none
  else
    match (JsonObject.getD result "heartbeat_interval_seconds" (.int 30)).toInt with
    | .ok n => .ok (some ⟨engineId, engineSecret, resolvedBackendUrl, n⟩)
    | .error .typeError => .ok (some ⟨engineId, engineSecret, resolvedBackendUrl, 30⟩)
    | .error .valueError => .ok (some ⟨engineId, engineSecret, resolvedBackendUrl, 30⟩)
    | .error e => .error e

/-- What a registration is run with. -/
structure RegistrationEnv where
  floats : FloatText
  /-- What the recursion limit leaves the encoder and the decoder. -/
  depth : ℕ
  repr : Json → String
  registrationId : String
  backendUrl : String
  depth_pos : 0 < depth

namespace RegistrationEnv

variable (env : RegistrationEnv)

/-- `json.loads`. -/
abbrev loads : JsonLoads := SmartIDS.Python.loads env.floats env.depth

/-- `_persist_result`. -/
def persistResult (result : JsonObject) (how : Replacing ByteArray) :
    Effect PyError (Renamed ByteArray) (Option JsonObject) := do
  match ← Effect.ofExcept (engineConfig env.repr env.backendUrl result) with
  | none => return none
  | some config =>
    EngineLocalConfig.save env.floats env.depth config how
    let disk ← Effect.get
    Effect.ofExcept (EngineLocalConfig.load env.loads disk.file)

end RegistrationEnv

/-! ## The threads -/

/-- The thread of `serve_forever`: what it does next. -/
inductive HttpPhase where
  | serving
  /-- the `200` response -/
  | responding
  /-- `_done.set()` -/
  | notifying
  /-- `shutdown()` -/
  | stopping
  | stopped
  deriving DecidableEq

/-- The timer. -/
inductive TimerPhase where
  | armed
  | cancelled
  /-- behind `_done.is_set()`, in front of `_done.set()` -/
  | expiring
  /-- `shutdown()` -/
  | stopping
  | expired
  /-- `_done` was set before it fired -/
  | idle
  deriving DecidableEq

/-- The thread of `run_registration`. -/
inductive ClientPhase where
  /-- the constructor and `server.start()` -/
  | starting
  /-- `_post_register_init` -/
  | initialising
  /-- `_done.wait` -/
  | waiting
  /-- `return self.result` -/
  | woken
  | persisting (result : Option JsonObject)
  | finished (outcome : Except PyError (Option JsonObject))

/-- The server, the threads and the disk. -/
structure Registration where
  result : Option JsonObject
  done : Bool
  shutdownStarted : Bool
  http : HttpPhase
  timer : TimerPhase
  client : ClientPhase
  disk : Renamed ByteArray

/-- What becomes of the server at the start. -/
inductive Starting where
  | bound
  /-- Its constructor raises, outside the `try`, or `start` raises no `OSError`. -/
  | refused (e : PyError)
  /-- `start` raises an `OSError`. -/
  | failed

/-- What a thread does. -/
inductive RegistrationEvent where
  /-- `do_POST` up to the response -/
  | post (post : Post)
  /-- the response is sent, or its socket is closed -/
  | respond (sent : Bool)
  | notify
  | stopAfterPost
  /-- `serve_forever` sees the shutdown request -/
  | stopServing
  /-- the timer fires -/
  | expire
  | expireSet
  | expireStop
  | start (how : Starting)
  /-- what `_post_register_init` returns, or an exception it does not catch -/
  | init (acknowledged : Except PyError Bool)
  /-- `_done.wait` returns as the event is set -/
  | wake
  /-- `_done.wait` times out -/
  | giveUp
  | read
  | persist (how : Replacing ByteArray)

namespace Registration

/-- Before `server.start()`. -/
def init (disk : Renamed ByteArray) : Registration where
  result := none
  done := false
  shutdownStarted := false
  http := .serving
  timer := .armed
  client := .starting
  disk := disk

/-- `shutdown()`: a timer that has not fired is cancelled. -/
def shutdown (r : Registration) : Registration :=
  if r.shutdownStarted then r
  else
    { r with
      shutdownStarted := true
      timer := if r.timer = .armed then .cancelled else r.timer }

/-- The client returns or raises; `finally` shuts the server down. -/
def finish (r : Registration) (outcome : Except PyError (Option JsonObject)) : Registration :=
  { r.shutdown with client := .finished outcome }

/-- The server has been started. -/
def started (r : Registration) : Bool :=
  match r.client with
  | .starting => false
  | .finished _ => r.shutdownStarted
  | _ => true

/-! ### The thread of the server -/

/-- `do_POST` up to the response. -/
def post (env : RegistrationEnv) (r : Registration) (post : Post) : Registration :=
  if r.started ∧ r.http = .serving then
    match post.accepted env.loads env.registrationId with
    | some entries => { r with result := some entries, http := .responding }
    | none => r
  else r

def respond (r : Registration) (sent : Bool) : Registration :=
  if r.http = .responding then { r with http := if sent then .notifying else .serving } else r

def notify (r : Registration) : Registration :=
  if r.http = .notifying then { r with done := true, http := .stopping } else r

def stopAfterPost (r : Registration) : Registration :=
  if r.http = .stopping then { r.shutdown with http := .serving } else r

/-- `serve_forever` returns. -/
def stopServing (r : Registration) : Registration :=
  if r.http = .serving ∧ r.shutdownStarted then { r with http := .stopped } else r

/-! ### The timer: `_on_timeout` -/

def expire (r : Registration) : Registration :=
  if r.started ∧ r.timer = .armed then { r with timer := if r.done then .idle else .expiring }
  else r

def expireSet (r : Registration) : Registration :=
  if r.timer = .expiring then { r with done := true, timer := .stopping } else r

def expireStop (r : Registration) : Registration :=
  if r.timer = .stopping then { r.shutdown with timer := .expired } else r

/-! ### The client: `run_registration` -/

def start (r : Registration) (how : Starting) : Registration :=
  match r.client, how with
  | .starting, .bound => { r with client := .initialising }
  | .starting, .refused e => { r with client := .finished (.error e) }
  | .starting, .failed => { r with client := .finished (.ok none) }
  | _, _ => r

def initialise (r : Registration) (acknowledged : Except PyError Bool) : Registration :=
  match r.client, acknowledged with
  | .initialising, .ok true => { r with client := .waiting }
  | .initialising, .ok false => r.finish (.ok none)
  | .initialising, .error e => r.finish (.error e)
  | _, _ => r

def wake (r : Registration) : Registration :=
  match r.client with
  | .waiting => if r.done then { r with client := .woken } else r
  | _ => r

def giveUp (r : Registration) : Registration :=
  match r.client with
  | .waiting => { r with client := .woken }
  | _ => r

def read (r : Registration) : Registration :=
  match r.client with
  | .woken => { r with client := .persisting r.result }
  | _ => r

def persist (env : RegistrationEnv) (r : Registration) (how : Replacing ByteArray) :
    Registration :=
  match r.client with
  | .persisting none => r.finish (.ok none)
  | .persisting (some result) =>
    if result.isEmpty then r.finish (.ok none)
    else
      let saved := env.persistResult result how r.disk
      { r with disk := saved.2 }.finish saved.1
  | _ => r

variable (env : RegistrationEnv)

/-- One step. -/
def next (r : Registration) : RegistrationEvent → Registration
  | .post post => r.post env post
  | .respond sent => r.respond sent
  | .notify => r.notify
  | .stopAfterPost => r.stopAfterPost
  | .stopServing => r.stopServing
  | .expire => r.expire
  | .expireSet => r.expireSet
  | .expireStop => r.expireStop
  | .start how => r.start how
  | .init acknowledged => r.initialise acknowledged
  | .wake => r.wake
  | .giveUp => r.giveUp
  | .read => r.read
  | .persist how => r.persist env how

/-- A run of the registration. -/
def run : Machine Registration RegistrationEvent Unit where
  step r e := (r.next env e, ())

/-! ## Any interleaving -/

/-- A request was accepted with this dictionary. -/
def Accepted (es : List RegistrationEvent) (entries : JsonObject) : Prop :=
  ∃ post, .post post ∈ es ∧ post.accepted env.loads env.registrationId = some entries

/-- The timer fired, or the wait timed out. -/
def TimedOut (es : List RegistrationEvent) : Prop := .expire ∈ es ∨ .giveUp ∈ es

/-- What a client that is finished has done to the disk. -/
def Settled (disk : Renamed ByteArray) (es : List RegistrationEvent)
    (outcome : Except PyError (Option JsonObject)) (disk' : Renamed ByteArray) : Prop :=
  (disk' = disk ∧ (outcome = .ok none ∨ ∃ e, outcome = .error e)) ∨
    ∃ entries how, Accepted env es entries ∧ (outcome, disk') = env.persistResult entries how disk

/-- What the client knows, and what it has done, with the server's result and the disk as
they are. -/
def ClientOk (disk : Renamed ByteArray) (es : List RegistrationEvent)
    (result : Option JsonObject) (disk' : Renamed ByteArray) : ClientPhase → Prop
  | .starting => disk' = disk
  | .initialising => disk' = disk
  | .waiting => disk' = disk
  | .woken => disk' = disk ∧ (result.isSome ∨ TimedOut es)
  | .persisting none => disk' = disk ∧ TimedOut es
  | .persisting (some entries) => disk' = disk ∧ Accepted env es entries
  | .finished outcome => Settled env disk es outcome disk'

/-- What holds between any two steps. -/
structure Sound (disk : Renamed ByteArray) (es : List RegistrationEvent) (r : Registration) :
    Prop where
  accepted : ∀ entries, r.result = some entries → Accepted env es entries
  handling : r.http = .responding ∨ r.http = .notifying ∨ r.http = .stopping → r.result.isSome
  done : r.done = true → r.result.isSome ∨ TimedOut es
  timer : r.timer = .expiring ∨ r.timer = .stopping → TimedOut es
  client : ClientOk env disk es r.result r.disk r.client

section sound

variable {env} {disk : Renamed ByteArray} {es : List RegistrationEvent} {r : Registration}

theorem Accepted.mono {entries : JsonObject} (h : Accepted env es entries)
    (e : RegistrationEvent) : Accepted env (es ++ [e]) entries := by
  obtain ⟨post, hmem, hpost⟩ := h
  exact ⟨post, List.mem_append_left _ hmem, hpost⟩

/-- A dictionary is accepted under the id of the registration only. -/
theorem Accepted.names {entries : JsonObject} (h : Accepted env es entries) :
    JsonObject.getD entries "registration_id" .null = .str env.registrationId := by
  obtain ⟨post, -, hpost⟩ := h
  unfold Post.accepted at hpost
  split at hpost
  · simp at hpost
  · split at hpost
    · split at hpost
      · next id hid =>
        split at hpost
        · next heq =>
          obtain rfl := Option.some.inj hpost
          rw [hid, heq]
        · simp at hpost
      · simp at hpost
    · simp at hpost

theorem TimedOut.mono (h : TimedOut es) (e : RegistrationEvent) : TimedOut (es ++ [e]) :=
  h.imp (List.mem_append_left _) (List.mem_append_left _)

theorem ClientOk.mono {result : Option JsonObject} {disk' : Renamed ByteArray}
    {client : ClientPhase} (h : ClientOk env disk es result disk' client)
    (e : RegistrationEvent) : ClientOk env disk (es ++ [e]) result disk' client := by
  cases client with
  | starting => exact h
  | initialising => exact h
  | waiting => exact h
  | woken => exact ⟨h.1, h.2.imp_right fun ht => ht.mono e⟩
  | persisting entries =>
    cases entries with
    | none => exact ⟨h.1, h.2.mono e⟩
    | some entries => exact ⟨h.1, h.2.mono e⟩
  | finished outcome =>
    rcases h with h | ⟨entries, how, haccepted, heq⟩
    · exact Or.inl h
    · exact Or.inr ⟨entries, how, haccepted.mono e, heq⟩

/-- Only a client that is finished has touched the disk. -/
theorem ClientOk.disk_eq {result : Option JsonObject} {disk' : Renamed ByteArray}
    {client : ClientPhase} (h : ClientOk env disk es result disk' client)
    (hunfinished : ∀ outcome, client ≠ .finished outcome) : disk' = disk := by
  cases client with
  | finished outcome => exact absurd rfl (hunfinished outcome)
  | persisting result => cases result <;> exact h.1
  | woken => exact h.1
  | _ => exact h

/-- A client that waits for a result is not disturbed by one that comes. -/
theorem ClientOk.of_result {result result' : Option JsonObject} {disk' : Renamed ByteArray}
    {client : ClientPhase} (h : ClientOk env disk es result disk' client)
    (hresult : result.isSome → result'.isSome) :
    ClientOk env disk es result' disk' client := by
  cases client with
  | woken => exact ⟨h.1, h.2.imp_left hresult⟩
  | persisting entries => cases entries <;> exact h
  | _ => exact h

theorem Sound.mono (h : Sound env disk es r) (e : RegistrationEvent) :
    Sound env disk (es ++ [e]) r where
  accepted entries hentries := (h.accepted entries hentries).mono e
  handling := h.handling
  done hdone := (h.done hdone).imp_right fun ht => ht.mono e
  timer htimer := (h.timer htimer).mono e
  client := h.client.mono e

/-- Shutting the server down changes nothing the others rely on. -/
theorem Sound.shutdown (h : Sound env disk es r) : Sound env disk es r.shutdown := by
  rw [Registration.shutdown]
  split_ifs with hstarted harmed
  · exact h
  · exact ⟨h.accepted, h.handling, h.done, fun htimer => by simp at htimer, h.client⟩
  · exact ⟨h.accepted, h.handling, h.done, h.timer, h.client⟩

/-- The client is finished, with what it has done to the disk. -/
theorem Sound.finish (h : Sound env disk es r) {outcome : Except PyError (Option JsonObject)}
    {disk' : Renamed ByteArray} (hsettled : Settled env disk es outcome disk')
    {client : ClientPhase} :
    Sound env disk es ({ r with client := client, disk := disk' }.finish outcome) := by
  have hs := h.shutdown
  rw [Registration.shutdown] at hs
  rw [Registration.finish, Registration.shutdown]
  split_ifs at hs ⊢
  all_goals exact ⟨hs.accepted, hs.handling, hs.done, hs.timer, hsettled⟩

/-! ### The thread of the server -/

theorem Sound.post {post : Post} (h : Sound env disk es r) (hmem : .post post ∈ es) :
    Sound env disk es (r.post env post) := by
  rw [Registration.post]
  split_ifs with hserving
  · cases haccepted : post.accepted env.loads env.registrationId with
    | none => exact h
    | some entries =>
      refine ⟨?_, fun _ => rfl, fun _ => Or.inl rfl, h.timer, h.client.of_result fun _ => rfl⟩
      intro entries' heq
      obtain rfl := Option.some.inj heq
      exact ⟨post, hmem, haccepted⟩
  · exact h

theorem Sound.respond (h : Sound env disk es r) (sent : Bool) :
    Sound env disk es (r.respond sent) := by
  rw [Registration.respond]
  split_ifs with hhttp hsent
  · exact ⟨h.accepted, fun _ => h.handling (Or.inl hhttp), h.done, h.timer, h.client⟩
  · exact ⟨h.accepted, fun _ => h.handling (Or.inl hhttp), h.done, h.timer, h.client⟩
  · exact h

theorem Sound.notify (h : Sound env disk es r) : Sound env disk es r.notify := by
  rw [Registration.notify]
  split_ifs with hhttp
  · have hsome := h.handling (Or.inr (Or.inl hhttp))
    exact ⟨h.accepted, fun _ => hsome, fun _ => Or.inl hsome, h.timer, h.client⟩
  · exact h

theorem Sound.stopAfterPost (h : Sound env disk es r) :
    Sound env disk es r.stopAfterPost := by
  rw [Registration.stopAfterPost]
  split_ifs with hhttp
  · have hs := h.shutdown
    exact ⟨hs.accepted, fun hserving => by simp at hserving, hs.done, hs.timer, hs.client⟩
  · exact h

theorem Sound.stopServing (h : Sound env disk es r) : Sound env disk es r.stopServing := by
  rw [Registration.stopServing]
  split_ifs with hserving
  · exact ⟨h.accepted, fun hstopped => by simp at hstopped, h.done, h.timer, h.client⟩
  · exact h

/-! ### The timer -/

theorem Sound.expire (h : Sound env disk es r) (hmem : .expire ∈ es) :
    Sound env disk es r.expire := by
  rw [Registration.expire]
  split_ifs with harmed hdone
  · exact ⟨h.accepted, h.handling, h.done, fun _ => Or.inl hmem, h.client⟩
  · exact ⟨h.accepted, h.handling, h.done, fun _ => Or.inl hmem, h.client⟩
  · exact h

theorem Sound.expireSet (h : Sound env disk es r) : Sound env disk es r.expireSet := by
  rw [Registration.expireSet]
  split_ifs with hexpiring
  · have hout := h.timer (Or.inl hexpiring)
    exact ⟨h.accepted, h.handling, fun _ => Or.inr hout, fun _ => hout, h.client⟩
  · exact h

theorem Sound.expireStop (h : Sound env disk es r) : Sound env disk es r.expireStop := by
  rw [Registration.expireStop]
  split_ifs with hstopping
  · have hs := h.shutdown
    exact ⟨hs.accepted, hs.handling, hs.done, fun htimer => by simp at htimer, hs.client⟩
  · exact h

/-! ### The client -/

/-- A step of the client alone. -/
theorem Sound.of_client (h : Sound env disk es r) (client : ClientPhase)
    (hclient : ClientOk env disk es r.result r.disk client) :
    Sound env disk es { r with client := client } :=
  ⟨h.accepted, h.handling, h.done, h.timer, hclient⟩

theorem Sound.start (h : Sound env disk es r) (how : Starting) :
    Sound env disk es (r.start how) := by
  have hc := h.client
  unfold Registration.start
  cases hclient : r.client with
  | starting =>
    rw [hclient] at hc
    cases how with
    | bound => exact h.of_client .initialising hc
    | refused e => exact h.of_client _ (Or.inl ⟨hc, Or.inr ⟨e, rfl⟩⟩)
    | failed => exact h.of_client _ (Or.inl ⟨hc, Or.inl rfl⟩)
  | _ => exact h

theorem Sound.initialise (h : Sound env disk es r) (acknowledged : Except PyError Bool) :
    Sound env disk es (r.initialise acknowledged) := by
  have hc := h.client
  unfold Registration.initialise
  cases hclient : r.client with
  | initialising =>
    rw [hclient] at hc
    cases acknowledged with
    | ok acknowledged =>
      cases acknowledged with
      | true => exact h.of_client .waiting hc
      | false => exact h.finish (Or.inl ⟨hc, Or.inl rfl⟩)
    | error e => exact h.finish (Or.inl ⟨hc, Or.inr ⟨e, rfl⟩⟩)
  | _ => exact h

theorem Sound.wake (h : Sound env disk es r) : Sound env disk es r.wake := by
  have hc := h.client
  unfold Registration.wake
  cases hclient : r.client with
  | waiting =>
    rw [hclient] at hc
    dsimp only
    split_ifs with hdone
    · exact h.of_client .woken ⟨hc, h.done hdone⟩
    · exact h
  | _ => exact h

theorem Sound.giveUp (h : Sound env disk es r) (hmem : .giveUp ∈ es) :
    Sound env disk es r.giveUp := by
  have hc := h.client
  unfold Registration.giveUp
  cases hclient : r.client with
  | waiting =>
    rw [hclient] at hc
    exact h.of_client .woken ⟨hc, Or.inr (Or.inr hmem)⟩
  | _ => exact h

theorem Sound.read (h : Sound env disk es r) : Sound env disk es r.read := by
  have hc := h.client
  unfold Registration.read
  cases hclient : r.client with
  | woken =>
    rw [hclient] at hc
    refine h.of_client (.persisting r.result) ?_
    cases hresult : r.result with
    | none => exact ⟨hc.1, hc.2.resolve_left (by simp [hresult])⟩
    | some entries => exact ⟨hc.1, h.accepted entries hresult⟩
  | _ => exact h

theorem Sound.persist (h : Sound env disk es r) (how : Replacing ByteArray) :
    Sound env disk es (r.persist env how) := by
  have hc := h.client
  unfold Registration.persist
  cases hclient : r.client with
  | persisting entries =>
    rw [hclient] at hc
    cases entries with
    | none => exact h.finish (Or.inl ⟨hc.1, Or.inl rfl⟩)
    | some entries =>
      dsimp only
      split_ifs with hempty
      · exact h.finish (Or.inl ⟨hc.1, Or.inl rfl⟩)
      · have hsettled : Settled env disk es (env.persistResult entries how r.disk).1
            (env.persistResult entries how r.disk).2 :=
          Or.inr ⟨entries, how, hc.2, by rw [hc.1]⟩
        exact h.finish hsettled
  | _ => exact h

theorem Sound.step {e : RegistrationEvent} (h : Sound env disk es r) (hmem : e ∈ es) :
    Sound env disk es (r.next env e) := by
  cases e with
  | post post => exact h.post hmem
  | respond sent => exact h.respond sent
  | notify => exact h.notify
  | stopAfterPost => exact h.stopAfterPost
  | stopServing => exact h.stopServing
  | expire => exact h.expire hmem
  | expireSet => exact h.expireSet
  | expireStop => exact h.expireStop
  | start how => exact h.start how
  | init acknowledged => exact h.initialise acknowledged
  | wake => exact h.wake
  | giveUp => exact h.giveUp hmem
  | read => exact h.read
  | persist how => exact h.persist how

theorem sound_init (disk : Renamed ByteArray) : Sound env disk [] (Registration.init disk) where
  accepted _ h := by simp [Registration.init] at h
  handling h := by simp [Registration.init] at h
  done h := by simp [Registration.init] at h
  timer h := by simp [Registration.init] at h
  client := rfl

theorem sound_exec (disk : Renamed ByteArray) (es : List RegistrationEvent) :
    Sound env disk es ((run env).exec (Registration.init disk) es) :=
  (run env).exec_history (sound_init disk)
    (fun _ e _ h => (h.mono e).step (List.mem_append_right _ List.mem_cons_self)) es

end sound

/-! ## What a registration comes to -/

/-- The credential of an accepted request is what a later start of the engine loads. -/
structure Registered (env : RegistrationEnv) (es : List RegistrationEvent) (config : EngineConfig)
    (disk : Renamed ByteArray) : Prop where
  accepted : ∃ entries, Accepted env es entries ∧
    JsonObject.getD entries "registration_id" .null = .str env.registrationId ∧
    engineConfig env.repr env.backendUrl entries = .ok (some config)
  hasFields : EngineLocalConfig.HasFields (EngineLocalConfig.payload config)
  loaded : EngineLocalConfig.load env.loads disk.file =
    .ok (some (EngineLocalConfig.payload config))

section persist

variable {env : RegistrationEnv} {result : JsonObject} {how : Replacing ByteArray}
  {disk disk' : Renamed ByteArray}

theorem persistResult_of_error {e : PyError}
    (h : engineConfig env.repr env.backendUrl result = .error e) :
    env.persistResult result how disk = (.error e, disk) := by
  unfold RegistrationEnv.persistResult
  rw [h]
  rfl

theorem persistResult_of_none (h : engineConfig env.repr env.backendUrl result = .ok none) :
    env.persistResult result how disk = (.ok none, disk) := by
  unfold RegistrationEnv.persistResult
  rw [h]
  rfl

/-- A credential that is saved is loaded again. -/
theorem persistResult_of_saved {config : EngineConfig}
    (h : engineConfig env.repr env.backendUrl result = .ok (some config))
    (hsave : EngineLocalConfig.save env.floats env.depth config how disk = (.ok (), disk')) :
    env.persistResult result how disk = (EngineLocalConfig.load env.loads disk'.file, disk') := by
  unfold RegistrationEnv.persistResult
  rw [h, Effect.bind_apply, Effect.ofExcept_apply]
  exact Effect.bind_of_ok hsave

theorem persistResult_of_unsaved {config : EngineConfig} {e : PyError}
    (h : engineConfig env.repr env.backendUrl result = .ok (some config))
    (hsave : EngineLocalConfig.save env.floats env.depth config how disk = (.error e, disk')) :
    env.persistResult result how disk = (.error e, disk') := by
  unfold RegistrationEnv.persistResult
  rw [h, Effect.bind_apply, Effect.ofExcept_apply]
  exact Effect.bind_of_error hsave

/-- A save writes the whole document, or leaves the file as it was. -/
theorem save_cases (env : RegistrationEnv) (config : EngineConfig) (how : Replacing ByteArray)
    (disk : Renamed ByteArray) :
    (∃ disk', EngineLocalConfig.save env.floats env.depth config how disk = (.ok (), disk') ∧
        EngineLocalConfig.load env.loads disk'.file =
          .ok (some (EngineLocalConfig.payload config))) ∨
      ∃ e disk', EngineLocalConfig.save env.floats env.depth config how disk = (.error e, disk') ∧
        disk'.file = disk.file := by
  unfold EngineLocalConfig.save
  rcases EngineLocalConfig.dumps_payload env.floats env.depth_pos config with
    ⟨-, -, line, hline⟩ | ⟨e, -, herror⟩
  · rcases file_saveJson hline how disk with ⟨-, hok, hfile⟩ | ⟨-, hfail, hfile⟩
    · refine Or.inl ⟨_, Prod.ext hok rfl, ?_⟩
      rw [hfile]
      exact EngineLocalConfig.load_of_dumps le_rfl hline
    · exact Or.inr ⟨_, _, Prod.ext hfail rfl, hfile⟩
  · exact Or.inr ⟨e, disk, saveJson_of_error herror how disk, rfl⟩

/-- Saving a result: all of it, or nothing that a load would see. -/
theorem persistResult_cases (env : RegistrationEnv) (result : JsonObject)
    (how : Replacing ByteArray) (disk : Renamed ByteArray) :
    ∃ outcome disk', env.persistResult result how disk = (outcome, disk') ∧
      ((∃ config, engineConfig env.repr env.backendUrl result = .ok (some config) ∧
          outcome = .ok (some (EngineLocalConfig.payload config)) ∧
          EngineLocalConfig.load env.loads disk'.file =
            .ok (some (EngineLocalConfig.payload config))) ∨
        (disk'.file = disk.file ∧ (outcome = .ok none ∨ ∃ e, outcome = .error e))) := by
  cases hconfig : engineConfig env.repr env.backendUrl result with
  | error e =>
    exact ⟨_, _, persistResult_of_error hconfig, Or.inr ⟨rfl, Or.inr ⟨e, rfl⟩⟩⟩
  | ok config =>
    cases config with
    | none => exact ⟨_, _, persistResult_of_none hconfig, Or.inr ⟨rfl, Or.inl rfl⟩⟩
    | some config =>
      rcases save_cases env config how disk with ⟨disk', hsave, hload⟩ | ⟨e, disk', hsave, hfile⟩
      · exact ⟨_, _, persistResult_of_saved hconfig hsave, Or.inl ⟨config, rfl, hload, hload⟩⟩
      · exact ⟨_, _, persistResult_of_unsaved hconfig hsave, Or.inr ⟨hfile, Or.inr ⟨e, rfl⟩⟩⟩

end persist

/-- What a client that is finished has done, in terms of the file and what a load makes of it. -/
theorem Settled.cases {env : RegistrationEnv} {disk disk' : Renamed ByteArray}
    {es : List RegistrationEvent} {outcome : Except PyError (Option JsonObject)}
    (h : Settled env disk es outcome disk') :
    (∃ config, outcome = .ok (some (EngineLocalConfig.payload config)) ∧
        Registered env es config disk') ∨
      (disk'.file = disk.file ∧ (outcome = .ok none ∨ ∃ e, outcome = .error e)) := by
  rcases h with ⟨rfl, hnone⟩ | ⟨entries, how, haccepted, heq⟩
  · exact Or.inr ⟨rfl, hnone⟩
  · obtain ⟨outcome', disk'', hpersist, hcases⟩ := persistResult_cases env entries how disk
    obtain ⟨rfl, rfl⟩ := Prod.mk.inj (heq.trans hpersist)
    refine hcases.imp_left ?_
    rintro ⟨config, hconfig, houtcome, hload⟩
    exact ⟨config, houtcome, ⟨entries, haccepted, haccepted.names, hconfig⟩,
      EngineLocalConfig.hasFields_payload config, hload⟩

/-- In every interleaving of the three threads: until the client is finished the disk
is as it was; a client that stops waiting although nothing timed out holds the
dictionary of an accepted request; and where it is finished, either the credential of
an accepted request is what a load now returns, and what the client returned, or the
configuration file is as it was. -/
theorem registration_authentic (env : RegistrationEnv) (disk : Renamed ByteArray)
    (es : List RegistrationEvent) :
    let r := (run env).exec (Registration.init disk) es
    ((∀ outcome, r.client ≠ .finished outcome) → r.disk = disk) ∧
    (∀ result, r.client = .persisting result → r.disk = disk ∧
      (¬ TimedOut es → ∃ entries, result = some entries ∧ Accepted env es entries)) ∧
    (∀ outcome, r.client = .finished outcome →
      (∃ config, outcome = .ok (some (EngineLocalConfig.payload config)) ∧
          Registered env es config r.disk) ∨
        (r.disk.file = disk.file ∧ (outcome = .ok none ∨ ∃ e, outcome = .error e))) := by
  have hclient := (show Sound env disk es _ from sound_exec disk es).client
  generalize (run env).exec (Registration.init disk) es = r at hclient
  refine ⟨hclient.disk_eq, ?_, ?_⟩
  · intro result hresult
    rw [hresult] at hclient
    cases result with
    | none => exact ⟨hclient.1, fun hnot => absurd hclient.2 hnot⟩
    | some entries => exact ⟨hclient.1, fun _ => ⟨entries, rfl, hclient.2⟩⟩
  · intro outcome houtcome
    rw [houtcome] at hclient
    exact hclient.cases

end Registration

end SmartIDS.PacketCapture
