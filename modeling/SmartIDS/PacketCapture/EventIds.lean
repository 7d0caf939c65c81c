import SmartIDS.PacketCapture.PacketProcessor
import SmartIDS.PacketCapture.RequestSigner
import SmartIDS.Python.IpAddressText
set_option autoImplicit false

/-!
# PacketCapture: session ids and event ids

`forwarding/contracts.py`, `PacketProcessor` and `SecondaryShadowEventPublisher` build
the ids of sessions and prediction events, each with its own copy of the format.  What is
hashed to an event id can be read back: its last colon starts the millisecond, its first
three end the session id, and the next one ends the event type, so that a label may have
colons in it.
-/

namespace SmartIDS.PacketCapture

open SmartIDS.Foundation SmartIDS.Python

/-- What the ids depend on besides their fields. -/
structure EventIdEnv where
  /-- The double nearest to a number. -/
  nearest : ℚ → ℚ
  /-- The digest of `hashlib.sha256`. -/
  sha256 : ByteArray → List UInt8

/-- `int(timestamp * 1000)`. -/
def EventIdEnv.millisecond (env : EventIdEnv) (timestamp : Time) : ℤ :=
  truncate (env.nearest (timestamp * 1000))

/-- `hashlib.sha256(raw.encode("utf-8")).hexdigest()[:32]`. -/
def EventIdEnv.hashed (env : EventIdEnv) (raw : String) : String :=
  String.ofList ((hexdigest (env.sha256 raw.toUTF8)).toList.take 32)

/-! ## The builders -/

namespace Contracts

/-- `_session_id`. -/
def sessionId (key : SessionKey) : String :=
  s!"{key.srcIp}:{portText key.srcPort}-{key.dstIp}:{portText key.dstPort}-{key.protocol}"

/-- `raw` in `_prediction_event_id`. -/
def predictionEventRaw (env : EventIdEnv) (sessionId eventType label : String)
    (timestamp : Time) : String :=
  s!"{sessionId}:{eventType}:{label}:{env.millisecond timestamp}"

/-- `_prediction_event_id`. -/
def predictionEventId (env : EventIdEnv) (sessionId eventType label : String)
    (timestamp : Time) : String :=
  env.hashed (predictionEventRaw env sessionId eventType label timestamp)

end Contracts

/-- `PacketProcessor._prediction_event_id`. -/
def PacketProcessor.predictionEventId (env : EventIdEnv) (sessionId eventType label : String)
    (timestamp : Time) : String :=
  env.hashed s!"{sessionId}:{eventType}:{label}:{env.millisecond timestamp}"

namespace SecondaryShadowEventPublisher

/-- `_prediction_event_id`. -/
def predictionEventId (env : EventIdEnv) (sessionId eventType label : String)
    (timestamp : Time) : String :=
  env.hashed s!"{sessionId}:{eventType}:{label}:{env.millisecond timestamp}"

end SecondaryShadowEventPublisher

/-! ## Addresses -/

/-- Four groups of digits with dots between them. -/
def IsDottedQuad (ip : String) : Prop :=
  (ip.toList.splitOn '.').length = 4 ∧
    ∀ group ∈ ip.toList.splitOn '.', group ≠ [] ∧ ∀ c ∈ group, c.isDigit = true

/-- An address has digits and dots in it, and nothing else. -/
theorem IsDottedQuad.lacks {ip : String} (h : IsDottedQuad ip) {c : Char}
    (hc : c.isDigit = false) (hdot : c ≠ '.') : Separated.Lacks c ip := by
  have hchars : ∀ d ∈ ip.toList, (d.isDigit || d == '.') = true :=
    IPAddress.forall_of_splitOn (x := '.') (by decide) fun group hgroup d hd => by
      rw [(h.2 group hgroup).2 d hd, Bool.true_or]
  intro hmem
  have hchar := hchars c hmem
  rw [hc, Bool.false_or, beq_iff_eq] at hchar
  exact hdot hchar

/-- What `ipaddress.IPv4Address` accepts. -/
theorem isDottedQuad_of_parseV4 {ip : String} (h : (IPAddress.parseV4 ip.toList).isSome) :
    IsDottedQuad ip := by
  unfold IPAddress.parseV4 at h
  dsimp only at h
  split at h
  · exact absurd h (by simp)
  · next hchecks =>
    simp only [Bool.or_eq_true, not_or, bne_iff_ne, ne_eq, not_not] at hchecks
    rw [Option.isSome_map] at h
    refine ⟨hchecks.2, fun group hgroup => ?_⟩
    have hoctet := IPAddress.isSome_of_mapM h group hgroup
    unfold IPAddress.parseOctet at hoctet
    split at hoctet
    · exact absurd hoctet (by simp)
    · next hdigits =>
      simp only [Bool.or_eq_true, not_or, List.isEmpty_iff, Bool.not_eq_true', Bool.not_eq_false]
        at hdigits
      obtain ⟨⟨⟨hne, hall⟩, -⟩, -⟩ := hdigits
      refine ⟨hne, fun c hc => ?_⟩
      have hdigit := List.all_eq_true.mp hall c hc
      unfold IPAddress.isAsciiDigit at hdigit
      unfold Char.isDigit
      exact hdigit

/-- The key of a session between IPv4 addresses. -/
structure SessionKey.IsIPv4 (key : SessionKey) : Prop where
  srcIp : IsDottedQuad key.srcIp
  dstIp : IsDottedQuad key.dstIp

namespace Contracts

/-! ## Reading an id back -/

theorem sessionId_inj {key key' : SessionKey} (hkey : key.IsIPv4) (hkey' : key'.IsIPv4)
    (h : sessionId key = sessionId key') : key = key' :=
  sessionKeyStr_inj (hkey.srcIp.lacks (by decide) (by decide))
    (hkey'.srcIp.lacks (by decide) (by decide)) h

/-- The middle of a session id has no colon. -/
theorem lacks_middle {key : SessionKey} (hkey : key.IsIPv4) :
    Separated.Lacks ':' (portText key.srcPort ++ "-" ++ key.dstIp) :=
  ((lacks_portText (by decide) (by decide) _).append (by decide)).append
    (hkey.dstIp.lacks (by decide) (by decide))

theorem lacks_end (key : SessionKey) :
    Separated.Lacks ':' (portText key.dstPort ++ "-" ++ toString key.protocol) :=
  ((lacks_portText (by decide) (by decide) _).append (by decide)).append
    (Separated.lacks_toString (by decide) _)

theorem sessionId_colon (key : SessionKey) (rest : String) :
    sessionId key ++ ":" ++ rest =
      key.srcIp ++ ":" ++ ((portText key.srcPort ++ "-" ++ key.dstIp) ++ ":" ++
        ((portText key.dstPort ++ "-" ++ toString key.protocol) ++ ":" ++ rest)) := by
  simp only [sessionId, String.append_assoc]
  rfl

/-- The third colon ends the session id. -/
theorem sessionId_inj_left {key key' : SessionKey} (hkey : key.IsIPv4) (hkey' : key'.IsIPv4)
    {rest rest' : String} (h : sessionId key ++ ":" ++ rest = sessionId key' ++ ":" ++ rest') :
    key = key' ∧ rest = rest' := by
  rw [sessionId_colon, sessionId_colon] at h
  obtain ⟨hsrc, h⟩ := Separated.inj_of_lacks_left rfl (hkey.srcIp.lacks (by decide) (by decide))
    (hkey'.srcIp.lacks (by decide) (by decide)) h
  obtain ⟨hmiddle, h⟩ :=
    Separated.inj_of_lacks_left rfl (lacks_middle hkey) (lacks_middle hkey') h
  obtain ⟨hend, hrest⟩ := Separated.inj_of_lacks_left rfl (lacks_end key) (lacks_end key') h
  refine ⟨sessionId_inj hkey hkey' ?_, hrest⟩
  have hsplit : ∀ k : SessionKey, sessionId k =
      k.srcIp ++ ":" ++ ((portText k.srcPort ++ "-" ++ k.dstIp) ++ ":" ++
        (portText k.dstPort ++ "-" ++ toString k.protocol)) := by
    intro k
    simp only [sessionId, String.append_assoc]
    rfl
  rw [hsplit, hsplit, hsrc, hmiddle, hend]

theorem predictionEventRaw_eq (env : EventIdEnv) (sessionId eventType label : String)
    (timestamp : Time) : predictionEventRaw env sessionId eventType label timestamp =
      sessionId ++ ":" ++ (eventType ++ ":" ++ label) ++ ":" ++
        toString (env.millisecond timestamp) := by
  simp only [predictionEventRaw, String.append_assoc]
  rfl

/-- What is hashed determines its fields: the millisecond is read from the right, the
others from the left. -/
theorem predictionEventRaw_inj (env : EventIdEnv) {key key' : SessionKey} (hkey : key.IsIPv4)
    (hkey' : key'.IsIPv4) {eventType eventType' : String}
    (htype : Separated.Lacks ':' eventType) (htype' : Separated.Lacks ':' eventType')
    {label label' : String} {timestamp timestamp' : Time}
    (h : predictionEventRaw env (sessionId key) eventType label timestamp =
      predictionEventRaw env (sessionId key') eventType' label' timestamp') :
    key = key' ∧ eventType = eventType' ∧ label = label' ∧
      env.millisecond timestamp = env.millisecond timestamp' := by
  rw [predictionEventRaw_eq, predictionEventRaw_eq] at h
  obtain ⟨hrest, hmillis⟩ := Separated.inj_of_lacks_right rfl
    (Separated.lacks_toString_int (by decide) (by decide) _)
    (Separated.lacks_toString_int (by decide) (by decide) _) h
  obtain ⟨hkeys, hrest⟩ := sessionId_inj_left hkey hkey' hrest
  obtain ⟨htypes, hlabels⟩ := Separated.inj_of_lacks_left rfl htype htype' hrest
  exact ⟨hkeys, htypes, hlabels, Separated.toString_int_inj hmillis⟩

/-- Ids are injective, and the three builders agree. -/
theorem event_identities_injective (env : EventIdEnv) {key key' : SessionKey}
    (hkey : key.IsIPv4) (hkey' : key'.IsIPv4) {eventType eventType' : String}
    (htype : Separated.Lacks ':' eventType) (htype' : Separated.Lacks ':' eventType')
    (label label' : String) (timestamp timestamp' : Time) :
    (sessionId key = sessionId key' → key = key') ∧
      (predictionEventRaw env (sessionId key) eventType label timestamp =
          predictionEventRaw env (sessionId key') eventType' label' timestamp' →
        key = key' ∧ eventType = eventType' ∧ label = label' ∧
          env.millisecond timestamp = env.millisecond timestamp') ∧
      (∀ key, sessionKeyStr key = sessionId key) ∧
      ∀ sessionId eventType label timestamp,
        PacketProcessor.predictionEventId env sessionId eventType label timestamp =
            predictionEventId env sessionId eventType label timestamp ∧
          SecondaryShadowEventPublisher.predictionEventId env sessionId eventType label timestamp =
            predictionEventId env sessionId eventType label timestamp :=
  ⟨sessionId_inj hkey hkey', predictionEventRaw_inj env hkey hkey' htype htype', fun _ => rfl,
    fun _ _ _ _ => ⟨rfl, rfl⟩⟩

/-- A session without ports, as of ICMP. -/
def pingKey : SessionKey := ⟨"10.0.0.1", "10.0.0.9", 1, none, none⟩

theorem event_identities_injective_ping :
    let env : EventIdEnv := ⟨id, fun _ => []⟩
    predictionEventRaw env (sessionId pingKey) "ml_live" "Web:XSS" 1700000000 ≠
      predictionEventRaw env (sessionId pingKey) "ml_live" "Web" 1700000000 := by
  intro env heq
  have hkey : pingKey.IsIPv4 :=
    ⟨isDottedQuad_of_parseV4 (by decide +kernel), isDottedQuad_of_parseV4 (by decide +kernel)⟩
  have hfields := (event_identities_injective env hkey hkey (by decide) (by decide) "Web:XSS" "Web"
    1700000000 1700000000).2.1 heq
  exact absurd hfields.2.2.1 (by decide)

end Contracts

end SmartIDS.PacketCapture
