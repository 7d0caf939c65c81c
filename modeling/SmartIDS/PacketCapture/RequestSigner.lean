import SmartIDS.Foundation.Separated
import SmartIDS.Python.Value
set_option autoImplicit false

/-!
# PacketCapture: signing of internal requests

`packet_capture/auth/request_signer.py`.  Five fields are joined by newlines, and
one of them, the path, may contain newlines itself.  The other four do not, so
the text is read from both ends: the method up to the first newline, and the
nonce, the time stamp and the digest behind the last three.  What is left is the
path.
-/

namespace SmartIDS.PacketCapture

open SmartIDS.Foundation SmartIDS.Foundation.Separated

/-! ## Hexadecimal digests -/

/-- The two digits of a byte. -/
def hexPair (b : UInt8) : List Char :=
  [Nat.digitChar (b.toNat / 16), Nat.digitChar (b.toNat % 16)]

/-- `hexdigest()` of a digest. -/
def hexdigest (digest : List UInt8) : String := String.ofList (digest.flatMap hexPair)

theorem digitChar_inj {m n : ℕ} (hm : m < 16) (hn : n < 16)
    (h : Nat.digitChar m = Nat.digitChar n) : m = n := by
  have hall : ∀ m : Fin 16, ∀ n : Fin 16,
      Nat.digitChar m = Nat.digitChar n → m = n := by decide
  exact congrArg Fin.val (hall ⟨m, hm⟩ ⟨n, hn⟩ h)

theorem hexPair_inj {b c : UInt8} (h : hexPair b = hexPair c) : b = c := by
  have hb := b.toNat_lt
  have hc := c.toNat_lt
  obtain ⟨hhigh, hlow⟩ := List.cons.inj h
  have hquot := digitChar_inj (by omega) (by omega) hhigh
  have hrem := digitChar_inj (by omega) (by omega) (List.cons.inj hlow).1
  apply UInt8.toNat_inj.mp
  omega

theorem flatMap_hexPair_inj {d e : List UInt8} (h : d.flatMap hexPair = e.flatMap hexPair) :
    d = e := by
  induction d generalizing e with
  | nil =>
    cases e with
    | nil => rfl
    | cons c e => cases h
  | cons b d ih =>
    cases e with
    | nil => cases h
    | cons c e =>
      rw [List.flatMap_cons, List.flatMap_cons] at h
      obtain ⟨hpair, hrest⟩ := List.append_inj h rfl
      rw [hexPair_inj hpair, ih hrest]

/-- A digest can be read back from its digits. -/
theorem hexdigest_inj {d e : List UInt8} (h : hexdigest d = hexdigest e) : d = e :=
  flatMap_hexPair_inj (String.ofList_injective h)

theorem lacks_hexdigest (digest : List UInt8) : Lacks '\n' (hexdigest digest) := by
  have hdigit : ∀ n : Fin 16, '\n' ≠ Nat.digitChar n := by decide
  unfold Lacks hexdigest
  rw [String.toList_ofList, List.mem_flatMap]
  rintro ⟨b, -, hmem⟩
  have hb := b.toNat_lt
  rcases List.mem_cons.mp hmem with heq | hmem
  · exact hdigit ⟨b.toNat / 16, by omega⟩ heq
  · exact hdigit ⟨b.toNat % 16, by omega⟩ (List.mem_singleton.mp hmem)

/-! ## The signer -/

/-- `str.upper`: each character has its upper case, which may be several
characters.  Letters of ASCII have the usual one, and no upper case is a newline. -/
structure UpperCase where
  upperOf : Char → List Char
  ascii : ∀ c : Char, c.toNat < 128 → upperOf c = [c.toUpper]
  newline : ∀ c, '\n' ∈ upperOf c → c = '\n'

/-- `method.upper()`. -/
def UpperCase.upper (u : UpperCase) (s : String) : String :=
  String.ofList (s.toList.flatMap u.upperOf)

theorem UpperCase.lacks_upper (u : UpperCase) {s : String} (h : Lacks '\n' s) :
    Lacks '\n' (u.upper s) := by
  unfold Lacks upper
  rw [String.toList_ofList, List.mem_flatMap]
  rintro ⟨c, hc, hmem⟩
  exact h (u.newline c hmem ▸ hc)

/-- A text of ASCII characters has the ASCII upper case. -/
theorem UpperCase.upper_of_ascii (u : UpperCase) {s : String}
    (h : ∀ c ∈ s.toList, c.toNat < 128) :
    u.upper s = String.ofList (s.toList.map Char.toUpper) := by
  have hmap : s.toList.flatMap u.upperOf = s.toList.flatMap fun c => [c.toUpper] :=
    List.flatMap_congr fun c hc => u.ascii c (h c hc)
  unfold upper
  rw [hmap, List.map_eq_flatMap]

/-- The functions the signing string is made with. -/
structure SignEnv extends UpperCase where
  /-- The digest of `hashlib.sha256`. -/
  sha256 : ByteArray → List UInt8

/-- One call of `sign`: its arguments, and the clock and the nonce it reads. -/
structure SignCall where
  method : String
  path : String
  body : ByteArray
  timestamp : String
  nonce : String

/-- `InternalRequestSigner`. -/
structure InternalRequestSigner where
  secret : String
  engineId : Option String

variable (env : SignEnv)

/-- `signing_string`. -/
def signingString (call : SignCall) : String :=
  env.upper call.method ++ "\n" ++ call.path ++ "\n" ++ hexdigest (env.sha256 call.body) ++ "\n" ++
    call.timestamp ++ "\n" ++ call.nonce

/-- `sign`: the headers.  `hmacSha256` is the digest of
`hmac.new(key, message, hashlib.sha256)`. -/
def InternalRequestSigner.sign (hmacSha256 : ByteArray → ByteArray → List UInt8)
    (signer : InternalRequestSigner) (call : SignCall) : List (String × String) :=
  let signature := hexdigest (hmacSha256 signer.secret.toUTF8 (signingString env call).toUTF8)
  let headers := [("x-smartids-signature", signature),
    ("x-smartids-timestamp", call.timestamp), ("x-smartids-nonce", call.nonce)]
  match signer.engineId with
  | some engineId =>
    if engineId ≠ "" then headers ++ [("x-smartids-engine-id", engineId)] else headers
  | none => headers

/-- `ENGINE_WS_AUTH_METHOD` and `ENGINE_WS_AUTH_PATH`. -/
def engineWsAuthMethod : String := "WS_AUTH"
def engineWsAuthPath : String := "/api/v1/realtime/engine-ws"

/-- The call of `sign` in `_authenticate`. -/
def authenticateCall (timestamp nonce : String) : SignCall :=
  ⟨engineWsAuthMethod, engineWsAuthPath, ByteArray.empty, timestamp, nonce⟩

/-! ## Reading a signing string -/

/-- The method, the time stamp and the nonce have no newline in them. -/
structure SignCall.OneLineFields (call : SignCall) : Prop where
  method : Lacks '\n' call.method
  timestamp : Lacks '\n' call.timestamp
  nonce : Lacks '\n' call.nonce

/-- Two calls that sign the same: the fields agree, the bodies by their digests. -/
structure SameRequest (a b : SignCall) : Prop where
  method : env.upper a.method = env.upper b.method
  path : a.path = b.path
  body : env.sha256 a.body = env.sha256 b.body
  timestamp : a.timestamp = b.timestamp
  nonce : a.nonce = b.nonce

variable {env}

/-- A signing string determines what was signed. -/
theorem sameRequest_of_signingString {a b : SignCall} (ha : a.OneLineFields)
    (hb : b.OneLineFields) (h : signingString env a = signingString env b) :
    SameRequest env a b := by
  have hnewline : "\n".toList = ['\n'] := rfl
  -- from the right: the nonce, the time stamp, the digest
  obtain ⟨hrest, hnonce⟩ := inj_of_lacks_right hnewline ha.nonce hb.nonce h
  obtain ⟨hrest, htimestamp⟩ := inj_of_lacks_right hnewline ha.timestamp hb.timestamp hrest
  obtain ⟨hrest, hdigest⟩ :=
    inj_of_lacks_right hnewline (lacks_hexdigest _) (lacks_hexdigest _) hrest
  -- from the left: the method
  obtain ⟨hmethod, hpath⟩ := inj_of_lacks_left hnewline (env.lacks_upper ha.method)
    (env.lacks_upper hb.method) hrest
  exact ⟨hmethod, hpath, hexdigest_inj hdigest, htimestamp, hnonce⟩

/-- The handshake signs for a method that no HTTP request has. -/
theorem upper_engineWsAuthMethod : env.upper engineWsAuthMethod = "WS_AUTH" :=
  env.upper_of_ascii (s := "WS_AUTH") (by simp)

theorem upper_ne_engineWsAuthMethod {method : String} (h : method = "GET" ∨ method = "POST") :
    env.upper method ≠ env.upper engineWsAuthMethod := by
  rw [upper_engineWsAuthMethod]
  rcases h with rfl | rfl
  · rw [env.upper_of_ascii (s := "GET") (by simp)]
    decide
  · rw [env.upper_of_ascii (s := "POST") (by simp)]
    decide

theorem oneLineFields_authenticateCall {timestamp nonce : String}
    (htimestamp : Lacks '\n' timestamp) (hnonce : Lacks '\n' nonce) :
    (authenticateCall timestamp nonce).OneLineFields where
  method := show Lacks '\n' "WS_AUTH" by decide
  timestamp := htimestamp
  nonce := hnonce

/-- Signed requests cannot be confused: equal signing strings are those of the same
request, whatever the paths, and no request signs what the handshake of the
WebSocket signs. -/
theorem signed_requests_not_confused (env : SignEnv) {a b : SignCall} (ha : a.OneLineFields)
    (hb : b.OneLineFields) :
    (signingString env a = signingString env b → SameRequest env a b) ∧
      (a.method = "GET" ∨ a.method = "POST" → ∀ timestamp nonce, Lacks '\n' timestamp →
        Lacks '\n' nonce →
          signingString env a ≠ signingString env (authenticateCall timestamp nonce)) := by
  refine ⟨sameRequest_of_signingString ha hb, fun hmethod timestamp nonce ht hn heq => ?_⟩
  have hsame := sameRequest_of_signingString ha (oneLineFields_authenticateCall ht hn) heq
  exact upper_ne_engineWsAuthMethod hmethod hsame.method

theorem newline_eq_of_toUpper {c : Char} (h : '\n' = c.toUpper) : c = '\n' := by
  unfold Char.toUpper at h
  split at h
  · next hlower =>
    -- a letter would become one
    have hval := congrArg (fun c : Char => c.val.toNat) h
    simp only [UInt32.toNat_add] at hval
    have hnewline : '\n'.val.toNat = 10 := rfl
    have hshift : ('A'.val - 'a'.val).toNat = 2 ^ 32 - 32 := rfl
    have hlow : 97 ≤ c.val.toNat := UInt32.le_iff_toNat_le.mp hlower.1
    have hhigh : c.val.toNat ≤ 122 := UInt32.le_iff_toNat_le.mp hlower.2
    rw [hnewline, hshift] at hval
    omega
  · exact h.symm

/-- The ASCII upper case, and the digest of the empty body. -/
def emptyBodyEnv : SignEnv where
  upperOf c := [c.toUpper]
  ascii _ _ := rfl
  newline _ h := newline_eq_of_toUpper (List.mem_singleton.mp h)
  sha256 _ := [0xe3, 0xb0, 0xc4, 0x42, 0x98, 0xfc, 0x1c, 0x14, 0x9a, 0xfb, 0xf4, 0xc8, 0x99, 0x6f,
    0xb9, 0x24, 0x27, 0xae, 0x41, 0xe4, 0x64, 0x9b, 0x93, 0x4c, 0xa4, 0x95, 0x99, 0x1b, 0x78, 0x52,
    0xb8, 0x55]

/-- A path with newlines that spells out the fields of the handshake. -/
def disguisedCall : SignCall :=
  ⟨"GET", "\nWS_AUTH\n/api/v1/realtime/engine-ws", ByteArray.empty, "1700000000.0", "00ff"⟩

theorem disguised_request_not_confused :
    signingString emptyBodyEnv disguisedCall ≠
      signingString emptyBodyEnv (authenticateCall "1700000000.0" "00ff") :=
  (signed_requests_not_confused emptyBodyEnv (a := disguisedCall) (b := disguisedCall)
    ⟨by decide, by decide, by decide⟩ ⟨by decide, by decide, by decide⟩).2 (Or.inl rfl) _ _
    (by decide) (by decide)

end SmartIDS.PacketCapture
