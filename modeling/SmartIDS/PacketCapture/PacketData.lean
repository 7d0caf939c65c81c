import Mathlib.Data.Rat.Defs
set_option autoImplicit false

/-!
# PacketCapture: parsed packets and session keys

`packet_models/packet_data.py` and `session_builder/session_key.py`.  A
`PacketData` is what the parser hands to the rest of the engine.  Time stamps
are seconds since the epoch; the engine compares and subtracts them, and the
model does so in exact arithmetic.
-/

namespace SmartIDS.PacketCapture

/-- Seconds since the epoch. -/
abbrev Time : Type := ℚ

/-- One parsed packet. -/
structure PacketData where
  srcIp : String
  dstIp : String
  protocol : ℕ
  packetSize : ℤ
  timestamp : Time
  srcPort : Option ℕ := none
  dstPort : Option ℕ := none
  tcpFlags : Option ℕ := none
  tcpWindowSize : Option ℤ := none
  transportHeaderLength : Option ℤ := none
  payloadSize : Option ℤ := none
  deriving DecidableEq

namespace PacketData

/-- `flags & mask`, false when the packet carries no TCP flags. -/
def hasFlag (p : PacketData) (mask : ℕ) : Bool :=
  match p.tcpFlags with
  | none => false
  | some flags => flags &&& mask != 0

/-- The FIN or the RST bit is set. -/
def endsFlow (p : PacketData) : Bool := p.hasFlag 0x01 || p.hasFlag 0x04

end PacketData

/-- The 5-tuple a packet belongs to. -/
structure SessionKey where
  srcIp : String
  dstIp : String
  protocol : ℕ
  srcPort : Option ℕ
  dstPort : Option ℕ
  deriving DecidableEq

/-- `SessionKey.from_packet`. -/
def SessionKey.fromPacket (p : PacketData) : SessionKey where
  srcIp := p.srcIp
  dstIp := p.dstIp
  protocol := p.protocol
  srcPort := p.srcPort
  dstPort := p.dstPort

@[simp] theorem SessionKey.fromPacket_srcIp (p : PacketData) :
    (SessionKey.fromPacket p).srcIp = p.srcIp := rfl

end SmartIDS.PacketCapture
