import Mathlib.Data.List.Basic
import SmartIDS.PacketCapture.PacketData
set_option autoImplicit false

/-!
# PacketCapture: packet telemetry

`packet_capture/telemetry/engine_telemetry.py`, the part that counts packets.
Every method takes the collector's lock, so each is one step; the clock is read
before.
-/

namespace SmartIDS.PacketCapture

/-- `EngineTelemetryCollector`. -/
structure EngineTelemetryCollector where
  packetWindowSeconds : Time := 30
  packetsReceivedTotal : ℕ := 0
  packetsProcessedTotal : ℕ := 0
  packetsDroppedTotal : ℕ := 0
  packetReceivedTimes : List Time := []
  packetDroppedTimes : List Time := []

/-- The packet counts of a snapshot. -/
structure TelemetrySnapshot where
  packetsReceivedTotal : ℕ
  packetsReceivedPer30s : ℕ
  packetsProcessedTotal : ℕ
  packetsDroppedTotal : ℕ
  packetLossDetected : Bool
  deriving DecidableEq

namespace EngineTelemetryCollector

/-- `_trim`: pop the head while it is not younger than the window. -/
def trim (c : EngineTelemetryCollector) (timestamps : List Time) (now : Time) : List Time :=
  timestamps.dropWhile fun t => t ≤ now - c.packetWindowSeconds

/-- `record_packet_received`. -/
def recordPacketReceived (now : Time) (c : EngineTelemetryCollector) :
    EngineTelemetryCollector :=
  { c with
    packetsReceivedTotal := c.packetsReceivedTotal + 1
    packetReceivedTimes := c.trim (c.packetReceivedTimes ++ [now]) now }

/-- `record_packet_processed`. -/
def recordPacketProcessed (c : EngineTelemetryCollector) : EngineTelemetryCollector :=
  { c with packetsProcessedTotal := c.packetsProcessedTotal + 1 }

/-- `record_packet_dropped`. -/
def recordPacketDropped (now : Time) (c : EngineTelemetryCollector) :
    EngineTelemetryCollector :=
  { c with
    packetsDroppedTotal := c.packetsDroppedTotal + 1
    packetDroppedTimes := c.trim (c.packetDroppedTimes ++ [now]) now }

/-- `snapshot`: the two windows are trimmed, the counts read. -/
def snapshot (now : Time) (c : EngineTelemetryCollector) :
    TelemetrySnapshot × EngineTelemetryCollector :=
  let c := { c with
    packetReceivedTimes := c.trim c.packetReceivedTimes now
    packetDroppedTimes := c.trim c.packetDroppedTimes now }
  ({ packetsReceivedTotal := c.packetsReceivedTotal
     packetsReceivedPer30s := c.packetReceivedTimes.length
     packetsProcessedTotal := c.packetsProcessedTotal
     packetsDroppedTotal := c.packetsDroppedTotal
     packetLossDetected := 0 < c.packetDroppedTimes.length }, c)

end EngineTelemetryCollector

end SmartIDS.PacketCapture
