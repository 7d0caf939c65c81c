import SmartIDS.PacketCapture.CapturePipeline
import SmartIDS.PacketCapture.SessionEvidence
set_option autoImplicit false

/-!
# PacketCapture: every packet is accounted for

The totals of the collector are not updated together with the queue.  What a
thread holds between the two is in its phase, so that the totals, the queue and
the phases are in balance after every step of either thread.
-/

namespace SmartIDS.PacketCapture

open SmartIDS.Foundation SmartIDS.Python

variable {P W ρ ε : Type}

/-! ## What a thread holds -/

/-- Captured, but not counted as received. -/
def SnifferPhase.uncounted : SnifferPhase P → List P
  | .parsed packet => [packet]
  | _ => []

/-- Captured, but not put to the queue. -/
def SnifferPhase.unput : SnifferPhase P → List P
  | .parsed packet => [packet]
  | .counted packet => [packet]
  | _ => []

/-- Refused by the queue, but not counted as dropped. -/
def SnifferPhase.undropped : SnifferPhase P → List P
  | .refused packet => [packet]
  | _ => []

/-- Counted as received, but neither enqueued nor counted as dropped. -/
def SnifferPhase.inHand : SnifferPhase P → List P
  | .counted packet => [packet]
  | .refused packet => [packet]
  | _ => []

theorem SnifferPhase.length_inHand (phase : SnifferPhase P) :
    phase.inHand.length + phase.uncounted.length =
      phase.unput.length + phase.undropped.length := by
  cases phase <;> rfl

theorem SnifferPhase.length_inHand_le (phase : SnifferPhase P) : phase.inHand.length ≤ 1 := by
  cases phase <;> simp [inHand]

/-- Dequeued, but not handed to `process`. -/
def ConsumerPhase.uncalled : ConsumerPhase P → List P
  | .dequeued packet => [packet]
  | _ => []

/-- Dequeued, but not counted as processed. -/
def ConsumerPhase.inHand : ConsumerPhase P → List P
  | .waiting => []
  | .dequeued packet => [packet]
  | .processed packet => [packet]
  | .crashed packet => [packet]

theorem ConsumerPhase.length_inHand_le (phase : ConsumerPhase P) : phase.inHand.length ≤ 1 := by
  cases phase <;> simp [inHand]

/-! ## One happening more -/

theorem capturedOf_concat (tr : List (Happening P W)) (h : Happening P W) :
    capturedOf (tr ++ [h]) = capturedOf tr ++ h.captured?.toList := by
  rw [capturedOf, List.filterMap_append]
  cases h <;> rfl

theorem verdictsOf_concat (tr : List (Happening P W)) (h : Happening P W) :
    verdictsOf (tr ++ [h]) = verdictsOf tr ++ h.verdict?.toList := by
  rw [verdictsOf, List.filterMap_append]
  cases h <;> rfl

theorem handedOf_concat (tr : List (Happening P W)) (h : Happening P W) :
    handedOf (tr ++ [h]) = handedOf tr ++ h.call?.toList := by
  rw [handedOf, List.filterMap_append]
  cases h <;> rfl

theorem enqueuedOf_concat (tr : List (Happening P W)) (h : Happening P W) :
    enqueuedOf (tr ++ [h]) =
      enqueuedOf tr ++ (h.verdict?.toList.filter Prod.snd).map Prod.fst := by
  rw [enqueuedOf, verdictsOf_concat, List.filter_append, List.map_append]
  rfl

theorem refusedOf_concat (tr : List (Happening P W)) (h : Happening P W) :
    refusedOf (tr ++ [h]) = refusedOf tr + h.verdict?.toList.countP fun v => !v.2 := by
  rw [refusedOf, verdictsOf_concat, List.countP_append]
  rfl

/-- A verdict is an acceptance or a refusal. -/
theorem length_enqueuedOf (tr : List (Happening P W)) :
    (enqueuedOf tr).length + refusedOf tr = (verdictsOf tr).length := by
  rw [enqueuedOf, refusedOf, List.length_map, ← List.countP_eq_length_filter,
    List.length_eq_countP_add_countP Prod.snd]
  congr 1
  refine List.countP_congr fun v _ => ?_
  rw [Bool.not_eq_true', decide_eq_true_eq, Bool.not_eq_true]

namespace CapturePipeline

/-- The calls of `process`, one after the other. -/
def afterCalls (process : W → P → Effect ε ρ Unit) (processor : ρ) (calls : List (W × P)) : ρ :=
  calls.foldl (fun processor call => (process call.1 call.2 processor).2) processor

/-- The state against what has happened. -/
structure Accounted (process : W → P → Effect ε ρ Unit) (maxsize : ℕ) (processor : ρ)
    (tr : List (Happening P W)) (s : CapturePipeline P ρ) : Prop where
  maxsize : s.packetQueue.maxsize = maxsize
  received : s.telemetry.packetsReceivedTotal + s.sniffer.uncounted.length =
    (capturedOf tr).length
  dropped : s.telemetry.packetsDroppedTotal + s.sniffer.undropped.length = refusedOf tr
  processed : s.telemetry.packetsProcessedTotal + s.consumer.inHand.length =
    (handedOf tr).length + s.consumer.uncalled.length
  captured : capturedOf tr = (verdictsOf tr).map Prod.fst ++ s.sniffer.unput
  inOrder : enqueuedOf tr =
    (handedOf tr).map Prod.snd ++ s.consumer.uncalled ++ s.packetQueue.items
  processor : s.processor = afterCalls process processor (handedOf tr)

variable {process : W → P → Effect ε ρ Unit} {maxsize : ℕ} {processor : ρ} {tr : List (Happening P W)}
  {s : CapturePipeline P ρ}

theorem accounted_init (process : W → P → Effect ε ρ Unit) (maxsize : ℕ) (processor : ρ) :
    Accounted process maxsize processor [] (init maxsize processor) :=
  ⟨rfl, rfl, rfl, rfl, rfl, rfl, rfl⟩

/-- What one step of either thread does to the books. -/
structure Moves (process : W → P → Effect ε ρ Unit) (s : CapturePipeline P ρ)
    (happening : Happening P W) (s' : CapturePipeline P ρ) : Prop where
  maxsize : s'.packetQueue.maxsize = s.packetQueue.maxsize
  received : s'.telemetry.packetsReceivedTotal + s'.sniffer.uncounted.length =
    s.telemetry.packetsReceivedTotal + s.sniffer.uncounted.length +
      happening.captured?.toList.length
  dropped : s'.telemetry.packetsDroppedTotal + s'.sniffer.undropped.length =
    s.telemetry.packetsDroppedTotal + s.sniffer.undropped.length +
      happening.verdict?.toList.countP fun v => !v.2
  processed : s'.telemetry.packetsProcessedTotal + s'.consumer.inHand.length +
      s.consumer.uncalled.length =
    s.telemetry.packetsProcessedTotal + s.consumer.inHand.length +
      (s'.consumer.uncalled.length + happening.call?.toList.length)
  captured : s.sniffer.unput ++ happening.captured?.toList =
    happening.verdict?.toList.map Prod.fst ++ s'.sniffer.unput
  inOrder : s.consumer.uncalled ++ s.packetQueue.items ++
      (happening.verdict?.toList.filter Prod.snd).map Prod.fst =
    happening.call?.toList.map Prod.snd ++ (s'.consumer.uncalled ++ s'.packetQueue.items)
  processor : s'.processor = afterCalls process s.processor happening.call?.toList

theorem Accounted.moves (h : Accounted process maxsize processor tr s)
    {happening : Happening P W} {s' : CapturePipeline P ρ} (hmoves : Moves process s happening s') :
    Accounted process maxsize processor (tr ++ [happening]) s' where
  maxsize := hmoves.maxsize.trans h.maxsize
  received := by
    rw [hmoves.received, h.received, capturedOf_concat, List.length_append]
  dropped := by
    rw [hmoves.dropped, h.dropped, refusedOf_concat]
  processed := by
    have hbefore := h.processed
    have hafter := hmoves.processed
    rw [handedOf_concat, List.length_append]
    omega
  captured := by
    rw [capturedOf_concat, h.captured, List.append_assoc, hmoves.captured, verdictsOf_concat,
      List.map_append, List.append_assoc]
  inOrder := by
    rw [enqueuedOf_concat, h.inOrder, List.append_assoc, List.append_assoc,
      ← List.append_assoc s.consumer.uncalled, hmoves.inOrder, handedOf_concat, List.map_append,
      List.append_assoc, List.append_assoc]
  processor := by
    rw [hmoves.processor, h.processor, handedOf_concat, afterCalls, afterCalls, afterCalls,
      List.foldl_append]

/-- A step of the sniffer. -/
theorem moves_handlePacket (process : W → P → Effect ε ρ Unit) (health : HealthLog)
    (parsed : Option P) (now : Time) (s : CapturePipeline P ρ) :
    Moves process s (s.handlePacket health parsed now).2
      (s.handlePacket (W := W) health parsed now).1 := by
  obtain ⟨seen, sniffer, queue, consumer, processor, telemetry⟩ := s
  cases sniffer with
  | ready =>
    cases parsed with
    | none => exact ⟨rfl, rfl, rfl, rfl, rfl, List.append_nil _, rfl⟩
    | some packet => exact ⟨rfl, rfl, rfl, rfl, rfl, List.append_nil _, rfl⟩
  | parsed packet => exact ⟨rfl, rfl, rfl, rfl, rfl, List.append_nil _, rfl⟩
  | counted packet =>
    unfold CapturePipeline.handlePacket
    cases hput : queue.putNowait packet with
    | none =>
      simp only [hput]
      exact ⟨rfl, rfl, rfl, rfl, rfl, List.append_nil _, rfl⟩
    | some q =>
      simp only [hput]
      obtain ⟨hitems, hmaxsize⟩ := BoundedQueue.items_of_putNowait hput
      refine ⟨hmaxsize, rfl, rfl, rfl, rfl, ?_, rfl⟩
      show consumer.uncalled ++ queue.items ++ [packet] = consumer.uncalled ++ q.items
      rw [hitems, List.append_assoc]
  | refused packet => exact ⟨rfl, rfl, rfl, rfl, rfl, List.append_nil _, rfl⟩
  | enqueued packet =>
    unfold CapturePipeline.handlePacket
    simp only
    split_ifs
    · exact ⟨rfl, rfl, rfl, rfl, rfl, List.append_nil _, rfl⟩
    · exact ⟨rfl, rfl, rfl, rfl, rfl, List.append_nil _, rfl⟩

/-- A step of the consumer. -/
theorem moves_consumePackets (process : W → P → Effect ε ρ Unit) (world : W)
    (s : CapturePipeline P ρ) :
    Moves process s (s.consumePackets process world).2 (s.consumePackets process world).1 := by
  obtain ⟨seen, sniffer, queue, consumer, processor, telemetry⟩ := s
  unfold consumePackets
  cases consumer with
  | waiting =>
    cases hget : queue.get with
    | none =>
      simp only
      exact ⟨rfl, rfl, rfl, rfl, List.append_nil _, List.append_nil _, rfl⟩
    | some taken =>
      simp only
      obtain ⟨hitems, hmaxsize⟩ := BoundedQueue.items_of_get hget
      refine ⟨hmaxsize, rfl, rfl, rfl, List.append_nil _, ?_, rfl⟩
      show queue.items ++ [] = taken.1 :: taken.2.items
      rw [List.append_nil, hitems]
  | dequeued packet =>
    simp only
    split
    · rename_i processor' hok
      refine ⟨rfl, rfl, rfl, rfl, List.append_nil _, List.append_nil _, ?_⟩
      show processor' = (process world packet processor).2
      rw [hok]
    · rename_i error processor' herror
      refine ⟨rfl, rfl, rfl, rfl, List.append_nil _, List.append_nil _, ?_⟩
      show processor' = (process world packet processor).2
      rw [herror]
  | processed packet => exact ⟨rfl, rfl, rfl, rfl, List.append_nil _, List.append_nil _, rfl⟩
  | crashed packet => exact ⟨rfl, rfl, rfl, rfl, List.append_nil _, List.append_nil _, rfl⟩

theorem accounted_exec (health : HealthLog) (process : W → P → Effect ε ρ Unit) (maxsize : ℕ)
    (processor : ρ) (turns : List (Turn P W)) :
    Accounted process maxsize processor ((threads health process).trace (init maxsize processor) turns)
      ((threads health process).exec (init maxsize processor) turns) := by
  induction turns using List.reverseRecOn with
  | nil => exact accounted_init process maxsize processor
  | append_singleton turns turn ih =>
    rw [Machine.trace_concat, Machine.exec_concat]
    apply ih.moves
    cases turn with
    | sniffer parsed now => exact moves_handlePacket process health parsed now _
    | consumer world => exact moves_consumePackets process world _
    | telemetry now => exact ⟨rfl, rfl, rfl, rfl, List.append_nil _, List.append_nil _, rfl⟩

/-! ## What the capture brings -/

/-- The packet a turn brings: one that is parsed while the sniffer is ready for it. -/
def brings (s : CapturePipeline P ρ) : Turn P W → Option P
  | .sniffer parsed _ =>
    match s.sniffer with
    | .ready => parsed
    | _ => none
  | _ => none

/-- The packets some turns bring, from a state on. -/
def broughtBy (health : HealthLog) (process : W → P → Effect ε ρ Unit) :
    CapturePipeline P ρ → List (Turn P W) → List P
  | _, [] => []
  | s, turn :: turns =>
    (s.brings turn).toList ++ broughtBy health process ((threads health process).step s turn).1 turns

theorem captured?_step (health : HealthLog) (process : W → P → Effect ε ρ Unit)
    (s : CapturePipeline P ρ) (turn : Turn P W) :
    ((threads health process).step s turn).2.captured? = s.brings turn := by
  obtain ⟨seen, sniffer, queue, consumer, processor, telemetry⟩ := s
  cases turn with
  | sniffer parsed now =>
    simp only [threads, handlePacket, brings]
    cases sniffer with
    | ready => cases parsed <;> rfl
    | counted packet =>
      dsimp only
      split <;> rfl
    | enqueued packet =>
      dsimp only
      split_ifs <;> rfl
    | _ => rfl
  | consumer world =>
    simp only [threads, consumePackets, brings]
    cases consumer with
    | waiting =>
      dsimp only
      split <;> rfl
    | dequeued packet =>
      dsimp only
      split <;> rfl
    | _ => rfl
  | telemetry now => rfl

/-- What is captured is what the turns bring. -/
theorem capturedOf_trace (health : HealthLog) (process : W → P → Effect ε ρ Unit)
    (s : CapturePipeline P ρ) (turns : List (Turn P W)) :
    capturedOf ((threads health process).trace s turns) = broughtBy health process s turns := by
  induction turns generalizing s with
  | nil => rfl
  | cons turn turns ih =>
    rw [Machine.trace_cons, broughtBy, ← ih, ← captured?_step health process s turn, capturedOf,
      List.filterMap_cons]
    cases ((threads health process).step s turn).2.captured? <;> rfl

/-! ## What the engine owes its packets -/

/-- The balance of the totals, and the order of the packets. -/
structure PacketsConserved (process : W → P → Effect ε ρ Unit) (maxsize : ℕ) (processor : ρ)
    (tr : List (Happening P W)) (s : CapturePipeline P ρ) : Prop where
  conserved : s.telemetry.packetsReceivedTotal =
    s.telemetry.packetsProcessedTotal + s.telemetry.packetsDroppedTotal + s.packetQueue.qsize +
      s.sniffer.inHand.length + s.consumer.inHand.length
  snifferHolds : s.sniffer.inHand.length ≤ 1
  consumerHolds : s.consumer.inHand.length ≤ 1
  bounded : 0 < maxsize → s.packetQueue.qsize ≤ maxsize
  /-- The queue decides about the packets in the order of their capture, -/
  captureOrder : capturedOf tr = (verdictsOf tr).map Prod.fst ++ s.sniffer.unput
  /-- what it refuses is counted, -/
  countedDrops : refusedOf tr =
    s.telemetry.packetsDroppedTotal + s.sniffer.undropped.length
  /-- and what it accepts reaches `process` in order, once. -/
  inOrder : enqueuedOf tr =
    (handedOf tr).map Prod.snd ++ s.consumer.uncalled ++ s.packetQueue.items
  sequential : s.processor = afterCalls process processor (handedOf tr)

/-- However the threads are scheduled, whether the packets are parsed or not and
whether `process` returns or raises, every packet is accounted for, and the packets are
those that the turns bring. -/
theorem packets_conserved (health : HealthLog) (process : W → P → Effect ε ρ Unit)
    (maxsize : ℕ) (processor : ρ) (turns : List (Turn P W)) :
    PacketsConserved process maxsize processor
        ((threads health process).trace (init maxsize processor) turns)
        ((threads health process).exec (init maxsize processor) turns) ∧
      capturedOf ((threads health process).trace (init maxsize processor) turns) =
        broughtBy health process (init maxsize processor) turns := by
  refine ⟨?_, capturedOf_trace health process _ turns⟩
  have haccounted := accounted_exec health process maxsize processor turns
  revert haccounted
  generalize (threads health process).trace (init maxsize processor) turns = tr
  generalize (threads health process).exec (init maxsize processor) turns = s
  intro h
  have hreceived := h.received
  have hprocessed := h.processed
  have hdropped := h.dropped
  have hverdicts := length_enqueuedOf tr
  have hsniffer := s.sniffer.length_inHand
  have hcaptured := congrArg List.length h.captured
  have hinOrder := congrArg List.length h.inOrder
  rw [List.length_append, List.length_map] at hcaptured
  rw [List.length_append, List.length_append, List.length_map] at hinOrder
  constructor
  · unfold BoundedQueue.qsize
    omega
  · exact s.sniffer.length_inHand_le
  · exact s.consumer.length_inHand_le
  · intro hmax
    have hbound := s.packetQueue.bounded
    rw [h.maxsize] at hbound
    exact hbound hmax
  · exact h.captured
  · exact hdropped.symm
  · exact h.inOrder
  · exact h.processor

/-- A published snapshot never shows more packets processed and dropped than
received. -/
theorem snapshot_of_conserved (h : PacketsConserved process maxsize processor tr s) (now : Time) :
    (s.telemetry.snapshot now).1.packetsProcessedTotal +
        (s.telemetry.snapshot now).1.packetsDroppedTotal ≤
      (s.telemetry.snapshot now).1.packetsReceivedTotal := by
  have hconserved := h.conserved
  show s.telemetry.packetsProcessedTotal + s.telemetry.packetsDroppedTotal ≤
    s.telemetry.packetsReceivedTotal
  omega

end CapturePipeline

/-! ## The packet processor behind the queue -/

section Engine

variable {Φ Ω : Type} {repr : Json → String}

/-- The call of `process` for a packet: what it meets, and the packet. -/
def Arrival.of (a : Arrival Ω) (packet : PacketData) : Arrival Ω := { a with packet := packet }

/-- The threads of the engine, with the packet processor. -/
def engineThreads (health : HealthLog) (env : Platform Φ Ω) :
    Machine (CapturePipeline PacketData (PacketProcessor Φ repr)) (Turn PacketData (Arrival Ω))
      (Happening PacketData (Arrival Ω)) :=
  CapturePipeline.threads health fun a packet => PacketProcessor.process env (a.of packet)

theorem afterCalls_process (env : Platform Φ Ω) (p : PacketProcessor Φ repr)
    (calls : List (Arrival Ω × PacketData)) :
    CapturePipeline.afterCalls (fun a packet => PacketProcessor.process env (a.of packet)) p calls =
      (publishing env).exec p (calls.map fun call => call.1.of call.2) := by
  induction calls generalizing p with
  | nil => rfl
  | cons call calls ih => exact ih (PacketProcessor.process env (call.1.of call.2) p).2

/-- Behind the queue the processor is where the packets that reached it, one after
the other, take it. -/
theorem processor_engineThreads (health : HealthLog) (env : Platform Φ Ω) (maxsize : ℕ)
    (p : PacketProcessor Φ repr) (turns : List (Turn PacketData (Arrival Ω))) :
    ((engineThreads health env).exec (.init maxsize p) turns).processor =
      (publishing env).exec p
        ((handedOf ((engineThreads health env).trace (.init maxsize p) turns)).map
          fun call => call.1.of call.2) := by
  rw [← afterCalls_process]
  exact (CapturePipeline.accounted_exec health _ maxsize p turns).processor

end Engine

end SmartIDS.PacketCapture
