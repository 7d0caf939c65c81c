import Mathlib.Algebra.Order.Field.Rat
import SmartIDS.Foundation.Window
import SmartIDS.PacketCapture.PacketData
set_option autoImplicit false

/-!
# ResponseEngine: the response policy

`response_engine/policy.py`.  How long a block lasts, what a heuristic score
calls for, and the sliding count of connection attempts by which a brute force
attack is told.
-/

namespace SmartIDS.ResponseEngine

open SmartIDS.Foundation SmartIDS.PacketCapture

/-- The answers of `classify_heuristic_action`. -/
inductive HeuristicAction where
  | highTempBlock
  | alertOnly
  deriving DecidableEq, Repr

structure ResponsePolicy where
  bruteforceWindowSeconds : Time
  bruteforceAttemptThreshold : ℤ
  /-- the time stamps of the attempts of a source on a service of a host -/
  attempts : Dict (String × String × ℕ) (List Time)

namespace ResponsePolicy

def lowHeuristicScoreMax : ℕ := 2
def highHeuristicScoreMin : ℕ := 3
def highHeuristicBlockSeconds : ℤ := 300
def mlConfirmedBlockSeconds : ℤ := 900
def bruteforceBlockSeconds : ℤ := 600
def bruteforceServicePorts : List ℕ := [21, 22, 23, 25, 110, 143, 3389]

/-- `__init__`; the window and the threshold are settings. -/
def init (bruteforceWindowSeconds : Time) (bruteforceAttemptThreshold : ℤ) : ResponsePolicy :=
  ⟨bruteforceWindowSeconds, bruteforceAttemptThreshold, .empty⟩

/-- `classify_heuristic_action`. -/
def classifyHeuristicAction (score : ℕ) : HeuristicAction :=
  if highHeuristicScoreMin ≤ score then .highTempBlock
  else if score ≤ lowHeuristicScoreMax then .alertOnly
  else .alertOnly

/-- `record_bruteforce_attempt`. -/
def recordBruteforceAttempt (p : PacketData) (policy : ResponsePolicy) : Bool × ResponsePolicy :=
  match p.dstPort with
  | none => (false, policy)
  | some port =>
    if port ∈ bruteforceServicePorts then
      let key := (p.srcIp, p.dstIp, port)
      let cutoff := p.timestamp - policy.bruteforceWindowSeconds
      let bucket := Window.trim id cutoff (policy.attempts.queue key ++ [p.timestamp])
      (policy.bruteforceAttemptThreshold ≤ bucket.length,
        { policy with attempts := policy.attempts.set key bucket })
    else (false, policy)

end ResponsePolicy

end SmartIDS.ResponseEngine
