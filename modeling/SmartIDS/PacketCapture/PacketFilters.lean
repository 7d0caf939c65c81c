import SmartIDS.Python.IpAddress
import SmartIDS.Python.Value
set_option autoImplicit false

/-!
# PacketCapture: capture filters

`packet_capture/utils/packet_filters.py`.  The filter is one text, put together from
the entries that pass their check; it goes to the packet capture as it is.
-/

namespace SmartIDS.PacketCapture.PacketFilters

open SmartIDS.Python

/-- `basic_filter`. -/
def basicFilter : String := "ip"

/-- `_valid_ips`; an argument that is missing is an empty one. -/
def validIps (ips : Option (List String)) : List String :=
  ((ips.getD []).map strip).filter fun candidate =>
    candidate != "" && (ipAddress candidate).isSome

/-- `raw.strip() if isinstance(raw, str) else raw`. -/
def stripped : Json → Json
  | .str s => .str (strip s)
  | raw => raw

/-- What `_valid_ports` makes of an entry; `none` where it is skipped. -/
def validPort (raw : Json) : Except PyError (Option ℤ) :=
  match stripped raw with
  | .str "" => .ok none
  | .null => .ok none
  | candidate =>
    match candidate.toInt with
    | .error .typeError => .ok none
    | .error .valueError => .ok none
    | .error e => .error e
    | .ok parsed => .ok (if 0 < parsed ∧ parsed ≤ 65535 then some parsed else none)

/-- `_valid_ports`. -/
def validPorts (ports : Option (List Json)) : Except PyError (List ℤ) := do
  let checked ← (ports.getD []).mapM validPort
  return checked.filterMap id

/-- The terms of a group. -/
def terms (ips : List String) (ports : List ℤ) : List String :=
  ips.map (fun ip => "host " ++ ip) ++ ports.map fun port => "port " ++ toString port

/-- `build_capture_filter`. -/
def buildCaptureFilter (watchIps : Option (List String)) (watchPorts : Option (List Json))
    (excludeIps : Option (List String)) (excludePorts : Option (List Json)) :
    Except PyError String := do
  let watchIps := validIps watchIps
  let watchPorts ← validPorts watchPorts
  let excludeIps := validIps excludeIps
  let excludePorts ← validPorts excludePorts
  let clauses := [basicFilter]
  let watchTerms := terms watchIps watchPorts
  let clauses :=
    if watchTerms.isEmpty then clauses
    else clauses ++ ["(" ++ " or ".intercalate watchTerms ++ ")"]
  let excludeTerms := terms excludeIps excludePorts
  let clauses :=
    if excludeTerms.isEmpty then clauses
    else clauses ++ ["not (" ++ " or ".intercalate excludeTerms ++ ")"]
  return " and ".intercalate clauses

end SmartIDS.PacketCapture.PacketFilters
