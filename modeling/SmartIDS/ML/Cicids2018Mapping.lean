import Mathlib.Data.List.Infix
import SmartIDS.ML.FeatureSchema
import SmartIDS.Python.Value
set_option autoImplicit false

/-!
# ML: the names of CIC IDS 2018

`ml/features/cicids2018_mapping.py`: the canonical name of every raw column, and the
canonical name of every label.
-/

namespace SmartIDS.ML

open SmartIDS.Python

/-- `CICIDS2018_TO_INTERNAL`. -/
def cicids2018ToInternal : List (String × String) :=
  [("Dst Port", "dst_port"), ("Protocol", "protocol"), ("Flow Duration", "flow_duration"),
    ("Tot Fwd Pkts", "total_fwd_packets"), ("TotLen Fwd Pkts", "total_fwd_bytes"),
    ("Flow Byts/s", "flow_bytes_per_sec"), ("Flow Pkts/s", "flow_packets_per_sec"),
    ("Pkt Len Min", "packet_len_min"), ("Pkt Len Max", "packet_len_max"),
    ("Pkt Len Mean", "packet_len_mean"), ("Pkt Len Std", "packet_len_std"),
    ("Pkt Len Var", "packet_len_variance"), ("Pkt Size Avg", "avg_packet_size"),
    ("Fwd Pkt Len Min", "fwd_packet_len_min"), ("Fwd Pkt Len Max", "fwd_packet_len_max"),
    ("Fwd Pkt Len Mean", "fwd_packet_len_mean"), ("Fwd Pkt Len Std", "fwd_packet_len_std"),
    ("Flow IAT Min", "flow_iat_min"), ("Flow IAT Max", "flow_iat_max"),
    ("Flow IAT Mean", "flow_iat_mean"), ("Flow IAT Std", "flow_iat_std"),
    ("Fwd IAT Min", "fwd_iat_min"), ("Fwd IAT Max", "fwd_iat_max"),
    ("Fwd IAT Mean", "fwd_iat_mean"), ("Fwd IAT Std", "fwd_iat_std"),
    ("Fwd IAT Tot", "fwd_iat_total"), ("Fwd Pkts/s", "fwd_packets_per_sec"),
    ("FIN Flag Cnt", "fin_flag_count"), ("SYN Flag Cnt", "syn_flag_count"),
    ("RST Flag Cnt", "rst_flag_count"), ("PSH Flag Cnt", "psh_flag_count"),
    ("ACK Flag Cnt", "ack_flag_count"), ("URG Flag Cnt", "urg_flag_count"),
    ("Fwd Header Len", "fwd_header_length"), ("Init Fwd Win Byts", "init_win_bytes_forward"),
    ("Fwd Act Data Pkts", "act_data_pkt_fwd"), ("Fwd Seg Size Min", "min_seg_size_forward")]

/-- The new name of a column in `rename(columns=CICIDS2018_TO_INTERNAL)`. -/
def toInternal (column : String) : String := (cicids2018ToInternal.lookup column).getD column

/-- No canonical column is a raw one. -/
theorem toInternal_canonical :
    ∀ name ∈ featureColumns ++ [labelColumn], toInternal name = name := by
  decide +kernel

/-! ## Labels -/

/-- `word in value`. -/
def occursIn (word value : String) : Bool := decide (word.toList <:+: value.toList)

/-- `value.startswith(word)`. -/
def startsWith (value word : String) : Bool := decide (word.toList <+: value.toList)

/-- The tests of `normalize_cicids2018_label`, in their order, with what they return. -/
def labelRules : List ((String → Bool) × String) :=
  [(fun value => ["benign", "normal", "normal traffic"].contains value, "Normal Traffic"),
    (fun value => startsWith value "ddos" || occursIn "ddos" value || occursIn "hoic" value ||
      occursIn "loic" value, "DDoS"),
    (fun value => startsWith value "dos" || occursIn " dos" value || occursIn "hulk" value ||
      occursIn "goldeneye" value || occursIn "slowhttptest" value || occursIn "slowloris" value,
      "DoS"),
    (fun value => occursIn "bruteforce" value || occursIn "brute force" value, "Brute Force"),
    (fun value => value == "bot" || value == "bots", "Bots"),
    (fun value => occursIn "web attack" value || occursIn "sql injection" value || value == "xss",
      "Web Attacks"),
    (fun value => occursIn "infilteration" value || occursIn "infiltration" value, "Infiltration"),
    (fun value => occursIn "heartbleed" value, "Heartbleed")]

/-- The class a text belongs to. -/
def labelClass? (value : String) : Option String :=
  (labelRules.find? fun rule => rule.1 value).map Prod.snd

/-- `normalize_cicids2018_label`. -/
def normalizeCicids2018Label (label : String) : String :=
  (labelClass? (lower (strip label))).getD (strip label)

theorem labelClass?_mem {value name : String} (h : labelClass? value = some name) :
    name ∈ labelRules.map Prod.snd := by
  obtain ⟨rule, hfind, rfl⟩ := Option.map_eq_some_iff.mp h
  exact List.mem_map_of_mem (List.mem_of_find?_eq_some hfind)

/-- Every class passes its own test, and none before it. -/
theorem labelClass?_class :
    ∀ name ∈ labelRules.map Prod.snd, labelClass? (lower (strip name)) = some name := by
  decide +kernel

theorem normalizeCicids2018Label_class {name : String} (h : name ∈ labelRules.map Prod.snd) :
    normalizeCicids2018Label name = name := by
  unfold normalizeCicids2018Label
  rw [labelClass?_class name h, Option.getD_some]

theorem normalizeCicids2018Label_idem (label : String) :
    normalizeCicids2018Label (normalizeCicids2018Label label) = normalizeCicids2018Label label := by
  cases h : labelClass? (lower (strip label)) with
  | some name =>
    have hname : normalizeCicids2018Label label = name := by
      unfold normalizeCicids2018Label
      rw [h, Option.getD_some]
    rw [hname]
    exact normalizeCicids2018Label_class (labelClass?_mem h)
  | none =>
    -- A text of no class is only stripped, and is still of no class.
    have hstrip : normalizeCicids2018Label label = strip label := by
      unfold normalizeCicids2018Label
      rw [h, Option.getD_none]
    rw [hstrip]
    unfold normalizeCicids2018Label
    rw [strip_strip, h, Option.getD_none]

end SmartIDS.ML
