import Mathlib.Data.List.Nodup
set_option autoImplicit false

/-!
# ML: the feature columns

`ml/features/schema.py`: the columns of a feature vector, in the order in which
the model reads them, and the column of the label.
-/

namespace SmartIDS.ML

/-- `FEATURE_COLUMNS`. -/
def featureColumns : List String :=
  ["dst_port", "protocol", "flow_duration", "total_fwd_packets", "total_fwd_bytes",
    "flow_bytes_per_sec", "flow_packets_per_sec", "packet_len_min", "packet_len_max",
    "packet_len_mean", "packet_len_std", "packet_len_variance", "avg_packet_size",
    "fwd_packet_len_min", "fwd_packet_len_max", "fwd_packet_len_mean", "fwd_packet_len_std",
    "flow_iat_min", "flow_iat_max", "flow_iat_mean", "flow_iat_std", "fwd_iat_min",
    "fwd_iat_max", "fwd_iat_mean", "fwd_iat_std", "fwd_iat_total", "fwd_packets_per_sec",
    "fin_flag_count", "syn_flag_count", "rst_flag_count", "psh_flag_count", "ack_flag_count",
    "urg_flag_count", "fwd_header_length", "init_win_bytes_forward", "act_data_pkt_fwd",
    "min_seg_size_forward"]

/-- `LABEL_COLUMN`. -/
def labelColumn : String := "Attack Type"

theorem nodup_featureColumns : featureColumns.Nodup := by decide +kernel

theorem labelColumn_notMem : labelColumn ∉ featureColumns := by decide +kernel

theorem ne_labelColumn {name : String} (h : name ∈ featureColumns) : name ≠ labelColumn := by
  rintro rfl
  exact labelColumn_notMem h

end SmartIDS.ML
