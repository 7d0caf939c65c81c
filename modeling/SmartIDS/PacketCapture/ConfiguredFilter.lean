import SmartIDS.PacketCapture.CaptureGrammar
import SmartIDS.PacketCapture.PacketFilters
set_option autoImplicit false

/-!
# PacketCapture: the capture filter that is configured

The text `build_capture_filter` returns is the filter of the valid entries, and no
other one, exactly if no valid address carries a scope identifier.  Such an
identifier may be any text, and goes into the filter as it is.
-/

namespace SmartIDS.PacketCapture

open SmartIDS.Foundation SmartIDS.Python

namespace PacketFilters

/-! ## The valid entries -/

/-- The valid addresses. -/
def configuredIps (ips : Option (List String)) : List String :=
  ((ips.getD []).map strip).filter fun ip => (ipAddress ip).isSome

/-- The port an entry names. -/
def portOf (raw : Json) : Option ℕ :=
  match (stripped raw).toInt with
  | .ok n => if 0 < n ∧ n ≤ 65535 then some n.toNat else none
  | .error _ => none

/-- The terms of the valid entries. -/
def entries (ips : Option (List String)) (ports : Option (List Json)) : List FilterTerm :=
  (configuredIps ips).map .host ++ ((ports.getD []).filterMap portOf).map .port

/-- `int` raises an `OverflowError` of it, which is not caught. -/
def IsInfinite (raw : Json) : Prop := raw = .float .inf ∨ raw = .float .negInf

theorem validIps_eq (ips : Option (List String)) : validIps ips = configuredIps ips := by
  unfold validIps configuredIps
  refine List.filter_congr fun ip _ => ?_
  rcases eq_or_ne ip "" with rfl | hne
  · decide
  · rw [bne_iff_ne.mpr hne, Bool.true_and]

theorem stripped_eq_float_iff {raw : Json} {x : PyFloat} :
    stripped raw = .float x ↔ raw = .float x := by
  cases raw <;> simp [stripped]

theorem toInt_error_cases {candidate : Json} {e : PyError} (h : candidate.toInt = .error e) :
    e = .typeError ∨ e = .valueError ∨ IsInfinite candidate := by
  unfold IsInfinite
  cases candidate with
  | bool b => exact absurd h (by simp [Json.toInt])
  | int n => exact absurd h (by simp [Json.toInt])
  | float x => cases x <;> simp_all [Json.toInt]
  | str s =>
    unfold Json.toInt at h
    cases hs : intLiteral? s <;> simp_all
  | null | arr _ | obj _ => exact Or.inl (Except.error.inj h).symm

theorem validPort_of_not_isInfinite {raw : Json} (h : ¬ IsInfinite raw) :
    ∃ checked, validPort raw = .ok checked ∧ checked.map Int.toNat = portOf raw ∧
      ∀ n ∈ checked, 0 < n ∧ n ≤ 65535 := by
  have hnone : ∀ e, (stripped raw).toInt = .error e → portOf raw = none := by
    intro e he
    unfold portOf
    rw [he]
  have hskip : portOf raw = none → ∃ checked : Option ℤ, Except.ok (ε := PyError) none = .ok checked ∧
      checked.map Int.toNat = portOf raw ∧ ∀ n ∈ checked, 0 < n ∧ n ≤ 65535 := fun hport =>
    ⟨none, rfl, hport.symm, fun n hn => absurd hn (by simp)⟩
  unfold validPort
  split
  · next hraw => exact hskip (hnone .valueError (by rw [hraw]; decide))
  · next hraw => exact hskip (hnone .typeError (by rw [hraw]; rfl))
  · split
    · next he => exact hskip (hnone _ he)
    · next he => exact hskip (hnone _ he)
    · next e htype hvalue he =>
      rcases toInt_error_cases he with rfl | rfl | hinf
      · exact absurd rfl htype
      · exact absurd rfl hvalue
      · exact absurd (hinf.imp stripped_eq_float_iff.mp stripped_eq_float_iff.mp) h
    · next n hn =>
      refine ⟨_, rfl, ?_, ?_⟩
      · unfold portOf
        rw [hn]
        dsimp only
        split <;> rfl
      · intro m hm
        split at hm
        · next hrange =>
          obtain rfl := Option.some.inj hm
          exact hrange
        · exact absurd hm (by simp)

theorem validPort_of_isInfinite {raw : Json} (h : IsInfinite raw) :
    validPort raw = .error .overflowError := by
  rcases h with rfl | rfl <;> rfl

/-- The list is checked entry by entry. -/
theorem mapM_validPort_ok {ports : List Json} (h : ∀ raw ∈ ports, ¬ IsInfinite raw) :
    ∃ checked, ports.mapM validPort = .ok checked ∧
      (checked.filterMap id).map Int.toNat = ports.filterMap portOf ∧
      ∀ n ∈ checked.filterMap id, 0 < n ∧ n ≤ 65535 := by
  induction ports with
  | nil => exact ⟨[], rfl, rfl, List.forall_mem_nil _⟩
  | cons raw ports ih =>
    obtain ⟨hraw, hports⟩ := List.forall_mem_cons.mp h
    obtain ⟨entry, hentry, hnumber, hrange⟩ := validPort_of_not_isInfinite hraw
    obtain ⟨checked, hchecked, hnumbers, hranges⟩ := ih hports
    refine ⟨entry :: checked, ?_, ?_, ?_⟩
    · rw [List.mapM_cons, hentry, hchecked]
      rfl
    · cases entry with
      | none => rw [List.filterMap_cons_none rfl, List.filterMap_cons_none hnumber.symm, hnumbers]
      | some n =>
        rw [List.filterMap_cons_some hnumber.symm, ← hnumbers]
        rfl
    · cases entry with
      | none => exact hranges
      | some n => exact List.forall_mem_cons.mpr ⟨hrange n rfl, hranges⟩

theorem mapM_validPort_error {ports : List Json} (h : ∃ raw ∈ ports, IsInfinite raw) :
    ∃ e, ports.mapM validPort = .error e := by
  induction ports with
  | nil => exact absurd h (by simp)
  | cons raw ports ih =>
    rcases em (IsInfinite raw) with hinf | hfinite
    · exact ⟨_, by rw [List.mapM_cons, validPort_of_isInfinite hinf]; rfl⟩
    · obtain ⟨entry, hentry, -⟩ := validPort_of_not_isInfinite hfinite
      obtain ⟨other, hmem, hinf⟩ := h
      have htail := (List.mem_cons.mp hmem).resolve_left fun heq => hfinite (heq ▸ hinf)
      obtain ⟨e, he⟩ := ih ⟨other, htail, hinf⟩
      exact ⟨e, by rw [List.mapM_cons, hentry, he]; rfl⟩

theorem validPorts_ok {ports : Option (List Json)} (h : ∀ raw ∈ ports.getD [], ¬ IsInfinite raw) :
    ∃ numbers, validPorts ports = .ok numbers ∧
      numbers.map Int.toNat = (ports.getD []).filterMap portOf ∧
      ∀ n ∈ numbers, 0 < n ∧ n ≤ 65535 := by
  obtain ⟨checked, hchecked, hnumbers, hrange⟩ := mapM_validPort_ok h
  refine ⟨_, ?_, hnumbers, hrange⟩
  unfold validPorts
  rw [hchecked]
  rfl

theorem validPorts_error {ports : Option (List Json)}
    (h : ∃ raw ∈ ports.getD [], IsInfinite raw) : ∃ e, validPorts ports = .error e := by
  obtain ⟨e, he⟩ := mapM_validPort_error h
  exact ⟨e, by unfold validPorts; rw [he]; rfl⟩

/-! ## The text is a filter -/

/-- A group as it is written; nothing where it has no terms. -/
def clauseText (opening : List Char) (texts : List String) : List Char :=
  if texts = [] then [] else opening ++ ((" or ".intercalate texts).toList ++ [')'])

theorem buildCaptureFilter_ok (watchIps excludeIps : Option (List String))
    {watchPorts excludePorts : Option (List Json)} {watch exclude : List ℤ}
    (hwatch : validPorts watchPorts = .ok watch) (hexclude : validPorts excludePorts = .ok exclude) :
    ∃ text, buildCaptureFilter watchIps watchPorts excludeIps excludePorts = .ok text ∧
      text.toList = "ip".toList ++ clauseText " and (".toList (terms (configuredIps watchIps) watch) ++
        clauseText " and not (".toList (terms (configuredIps excludeIps) exclude) := by
  unfold buildCaptureFilter
  rw [hwatch, hexclude, validIps_eq, validIps_eq]
  refine ⟨_, rfl, ?_⟩
  generalize terms (configuredIps watchIps) watch = watchTerms
  generalize terms (configuredIps excludeIps) exclude = excludeTerms
  cases watchTerms <;> cases excludeTerms <;>
    simp [clauseText, basicFilter, String.intercalate_cons_cons]

theorem buildCaptureFilter_error (watchIps excludeIps : Option (List String))
    {watchPorts excludePorts : Option (List Json)}
    (h : ∃ raw ∈ watchPorts.getD [] ++ excludePorts.getD [], IsInfinite raw) :
    ∃ e, buildCaptureFilter watchIps watchPorts excludeIps excludePorts = .error e := by
  unfold buildCaptureFilter
  rcases em (∃ raw ∈ watchPorts.getD [], IsInfinite raw) with hwatch | hwatch
  · obtain ⟨e, he⟩ := validPorts_error hwatch
    exact ⟨e, by rw [he]; rfl⟩
  · obtain ⟨raw, hraw, hinf⟩ := h
    have hexclude := (List.mem_append.mp hraw).resolve_left fun hmem => hwatch ⟨raw, hmem, hinf⟩
    obtain ⟨e, he⟩ := validPorts_error ⟨raw, hexclude, hinf⟩
    obtain ⟨numbers, hnumbers, -⟩ :=
      validPorts_ok fun other hother hinf' => hwatch ⟨other, hother, hinf'⟩
    exact ⟨e, by rw [hnumbers, he]; rfl⟩

end PacketFilters

namespace CaptureFilter

theorem sepBy_intercalate {texts : List String} {ts : List FilterTerm}
    (h : List.Forall₂ (fun text t => term text.toList t) texts ts) (hne : texts ≠ []) :
    Grammar.sepBy term " or ".toList (" or ".intercalate texts).toList ts := by
  induction h with
  | nil => exact absurd rfl hne
  | @cons text t texts ts hterm hrest ih =>
    cases texts with
    | nil =>
      cases hrest
      rw [String.intercalate_singleton]
      exact .single hterm
    | cons next texts =>
      rw [String.intercalate_cons_cons, String.toList_append, String.toList_append,
        List.append_assoc]
      exact .cons hterm (ih (by simp))

/-- Terms that are written as terms are a group. -/
theorem clause_clauseText (opening : List Char) {texts : List String} {ts : List FilterTerm}
    (h : List.Forall₂ (fun text t => term text.toList t) texts ts) :
    clause opening (PacketFilters.clauseText opening texts) ts := by
  unfold PacketFilters.clauseText
  split
  · next hnil =>
    subst hnil
    cases h
    exact Or.inl ⟨rfl, rfl⟩
  · next hne => exact Or.inr ⟨_, rfl, _, rfl, sepBy_intercalate h hne⟩

theorem term_host {ip : String} (hne : ip ≠ "")
    (hip : ∀ c ∈ ip.toList, IPAddress.isAddressChar c = true) :
    term ("host " ++ ip).toList (.host ip) := by
  have hlist : ip.toList ≠ [] := fun hnil => hne (String.toList_inj.mp hnil)
  refine Or.inl ⟨ip, ⟨ip.toList, String.toList_append, hip, ?_⟩, rfl⟩
  unfold addressText
  rw [if_neg hlist, String.ofList_toList]

theorem portNumber_toString {n : ℕ} (hpos : 0 < n) (hle : n ≤ 65535) :
    portNumber (toString n).toList = some n := by
  have hdigits : (toString n).toList = Nat.toDigits 10 n := Nat.toList_repr
  have hvalue : Nat.ofDigitChars 10 (toString n).toList 0 = n := by
    rw [hdigits, Nat.ofDigitChars_ten_toDigits]
  unfold portNumber
  simp only [hvalue, hpos, hle, and_self, if_true]

theorem term_port {n : ℤ} (hpos : 0 < n) (hle : n ≤ 65535) :
    term ("port " ++ toString n).toList (.port n.toNat) := by
  obtain ⟨m, rfl⟩ := Int.eq_ofNat_of_zero_le hpos.le
  refine Or.inr ⟨m, ⟨(toString m).toList, String.toList_append, ?_, ?_⟩, rfl⟩
  · intro c hc
    have hdigits : (toString m).toList = Nat.toDigits 10 m := Nat.toList_repr
    rw [hdigits] at hc
    exact Nat.isDigit_of_mem_toDigits (by decide) (by decide) hc
  · exact portNumber_toString (by omega) (by omega)

/-- A filter names no address with another character in it. -/
theorem isAddressChar_of_term {b : List Char} {address : String} (h : term b (.host address)) :
    ∀ c ∈ address.toList, IPAddress.isAddressChar c = true := by
  rcases h with ⟨_, ⟨b', -, hchars, haddress⟩, heq⟩ | ⟨n, -, heq⟩
  · obtain rfl := FilterTerm.host.inj heq
    unfold addressText at haddress
    split at haddress
    · exact absurd haddress (by simp)
    · obtain rfl := Option.some.inj haddress
      rw [String.toList_ofList]
      exact hchars
  · exact absurd heq (by simp)

theorem isAddressChar_of_clause {opening b : List Char} {ts : List FilterTerm}
    (h : clause opening b ts) {address : String} (hmem : .host address ∈ ts) :
    ∀ c ∈ address.toList, IPAddress.isAddressChar c = true := by
  rcases h with ⟨-, rfl⟩ | ⟨_, -, _, -, hterms⟩
  · exact absurd hmem List.not_mem_nil
  · induction hterms with
    | single hterm =>
      rw [List.mem_singleton] at hmem
      exact isAddressChar_of_term (hmem ▸ hterm)
    | cons hterm _ ih =>
      rcases List.mem_cons.mp hmem with heq | hrest
      · exact isAddressChar_of_term (heq ▸ hterm)
      · exact ih hrest

theorem isAddressChar_of_sentence {b : List Char} {f : CaptureFilter} (h : sentence b f)
    {address : String} (hmem : .host address ∈ f.watch ++ f.exclude) :
    ∀ c ∈ address.toList, IPAddress.isAddressChar c = true := by
  obtain ⟨⟨watch, exclude⟩, ⟨_, _, -, ⟨_, -, hwatch⟩, hexclude⟩, rfl⟩ := h
  rcases List.mem_append.mp hmem with hmem | hmem
  · exact isAddressChar_of_clause hwatch hmem
  · exact isAddressChar_of_clause hexclude hmem

/-! ## What is configured is what is captured -/

/-- The text is this filter and no other, and lets through what its terms say. -/
structure Faithful (text : String) (watch exclude : List FilterTerm) : Prop where
  parses : ∀ f, sentence text.toList f ↔ f = ⟨watch, exclude⟩
  accepts : ∀ frame, Accepts text frame ↔
    frame.isIp = true ∧ (watch ≠ [] → ∃ t ∈ watch, t.holds frame = true) ∧
      ∀ t ∈ exclude, t.holds frame = false

/-- One reading is enough: there is no other one. -/
theorem faithful_of_sentence {text : String} {watch exclude : List FilterTerm}
    (h : sentence text.toList ⟨watch, exclude⟩) : Faithful text watch exclude := by
  have hparses : ∀ f, sentence text.toList f ↔ f = ⟨watch, exclude⟩ := fun f =>
    ⟨fun hf => reads_sentence.unique rfl hf h, fun hf => hf ▸ h⟩
  refine ⟨hparses, fun frame => ?_⟩
  rw [← holds_expr_iff ⟨watch, exclude⟩ frame]
  constructor
  · rintro ⟨f, hf, hholds⟩
    obtain rfl := (hparses f).mp hf
    exact hholds
  · exact fun hholds => ⟨_, h, hholds⟩

theorem forall₂_terms {ips : List String} {ports : List ℤ}
    (hips : ∀ ip ∈ ips, ip ≠ "" ∧ ∀ c ∈ ip.toList, IPAddress.isAddressChar c = true)
    (hports : ∀ n ∈ ports, 0 < n ∧ n ≤ 65535) :
    List.Forall₂ (fun text t => term text.toList t) (PacketFilters.terms ips ports)
      (ips.map .host ++ (ports.map Int.toNat).map .port) := by
  unfold PacketFilters.terms
  refine List.rel_append ?_ ?_
  · rw [List.forall₂_map_left_iff, List.forall₂_map_right_iff, List.forall₂_same]
    exact fun ip hip => term_host (hips ip hip).1 (hips ip hip).2
  · rw [List.map_map, List.forall₂_map_left_iff, List.forall₂_map_right_iff, List.forall₂_same]
    exact fun n hn => term_port (hports n hn).1 (hports n hn).2

theorem mem_configuredIps_iff {ips : Option (List String)} {ip : String} :
    ip ∈ PacketFilters.configuredIps ips ↔
      ∃ raw ∈ ips.getD [], strip raw = ip ∧ (ipAddress ip).isSome := by
  unfold PacketFilters.configuredIps
  rw [List.mem_filter, List.mem_map]
  constructor
  · rintro ⟨⟨raw, hraw, heq⟩, hvalid⟩
    exact ⟨raw, hraw, heq, hvalid⟩
  · rintro ⟨raw, hraw, heq, hvalid⟩
    exact ⟨⟨raw, hraw, heq⟩, hvalid⟩

/-- No valid address has a scope identifier. -/
def Unscoped (ips : List String) : Prop :=
  ∀ raw ∈ ips, (ipAddress (strip raw)).isSome → '%' ∉ (strip raw).toList

theorem Unscoped.isAddressChar {ips : Option (List String)} (h : Unscoped (ips.getD []))
    {ip : String} (hip : ip ∈ PacketFilters.configuredIps ips) :
    ip ≠ "" ∧ ∀ c ∈ ip.toList, IPAddress.isAddressChar c = true := by
  obtain ⟨raw, hraw, rfl, hvalid⟩ := mem_configuredIps_iff.mp hip
  refine ⟨fun hempty => ?_, isAddressChar_of_ipAddress hvalid (h raw hraw hvalid)⟩
  rw [hempty] at hvalid
  exact absurd hvalid (by decide)

/-- Without scope identifiers what is returned is the filter of the valid entries. -/
theorem exists_sentence {watchIps excludeIps : Option (List String)}
    {watchPorts excludePorts : Option (List Json)}
    (hips : Unscoped (watchIps.getD [] ++ excludeIps.getD []))
    (hports : ∀ raw ∈ watchPorts.getD [] ++ excludePorts.getD [], ¬ PacketFilters.IsInfinite raw) :
    ∃ text, PacketFilters.buildCaptureFilter watchIps watchPorts excludeIps excludePorts = .ok text ∧
      sentence text.toList ⟨PacketFilters.entries watchIps watchPorts,
        PacketFilters.entries excludeIps excludePorts⟩ := by
  obtain ⟨hwatch, hexclude⟩ := List.forall_mem_append.mp hports
  obtain ⟨hwatchIps, hexcludeIps⟩ := List.forall_mem_append.mp hips
  obtain ⟨watch, hwatchOk, hwatchEq, hwatchRange⟩ := PacketFilters.validPorts_ok hwatch
  obtain ⟨exclude, hexcludeOk, hexcludeEq, hexcludeRange⟩ := PacketFilters.validPorts_ok hexclude
  obtain ⟨text, hbuild, htext⟩ :=
    PacketFilters.buildCaptureFilter_ok watchIps excludeIps hwatchOk hexcludeOk
  refine ⟨text, hbuild, ?_⟩
  unfold PacketFilters.entries
  rw [htext, ← hwatchEq, ← hexcludeEq]
  exact ⟨(_, _), ⟨_, _, rfl,
    ⟨_, rfl, clause_clauseText _
      (forall₂_terms (fun ip hip => Unscoped.isAddressChar hwatchIps hip) hwatchRange)⟩,
    clause_clauseText _
      (forall₂_terms (fun ip hip => Unscoped.isAddressChar hexcludeIps hip) hexcludeRange)⟩, rfl⟩

theorem unscoped_of_sentence {watchIps excludeIps : Option (List String)}
    {watchPorts excludePorts : Option (List Json)} {b : List Char}
    (h : sentence b ⟨PacketFilters.entries watchIps watchPorts,
      PacketFilters.entries excludeIps excludePorts⟩) :
    Unscoped (watchIps.getD [] ++ excludeIps.getD []) := by
  intro raw hraw hvalid hscope
  have hmem : FilterTerm.host (strip raw) ∈ PacketFilters.entries watchIps watchPorts ++
      PacketFilters.entries excludeIps excludePorts := by
    unfold PacketFilters.entries
    rcases List.mem_append.mp hraw with hmem | hmem
    · exact List.mem_append_left _ (List.mem_append_left _
        (List.mem_map_of_mem (mem_configuredIps_iff.mpr ⟨raw, hmem, rfl, hvalid⟩)))
    · exact List.mem_append_right _ (List.mem_append_left _
        (List.mem_map_of_mem (mem_configuredIps_iff.mpr ⟨raw, hmem, rfl, hvalid⟩)))
  exact absurd (isAddressChar_of_sentence h hmem '%' hscope) (by decide)

/-- What is returned is the filter of the valid entries exactly if no valid address has a
scope identifier; and it is returned unless a port is an infinite number. -/
theorem configured_filter_faithful_iff (watchIps excludeIps : Option (List String))
    (watchPorts excludePorts : Option (List Json)) :
    (∃ text, PacketFilters.buildCaptureFilter watchIps watchPorts excludeIps excludePorts = .ok text ∧
      Faithful text (PacketFilters.entries watchIps watchPorts)
        (PacketFilters.entries excludeIps excludePorts)) ↔
      Unscoped (watchIps.getD [] ++ excludeIps.getD []) ∧
        ∀ raw ∈ watchPorts.getD [] ++ excludePorts.getD [], ¬ PacketFilters.IsInfinite raw := by
  constructor
  · rintro ⟨text, hbuild, hfaithful⟩
    refine ⟨unscoped_of_sentence ((hfaithful.parses _).mpr rfl), fun raw hraw hinf => ?_⟩
    obtain ⟨e, he⟩ :=
      PacketFilters.buildCaptureFilter_error watchIps excludeIps ⟨raw, hraw, hinf⟩
    rw [hbuild] at he
    exact absurd he (by simp)
  · rintro ⟨hips, hports⟩
    obtain ⟨text, hbuild, hsentence⟩ := exists_sentence hips hports
    exact ⟨text, hbuild, faithful_of_sentence hsentence⟩

/-- An address whose scope identifier closes the group and opens another one. -/
def scopedIp : String := "::1%x) or (port 1"

theorem scoped_ip_breaks_out :
    ∃ text, PacketFilters.buildCaptureFilter (some [scopedIp]) none none none = .ok text ∧
      text = "ip and (host ::1%x) or (port 1)" ∧ ∀ f, ¬ sentence text.toList f := by
  refine ⟨_, by decide +kernel, rfl, fun f hf => ?_⟩
  have hparse := parse_eq_some_iff.mpr hf
  rw [show parse "ip and (host ::1%x) or (port 1)" = none by decide +kernel] at hparse
  exact absurd hparse (by simp)

end CaptureFilter

end SmartIDS.PacketCapture
