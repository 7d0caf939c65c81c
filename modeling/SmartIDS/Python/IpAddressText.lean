import SmartIDS.Python.IpAddress
set_option autoImplicit false

/-!
# Python: which characters an address is written with

An address is written with hexadecimal digits, dots and colons, up to its scope
identifier, which may be any text without `%` and `/` (`isAddressChar_of_ipAddress`).
-/

namespace SmartIDS.Python

namespace IPAddress

/-- A hexadecimal digit, a dot or a colon. -/
def isAddressChar (c : Char) : Bool := (hexDigit? c).isSome || c == '.' || c == ':'

theorem isAddressChar_of_hexDigit? {c : Char} (h : (hexDigit? c).isSome) : isAddressChar c = true := by
  unfold isAddressChar
  rw [h]
  rfl

theorem isAddressChar_of_isAsciiDigit {c : Char} (h : isAsciiDigit c = true) :
    isAddressChar c = true := by
  refine isAddressChar_of_hexDigit? ?_
  unfold hexDigit?
  rw [if_pos h]
  rfl

/-! ## Parts -/

theorem mem_of_mem_intercalate {c x : Char} {parts : List (List Char)}
    (h : c ∈ [x].intercalate parts) : c = x ∨ ∃ part ∈ parts, c ∈ part := by
  induction parts with
  | nil => exact absurd h (by simp)
  | cons part rest ih =>
    cases rest with
    | nil => exact Or.inr ⟨part, by simp, by simpa using h⟩
    | cons next rest =>
      rw [List.intercalate_cons_cons, List.append_assoc, List.mem_append, List.mem_append,
        List.mem_singleton] at h
      rcases h with hpart | rfl | hrest
      · exact Or.inr ⟨part, List.mem_cons_self, hpart⟩
      · exact Or.inl rfl
      · refine (ih hrest).imp id ?_
        rintro ⟨other, hmem, hc⟩
        exact ⟨other, List.mem_cons_of_mem _ hmem, hc⟩

/-- The text has the separator and the characters of its parts. -/
theorem forall_of_splitOn {q : Char → Bool} {x : Char} {s : List Char} (hx : q x = true)
    (h : ∀ part ∈ s.splitOn x, ∀ c ∈ part, q c = true) : ∀ c ∈ s, q c = true := by
  intro c hc
  have hs : [x].intercalate (s.splitOn x) = s := List.intercalate_splitOn x
  rw [← hs] at hc
  rcases mem_of_mem_intercalate hc with rfl | ⟨part, hpart, hmem⟩
  · exact hx
  · exact h part hpart c hmem

theorem isSome_of_mapM {α β : Type} {f : α → Option β} {l : List α}
    (h : (l.mapM f).isSome) : ∀ a ∈ l, (f a).isSome := by
  induction l with
  | nil => exact List.forall_mem_nil _
  | cons a l ih =>
    rw [List.mapM_cons] at h
    cases ha : f a with
    | none => simp [ha] at h
    | some b =>
      cases hl : l.mapM f with
      | none => simp [ha, hl] at h
      | some bs => exact List.forall_mem_cons.mpr ⟨by simp [ha], ih (by simp [hl])⟩

/-! ## IPv4 -/

theorem isAddressChar_of_parseOctet {s : List Char} (h : (parseOctet s).isSome) :
    ∀ c ∈ s, isAddressChar c = true := by
  unfold parseOctet at h
  split at h
  · exact absurd h (by simp)
  · next hchecks =>
    simp only [Bool.or_eq_true, not_or, Bool.not_eq_true', Bool.not_eq_false] at hchecks
    exact fun c hc => isAddressChar_of_isAsciiDigit (List.all_eq_true.mp hchecks.1.1.2 c hc)

theorem isAddressChar_of_parseV4 {s : List Char} (h : (parseV4 s).isSome) :
    ∀ c ∈ s, isAddressChar c = true := by
  unfold parseV4 at h
  dsimp only at h
  split at h
  · exact absurd h (by simp)
  · rw [Option.isSome_map] at h
    exact forall_of_splitOn (by decide) fun part hpart =>
      isAddressChar_of_parseOctet (isSome_of_mapM h part hpart)

/-! ## IPv6 -/

theorem isAddressChar_of_parseHextet {s : List Char} (h : (parseHextet s).isSome) :
    ∀ c ∈ s, isAddressChar c = true := by
  unfold parseHextet at h
  split at h
  · exact absurd h (by simp)
  · rw [Option.isSome_map] at h
    exact fun c hc => isAddressChar_of_hexDigit? (isSome_of_mapM h c hc)

theorem isSome_of_assemble {parts : List (List Char)} {hi lo skipped : ℕ}
    (h : (assemble parts hi lo skipped).isSome) :
    (∀ part ∈ parts.take hi, (parseHextet part).isSome) ∧
      ∀ part ∈ parts.drop (parts.length - lo), (parseHextet part).isSome := by
  unfold assemble at h
  cases hhigh : (parts.take hi).mapM parseHextet with
  | none => simp [hhigh] at h
  | some high =>
    cases hlow : (parts.drop (parts.length - lo)).mapM parseHextet with
    | none => simp [hhigh, hlow] at h
    | some low => exact ⟨isSome_of_mapM (by simp [hhigh]), isSome_of_mapM (by simp [hlow])⟩

/-- A part that is not read is empty: the one skipped, or an end next to it. -/
theorem empty_of_unread {parts : List (List Char)} {skip hi lo i : ℕ}
    (hskip : skipIndices parts = [skip]) (hi_le : hi ≤ i) (hlo : i < parts.length - lo)
    (hhi : hi = if parts.head? == some [] then skip - 1 else skip)
    (hlo' : lo = if parts.getLast? == some [] then parts.length - skip - 2
      else parts.length - skip - 1)
    (hends : ¬ (parts.head? == some [] && hi != 0 || parts.getLast? == some [] && lo != 0) = true) :
    parts.getD i [] = [] := by
  have hmem : skip ∈ skipIndices parts := by
    rw [hskip]
    exact List.mem_singleton_self skip
  simp only [skipIndices, List.mem_filter, List.mem_range, Bool.and_eq_true, decide_eq_true_eq,
    List.isEmpty_iff] at hmem
  obtain ⟨-, ⟨hfirst, hlast⟩, hempty⟩ := hmem
  simp only [Bool.or_eq_true, Bool.and_eq_true, bne_iff_ne, ne_eq, not_or, not_and, not_not]
    at hends
  have hcases : i = skip ∨ (i = 0 ∧ (parts.head? == some []) = true) ∨
      (i = parts.length - 1 ∧ (parts.getLast? == some []) = true) := by
    split at hhi <;> split at hlo' <;> simp_all <;> omega
  rcases hcases with rfl | ⟨rfl, hhead⟩ | ⟨rfl, hlast⟩
  · exact hempty
  · rw [List.getD_eq_getElem?_getD, ← List.head?_eq_getElem?, eq_of_beq hhead]
    rfl
  · rw [List.getD_eq_getElem?_getD, ← List.getLast?_eq_getElem?, eq_of_beq hlast]
    rfl

theorem isAddressChar_of_parseHextets {parts : List (List Char)}
    (h : (parseHextets parts).isSome) :
    ∀ part ∈ parts, ∀ c ∈ part, isAddressChar c = true := by
  unfold parseHextets at h
  dsimp only at h
  split at h
  · exact absurd h (by simp)
  · split at h
    · split at h
      · exact absurd h (by simp)
      · next hchecks =>
        simp only [Bool.or_eq_true, not_or, bne_iff_ne, ne_eq, not_not] at hchecks
        intro part hpart
        refine isAddressChar_of_parseHextet ((isSome_of_assemble h).1 part ?_)
        rw [List.take_of_length_le (by omega)]
        exact hpart
    · next skip hskip =>
      generalize hhi : (if parts.head? == some [] then skip - 1 else skip) = hi at h
      generalize hlo : (if parts.getLast? == some [] then parts.length - skip - 2
        else parts.length - skip - 1) = lo at h
      split at h
      · exact absurd h (by simp)
      · next hchecks =>
        obtain ⟨hhigh, hlow⟩ := isSome_of_assemble h
        rw [Bool.or_eq_true, not_or] at hchecks
        intro part hpart
        obtain ⟨i, hi', rfl⟩ := List.getElem_of_mem hpart
        rcases Nat.lt_or_ge i hi with hlt | hge
        · exact isAddressChar_of_parseHextet (hhigh _ (List.mem_take_iff_getElem.mpr
            ⟨i, by omega, rfl⟩))
        · rcases Nat.lt_or_ge i (parts.length - lo) with hunread | htail
          · have hempty := empty_of_unread hskip hge hunread hhi.symm hlo.symm hchecks.1
            rw [List.getD_eq_getElem?_getD, List.getElem?_eq_getElem hi', Option.getD_some]
              at hempty
            rw [hempty]
            exact List.forall_mem_nil _
          · refine isAddressChar_of_parseHextet (hlow _ (List.mem_drop_iff_getElem.mpr
              ⟨i - (parts.length - lo), by omega, ?_⟩))
            congr 1
            omega
    · exact absurd h (by simp)

theorem isAddressChar_of_expandV4Tail {parts expanded : List (List Char)}
    (h : expandV4Tail parts = some expanded)
    (hexpanded : ∀ part ∈ expanded, ∀ c ∈ part, isAddressChar c = true) :
    ∀ part ∈ parts, ∀ c ∈ part, isAddressChar c = true := by
  unfold expandV4Tail at h
  split at h
  · exact Option.some.inj h ▸ hexpanded
  · next last hlast =>
    split at h
    · obtain ⟨ip, hip, rfl⟩ := Option.map_eq_some_iff.mp h
      intro part hpart
      rw [← List.dropLast_append_getLast? last hlast, List.mem_append, List.mem_singleton] at hpart
      rcases hpart with hfront | rfl
      · exact hexpanded part (List.mem_append_left _ hfront)
      · exact isAddressChar_of_parseV4 (by rw [hip]; rfl)
    · exact Option.some.inj h ▸ hexpanded

theorem isAddressChar_of_parseV6 {s : List Char} (h : (parseV6 s).isSome) (hscope : '%' ∉ s) :
    ∀ c ∈ s, isAddressChar c = true := by
  obtain ⟨result, hresult⟩ := Option.isSome_iff_exists.mp h
  unfold parseV6 at hresult
  have hsplit : splitScopeId s = some (s, none) := by
    unfold splitScopeId
    rw [List.splitOn_eq_singleton hscope]
  rw [hsplit] at hresult
  simp only [Option.bind_eq_bind, Option.bind_some, Option.bind_none] at hresult
  split at hresult
  · exact absurd hresult (by simp)
  · split at hresult
    · exact absurd hresult (by simp)
    · obtain ⟨parts, hexpand, hrest⟩ := Option.bind_eq_some_iff.mp hresult
      obtain ⟨ip, hip, -⟩ := Option.bind_eq_some_iff.mp hrest
      have hparts : (parseHextets parts).isSome := by rw [hip]; rfl
      exact forall_of_splitOn (by decide)
        (isAddressChar_of_expandV4Tail hexpand (isAddressChar_of_parseHextets hparts))

end IPAddress

/-- An address without a scope identifier is hexadecimal digits, dots and colons. -/
theorem isAddressChar_of_ipAddress {s : String} (h : (ipAddress s).isSome)
    (hscope : '%' ∉ s.toList) : ∀ c ∈ s.toList, IPAddress.isAddressChar c = true := by
  unfold ipAddress at h
  split at h
  · next ip hip => exact IPAddress.isAddressChar_of_parseV4 (by rw [hip]; rfl)
  · rw [Option.isSome_map] at h
    exact IPAddress.isAddressChar_of_parseV6 h hscope

end SmartIDS.Python
