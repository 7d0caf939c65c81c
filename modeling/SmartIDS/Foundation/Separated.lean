import Mathlib.Data.Int.Notation
import Mathlib.Data.List.Basic
set_option autoImplicit false

/-!
# Foundation: fields joined by a separator

Two fields joined by a separator can be read back when one of them does not
contain it: the first separator of the text ends a left field without one, the
last separator starts a right field without one.
-/

namespace SmartIDS.Foundation

namespace Separated

section lists

variable {α : Type} {x : α} {l l' r r' : List α}

/-- The first separator is where the left field ends. -/
theorem list_inj_of_notMem_left (hl : x ∉ l) (hl' : x ∉ l') (h : l ++ x :: r = l' ++ x :: r') :
    l = l' ∧ r = r' := by
  induction l generalizing l' with
  | nil =>
    cases l' with
    | nil => exact ⟨rfl, (List.cons.inj h).2⟩
    | cons y l' =>
      obtain ⟨rfl, -⟩ := List.cons.inj h
      exact absurd List.mem_cons_self hl'
  | cons y l ih =>
    cases l' with
    | nil =>
      obtain ⟨rfl, -⟩ := List.cons.inj h
      exact absurd List.mem_cons_self hl
    | cons z l' =>
      obtain ⟨rfl, hrest⟩ := List.cons.inj h
      obtain ⟨rfl, hr⟩ := ih (List.not_mem_of_not_mem_cons hl)
        (List.not_mem_of_not_mem_cons hl') hrest
      exact ⟨rfl, hr⟩

/-- The last separator is where the right field starts: the lists reversed. -/
theorem list_inj_of_notMem_right (hr : x ∉ r) (hr' : x ∉ r') (h : l ++ x :: r = l' ++ x :: r') :
    l = l' ∧ r = r' := by
  have hreverse : r.reverse ++ x :: l.reverse = r'.reverse ++ x :: l'.reverse := by
    simpa using congrArg List.reverse h
  obtain ⟨hright, hleft⟩ := list_inj_of_notMem_left (mt List.mem_reverse.mp hr)
    (mt List.mem_reverse.mp hr') hreverse
  exact ⟨List.reverse_injective hleft, List.reverse_injective hright⟩

end lists

/-- The character does not occur in the text. -/
def Lacks (c : Char) (s : String) : Prop := c ∉ s.toList

instance (c : Char) (s : String) : Decidable (Lacks c s) := inferInstanceAs (Decidable (_ ∉ _))

theorem Lacks.append {c : Char} {s t : String} (hs : Lacks c s) (ht : Lacks c t) :
    Lacks c (s ++ t) := by
  unfold Lacks at *
  rw [String.toList_append, List.mem_append]
  exact not_or.mpr ⟨hs, ht⟩

/-- A separator that is not a digit does not occur in a printed number. -/
theorem lacks_toString {c : Char} (hc : c.isDigit = false) (n : ℕ) : Lacks c (toString n) := by
  have htext : (toString n).toList = Nat.toDigits 10 n := Nat.toList_repr
  unfold Lacks
  rw [htext]
  intro hmem
  rw [Nat.isDigit_of_mem_toDigits (by decide) (by decide) hmem] at hc
  exact absurd hc (by decide)

/-- Printed numbers can be read back. -/
theorem toString_nat_inj {m n : ℕ} (h : toString m = toString n) : m = n := by
  have hdigits : Nat.toDigits 10 m = Nat.toDigits 10 n := by
    rw [← Nat.toList_repr, ← Nat.toList_repr]
    exact congrArg String.toList h
  rw [← Nat.ofDigitChars_ten_toDigits (n := m), hdigits, Nat.ofDigitChars_ten_toDigits]

/-- The minus sign is the only character of a printed integer that is not a digit. -/
theorem lacks_toString_int {c : Char} (hc : c.isDigit = false) (hminus : c ≠ '-') (n : ℤ) :
    Lacks c (toString n) := by
  cases n with
  | ofNat n => exact lacks_toString hc n
  | negSucc n =>
    have hsign : Lacks c "-" := fun hmem => hminus (List.mem_singleton.mp hmem)
    exact hsign.append (lacks_toString hc (n + 1))

theorem toString_int_inj {m n : ℤ} (h : toString m = toString n) : m = n := by
  have hsign : ∀ j k : ℕ, toString j ≠ "-" ++ toString (k + 1) := by
    intro j k heq
    have hlacks : Lacks '-' (toString j) := lacks_toString (by decide) j
    unfold Lacks at hlacks
    rw [heq, String.toList_append, List.mem_append] at hlacks
    exact hlacks (Or.inl (by decide))
  cases m with
  | ofNat j =>
    cases n with
    | ofNat k => exact congrArg Int.ofNat (toString_nat_inj h)
    | negSucc k => exact absurd h (hsign j k)
  | negSucc j =>
    cases n with
    | ofNat k => exact absurd h.symm (hsign k j)
    | negSucc k =>
      have hlists : ("-" ++ toString (j + 1)).toList = ("-" ++ toString (k + 1)).toList :=
        congrArg String.toList h
      rw [String.toList_append, String.toList_append] at hlists
      have hsucc := toString_nat_inj (String.toList_inj.mp (List.append_cancel_left hlists))
      exact congrArg Int.negSucc (Nat.succ.inj hsucc)

section texts

variable {c : Char} {sep a a' b b' : String}

theorem toList_join (hsep : sep.toList = [c]) :
    (a ++ sep ++ b).toList = a.toList ++ c :: b.toList := by
  rw [String.toList_append, String.toList_append, hsep, List.append_assoc, List.singleton_append]

theorem inj_of_lacks_left (hsep : sep.toList = [c]) (ha : Lacks c a) (ha' : Lacks c a')
    (h : a ++ sep ++ b = a' ++ sep ++ b') : a = a' ∧ b = b' := by
  have hlists := congrArg String.toList h
  rw [toList_join hsep, toList_join hsep] at hlists
  obtain ⟨hleft, hright⟩ := list_inj_of_notMem_left ha ha' hlists
  exact ⟨String.toList_inj.mp hleft, String.toList_inj.mp hright⟩

theorem inj_of_lacks_right (hsep : sep.toList = [c]) (hb : Lacks c b) (hb' : Lacks c b')
    (h : a ++ sep ++ b = a' ++ sep ++ b') : a = a' ∧ b = b' := by
  have hlists := congrArg String.toList h
  rw [toList_join hsep, toList_join hsep] at hlists
  obtain ⟨hleft, hright⟩ := list_inj_of_notMem_right hb hb' hlists
  exact ⟨String.toList_inj.mp hleft, String.toList_inj.mp hright⟩

end texts

end Separated

end SmartIDS.Foundation
