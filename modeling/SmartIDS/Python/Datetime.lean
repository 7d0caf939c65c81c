import Mathlib.Data.List.Lex
import Mathlib.Data.String.Basic
import Mathlib.Order.Monotone.Basic
import SmartIDS.Python.Counter
import SmartIDS.Python.Value
set_option autoImplicit false

/-!
# Python: aware time stamps and their ISO-8601 texts

`datetime.fromtimestamp(t, tz=timezone.utc).isoformat()`.  The text has a field of
fixed width for each part of the time, the largest part first, but leaves out the
fraction of a second where it is zero.  Texts are compared character by
character; `isoformat_strictMono` is that they are ordered as the times are, since
the sign in front of the offset is less than the point in front of a fraction.
-/

namespace SmartIDS.Python

open SmartIDS.PacketCapture

/-! ## The calendar -/

/-- The days before the year `y + 1`. -/
def daysBeforeYear (y : ℕ) : ℕ := 365 * y + y / 4 - y / 100 + y / 400

/-- The years that are over on the day `n`, counted from the first day of the year 1. -/
def yearsBeforeDay (n : ℕ) : ℕ :=
  let inCycle := n % 146097
  let centuries := min 3 (inCycle / 36524)
  let inCentury := inCycle - 36524 * centuries
  let inOlympiad := inCentury % 1461
  400 * (n / 146097) + 100 * centuries + 4 * (inCentury / 1461) + min 3 (inOlympiad / 365)

theorem daysBeforeYear_eq (a b c d : ℕ) (hb : b ≤ 3) (hc : c ≤ 24) (hd : d ≤ 3) :
    daysBeforeYear (400 * a + 100 * b + 4 * c + d) =
      146097 * a + 36524 * b + 1461 * c + 365 * d := by
  unfold daysBeforeYear
  have hfour : (400 * a + 100 * b + 4 * c + d) / 4 = 100 * a + 25 * b + c := by omega
  have hhundred : (400 * a + 100 * b + 4 * c + d) / 100 = 4 * a + b := by omega
  have hcycle : (400 * a + 100 * b + 4 * c + d) / 400 = a := by omega
  omega

/-- Whether the year `y + 1` is a leap year. -/
def isLeap (y : ℕ) : Bool :=
  (y + 1) % 4 == 0 && ((y + 1) % 100 != 0 || (y + 1) % 400 == 0)

theorem isLeap_iff (y : ℕ) :
    isLeap y = true ↔ (y + 1) % 4 = 0 ∧ ((y + 1) % 100 ≠ 0 ∨ (y + 1) % 400 = 0) := by
  unfold isLeap
  rw [Bool.and_eq_true, Bool.or_eq_true, beq_iff_eq, beq_iff_eq, bne_iff_ne]

theorem daysBeforeYear_succ (y : ℕ) :
    daysBeforeYear (y + 1) = daysBeforeYear y + if isLeap y then 366 else 365 := by
  unfold daysBeforeYear
  have hfour : (y + 1) / 4 = y / 4 + if (y + 1) % 4 = 0 then 1 else 0 := by split <;> omega
  have hhundred : (y + 1) / 100 = y / 100 + if (y + 1) % 100 = 0 then 1 else 0 := by
    split <;> omega
  have hcycle : (y + 1) / 400 = y / 400 + if (y + 1) % 400 = 0 then 1 else 0 := by
    split <;> omega
  have hle : y / 100 ≤ 365 * y := by omega
  rcases em (isLeap y = true) with hleap | hleap
  · rw [if_pos hleap]
    rw [isLeap_iff] at hleap
    split_ifs at hfour hhundred hcycle <;> omega
  · rw [if_neg hleap]
    rw [isLeap_iff] at hleap
    split_ifs at hfour hhundred hcycle <;> omega

theorem daysBeforeYear_mono {y z : ℕ} (h : y ≤ z) : daysBeforeYear y ≤ daysBeforeYear z :=
  monotone_nat_of_le_succ (fun n => by rw [daysBeforeYear_succ]; exact Nat.le_add_right _ _) h

/-- The day lies in its year. -/
theorem daysBeforeYear_yearsBeforeDay (n : ℕ) :
    daysBeforeYear (yearsBeforeDay n) ≤ n ∧ n < daysBeforeYear (yearsBeforeDay n + 1) := by
  have hcenturies : min 3 (n % 146097 / 36524) ≤ 3 := Nat.min_le_left _ _
  unfold yearsBeforeDay
  generalize hb : min 3 (n % 146097 / 36524) = b at hcenturies ⊢
  simp only [hb]
  have hcentury : n % 146097 - 36524 * b < 36525 := by omega
  generalize hr : n % 146097 - 36524 * b = r at hcentury ⊢
  generalize hd : min 3 (r % 1461 / 365) = d at ⊢
  have hd3 : d ≤ 3 := by omega
  have hc : r / 1461 ≤ 24 := by omega
  constructor
  · rw [daysBeforeYear_eq _ _ _ _ hcenturies hc hd3]
    omega
  · rw [daysBeforeYear_succ, daysBeforeYear_eq _ _ _ _ hcenturies hc hd3]
    split
    · omega
    · next hleap =>
      rw [isLeap_iff] at hleap
      omega

theorem yearsBeforeDay_mono {m n : ℕ} (h : m ≤ n) : yearsBeforeDay m ≤ yearsBeforeDay n := by
  have hm := (daysBeforeYear_yearsBeforeDay m).1
  have hn := (daysBeforeYear_yearsBeforeDay n).2
  by_contra hlt
  have hle : daysBeforeYear (yearsBeforeDay n + 1) ≤ daysBeforeYear (yearsBeforeDay m) :=
    daysBeforeYear_mono (by omega)
  omega

/-- The lengths of the months. -/
def monthLengths (leap : Bool) : List ℕ :=
  [31, if leap then 29 else 28, 31, 30, 31, 30, 31, 31, 30, 31, 30, 31]

/-- The months that are over on a day of the year, and the days of the month. -/
def monthDay : List ℕ → ℕ → ℕ × ℕ
  | [], day => (0, day)
  | length :: rest, day =>
    if day < length then (0, day)
    else ((monthDay rest (day - length)).1 + 1, (monthDay rest (day - length)).2)

theorem monthDay_mono (lengths : List ℕ) {a b : ℕ} (h : a ≤ b) :
    (monthDay lengths a).1 ≤ (monthDay lengths b).1 ∧
      ((monthDay lengths a).1 = (monthDay lengths b).1 →
        (monthDay lengths a).2 + (b - a) = (monthDay lengths b).2) := by
  induction lengths generalizing a b with
  | nil => exact ⟨le_rfl, fun _ => by simp only [monthDay]; omega⟩
  | cons length rest ih =>
    unfold monthDay
    split
    · next ha =>
      split
      · exact ⟨le_rfl, fun _ => by simp only; omega⟩
      · exact ⟨Nat.zero_le _, fun heq => absurd heq (by simp)⟩
    · next ha =>
      rw [if_neg (by omega)]
      obtain ⟨hmonth, hday⟩ := ih (show a - length ≤ b - length by omega)
      refine ⟨Nat.succ_le_succ hmonth, fun heq => ?_⟩
      have hdays := hday (Nat.succ.inj heq)
      simp only
      omega

theorem monthDay_lt {lengths : List ℕ} {day : ℕ} (h : day < lengths.sum)
    (hlong : ∀ length ∈ lengths, length ≤ 31) :
    (monthDay lengths day).1 < lengths.length ∧ (monthDay lengths day).2 < 31 := by
  induction lengths generalizing day with
  | nil => exact absurd h (Nat.not_lt_zero day)
  | cons length rest ih =>
    obtain ⟨hlength, hrest⟩ := List.forall_mem_cons.mp hlong
    rw [List.sum_cons] at h
    unfold monthDay
    split
    · exact ⟨Nat.zero_lt_succ _, by simp only; omega⟩
    · obtain ⟨hmonth, hday⟩ := ih (show day - length < rest.sum by omega) hrest
      exact ⟨Nat.succ_lt_succ hmonth, hday⟩

/-! ## Fields of fixed width -/

/-- The last `width` decimal digits. -/
def pad : ℕ → ℕ → List Char
  | 0, _ => []
  | width + 1, n => pad width (n / 10) ++ [Nat.digitChar (n % 10)]

theorem digitChar_lt {i j : ℕ} (h : i < j) (hj : j < 10) : Nat.digitChar i < Nat.digitChar j := by
  have hall : ∀ j < 10, ∀ i < j, Nat.digitChar i < Nat.digitChar j := by decide
  exact hall j hj i h

/-- The smaller field decides, whatever follows. -/
theorem pad_append_lt {width a b : ℕ} (h : a < b) (hb : b < 10 ^ width) (s t : List Char) :
    pad width a ++ s < pad width b ++ t := by
  induction width generalizing a b s t with
  | zero => exact absurd hb (by simp; omega)
  | succ width ih =>
    simp only [pad, List.append_assoc, List.singleton_append]
    rcases Nat.lt_or_ge (a / 10) (b / 10) with hlt | hge
    · exact ih hlt (by rw [pow_succ] at hb; omega) _ _
    · have hsame : a / 10 = b / 10 := by omega
      have hdigit : Nat.digitChar (a % 10) < Nat.digitChar (b % 10) :=
        digitChar_lt (by omega) (Nat.mod_lt _ (by omega))
      rw [hsame]
      exact List.append_left_lt (List.cons_lt_cons_iff.mpr (Or.inl hdigit))

/-- A field that is no larger, with what follows to decide where it is the same. -/
theorem field_lt {width a b : ℕ} {s t : List Char} (h : a ≤ b) (hb : b < 10 ^ width)
    (heq : a = b → s < t) : pad width a ++ s < pad width b ++ t := by
  rcases h.eq_or_lt with rfl | hlt
  · exact List.append_left_lt (heq rfl)
  · exact pad_append_lt hlt hb s t

theorem cons_lt {c : Char} {s t : List Char} (h : s < t) : c :: s < c :: t :=
  List.cons_lt_cons_iff.mpr (Or.inr ⟨rfl, h⟩)

/-! ## Time stamps -/

/-- An aware `datetime` in UTC, as the microseconds since the year 1 began. -/
structure Datetime where
  microseconds : ℕ
  /-- The year is 9999 at most. -/
  inRange : microseconds < 315537897600000000

namespace Datetime

theorem ext {d e : Datetime} (h : d.microseconds = e.microseconds) : d = e := by
  cases d
  cases e
  simp_all

instance : LinearOrder Datetime :=
  LinearOrder.lift' Datetime.microseconds fun _ _ h => ext h

theorem lt_iff {d e : Datetime} : d < e ↔ d.microseconds < e.microseconds := Iff.rfl

/-- `datetime.fromtimestamp(t, tz=timezone.utc)`: rounded to microseconds, half to even. -/
def fromTimestamp (t : Time) : Except PyError Datetime := do
  let t ← SmartIDS.Python.fromTimestamp t
  let microseconds := (pyRound (t * 1000000) + 62135596800000000).toNat
  -- the last half microsecond of the year 9999 is rounded into the next one
  if h : microseconds < 315537897600000000 then return ⟨microseconds, h⟩
  else .error .valueError

/-- The fraction of a second, left out where it is zero. -/
def fraction (microsecond : ℕ) : List Char :=
  if microsecond = 0 then [] else '.' :: pad 6 microsecond

/-- The parts of a time stamp. -/
def days (d : Datetime) : ℕ := d.microseconds / 86400000000
def year (d : Datetime) : ℕ := yearsBeforeDay d.days + 1
def dayOfYear (d : Datetime) : ℕ := d.days - daysBeforeYear (yearsBeforeDay d.days)
def monthAndDay (d : Datetime) : ℕ × ℕ :=
  monthDay (monthLengths (isLeap (yearsBeforeDay d.days))) d.dayOfYear
def month (d : Datetime) : ℕ := d.monthAndDay.1 + 1
def day (d : Datetime) : ℕ := d.monthAndDay.2 + 1
def hour (d : Datetime) : ℕ := d.microseconds / 3600000000 % 24
def minute (d : Datetime) : ℕ := d.microseconds / 60000000 % 60
def second (d : Datetime) : ℕ := d.microseconds / 1000000 % 60
def microsecond (d : Datetime) : ℕ := d.microseconds % 1000000

/-- `isoformat()`. -/
def isoformat (d : Datetime) : String :=
  String.ofList <|
    pad 4 d.year ++ '-' :: (pad 2 d.month ++ '-' :: (pad 2 d.day ++ 'T' ::
      (pad 2 d.hour ++ ':' :: (pad 2 d.minute ++ ':' :: (pad 2 d.second ++
        (fraction d.microsecond ++ "+00:00".toList))))))

/-! ## The order of the texts -/

theorem fraction_lt {a b : ℕ} (h : a < b) (hb : b < 1000000) :
    fraction a ++ "+00:00".toList < fraction b ++ "+00:00".toList := by
  have hbpos : b ≠ 0 := by omega
  unfold fraction
  rw [if_neg hbpos]
  rcases eq_or_ne a 0 with ha | ha
  · -- `'+' < '.'`
    rw [if_pos ha]
    exact List.cons_lt_cons_iff.mpr (Or.inl (by decide))
  · rw [if_neg ha]
    exact cons_lt (pad_append_lt h (by simpa using hb) _ _)

theorem days_lt (d : Datetime) : d.days < 3652059 := by
  have h := d.inRange
  unfold days
  omega

theorem year_lt (d : Datetime) : d.year < 10000 := by
  have hday := d.days_lt
  have hyear := (daysBeforeYear_yearsBeforeDay d.days).1
  have hlast : daysBeforeYear 9999 = 3652059 := by decide
  unfold year
  by_contra hlt
  have hle : daysBeforeYear 9999 ≤ daysBeforeYear (yearsBeforeDay d.days) :=
    daysBeforeYear_mono (by omega)
  omega

theorem monthAndDay_lt (d : Datetime) : d.monthAndDay.1 < 12 ∧ d.monthAndDay.2 < 31 := by
  obtain ⟨hlow, hhigh⟩ := daysBeforeYear_yearsBeforeDay d.days
  rw [daysBeforeYear_succ] at hhigh
  refine monthDay_lt ?_ ?_
  · unfold dayOfYear
    cases hleap : isLeap (yearsBeforeDay d.days) <;> rw [hleap] at hhigh <;>
      simp [monthLengths] at hhigh ⊢ <;> omega
  · cases isLeap (yearsBeforeDay d.days) <;> decide

/-- The texts are ordered as the times: where all parts down to some one are the same,
the next one is no larger. -/
theorem isoformat_strictMono : StrictMono isoformat := by
  intro d e hlt
  have hus := lt_iff.mp hlt
  have hdays : d.days ≤ e.days := Nat.div_le_div_right hus.le
  have hyears := yearsBeforeDay_mono hdays
  have hd := (daysBeforeYear_yearsBeforeDay d.days).1
  rw [String.lt_iff]
  simp only [isoformat, String.toList_ofList]
  refine field_lt (Nat.succ_le_succ hyears) (year_lt e) fun hyear => cons_lt ?_
  have hsame : yearsBeforeDay d.days = yearsBeforeDay e.days := Nat.succ.inj hyear
  obtain ⟨hmonths, hdayOf⟩ :
      d.monthAndDay.1 ≤ e.monthAndDay.1 ∧ (d.monthAndDay.1 = e.monthAndDay.1 →
        d.monthAndDay.2 + (e.dayOfYear - d.dayOfYear) = e.monthAndDay.2) := by
    unfold monthAndDay
    rw [hsame]
    refine monthDay_mono _ ?_
    unfold dayOfYear
    rw [hsame]
    omega
  have hbounds := e.monthAndDay_lt
  refine field_lt (Nat.succ_le_succ hmonths) (by unfold month; omega) fun hmonth => cons_lt ?_
  have hday := hdayOf (Nat.succ.inj hmonth)
  refine field_lt (by unfold day; omega) (by unfold day; omega) fun hdayEq => cons_lt ?_
  have hdaysEq : d.days = e.days := by
    have hdayEq' : d.monthAndDay.2 = e.monthAndDay.2 := Nat.succ.inj hdayEq
    unfold dayOfYear at hday
    rw [hsame] at hday hd
    omega
  unfold days at hdaysEq
  unfold hour minute second microsecond
  refine field_lt (by omega) (by omega) fun hhour => cons_lt ?_
  refine field_lt (by omega) (by omega) fun hminute => cons_lt ?_
  refine field_lt (by omega) (by omega) fun hsecond => ?_
  exact fraction_lt (by omega) (Nat.mod_lt _ (by omega))

theorem isoformat_le_iff {d e : Datetime} : d.isoformat ≤ e.isoformat ↔ d ≤ e :=
  isoformat_strictMono.le_iff_le

theorem isoformat_injective : Function.Injective isoformat := isoformat_strictMono.injective

example : Datetime.fromTimestamp (3 / 2) = .ok ⟨62135596801500000, by decide⟩ := by
  decide +kernel

example : (⟨62135596801500000, by decide⟩ : Datetime).isoformat =
    "1970-01-01T00:00:01.500000+00:00" := by decide +kernel

example : (⟨63844847999000000, by decide⟩ : Datetime).isoformat =
    "2024-02-29T23:59:59+00:00" := by decide +kernel

end Datetime

end SmartIDS.Python
