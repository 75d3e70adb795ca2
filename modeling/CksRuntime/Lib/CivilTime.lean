import Mathlib.Data.Char
import Mathlib.Data.List.Basic
import Mathlib.Data.Nat.Find
import Mathlib.Data.String.Basic
import Mathlib.Order.Monotone.Basic

/-!
# Civil time and its texts

A time of UTC by its fields, and the two texts that are made of one: ISO 8601 as Python's
`isoformat` writes it, and `datetime` as SQLite's does. Numbers of fixed width are ordered as texts
as they are as numbers (`pad_lt_iff`), so the dates of two times are too (`dateText_lt_iff`).
-/

set_option autoImplicit false

namespace CivilTime

/-! ## The calendar -/

/-- Years with a 29th of February. -/
def isLeap (year : Nat) : Bool := year % 4 = 0 ∧ (year % 100 ≠ 0 ∨ year % 400 = 0)

/-- The length of a month. -/
def daysInMonth (year month : Nat) : Nat :=
  if month = 2 then if isLeap year then 29 else 28
  else if month = 4 ∨ month = 6 ∨ month = 9 ∨ month = 11 then 30
  else 31

/-- The days before the first of January. -/
def daysBeforeYear (year : Nat) : Nat :=
  365 * (year - 1) + (year - 1) / 4 - (year - 1) / 100 + (year - 1) / 400

/-- The days of the year before the first of the month. -/
def daysBeforeMonth (year : Nat) : Nat → Nat
  | 0 => 0
  | 1 => 0
  | month + 2 => daysBeforeMonth year (month + 1) + daysInMonth year (month + 1)

/-- A date and a time of day that exist. -/
structure UtcTime where
  year : Nat
  month : Nat
  day : Nat
  hour : Nat
  minute : Nat
  second : Nat
  microsecond : Nat
  year_pos : 1 ≤ year
  year_le : year ≤ 9999
  month_pos : 1 ≤ month
  month_le : month ≤ 12
  day_pos : 1 ≤ day
  day_le : day ≤ daysInMonth year month
  hour_lt : hour < 24
  minute_lt : minute < 60
  second_lt : second < 60
  microsecond_lt : microsecond < 1000000

namespace UtcTime

variable (t u : UtcTime)

/-- `toordinal`: day 1 is the first of January of year 1. -/
def ordinal : Nat := daysBeforeYear t.year + daysBeforeMonth t.year t.month + t.day

/-- Seconds since midnight. -/
def secondOfDay : Nat := t.hour * 3600 + t.minute * 60 + t.second

/-- In seconds, from midnight of day 0. -/
def seconds : Nat := t.ordinal * 86400 + t.secondOfDay

/-- In microseconds. -/
def microseconds : Nat := t.seconds * 1000000 + t.microsecond

end UtcTime

/-! ## Texts -/

/-- The last `width` digits. -/
def pad : Nat → Nat → List Char
  | 0, _ => []
  | width + 1, n => Nat.digitChar (n / 10 ^ width % 10) :: pad width n

/-- `YYYY-MM-DD`. -/
def dateText (year month day : Nat) : List Char :=
  pad 4 year ++ '-' :: (pad 2 month ++ '-' :: pad 2 day)

/-- `HH:MM:SS`. -/
def clockText (hour minute second : Nat) : List Char :=
  pad 2 hour ++ ':' :: (pad 2 minute ++ ':' :: pad 2 second)

namespace UtcTime

variable (t : UtcTime)

/-- The text of the date. -/
def date : List Char := dateText t.year t.month t.day

/-- Python's `isoformat`. -/
def isoformat : List Char :=
  t.date ++ 'T' :: (clockText t.hour t.minute t.second ++
    (if t.microsecond = 0 then [] else '.' :: pad 6 t.microsecond) ++ "+00:00".toList)

end UtcTime

/-- SQLite's `datetime` of a number of seconds. -/
def datetime (seconds : Nat) : List Char :=
  let ordinal := seconds / 86400
  let year := Nat.findGreatest (fun y => daysBeforeYear y < ordinal) 9999
  let month := Nat.findGreatest (fun m => daysBeforeYear year + daysBeforeMonth year m < ordinal) 12
  let day := ordinal - (daysBeforeYear year + daysBeforeMonth year month)
  let rest := seconds % 86400
  dateText year month day ++ ' ' :: clockText (rest / 3600) (rest % 3600 / 60) (rest % 60)

/-! ## The order of the texts -/

theorem digitChar_lt_iff : ∀ a b : Fin 10,
    (Nat.digitChar a < Nat.digitChar b ↔ a < b) ∧ (Nat.digitChar a = Nat.digitChar b ↔ a = b) := by
  decide

theorem append_lt_append_iff {α : Type} [LinearOrder α] : ∀ {a b c d : List α},
    a.length = b.length → (a ++ c < b ++ d ↔ a < b ∨ a = b ∧ c < d)
  | [], [], c, d, _ => by simp
  | x :: a, y :: b, c, d, h => by
    have ih := append_lt_append_iff (c := c) (d := d) (Nat.succ.inj h)
    rw [List.cons_append, List.cons_append, List.cons_lt_cons_iff, List.cons_lt_cons_iff, ih,
      List.cons.injEq]
    tauto

theorem append_eq_append_iff {α : Type} {a b c d : List α} (h : a.length = b.length) :
    a ++ c = b ++ d ↔ a = b ∧ c = d :=
  ⟨fun heq => List.append_inj heq h, fun heq => congrArg₂ (· ++ ·) heq.1 heq.2⟩

theorem length_pad (width n : Nat) : (pad width n).length = width := by
  induction width with
  | zero => rfl
  | succ width ih => rw [pad, List.length_cons, ih]

theorem pad_lt_iff (width n m : Nat) :
    (pad width n < pad width m ↔ n % 10 ^ width < m % 10 ^ width) ∧
      (pad width n = pad width m ↔ n % 10 ^ width = m % 10 ^ width) := by
  induction width with
  | zero => simp [pad, Nat.mod_one]
  | succ width ih =>
    have hdigit : ∀ k : Nat, k / 10 ^ width % 10 < 10 := fun k => Nat.mod_lt _ (by decide)
    obtain ⟨hlt, heq⟩ := digitChar_lt_iff ⟨_, hdigit n⟩ ⟨_, hdigit m⟩
    simp only [Fin.lt_def, Fin.ext_iff] at hlt heq
    have hpos : 0 < 10 ^ width := Nat.pow_pos (by decide)
    have hn : n % 10 ^ width < 10 ^ width := Nat.mod_lt _ hpos
    have hm : m % 10 ^ width < 10 ^ width := Nat.mod_lt _ hpos
    rw [pad, pad, List.cons_lt_cons_iff, List.cons.injEq, hlt, heq, ih.1, ih.2, Nat.mod_pow_succ,
      Nat.mod_pow_succ]
    generalize n / 10 ^ width % 10 = a
    generalize m / 10 ^ width % 10 = b
    generalize n % 10 ^ width = c at hn ⊢
    generalize m % 10 ^ width = d at hm ⊢
    generalize 10 ^ width = p at hn hm hpos ⊢
    rcases lt_trichotomy a b with hab | hab | hab
    · have hle : p * (a + 1) ≤ p * b := Nat.mul_le_mul_left p hab
      rw [Nat.mul_succ] at hle
      exact ⟨by omega, by omega⟩
    · subst hab
      exact ⟨by omega, by omega⟩
    · have hle : p * (b + 1) ≤ p * a := Nat.mul_le_mul_left p hab
      rw [Nat.mul_succ] at hle
      exact ⟨by omega, by omega⟩

/-- Years of four digits and so on are written in the order they come in. -/
theorem dateText_lt_iff {y m d y' m' d' : Nat} (hy : y < 10000) (hm : m < 100) (hd : d < 100)
    (hy' : y' < 10000) (hm' : m' < 100) (hd' : d' < 100) :
    (dateText y m d < dateText y' m' d' ↔
      y < y' ∨ y = y' ∧ (m < m' ∨ m = m' ∧ d < d')) ∧
    (dateText y m d = dateText y' m' d' ↔ y = y' ∧ m = m' ∧ d = d') := by
  have hyear := pad_lt_iff 4 y y'
  have hmonth := pad_lt_iff 2 m m'
  have hday := pad_lt_iff 2 d d'
  rw [Nat.mod_eq_of_lt (by omega), Nat.mod_eq_of_lt (by omega)] at hyear hmonth hday
  have hlength : ∀ w a b, (pad w a).length = (pad w b).length := fun w a b => by
    rw [length_pad, length_pad]
  rw [dateText, dateText]
  constructor
  · rw [append_lt_append_iff (hlength 4 y y'), List.cons_lt_cons_iff,
      append_lt_append_iff (hlength 2 m m'), List.cons_lt_cons_iff, hyear.1, hyear.2, hmonth.1,
      hmonth.2, hday.1]
    simp
  · rw [append_eq_append_iff (hlength 4 y y'), List.cons.injEq,
      append_eq_append_iff (hlength 2 m m'), List.cons.injEq, hyear.2, hmonth.2, hday.2]
    simp

/-! ## The order of the days -/

theorem daysBeforeYear_succ {year : Nat} (h : 1 ≤ year) : daysBeforeYear (year + 1) =
    daysBeforeYear year + if isLeap year then 366 else 365 := by
  obtain ⟨n, rfl⟩ := Nat.exists_eq_add_of_le' h
  have h4 : (n + 1) / 4 = n / 4 + if 4 ∣ n + 1 then 1 else 0 := Nat.succ_div
  have h100 : (n + 1) / 100 = n / 100 + if 100 ∣ n + 1 then 1 else 0 := Nat.succ_div
  have h400 : (n + 1) / 400 = n / 400 + if 400 ∣ n + 1 then 1 else 0 := Nat.succ_div
  have hle : n / 100 ≤ n := Nat.div_le_self n 100
  simp only [Nat.dvd_iff_mod_eq_zero] at h4 h100 h400
  simp only [daysBeforeYear, isLeap, Nat.add_sub_cancel, decide_eq_true_eq]
  rw [h4, h100, h400]
  by_cases h₄ : (n + 1) % 4 = 0
  · by_cases h₁ : (n + 1) % 100 = 0
    · by_cases h₂ : (n + 1) % 400 = 0
      · simp only [h₄, h₁, h₂, if_true, true_and, ne_eq, not_true, false_or, if_true]
        omega
      · simp only [h₄, h₁, h₂, if_true, if_false, true_and, ne_eq, not_true, false_or]
        omega
    · have h₂ : (n + 1) % 400 ≠ 0 := by omega
      simp only [h₄, h₁, h₂, if_true, if_false, true_and, ne_eq, not_false_eq_true, true_or]
      omega
  · have h₁ : (n + 1) % 100 ≠ 0 := by omega
    have h₂ : (n + 1) % 400 ≠ 0 := by omega
    simp only [h₄, h₁, h₂, if_false, false_and]
    omega

theorem daysBeforeYear_mono : Monotone daysBeforeYear := by
  refine monotone_nat_of_le_succ fun year => ?_
  cases year with
  | zero => exact Nat.zero_le _
  | succ year =>
    rw [daysBeforeYear_succ (Nat.le_add_left 1 year)]
    exact Nat.le_add_right _ _

theorem daysBeforeMonth_mono (year : Nat) : Monotone (daysBeforeMonth year) := by
  refine monotone_nat_of_le_succ fun month => ?_
  cases month with
  | zero => exact Nat.zero_le _
  | succ month => exact Nat.le_add_right _ _

/-- The months make a year. -/
theorem daysBeforeMonth_year (year : Nat) :
    daysBeforeMonth year 13 = if isLeap year then 366 else 365 := by
  cases h : isLeap year <;> simp [daysBeforeMonth, daysInMonth, h]

namespace UtcTime

variable (t u : UtcTime)

theorem day_lt : t.day < 100 := by
  have h := t.day_le
  rw [daysInMonth] at h
  repeat' split at h
  all_goals omega

theorem ordinal_le_month : t.ordinal ≤ daysBeforeYear t.year + daysBeforeMonth t.year (t.month + 1) := by
  obtain ⟨n, hn⟩ := Nat.exists_eq_add_of_le' t.month_pos
  have h := t.day_le
  rw [ordinal, hn, daysBeforeMonth]
  rw [hn] at h
  omega

theorem ordinal_le_year : t.ordinal ≤ daysBeforeYear (t.year + 1) := by
  have hmonth := daysBeforeMonth_mono t.year (show t.month + 1 ≤ 13 from Nat.succ_le_succ t.month_le)
  have h := t.ordinal_le_month
  rw [daysBeforeYear_succ t.year_pos, ← daysBeforeMonth_year]
  omega

theorem daysBefore_lt_ordinal :
    daysBeforeYear t.year + daysBeforeMonth t.year t.month < t.ordinal :=
  Nat.lt_add_of_pos_right t.day_pos

variable {t u}

theorem ordinal_lt_of_date (h : t.year < u.year ∨
    t.year = u.year ∧ (t.month < u.month ∨ t.month = u.month ∧ t.day < u.day)) :
    t.ordinal < u.ordinal := by
  have ht := t.ordinal_le_year
  have hu := u.daysBefore_lt_ordinal
  rcases h with hyear | ⟨hyear, hmonth | ⟨hmonth, hday⟩⟩
  · have hmono := daysBeforeYear_mono (show t.year + 1 ≤ u.year from hyear)
    omega
  · have htmonth := t.ordinal_le_month
    have hmono := daysBeforeMonth_mono t.year (show t.month + 1 ≤ u.month from hmonth)
    rw [← hyear] at hu
    omega
  · rw [ordinal, ordinal, hyear, hmonth]
    omega

theorem date_iff : (t.date < u.date ↔ t.ordinal < u.ordinal) ∧
    (t.date = u.date ↔ t.ordinal = u.ordinal) := by
  have hty : t.year < 10000 := by have := t.year_le; omega
  have htm : t.month < 100 := by have := t.month_le; omega
  have huy : u.year < 10000 := by have := u.year_le; omega
  have hum : u.month < 100 := by have := u.month_le; omega
  obtain ⟨hlt, heq⟩ := dateText_lt_iff hty htm t.day_lt huy hum u.day_lt
  rw [date, date, hlt, heq]
  have htu := ordinal_lt_of_date (t := t) (u := u)
  have hut := ordinal_lt_of_date (t := u) (u := t)
  have hsame : t.year = u.year ∧ t.month = u.month ∧ t.day = u.day → t.ordinal = u.ordinal := by
    intro h
    rw [ordinal, ordinal, h.1, h.2.1, h.2.2]
  constructor
  · refine ⟨htu, fun h => by_contra fun hnot => ?_⟩
    omega
  · refine ⟨hsame, fun h => by_contra fun hnot => ?_⟩
    omega

theorem secondOfDay_lt (t : UtcTime) : t.secondOfDay < 86400 := by
  have hhour := t.hour_lt
  have hminute := t.minute_lt
  have hsecond := t.second_lt
  rw [secondOfDay]
  omega

/-- `datetime` writes the fields of the time it is given. -/
theorem datetime_seconds (t : UtcTime) :
    datetime t.seconds = t.date ++ ' ' :: clockText t.hour t.minute t.second := by
  have hrest := t.secondOfDay_lt
  have hordinal : t.seconds / 86400 = t.ordinal := by
    rw [seconds]
    omega
  have hsecond : t.seconds % 86400 = t.secondOfDay := by
    rw [seconds]
    omega
  have hyear : Nat.findGreatest (fun y => daysBeforeYear y < t.ordinal) 9999 = t.year := by
    have hbefore := t.daysBefore_lt_ordinal
    refine (Nat.findGreatest_eq_iff).2 ⟨t.year_le, fun _ => by omega, fun n hn _ h => ?_⟩
    have hmono := daysBeforeYear_mono (show t.year + 1 ≤ n from hn)
    have hle := t.ordinal_le_year
    omega
  have hmonth : Nat.findGreatest
      (fun m => daysBeforeYear t.year + daysBeforeMonth t.year m < t.ordinal) 12 = t.month := by
    refine (Nat.findGreatest_eq_iff).2 ⟨t.month_le, fun _ => t.daysBefore_lt_ordinal,
      fun n hn _ h => ?_⟩
    have hmono := daysBeforeMonth_mono t.year (show t.month + 1 ≤ n from hn)
    have hle := t.ordinal_le_month
    omega
  have hday : t.ordinal - (daysBeforeYear t.year + daysBeforeMonth t.year t.month) = t.day := by
    rw [ordinal]
    omega
  have hclock : t.secondOfDay / 3600 = t.hour ∧ t.secondOfDay % 3600 / 60 = t.minute ∧
      t.secondOfDay % 60 = t.second := by
    have hminute := t.minute_lt
    have hsec := t.second_lt
    rw [secondOfDay]
    omega
  rw [datetime, hordinal, hsecond, hyear, hmonth, hday, hclock.1, hclock.2.1, hclock.2.2, date]

/-- The two texts differ before the clock does: a time is written as at most a second of its own day
never, and of a later day always. -/
theorem isoformat_le_datetime_iff : t.isoformat ≤ datetime u.seconds ↔ t.ordinal < u.ordinal := by
  have hlength : u.date.length = t.date.length := by
    simp [date, dateText, length_pad]
  rw [datetime_seconds, isoformat, ← not_lt, append_lt_append_iff hlength, List.cons_lt_cons_iff,
    date_iff.1, date_iff.2]
  have hspace : ' ' < 'T' := by decide
  simp only [hspace, true_or, and_true]
  omega

end UtcTime

end CivilTime
