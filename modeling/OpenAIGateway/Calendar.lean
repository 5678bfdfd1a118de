import Mathlib.Data.Int.ConditionallyCompleteOrder
import Mathlib.Data.Nat.Find
import Mathlib.Order.Monotone.Basic
import Mathlib.Tactic.Common
import Mathlib.Tactic.IntervalCases

/-!
Calendars. A calendar says on which day each month begins, months counted from
the first of year 0 and days from the epoch; every day is then in one month. The
Gregorian calendar is one, reckoned forwards and backwards without end.
-/

set_option linter.all false

namespace OpenAIGateway

inductive Month
  | january
  | february
  | march
  | april
  | may
  | june
  | july
  | august
  | september
  | october
  | november
  | december
  deriving DecidableEq, Repr

namespace Month

def number : Month → ℕ
  | january => 1
  | february => 2
  | march => 3
  | april => 4
  | may => 5
  | june => 6
  | july => 7
  | august => 8
  | september => 9
  | october => 10
  | november => 11
  | december => 12

/-- The month with a number; December stands for what is none. -/
def ofNumber : ℕ → Month
  | 1 => january
  | 2 => february
  | 3 => march
  | 4 => april
  | 5 => may
  | 6 => june
  | 7 => july
  | 8 => august
  | 9 => september
  | 10 => october
  | 11 => november
  | _ => december

/-- The month after, round the year. -/
def next (m : Month) : Month := ofNumber (m.number % 12 + 1)

/-- The month before, round the year. -/
def previous (m : Month) : Month := ofNumber ((m.number + 10) % 12 + 1)

theorem ofNumber_number (m : Month) : ofNumber m.number = m := by
  cases m <;> rfl

theorem number_bounds (m : Month) : 1 ≤ m.number ∧ m.number ≤ 12 := by
  cases m <;> decide

theorem number_ofNumber {n : ℕ} (hpos : 1 ≤ n) (hle : n ≤ 12) : (ofNumber n).number = n := by
  interval_cases n <;> rfl

end Month

/-- How many months begin before a month, from the first of year 0. -/
def monthIndex (year : ℤ) (month : Month) : ℤ := 12 * year + (month.number - 1)

/-- The year and month of an index. -/
def ofMonthIndex (n : ℤ) : ℤ × Month := (n / 12, Month.ofNumber ((n % 12).toNat + 1))

theorem monthIndex_ofMonthIndex (n : ℤ) :
    monthIndex (ofMonthIndex n).1 (ofMonthIndex n).2 = n := by
  have hnumber : (ofMonthIndex n).2.number = (n % 12).toNat + 1 :=
    Month.number_ofNumber (by omega) (by omega)
  unfold monthIndex
  rw [hnumber]
  unfold ofMonthIndex
  omega

theorem ofMonthIndex_monthIndex (year : ℤ) (month : Month) :
    ofMonthIndex (monthIndex year month) = (year, month) := by
  have hbounds := month.number_bounds
  have hyear : monthIndex year month / 12 = year := by
    unfold monthIndex
    omega
  have hmonth : (monthIndex year month % 12).toNat + 1 = month.number := by
    unfold monthIndex
    omega
  unfold ofMonthIndex
  rw [hyear, hmonth, Month.ofNumber_number]

/-- The day each month begins on, and the month of each day. -/
structure Calendar where
  firstDay : ℤ → ℤ
  monthAt : ℤ → ℤ
  firstDay_strictMono : StrictMono firstDay
  firstDay_monthAt_le : ∀ day, firstDay (monthAt day) ≤ day
  lt_firstDay_next : ∀ day, day < firstDay (monthAt day + 1)

namespace Calendar

variable (c : Calendar)

theorem monthAt_eq_of_between {day n : ℤ} (hfirst : c.firstDay n ≤ day)
    (hnext : day < c.firstDay (n + 1)) : c.monthAt day = n := by
  have hle : c.monthAt day < n + 1 :=
    c.firstDay_strictMono.lt_iff_lt.mp (lt_of_le_of_lt (c.firstDay_monthAt_le day) hnext)
  have hge : n < c.monthAt day + 1 :=
    c.firstDay_strictMono.lt_iff_lt.mp (lt_of_le_of_lt hfirst (c.lt_firstDay_next day))
  omega

theorem monthAt_firstDay (n : ℤ) : c.monthAt (c.firstDay n) = n :=
  c.monthAt_eq_of_between (le_refl _) (c.firstDay_strictMono (Int.lt_succ n))

theorem monthAt_mono {day day' : ℤ} (h : day ≤ day') : c.monthAt day ≤ c.monthAt day' := by
  have hlt : c.monthAt day < c.monthAt day' + 1 :=
    c.firstDay_strictMono.lt_iff_lt.mp
      (lt_of_le_of_lt ((c.firstDay_monthAt_le day).trans h) (c.lt_firstDay_next day'))
  omega

end Calendar

namespace Gregorian

/-- One more day for every fourth year, not for centuries but for every fourth of them. -/
def leap (year : ℤ) : ℤ :=
  if year % 4 = 0 ∧ (year % 100 ≠ 0 ∨ year % 400 = 0) then 1 else 0

/-- The days from the first of year 1 to the first of a year. -/
def daysBefore (year : ℤ) : ℤ :=
  365 * (year - 1) + (year - 1) / 4 - (year - 1) / 100 + (year - 1) / 400

/-- The days of a year before a month, by how many months of it are over. -/
def daysBeforeMonth (leap : ℤ) : ℕ → ℤ
  | 0 => 0
  | 1 => 31
  | 2 => 59 + leap
  | 3 => 90 + leap
  | 4 => 120 + leap
  | 5 => 151 + leap
  | 6 => 181 + leap
  | 7 => 212 + leap
  | 8 => 243 + leap
  | 9 => 273 + leap
  | 10 => 304 + leap
  | 11 => 334 + leap
  | _ => 365 + leap

/-- The days from the first of year 1 to the epoch. -/
def epoch : ℤ := 719162

def firstDay (n : ℤ) : ℤ :=
  daysBefore (n / 12) + daysBeforeMonth (leap (n / 12)) (n % 12).toNat - epoch

/-- The year of a day counted from the first of year 1: within one of what the mean year says. -/
def yearOf (day : ℤ) : ℤ :=
  let guess := 400 * day / 146097 + 1
  if day < daysBefore guess then guess - 1
  else if daysBefore (guess + 1) ≤ day then guess + 1
  else guess

def monthAt (day : ℤ) : ℤ :=
  let day := day + epoch
  let year := yearOf day
  12 * year + Nat.findGreatest (fun m => daysBeforeMonth (leap year) m ≤ day - daysBefore year) 11

theorem leap_cases (year : ℤ) : leap year = 0 ∨ leap year = 1 := by
  unfold leap
  split
  · exact Or.inr rfl
  · exact Or.inl rfl

theorem daysBefore_next (year : ℤ) : daysBefore (year + 1) = daysBefore year + 365 + leap year := by
  unfold daysBefore leap
  split <;> omega

theorem daysBeforeMonth_lt_next {l : ℤ} (hl : l = 0 ∨ l = 1) {m : ℕ} (hm : m < 12) :
    daysBeforeMonth l m < daysBeforeMonth l (m + 1) := by
  interval_cases m <;> simp only [daysBeforeMonth] <;> omega

theorem firstDay_lt_next (n : ℤ) : firstDay n < firstDay (n + 1) := by
  have hmonth := daysBeforeMonth_lt_next (leap_cases (n / 12)) (m := (n % 12).toNat) (by omega)
  unfold firstDay
  by_cases hlast : n % 12 = 11
  · have hyear : (n + 1) / 12 = n / 12 + 1 := by omega
    have hfirst : ((n + 1) % 12).toNat = 0 := by omega
    have hnext := daysBefore_next (n / 12)
    have hlen : (n % 12).toNat = 11 := by omega
    rw [hlen] at hmonth ⊢
    rw [hyear, hfirst, hnext]
    simp only [daysBeforeMonth] at hmonth ⊢
    omega
  · have hyear : (n + 1) / 12 = n / 12 := by omega
    have hsame : ((n + 1) % 12).toNat = (n % 12).toNat + 1 := by omega
    rw [hyear, hsame]
    omega

theorem daysBefore_yearOf (day : ℤ) :
    daysBefore (yearOf day) ≤ day ∧ day < daysBefore (yearOf day + 1) := by
  have hlow : daysBefore (400 * day / 146097 + 1 - 1) ≤ day := by
    unfold daysBefore
    omega
  have hhigh : day < daysBefore (400 * day / 146097 + 1 + 1 + 1) := by
    unfold daysBefore
    omega
  simp only [yearOf]
  split
  · next hbefore =>
    rw [sub_add_cancel]
    exact ⟨hlow, hbefore⟩
  · split
    · next hafter => exact ⟨hafter, hhigh⟩
    · next hbefore hafter => exact ⟨not_lt.mp hbefore, not_le.mp hafter⟩

/-- The month of a day is the last of its year to begin by then. -/
theorem monthAt_spec (day : ℤ) :
    firstDay (monthAt day) ≤ day ∧ day < firstDay (monthAt day + 1) := by
  obtain ⟨hfirst, hlast⟩ := daysBefore_yearOf (day + epoch)
  have hnext := daysBefore_next (yearOf (day + epoch))
  generalize hyear : yearOf (day + epoch) = year at hfirst hlast hnext
  have hmonth : monthAt day = 12 * year + Nat.findGreatest
      (fun m => daysBeforeMonth (leap year) m ≤ day + epoch - daysBefore year) 11 := by
    simp only [monthAt, hyear]
  have hbegun : daysBeforeMonth (leap year) (Nat.findGreatest
      (fun m => daysBeforeMonth (leap year) m ≤ day + epoch - daysBefore year) 11) ≤
      day + epoch - daysBefore year := by
    refine Nat.findGreatest_spec (P := fun m =>
      daysBeforeMonth (leap year) m ≤ day + epoch - daysBefore year) (Nat.zero_le 11) ?_
    simp only [daysBeforeMonth]
    omega
  have hover : ∀ m, m ≤ 11 → Nat.findGreatest
      (fun m => daysBeforeMonth (leap year) m ≤ day + epoch - daysBefore year) 11 < m →
      day + epoch - daysBefore year < daysBeforeMonth (leap year) m :=
    fun m hm hlt => not_le.mp (Nat.findGreatest_is_greatest hlt hm)
  have hbound := Nat.findGreatest_le
    (P := fun m => daysBeforeMonth (leap year) m ≤ day + epoch - daysBefore year) 11
  generalize Nat.findGreatest (fun m => daysBeforeMonth (leap year) m ≤
    day + epoch - daysBefore year) 11 = m at hmonth hbegun hover hbound
  have hdiv : (12 * year + (m : ℤ)) / 12 = year := by omega
  have hmod : ((12 * year + (m : ℤ)) % 12).toNat = m := by omega
  rw [hmonth]
  constructor
  · unfold firstDay
    rw [hdiv, hmod]
    omega
  · by_cases hdecember : m = 11
    · have hdiv' : (12 * year + (m : ℤ) + 1) / 12 = year + 1 := by omega
      have hmod' : ((12 * year + (m : ℤ) + 1) % 12).toNat = 0 := by omega
      unfold firstDay
      rw [hdiv', hmod']
      simp only [daysBeforeMonth]
      omega
    · have hdiv' : (12 * year + (m : ℤ) + 1) / 12 = year := by omega
      have hmod' : ((12 * year + (m : ℤ) + 1) % 12).toNat = m + 1 := by omega
      have hlt := hover (m + 1) (by omega) (by omega)
      unfold firstDay
      rw [hdiv', hmod']
      omega

/-- The Gregorian calendar, days counted from the first of 1970. -/
def calendar : Calendar where
  firstDay := firstDay
  monthAt := monthAt
  firstDay_strictMono := strictMono_int_of_lt_succ firstDay_lt_next
  firstDay_monthAt_le day := (monthAt_spec day).1
  lt_firstDay_next day := (monthAt_spec day).2

/-- The epoch is a first of January, and 2024 has a 29th of February. -/
example : ofMonthIndex (monthAt 0) = (1970, .january) ∧ firstDay (monthIndex 1970 .january) = 0 ∧
    firstDay (monthIndex 2024 .march) - firstDay (monthIndex 2024 .february) = 29 := by
  decide

end Gregorian

end OpenAIGateway
