import OpenAIGateway.Calendar
import OpenAIGateway.SseFraming
import Mathlib.Data.Rat.Defs
import Mathlib.Tactic.FieldSimp
import Mathlib.Tactic.Linarith
import Mathlib.Tactic.Ring

/-!
Reporting periods: a query's words for a window, and the two instants they come
to. Instants are nanoseconds from the epoch, offsets seconds east of UTC, and a
calendar boundary is a midnight at a fixed offset. A seat's months are read off
one scale that every instant has a place on, so they add up over any windows
that follow one another.
-/

set_option linter.all false

namespace OpenAIGateway.Periods

/-- What the date library gives: its calendar, its parser of `YYYY-MM-DD`, and how it
prints a date and quotes a text. A date is the number of its day. -/
structure DateLibrary where
  calendar : Calendar
  parse : String → Option ℤ
  display : ℤ → String
  debug : String → String

/-- What a caller may write on the query string. -/
structure Window where
  period : Option String
  from_ : Option String
  to_ : Option String
  days : Option ℤ
  tz : Option ℤ

/-- A resolved window. -/
structure Resolved where
  start : Option ℤ
  end_ : Option ℤ
  now : ℤ
  offset : ℤ
  period : String
  label : String

def trim (s : String) : String := String.ofList (Sse.trim s.toList)

def nanosPerSecond : ℤ := 1000000000

def secondsPerDay : ℤ := 86400

/-- `Duration::whole_seconds`. -/
def wholeSeconds (nanos : ℤ) : ℤ := nanos.tdiv nanosPerSecond

/-- The day it is at an instant, at an offset. -/
def localDay (instant offset : ℤ) : ℤ :=
  (instant + offset * nanosPerSecond) / (secondsPerDay * nanosPerSecond)

def midnight (date offset : ℤ) : ℤ := (date * secondsPerDay - offset) * nanosPerSecond

def defaultDays : ℤ := 30

def unrepresentable : String := "that period falls outside the representable calendar"

/-- At least so many characters of a number, a sign among them. -/
def padded (width : ℕ) (n : ℤ) : String :=
  let digits := toString n.natAbs
  if n < 0 then "-" ++ String.ofList (List.replicate (width - 1 - digits.length) '0') ++ digits
  else String.ofList (List.replicate (width - digits.length) '0') ++ digits

def yearMonth (year : ℤ) (month : Month) : String :=
  padded 4 year ++ "-" ++ padded 2 month.number

def previousMonth (year : ℤ) (month : Month) : ℤ × Month :=
  match month with
  | .january => (year - 1, .december)
  | other => (year, other.previous)

def nextMonth (year : ℤ) (month : Month) : ℤ × Month :=
  match month with
  | .december => (year + 1, .january)
  | other => (year, other.next)

/-- Real offsets, in minutes east of UTC. -/
def offsetFrom (tz : Option ℤ) : Except String ℤ :=
  let minutes := tz.getD 0
  if -720 ≤ minutes ∧ minutes ≤ 840 then .ok (minutes * 60)
  else .error s!"tz must be minutes east of UTC, between -720 and 840; got {minutes}"

section Library

variable (lib : DateLibrary)

/-- The first day of a month, in the years a date may be in. -/
def fromCalendarDate (year : ℤ) (month : Month) : Option ℤ :=
  if -9999 ≤ year ∧ year ≤ 9999 then some (lib.calendar.firstDay (monthIndex year month)) else none

/-- The day after, unless there is no later date. -/
def nextDay (date : ℤ) : Option ℤ :=
  if date + 1 < lib.calendar.firstDay (monthIndex 10000 .january) then some (date + 1) else none

def monthStart (year : ℤ) (month : Month) (offset : ℤ) : Option ℤ :=
  (fromCalendarDate lib year month).map (fun date => midnight date offset)

def yearStart (year : ℤ) (offset : ℤ) : Option ℤ := monthStart lib year .january offset

def localMonth (instant offset : ℤ) : ℤ × Month :=
  ofMonthIndex (lib.calendar.monthAt (localDay instant offset))

def parseDate (s : String) : Except String ℤ :=
  match lib.parse (trim s) with
  | some date => .ok date
  | none => .error (lib.debug s ++ " is not a date of the form YYYY-MM-DD")

def orUnrepresentable (boundary : Option ℤ) : Except String ℤ :=
  boundary.elim (.error unrepresentable) .ok

def named (period : String) (now offset : ℤ) : Except String Resolved :=
  let (year, month) := localMonth lib now offset
  match period with
  | "month" => do
    let start ← orUnrepresentable (monthStart lib year month offset)
    return ⟨some start, none, now, offset, "month", yearMonth year month ++ " to date"⟩
  | "last-month" => do
    let (py, pm) := previousMonth year month
    let start ← orUnrepresentable (monthStart lib py pm offset)
    let end_ ← orUnrepresentable (monthStart lib year month offset)
    return ⟨some start, some end_, now, offset, "last-month", yearMonth py pm⟩
  | "year" => do
    let start ← orUnrepresentable (yearStart lib year offset)
    return ⟨some start, none, now, offset, "year", toString year ++ " to date"⟩
  | "last-year" => do
    let start ← orUnrepresentable (yearStart lib (year - 1) offset)
    let end_ ← orUnrepresentable (yearStart lib year offset)
    return ⟨some start, some end_, now, offset, "last-year", toString (year - 1)⟩
  | "all" => return ⟨none, none, now, offset, "all", "all time"⟩
  | other => .error ("unknown period " ++ lib.debug other ++
      ": valid values are month, last-month, year, last-year, all " ++
      "— or pass from=YYYY-MM-DD&to=YYYY-MM-DD for a custom range, or days=N for a rolling " ++
      "look-back")

/-- The day named last is the last of the range. -/
def custom (from_ to_ : String) (now offset : ℤ) : Except String Resolved := do
  let fromDate ← parseDate lib from_
  let toDate ← parseDate lib to_
  if toDate < fromDate then
    .error ("from (" ++ lib.display fromDate ++ ") is after to (" ++ lib.display toDate ++
      "); a range runs forwards")
  else
    let endDate ← orUnrepresentable (nextDay lib toDate)
    return ⟨some (midnight fromDate offset), some (midnight endDate offset), now, offset, "custom",
      lib.display fromDate ++ " to " ++ lib.display toDate⟩

/-- A rolling look-back, from a day to ten years. -/
def rolling (days now offset : ℤ) : Resolved :=
  let days := max 1 (min days 3650)
  ⟨some (now - days * secondsPerDay * nanosPerSecond), none, now, offset, "days",
    s!"last {days} days"⟩

/-- A named period before a range, and a range before the look-back. -/
def resolve (window : Window) (now : ℤ) : Except String Resolved := do
  let offset ← offsetFrom window.tz
  match (window.period.map trim).filter (· ≠ "") with
  | some period => named lib period now offset
  | none =>
    match window.from_, window.to_ with
    | some from_, some to_ => custom lib from_ to_ now offset
    | none, none => return rolling (window.days.getD defaultDays) now offset
    | _, _ => .error "a custom range needs both from and to, each as YYYY-MM-DD"

/-- How much of its calendar month has passed before an instant, of that month's length. -/
def elapsedFraction (instant offset : ℤ) : Option ℚ := do
  let (year, month) := localMonth lib instant offset
  let start ← monthStart lib year month offset
  let (ny, nm) := nextMonth year month
  let end_ ← monthStart lib ny nm offset
  let span := wholeSeconds (end_ - start)
  if span ≤ 0 then none else some (wholeSeconds (instant - start) / span)

/-- The length of a window in calendar months. -/
def calendarMonths (start end_ offset : ℤ) : Option ℚ :=
  if end_ ≤ start then some 0
  else do
    let (sy, sm) := localMonth lib start offset
    let (ey, em) := localMonth lib end_ offset
    let whole : ℤ := (ey - sy) * 12 + em.number - sm.number
    let before ← elapsedFraction lib start offset
    let after ← elapsedFraction lib end_ offset
    return whole - before + after

end Library

namespace Resolved

/-- The bound, or the moment the window was resolved. -/
def effectiveEnd (w : Resolved) : ℤ := w.end_.getD w.now

/-- The months of a flat fee a window covers, for a seat there since it was created. -/
def seatMonths (lib : DateLibrary) (w : Resolved) (createdAt : ℤ) : Option ℚ :=
  calendarMonths lib ((w.start.map (max · createdAt)).getD createdAt) w.effectiveEnd w.offset

/-- What a seat costs over a window, at a monthly fee. -/
def planCost (lib : DateLibrary) (monthly : ℚ) (createdAt : ℤ) (w : Resolved) : Option ℚ :=
  (w.seatMonths lib createdAt).map (monthly * ·)

/-- The one ends in the instant the other starts in. -/
def Meets (w w' : Resolved) : Prop := ∃ instant, w.end_ = some instant ∧ w'.start = some instant

/-- A window cut into windows that follow one another. -/
def split (w : Resolved) : List ℤ → List Resolved
  | [] => [w]
  | cut :: cuts => { w with end_ := some cut } :: ({ w with start := some cut } : Resolved).split cuts

end Resolved

/-- The second query asks for the period after the first's, at the same offset. -/
inductive FollowedBy (lib : DateLibrary) (w w' : Window) : Prop
  | month (htz : w.tz = w'.tz) (hlast : w.period.map trim = some "last-month")
    (hthis : w'.period.map trim = some "month")
  | year (htz : w.tz = w'.tz) (hlast : w.period.map trim = some "last-year")
    (hthis : w'.period.map trim = some "year")
  | range (htz : w.tz = w'.tz) {from_ to_ from' to' : String} {date next : ℤ}
    (hperiod : (w.period.map trim).getD "" = "") (hperiod' : (w'.period.map trim).getD "" = "")
    (hfrom : w.from_ = some from_) (hto : w.to_ = some to_) (hfrom' : w'.from_ = some from')
    (hto' : w'.to_ = some to') (hdate : parseDate lib to_ = .ok date)
    (hnext : nextDay lib date = some next) (hnext' : parseDate lib from' = .ok next)

section Scale

variable {lib : DateLibrary} {offset : ℤ}

theorem monthIndex_nextMonth (year : ℤ) (month : Month) :
    monthIndex (nextMonth year month).1 (nextMonth year month).2 = monthIndex year month + 1 := by
  unfold monthIndex
  cases month <;> simp only [nextMonth, Month.next, Month.number] <;> norm_num [Month.ofNumber] <;>
    ring

theorem monthIndex_previousMonth (year : ℤ) (month : Month) :
    monthIndex (previousMonth year month).1 (previousMonth year month).2 =
      monthIndex year month - 1 := by
  unfold monthIndex
  cases month <;> simp only [previousMonth, Month.previous, Month.number] <;>
    norm_num [Month.ofNumber] <;> ring

/-- The instant a month begins at. -/
def monthMidnight (lib : DateLibrary) (offset n : ℤ) : ℤ := midnight (lib.calendar.firstDay n) offset

/-- The month an instant is in, by its index. -/
def monthOf (lib : DateLibrary) (offset instant : ℤ) : ℤ :=
  lib.calendar.monthAt (localDay instant offset)

/-- How much of a month has passed before an instant in it. -/
def fractionOf (lib : DateLibrary) (offset n instant : ℤ) : ℚ :=
  wholeSeconds (instant - monthMidnight lib offset n) /
    wholeSeconds (monthMidnight lib offset (n + 1) - monthMidnight lib offset n)

/-- The place of an instant on the scale of months. -/
def position (lib : DateLibrary) (offset instant : ℤ) : ℚ :=
  monthOf lib offset instant + fractionOf lib offset (monthOf lib offset instant) instant

theorem localDay_midnight (date offset : ℤ) : localDay (midnight date offset) offset = date := by
  unfold localDay midnight secondsPerDay nanosPerSecond
  omega

theorem localDay_mono {a b : ℤ} (h : a ≤ b) : localDay a offset ≤ localDay b offset := by
  unfold localDay secondsPerDay nanosPerSecond
  omega

theorem midnight_le_iff (date instant offset : ℤ) :
    midnight date offset ≤ instant ↔ date ≤ localDay instant offset := by
  unfold midnight localDay secondsPerDay nanosPerSecond
  omega

theorem wholeSeconds_mono {a b : ℤ} (h : a ≤ b) : wholeSeconds a ≤ wholeSeconds b :=
  Int.tdiv_le_tdiv (by decide) h

theorem monthOf_midnight (n : ℤ) : monthOf lib offset (monthMidnight lib offset n) = n := by
  unfold monthOf monthMidnight
  rw [localDay_midnight, Calendar.monthAt_firstDay]

theorem monthOf_mono {a b : ℤ} (h : a ≤ b) : monthOf lib offset a ≤ monthOf lib offset b :=
  lib.calendar.monthAt_mono (localDay_mono h)

theorem monthMidnight_le (lib : DateLibrary) (offset instant : ℤ) :
    monthMidnight lib offset (monthOf lib offset instant) ≤ instant :=
  (midnight_le_iff _ _ _).mpr (lib.calendar.firstDay_monthAt_le _)

theorem lt_monthMidnight_next (lib : DateLibrary) (offset instant : ℤ) :
    instant < monthMidnight lib offset (monthOf lib offset instant + 1) := by
  have hnext := lib.calendar.lt_firstDay_next (localDay instant offset)
  rw [← not_le]
  intro hle
  exact absurd ((midnight_le_iff _ _ _).mp hle) (not_le.mpr hnext)

/-- A month is a whole number of days long, and one at least. -/
theorem span_pos (lib : DateLibrary) (offset n : ℤ) :
    0 < wholeSeconds (monthMidnight lib offset (n + 1) - monthMidnight lib offset n) := by
  have hlt : lib.calendar.firstDay n < lib.calendar.firstDay (n + 1) :=
    lib.calendar.firstDay_strictMono (Int.lt_succ n)
  have hday : secondsPerDay * nanosPerSecond ≤
      monthMidnight lib offset (n + 1) - monthMidnight lib offset n := by
    unfold monthMidnight midnight secondsPerDay nanosPerSecond
    omega
  calc 0 < wholeSeconds (secondsPerDay * nanosPerSecond) := by decide
    _ ≤ _ := wholeSeconds_mono hday

theorem fractionOf_nonneg (instant : ℤ) :
    0 ≤ fractionOf lib offset (monthOf lib offset instant) instant := by
  have hpassed : wholeSeconds 0 ≤ wholeSeconds
      (instant - monthMidnight lib offset (monthOf lib offset instant)) :=
    wholeSeconds_mono (sub_nonneg.mpr (monthMidnight_le lib offset instant))
  have hspan := span_pos lib offset (monthOf lib offset instant)
  exact div_nonneg (by exact_mod_cast hpassed) (by exact_mod_cast hspan.le)

theorem fractionOf_le_one (instant : ℤ) :
    fractionOf lib offset (monthOf lib offset instant) instant ≤ 1 := by
  have hspan := span_pos lib offset (monthOf lib offset instant)
  have hpassed : wholeSeconds (instant - monthMidnight lib offset (monthOf lib offset instant)) ≤
      wholeSeconds (monthMidnight lib offset (monthOf lib offset instant + 1) -
        monthMidnight lib offset (monthOf lib offset instant)) :=
    wholeSeconds_mono (sub_le_sub_right (lt_monthMidnight_next lib offset instant).le _)
  exact div_le_one_of_le₀ (by exact_mod_cast hpassed) (by exact_mod_cast hspan.le)

theorem fractionOf_mono (n : ℤ) {a b : ℤ} (h : a ≤ b) :
    fractionOf lib offset n a ≤ fractionOf lib offset n b := by
  have hspan := span_pos lib offset n
  have hpassed : wholeSeconds (a - monthMidnight lib offset n) ≤
      wholeSeconds (b - monthMidnight lib offset n) :=
    wholeSeconds_mono (sub_le_sub_right h _)
  exact div_le_div_of_nonneg_right (by exact_mod_cast hpassed) (by exact_mod_cast hspan.le)

/-- Later is further along. -/
theorem position_mono {a b : ℤ} (h : a ≤ b) : position lib offset a ≤ position lib offset b := by
  unfold position
  have hle : monthOf lib offset a ≤ monthOf lib offset b := monthOf_mono h
  rcases hle.lt_or_eq with hmonth | hmonth
  · have hnext : (monthOf lib offset a : ℚ) + 1 ≤ monthOf lib offset b := by
      exact_mod_cast hmonth
    have hone : fractionOf lib offset (monthOf lib offset a) a ≤ 1 := fractionOf_le_one a
    have hzero : 0 ≤ fractionOf lib offset (monthOf lib offset b) b := fractionOf_nonneg b
    linarith
  · rw [hmonth]
    have hlater : fractionOf lib offset (monthOf lib offset b) a ≤
        fractionOf lib offset (monthOf lib offset b) b := fractionOf_mono _ h
    linarith

theorem position_midnight (n : ℤ) : position lib offset (monthMidnight lib offset n) = n := by
  unfold position
  rw [monthOf_midnight]
  unfold fractionOf
  rw [sub_self]
  have hzero : wholeSeconds 0 = 0 := rfl
  rw [hzero, Int.cast_zero, zero_div, add_zero]

theorem monthStart_eq_some_iff {year : ℤ} {month : Month} {instant : ℤ} :
    monthStart lib year month offset = some instant ↔
      (-9999 ≤ year ∧ year ≤ 9999) ∧
        instant = monthMidnight lib offset (monthIndex year month) := by
  unfold monthStart fromCalendarDate monthMidnight
  by_cases hyear : -9999 ≤ year ∧ year ≤ 9999
  · rw [if_pos hyear, Option.map_some, Option.some.injEq, eq_comm]
    exact ⟨fun h => ⟨hyear, h⟩, fun h => h.2⟩
  · rw [if_neg hyear, Option.map_none]
    exact ⟨nofun, fun h => absurd h.1 hyear⟩

/-- An instant has a place where both ends of its month are dates. -/
def Placed (lib : DateLibrary) (offset instant : ℤ) : Prop :=
  ∃ start end_, monthStart lib (localMonth lib instant offset).1 (localMonth lib instant offset).2
      offset = some start ∧
    monthStart lib (nextMonth (localMonth lib instant offset).1 (localMonth lib instant offset).2).1
      (nextMonth (localMonth lib instant offset).1 (localMonth lib instant offset).2).2 offset =
      some end_

theorem monthIndex_localMonth (lib : DateLibrary) (offset instant : ℤ) :
    monthIndex (localMonth lib instant offset).1 (localMonth lib instant offset).2 =
      monthOf lib offset instant :=
  monthIndex_ofMonthIndex _

theorem elapsedFraction_of_placed {instant : ℤ} (h : Placed lib offset instant) :
    elapsedFraction lib instant offset =
      some (fractionOf lib offset (monthOf lib offset instant) instant) := by
  obtain ⟨start, end_, hstart, hend⟩ := h
  have hstart' := (monthStart_eq_some_iff.mp hstart).2
  have hend' := (monthStart_eq_some_iff.mp hend).2
  rw [monthIndex_localMonth] at hstart'
  rw [monthIndex_nextMonth, monthIndex_localMonth] at hend'
  have hspan := span_pos lib offset (monthOf lib offset instant)
  rw [← hstart', ← hend'] at hspan
  unfold elapsedFraction
  simp only [hstart, hend, Option.bind_eq_bind, Option.bind_some]
  rw [if_neg (not_le.mpr hspan), hstart', hend']
  rfl

theorem placed_of_elapsedFraction {instant : ℤ} {f : ℚ}
    (h : elapsedFraction lib instant offset = some f) : Placed lib offset instant := by
  unfold elapsedFraction at h
  simp only [Option.bind_eq_bind, Option.bind_eq_some_iff] at h
  obtain ⟨start, hstart, end_, hend, -⟩ := h
  exact ⟨start, end_, hstart, hend⟩

/-- The months of a window are the way from one of its ends to the other. -/
theorem calendarMonths_eq_some_iff {start end_ : ℤ} {q : ℚ} :
    calendarMonths lib start end_ offset = some q ↔
      (end_ ≤ start ∧ q = 0) ∨ (start < end_ ∧ Placed lib offset start ∧ Placed lib offset end_ ∧
        q = position lib offset end_ - position lib offset start) := by
  have hwhole : (((localMonth lib end_ offset).1 - (localMonth lib start offset).1) * 12 +
      (localMonth lib end_ offset).2.number - (localMonth lib start offset).2.number : ℤ) =
      monthOf lib offset end_ - monthOf lib offset start := by
    rw [← monthIndex_localMonth lib offset end_, ← monthIndex_localMonth lib offset start]
    unfold monthIndex
    ring
  unfold calendarMonths
  by_cases hempty : end_ ≤ start
  · rw [if_pos hempty, Option.some.injEq, eq_comm]
    constructor
    · exact fun h => Or.inl ⟨hempty, h⟩
    · rintro (h | h)
      · exact h.2
      · exact absurd h.1 (not_lt.mpr hempty)
  · rw [if_neg hempty]
    simp only [hwhole, Option.bind_eq_bind, Option.bind_eq_some_iff, Option.pure_def,
      Option.some.injEq]
    constructor
    · rintro ⟨before, hbefore, later, hlater, rfl⟩
      have hstart := placed_of_elapsedFraction hbefore
      have hend := placed_of_elapsedFraction hlater
      rw [elapsedFraction_of_placed hstart, Option.some.injEq] at hbefore
      rw [elapsedFraction_of_placed hend, Option.some.injEq] at hlater
      refine Or.inr ⟨not_le.mp hempty, hstart, hend, ?_⟩
      unfold position
      rw [hbefore, hlater]
      push_cast
      ring
    · rintro (h | ⟨-, hstart, hend, rfl⟩)
      · exact absurd h.1 hempty
      · refine ⟨_, elapsedFraction_of_placed hstart, _, elapsedFraction_of_placed hend, ?_⟩
        unfold position
        push_cast
        ring

end Scale

section Months

variable {lib : DateLibrary} {offset a b c : ℤ} {p q : ℚ}

theorem calendarMonths_nonneg (h : calendarMonths lib a b offset = some p) : 0 ≤ p := by
  rcases calendarMonths_eq_some_iff.mp h with ⟨-, rfl⟩ | ⟨hlt, -, -, rfl⟩
  · exact le_refl 0
  · have hmono : position lib offset a ≤ position lib offset b := position_mono hlt.le
    linarith

/-- The months of two windows that follow one another are those of both. -/
theorem calendarMonths_add (hab : a ≤ b) (hbc : b ≤ c)
    (hp : calendarMonths lib a b offset = some p) (hq : calendarMonths lib b c offset = some q) :
    calendarMonths lib a c offset = some (p + q) := by
  rcases calendarMonths_eq_some_iff.mp hp with ⟨hba, rfl⟩ | ⟨hlt, ha, hb, rfl⟩
  · rw [le_antisymm hab hba, zero_add]
    exact hq
  · rcases calendarMonths_eq_some_iff.mp hq with ⟨hcb, rfl⟩ | ⟨hlt', -, hc, rfl⟩
    · rw [← le_antisymm hbc hcb, add_zero]
      exact hp
    · refine calendarMonths_eq_some_iff.mpr (Or.inr ⟨hlt.trans hlt', ha, hc, ?_⟩)
      ring

/-- A longer window has no fewer months. -/
theorem calendarMonths_mono (hbc : b ≤ c) (hp : calendarMonths lib a b offset = some p)
    (hq : calendarMonths lib a c offset = some q) : p ≤ q := by
  rcases calendarMonths_eq_some_iff.mp hp with ⟨-, rfl⟩ | ⟨hlt, -, -, rfl⟩
  · exact calendarMonths_nonneg hq
  · rcases calendarMonths_eq_some_iff.mp hq with ⟨hca, -⟩ | ⟨-, -, -, rfl⟩
    · exact absurd (hlt.trans_le hbc) (not_lt.mpr hca)
    · have hmono : position lib offset b ≤ position lib offset c := position_mono hbc
      linarith

theorem monthMidnight_lt {m n : ℤ} (h : m < n) :
    monthMidnight lib offset m < monthMidnight lib offset n := by
  have hday := lib.calendar.firstDay_strictMono h
  unfold monthMidnight midnight secondsPerDay nanosPerSecond
  omega

theorem localMonth_midnight (year : ℤ) (month : Month) :
    localMonth lib (monthMidnight lib offset (monthIndex year month)) offset = (year, month) := by
  unfold localMonth
  have hmonth : lib.calendar.monthAt
      (localDay (monthMidnight lib offset (monthIndex year month)) offset) =
      monthIndex year month := monthOf_midnight _
  rw [hmonth, ofMonthIndex_monthIndex]

/-- A boundary has a place where the next one is a date too. -/
theorem placed_monthStart {year : ℤ} {month : Month} {instant next : ℤ}
    (h : monthStart lib year month offset = some instant)
    (hnext : monthStart lib (nextMonth year month).1 (nextMonth year month).2 offset = some next) :
    Placed lib offset instant := by
  have hinstant := (monthStart_eq_some_iff.mp h).2
  subst hinstant
  unfold Placed
  rw [localMonth_midnight]
  exact ⟨_, next, h, hnext⟩

/-- Between two boundaries there are as many months as begin there. -/
theorem calendarMonths_between {m n : ℤ} (hlt : m < n)
    (hm : Placed lib offset (monthMidnight lib offset m))
    (hn : Placed lib offset (monthMidnight lib offset n)) :
    calendarMonths lib (monthMidnight lib offset m) (monthMidnight lib offset n) offset =
      some ((n : ℚ) - m) := by
  refine calendarMonths_eq_some_iff.mpr (Or.inr ⟨monthMidnight_lt hlt, hm, hn, ?_⟩)
  rw [position_midnight, position_midnight]

end Months

section Seats

variable {lib : DateLibrary} {w : Resolved} {createdAt : ℤ}

/-- A seat is there from a window's start or from its own, whichever is later. -/
def seatStart (start : Option ℤ) (createdAt : ℤ) : ℤ := (start.map (max · createdAt)).getD createdAt

theorem seatMonths_eq (w : Resolved) (createdAt : ℤ) :
    w.seatMonths lib createdAt =
      calendarMonths lib (seatStart w.start createdAt) w.effectiveEnd w.offset := rfl

theorem calendarMonths_of_le {a b : ℤ} (h : b ≤ a) (offset : ℤ) :
    calendarMonths lib a b offset = some 0 := calendarMonths_eq_some_iff.mpr (Or.inl ⟨h, rfl⟩)

/-- A seat's months before a cut and after it are its months of the whole, whenever the
seat was created. -/
theorem seatMonths_cut {cut : ℤ} {p q : ℚ} (hcut : ∀ start ∈ w.start, start ≤ cut)
    (hend : cut ≤ w.effectiveEnd)
    (hp : ({ w with end_ := some cut } : Resolved).seatMonths lib createdAt = some p)
    (hq : ({ w with start := some cut } : Resolved).seatMonths lib createdAt = some q) :
    w.seatMonths lib createdAt = some (p + q) := by
  rw [seatMonths_eq] at hp hq ⊢
  change calendarMonths lib (seatStart w.start createdAt) cut w.offset = some p at hp
  change calendarMonths lib (max cut createdAt) w.effectiveEnd w.offset = some q at hq
  rcases le_total cut createdAt with hnew | hold
  · -- A seat made after the cut has no months before it.
    have hstart : seatStart w.start createdAt = createdAt := by
      unfold seatStart
      cases hw : w.start with
      | none => rfl
      | some start =>
        rw [Option.map_some, Option.getD_some]
        exact max_eq_right ((hcut start hw).trans hnew)
    rw [hstart, calendarMonths_of_le hnew, Option.some.injEq] at hp
    rw [max_eq_right hnew] at hq
    rw [hstart, ← hp, zero_add]
    exact hq
  · have hstart : seatStart w.start createdAt ≤ cut := by
      unfold seatStart
      cases hw : w.start with
      | none => exact hold
      | some start => exact max_le (hcut start hw) hold
    rw [max_eq_left hold] at hq
    exact calendarMonths_add hstart hend hp hq

/-- A window cut anywhere costs a seat what the whole does. -/
theorem planCost_split {monthly : ℚ} (cuts : List ℤ)
    (hcuts : (w.start.toList ++ cuts ++ [w.effectiveEnd]).Pairwise (· ≤ ·)) {costs : List ℚ}
    (hcosts : (w.split cuts).mapM (fun piece => piece.planCost lib monthly createdAt) =
      some costs) : w.planCost lib monthly createdAt = some costs.sum := by
  induction cuts generalizing w costs with
  | nil =>
    simp only [Resolved.split, List.mapM_cons, List.mapM_nil, Option.bind_eq_bind,
      Option.bind_eq_some_iff, Option.pure_def, Option.bind_some] at hcosts
    obtain ⟨cost, hcost, heq⟩ := hcosts
    cases heq
    simpa using hcost
  | cons cut cuts ih =>
    simp only [Resolved.split, List.mapM_cons, Option.bind_eq_bind, Option.bind_eq_some_iff,
      Option.pure_def] at hcosts
    obtain ⟨cost, hcost, rest, hrest, heq⟩ := hcosts
    cases heq
    have hafter : (cut :: (cuts ++ [w.effectiveEnd])).Pairwise (· ≤ ·) := by
      refine List.Pairwise.sublist ?_ hcuts
      rw [List.append_assoc]
      exact List.sublist_append_right _ _
    have hlater := ih (w := { w with start := some cut }) hafter hrest
    unfold Resolved.planCost at hcost hlater ⊢
    obtain ⟨p, hp, rfl⟩ := Option.map_eq_some_iff.mp hcost
    obtain ⟨q, hq, hsum⟩ := Option.map_eq_some_iff.mp hlater
    have hstart : ∀ start ∈ w.start, start ≤ cut := by
      intro start hw
      rw [Option.mem_def.mp hw] at hcuts
      exact (List.pairwise_cons.mp hcuts).1 cut (by simp)
    have hend : cut ≤ w.effectiveEnd := (List.pairwise_cons.mp hafter).1 _ (by simp)
    rw [seatMonths_cut hstart hend hp hq, Option.map_some, List.sum_cons, ← hsum, mul_add]

end Seats

section Resolving

variable {lib : DateLibrary} {w w' : Window} {r r' : Resolved} {now offset : ℤ}

theorem orUnrepresentable_eq_ok_iff {boundary : Option ℤ} {instant : ℤ} :
    orUnrepresentable boundary = .ok instant ↔ boundary = some instant := by
  cases boundary <;> simp [orUnrepresentable]

theorem bind_eq_ok_iff {α β : Type} {x : Except String α} {f : α → Except String β} {b : β} :
    x >>= f = .ok b ↔ ∃ a, x = .ok a ∧ f a = .ok b := by
  cases x with
  | error e => exact ⟨nofun, fun ⟨_, h, _⟩ => nomatch h⟩
  | ok a => exact ⟨fun h => ⟨a, rfl, h⟩, fun ⟨_, ha, h⟩ => Except.ok.inj ha ▸ h⟩

/-- A name is looked at before anything else, at the offset the query gives. -/
theorem resolve_named {period : String} (hperiod : w.period.map trim = some period)
    (hne : period ≠ "") (h : resolve lib w now = .ok r) :
    ∃ offset, offsetFrom w.tz = .ok offset ∧ named lib period now offset = .ok r := by
  obtain ⟨offset, hoffset, h⟩ := bind_eq_ok_iff.mp h
  refine ⟨offset, hoffset, ?_⟩
  simpa [hperiod, Option.filter, hne] using h

theorem named_month (h : named lib "month" now offset = .ok r) :
    ∃ start, monthStart lib (localMonth lib now offset).1 (localMonth lib now offset).2 offset =
      some start ∧ r.start = some start := by
  obtain ⟨start, hstart, h⟩ := bind_eq_ok_iff.mp h
  cases h
  exact ⟨start, orUnrepresentable_eq_ok_iff.mp hstart, rfl⟩

theorem named_last_month (h : named lib "last-month" now offset = .ok r) :
    ∃ end_, monthStart lib (localMonth lib now offset).1 (localMonth lib now offset).2 offset =
      some end_ ∧ r.end_ = some end_ := by
  obtain ⟨start, -, h⟩ := bind_eq_ok_iff.mp h
  obtain ⟨end_, hend, h⟩ := bind_eq_ok_iff.mp h
  cases h
  exact ⟨end_, orUnrepresentable_eq_ok_iff.mp hend, rfl⟩

theorem named_year (h : named lib "year" now offset = .ok r) :
    ∃ start, yearStart lib (localMonth lib now offset).1 offset = some start ∧
      r.start = some start := by
  obtain ⟨start, hstart, h⟩ := bind_eq_ok_iff.mp h
  cases h
  exact ⟨start, orUnrepresentable_eq_ok_iff.mp hstart, rfl⟩

theorem named_last_year (h : named lib "last-year" now offset = .ok r) :
    ∃ end_, yearStart lib (localMonth lib now offset).1 offset = some end_ ∧
      r.end_ = some end_ := by
  obtain ⟨start, -, h⟩ := bind_eq_ok_iff.mp h
  obtain ⟨end_, hend, h⟩ := bind_eq_ok_iff.mp h
  cases h
  exact ⟨end_, orUnrepresentable_eq_ok_iff.mp hend, rfl⟩

/-- A range goes from the midnight of its first day to the midnight after its last. -/
theorem custom_bounds {from_ to_ : String} (h : custom lib from_ to_ now offset = .ok r) :
    ∃ fromDate toDate endDate, parseDate lib from_ = .ok fromDate ∧
      parseDate lib to_ = .ok toDate ∧ nextDay lib toDate = some endDate ∧ fromDate ≤ toDate ∧
      r.start = some (midnight fromDate offset) ∧ r.end_ = some (midnight endDate offset) := by
  obtain ⟨fromDate, hfrom, h⟩ := bind_eq_ok_iff.mp h
  obtain ⟨toDate, hto, h⟩ := bind_eq_ok_iff.mp h
  by_cases hback : toDate < fromDate
  · rw [if_pos hback] at h
    cases h
  · rw [if_neg hback] at h
    obtain ⟨endDate, hend, h⟩ := bind_eq_ok_iff.mp h
    cases h
    exact ⟨fromDate, toDate, endDate, hfrom, hto, orUnrepresentable_eq_ok_iff.mp hend,
      not_lt.mp hback, rfl, rfl⟩

/-- Without a name, a query with both dates asks for a range. -/
theorem resolve_custom {from_ to_ : String} (hperiod : (w.period.map trim).getD "" = "")
    (hfrom : w.from_ = some from_) (hto : w.to_ = some to_) (h : resolve lib w now = .ok r) :
    ∃ offset, offsetFrom w.tz = .ok offset ∧ custom lib from_ to_ now offset = .ok r := by
  obtain ⟨offset, hoffset, h⟩ := bind_eq_ok_iff.mp h
  refine ⟨offset, hoffset, ?_⟩
  have hnone : (w.period.map trim).filter (· ≠ "") = none := by
    cases hname : w.period.map trim with
    | none => rfl
    | some name =>
      rw [hname, Option.getD_some] at hperiod
      rw [hperiod]
      rfl
  simp only [hnone, hfrom, hto] at h
  exact h

theorem offset_unique (htz : w.tz = w'.tz) {offset offset' : ℤ}
    (h : offsetFrom w.tz = .ok offset) (h' : offsetFrom w'.tz = .ok offset') :
    offset = offset' := by
  rw [htz, h'] at h
  exact (Except.ok.inj h).symm

end Resolving

section Tiling

variable {lib : DateLibrary} {offset : ℤ}

/-- Periods that follow one another leave nothing between them and share nothing. -/
theorem FollowedBy.meets {w w' : Window} {r r' : Resolved} {now : ℤ} (h : FollowedBy lib w w')
    (hr : resolve lib w now = .ok r) (hr' : resolve lib w' now = .ok r') : r.Meets r' := by
  cases h with
  | month htz hlast hthis =>
    obtain ⟨offset, hoffset, hnamed⟩ := resolve_named hlast (by decide) hr
    obtain ⟨offset', hoffset', hnamed'⟩ := resolve_named hthis (by decide) hr'
    obtain rfl := offset_unique htz hoffset hoffset'
    obtain ⟨end_, hend, hrend⟩ := named_last_month hnamed
    obtain ⟨start, hstart, hrstart⟩ := named_month hnamed'
    rw [hend, Option.some.injEq] at hstart
    exact ⟨end_, hrend, hstart ▸ hrstart⟩
  | year htz hlast hthis =>
    obtain ⟨offset, hoffset, hnamed⟩ := resolve_named hlast (by decide) hr
    obtain ⟨offset', hoffset', hnamed'⟩ := resolve_named hthis (by decide) hr'
    obtain rfl := offset_unique htz hoffset hoffset'
    obtain ⟨end_, hend, hrend⟩ := named_last_year hnamed
    obtain ⟨start, hstart, hrstart⟩ := named_year hnamed'
    rw [hend, Option.some.injEq] at hstart
    exact ⟨end_, hrend, hstart ▸ hrstart⟩
  | range htz hperiod hperiod' hfrom hto hfrom' hto' hdate hnext hnext' =>
    obtain ⟨offset, hoffset, hcustom⟩ := resolve_custom hperiod hfrom hto hr
    obtain ⟨offset', hoffset', hcustom'⟩ := resolve_custom hperiod' hfrom' hto' hr'
    obtain rfl := offset_unique htz hoffset hoffset'
    obtain ⟨_, toDate, endDate, -, hparse, hday, -, -, hrend⟩ := custom_bounds hcustom
    obtain ⟨fromDate, _, _, hparse', -, -, -, hrstart, -⟩ := custom_bounds hcustom'
    rw [hdate] at hparse
    cases hparse
    rw [hnext] at hday
    cases hday
    rw [hnext'] at hparse'
    cases hparse'
    exact ⟨_, hrend, hrstart⟩

theorem calendarMonths_month {year start end_ later : ℤ} {month : Month}
    (hstart : monthStart lib year month offset = some start)
    (hend : monthStart lib (nextMonth year month).1 (nextMonth year month).2 offset = some end_)
    (hlater : monthStart lib (nextMonth (nextMonth year month).1 (nextMonth year month).2).1
      (nextMonth (nextMonth year month).1 (nextMonth year month).2).2 offset = some later) :
    calendarMonths lib start end_ offset = some 1 := by
  have hplaced := placed_monthStart hstart hend
  have hplaced' := placed_monthStart hend hlater
  obtain rfl := (monthStart_eq_some_iff.mp hstart).2
  obtain rfl := (monthStart_eq_some_iff.mp hend).2
  rw [monthIndex_nextMonth] at hplaced' ⊢
  rw [calendarMonths_between (Int.lt_succ _) hplaced hplaced']
  push_cast
  rw [add_sub_cancel_left]

theorem calendarMonths_year {year start end_ : ℤ} (hstart : yearStart lib year offset = some start)
    (hend : yearStart lib (year + 1) offset = some end_) :
    calendarMonths lib start end_ offset = some 12 := by
  have hfebruary : ∀ {year : ℤ}, -9999 ≤ year ∧ year ≤ 9999 →
      monthStart lib (nextMonth year .january).1 (nextMonth year .january).2 offset =
        some (monthMidnight lib offset (monthIndex year .february)) :=
    fun hyear => monthStart_eq_some_iff.mpr ⟨hyear, rfl⟩
  have hplaced := placed_monthStart hstart (hfebruary (monthStart_eq_some_iff.mp hstart).1)
  have hplaced' := placed_monthStart hend (hfebruary (monthStart_eq_some_iff.mp hend).1)
  obtain rfl := (monthStart_eq_some_iff.mp hstart).2
  obtain rfl := (monthStart_eq_some_iff.mp hend).2
  have hnext : monthIndex (year + 1) .january = monthIndex year .january + 12 := by
    unfold monthIndex
    ring
  rw [hnext] at hplaced' ⊢
  rw [calendarMonths_between (by omega) hplaced hplaced']
  push_cast
  rw [add_sub_cancel_left]

end Tiling

/-- Windows that follow one another meet in one instant, and the months of a flat fee
add up over them: whole months are one each, whole years twelve, and no cut of a
window changes what a seat costs, whenever the seat was created. -/
theorem periods_tile_and_add (lib : DateLibrary) :
    (∀ (w w' : Window) (now : ℤ) (r r' : Resolved), FollowedBy lib w w' →
      resolve lib w now = .ok r → resolve lib w' now = .ok r' → r.Meets r') ∧
    (∀ (offset a b c : ℤ) (p q : ℚ), a ≤ b → b ≤ c →
      calendarMonths lib a b offset = some p →
      0 ≤ p ∧ (calendarMonths lib a c offset = some q → p ≤ q) ∧
        (calendarMonths lib b c offset = some q →
          calendarMonths lib a c offset = some (p + q))) ∧
    (∀ (offset year start end_ later : ℤ) (month : Month),
      monthStart lib year month offset = some start →
      monthStart lib (nextMonth year month).1 (nextMonth year month).2 offset = some end_ →
      monthStart lib (nextMonth (nextMonth year month).1 (nextMonth year month).2).1
        (nextMonth (nextMonth year month).1 (nextMonth year month).2).2 offset = some later →
      calendarMonths lib start end_ offset = some 1) ∧
    (∀ offset year start end_ : ℤ, yearStart lib year offset = some start →
      yearStart lib (year + 1) offset = some end_ →
      calendarMonths lib start end_ offset = some 12) ∧
    ∀ (w : Resolved) (cuts : List ℤ) (monthly : ℚ) (createdAt : ℤ) (costs : List ℚ),
      (w.start.toList ++ cuts ++ [w.effectiveEnd]).Pairwise (· ≤ ·) →
      (w.split cuts).mapM (fun piece => piece.planCost lib monthly createdAt) = some costs →
      w.planCost lib monthly createdAt = some costs.sum :=
  ⟨fun _ _ _ _ _ h hr hr' => h.meets hr hr',
    fun _ _ _ _ _ _ hab hbc hp => ⟨calendarMonths_nonneg hp, calendarMonths_mono hbc hp,
      calendarMonths_add hab hbc hp⟩,
    fun _ _ _ _ _ _ hstart hend hlater => calendarMonths_month hstart hend hlater,
    fun _ _ _ _ hstart hend => calendarMonths_year hstart hend,
    fun _ cuts _ _ _ hcuts hcosts => planCost_split cuts hcuts hcosts⟩

/-- The Gregorian calendar, with the dates of 2026-09 for a parser. -/
def gregorianDates : DateLibrary where
  calendar := Gregorian.calendar
  parse s := if s = "2026-09-01" then some 20697 else none
  display _ := ""
  debug _ := ""

/-- Eight hours east of UTC, 2026 is twelve months long. -/
theorem twelve_months_2026 :
    calendarMonths gregorianDates 1767196800000000000 1798732800000000000 28800 = some 12 :=
  (periods_tile_and_add gregorianDates).2.2.2.1 28800 2026 1767196800000000000
    1798732800000000000 (by decide) (by decide)

end OpenAIGateway.Periods
