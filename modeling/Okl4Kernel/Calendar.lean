import Mathlib.Algebra.BigOperators.Group.List.Basic
import Mathlib.Tactic.Ring

/-!
# The calendar

`gmtime_r` breaks a number of seconds since 1970 down to a date and a time, and `mktime` puts it
together again. Both count the years one by one. `daysBefore` is the closed form of the count, and
`Tm.IsAt` says what a date and time should be.

Division truncates. A time before 1970 is broken down to what it should be only if it is not in the
last day of 1969 and not the first second of a day; for other such times the year or the day of the
week is wrong (`gmtimeR_isAt_iff`).

The numbers are integers without bounds, so that every year fits.
-/

namespace Okl4Kernel.Calendar

open List

/-- `is_leap_year`. -/
def isLeapYear (year : ℤ) : Bool :=
  if year.tmod 4 = 0 then
    if year.tmod 100 = 0 then decide (year.tmod 400 = 0) else true
  else false

/-- The loop of `get_unix_years`, for at most `n` rounds: the days that are left, and the year. -/
def yearLoop (isNegative : Bool) : ℕ → ℤ → ℤ → ℤ × ℤ
  | 0, unixDays, curYear => (unixDays, curYear)
  | n + 1, unixDays, curYear =>
    let yearDays := if isLeapYear curYear then 365 else 364
    if |unixDays| > yearDays then
      if isNegative then yearLoop isNegative n (unixDays + (yearDays + 1)) (curYear - 1)
      else yearLoop isNegative n (unixDays - (yearDays + 1)) (curYear + 1)
    else (unixDays, curYear)

/-- `get_unix_years`: the years since 1970, and the days that are left. Every round takes days
away. -/
def getUnixYears (unixDays : ℤ) : ℤ × ℤ :=
  let (days, year) := yearLoop (unixDays < 0) unixDays.natAbs unixDays
    (if unixDays < 0 then 1970 - 1 else 1970)
  (year - 1970, days)

/-- The tables of `get_year_month`: the last day of each month, counted from 0. -/
def lastDays (leap : Bool) : List ℤ :=
  if leap then [30, 28, 30, 29, 30, 29, 30, 30, 29, 30, 29, 30]
  else [30, 27, 30, 29, 30, 29, 30, 30, 29, 30, 29, 30]

/-- `get_year_month`, from the month `i` on: the month, and the day of the month. -/
def getYearMonth : List ℤ → ℤ → ℤ → ℤ × ℤ
  | [], i, yearDays => (i, yearDays)
  | last :: months, i, yearDays =>
    if yearDays > last then getYearMonth months (i + 1) (yearDays - (last + 1))
    else (i, yearDays + 1)

/-- `get_week_day`. -/
def getWeekDay (unixDays : ℤ) : ℤ :=
  if unixDays < 0 then
    let wdTmp := |unixDays|.tmod 7
    6 - if wdTmp > 3 then wdTmp - 4 else wdTmp + 3
  else
    let wdTmp := unixDays.tmod 7
    if wdTmp > 2 then wdTmp - 3 else wdTmp + 4

/-- `struct tm`. -/
structure Tm where
  sec : ℤ
  min : ℤ
  hour : ℤ
  mday : ℤ
  mon : ℤ
  year : ℤ
  wday : ℤ
  yday : ℤ
  isdst : ℤ

/-- The first part of `gmtime_r`: the years since 1970, and the day and the second of the year. -/
def yearSecond (timer : ℤ) : ℤ × ℤ × ℤ :=
  let (unixYears, yearDays) := getUnixYears (timer.tdiv 86400)
  let yearSec := yearDays * 86400 + timer.tmod 86400
  if yearSec < 0 then
    let yearSec := (if isLeapYear (1970 + unixYears) then 86400 * 366 else 86400 * 365) + yearSec
    (unixYears, yearSec.tdiv 86400, yearSec)
  else (unixYears, yearDays, yearSec)

/-- `gmtime_r`. -/
def gmtimeR (daylight timer : ℤ) : Tm :=
  let (unixYears, yearDays, yearSec) := yearSecond timer
  let (yearMonth, monthDays) := getYearMonth (lastDays (isLeapYear (1970 + unixYears))) 0 yearDays
  let daySec := yearSec.tmod 86400
  { hour := daySec.tdiv 3600
    min := (daySec.tmod 3600).tdiv 60
    sec := (daySec.tmod 3600).tmod 60
    mday := monthDays
    mon := yearMonth
    year := 1970 + unixYears - 1900
    wday := getWeekDay (timer.tdiv 86400)
    yday := yearDays
    isdst := daylight }

/-- `get_year_seconds`. -/
def getYearSeconds : ℕ → ℤ → ℤ
  | 0, _ => 0
  | years + 1, startYear =>
    (if isLeapYear startYear then 31622400 else 31536000) + getYearSeconds years (startYear + 1)

/-- The tables of `get_yday`: the days of each month. -/
def monthDays (leap : Bool) : List ℤ :=
  if leap then [31, 29, 31, 30, 31, 30, 31, 31, 30, 31, 30, 31]
  else [31, 28, 31, 30, 31, 30, 31, 31, 30, 31, 30, 31]

/-- `get_yday`. -/
def getYday (pt : Tm) : ℤ :=
  ((monthDays (isLeapYear (1900 + pt.year))).take pt.mon.toNat).sum + (pt.mday - 1)

/-- `tm_out_of_range`. -/
def tmOutOfRange (pt : Tm) : Bool :=
  pt.sec > 60 ∨ pt.sec < 0 ∨ pt.min > 59 ∨ pt.min < 0 ∨ pt.hour > 23 ∨ pt.hour < 0 ∨
    pt.mday > 31 ∨ pt.mday < 1 ∨ pt.mon > 11 ∨ pt.mon < 0 ∨ pt.wday > 6 ∨ pt.wday < 0 ∨
    pt.yday > 365 ∨ pt.yday < 0

/-- `mktime`: the time, and what is left in the argument. `timezone` is what `tzset` finds. -/
def mktime (timezone : ℤ) (pt : Tm) : ℤ × Tm :=
  let pt := { pt with wday := 0, yday := 0 }
  if tmOutOfRange pt then (-1, pt)
  else
    let unixYear := 1900 + pt.year - 1970
    let res := if unixYear < 0 then getYearSeconds (|unixYear| - 1).toNat (1971 + unixYear)
      else getYearSeconds unixYear.toNat 1970
    let yday := getYday pt
    let yearSecs := yday * 86400 + pt.hour * 3600 + pt.min * 60 + pt.sec
    let res := if unixYear < 0 then
        -(res + ((if isLeapYear (1970 + unixYear) then 31622400 else 31536000) - yearSecs))
      else res + yearSecs
    (res + timezone, { pt with yday, wday := getWeekDay (res.tdiv 86400) })

/-! ## The calendar by closed forms -/

/-- The days from the beginning of 1970 to the beginning of a year of the Gregorian calendar. -/
def daysBefore (year : ℤ) : ℤ :=
  365 * (year - 1970) + ((year - 1) / 4 - (year - 1) / 100 + (year - 1) / 400 - 477)

/-- The date and time of a second since the beginning of 1970, which was a Thursday. -/
structure Tm.IsAt (tm : Tm) (t : ℤ) : Prop where
  year : daysBefore (1900 + tm.year) ≤ t / 86400 ∧ t / 86400 < daysBefore (1900 + tm.year + 1)
  yday : tm.yday = t / 86400 - daysBefore (1900 + tm.year)
  date : ∃ before days after, monthDays (isLeapYear (1900 + tm.year)) = before ++ days :: after ∧
    tm.mon = before.length ∧ 1 ≤ tm.mday ∧ tm.mday ≤ days ∧ tm.yday = before.sum + (tm.mday - 1)
  hour : 0 ≤ tm.hour ∧ tm.hour ≤ 23
  min : 0 ≤ tm.min ∧ tm.min ≤ 59
  sec : 0 ≤ tm.sec ∧ tm.sec ≤ 59
  time : t % 86400 = tm.hour * 3600 + tm.min * 60 + tm.sec
  wday : tm.wday = (t / 86400 + 4) % 7

/-- A year is as long as `is_leap_year` says. -/
theorem daysBefore_succ (y : ℤ) :
    daysBefore (y + 1) = daysBefore y + if isLeapYear y then 366 else 365 := by
  have hdvd (n : ℤ) : y.tmod n = 0 ↔ y % n = 0 := by
    rw [← Int.dvd_iff_tmod_eq_zero, Int.dvd_iff_emod_eq_zero]
  simp only [daysBefore, isLeapYear, hdvd]
  grind

lemma daysBefore_lt (y : ℤ) : daysBefore y < daysBefore (y + 1) := by
  have hnext := daysBefore_succ y
  split_ifs at hnext <;> omega

/-- A round of the loop takes a whole year away, in the one direction or the other. -/
theorem yearLoop_succ (isNegative : Bool) (n : ℕ) (days y : ℤ) :
    yearLoop isNegative (n + 1) days y =
      if |days| < daysBefore (y + 1) - daysBefore y then (days, y) else if isNegative then
        yearLoop isNegative n (days + (daysBefore (y + 1) - daysBefore y)) (y - 1)
      else yearLoop isNegative n (days - (daysBefore (y + 1) - daysBefore y)) (y + 1) := by
  have hlength : daysBefore (y + 1) - daysBefore y = (if isLeapYear y then 365 else 364) + 1 := by
    have hnext := daysBefore_succ y
    split_ifs at hnext ⊢ <;> omega
  rw [yearLoop, hlength]
  by_cases hlt : |days| > if isLeapYear y then 365 else 364
  · rw [if_pos hlt, if_neg (not_lt.2 (Int.add_one_le_of_lt hlt))]
  · rw [if_neg hlt, if_pos (Int.lt_add_one_of_le (not_lt.1 hlt))]

/-- From 1970 on, the loop ends in the year of the day, and the days that are left are counted from
its beginning. -/
theorem yearLoop_of_nonneg {n : ℕ} {days y : ℤ} (hdays : 0 ≤ days) (hn : days ≤ n) :
    daysBefore (yearLoop false n days y).2 + (yearLoop false n days y).1 = daysBefore y + days ∧
      0 ≤ (yearLoop false n days y).1 ∧
      daysBefore y + days < daysBefore ((yearLoop false n days y).2 + 1) := by
  have hlt := daysBefore_lt y
  induction n generalizing days y with
  | zero => exact ⟨rfl, hdays, by simp only [yearLoop]; omega⟩
  | succ n ih =>
    rw [yearLoop_succ, abs_of_nonneg hdays, if_neg Bool.false_ne_true]
    split_ifs with hyear
    · exact ⟨rfl, hdays, by dsimp only; omega⟩
    · have hrest := ih (show 0 ≤ days - (daysBefore (y + 1) - daysBefore y) by omega) (by omega)
        (daysBefore_lt (y + 1))
      omega

/-- Before 1970 they are counted from its end. -/
theorem yearLoop_of_nonpos {n : ℕ} {days y : ℤ} (hdays : days ≤ 0) (hn : -days ≤ n) :
    daysBefore ((yearLoop true n days y).2 + 1) + (yearLoop true n days y).1 =
        daysBefore (y + 1) + days ∧ (yearLoop true n days y).1 ≤ 0 ∧
      daysBefore (yearLoop true n days y).2 < daysBefore (y + 1) + days := by
  have hlt := daysBefore_lt y
  induction n generalizing days y with
  | zero => exact ⟨rfl, hdays, by simp only [yearLoop]; omega⟩
  | succ n ih =>
    rw [yearLoop_succ, abs_of_nonpos hdays, if_pos rfl]
    split_ifs with hyear
    · exact ⟨rfl, hdays, by dsimp only; omega⟩
    · have hrest := ih (show days + (daysBefore (y + 1) - daysBefore y) ≤ 0 by omega) (by omega)
        (daysBefore_lt (y - 1))
      rw [Int.sub_add_cancel] at hrest
      omega

lemma getYearMonth_spec {months : List ℤ} {i d : ℤ} (hd : 0 ≤ d)
    (hlt : d < (months.map (· + 1)).sum) : ∃ before last after,
      months = before ++ last :: after ∧ (getYearMonth months i d).1 = i + before.length ∧
      1 ≤ (getYearMonth months i d).2 ∧ (getYearMonth months i d).2 ≤ last + 1 ∧
      d = (before.map (· + 1)).sum + ((getYearMonth months i d).2 - 1) := by
  induction months generalizing i d with
  | nil =>
    simp only [map_nil, sum_nil] at hlt
    omega
  | cons last months ih =>
    rw [map_cons, sum_cons] at hlt
    rw [getYearMonth]
    split_ifs with hgt
    · obtain ⟨before, last', after, rfl, hmon, hone, hle, hsum⟩ :=
        ih (i := i + 1) (d := d - (last + 1)) (by omega) (by omega)
      refine ⟨last :: before, last', after, rfl, ?_, hone, hle, ?_⟩
      · rw [hmon, length_cons]
        push_cast
        ring
      · rw [map_cons, sum_cons]
        omega
    · exact ⟨[], last, months, rfl, by simp, by omega, by omega, by simp⟩

/-- Before 1970 the day of the week is that of the day before. -/
theorem getWeekDay_eq (d : ℤ) : getWeekDay d = if d < 0 then (d + 3) % 7 else (d + 4) % 7 := by
  simp only [getWeekDay, Int.tmod_eq_emod]
  grind

lemma monthDays_spec (leap : Bool) : (lastDays leap).map (· + 1) = monthDays leap ∧
    (monthDays leap).sum = (if leap then 366 else 365) ∧ (monthDays leap).length = 12 ∧
      ∀ days ∈ monthDays leap, days ≤ 31 := by
  cases leap <;> decide

variable {t : ℤ}

/-- Before 1970 division rounds up to the next day. -/
theorem tdiv_of_neg (ht : t < 0) (hdvd : ¬ 86400 ∣ t) :
    t.tdiv 86400 = t / 86400 + 1 ∧ t.tmod 86400 = t % 86400 - 86400 := by
  rw [Int.tdiv_eq_ediv, Int.tmod_eq_emod, if_neg (by omega), if_neg (by omega)]
  exact ⟨rfl, rfl⟩

section

variable (h : 0 ≤ t ∨ t < -86400 ∧ ¬ 86400 ∣ t)
include h

lemma yearSecond_spec : let (unixYears, yearDays, yearSec) := yearSecond t
    t / 86400 = daysBefore (1970 + unixYears) + yearDays ∧ 0 ≤ yearDays ∧
      t / 86400 < daysBefore (1970 + unixYears + 1) ∧ yearSec = yearDays * 86400 + t % 86400 := by
  have hepoch : daysBefore 1970 = 0 := by decide
  rw [yearSecond, getUnixYears]
  rcases h with hpos | ⟨hlt, hdvd⟩
  · have hdays : 0 ≤ t / 86400 := by omega
    rw [Int.tdiv_eq_ediv_of_nonneg hpos, Int.tmod_eq_emod_of_nonneg hpos, if_neg (by omega),
      decide_eq_false (by omega)]
    have hloop := yearLoop_of_nonneg (y := 1970) (n := (t / 86400).natAbs) hdays (by omega)
    generalize yearLoop false _ _ _ = r at hloop ⊢
    dsimp only
    rw [if_neg (by omega)]
    dsimp only
    rw [add_sub_cancel]
    exact ⟨by omega, hloop.2.1, by omega, rfl⟩
  · obtain ⟨hdiv, hmod⟩ := tdiv_of_neg (by omega) hdvd
    rw [hdiv, hmod, if_pos (by omega), decide_eq_true (by omega)]
    have hloop := yearLoop_of_nonpos (y := 1970 - 1) (n := (t / 86400 + 1).natAbs)
      (show t / 86400 + 1 ≤ 0 by omega) (by omega)
    generalize yearLoop true _ _ _ = r at hloop ⊢
    have hnext := daysBefore_succ r.2
    rw [Int.sub_add_cancel, hepoch] at hloop
    dsimp only
    rw [if_pos (by omega), add_sub_cancel]
    dsimp only
    rw [Int.tdiv_eq_ediv_of_nonneg (by split_ifs at hnext ⊢ <;> omega)]
    split_ifs at hnext ⊢ <;> omega

lemma gmtimeR_isAt (daylight : ℤ) : (gmtimeR daylight t).IsAt t := by
  have hyear := yearSecond_spec h
  rw [gmtimeR]
  generalize yearSecond t = r at hyear ⊢
  obtain ⟨unixYears, yearDays, yearSec⟩ := r
  obtain ⟨hday, hnonneg, hlt, rfl⟩ := hyear
  have hnext := daysBefore_succ (1970 + unixYears)
  obtain ⟨hmap, hlength, -⟩ := monthDays_spec (isLeapYear (1970 + unixYears))
  rw [← hmap] at hlength
  obtain ⟨before, last, after, hsplit, hmon, hone, hle, hsum⟩ :=
    getYearMonth_spec (i := 0) hnonneg (by rw [hlength]; omega)
  have hyears : 1900 + (1970 + unixYears - 1900) = 1970 + unixYears := by omega
  have hsec : (yearDays * 86400 + t % 86400).tmod 86400 = t % 86400 := by
    rw [Int.tmod_eq_emod_of_nonneg (by omega)]
    omega
  have htime : 0 ≤ t % 86400 := by omega
  dsimp only
  rw [hsec, Int.tdiv_eq_ediv_of_nonneg htime, Int.tmod_eq_emod_of_nonneg htime,
    Int.tdiv_eq_ediv_of_nonneg (by omega), Int.tmod_eq_emod_of_nonneg (by omega), getWeekDay_eq]
  constructor <;> dsimp only
  · rw [hyears]
    omega
  · rw [hyears]
    omega
  · rw [hyears]
    refine ⟨before.map (· + 1), last + 1, after.map (· + 1), ?_, ?_, hone, hle, hsum⟩
    · rw [← hmap, hsplit, map_append, map_cons]
    · rw [hmon, length_map, zero_add]
  · omega
  · omega
  · omega
  · omega
  · rcases h with hpos | ⟨hneg, hdvd⟩
    · rw [Int.tdiv_eq_ediv_of_nonneg hpos, if_neg (by omega)]
    · rw [(tdiv_of_neg (by omega) hdvd).1, if_pos (by omega)]
      omega

end

lemma getYearSeconds_eq (n : ℕ) (y : ℤ) :
    getYearSeconds n y = 86400 * (daysBefore (y + n) - daysBefore y) := by
  induction n generalizing y with
  | zero => simp [getYearSeconds]
  | succ n ih =>
    have hnext := daysBefore_succ y
    rw [getYearSeconds, ih, Nat.cast_succ, add_comm (n : ℤ) 1, ← add_assoc]
    split_ifs at hnext ⊢ <;> omega

lemma mktime_of_isAt {tm : Tm} (h : tm.IsAt t) : (mktime 0 tm).1 = t := by
  obtain ⟨before, days, after, hsplit, hmon, hone, hle, hsum⟩ := h.date
  obtain ⟨-, -, hlength, hall⟩ := monthDays_spec (isLeapYear (1900 + tm.year))
  have hdays := hall days (by rw [hsplit]; exact mem_append_right _ mem_cons_self)
  rw [hsplit, length_append, length_cons] at hlength
  have hrange : tmOutOfRange { tm with wday := 0, yday := 0 } = false := by
    have hhour := h.hour
    have hmin := h.min
    have hsec := h.sec
    rw [tmOutOfRange]
    exact decide_eq_false (by dsimp only; omega)
  have hyday : getYday { tm with wday := 0, yday := 0 } = tm.yday := by
    rw [getYday, hsplit, hmon, Int.toNat_natCast, take_left, hsum]
  have hepoch : daysBefore 1970 = 0 := by decide
  have hnext := daysBefore_succ (1900 + tm.year)
  have htime := h.time
  have hday := h.yday
  rw [mktime, hrange, if_neg (by exact Bool.false_ne_true), hyday]
  dsimp only
  rw [add_sub_cancel]
  by_cases hneg : 1900 + tm.year - 1970 < 0
  · rw [if_pos hneg, if_pos hneg, getYearSeconds_eq, abs_of_neg hneg]
    have hend : 1971 + (1900 + tm.year - 1970) + ((-(1900 + tm.year - 1970) - 1).toNat : ℤ) =
        1970 := by omega
    have hstart : 1971 + (1900 + tm.year - 1970) = 1900 + tm.year + 1 := by omega
    rw [hend, hstart, hepoch]
    split_ifs at hnext ⊢ <;> omega
  · rw [if_neg hneg, if_neg hneg, getYearSeconds_eq]
    have hend : 1970 + ((1900 + tm.year - 1970).toNat : ℤ) = 1900 + tm.year := by omega
    rw [hend, hepoch]
    omega

/-- `gmtime_r` yields the date and time, and `mktime` the time again, exactly for the times from
1970 on and for those before the last day of 1969 that are not the first second of a day. -/
theorem gmtimeR_isAt_iff (daylight t : ℤ) :
    (gmtimeR daylight t).IsAt t ∧ (mktime 0 (gmtimeR daylight t)).1 = t ↔
      0 ≤ t ∨ t < -86400 ∧ ¬ 86400 ∣ t := by
  constructor
  · rintro ⟨hat, -⟩
    by_contra hnot
    push Not at hnot
    by_cases hdvd : 86400 ∣ t
    · have hwday := hat.wday
      rw [gmtimeR] at hwday
      dsimp only at hwday
      rw [getWeekDay_eq, Int.tdiv_eq_ediv_of_dvd hdvd, if_pos (by omega)] at hwday
      omega
    · have hzero : t.tdiv 86400 = 0 := by
        rw [(tdiv_of_neg (by omega) hdvd).1]
        omega
      have hyear : (gmtimeR daylight t).year = 70 := by
        simp only [gmtimeR, yearSecond, hzero, show getUnixYears 0 = (0, 0) from rfl]
        split_ifs <;> rfl
      have hle := hat.year.1
      rw [hyear, show daysBefore (1900 + 70) = 0 by decide] at hle
      omega
  · intro h
    have hat := gmtimeR_isAt h daylight
    exact ⟨hat, mktime_of_isAt hat⟩

/-- The last second of 1969 becomes the last one of 1970. -/
theorem gmtimeR_wrong_year : (gmtimeR 0 (-1)).year = 70 ∧ ¬ (gmtimeR 0 (-1)).IsAt (-1) ∧
    (mktime 0 (gmtimeR 0 (-1))).1 = 31535999 :=
  ⟨by decide, fun h => absurd h.year.1 (by decide), by decide⟩

end Okl4Kernel.Calendar
