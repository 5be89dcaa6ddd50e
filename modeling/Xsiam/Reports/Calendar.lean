import Xsiam.Etl.Model
import Xsiam.Go.Stamp

/-!
# The next instant of a schedule

The time that `Schedule` of `internal/domain/report/service.go` sets, for every instant it can be called
at: the next Monday, or the first day of the next month, at midnight UTC. Its comment promises the same
time of the next day for a daily report, and what it sets is the midnight before that. So a daily report
is scheduled as promised at midnight, and at no other time (`Xsiam.Reports.picksNext_iff`).

The calendar repeats every 400 years, so that years are counted within such an era
(`Xsiam.Reports.monthFirst`). Months follow one another, also from the last of a year to the first of the
next (`Xsiam.Reports.monthAt_strictMono`), every instant is in its own (`Xsiam.Reports.monthFirst_le`),
and none begins between an instant and the next month (`Xsiam.Reports.nextMonth_le`).
-/

namespace Xsiam

namespace Reports

open Go

/-! ### The calendar -/

/-- `24 * time.Hour` -/
def dayLength : Time := 86400 * 10 ^ 9

/-- `Truncate(24 * time.Hour)` -/
def midnight (t : Time) : Time := t - t % dayLength

/-- `Weekday`, from Sunday on. -/
def weekday (t : Time) : ℤ := (t / dayLength + 4) % 7

/-- The day of a time, from the epoch on. -/
def unixDay (t : Time) : ℤ := t / dayLength

/-- The day of a time, from the year 0 on. -/
def dayOf (t : Time) : ℤ := unixDay t + 719528

/-- The day of a time within its 400 years, which have 146097 days. -/
def eraDay (t : Time) : ℕ := (dayOf t % 146097).toNat

/-- The year of a time within its 400 years. -/
def eraYear (t : Time) : ℕ := Lexical.stepOf yearStart 399 (eraDay t)

/-- `Year` -/
def year (t : Time) : ℤ := 400 * (dayOf t / 146097) + eraYear t

/-- `Month`, from 0 on. -/
def month (t : Time) : ℕ :=
  Lexical.stepOf (monthStart (eraYear t)) 11 (eraDay t - yearStart (eraYear t))

/-- The day that a month of a year begins with. -/
def monthDay (year : ℤ) (month : ℕ) : ℤ :=
  146097 * (year / 400) + (yearStart (year % 400).toNat + monthStart (year % 400).toNat month : ℕ)

/-- `time.Date(year, month, 1, 0, 0, 0, 0, time.UTC)`, with the months from 0 on. -/
def monthFirst (year : ℤ) (month : ℕ) : Time := (monthDay year month - 719528) * dayLength

/-- `time.Date(now.Year(), now.Month()+1, 1, 0, 0, 0, 0, time.UTC)` -/
def nextMonth (t : Time) : Time := monthFirst (year t) (month t + 1)

/-- The time that `Schedule` sets. -/
def nextRun (schedule : GoString) (now : Time) : Time :=
  if schedule = str "daily" then midnight (now + dayLength)
  else if schedule = str "weekly" then
    let daysUntilMonday := (1 - weekday now + 7) % 7
    midnight (now + (if daysUntilMonday = 0 then 7 else daysUntilMonday) * dayLength)
  else if schedule = str "monthly" then nextMonth now
  else now

/-- `Format(time.RFC3339)`, read again: the second. -/
def toSecond (t : Time) : Time := t - t % 10 ^ 9

/-! ### Months, one after the other -/

/-- Behind the last month of a year comes the first of the next. -/
theorem monthDay_twelve (y : ℤ) : monthDay y 12 = monthDay (y + 1) 0 := by
  rw [monthDay, monthDay]
  rcases eq_or_ne (y % 400) 399 with hlast | hne
  · have hdiv : (y + 1) / 400 = y / 400 + 1 := by omega
    have hmod : (y + 1) % 400 = 0 := by omega
    have hera : yearStart (399 : ℤ).toNat + monthStart (399 : ℤ).toNat 12 = 146097 := by decide
    have hzero : yearStart (0 : ℤ).toNat + monthStart (0 : ℤ).toNat 0 = 0 := by decide
    rw [hdiv, hmod, hlast, hera, hzero]
    omega
  · have hdiv : (y + 1) / 400 = y / 400 := by omega
    have hmod : ((y + 1) % 400).toNat = (y % 400).toNat + 1 := by omega
    rw [hdiv, hmod, yearStart_succ]
    simp only [monthStart]
    omega

theorem monthDay_lt_succ (y : ℤ) {m : ℕ} (h : m < 12) : monthDay y m < monthDay y (m + 1) := by
  have hleap := leapDay_le (y % 400).toNat
  have hlt : monthStart (y % 400).toNat m < monthStart (y % 400).toNat (m + 1) := by
    interval_cases m <;> simp only [monthStart] <;> omega
  rw [monthDay, monthDay]
  omega

/-- The months, in one line. -/
def monthAt (k : ℤ) : Time := monthFirst (k / 12) (k % 12).toNat

theorem monthAt_of_le (y : ℤ) {m : ℕ} (h : m ≤ 12) : monthAt (12 * y + m) = monthFirst y m := by
  rcases Nat.lt_or_eq_of_le h with hlt | rfl
  · have hdiv : (12 * y + m) / 12 = y := by omega
    have hmod : ((12 * y + m) % 12).toNat = m := by omega
    rw [monthAt, hdiv, hmod]
  · have hdiv : (12 * y + (12 : ℕ)) / 12 = y + 1 := by omega
    have hmod : ((12 * y + (12 : ℕ)) % 12).toNat = 0 := by omega
    rw [monthAt, hdiv, hmod, monthFirst, monthFirst, monthDay_twelve]

theorem monthAt_strictMono : StrictMono monthAt := by
  refine strictMono_int_of_lt_succ fun k => ?_
  obtain ⟨y, m, hm, rfl⟩ : ∃ (y : ℤ) (m : ℕ), m < 12 ∧ k = 12 * y + m :=
    ⟨k / 12, (k % 12).toNat, by omega, by omega⟩
  have hsucc : monthAt (12 * y + m + 1) = monthFirst y (m + 1) := by
    rw [← monthAt_of_le y (Nat.succ_le_of_lt hm)]
    push_cast
    rw [add_assoc]
  rw [hsucc, monthAt_of_le y hm.le, monthFirst, monthFirst]
  exact mul_lt_mul_of_pos_right (sub_lt_sub_right (monthDay_lt_succ y hm) _) (by decide)

theorem month_lt (t : Time) : month t < 12 := Nat.lt_succ_of_le (Lexical.stepOf_le_bound _ 11 _)

/-- **A day is in the month that it is said to be in.** -/
theorem monthDay_bounds (t : Time) :
    monthDay (year t) (month t) ≤ dayOf t ∧ dayOf t < monthDay (year t) (month t + 1) := by
  have hlast : eraYear t ≤ 399 := Lexical.stepOf_le_bound yearStart 399 (eraDay t)
  have hdiv : year t / 400 = dayOf t / 146097 := by
    rw [year]
    omega
  have hmod : (year t % 400).toNat = eraYear t := by
    rw [year]
    omega
  have hday : (eraDay t : ℤ) = dayOf t % 146097 := Int.toNat_of_nonneg (Int.emod_nonneg _ (by decide))
  have hera : eraDay t < yearStart (399 + 1) := by
    have hstart : yearStart (399 + 1) = 146097 := by decide
    omega
  have hyear : yearStart (eraYear t) ≤ eraDay t := Lexical.stepOf_le (by decide) 399 _
  have hyear' : eraDay t < yearStart (eraYear t + 1) := Lexical.lt_stepOf_succ hera
  have hrest : eraDay t - yearStart (eraYear t) < monthStart (eraYear t) (11 + 1) := by
    rw [yearStart_succ] at hyear'
    simp only [monthStart]
    omega
  have hmonth : monthStart (eraYear t) (month t) ≤ eraDay t - yearStart (eraYear t) :=
    Lexical.stepOf_le rfl 11 _
  have hmonth' : eraDay t - yearStart (eraYear t) < monthStart (eraYear t) (month t + 1) :=
    Lexical.lt_stepOf_succ hrest
  rw [monthDay, monthDay, hdiv, hmod]
  omega

/-! ### Days -/

/-- A time is behind the days before its own, and before the days behind it. -/
theorem unixDay_lt_iff {t : Time} {k : ℤ} : unixDay t < k ↔ t < k * dayLength :=
  Int.ediv_lt_iff_lt_mul (by decide)

theorem le_unixDay_iff {t : Time} {k : ℤ} : k ≤ unixDay t ↔ k * dayLength ≤ t :=
  Int.le_ediv_iff_mul_le (by decide)

@[simp] theorem unixDay_mul (k : ℤ) : unixDay (k * dayLength) = k := Int.mul_ediv_cancel k (by decide)

/-- A midnight is where its day begins. -/
theorem eq_unixDay_mul {t : Time} (h : t % dayLength = 0) : t = unixDay t * dayLength :=
  (Int.ediv_mul_cancel_of_emod_eq_zero h).symm

theorem midnight_add (t d : ℤ) : midnight (t + d * dayLength) = (unixDay t + d) * dayLength := by
  have hmod : (t + d * dayLength) % dayLength = t % dayLength := Int.add_mul_emod_self_right ..
  have hsplit : dayLength * unixDay t + t % dayLength = t := Int.mul_ediv_add_emod t dayLength
  rw [midnight, hmod]
  linarith

theorem monthFirst_le (t : Time) : monthFirst (year t) (month t) ≤ t := by
  have hday := (monthDay_bounds t).1
  rw [dayOf] at hday
  exact le_unixDay_iff.mp (by omega)

/-- **No month begins between an instant and the next month.** -/
theorem nextMonth_le {t : Time} {y : ℤ} {m : ℕ} (hm : m < 12) (h : t < monthFirst y m) :
    nextMonth t ≤ monthFirst y m := by
  have hnow : monthAt (12 * year t + month t) ≤ t := by
    rw [monthAt_of_le _ (month_lt t).le]
    exact monthFirst_le t
  have hnext : nextMonth t = monthAt (12 * year t + (month t + 1 : ℕ)) := by
    rw [monthAt_of_le _ (month_lt t), nextMonth]
  rw [← monthAt_of_le y hm.le] at h ⊢
  rw [hnext]
  refine monthAt_strictMono.monotone ?_
  have hlt := monthAt_strictMono.lt_iff_lt.mp (hnow.trans_lt h)
  push_cast
  omega

/-! ### What a schedule is for -/

/-- The schedules that recur. -/
inductive Recurrence where
  | daily
  | weekly
  | monthly
deriving DecidableEq

namespace Recurrence

/-- The text that `Schedule` takes. -/
def text : Recurrence → GoString
  | .daily => str "daily"
  | .weekly => str "weekly"
  | .monthly => str "monthly"

/-- The instants of a schedule, for a report that is scheduled at a time: the same time of every day,
every Monday, or the first day of every month, each at midnight UTC. -/
def IsInstant (now t : Time) : Recurrence → Prop
  | .daily => t % dayLength = now % dayLength
  | .weekly => t % dayLength = 0 ∧ weekday t = 1
  | .monthly => ∃ y : ℤ, ∃ m < 12, t = monthFirst y m

/-- A time is the first instant of a schedule behind another time. -/
structure IsNext (r : Recurrence) (now t : Time) : Prop where
  instant : r.IsInstant now t
  later : now < t
  first : ∀ u, r.IsInstant now u → now < u → t ≤ u

/-- What `Schedule` sets is the next instant, in the report that it has and in the one that it stores. -/
structure PicksNext (r : Recurrence) (now : Time) : Prop where
  set : r.IsNext now (nextRun r.text now)
  stored : r.IsNext now (toSecond (nextRun r.text now))

end Recurrence

/-! ### What is set -/

/-- `nextRun` for a daily report. -/
theorem nextRun_daily (now : Time) :
    nextRun Recurrence.daily.text now = (unixDay now + 1) * dayLength := by
  have hadd := midnight_add now 1
  rw [one_mul] at hadd
  rw [nextRun, Recurrence.text, if_pos rfl, hadd]

/-- And for a weekly one: the next Monday is at least one day away and at most seven. -/
theorem nextRun_weekly (now : Time) : ∃ d : ℤ, 1 ≤ d ∧ d ≤ 7 ∧ (unixDay now + d + 4) % 7 = 1 ∧
    nextRun Recurrence.weekly.text now = (unixDay now + d) * dayLength := by
  have hday : weekday now = (unixDay now + 4) % 7 := rfl
  rw [nextRun, Recurrence.text, if_neg (by decide), if_pos rfl]
  dsimp only
  rw [midnight_add, hday]
  refine ⟨_, ?_, ?_, ?_, rfl⟩
  · split_ifs <;> omega
  · split_ifs <;> omega
  · split_ifs <;> omega

/-- And for a monthly one. -/
theorem nextRun_monthly (now : Time) : nextRun Recurrence.monthly.text now = nextMonth now := by
  rw [nextRun, Recurrence.text, if_neg (by decide), if_neg (by decide), if_pos rfl]

/-- **What is set is the midnight of a later day.** -/
theorem nextRun_midnight (r : Recurrence) (now : Time) :
    ∃ k : ℤ, nextRun r.text now = k * dayLength ∧ unixDay now < k := by
  cases r with
  | daily => exact ⟨_, nextRun_daily now, lt_add_one _⟩
  | weekly =>
    obtain ⟨d, hd, -, -, hnext⟩ := nextRun_weekly now
    exact ⟨_, hnext, by omega⟩
  | monthly =>
    have hday := (monthDay_bounds now).2
    rw [dayOf] at hday
    exact ⟨_, nextRun_monthly now, by omega⟩

/-- **What is scheduled to recur is scheduled for later.** -/
theorem lt_nextRun (r : Recurrence) (now : Time) : now < nextRun r.text now := by
  obtain ⟨k, hnext, hlt⟩ := nextRun_midnight r now
  rw [hnext]
  exact unixDay_lt_iff.mp hlt

/-- Nothing of it is lost where it is stored. -/
theorem toSecond_nextRun (r : Recurrence) (now : Time) :
    toSecond (nextRun r.text now) = nextRun r.text now := by
  obtain ⟨k, hnext, -⟩ := nextRun_midnight r now
  have hmod : k * dayLength % 10 ^ 9 = 0 := by
    rw [dayLength, ← mul_assoc, Int.mul_emod_left]
  rw [toSecond, hnext, hmod, sub_zero]

theorem isNext_weekly (now : Time) : Recurrence.weekly.IsNext now (nextRun Recurrence.weekly.text now) := by
  obtain ⟨d, hpos, hseven, hmonday, hnext⟩ := nextRun_weekly now
  refine ⟨?_, lt_nextRun .weekly now, ?_⟩
  · have hday : weekday ((unixDay now + d) * dayLength) = (unixDay now + d + 4) % 7 :=
      congrArg (fun k => (k + 4) % 7) (unixDay_mul (unixDay now + d))
    rw [hnext]
    exact ⟨Int.mul_emod_left _ _, hday.trans hmonday⟩
  · rintro u ⟨hmid, hday⟩ hlt
    have hweekday : (unixDay u + 4) % 7 = 1 := hday
    rw [eq_unixDay_mul hmid, ← unixDay_lt_iff] at hlt
    -- two Mondays are no less than a week apart, and the first one is at most a week away
    rw [hnext, ← le_unixDay_iff]
    omega

theorem isNext_monthly (now : Time) :
    Recurrence.monthly.IsNext now (nextRun Recurrence.monthly.text now) := by
  refine ⟨?_, lt_nextRun .monthly now, ?_⟩
  · rw [nextRun_monthly, nextMonth]
    rcases Nat.lt_or_eq_of_le (Nat.succ_le_of_lt (month_lt now)) with hlt | heq
    · exact ⟨_, _, hlt, rfl⟩
    · -- December is followed by the January of the next year
      refine ⟨year now + 1, 0, by decide, ?_⟩
      rw [show month now + 1 = 12 from heq, monthFirst, monthFirst, monthDay_twelve]
  · rintro u ⟨y, m, hm, rfl⟩ hlt
    rw [nextRun_monthly]
    exact nextMonth_le hm hlt

/-- A daily report is set to a midnight, which is the same time only at midnight. -/
theorem isNext_daily_iff (now : Time) :
    Recurrence.daily.IsNext now (nextRun Recurrence.daily.text now) ↔ now % dayLength = 0 := by
  constructor
  · intro h
    have hsame : nextRun Recurrence.daily.text now % dayLength = now % dayLength := h.instant
    rw [← hsame, nextRun_daily, Int.mul_emod_left]
  · intro h
    refine ⟨?_, lt_nextRun .daily now, ?_⟩
    · rw [nextRun_daily]
      exact (Int.mul_emod_left _ _).trans h.symm
    · intro u hu hlt
      have hmid : u % dayLength = 0 := (show u % dayLength = now % dayLength from hu).trans h
      rw [eq_unixDay_mul hmid, ← unixDay_lt_iff] at hlt
      rw [nextRun_daily, ← le_unixDay_iff]
      omega

/-- **A report is scheduled as the comment says, at every instant, unless it is a daily one and the
instant is no midnight.** -/
theorem picksNext_iff (r : Recurrence) (now : Time) :
    r.PicksNext now ↔ (r = .daily → now % dayLength = 0) := by
  have hset : r.PicksNext now ↔ r.IsNext now (nextRun r.text now) := by
    refine ⟨fun h => h.set, fun h => ⟨h, ?_⟩⟩
    rw [toSecond_nextRun]
    exact h
  rw [hset]
  cases r with
  | daily =>
    rw [isNext_daily_iff]
    exact ⟨fun h _ => h, fun h => h rfl⟩
  | weekly => exact iff_of_true (isNext_weekly now) (fun h => absurd h (by decide))
  | monthly => exact iff_of_true (isNext_monthly now) (fun h => absurd h (by decide))

/-- A daily report that is scheduled at one o'clock runs at midnight. -/
theorem not_picksNext : ¬Recurrence.daily.PicksNext (3600 * 10 ^ 9) := by
  intro h
  have hsame := (isNext_daily_iff _).mp h.set
  exact absurd hsame (by decide)

end Reports

end Xsiam
