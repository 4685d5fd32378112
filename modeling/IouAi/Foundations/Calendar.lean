import Mathlib.Order.Basic
import Mathlib.Tactic.Ring
import Mathlib.Data.Nat.Basic

/-!
# Dates and UTC instants

The proleptic Gregorian calendar of the years 1 to 9999. A `Date` carries the proof that it is one;
a `Datetime` is an instant in UTC, the microseconds since the first of the calendar, and its date
and time of day are read off that number.
-/

namespace IouAi.Calendar

def isLeap (year : ℕ) : Bool :=
  year % 4 = 0 ∧ (year % 100 ≠ 0 ∨ year % 400 = 0)

def daysInMonth (year month : ℕ) : ℕ :=
  if month = 2 then
    if isLeap year then 29 else 28
  else if month = 4 ∨ month = 6 ∨ month = 9 ∨ month = 11 then 30
  else 31

def daysInYear (year : ℕ) : ℕ := if isLeap year then 366 else 365

@[ext]
structure Date where
  year : ℕ
  month : ℕ
  day : ℕ
  year_mem : 1 ≤ year ∧ year ≤ 9999
  month_mem : 1 ≤ month ∧ month ≤ 12
  day_mem : 1 ≤ day ∧ day ≤ daysInMonth year month
  deriving DecidableEq

/-- Dates are compared field by field. -/
def Date.key (date : Date) : ℕ := (date.year * 13 + date.month) * 32 + date.day

instance : LT Date := ⟨fun date other => date.key < other.key⟩
instance : LE Date := ⟨fun date other => date.key ≤ other.key⟩
instance (date other : Date) : Decidable (date < other) :=
  inferInstanceAs (Decidable (date.key < other.key))
instance (date other : Date) : Decidable (date ≤ other) :=
  inferInstanceAs (Decidable (date.key ≤ other.key))

/-! ## The year and the day in it -/

/-- The days of the calendar, from 0001-01-01 to 9999-12-31. -/
def calendarDays : ℕ := 3652059

/-- The year of the day `days` days after the first, and the day in that year from zero. The last
day of a cycle of four hundred or of four years belongs to the cycle's last year. -/
def yearDay (days : ℕ) : ℕ × ℕ :=
  let n400 := days / 146097
  let r400 := days % 146097
  let n100 := min 3 (r400 / 36524)
  let r100 := r400 - n100 * 36524
  let n4 := r100 / 1461
  let r4 := r100 % 1461
  let n1 := min 3 (r4 / 365)
  (n400 * 400 + n100 * 100 + n4 * 4 + n1 + 1, r4 - n1 * 365)

theorem isLeap_iff (year : ℕ) :
    isLeap year = true ↔ year % 4 = 0 ∧ (year % 100 ≠ 0 ∨ year % 400 = 0) := by
  simp [isLeap]

theorem daysInYear_ge (year : ℕ) : 365 ≤ daysInYear year := by
  rw [daysInYear]
  split <;> omega

theorem yearDay_snd_lt (days : ℕ) : (yearDay days).2 < daysInYear (yearDay days).1 := by
  by_cases hlast : (yearDay days).2 < 365
  · exact hlast.trans_le (daysInYear_ge _)
  · -- only the last year of a four-year cycle has a day 365
    have hleap : isLeap (yearDay days).1 = true := by
      rw [isLeap_iff]
      simp only [yearDay] at hlast ⊢
      omega
    rw [daysInYear, if_pos hleap]
    simp only [yearDay]
    omega

theorem yearDay_fst_mem {days : ℕ} (h : days < calendarDays) :
    1 ≤ (yearDay days).1 ∧ (yearDay days).1 ≤ 9999 := by
  simp only [calendarDays] at h
  simp only [yearDay]
  omega

/-! ## The month and the day in it -/

/-- The month and the day of the month of a day of the year, searched from `month` on. -/
def monthDay (year month : ℕ) : (fuel day : ℕ) → ℕ × ℕ
  | 0, day => (month, day + 1)
  | fuel + 1, day =>
    if day < daysInMonth year month then (month, day + 1)
    else monthDay year (month + 1) fuel (day - daysInMonth year month)

/-- The days of the `fuel + 1` months from `month` on. -/
def daysFrom (year month : ℕ) : (fuel : ℕ) → ℕ
  | 0 => daysInMonth year month
  | fuel + 1 => daysInMonth year month + daysFrom year (month + 1) fuel

theorem daysFrom_year (year : ℕ) : daysFrom year 1 11 = daysInYear year := by
  simp only [daysFrom, daysInMonth, daysInYear]
  cases isLeap year <;> decide

theorem monthDay_mem (year : ℕ) {month fuel day : ℕ} (h : day < daysFrom year month fuel) :
    (month ≤ (monthDay year month fuel day).1 ∧ (monthDay year month fuel day).1 ≤ month + fuel)
      ∧ 1 ≤ (monthDay year month fuel day).2
      ∧ (monthDay year month fuel day).2
          ≤ daysInMonth year (monthDay year month fuel day).1 := by
  induction fuel generalizing month day with
  | zero =>
    simp only [daysFrom] at h
    simp only [monthDay]
    omega
  | succ fuel ih =>
    simp only [daysFrom] at h
    rw [monthDay]
    split
    · simp only
      omega
    · obtain ⟨hmonth, hday⟩ := @ih (month + 1) (day - daysInMonth year month) (by omega)
      exact ⟨by omega, hday⟩

/-- The date of the day `days` days after the first. -/
def dateOfDays (days : ℕ) (h : days < calendarDays) : Date :=
  let yd := yearDay days
  let md := monthDay yd.1 1 11 yd.2
  have hday : yd.2 < daysFrom yd.1 1 11 := by
    rw [daysFrom_year]
    exact yearDay_snd_lt days
  have hmem := monthDay_mem yd.1 hday
  { year := yd.1
    month := md.1
    day := md.2
    year_mem := yearDay_fst_mem h
    month_mem := hmem.1
    day_mem := hmem.2 }

/-! ## Instants -/

def microsPerSecond : ℕ := 1000000
def microsPerDay : ℕ := 86400 * microsPerSecond

/-- An instant in UTC. -/
@[ext]
structure Datetime where
  micros : ℕ
  micros_lt : micros < calendarDays * microsPerDay
  deriving DecidableEq

/-- The first instant of 2026 is in the calendar. -/
theorem newYear_lt : 63902822400000000 < calendarDays * microsPerDay := by decide

namespace Datetime

variable (instant : Datetime)

instance : LE Datetime := ⟨fun instant other => instant.micros ≤ other.micros⟩
instance : LT Datetime := ⟨fun instant other => instant.micros < other.micros⟩
instance (instant other : Datetime) : Decidable (instant ≤ other) :=
  inferInstanceAs (Decidable (instant.micros ≤ other.micros))
instance (instant other : Datetime) : Decidable (instant < other) :=
  inferInstanceAs (Decidable (instant.micros < other.micros))

def date : Date :=
  dateOfDays (instant.micros / microsPerDay) (by
    have h := instant.micros_lt
    exact Nat.div_lt_of_lt_mul (by rwa [Nat.mul_comm]))

def secondOfDay : ℕ := instant.micros % microsPerDay / microsPerSecond

def hour : ℕ := instant.secondOfDay / 3600
def minute : ℕ := instant.secondOfDay / 60 % 60
def second : ℕ := instant.secondOfDay % 60
def microsecond : ℕ := instant.micros % microsPerSecond

/-- An instant earlier by `delta` microseconds; none before the first of the calendar. -/
def sub? (delta : ℕ) : Option Datetime :=
  if delta ≤ instant.micros then
    some ⟨instant.micros - delta, (Nat.sub_le _ _).trans_lt instant.micros_lt⟩
  else none

/-- An instant later by `delta` microseconds; none after the last of the calendar. -/
def add? (delta : ℕ) : Option Datetime :=
  if h : instant.micros + delta < calendarDays * microsPerDay then some ⟨instant.micros + delta, h⟩
  else none

end Datetime

/-! ## Texts -/

/-- The last decimal digit of a number. -/
def digit (n : ℕ) : Char := Char.ofNat (48 + n % 10)

def twoDigits (n : ℕ) : List Char := [digit (n / 10), digit n]
def fourDigits (n : ℕ) : List Char := twoDigits (n / 100) ++ twoDigits n
def sixDigits (n : ℕ) : List Char := twoDigits (n / 10000) ++ fourDigits n

/-- `YYYY-MM`. -/
def Date.monthText (date : Date) : List Char :=
  fourDigits date.year ++ '-' :: twoDigits date.month

/-- `YYYY-MM-DD`. -/
def Date.text (date : Date) : List Char :=
  date.monthText ++ '-' :: twoDigits date.day

/-- `HH:MM:SS`. -/
def Datetime.timeText (instant : Datetime) : List Char :=
  twoDigits instant.hour ++ ':' :: twoDigits instant.minute ++ ':' :: twoDigits instant.second

/-- The fraction of the second, left out when it is zero. -/
def Datetime.fractionText (instant : Datetime) : List Char :=
  if instant.microsecond = 0 then [] else '.' :: sixDigits instant.microsecond

/-- `isoformat` of an instant in UTC. -/
def Datetime.isoformat (instant : Datetime) : String :=
  String.ofList (instant.date.text ++ 'T' :: instant.timeText ++ instant.fractionText
    ++ "+00:00".toList)

/-- The first `n` characters. -/
def substr (text : String) (n : ℕ) : String := String.ofList (text.toList.take n)

theorem Date.monthText_length (date : Date) : date.monthText.length = 7 := rfl
theorem Date.text_length (date : Date) : date.text.length = 10 := rfl

theorem substr_isoformat_ten (instant : Datetime) :
    substr instant.isoformat 10 = String.ofList instant.date.text := by
  rw [substr, Datetime.isoformat, String.toList_ofList, List.append_assoc, List.append_assoc,
    List.take_left' instant.date.text_length]

theorem substr_isoformat_seven (instant : Datetime) :
    substr instant.isoformat 7 = String.ofList instant.date.monthText := by
  rw [substr, Datetime.isoformat, String.toList_ofList, Date.text, List.append_assoc,
    List.append_assoc, List.append_assoc, List.take_left' instant.date.monthText_length]

example : (Datetime.mk 63895823999000005 (by decide)).isoformat
    = "2025-10-11T23:59:59.000005+00:00" := by decide

end IouAi.Calendar
