import IouAi.Foundations.Calendar

/-!
# Timestamps as texts

The texts `YYYY-MM-DDTHH:MM:SS[.ffffff](Z|±HH:MM)` and the instants they name. An instant written
to the second and read back is the instant without its fraction (`dateParse_timestampText`).
-/

namespace IouAi.Calendar

/-! ## The day of a date -/

/-- The days of the calendar before a year, from year zero on. -/
def daysBeforeYear (year : ℕ) : ℤ :=
  if year = 0 then -366
  else ((year - 1) * 365 + (year - 1) / 4 - (year - 1) / 100 + (year - 1) / 400 : ℕ)

/-- The days of a year before a month. -/
def daysBeforeMonth (year month : ℕ) : ℕ :=
  ((List.range' 1 (month - 1)).map (daysInMonth year)).sum

def dayNumber (year month day : ℕ) : ℤ :=
  daysBeforeYear year + daysBeforeMonth year month + day - 1

/-- The cycles of four hundred, one hundred and four years before a year. -/
theorem daysBeforeYear_cycles (n400 : ℕ) {n100 n4 n1 : ℕ} (h100 : n100 ≤ 3) (h4 : n4 ≤ 24)
    (h1 : n1 ≤ 3) :
    daysBeforeYear (n400 * 400 + n100 * 100 + n4 * 4 + n1 + 1)
      = (n400 * 146097 + n100 * 36524 + n4 * 1461 + n1 * 365 : ℕ) := by
  have hfour : (n400 * 400 + n100 * 100 + n4 * 4 + n1) / 4 = n400 * 100 + n100 * 25 + n4 := by
    omega
  have hhundred : (n400 * 400 + n100 * 100 + n4 * 4 + n1) / 100 = n400 * 4 + n100 := by omega
  have hcycle : (n400 * 400 + n100 * 100 + n4 * 4 + n1) / 400 = n400 := by omega
  rw [daysBeforeYear, if_neg (by omega), Nat.add_sub_cancel, hfour, hhundred, hcycle]
  congr 1
  omega

theorem daysBeforeYear_yearDay (days : ℕ) :
    daysBeforeYear (yearDay days).1 + (yearDay days).2 = days := by
  simp only [yearDay]
  rw [daysBeforeYear_cycles _ (by omega) (by omega) (by omega)]
  omega

theorem daysBeforeMonth_succ (year : ℕ) {month : ℕ} (h : 1 ≤ month) :
    daysBeforeMonth year (month + 1) = daysBeforeMonth year month + daysInMonth year month := by
  obtain ⟨k, rfl⟩ : ∃ k, month = 1 + k := ⟨month - 1, by omega⟩
  have hlast : 1 + k + 1 - 1 = k + 1 := by omega
  rw [daysBeforeMonth, daysBeforeMonth, hlast, List.range'_concat, List.map_append,
    List.sum_append]
  simp

/-- The search for the month keeps the day of the year. -/
theorem daysBeforeMonth_monthDay (year : ℕ) {month : ℕ} (fuel day : ℕ) (hmonth : 1 ≤ month) :
    daysBeforeMonth year (monthDay year month fuel day).1 + (monthDay year month fuel day).2
      = daysBeforeMonth year month + day + 1 := by
  induction fuel generalizing month day with
  | zero => rfl
  | succ fuel ih =>
    rw [monthDay]
    split
    · rfl
    · rw [ih _ (by omega), daysBeforeMonth_succ year hmonth]
      omega

theorem dayNumber_dateOfDays {days : ℕ} (h : days < calendarDays) :
    dayNumber (dateOfDays days h).year (dateOfDays days h).month (dateOfDays days h).day = days := by
  have hyear := daysBeforeYear_yearDay days
  have hmonth := daysBeforeMonth_monthDay (yearDay days).1 11 (yearDay days).2 le_rfl
  have hfirst : daysBeforeMonth (yearDay days).1 1 = 0 := rfl
  simp only [dayNumber, dateOfDays]
  omega

/-! ## Reading -/

/-- The number that decimal digits write. -/
def digitsValue (digits : List Char) : ℕ :=
  digits.foldl (fun value c => 10 * value + (c.toNat - 48)) 0

/-- Exactly `n` digits. -/
def takeDigits (n : ℕ) (cs : List Char) : Option (ℕ × List Char) :=
  if (cs.take n).length = n ∧ (cs.take n).all Char.isDigit then
    some (digitsValue (cs.take n), cs.drop n)
  else none

def takeChar (c : Char) : List Char → Option (List Char)
  | [] => none
  | d :: cs => if d = c then some cs else none

/-- An optional fraction of one to six digits, in microseconds. -/
def takeFraction : List Char → Option (ℕ × List Char)
  | '.' :: cs =>
    let digits := cs.takeWhile Char.isDigit
    if 1 ≤ digits.length ∧ digits.length ≤ 6 then
      some (digitsValue digits * 10 ^ (6 - digits.length), cs.drop digits.length)
    else none
  | cs => some (0, cs)

/-- A time zone at the end of a text, in hours and minutes. -/
structure Zone where
  east : Bool
  hours : ℕ
  minutes : ℕ
  deriving DecidableEq

def takeZone : List Char → Option Zone
  | ['Z'] => some ⟨true, 0, 0⟩
  | sign :: cs => do
    guard (sign = '+' ∨ sign = '-')
    let (hours, cs) ← takeDigits 2 cs
    let cs ← takeChar ':' cs
    let (minutes, cs) ← takeDigits 2 cs
    guard (cs = [])
    return ⟨sign = '+', hours, minutes⟩
  | [] => none

structure TimestampFields where
  year : ℕ
  month : ℕ
  day : ℕ
  hour : ℕ
  minute : ℕ
  second : ℕ
  microsecond : ℕ
  zone : Zone
  deriving DecidableEq

/-- The fields of a text of the form `YYYY-MM-DDTHH:MM:SS[.ffffff](Z|±HH:MM)`. -/
def timestampFields (text : String) : Option TimestampFields := do
  let (year, cs) ← takeDigits 4 text.toList
  let cs ← takeChar '-' cs
  let (month, cs) ← takeDigits 2 cs
  let cs ← takeChar '-' cs
  let (day, cs) ← takeDigits 2 cs
  let cs ← takeChar 'T' cs
  let (hour, cs) ← takeDigits 2 cs
  let cs ← takeChar ':' cs
  let (minute, cs) ← takeDigits 2 cs
  let cs ← takeChar ':' cs
  let (second, cs) ← takeDigits 2 cs
  let (microsecond, cs) ← takeFraction cs
  let zone ← takeZone cs
  return ⟨year, month, day, hour, minute, second, microsecond, zone⟩

/-- The milliseconds of the calendar before 1970. -/
def unixEpochMillis : ℤ := 62135596800000

namespace TimestampFields

variable (fields : TimestampFields)

/-- The fields name a time of a day; an hour 24 only names its end. -/
def Valid : Prop :=
  1 ≤ fields.month ∧ fields.month ≤ 12 ∧ 1 ≤ fields.day
    ∧ fields.day ≤ daysInMonth fields.year fields.month
    ∧ fields.minute ≤ 59 ∧ fields.second ≤ 59
    ∧ (fields.hour ≤ 23
      ∨ fields.hour = 24 ∧ fields.minute = 0 ∧ fields.second = 0 ∧ fields.microsecond = 0)
    ∧ fields.zone.hours ≤ 23 ∧ fields.zone.minutes ≤ 59

instance : Decidable fields.Valid := by unfold Valid; infer_instance

/-- The offset of the zone in minutes. -/
def offset : ℤ :=
  let minutes : ℤ := fields.zone.hours * 60 + fields.zone.minutes
  if fields.zone.east then minutes else -minutes

/-- The milliseconds since 1970. -/
def millis : ℤ :=
  (dayNumber fields.year fields.month fields.day * 86400 + fields.hour * 3600
    + fields.minute * 60 + fields.second - fields.offset * 60) * 1000
    + fields.microsecond / 1000 - unixEpochMillis

end TimestampFields

/-- `Date.parse` of a timestamp: the milliseconds since 1970, none for a date that is none. -/
def dateParse (fields : TimestampFields) : Option ℤ :=
  if fields.Valid then some fields.millis else none

/-- The microseconds of the calendar before the fields, in UTC. -/
def TimestampFields.micros (fields : TimestampFields) : ℤ :=
  (dayNumber fields.year fields.month fields.day * 86400 + fields.hour * 3600
    + fields.minute * 60 + fields.second - fields.offset * 60) * 1000000 + fields.microsecond

/-- `datetime.fromisoformat` of a timestamp, in UTC: there is no year zero and no hour 24, and
the instant in UTC is one of the calendar. -/
def fromIsoformat (fields : TimestampFields) : Option Datetime :=
  if fields.Valid ∧ 1 ≤ fields.year ∧ fields.hour ≤ 23 then
    if h : 0 ≤ fields.micros ∧ fields.micros < (calendarDays * microsPerDay : ℕ) then
      some ⟨fields.micros.toNat, by omega⟩
    else none
  else none

/-! ## Writing and reading back -/

/-- `isoformat(timespec="seconds")` in UTC, with `Z` for the zone. -/
def timestampText (instant : Datetime) : String :=
  String.ofList (instant.date.text ++ 'T' :: instant.timeText ++ ['Z'])

/-- The whole seconds of an instant. -/
def Datetime.seconds (instant : Datetime) : ℕ := instant.micros / microsPerSecond

/-- The milliseconds since 1970 of the last whole second. -/
def Datetime.secondMillis (instant : Datetime) : ℤ := instant.seconds * 1000 - unixEpochMillis

theorem isDigit_digit (n : ℕ) : (digit n).isDigit = true ∧ (digit n).toNat - 48 = n % 10 := by
  have hall : ∀ k < 10, (Char.ofNat (48 + k)).isDigit = true
      ∧ (Char.ofNat (48 + k)).toNat - 48 = k := by decide
  exact hall (n % 10) (Nat.mod_lt _ (by decide))

theorem takeDigits_twoDigits {n : ℕ} (h : n < 100) (cs : List Char) :
    takeDigits 2 (twoDigits n ++ cs) = some (n, cs) := by
  have hn : 10 * ((digit (n / 10)).toNat - 48) + ((digit n).toNat - 48) = n := by
    rw [(isDigit_digit _).2, (isDigit_digit _).2]
    omega
  simp [takeDigits, twoDigits, digitsValue, (isDigit_digit _).1, hn]

theorem takeDigits_fourDigits {n : ℕ} (h : n < 10000) (cs : List Char) :
    takeDigits 4 (fourDigits n ++ cs) = some (n, cs) := by
  have hn : 10 * (10 * (10 * ((digit (n / 100 / 10)).toNat - 48) + ((digit (n / 100)).toNat - 48))
      + ((digit (n / 10)).toNat - 48)) + ((digit n).toNat - 48) = n := by
    rw [(isDigit_digit _).2, (isDigit_digit _).2, (isDigit_digit _).2, (isDigit_digit _).2]
    omega
  simp [takeDigits, fourDigits, twoDigits, digitsValue, (isDigit_digit _).1, hn]

theorem daysInMonth_le (year month : ℕ) : daysInMonth year month ≤ 31 := by
  unfold daysInMonth
  split
  · split <;> omega
  · split <;> omega

/-- The fields of an instant written to the second. -/
def fieldsOf (instant : Datetime) : TimestampFields where
  year := instant.date.year
  month := instant.date.month
  day := instant.date.day
  hour := instant.hour
  minute := instant.minute
  second := instant.second
  microsecond := 0
  zone := ⟨true, 0, 0⟩

theorem Datetime.secondOfDay_lt (instant : Datetime) : instant.secondOfDay < 86400 := by
  simp only [Datetime.secondOfDay, microsPerDay, microsPerSecond]
  omega

/-- The date and the time of an instant are read back before whatever text follows them. -/
theorem timestampFields_append (instant : Datetime) (cs : List Char) :
    timestampFields (String.ofList (instant.date.text ++ 'T' :: instant.timeText ++ cs)) = do
      let (microsecond, cs) ← takeFraction cs
      let zone ← takeZone cs
      return { fieldsOf instant with
        microsecond := microsecond
        zone := zone } := by
  have hyear := instant.date.year_mem
  have hmonth := instant.date.month_mem
  have hday := instant.date.day_mem.2.trans (daysInMonth_le _ _)
  have hsecond := instant.secondOfDay_lt
  have hhour : instant.hour < 100 := by simp only [Datetime.hour]; omega
  have hminute : instant.minute < 100 := by simp only [Datetime.minute]; omega
  have hsec : instant.second < 100 := by simp only [Datetime.second]; omega
  simp only [timestampFields, String.toList_ofList, Date.text, Date.monthText,
    Datetime.timeText, List.append_assoc, List.cons_append]
  rw [takeDigits_fourDigits (by omega)]
  simp only [Option.bind_eq_bind, Option.bind_some, takeChar, if_true]
  rw [takeDigits_twoDigits (by omega)]
  simp only [Option.bind_some, if_true]
  rw [takeDigits_twoDigits (by omega)]
  simp only [Option.bind_some, if_true]
  rw [takeDigits_twoDigits hhour]
  simp only [Option.bind_some, if_true]
  rw [takeDigits_twoDigits hminute]
  simp only [Option.bind_some, if_true]
  rw [takeDigits_twoDigits hsec]
  rfl

theorem timestampFields_timestampText (instant : Datetime) :
    timestampFields (timestampText instant) = some (fieldsOf instant) := by
  rw [timestampText, timestampFields_append]
  rfl

theorem valid_fieldsOf (instant : Datetime) : (fieldsOf instant).Valid := by
  have hmonth := instant.date.month_mem
  have hday := instant.date.day_mem
  have hsecond := instant.secondOfDay_lt
  refine ⟨hmonth.1, hmonth.2, hday.1, hday.2, ?_, ?_, .inl ?_, Nat.zero_le _, Nat.zero_le _⟩
  · simp only [fieldsOf, Datetime.minute]; omega
  · simp only [fieldsOf, Datetime.second]; omega
  · simp only [fieldsOf, Datetime.hour]; omega

theorem millis_fieldsOf (instant : Datetime) :
    (fieldsOf instant).millis = instant.secondMillis := by
  have hday : dayNumber instant.date.year instant.date.month instant.date.day
      = (instant.micros / microsPerDay : ℕ) := dayNumber_dateOfDays _
  have hoffset : (fieldsOf instant).offset = 0 := rfl
  rw [TimestampFields.millis, hoffset]
  simp only [fieldsOf, hday, Datetime.secondMillis, Datetime.seconds, Datetime.hour,
    Datetime.minute, Datetime.second, Datetime.secondOfDay, microsPerDay, microsPerSecond]
  omega

/-- An instant written to the second and read back loses its fraction. -/
theorem dateParse_timestampText (instant : Datetime) :
    (timestampFields (timestampText instant)).bind dateParse = some instant.secondMillis := by
  rw [timestampFields_timestampText, Option.bind_some, dateParse, if_pos (valid_fieldsOf instant),
    millis_fieldsOf]

theorem micros_fieldsOf (instant : Datetime) :
    (fieldsOf instant).micros = (instant.seconds * microsPerSecond : ℕ) := by
  have hday : dayNumber instant.date.year instant.date.month instant.date.day
      = (instant.micros / microsPerDay : ℕ) := dayNumber_dateOfDays _
  have hoffset : (fieldsOf instant).offset = 0 := rfl
  rw [TimestampFields.micros, hoffset]
  simp only [fieldsOf, hday, Datetime.seconds, Datetime.hour, Datetime.minute, Datetime.second,
    Datetime.secondOfDay, microsPerDay, microsPerSecond]
  omega

/-- The last whole second of an instant. -/
def Datetime.floorSecond (instant : Datetime) : Datetime :=
  ⟨instant.seconds * microsPerSecond,
    (Nat.div_mul_le_self _ _).trans_lt instant.micros_lt⟩

theorem fromIsoformat_timestampText (instant : Datetime) :
    (timestampFields (timestampText instant)).bind fromIsoformat = some instant.floorSecond := by
  have hyear : 1 ≤ (fieldsOf instant).year := instant.date.year_mem.1
  have hhour : (fieldsOf instant).hour ≤ 23 := by
    have := instant.secondOfDay_lt
    simp only [fieldsOf, Datetime.hour]
    omega
  have hlt : instant.seconds * microsPerSecond < calendarDays * microsPerDay :=
    instant.floorSecond.micros_lt
  rw [timestampFields_timestampText, Option.bind_some, fromIsoformat,
    if_pos ⟨valid_fieldsOf instant, hyear, hhour⟩]
  simp only [micros_fieldsOf]
  rw [dif_pos ⟨Int.natCast_nonneg _, Int.ofNat_lt.mpr hlt⟩]
  rfl

/-! ## To the microsecond -/

/-- `isoformat` in UTC, with `Z` for the zone. -/
def microText (instant : Datetime) : String :=
  String.ofList (instant.date.text ++ 'T' :: instant.timeText ++ (instant.fractionText ++ ['Z']))

theorem digitsValue_sixDigits {n : ℕ} (h : n < 1000000) : digitsValue (sixDigits n) = n := by
  simp only [digitsValue, sixDigits, fourDigits, twoDigits, List.cons_append, List.nil_append,
    List.foldl_cons, List.foldl_nil, (isDigit_digit _).2]
  omega

theorem takeFraction_fractionText (instant : Datetime) :
    takeFraction (instant.fractionText ++ ['Z']) = some (instant.microsecond, ['Z']) := by
  unfold Datetime.fractionText
  split
  · rename_i hzero
    rw [hzero]
    rfl
  · have hlt : instant.microsecond < 1000000 := Nat.mod_lt _ (by decide)
    have hdigits : (sixDigits instant.microsecond ++ ['Z']).takeWhile Char.isDigit
        = sixDigits instant.microsecond := by
      simp [sixDigits, fourDigits, twoDigits, (isDigit_digit _).1]
    have hlength : (sixDigits instant.microsecond).length = 6 := rfl
    rw [List.cons_append, takeFraction]
    simp only [hdigits, hlength, digitsValue_sixDigits hlt]
    rw [if_pos (by decide), List.drop_left' hlength]
    simp

theorem micros_fraction (instant : Datetime) :
    ({ fieldsOf instant with microsecond := instant.microsecond } : TimestampFields).micros
      = (instant.micros : ℕ) := by
  have hmicros := micros_fieldsOf instant
  have hsplit := Nat.div_add_mod instant.micros microsPerSecond
  simp only [TimestampFields.micros, fieldsOf, TimestampFields.offset] at hmicros ⊢
  simp only [Datetime.seconds, Datetime.microsecond, microsPerSecond] at hmicros hsplit ⊢
  omega

/-- An instant is read back from its text. -/
theorem fromIsoformat_microText (instant : Datetime) :
    (timestampFields (microText instant)).bind fromIsoformat = some instant := by
  have hyear : 1 ≤ (fieldsOf instant).year := instant.date.year_mem.1
  have hhour : (fieldsOf instant).hour ≤ 23 := by
    have := instant.secondOfDay_lt
    simp only [fieldsOf, Datetime.hour]
    omega
  have hvalid : ({ fieldsOf instant with microsecond := instant.microsecond } :
      TimestampFields).Valid := by
    obtain ⟨hmonth, hmonth', hday, hday', hminute, hsecond, -, hzone, hzone'⟩ :=
      valid_fieldsOf instant
    exact ⟨hmonth, hmonth', hday, hday', hminute, hsecond, .inl hhour, hzone, hzone'⟩
  have hfields : timestampFields (microText instant)
      = some { fieldsOf instant with microsecond := instant.microsecond } := by
    rw [microText, timestampFields_append, takeFraction_fractionText]
    rfl
  rw [hfields, Option.bind_some, fromIsoformat, if_pos ⟨hvalid, hyear, hhour⟩]
  simp only [micros_fraction]
  rw [dif_pos ⟨Int.natCast_nonneg _, Int.ofNat_lt.mpr instant.micros_lt⟩]
  rfl

example : (timestampFields "1970-01-01T00:00:00Z").bind dateParse = some 0 := by decide
example : (timestampFields "2026-02-29T00:00:00.5+01:00").bind dateParse = none := by decide

end IouAi.Calendar
