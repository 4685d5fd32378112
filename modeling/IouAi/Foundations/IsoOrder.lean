import IouAi.Foundations.IsoTime
import Mathlib.Data.String.Basic

/-!
# The order of timestamps as texts

Two instants in UTC are in the order of their texts, although the fraction of the second is left out
when it is zero: the sign of the zone, which stands in its place, comes before the point
(`isoformat_le_iff`).
-/

namespace IouAi.Calendar

/-! ## Days in the order of their dates -/

theorem daysBeforeYear_succ {year : ℕ} (h : 1 ≤ year) :
    daysBeforeYear (year + 1) = daysBeforeYear year + daysInYear year := by
  obtain ⟨n, rfl⟩ : ∃ n, year = n + 1 := ⟨year - 1, by omega⟩
  have hfour : n / 100 ≤ n / 4 := Nat.div_le_div_left (by decide) (by decide)
  have hleap : isLeap (n + 1) = true
      ↔ 4 ∣ n + 1 ∧ (¬ 100 ∣ n + 1 ∨ 400 ∣ n + 1) := by
    rw [isLeap_iff, Nat.dvd_iff_mod_eq_zero, Nat.dvd_iff_mod_eq_zero, Nat.dvd_iff_mod_eq_zero]
  have hdvd : 100 ∣ n + 1 → 4 ∣ n + 1 := Dvd.dvd.trans (by decide)
  have hdvd' : 400 ∣ n + 1 → 100 ∣ n + 1 := Dvd.dvd.trans (by decide)
  rw [daysBeforeYear, daysBeforeYear, if_neg (by omega), if_neg (by omega), daysInYear]
  simp only [Nat.add_sub_cancel, Nat.succ_div, hleap]
  by_cases h4 : 4 ∣ n + 1
  · by_cases h100 : 100 ∣ n + 1
    · by_cases h400 : 400 ∣ n + 1 <;> simp only [h4, h100, h400] <;> simp <;> omega
    · simp only [h4, h100, mt hdvd' h100]
      simp
      omega
  · simp only [h4, mt hdvd h4, mt hdvd' (mt hdvd h4)]
    simp
    omega

theorem daysBeforeYear_le {year later : ℕ} (h : 1 ≤ year) (hle : year ≤ later) :
    daysBeforeYear year ≤ daysBeforeYear later := by
  induction later, hle using Nat.le_induction with
  | base => exact le_rfl
  | succ later hle ih =>
    rw [daysBeforeYear_succ (h.trans hle)]
    omega

theorem daysBeforeMonth_le {year month later : ℕ} (h : 1 ≤ month) (hle : month ≤ later) :
    daysBeforeMonth year month ≤ daysBeforeMonth year later := by
  induction later, hle using Nat.le_induction with
  | base => exact le_rfl
  | succ later hle ih =>
    rw [daysBeforeMonth_succ year (h.trans hle)]
    omega

theorem daysBeforeMonth_year (year : ℕ) : daysBeforeMonth year 13 = daysInYear year := by
  rw [← daysFrom_year]
  rfl

/-- The day of the year of a date is one of the year. -/
theorem dayOfYear_le (date : Date) :
    daysBeforeMonth date.year date.month + date.day ≤ daysInYear date.year := by
  have hmonth := date.month_mem
  have hday := date.day_mem.2
  have hnext := daysBeforeMonth_succ date.year hmonth.1
  have hyear := @daysBeforeMonth_le date.year (date.month + 1) 13 (by omega) (by omega)
  rw [daysBeforeMonth_year] at hyear
  omega

/-- Dates in the order of year, month and day are in the order of their days. -/
theorem dayNumber_lt {date other : Date}
    (h : date.year < other.year ∨ date.year = other.year ∧ (date.month < other.month
      ∨ date.month = other.month ∧ date.day < other.day)) :
    dayNumber date.year date.month date.day < dayNumber other.year other.month other.day := by
  have hday := other.day_mem.1
  simp only [dayNumber]
  rcases h with hyear | ⟨hyear, hmonth | ⟨hmonth, hlt⟩⟩
  · have hnext := daysBeforeYear_le (by omega) (Nat.succ_le_of_lt hyear)
    rw [daysBeforeYear_succ date.year_mem.1] at hnext
    have hle := dayOfYear_le date
    omega
  · have hnext := @daysBeforeMonth_le date.year _ _ (by omega) (Nat.succ_le_of_lt hmonth)
    rw [daysBeforeMonth_succ date.year date.month_mem.1] at hnext
    have hle := date.day_mem.2
    rw [← hyear]
    omega
  · rw [← hyear, ← hmonth]
    omega

/-! ## Texts of one length -/

/-- Texts that begin with texts of one length are compared there first. -/
theorem append_lt_append_iff {α : Type*} [LinearOrder α] {xs ys s t : List α}
    (h : xs.length = ys.length) : xs ++ s < ys ++ t ↔ xs < ys ∨ xs = ys ∧ s < t := by
  induction xs generalizing ys with
  | nil =>
    obtain rfl := List.length_eq_zero_iff.mp h.symm
    simp
  | cons x xs ih =>
    cases ys with
    | nil => cases h
    | cons y ys =>
      have hrest := ih (Nat.succ.inj h)
      rw [List.cons_append, List.cons_append, List.cons_lt_cons_iff, List.cons_lt_cons_iff, hrest,
        List.cons.injEq]
      tauto

/-- Texts of numbers up to a bound, all of one length, in the order of the numbers. -/
structure Keeps (digits : ℕ → List Char) (bound : ℕ) : Prop where
  length : ∀ m n, (digits m).length = (digits n).length
  lt : ∀ m n, digits m < digits n ↔ m % bound < n % bound
  eq : ∀ m n, digits m = digits n ↔ m % bound = n % bound

theorem keeps_digit : Keeps (fun n => [digit n]) 10 where
  length _ _ := rfl
  lt m n := by
    have hall : ∀ j < 10, ∀ k < 10, [Char.ofNat (48 + j)] < [Char.ofNat (48 + k)] ↔ j < k := by
      decide
    exact hall _ (Nat.mod_lt _ (by decide)) _ (Nat.mod_lt _ (by decide))
  eq m n := by
    have hall : ∀ j < 10, ∀ k < 10, [Char.ofNat (48 + j)] = [Char.ofNat (48 + k)] ↔ j = k := by
      decide
    exact hall _ (Nat.mod_lt _ (by decide)) _ (Nat.mod_lt _ (by decide))

/-- Two parts of a number are compared one after the other. -/
theorem lex_lt_iff {bound x y r s : ℕ} (hr : r < bound) (hs : s < bound) :
    r + bound * x < s + bound * y ↔ x < y ∨ x = y ∧ r < s := by
  rcases lt_trichotomy x y with hlt | rfl | hlt
  · have hle := Nat.mul_le_mul_left bound (Nat.succ_le_of_lt hlt)
    rw [Nat.mul_succ] at hle
    omega
  · omega
  · have hle := Nat.mul_le_mul_left bound (Nat.succ_le_of_lt hlt)
    rw [Nat.mul_succ] at hle
    omega

theorem lex_eq_iff {bound x y r s : ℕ} (hr : r < bound) (hs : s < bound) :
    r + bound * x = s + bound * y ↔ x = y ∧ r = s := by
  have hlt := @lex_lt_iff bound x y r s hr hs
  have hgt := @lex_lt_iff bound y x s r hs hr
  omega

theorem Keeps.append {high low : ℕ → List Char} {a b : ℕ} (hhigh : Keeps high a)
    (hlow : Keeps low b) (hb : 0 < b) : Keeps (fun n => high (n / b) ++ low n) (b * a) where
  length m n := by
    rw [List.length_append, List.length_append, hhigh.length (m / b) (n / b), hlow.length m n]
  lt m n := by
    rw [append_lt_append_iff (hhigh.length _ _), hhigh.lt, hhigh.eq, hlow.lt, Nat.mod_mul,
      Nat.mod_mul, lex_lt_iff (Nat.mod_lt _ hb) (Nat.mod_lt _ hb)]
  eq m n := by
    rw [Nat.mod_mul, Nat.mod_mul, lex_eq_iff (Nat.mod_lt _ hb) (Nat.mod_lt _ hb), ← hhigh.eq,
      ← hlow.eq]
    exact ⟨fun h => List.append_inj h (hhigh.length _ _), fun h => congrArg₂ _ h.1 h.2⟩

theorem keeps_twoDigits : Keeps twoDigits 100 := keeps_digit.append keeps_digit (by decide)

theorem keeps_fourDigits : Keeps fourDigits 10000 :=
  keeps_twoDigits.append keeps_twoDigits (by decide)

theorem keeps_sixDigits : Keeps sixDigits 1000000 :=
  keeps_twoDigits.append keeps_fourDigits (by decide)

/-- A number and what follows it are compared one after the other. -/
theorem Keeps.append_lt {digits : ℕ → List Char} {bound : ℕ} (h : Keeps digits bound) {m n : ℕ}
    (hm : m < bound) (hn : n < bound) {s t : List Char} :
    digits m ++ s < digits n ++ t ↔ m < n ∨ m = n ∧ s < t := by
  rw [append_lt_append_iff (h.length m n), h.lt, h.eq, Nat.mod_eq_of_lt hm, Nat.mod_eq_of_lt hn]

/-! ## Instants -/

/-- The fraction of a second before the zone: nothing comes before a point. -/
theorem fraction_lt_iff {m n : Datetime} :
    m.fractionText ++ "+00:00".toList < n.fractionText ++ "+00:00".toList
      ↔ m.microsecond < n.microsecond := by
  have hm : m.microsecond < 1000000 := Nat.mod_lt _ (by decide)
  have hn : n.microsecond < 1000000 := Nat.mod_lt _ (by decide)
  have hplus : '+' < '.' := by decide
  have hzone : "+00:00".toList = '+' :: "00:00".toList := rfl
  unfold Datetime.fractionText
  split
  · rename_i hzero
    split
    · rename_i hzero'
      simp [hzero, hzero']
    · rename_i hpos
      simp only [List.nil_append, hzone, List.cons_append, List.cons_lt_cons_iff, hplus, true_or,
        true_iff]
      omega
  · rename_i hpos
    split
    · rename_i hzero
      simp only [List.nil_append, hzone, List.cons_append, List.cons_lt_cons_iff, hzero]
      simp [hplus.not_gt, hplus.ne']
    · simp only [List.cons_append, List.cons_lt_cons_iff, lt_irrefl, true_and, false_or,
        keeps_sixDigits.append_lt hm hn]
      simp

/-- The fields of two times of a day, one after the other. -/
def TimeBefore (instant other : Datetime) : Prop :=
  instant.hour < other.hour ∨ instant.hour = other.hour ∧ (instant.minute < other.minute
    ∨ instant.minute = other.minute ∧ (instant.second < other.second
      ∨ instant.second = other.second ∧ instant.microsecond < other.microsecond))

/-- The fields of two instants, one after the other. -/
def FieldsBefore (instant other : Datetime) : Prop :=
  instant.date.year < other.date.year ∨ instant.date.year = other.date.year
    ∧ (instant.date.month < other.date.month ∨ instant.date.month = other.date.month
      ∧ (instant.date.day < other.date.day ∨ instant.date.day = other.date.day
        ∧ TimeBefore instant other))

variable {instant other : Datetime}

theorem timeText_lt_iff : instant.timeText ++ (instant.fractionText ++ "+00:00".toList)
      < other.timeText ++ (other.fractionText ++ "+00:00".toList) ↔ TimeBefore instant other := by
  have hsecond := instant.secondOfDay_lt
  have hsecond' := other.secondOfDay_lt
  simp only [Datetime.timeText, List.append_assoc, List.cons_append]
  rw [keeps_twoDigits.append_lt (by simp only [Datetime.hour]; omega)
      (by simp only [Datetime.hour]; omega), List.cons_lt_cons_iff,
    keeps_twoDigits.append_lt (by simp only [Datetime.minute]; omega)
      (by simp only [Datetime.minute]; omega), List.cons_lt_cons_iff,
    keeps_twoDigits.append_lt (by simp only [Datetime.second]; omega)
      (by simp only [Datetime.second]; omega), fraction_lt_iff]
  simp only [lt_irrefl, true_and, false_or, TimeBefore]

theorem isoformat_toList_lt_iff :
    instant.isoformat.toList < other.isoformat.toList ↔ FieldsBefore instant other := by
  have hyear := instant.date.year_mem
  have hyear' := other.date.year_mem
  have hmonth := instant.date.month_mem
  have hmonth' := other.date.month_mem
  have hday := instant.date.day_mem.2.trans (daysInMonth_le _ _)
  have hday' := other.date.day_mem.2.trans (daysInMonth_le _ _)
  simp only [Datetime.isoformat, String.toList_ofList, Date.text, Date.monthText,
    List.append_assoc, List.cons_append]
  rw [keeps_fourDigits.append_lt (by omega) (by omega), List.cons_lt_cons_iff,
    keeps_twoDigits.append_lt (by omega) (by omega), List.cons_lt_cons_iff,
    keeps_twoDigits.append_lt (by omega) (by omega), List.cons_lt_cons_iff, timeText_lt_iff]
  simp only [lt_irrefl, true_and, false_or, FieldsBefore]

theorem dayNumber_date (instant : Datetime) :
    dayNumber instant.date.year instant.date.month instant.date.day
      = (instant.micros / microsPerDay : ℕ) := dayNumber_dateOfDays _

/-- Instants on one day are in the order of their times. -/
theorem lt_of_timeBefore (hday : instant.micros / microsPerDay = other.micros / microsPerDay)
    (h : TimeBefore instant other) : instant.micros < other.micros := by
  simp only [TimeBefore, Datetime.hour, Datetime.minute, Datetime.second, Datetime.secondOfDay,
    Datetime.microsecond, microsPerDay, microsPerSecond] at h hday
  omega

/-- Instants are in the order of their dates. -/
theorem lt_of_dayNumber_lt (h : dayNumber instant.date.year instant.date.month instant.date.day
    < dayNumber other.date.year other.date.month other.date.day) :
    instant.micros < other.micros := by
  rw [dayNumber_date, dayNumber_date, microsPerDay, microsPerSecond] at h
  omega

theorem lt_of_fieldsBefore (h : FieldsBefore instant other) : instant.micros < other.micros := by
  rcases h with hyear | ⟨hyear, hmonth | ⟨hmonth, hday | ⟨hday, htime⟩⟩⟩
  · exact lt_of_dayNumber_lt (dayNumber_lt (.inl hyear))
  · exact lt_of_dayNumber_lt (dayNumber_lt (.inr ⟨hyear, .inl hmonth⟩))
  · exact lt_of_dayNumber_lt (dayNumber_lt (.inr ⟨hyear, .inr ⟨hmonth, hday⟩⟩))
  · have hdays := dayNumber_date instant
    rw [hyear, hmonth, hday, dayNumber_date] at hdays
    exact lt_of_timeBefore (Int.ofNat.inj hdays).symm htime

/-- Instants without an order of their fields are one. -/
theorem micros_eq_of_not_fieldsBefore (h : ¬ FieldsBefore instant other)
    (h' : ¬ FieldsBefore other instant) : instant.micros = other.micros := by
  simp only [FieldsBefore, TimeBefore] at h h'
  have hdate : instant.date.year = other.date.year ∧ instant.date.month = other.date.month
      ∧ instant.date.day = other.date.day := by omega
  have htime : instant.hour = other.hour ∧ instant.minute = other.minute
      ∧ instant.second = other.second ∧ instant.microsecond = other.microsecond := by omega
  have hdays := dayNumber_date instant
  rw [hdate.1, hdate.2.1, hdate.2.2, dayNumber_date] at hdays
  have hdays : other.micros / microsPerDay = instant.micros / microsPerDay := Int.ofNat.inj hdays
  simp only [Datetime.hour, Datetime.minute, Datetime.second, Datetime.secondOfDay,
    Datetime.microsecond, microsPerDay, microsPerSecond] at htime hdays
  omega

/-- Instants are in the order of their texts. -/
theorem isoformat_lt_iff : instant.isoformat < other.isoformat ↔ instant < other := by
  rw [String.lt_iff_toList_lt, isoformat_toList_lt_iff]
  refine ⟨lt_of_fieldsBefore, fun hlt => ?_⟩
  by_contra hnot
  by_cases hback : FieldsBefore other instant
  · exact absurd (lt_of_fieldsBefore hback) (not_lt.mpr (le_of_lt hlt))
  · exact absurd (micros_eq_of_not_fieldsBefore hnot hback) (ne_of_lt hlt)

theorem isoformat_le_iff : instant.isoformat ≤ other.isoformat ↔ instant ≤ other := by
  rw [← not_lt, isoformat_lt_iff]
  exact Nat.not_lt

theorem isoformat_injective : Function.Injective Datetime.isoformat := by
  intro instant other h
  have hle : instant.isoformat ≤ other.isoformat := h.le
  have hge : other.isoformat ≤ instant.isoformat := h.ge
  rw [isoformat_le_iff] at hle hge
  exact Datetime.ext (Nat.le_antisymm hle hge)

end IouAi.Calendar
