import FinanceIntelligence.PrefixCodes
import Mathlib.Data.Int.Notation
import Mathlib.Tactic.IntervalCases

/-!
# Aware datetimes

A general layer: Python's aware `datetime`, a clock reading to the microsecond with its offset
from UTC, and the ISO 8601 text of the instant in UTC. **The text tells the instant**
(`isoText_injective`).

Instants are microseconds since the first day of the year 1 in the proleptic Gregorian calendar.
-/

namespace FinanceIntelligence

/-! ## The calendar -/

/-- `calendar.isleap`. -/
def isLeap (y : ℕ) : Bool := y % 4 == 0 && (y % 100 != 0 || y % 400 == 0)

/-- The year of a day and the days of the year before it, as `_ord2ymd` finds them. -/
def yearOfDay (n : ℕ) : ℕ × ℕ :=
  let n400 := n / 146097
  let n100 := n % 146097 / 36524
  let n4 := n % 146097 % 36524 / 1461
  let n1 := n % 146097 % 36524 % 1461 / 365
  let year := n400 * 400 + n100 * 100 + n4 * 4 + n1
  -- the last day of a leap year ends a cycle of 4 or of 400 years
  if n1 = 4 ∨ n100 = 4 then (year, 365)
  else (year + 1, n % 146097 % 36524 % 1461 % 365)

/-- `_days_before_year`. -/
def daysBeforeYear (y : ℕ) : ℕ := (y - 1) * 365 + (y - 1) / 4 - (y - 1) / 100 + (y - 1) / 400

/-- The days before a month. -/
def daysBeforeMonth (leap : Bool) (m : ℕ) : ℕ :=
  [0, 0, 31, 59, 90, 120, 151, 181, 212, 243, 273, 304, 334].getD m 0 +
    if 2 < m ∧ leap then 1 else 0

/-- The month and the day, from the days of the year before it: the estimate is right or one
month too large. -/
def monthOfDay (leap : Bool) (n : ℕ) : ℕ × ℕ :=
  let estimate := (n + 50) / 32
  let month := if n < daysBeforeMonth leap estimate then estimate - 1 else estimate
  (month, n - daysBeforeMonth leap month + 1)

/-- The days before a year, by the cycles of 400, 100, 4 and 1 years before it. -/
theorem daysBeforeYear_cycles {a b c d : ℕ} (hb : b ≤ 3) (hc : c ≤ 24) (hd : d ≤ 3) :
    daysBeforeYear (a * 400 + b * 100 + c * 4 + d + 1) =
      a * 146097 + b * 36524 + c * 1461 + d * 365 := by
  have h4 : (a * 400 + b * 100 + c * 4 + d) / 4 = a * 100 + b * 25 + c := by omega
  have h100 : (a * 400 + b * 100 + c * 4 + d) / 100 = a * 4 + b := by omega
  have h400 : (a * 400 + b * 100 + c * 4 + d) / 400 = a := by omega
  rw [daysBeforeYear, Nat.add_sub_cancel, h4, h100, h400]
  omega

/-- Year and day of the year tell the day. -/
theorem daysBeforeYear_yearOfDay (n : ℕ) :
    daysBeforeYear (yearOfDay n).1 + (yearOfDay n).2 = n := by
  simp only [yearOfDay]
  obtain ⟨a, r, hr, rfl⟩ : ∃ a r, r < 146097 ∧ n = a * 146097 + r :=
    ⟨n / 146097, n % 146097, Nat.mod_lt _ (by omega), by omega⟩
  have ha : (a * 146097 + r) / 146097 = a := by omega
  have hmod : (a * 146097 + r) % 146097 = r := by omega
  rw [ha, hmod]
  clear ha hmod
  split
  · rename_i h
    rcases h with h | h
    · -- the fourth year of a cycle of four is a leap year
      have hb : r / 36524 ≤ 3 := by omega
      have hyear : a * 400 + r / 36524 * 100 + r % 36524 / 1461 * 4 + 4 =
          a * 400 + r / 36524 * 100 + r % 36524 / 1461 * 4 + 3 + 1 := by omega
      rw [h, hyear, daysBeforeYear_cycles hb (by omega) le_rfl]
      clear hyear
      omega
    · -- the last year of the cycle is a leap year
      have hr' : r = 146096 := by omega
      have hyear : a * 400 + r / 36524 * 100 + r % 36524 / 1461 * 4 + r % 36524 % 1461 / 365 =
          a * 400 + 3 * 100 + 24 * 4 + 3 + 1 := by omega
      rw [hyear, daysBeforeYear_cycles le_rfl le_rfl le_rfl]
      clear hyear
      omega
  · rename_i h
    obtain ⟨h₁, h₂⟩ := not_or.mp h
    have hb : r / 36524 ≤ 3 := by omega
    rw [daysBeforeYear_cycles hb (by omega) (by omega)]
    dsimp only
    omega

theorem yearOfDay_snd_lt (n : ℕ) : (yearOfDay n).2 < 366 := by
  simp only [yearOfDay]
  split
  · exact Nat.lt_succ_self _
  · exact (Nat.mod_lt _ (by omega)).trans (by omega)

/-- Month and day tell the day of the year. -/
theorem daysBeforeMonth_monthOfDay (leap : Bool) {n : ℕ} (hn : n < 366) :
    daysBeforeMonth leap (monthOfDay leap n).1 + (monthOfDay leap n).2 = n + 1 ∧
      (monthOfDay leap n).1 < 100 ∧ (monthOfDay leap n).2 < 100 := by
  have h : ∀ leap : Bool, ∀ n : Fin 366,
      daysBeforeMonth leap (monthOfDay leap n).1 + (monthOfDay leap n).2 = n + 1 ∧
        (monthOfDay leap n).1 < 100 ∧ (monthOfDay leap n).2 < 100 := by decide +kernel
  exact h leap ⟨n, hn⟩

/-- The date of a day: year, month and day of the month. -/
def dateOfDay (n : ℕ) : ℕ × ℕ × ℕ :=
  let (year, day) := yearOfDay n
  (year, monthOfDay (isLeap year) day)

/-- **A date is one day.** -/
theorem dateOfDay_injective : Function.Injective dateOfDay := by
  intro m n h
  obtain ⟨hyear, hmonth⟩ : (yearOfDay m).1 = (yearOfDay n).1 ∧
      monthOfDay (isLeap (yearOfDay m).1) (yearOfDay m).2 =
        monthOfDay (isLeap (yearOfDay n).1) (yearOfDay n).2 := Prod.mk.inj h
  have hm := daysBeforeMonth_monthOfDay (isLeap (yearOfDay m).1) (yearOfDay_snd_lt m)
  have hn := daysBeforeMonth_monthOfDay (isLeap (yearOfDay n).1) (yearOfDay_snd_lt n)
  rw [hmonth, hyear] at hm
  have hday : (yearOfDay m).2 = (yearOfDay n).2 := Nat.succ.inj (hm.1.symm.trans hn.1)
  rw [← daysBeforeYear_yearOfDay m, ← daysBeforeYear_yearOfDay n, hyear, hday]

/-! ## Dates -/

/-- The days of a year. -/
def daysInYear (y : ℕ) : ℕ := if isLeap y then 366 else 365

/-- A year comes after the days of the year before. -/
theorem daysBeforeYear_succ {y : ℕ} (hy : 1 ≤ y) :
    daysBeforeYear (y + 1) = daysBeforeYear y + daysInYear y := by
  obtain ⟨k, rfl⟩ : ∃ k, y = k + 1 := ⟨y - 1, by omega⟩
  have h4 : (k + 1) / 4 = k / 4 + if (k + 1) % 4 = 0 then 1 else 0 := by split <;> omega
  have h100 : (k + 1) / 100 = k / 100 + if (k + 1) % 100 = 0 then 1 else 0 := by split <;> omega
  have h400 : (k + 1) / 400 = k / 400 + if (k + 1) % 400 = 0 then 1 else 0 := by split <;> omega
  have hle : k / 100 ≤ k * 365 + k / 4 := by omega
  simp only [daysBeforeYear, daysInYear, isLeap, Nat.add_sub_cancel, h4, h100, h400,
    Bool.and_eq_true, Bool.or_eq_true, beq_iff_eq, bne_iff_ne]
  clear h4 h100 h400
  split_ifs <;> omega

theorem daysBeforeYear_le {x y : ℕ} (hx : 1 ≤ x) (h : x ≤ y) :
    daysBeforeYear x ≤ daysBeforeYear y := by
  induction y, h using Nat.le_induction with
  | base => exact Nat.le_refl _
  | succ y hxy ih =>
    rw [daysBeforeYear_succ (Nat.le_trans hx hxy)]
    exact Nat.le_trans ih (Nat.le_add_right _ _)

/-- The day of the year is one of its days. -/
theorem yearOfDay_snd_lt_daysInYear (n : ℕ) :
    1 ≤ (yearOfDay n).1 ∧ (yearOfDay n).2 < daysInYear (yearOfDay n).1 := by
  simp only [yearOfDay]
  -- the cycles of 400, 100, 4 and 1 years
  generalize n / 146097 = a
  have hr : n % 146097 < 146097 := Nat.mod_lt _ (by omega)
  generalize n % 146097 = r at *
  have hs : r / 36524 * 36524 + r % 36524 = r := Nat.div_add_mod' r 36524
  have hs' : r % 36524 < 36524 := Nat.mod_lt _ (by omega)
  generalize r / 36524 = b at *
  generalize r % 36524 = s at *
  have ht : s / 1461 * 1461 + s % 1461 = s := Nat.div_add_mod' s 1461
  have ht' : s % 1461 < 1461 := Nat.mod_lt _ (by omega)
  generalize s / 1461 = c at *
  generalize s % 1461 = t at *
  have hu : t / 365 * 365 + t % 365 = t := Nat.div_add_mod' t 365
  have hu' : t % 365 < 365 := Nat.mod_lt _ (by omega)
  generalize t / 365 = d at *
  generalize t % 365 = u at *
  split
  · rename_i h
    have hleap : isLeap (a * 400 + b * 100 + c * 4 + d) = true := by
      simp only [isLeap, Bool.and_eq_true, Bool.or_eq_true, beq_iff_eq, bne_iff_ne]
      rcases h with h | h
      · omega
      · obtain ⟨rfl, rfl, rfl⟩ : s = 0 ∧ c = 0 ∧ d = 0 := by omega
        omega
    simp only [daysInYear, hleap, if_true]
    omega
  · refine ⟨Nat.le_add_left 1 _, hu'.trans_le ?_⟩
    rw [daysInYear]
    split <;> omega

/-- **The year of a day**, from the days before the year. -/
theorem yearOfDay_add {y k : ℕ} (hy : 1 ≤ y) (hk : k < daysInYear y) :
    yearOfDay (daysBeforeYear y + k) = (y, k) := by
  have hsum := daysBeforeYear_yearOfDay (daysBeforeYear y + k)
  obtain ⟨hpos, hlt⟩ := yearOfDay_snd_lt_daysInYear (daysBeforeYear y + k)
  generalize yearOfDay (daysBeforeYear y + k) = p at *
  obtain ⟨y', k'⟩ := p
  dsimp only at hsum hpos hlt
  rcases Nat.lt_trichotomy y y' with h | rfl | h
  · have := daysBeforeYear_le (Nat.le_add_left 1 y) (show y + 1 ≤ y' from h)
    rw [daysBeforeYear_succ hy] at this
    omega
  · obtain rfl : k' = k := by omega
    rfl
  · have := daysBeforeYear_le (Nat.le_add_left 1 y') (show y' + 1 ≤ y from h)
    rw [daysBeforeYear_succ hpos] at this
    omega

/-- The days of a month. -/
def daysInMonth (leap : Bool) (m : ℕ) : ℕ :=
  if m = 2 ∧ leap then 29 else [0, 31, 28, 31, 30, 31, 30, 31, 31, 30, 31, 30, 31].getD m 0

theorem daysBeforeMonth_add_daysInMonth (leap : Bool) {m : ℕ} (hm : 1 ≤ m) (hm' : m ≤ 12) :
    daysBeforeMonth leap m + daysInMonth leap m ≤ if leap then 366 else 365 := by
  interval_cases m <;> cases leap <;> decide

/-- The days of a month come before those of a later one. -/
theorem daysBeforeMonth_add_le (leap : Bool) {m m' : ℕ} (hm : 1 ≤ m) (hlt : m < m') (hm' : m' ≤ 12) :
    daysBeforeMonth leap m + daysInMonth leap m ≤ daysBeforeMonth leap m' := by
  have h : ∀ leap : Bool, ∀ m' < 13, ∀ m < m', 1 ≤ m →
      daysBeforeMonth leap m + daysInMonth leap m ≤ daysBeforeMonth leap m' := by decide +kernel
  exact h leap m' (by omega) m hlt hm

/-- `date`. -/
structure PyDate where
  year : ℕ
  month : ℕ
  day : ℕ
  /-- the year is one of `MINYEAR` to `MAXYEAR` -/
  year_mem : 1 ≤ year ∧ year ≤ 9999
  /-- the month is one of twelve -/
  month_mem : 1 ≤ month ∧ month ≤ 12
  /-- the month has the day -/
  day_mem : 1 ≤ day ∧ day ≤ daysInMonth (isLeap year) month
deriving DecidableEq

namespace PyDate

/-- `date(year, month, day)`; `none` for `ValueError`. -/
def of? (year month day : ℕ) : Option PyDate :=
  if h : (1 ≤ year ∧ year ≤ 9999) ∧ (1 ≤ month ∧ month ≤ 12) ∧
      1 ≤ day ∧ day ≤ daysInMonth (isLeap year) month then
    some ⟨year, month, day, h.1, h.2.1, h.2.2⟩
  else none

variable (d : PyDate)

/-- The day of the year, from one. -/
def dayOfYear : ℕ := daysBeforeMonth (isLeap d.year) d.month + d.day

/-- The days since the first day of the year 1. -/
def ordinal : ℕ := daysBeforeYear d.year + (d.dayOfYear - 1)

/-- The quarter of the year. -/
def quarter : ℕ := (d.month - 1) / 3 + 1

theorem dayOfYear_mem : 1 ≤ d.dayOfYear ∧ d.dayOfYear ≤ daysInYear d.year := by
  have hmonth := daysBeforeMonth_add_daysInMonth (isLeap d.year) d.month_mem.1 d.month_mem.2
  have hday := d.day_mem
  simp only [dayOfYear, daysInYear]
  omega

/-- The year and the day of the year, from the days since the first day of the year 1. -/
theorem yearOfDay_ordinal : yearOfDay d.ordinal = (d.year, d.dayOfYear - 1) := by
  have h := d.dayOfYear_mem
  exact yearOfDay_add d.year_mem.1 (by omega)

theorem eq_of_fields {d e : PyDate} (hyear : d.year = e.year) (hmonth : d.month = e.month)
    (hday : d.day = e.day) : d = e := by
  cases d
  cases e
  dsimp only at hyear hmonth hday
  subst hyear hmonth hday
  rfl

/-- **A day is one date.** -/
theorem ordinal_injective : Function.Injective ordinal := by
  intro d e h
  obtain ⟨hyear, hday⟩ : d.year = e.year ∧ d.dayOfYear - 1 = e.dayOfYear - 1 :=
    Prod.mk.inj (d.yearOfDay_ordinal.symm.trans ((congrArg yearOfDay h).trans e.yearOfDay_ordinal))
  have hsame : d.dayOfYear = e.dayOfYear := by
    have := d.dayOfYear_mem
    have := e.dayOfYear_mem
    omega
  simp only [dayOfYear, hyear] at hsame
  have hd := d.day_mem
  rw [hyear] at hd
  have he := e.day_mem
  have hmonth : d.month = e.month := by
    rcases Nat.lt_trichotomy d.month e.month with hlt | heq | hlt
    · have := daysBeforeMonth_add_le (isLeap e.year) d.month_mem.1 hlt e.month_mem.2
      omega
    · exact heq
    · have := daysBeforeMonth_add_le (isLeap e.year) e.month_mem.1 hlt d.month_mem.2
      omega
  rw [hmonth, Nat.add_left_cancel_iff] at hsame
  exact eq_of_fields hyear hmonth hsame

end PyDate

/-! ## Instants -/

/-- The microseconds of a day. -/
def dayMicros : ℕ := 86400000000

/-- The microseconds up to the end of the year 9999. -/
def endOfTime : ℕ := 3652059 * dayMicros

/-- `strftime("%Y-%m-%dT%H:%M:%S.%fZ")` of an instant in UTC. -/
def isoText (t : ℕ) : List Char :=
  let date := dateOfDay (t / dayMicros)
  let micros := t % dayMicros
  Nat.toDigits 10 date.1 ++ '-' :: (decimalText 2 date.2.1 ++ '-' :: (decimalText 2 date.2.2 ++
    'T' :: (decimalText 2 (micros / 3600000000) ++ ':' :: (decimalText 2 (micros / 60000000 % 60) ++
      ':' :: (decimalText 2 (micros / 1000000 % 60) ++
        '.' :: (decimalText 6 (micros % 1000000) ++ ['Z']))))))

/-- A field of fixed width, its separator and what follows. -/
theorem decimalText_append_inj {w m n : ℕ} (hm : m < 10 ^ w) (hn : n < 10 ^ w) {c : Char}
    {x y : List Char} (h : decimalText w m ++ c :: x = decimalText w n ++ c :: y) :
    m = n ∧ x = y := by
  obtain ⟨hfield, hrest⟩ := List.append_inj h (by simp)
  exact ⟨decimalText_injective hm hn hfield, (List.cons.inj hrest).2⟩

/-- **The text tells the instant.** -/
theorem isoText_injective : Function.Injective isoText := by
  intro s t h
  have hbound : ∀ t, (dateOfDay (t / dayMicros)).2.1 < 10 ^ 2 ∧
      (dateOfDay (t / dayMicros)).2.2 < 10 ^ 2 := fun t =>
    (daysBeforeMonth_monthOfDay _ (yearOfDay_snd_lt _)).2
  have hmicros : ∀ t, t % dayMicros < 86400000000 := fun t => Nat.mod_lt _ (by decide)
  have hs := hmicros s
  have ht := hmicros t
  obtain ⟨hyear, h⟩ := append_cons_inj (not_mem_toDigits_ten (by decide) _)
    (not_mem_toDigits_ten (by decide) _) h
  obtain ⟨hmonth, h⟩ := decimalText_append_inj (hbound s).1 (hbound t).1 h
  obtain ⟨hday, h⟩ := decimalText_append_inj (hbound s).2 (hbound t).2 h
  obtain ⟨hhour, h⟩ := decimalText_append_inj (by omega) (by omega) h
  obtain ⟨hminute, h⟩ := decimalText_append_inj (by omega) (by omega) h
  obtain ⟨hsecond, h⟩ := decimalText_append_inj (by omega) (by omega) h
  obtain ⟨hmicro, -⟩ := decimalText_append_inj (by omega) (by omega) h
  have hdate : s / dayMicros = t / dayMicros :=
    dateOfDay_injective (Prod.ext (toDigits_ten_injective hyear) (Prod.ext hmonth hday))
  have hrest : s % dayMicros = t % dayMicros := by omega
  rw [← Nat.div_add_mod s dayMicros, ← Nat.div_add_mod t dayMicros, hdate, hrest]

/-- The text of an instant. -/
example : isoText (739461 * dayMicros + 45296000007) = "2025-07-30T12:34:56.000007Z".toList := by
  decide +kernel

/-- An aware `datetime`. -/
structure AwareDatetime where
  /-- what the clock shows, in microseconds -/
  wall : ℕ
  /-- `utcoffset()`, in microseconds -/
  offset : ℤ
  /-- the clock shows a year up to 9999 -/
  wall_lt : wall < endOfTime
  /-- the offset is less than a day -/
  offset_lt : offset.natAbs < dayMicros

namespace AwareDatetime

/-- The instant in UTC; datetimes are compared and subtracted by it. -/
def instant (t : AwareDatetime) : ℤ := t.wall - t.offset

/-- `astimezone(UTC)`, or an `OverflowError`. -/
def astimezoneUTC (t : AwareDatetime) : Option ℕ :=
  if 0 ≤ t.instant ∧ t.instant < endOfTime then some t.instant.toNat else none

theorem instant_eq_of_astimezoneUTC {t u : AwareDatetime} {n : ℕ} (ht : t.astimezoneUTC = some n)
    (hu : u.astimezoneUTC = some n) : t.instant = u.instant := by
  simp only [astimezoneUTC, Option.ite_none_right_eq_some, Option.some.injEq] at ht hu
  omega

end AwareDatetime

end FinanceIntelligence
