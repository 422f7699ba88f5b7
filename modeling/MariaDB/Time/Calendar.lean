import Mathlib

/-!
# Day numbers

`calc_daynr()` numbers the days of the proleptic Gregorian calendar, where the year 0 is not a
leap year, and `get_date_from_daynr()` finds the date of a day number.
-/
namespace MariaDB.Time

open Int

def isLeap (y : Nat) : Bool := y % 4 = 0 && (y % 100 ≠ 0 || (y % 400 = 0 && y ≠ 0))

def calcDaysInYear (y : Nat) : Nat := if isLeap y then 366 else 365

def daysInMonthTable (i : Nat) : Nat := [31, 28, 31, 30, 31, 30, 31, 31, 30, 31, 30, 31, 0].getD i 0

def calcDaysInMonth (year month : Nat) : Nat :=
  let days := daysInMonthTable (month - 1)
  if month = 2 ∧ isLeap year then days + 1 else days

/-- `calc_daynr()`; the divisions are those of C, since the year may be -1 for a moment. -/
def calcDaynr (year month day : Nat) : Int :=
  if year = 0 ∧ month = 0 then 0 else
  let delsum : Int := 365 * year + 31 * ((month : Int) - 1) + day
  let (y, delsum) : Int × Int :=
    if month ≤ 2 then ((year : Int) - 1, delsum)
    else ((year : Int), delsum - ((month : Int) * 4 + 23) / 10)
  let temp := ((y.tdiv 100 + 1) * 3).tdiv 4
  delsum + y.tdiv 4 - temp

def maxDayNumber : Nat := 3652424

/-- The loop over years in `get_date_from_daynr()`; a round takes at least 365 days away, so
that the days bound the rounds. -/
def yearLoop : Nat → Nat → Nat → Nat × Nat
  | 0, year, dayOfYear => (year, dayOfYear)
  | fuel + 1, year, dayOfYear =>
    if calcDaysInYear year < dayOfYear then
      yearLoop fuel (year + 1) (dayOfYear - calcDaysInYear year)
    else (year, dayOfYear)

def monthLoop : Nat → Nat → Nat → Nat × Nat
  | 0, month, dayOfYear => (month, dayOfYear)
  | fuel + 1, month, dayOfYear =>
    if daysInMonthTable (month - 1) < dayOfYear then
      monthLoop fuel (month + 1) (dayOfYear - daysInMonthTable (month - 1))
    else (month, dayOfYear)

def monthAndDay (leapYear : Bool) (dayOfYear : Nat) : Nat × Nat :=
  let afterFeb := leapYear && 31 + 28 < dayOfYear
  let dayOfYear := if afterFeb then dayOfYear - 1 else dayOfYear
  let leapDay := if afterFeb && dayOfYear = 31 + 28 then 1 else 0
  let (month, day) := monthLoop 12 1 dayOfYear
  (month, day + leapDay)

/-- `get_date_from_daynr()`: the year, the month and the day. -/
def getDateFromDaynr (daynr : Int) : Option (Nat × Nat × Nat) :=
  if daynr < 366 ∨ (maxDayNumber : Int) < daynr then none else
  let n := daynr.toNat
  let year := n * 100 / 36525
  let temp := (((year - 1) / 100 + 1) * 3) / 4
  let dayOfYear := n - year * 365 - (year - 1) / 4 + temp
  let (year, dayOfYear) := yearLoop dayOfYear year dayOfYear
  let (month, day) := monthAndDay (isLeap year) dayOfYear
  some (year, month, day)

/-! ## Years -/

def daysBefore (y : Nat) : Nat := 365 * y + (y - 1) / 4 - (((y - 1) / 100 + 1) * 3) / 4

lemma isLeap_iff : isLeap y = true ↔ y % 4 = 0 ∧ (y % 100 ≠ 0 ∨ y % 400 = 0 ∧ y ≠ 0) := by
  simp [isLeap]

/-- The centuries that are not leap years, at the end of a year. -/
lemma centuries_succ (hy : 1 ≤ y) :
    ((y / 100 + 1) * 3) / 4 =
      (((y - 1) / 100 + 1) * 3) / 4 + (if y % 100 = 0 ∧ y % 400 ≠ 0 then 1 else 0) := by
  grind

lemma daysBefore_succ (y : Nat) : daysBefore (y + 1) = daysBefore y + calcDaysInYear y := by
  rcases Nat.eq_zero_or_pos y with rfl | hy
  · rfl
  have hcenturies := centuries_succ hy
  unfold daysBefore calcDaysInYear
  rw [Nat.add_sub_cancel, hcenturies]
  by_cases hleap : isLeap y
  · rw [if_pos hleap]
    rw [isLeap_iff] at hleap
    rw [if_neg (by omega)]
    omega
  · rw [if_neg hleap]
    rw [isLeap_iff] at hleap
    split_ifs with h <;> omega

lemma daysBefore_mono : Monotone daysBefore :=
  monotone_nat_of_le_succ fun y => daysBefore_succ y ▸ Nat.le_add_right ..

lemma calcDaysInYear_cases (y : Nat) : calcDaysInYear y = 365 ∨ calcDaysInYear y = 366 := by
  unfold calcDaysInYear
  split_ifs <;> simp

lemma yearLoop_spec (fuel : Nat) : ∀ year dayOfYear, 1 ≤ year → 1 ≤ dayOfYear → dayOfYear ≤ fuel →
    let r := yearLoop fuel year dayOfYear
    daysBefore r.1 + r.2 = daysBefore year + dayOfYear ∧ year ≤ r.1 ∧ 1 ≤ r.2 ∧
      r.2 ≤ calcDaysInYear r.1 := by
  induction fuel with
  | zero => intro year dayOfYear _ hday hfuel; omega
  | succ fuel ih =>
    intro year dayOfYear hyear hday hfuel
    have hlen := calcDaysInYear_cases year
    unfold yearLoop
    split_ifs with hlt
    · have hnext := ih (year + 1) (dayOfYear - calcDaysInYear year) (by omega) (by omega) (by omega)
      rw [daysBefore_succ] at hnext
      dsimp only at hnext ⊢
      omega
    · exact ⟨rfl, le_refl _, hday, not_lt.mp hlt⟩

/-! ## Months -/

/-- The days of a year before a month, from the formula of `calc_daynr()`. -/
def daysBeforeMonth (leapYear : Bool) (month : Nat) : Nat :=
  31 * (month - 1) - (if month ≤ 2 then 0 else (month * 4 + 23) / 10 - leapYear.toNat)

def MonthAndDayOk (leapYear : Bool) (dayOfYear : Nat) : Bool :=
  let r := monthAndDay leapYear dayOfYear
  1 ≤ r.1 && r.1 ≤ 12 && 1 ≤ r.2 &&
    r.2 ≤ daysInMonthTable (r.1 - 1) + (if r.1 = 2 then leapYear.toNat else 0) &&
    daysBeforeMonth leapYear r.1 + r.2 = dayOfYear

lemma monthAndDay_ok : ∀ d, d < 366 →
    (d < 365 → MonthAndDayOk false (d + 1) = true) ∧ MonthAndDayOk true (d + 1) = true := by
  decide +kernel

lemma daysBeforeMonth_add (hm : 1 ≤ m) (hm' : m ≤ 12) (y : Nat) :
    daysBeforeMonth (isLeap y) m + calcDaysInMonth y m =
        (if m < 12 then daysBeforeMonth (isLeap y) (m + 1) else calcDaysInYear y) ∧
      daysBeforeMonth (isLeap y) m + calcDaysInMonth y m ≤ calcDaysInYear y ∧
      ∀ m' < m, 1 ≤ m' →
        daysBeforeMonth (isLeap y) m' + calcDaysInMonth y m' ≤ daysBeforeMonth (isLeap y) m := by
  unfold calcDaysInMonth calcDaysInYear
  generalize isLeap y = leap
  interval_cases m <;> cases leap <;> decide

lemma calcDaynr_eq (hy : 1 ≤ year) (hm : 1 ≤ month) (hm' : month ≤ 12) :
    calcDaynr year month day = daysBefore year + daysBeforeMonth (isLeap year) month + day := by
  have hsucc := daysBefore_succ year
  have h1 (y : Nat) : (y : Int).tdiv 4 = (y / 4 : Nat) := by
    rw [tdiv_eq_ediv_of_nonneg (by omega)]
    omega
  have h2 (y : Nat) : (((y : Int).tdiv 100 + 1) * 3).tdiv 4 = (((y / 100 + 1) * 3) / 4 : Nat) := by
    rw [tdiv_eq_ediv_of_nonneg (a := (y : Int)) (by omega), tdiv_eq_ediv_of_nonneg (by omega)]
    omega
  unfold calcDaynr daysBeforeMonth
  rw [if_neg (by omega)]
  by_cases hfeb : month ≤ 2
  · simp only [hfeb, if_true]
    rw [daysBefore, show (year : Int) - 1 = (year - 1 : Nat) by omega, h1, h2]
    omega
  · simp only [hfeb, if_false]
    rw [h1, h2]
    have hnext : daysBefore (year + 1) =
        365 * (year + 1) + year / 4 - ((year / 100 + 1) * 3) / 4 := rfl
    rw [hnext] at hsucc
    unfold calcDaysInYear at hsucc
    cases hleap : isLeap year
    · simp only [hleap, Bool.false_eq_true, if_false] at hsucc
      simp only [Bool.toNat_false]
      omega
    · simp only [hleap, if_true] at hsucc
      simp only [Bool.toNat_true]
      omega

/-! ## Dates -/

structure IsDate (year month day : Nat) : Prop where
  year_le : year ≤ 9999
  month_pos : 1 ≤ month
  month_le : month ≤ 12
  day_pos : 1 ≤ day
  day_le : day ≤ calcDaysInMonth year month

lemma IsDate.exists_dayOfYear (h : IsDate y m d) (hy : 1 ≤ y) :
    ∃ k, calcDaynr y m d = (daysBefore y + k : Nat) ∧ 1 ≤ k ∧ k ≤ calcDaysInYear y ∧
      k = daysBeforeMonth (isLeap y) m + d := by
  have hle := (daysBeforeMonth_add h.month_pos h.month_le y).2.1
  have hd := h.day_pos
  have hd' := h.day_le
  refine ⟨_, ?_, ?_, ?_, rfl⟩
  · rw [calcDaynr_eq hy h.month_pos h.month_le]
    omega
  · omega
  · omega

lemma calcDaynr_inj (h : IsDate y m d) (h' : IsDate y' m' d') (hy : 1 ≤ y) (hy' : 1 ≤ y')
    (heq : calcDaynr y m d = calcDaynr y' m' d') : y = y' ∧ m = m' ∧ d = d' := by
  obtain ⟨k, hk, hk1, hkL, hkm⟩ := h.exists_dayOfYear hy
  obtain ⟨k', hk', hk1', hkL', hkm'⟩ := h'.exists_dayOfYear hy'
  have hsucc := daysBefore_succ y
  have hsucc' := daysBefore_succ y'
  have hyear : y = y' := by
    rcases lt_trichotomy y y' with hlt | heq' | hlt
    · have := daysBefore_mono (show y + 1 ≤ y' from hlt)
      omega
    · exact heq'
    · have := daysBefore_mono (show y' + 1 ≤ y from hlt)
      omega
  subst hyear
  have hd := h.day_le
  have hd' := h'.day_le
  have hpos := h.day_pos
  have hpos' := h'.day_pos
  rcases lt_trichotomy m m' with hlt | rfl | hlt
  · have := (daysBeforeMonth_add h'.month_pos h'.month_le y).2.2 m hlt h.month_pos
    omega
  · exact ⟨rfl, rfl, by omega⟩
  · have := (daysBeforeMonth_add h.month_pos h.month_le y).2.2 m' hlt h'.month_pos
    omega

/-- `get_date_from_daynr()` finds the date with a day number, from the year 1 on. -/
lemma getDateFromDaynr_spec {n : Int} (hlow : 366 ≤ n) (hhigh : n ≤ maxDayNumber) :
    ∃ year month day, getDateFromDaynr n = some (year, month, day) ∧ IsDate year month day ∧
      1 ≤ year ∧ calcDaynr year month day = n := by
  obtain ⟨n, rfl⟩ := eq_ofNat_of_zero_le (by omega : 0 ≤ n)
  unfold getDateFromDaynr
  rw [if_neg (by omega)]
  simp only [toNat_natCast]
  have hmax : n ≤ 3652424 := by
    unfold maxDayNumber at hhigh
    omega
  set year := n * 100 / 36525 with hyear
  have hyearLow : 1 ≤ year := by omega
  set dayOfYear := n - year * 365 - (year - 1) / 4 + (((year - 1) / 100 + 1) * 3) / 4 with hday
  -- the estimate of the year is not too large
  have hstart : daysBefore year + dayOfYear = n := by
    unfold daysBefore
    omega
  have hdayPos : 1 ≤ dayOfYear := by omega
  obtain ⟨hsum, hle, hpos, hlen⟩ := yearLoop_spec dayOfYear year dayOfYear hyearLow hdayPos le_rfl
  obtain ⟨y, d, hyd⟩ : ∃ y d, yearLoop dayOfYear year dayOfYear = (y, d) := ⟨_, _, rfl⟩
  rw [hyd] at hsum hle hpos hlen ⊢
  dsimp only at hsum hle hpos hlen ⊢
  have hy : 1 ≤ y := by omega
  have hmd : MonthAndDayOk (isLeap y) d = true := by
    have hok := monthAndDay_ok (d - 1)
    rw [Nat.sub_add_cancel hpos] at hok
    unfold calcDaysInYear at hlen
    cases hleap : isLeap y
    · simp only [hleap, Bool.false_eq_true, if_false] at hlen
      exact (hok (by omega)).1 (by omega)
    · simp only [hleap, if_true] at hlen
      exact (hok (by omega)).2
  obtain ⟨m, day, hmday⟩ : ∃ m day, monthAndDay (isLeap y) d = (m, day) := ⟨_, _, rfl⟩
  simp only [MonthAndDayOk, hmday, Bool.and_eq_true, decide_eq_true_eq] at hmd
  rw [hmday]
  obtain ⟨⟨⟨⟨hm, hm'⟩, hdp⟩, hdl⟩, hdsum⟩ := hmd
  refine ⟨y, m, day, rfl, ⟨?_, hm, hm', hdp, ?_⟩, hy, ?_⟩
  · -- the last day number is that of 9999-12-31
    by_contra hlarge
    have hmono : daysBefore 10000 ≤ daysBefore y := by
      unfold daysBefore
      omega
    have : daysBefore 10000 = 3652424 := by decide
    omega
  · unfold calcDaysInMonth
    by_cases hfeb : m = 2
    · cases hleap : isLeap y <;> simp [hfeb, hleap] at hdl ⊢ <;> exact hdl
    · simpa [hfeb] using hdl
  · rw [calcDaynr_eq hy hm hm']
    omega

lemma getDateFromDaynr_eq_none : getDateFromDaynr n = none ↔ ¬ (366 ≤ n ∧ n ≤ maxDayNumber) := by
  unfold getDateFromDaynr
  split_ifs with h
  · simp only [true_iff]
    omega
  · simp only [false_iff, not_not]
    omega

end MariaDB.Time
