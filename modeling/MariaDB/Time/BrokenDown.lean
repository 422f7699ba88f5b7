import MariaDB.Time.DateAdd

/-!
# Seconds since the epoch and broken-down time

`sec_to_TIME()` breaks the seconds since the epoch, shifted by an offset, down to a date and a
time, and `sec_since_epoch()` is its inverse without an offset.
-/
namespace MariaDB.Time

open Int

def secsPerDay : Int := 86400

def leapsThruEndOf (y : Int) : Int := y.tdiv 4 - y.tdiv 100 + y.tdiv 400

def isLeapYear (y : Int) : Bool := y % 4 = 0 && (y.tmod 100 ≠ 0 || (y.tmod 400 = 0 && y ≠ 0))

def yearLength (y : Int) : Int := if isLeapYear y then 366 else 365

/-- `mon_lengths[]`, by the index of the month. -/
def monLengths (leap : Bool) : List Nat :=
  if leap then [31, 29, 31, 30, 31, 30, 31, 31, 30, 31, 30, 31]
  else [31, 28, 31, 30, 31, 30, 31, 31, 30, 31, 30, 31]

def monStarts (leap : Bool) : List Nat :=
  if leap then [0, 31, 60, 91, 121, 152, 182, 213, 244, 274, 305, 335]
  else [0, 31, 59, 90, 120, 151, 181, 212, 243, 273, 304, 334]

/-- The loop over years of `sec_to_TIME()`, which estimates the year by years of 365 days. -/
def epochYearLoop : Nat → Int → Int → Option (Int × Int)
  | 0, _, _ => none
  | fuel + 1, y, days =>
    if days < 0 ∨ yearLength y ≤ days then
      let newy := y + days.tdiv 365 - (if days < 0 then 1 else 0)
      epochYearLoop fuel newy
        (days - ((newy - y) * 365 + leapsThruEndOf (newy - 1) - leapsThruEndOf (y - 1)))
    else some (y, days)

def epochMonthLoop : List Nat → Nat → Nat → Nat × Nat
  | [], month, days => (month, days)
  | len :: rest, month, days =>
    if len ≤ days then epochMonthLoop rest (month + 1) (days - len) else (month, days)

/-- `sec_to_TIME()`. The remainder is brought into a day by whole days; `none` is a loop over
years that does not end. -/
def secToTIME (t offset : Int) : Option MysqlTime :=
  let rem := t.tmod secsPerDay + offset
  let days := t.tdiv secsPerDay + rem / secsPerDay
  let rem := (rem % secsPerDay).toNat
  (epochYearLoop (days.natAbs + 2) 1970 days).map fun (y, days) =>
    let (month, days) := epochMonthLoop (monLengths (isLeapYear y)) 0 days.toNat
    { year := toUnsigned 32 y
      month := month + 1
      day := days + 1
      hour := rem / 3600
      minute := rem % 3600 / 60
      second := rem % 3600 % 60
      secondPart := 0
      neg := false
      timeType := .datetime }

def secSinceEpoch (year mon mday hour min sec : Int) : Int :=
  let days := year * 365 - 1970 * 365 + leapsThruEndOf (year - 1) - leapsThruEndOf (1970 - 1)
  let days := days + (monStarts (isLeapYear year)).getD (mon - 1).toNat 0
  let days := days + (mday - 1)
  ((days * 24 + hour) * 60 + min) * 60 + sec

/-! ## Years -/

lemma isLeapYear_natCast (y : Nat) : isLeapYear y = isLeap y := by
  grind [isLeapYear, isLeap]

lemma yearLength_natCast (y : Nat) : yearLength y = calcDaysInYear y := by
  unfold yearLength calcDaysInYear
  rw [isLeapYear_natCast]
  split_ifs <;> rfl

variable {y d : Nat} {days t offset : Int} {m : MysqlTime}

/-- The days before a year, as `calc_daynr()` counts them. -/
lemma leapsThruEndOf_eq (hy : 1 ≤ y) :
    365 * (y : Int) + leapsThruEndOf ((y : Int) - 1) = daysBefore y := by
  grind [leapsThruEndOf, daysBefore]

def startOfYear (y : Int) : Int := 365 * y + leapsThruEndOf (y - 1)

lemma startOfYear_natCast (hy : 1 ≤ y) : startOfYear y = daysBefore y := leapsThruEndOf_eq hy

lemma epochYearLoop_spec : ∀ {y days y' days' : Int},
    epochYearLoop fuel y days = some (y', days') →
    startOfYear y' + days' = startOfYear y + days ∧ 0 ≤ days' ∧ days' < yearLength y' := by
  induction fuel <;> grind [epochYearLoop, startOfYear]

lemma epochYearLoop_round (fuel : Nat) {newy : Nat} (hy : 1 ≤ y) (hnewy : 1 ≤ newy)
    (hout : days < 0 ∨ (calcDaysInYear y : Int) ≤ days)
    (hnew : (y : Int) + days.tdiv 365 - (if days < 0 then 1 else 0) = newy) :
    epochYearLoop (fuel + 1) y days =
      epochYearLoop fuel newy (days - (daysBefore newy - daysBefore y)) := by
  rw [epochYearLoop, yearLength_natCast, if_pos hout]
  dsimp only
  rw [hnew]
  congr 1
  rw [← leapsThruEndOf_eq hy, ← leapsThruEndOf_eq hnewy]
  ring

lemma epochYearLoop_done (h0 : 0 ≤ days) (hlt : days < calcDaysInYear y) :
    epochYearLoop (fuel + 1) y days = some ((y : Int), days) := by
  rw [epochYearLoop, yearLength_natCast, if_neg (by omega)]

lemma epochYearLoop_of_nonneg (fuel : Nat) (h0 : 0 ≤ days) (h1 : days ≤ 100000) :
    ∃ y : Nat, ∃ d : Int, epochYearLoop (fuel + 3) 1970 days = some ((y : Int), d) ∧ 1 ≤ y := by
  obtain ⟨n, rfl⟩ := eq_ofNat_of_zero_le h0
  by_cases hin : (n : Int) < calcDaysInYear 1970
  · exact ⟨1970, n, epochYearLoop_done h0 hin, by omega⟩
  have hyear : calcDaysInYear 1970 = 365 := by decide
  have hstart : daysBefore 1970 = 719527 := by decide
  have hnew : (1970 : Nat) + (n : Int).tdiv 365 - (if (n : Int) < 0 then 1 else 0) =
      ((1970 + n / 365 : Nat) : Int) := by
    have : (n : Int).tdiv 365 = (n / 365 : Nat) := rfl
    rw [this, if_neg (by omega)]
    omega
  have hround := epochYearLoop_round (fuel + 2) (by omega) (by omega)
    (Or.inr (by omega : (calcDaysInYear 1970 : Int) ≤ n)) hnew
  rw [show ((1970 : Nat) : Int) = 1970 from rfl] at hround
  rw [hround]
  -- the leap years of the span make the estimate too late by one year at most
  have hleaps : (daysBefore (1970 + n / 365) : Int) = daysBefore 1970 + 365 * (n / 365 : Nat) +
      ((1969 + n / 365) / 4 - (((1969 + n / 365) / 100 + 1) * 3) / 4 - 477 : Int) := by
    rw [hstart]
    unfold daysBefore
    omega
  set days := (n : Int) - ((daysBefore (1970 + n / 365) : Int) - daysBefore 1970) with hdays
  have hlow : -69 ≤ days := by omega
  have hhigh : days < 365 := by omega
  by_cases hneg : 0 ≤ days
  · have := calcDaysInYear_cases (1970 + n / 365)
    exact ⟨1970 + n / 365, days, epochYearLoop_done hneg (by omega), by omega⟩
  · have hnew2 : ((1970 + n / 365 : Nat) : Int) + days.tdiv 365 - (if days < 0 then 1 else 0) =
        ((1969 + n / 365 : Nat) : Int) := by
      have : days.tdiv 365 = 0 := by
        rw [← Int.neg_neg days, Int.neg_tdiv, Int.tdiv_eq_zero_of_lt (by omega) (by omega)]
        rfl
      rw [this, if_pos (by omega)]
      omega
    have hround2 := epochYearLoop_round (fuel + 1) (by omega) (by omega)
      (Or.inl (by omega : days < 0)) hnew2
    rw [hround2]
    have hsucc := daysBefore_succ (1969 + n / 365)
    rw [show 1969 + n / 365 + 1 = 1970 + n / 365 by omega] at hsucc
    have := calcDaysInYear_cases (1969 + n / 365)
    exact ⟨1969 + n / 365, _, epochYearLoop_done (by omega) (by omega), by omega⟩

lemma leapsThruEndOf_nonpos {y : Int} (hy : y ≤ 0) : leapsThruEndOf y ≤ 0 := by
  grind [leapsThruEndOf]

lemma one_le_of_startOfYear {y : Int} (hlt : days < yearLength y)
    (hpos : 366 ≤ startOfYear y + days) : 1 ≤ y := by
  by_contra hy
  have := leapsThruEndOf_nonpos (y := y - 1) (by omega)
  unfold startOfYear at hpos
  unfold yearLength at hlt
  split_ifs at hlt <;> omega

/-! ## Months -/

def MonthLoopOk (leap : Bool) (dayOfYear : Nat) : Bool :=
  let r := epochMonthLoop (monLengths leap) 0 dayOfYear
  r.1 < 12 && r.2 < (monLengths leap).getD r.1 0 &&
    (monStarts leap).getD r.1 0 + r.2 = dayOfYear

lemma monthLoop_ok : ∀ d, d < 366 →
    (d < 365 → MonthLoopOk false d = true) ∧ MonthLoopOk true d = true := by
  decide +kernel

lemma monLengths_eq : ∀ leap : Bool, ∀ m < 12, (monLengths leap).getD m 0 =
    daysInMonthTable m + (if m = 1 ∧ leap then 1 else 0) := by
  decide

lemma monStarts_eq : ∀ leap : Bool, ∀ m < 12,
    (monStarts leap).getD m 0 = daysBeforeMonth leap (m + 1) := by
  decide

lemma calcDaysInMonth_eq (h1 : 1 ≤ month) (h12 : month ≤ 12) :
    calcDaysInMonth year month = (monLengths (isLeap year)).getD (month - 1) 0 := by
  rw [monLengths_eq _ _ (by omega)]
  unfold calcDaysInMonth
  grind

/-! ## Broken-down times -/

structure MysqlTime.IsLocalTime (m : MysqlTime) : Prop where
  date : IsDate m.year m.month m.day
  hour_lt : m.hour < 24
  minute_lt : m.minute < 60
  second_lt : m.second < 60
  secondPart_eq : m.secondPart = 0
  neg_eq : m.neg = false
  timeType_eq : m.timeType = .datetime

def MysqlTime.seconds (m : MysqlTime) : Int :=
  secSinceEpoch m.year m.month m.day m.hour m.minute m.second

lemma secSinceEpoch_eq {m : Nat} {day hour min sec : Int} (h : IsDate y m d) (hy : 1 ≤ y) :
    secSinceEpoch y m day hour min sec =
      (calcDaynr y m d - d + day - 719528) * 86400 + hour * 3600 + min * 60 + sec := by
  have hstart := leapsThruEndOf_eq hy
  have hepoch : leapsThruEndOf (1970 - 1) = 477 := by decide
  have hmonth : ((monStarts (isLeap y)).getD ((m : Int) - 1).toNat 0 : Int) =
      daysBeforeMonth (isLeap y) m := by
    rw [show ((m : Int) - 1).toNat = m - 1 by omega]
    have h1 := h.month_pos
    have h2 := h.month_le
    rw [monStarts_eq _ _ (by omega), Nat.sub_add_cancel h1]
  rw [calcDaynr_eq hy h.month_pos h.month_le]
  unfold secSinceEpoch
  dsimp only
  rw [isLeapYear_natCast, hmonth, hepoch]
  omega

lemma isDate_of_monthLoop (hy : 1 ≤ y) (hy' : y ≤ 9999) (hd : d < calcDaysInYear y) :
    let r := epochMonthLoop (monLengths (isLeap y)) 0 d
    IsDate y (r.1 + 1) (r.2 + 1) ∧ calcDaynr y (r.1 + 1) (r.2 + 1) = daysBefore y + d + 1 := by
  have hok : MonthLoopOk (isLeap y) d = true := by
    have hok := monthLoop_ok d
    unfold calcDaysInYear at hd
    cases hleap : isLeap y
    · simp only [hleap, Bool.false_eq_true, if_false] at hd
      exact (hok (by omega)).1 (by omega)
    · simp only [hleap, if_true] at hd
      exact (hok hd).2
  simp only [MonthLoopOk, Bool.and_eq_true, decide_eq_true_eq] at hok
  obtain ⟨⟨hm, hday⟩, hsum⟩ := hok
  dsimp only
  refine ⟨⟨hy', by omega, by omega, by omega, ?_⟩, ?_⟩
  · rw [calcDaysInMonth_eq (by omega) (by omega), Nat.add_sub_cancel]
    exact hday
  · rw [calcDaynr_eq hy (by omega) (by omega), ← monStarts_eq _ _ hm]
    omega

lemma days_and_rem (t offset : Int) :
    let rem := t.tmod secsPerDay + offset
    (t.tdiv secsPerDay + rem / secsPerDay) * 86400 + rem % secsPerDay = t + offset ∧
      0 ≤ rem % secsPerDay ∧ rem % secsPerDay < 86400 := by
  have := tmod_add_tdiv_mul t secsPerDay
  unfold secsPerDay at *
  omega

/-- `sec_to_TIME()` gives a local time of the given seconds. -/
lemma secToTIME_spec (h : secToTIME t offset = some m)
    (hlow : -60000000000 ≤ t + offset) (hhigh : t + offset ≤ 8600000000) :
    m.IsLocalTime ∧ 1 ≤ m.year ∧ m.seconds = t + offset := by
  unfold secToTIME at h
  dsimp only at h
  obtain ⟨⟨y, d⟩, hyd, rfl⟩ := Option.map_eq_some_iff.mp h
  obtain ⟨hsum, hrem'⟩ := days_and_rem t offset
  set rem := t.tmod secsPerDay + offset with hrem
  set days := t.tdiv secsPerDay + rem / secsPerDay with hdays
  obtain ⟨hstart, hd, hlt⟩ := epochYearLoop_spec hyd
  have hepoch : startOfYear 1970 = 719527 := by decide
  have hy := one_le_of_startOfYear hlt (by omega)
  obtain ⟨y, rfl⟩ := eq_ofNat_of_zero_le (by omega : 0 ≤ y)
  obtain ⟨d, rfl⟩ := eq_ofNat_of_zero_le hd
  have hy : 1 ≤ y := by omega
  rw [startOfYear_natCast hy, hepoch] at hstart
  rw [yearLength_natCast] at hlt
  have hy' : y ≤ 9999 := by
    by_contra hlarge
    have := daysBefore_mono (by omega : 10000 ≤ y)
    have : daysBefore 10000 = 3652424 := by decide
    omega
  have hunsigned : toUnsigned 32 y = y := by
    unfold toUnsigned
    omega
  obtain ⟨hdate, hdaynr⟩ := isDate_of_monthLoop hy hy' (by omega : d < calcDaysInYear y)
  rw [isLeapYear_natCast, hunsigned]
  refine ⟨⟨hdate, ?_, ?_, ?_, rfl, rfl, rfl⟩, hy, ?_⟩
  · show (rem % secsPerDay).toNat / 3600 < 24
    omega
  · show (rem % secsPerDay).toNat % 3600 / 60 < 60
    omega
  · show (rem % secsPerDay).toNat % 3600 % 60 < 60
    omega
  · unfold MysqlTime.seconds
    dsimp only
    rw [toNat_natCast, secSinceEpoch_eq hdate hy, hdaynr]
    push_cast
    omega

/-- `sec_to_TIME()` ends for two centuries and a half after the epoch. -/
lemma exists_secToTIME (hlow : 0 ≤ t + offset) (hhigh : t + offset ≤ 8600000000) :
    ∃ m, secToTIME t offset = some m := by
  unfold secToTIME
  dsimp only
  obtain ⟨hsum, hrem'⟩ := days_and_rem t offset
  set rem := t.tmod secsPerDay + offset with hrem
  set days := t.tdiv secsPerDay + rem / secsPerDay with hdays
  by_cases h0 : days = 0
  · rw [h0]
    exact ⟨_, rfl⟩
  · obtain ⟨y, d, hyd, -⟩ := epochYearLoop_of_nonneg (days.natAbs - 1)
      (by omega : 0 ≤ days) (by omega)
    rw [show days.natAbs + 2 = days.natAbs - 1 + 3 by omega, hyd]
    exact ⟨_, rfl⟩

lemma MysqlTime.IsLocalTime.ext_seconds {m' : MysqlTime} (h : m.IsLocalTime)
    (h' : m'.IsLocalTime) (hy : 1 ≤ m.year) (hy' : 1 ≤ m'.year) (heq : m.seconds = m'.seconds) :
    m = m' := by
  unfold MysqlTime.seconds at heq
  rw [secSinceEpoch_eq h.date hy, secSinceEpoch_eq h'.date hy'] at heq
  have := h.hour_lt
  have := h.minute_lt
  have := h.second_lt
  have := h'.hour_lt
  have := h'.minute_lt
  have := h'.second_lt
  obtain ⟨h1, h2, h3⟩ := calcDaynr_inj h.date h'.date hy hy' (by omega)
  obtain ⟨y, mo, d, ho, mi, se, sp, ne, ty⟩ := m
  obtain ⟨y', mo', d', ho', mi', se', sp', ne', ty'⟩ := m'
  obtain ⟨rfl, rfl, rfl⟩ : y = y' ∧ mo = mo' ∧ d = d' := ⟨h1, h2, h3⟩
  obtain rfl : sp = sp' := h.secondPart_eq.trans h'.secondPart_eq.symm
  obtain rfl : ne = ne' := h.neg_eq.trans h'.neg_eq.symm
  obtain rfl : ty = ty' := h.timeType_eq.trans h'.timeType_eq.symm
  dsimp only at *
  obtain rfl : ho = ho' := by omega
  obtain rfl : mi = mi' := by omega
  obtain rfl : se = se' := by omega
  rfl

lemma secToTIME_eq_some_iff (hm : m.IsLocalTime)
    (hy : 1 ≤ m.year) (hlow : 0 ≤ m.seconds) (hlow' : -60000000000 ≤ t + offset)
    (hhigh : t + offset ≤ 8600000000) : secToTIME t offset = some m ↔ t + offset = m.seconds := by
  constructor
  · intro h
    exact (secToTIME_spec h hlow' hhigh).2.2.symm
  · intro h
    obtain ⟨m', hm'⟩ := exists_secToTIME (by omega : 0 ≤ t + offset) hhigh
    obtain ⟨hlocal, hy', hsec⟩ := secToTIME_spec hm' hlow' hhigh
    rw [hm', hlocal.ext_seconds hm hy' hy (hsec.trans h)]

end MariaDB.Time
