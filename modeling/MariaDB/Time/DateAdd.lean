import MariaDB.Time.Calendar

/-!
# Adding an interval to a date

`date_add_interval()` adds an interval to a date, a datetime or a time. The fields of an
interval are 64-bit numbers; sums are formed in 64 bits (the year in 32 bits) before the range
is checked.
-/
namespace MariaDB.Time

open Int

inductive TimestampType
  | none
  | error
  | date
  | datetime
  | time
  deriving DecidableEq, Repr

structure MysqlTime where
  year : Nat
  month : Nat
  day : Nat
  hour : Nat
  minute : Nat
  second : Nat
  secondPart : Nat
  neg : Bool
  timeType : TimestampType
  deriving DecidableEq

structure Interval where
  year : UInt64 := 0
  month : UInt64 := 0
  day : UInt64 := 0
  hour : UInt64 := 0
  minute : UInt64 := 0
  second : UInt64 := 0
  secondPart : UInt64 := 0
  neg : Bool := false

inductive IntervalType
  | year
  | quarter
  | month
  | week
  | day
  | hour
  | minute
  | second
  | microsecond
  | yearMonth
  | dayHour
  | dayMinute
  | daySecond
  | hourMinute
  | hourSecond
  | minuteSecond
  | dayMicrosecond
  | hourMicrosecond
  | minuteMicrosecond
  | secondMicrosecond
  | last
  deriving DecidableEq, Repr

/-- The function returns 1; on an overflow it warns about a "time" or a "datetime". -/
inductive DateAddError
  | overflow (typeName : String)
  | null
  deriving DecidableEq, Repr

def toLong (x : Int) : Int := x.bmod (2 ^ 64)

def toUnsigned (w : Nat) (x : Int) : Nat := (x % 2 ^ w).toNat

/-- `COMBINE()`, in unsigned 64-bit arithmetic. -/
def combine (day hour minute second secondPart : Nat) : Nat :=
  ((((day * 24 + hour) * 60 + minute) * 60 + second) * 1000000 + secondPart) % 2 ^ 64

/-- The days of an interval up to its seconds, in unsigned 64-bit arithmetic. -/
def Interval.days (iv : Interval) : Nat :=
  (iv.day.toNat + iv.hour.toNat / 24 + iv.minute.toNat / 24 / 60 +
    iv.second.toNat / 24 / 60 / 60) % 2 ^ 64

namespace MysqlTime

variable (lt : MysqlTime) (iv : Interval)

def overflow : DateAddError :=
  .overflow (if lt.timeType = .time then "time" else "datetime")

def sign : Int := if iv.neg = lt.neg then 1 else -1

/-- The microseconds of the sum, as a signed 64-bit integer. The day of a date becomes its day
number. -/
def addUsec : Int :=
  let day := if lt.timeType ≠ .time then
      toUnsigned 32 (lt.day + (calcDaynr lt.year lt.month 1 - 1))
    else lt.day
  toLong (combine day lt.hour lt.minute lt.second lt.secondPart +
    lt.sign iv * combine iv.day.toNat iv.hour.toNat iv.minute.toNat iv.second.toNat
      iv.secondPart.toNat)

def finish (lt : MysqlTime) : Except DateAddError MysqlTime :=
  if lt.timeType ≠ .time then .ok lt else .error lt.overflow

def addDays (intType : IntervalType) : Except DateAddError MysqlTime :=
  if maxDayNumber < iv.days then .error lt.overflow else
  let usec := lt.addUsec iv
  let neg := decide (usec < 0)
  let usec := if neg then toLong (-usec) else usec
  -- `GET_PART()` divides as C does
  let secondPart := toUnsigned 64 (usec.tmod 1000000)
  let usec := usec.tdiv 1000000
  let second := toUnsigned 32 (usec.tmod 60)
  let usec := usec.tdiv 60
  let minute := toUnsigned 32 (usec.tmod 60)
  let usec := usec.tdiv 60
  let lt' := { lt with
    secondPart := secondPart, second := second, minute := minute, neg := lt.neg ^^ neg }
  if lt.timeType = .time then
    if 838 < usec then .error lt.overflow
    else .ok { lt' with hour := toUnsigned 32 usec, day := 0 }
  else if lt'.neg then .error lt.overflow
  else
    match getDateFromDaynr (usec.tdiv 24) with
    | Option.none => .error lt.overflow
    | some (year, month, day) =>
      finish { lt' with
        timeType := if intType ≠ .day then .datetime else lt.timeType
        hour := toUnsigned 32 (usec.tmod 24)
        year := year
        month := month
        day := day }

def addWeeks : Except DateAddError MysqlTime :=
  let period := toLong (calcDaynr lt.year lt.month lt.day + lt.sign iv * toLong iv.day.toNat)
  if period < 0 ∨ 0x7FFFFFFF < period then .error lt.overflow else
  match getDateFromDaynr period with
  | Option.none => .error lt.overflow
  | some (year, month, day) => finish { lt with year := year, month := month, day := day }

def addYears : Except DateAddError MysqlTime :=
  let year := toUnsigned 32 (lt.year + lt.sign iv * toLong iv.year.toNat)
  if 10000 ≤ year then .error lt.overflow
  else
    let day := if lt.month = 2 ∧ lt.day = 29 ∧ calcDaysInYear year ≠ 366 then 28 else lt.day
    finish { lt with year := year, day := day }

def addMonths : Except DateAddError MysqlTime :=
  let period := toLong (toUnsigned 32 (lt.year * 12) + lt.sign iv * toLong iv.year.toNat * 12 +
    lt.month - 1 + lt.sign iv * toLong iv.month.toNat)
  if 120000 ≤ toUnsigned 64 period then .error lt.overflow
  else
    let year := toUnsigned 32 (period.tdiv 12)
    let month := toUnsigned 32 (period.tmod 12) + 1
    let day :=
      if daysInMonthTable (month - 1) < lt.day then
        if month = 2 ∧ calcDaysInYear year = 366 then daysInMonthTable (month - 1) + 1
        else daysInMonthTable (month - 1)
      else lt.day
    finish { lt with year := year, month := month, day := day }

def dateAddInterval (intType : IntervalType) : Except DateAddError MysqlTime :=
  match intType with
  | .second | .secondMicrosecond | .microsecond | .minute | .hour | .minuteMicrosecond
  | .minuteSecond | .hourMicrosecond | .hourSecond | .hourMinute | .dayMicrosecond | .daySecond
  | .dayMinute | .dayHour | .day => lt.addDays iv intType
  | .week => lt.addWeeks iv
  | .year => lt.addYears iv
  | .yearMonth | .quarter | .month => lt.addMonths iv
  | .last => .error .null

/-! ## The sum -/

structure Valid : Prop where
  not_neg : lt.neg = false
  type : lt.timeType = .date ∨ lt.timeType = .datetime
  date : IsDate lt.year lt.month lt.day
  hour_lt : lt.hour < 24
  minute_lt : lt.minute < 60
  second_lt : lt.second < 60
  secondPart_lt : lt.secondPart < 1000000

def usecOfDay : Nat := 86400000000

def timeUsec : Nat := ((lt.hour * 60 + lt.minute) * 60 + lt.second) * 1000000 + lt.secondPart

def totalUsec : Int := calcDaynr lt.year lt.month lt.day * usecOfDay + lt.timeUsec

end MysqlTime

def Interval.totalUsec (iv : Interval) : Nat :=
  (((iv.day.toNat * 24 + iv.hour.toNat) * 60 + iv.minute.toNat) * 60 + iv.second.toNat) * 1000000 +
    iv.secondPart.toNat

inductive SumUnit
  | usec
  | day
  | month
  | year
  | none
  deriving DecidableEq

def IntervalType.unit : IntervalType → SumUnit
  | .week => .day
  | .year => .year
  | .yearMonth | .quarter | .month => .month
  | .last => .none
  | _ => .usec

namespace MysqlTime

variable (lt : MysqlTime) (iv : Interval) (x : Int)

def exactSum : SumUnit → Int
  | .usec => lt.totalUsec + lt.sign iv * iv.totalUsec
  | .day => calcDaynr lt.year lt.month lt.day + lt.sign iv * iv.day.toNat
  | .month => lt.year * 12 + (lt.month - 1) + lt.sign iv * (iv.year.toNat * 12 + iv.month.toNat)
  | .year => lt.year + lt.sign iv * iv.year.toNat
  | .none => 0

/-- The sums that are dates: those that `get_date_from_daynr()` accepts, or of the years 0 to
9999. -/
def InRange : SumUnit → Int → Prop
  | .usec, sum => 366 * (usecOfDay : Int) ≤ sum ∧ sum < (maxDayNumber + 1) * usecOfDay
  | .day, sum => 366 ≤ sum ∧ sum ≤ maxDayNumber
  | .month, sum => 0 ≤ sum ∧ sum < 120000
  | .year, sum => 0 ≤ sum ∧ sum < 10000
  | .none, _ => False

/-- The date that is a sum. The day is clipped to the length of the new month. -/
def IsResult (r : MysqlTime) : SumUnit → Int → Prop
  | .usec, sum => r.Valid ∧ r.totalUsec = sum
  | .day, sum => IsDate r.year r.month r.day ∧ calcDaynr r.year r.month r.day = sum ∧
      r.timeUsec = lt.timeUsec
  | .month, sum => (r.year * 12 + (r.month - 1) : Int) = sum ∧ 1 ≤ r.month ∧ r.month ≤ 12 ∧
      r.day = min lt.day (calcDaysInMonth r.year r.month) ∧ r.timeUsec = lt.timeUsec
  | .year, sum => (r.year : Int) = sum ∧ r.month = lt.month ∧
      r.day = min lt.day (calcDaysInMonth r.year r.month) ∧ r.timeUsec = lt.timeUsec
  | .none, _ => False

/-- The function fails, or the result is exact; and it fails if the result is out of range. -/
def AddsExactly (intType : IntervalType) : Prop :=
  (∀ r, lt.dateAddInterval iv intType = .ok r →
    lt.IsResult r intType.unit (lt.exactSum iv intType.unit)) ∧
  (¬ InRange intType.unit (lt.exactSum iv intType.unit) →
    ∃ e, lt.dateAddInterval iv intType = .error e)

/-- A sum that is out of range is so when it is reduced to a number of bits. -/
def NoWrap (w : Nat) (u : SumUnit) : Prop :=
  InRange u (lt.exactSum iv u) ∨ ¬ InRange u (lt.exactSum iv u % 2 ^ w)

/-! ## Machine arithmetic -/

lemma toLong_eq : toLong x = if x % 2 ^ 64 < 2 ^ 63 then x % 2 ^ 64 else x % 2 ^ 64 - 2 ^ 64 := by
  unfold toLong Int.bmod
  norm_num

lemma toLong_emod : toLong x % 2 ^ 64 = x % 2 ^ 64 := by
  rw [toLong_eq]
  split_ifs <;> omega

lemma toLong_eq_add : ∃ k, toLong x = x + 2 ^ 64 * k := by
  refine ⟨(toLong x - x) / 2 ^ 64, ?_⟩
  have := toLong_emod x
  omega

lemma toUnsigned_of_lt {w : Nat} {x : Int} (hx : 0 ≤ x) (hlt : x < 2 ^ w) :
    (toUnsigned w x : Int) = x := by
  unfold toUnsigned
  rw [emod_eq_of_lt hx hlt]
  omega

lemma toUnsigned_natCast {w a : Nat} (ha : a < 2 ^ w) : toUnsigned w a = a := by
  have := toUnsigned_of_lt (w := w) (x := (a : Int)) (by omega) (by exact_mod_cast ha)
  omega

lemma toLong_of_emod_lt {x : Int} (h : x % 2 ^ 64 < 2 ^ 63) : toLong x = x % 2 ^ 64 := by
  rw [toLong_eq, if_pos h]

lemma finish_eq {lt : MysqlTime} (h : lt.timeType ≠ .time) : finish lt = .ok lt := if_pos h

/-! ## The result by the reduced sum -/

section

variable {lt iv}

variable {intType : IntervalType} {sum year month : Nat}

/-- What has to be known of a type: the function succeeds when the reduced sum is in range, and
the result belongs to the reduced sum. -/
lemma addsExactly_iff (hu : intType.unit = u) (hok : ∀ r, lt.dateAddInterval iv intType = .ok r →
      InRange u (lt.exactSum iv u % 2 ^ w) ∧ lt.IsResult r u (lt.exactSum iv u % 2 ^ w))
    (hrange : InRange u (lt.exactSum iv u % 2 ^ w) → ∃ r, lt.dateAddInterval iv intType = .ok r)
    (hmod : InRange u (lt.exactSum iv u) → lt.exactSum iv u % 2 ^ w = lt.exactSum iv u) :
    lt.AddsExactly iv intType ↔ lt.NoWrap iv w u := by
  subst hu
  constructor
  · rintro ⟨-, hfail⟩
    by_cases hin : InRange intType.unit (lt.exactSum iv intType.unit)
    · exact .inl hin
    · obtain ⟨e, he⟩ := hfail hin
      refine .inr fun hin' => ?_
      obtain ⟨r, hr⟩ := hrange hin'
      rw [he] at hr
      cases hr
  · rintro (hin | hout)
    · refine ⟨fun r hr => ?_, fun hnot => absurd hin hnot⟩
      rw [← hmod hin]
      exact (hok r hr).2
    · refine ⟨fun r hr => absurd (hok r hr).1 hout, fun _ => ?_⟩
      cases hr : lt.dateAddInterval iv intType with
      | error e => exact ⟨e, rfl⟩
      | ok r => exact absurd (hok r hr).1 hout

lemma Valid.not_time (h : lt.Valid) : lt.timeType ≠ .time := by
  rcases h.type with h | h <;> simp [h]

/-! ### Years -/

lemma addYears_year (lt : MysqlTime) (iv : Interval) :
    (toUnsigned 32 (lt.year + lt.sign iv * toLong iv.year.toNat) : Int) =
      lt.exactSum iv .year % 2 ^ 32 := by
  obtain ⟨k, hk⟩ := toLong_eq_add iv.year.toNat
  have hsum : (lt.year : Int) + lt.sign iv * toLong iv.year.toNat =
      lt.exactSum iv .year + 2 ^ 32 * (2 ^ 32 * (lt.sign iv * k)) := by
    rw [hk, exactSum]
    ring
  unfold toUnsigned
  rw [hsum, add_mul_emod_self_left]
  omega

lemma clip_year (h : lt.Valid) (year : Nat) :
    (if lt.month = 2 ∧ lt.day = 29 ∧ calcDaysInYear year ≠ 366 then 28 else lt.day) =
      min lt.day (calcDaysInMonth year lt.month) := by
  have hday := h.date.day_le
  unfold calcDaysInMonth at hday ⊢
  unfold calcDaysInYear
  by_cases hfeb : lt.month = 2
  · have htable : daysInMonthTable (2 - 1) = 28 := rfl
    simp only [hfeb, htable, true_and] at hday ⊢
    have hle : lt.day ≤ 29 := by split_ifs at hday <;> omega
    cases hleap : isLeap year
    · simp only [Bool.false_eq_true, if_false]
      split_ifs <;> omega
    · simp only [if_true]
      split_ifs <;> omega
  · simp only [hfeb, false_and, if_false] at hday ⊢
    omega

lemma addYears_eq (h : lt.Valid) (hsum : (sum : Int) = lt.exactSum iv .year % 2 ^ 32) :
    lt.addYears iv = if sum < 10000 then
        .ok { lt with year := sum, day := min lt.day (calcDaysInMonth sum lt.month) }
      else .error lt.overflow := by
  have hyear : toUnsigned 32 (lt.year + lt.sign iv * toLong iv.year.toNat) = sum := by
    have := addYears_year lt iv
    omega
  have hfinish : finish { lt with
      year := sum, day := min lt.day (calcDaysInMonth sum lt.month) } = .ok _ :=
    finish_eq h.not_time
  simp only [addYears, hyear, clip_year h, hfinish]
  by_cases hlarge : 10000 ≤ sum
  · rw [if_pos hlarge, if_neg (by omega)]
  · rw [if_neg hlarge, if_pos (by omega)]

lemma addsExactly_year (h : lt.Valid) : lt.AddsExactly iv .year ↔ lt.NoWrap iv 32 .year := by
  obtain ⟨sum, hsum⟩ := eq_ofNat_of_zero_le
    (emod_nonneg (lt.exactSum iv .year) (by decide : (2 : Int) ^ 32 ≠ 0))
  have hdate : lt.dateAddInterval iv .year = lt.addYears iv := rfl
  refine addsExactly_iff rfl (fun r hr => ?_) (fun hin => ?_) fun hin => ?_
  · rw [hdate, addYears_eq h hsum.symm] at hr
    split_ifs at hr with hlt
    cases hr
    rw [hsum]
    exact ⟨⟨by omega, by omega⟩, rfl, rfl, rfl, rfl⟩
  · rw [hsum] at hin
    rw [hdate, addYears_eq h hsum.symm, if_pos (by exact_mod_cast hin.2)]
    exact ⟨_, rfl⟩
  · exact emod_eq_of_lt hin.1 (by have := hin.2; omega)

/-! ### Months -/

lemma addMonths_sum (h : lt.Valid) :
    (toUnsigned 32 (lt.year * 12) + lt.sign iv * toLong iv.year.toNat * 12 + lt.month - 1 +
      lt.sign iv * toLong iv.month.toNat) % 2 ^ 64 = lt.exactSum iv .month % 2 ^ 64 := by
  obtain ⟨k, hk⟩ := toLong_eq_add iv.year.toNat
  obtain ⟨j, hj⟩ := toLong_eq_add iv.month.toNat
  have hyear := h.date.year_le
  have htimes : (toUnsigned 32 (lt.year * 12) : Int) = lt.year * 12 :=
    toUnsigned_of_lt (by omega) (by omega)
  have hsum : (toUnsigned 32 (lt.year * 12) + lt.sign iv * toLong iv.year.toNat * 12 +
      lt.month - 1 + lt.sign iv * toLong iv.month.toNat : Int) =
      lt.exactSum iv .month + 2 ^ 64 * (lt.sign iv * (12 * k + j)) := by
    rw [htimes, hk, hj, exactSum]
    ring
  rw [hsum, add_mul_emod_self_left]

lemma clip_month (day year month : Nat) : (if daysInMonthTable (month - 1) < day then
        if month = 2 ∧ calcDaysInYear year = 366 then daysInMonthTable (month - 1) + 1
        else daysInMonthTable (month - 1)
      else day) = min day (calcDaysInMonth year month) := by
  grind [calcDaysInYear, calcDaysInMonth]

lemma addMonths_eq (h : lt.Valid) (hsum : (sum : Int) = lt.exactSum iv .month % 2 ^ 64) :
    lt.addMonths iv = if sum < 120000 then
        .ok { lt with
          year := sum / 12
          month := sum % 12 + 1
          day := min lt.day (calcDaysInMonth (sum / 12) (sum % 12 + 1)) }
      else .error lt.overflow := by
  have hperiod := @addMonths_sum lt iv h
  rw [← hsum] at hperiod
  have hfinish : finish { lt with
      year := sum / 12
      month := sum % 12 + 1
      day := min lt.day (calcDaysInMonth (sum / 12) (sum % 12 + 1)) } = .ok _ :=
    finish_eq h.not_time
  unfold addMonths
  generalize (toUnsigned 32 (lt.year * 12) + lt.sign iv * toLong iv.year.toNat * 12 + lt.month - 1 +
    lt.sign iv * toLong iv.month.toNat : Int) = x at *
  have hunsigned : toUnsigned 64 (toLong x) = sum := by
    unfold toUnsigned
    rw [toLong_emod, hperiod, toNat_natCast]
  by_cases hlt : sum < 120000
  · have hlong : toLong x = sum := by rw [toLong_of_emod_lt (by omega), hperiod]
    have hyear : toUnsigned 32 ((sum : Int).tdiv 12) = sum / 12 :=
      toUnsigned_natCast (by omega : sum / 12 < 2 ^ 32)
    have hmonth : toUnsigned 32 ((sum : Int).tmod 12) = sum % 12 :=
      toUnsigned_natCast (by omega : sum % 12 < 2 ^ 32)
    rw [hlong] at hunsigned ⊢
    simp only [hunsigned, hyear, hmonth, clip_month, hfinish]
    rw [if_neg (by omega), if_pos hlt]
  · simp only [hunsigned]
    rw [if_pos (by omega), if_neg hlt]

lemma addsExactly_month (h : lt.Valid) (hu : intType.unit = .month)
    (hdate : lt.dateAddInterval iv intType = lt.addMonths iv) :
    lt.AddsExactly iv intType ↔ lt.NoWrap iv 64 .month := by
  obtain ⟨sum, hsum⟩ := eq_ofNat_of_zero_le
    (emod_nonneg (lt.exactSum iv .month) (by decide : (2 : Int) ^ 64 ≠ 0))
  refine addsExactly_iff hu (fun r hr => ?_) (fun hin => ?_) fun hin => ?_
  · rw [hdate, addMonths_eq h hsum.symm] at hr
    split_ifs at hr with hlt
    cases hr
    rw [hsum]
    refine ⟨⟨by omega, by omega⟩, ?_, by simp, by dsimp only; omega, rfl, rfl⟩
    push_cast
    omega
  · rw [hsum] at hin
    rw [hdate, addMonths_eq h hsum.symm, if_pos (by exact_mod_cast hin.2)]
    exact ⟨_, rfl⟩
  · exact emod_eq_of_lt hin.1 (by have := hin.2; omega)

/-! ### Weeks -/

lemma addWeeks_sum (lt : MysqlTime) (iv : Interval) :
    (calcDaynr lt.year lt.month lt.day + lt.sign iv * toLong iv.day.toNat) % 2 ^ 64 =
      lt.exactSum iv .day % 2 ^ 64 := by
  obtain ⟨k, hk⟩ := toLong_eq_add iv.day.toNat
  have hsum : calcDaynr lt.year lt.month lt.day + lt.sign iv * toLong iv.day.toNat =
      lt.exactSum iv .day + 2 ^ 64 * (lt.sign iv * k) := by
    rw [hk, exactSum]
    ring
  rw [hsum, add_mul_emod_self_left]

lemma addWeeks_eq (h : lt.Valid) {sum : Int} (hsum : sum = lt.exactSum iv .day % 2 ^ 64) :
    lt.addWeeks iv = match getDateFromDaynr sum with
      | Option.none => .error lt.overflow
      | some (year, month, day) => .ok { lt with year := year, month := month, day := day } := by
  have hperiod := addWeeks_sum lt iv
  rw [← hsum] at hperiod
  unfold addWeeks
  generalize calcDaynr lt.year lt.month lt.day + lt.sign iv * toLong iv.day.toNat = x at *
  have hfinish : ∀ y m d, finish { lt with year := y, month := m, day := d } =
      .ok { lt with year := y, month := m, day := d } := fun y m d => finish_eq h.not_time
  simp only [hfinish]
  by_cases hin : 366 ≤ sum ∧ sum ≤ maxDayNumber
  · have hmax : (maxDayNumber : Int) = 3652424 := rfl
    rw [toLong_of_emod_lt (by omega), hperiod, if_neg (by omega)]
  · have hnone := getDateFromDaynr_eq_none.mpr hin
    have hnone' : getDateFromDaynr (toLong x) = Option.none := by
      rw [getDateFromDaynr_eq_none]
      intro hlong
      have hmax : (maxDayNumber : Int) = 3652424 := rfl
      have := toLong_emod x
      omega
    rw [hnone, hnone']
    split_ifs <;> rfl

lemma addsExactly_week (h : lt.Valid) : lt.AddsExactly iv .week ↔ lt.NoWrap iv 64 .day := by
  have hdate : lt.dateAddInterval iv .week = lt.addWeeks iv := rfl
  have hmax : (maxDayNumber : Int) = 3652424 := rfl
  refine addsExactly_iff rfl (fun r hr => ?_) (fun hin => ?_) fun hin => ?_
  · rw [hdate, addWeeks_eq h rfl] at hr
    by_cases hin : InRange .day (lt.exactSum iv .day % 2 ^ 64)
    · obtain ⟨y, m, d, hget, hisdate, -, hnum⟩ := getDateFromDaynr_spec hin.1 hin.2
      rw [hget] at hr
      cases hr
      exact ⟨hin, hisdate, hnum, rfl⟩
    · rw [getDateFromDaynr_eq_none.mpr hin] at hr
      cases hr
  · obtain ⟨y, m, d, hget, -⟩ := getDateFromDaynr_spec hin.1 hin.2
    rw [hdate, addWeeks_eq h rfl, hget]
    exact ⟨_, rfl⟩
  · have h1 := hin.1
    have h2 := hin.2
    exact emod_eq_of_lt (by omega) (by omega)

/-! ### Days and times -/

lemma calcDaynr_day (hm : 1 ≤ month) (day : Nat) :
    day + (calcDaynr year month 1 - 1) = calcDaynr year month day := by
  unfold calcDaynr
  rw [if_neg (by omega), if_neg (by omega)]
  split_ifs <;> simp only <;> omega

lemma calcDaysInMonth_le (hm : 1 ≤ month) (hm' : month ≤ 12) : calcDaysInMonth year month ≤ 31 := by
  unfold calcDaysInMonth
  interval_cases month <;> simp [daysInMonthTable]
  split_ifs <;> omega

lemma calcDaynr_bounds (h : IsDate lt.year lt.month lt.day) :
    0 ≤ calcDaynr lt.year lt.month lt.day ∧ calcDaynr lt.year lt.month lt.day ≤ 4000000 := by
  have hyear := h.year_le
  have hm := h.month_pos
  have hm' := h.month_le
  have hday : lt.day ≤ 31 := h.day_le.trans (calcDaysInMonth_le hm hm')
  by_cases hzero : lt.year = 0
  · rw [hzero]
    unfold calcDaynr
    have hneg : ((((0 : Nat) : Int) - 1).tdiv 100 + 1) * 3 = 3 := rfl
    have hpos : ((((0 : Nat) : Int)).tdiv 100 + 1) * 3 = 3 := rfl
    have hquarter : ((0 : Nat) : Int).tdiv 4 = 0 ∧ (((0 : Nat) : Int) - 1).tdiv 4 = 0 ∧
      (3 : Int).tdiv 4 = 0 := ⟨rfl, rfl, rfl⟩
    rw [if_neg (by omega)]
    split_ifs <;> simp only [hneg, hpos, hquarter] <;> omega
  · rw [calcDaynr_eq (by omega) hm hm']
    unfold daysBefore daysBeforeMonth
    split_ifs <;> omega

lemma timeUsec_lt (h : lt.Valid) : lt.timeUsec < usecOfDay := by
  have := h.hour_lt
  have := h.minute_lt
  have := h.second_lt
  have := h.secondPart_lt
  unfold timeUsec usecOfDay
  omega

lemma combine_interval (iv : Interval) :
    combine iv.day.toNat iv.hour.toNat iv.minute.toNat iv.second.toNat iv.secondPart.toNat =
      iv.totalUsec % 2 ^ 64 := rfl

lemma addUsec_emod (h : lt.Valid) : lt.addUsec iv % 2 ^ 64 = lt.exactSum iv .usec % 2 ^ 64 := by
  have hday := @calcDaynr_day lt.year lt.month h.date.month_pos lt.day
  have hbounds := calcDaynr_bounds h.date
  obtain ⟨n, hn⟩ := eq_ofNat_of_zero_le hbounds.1
  have hnum : toUnsigned 32 (lt.day + (calcDaynr lt.year lt.month 1 - 1)) = n := by
    rw [hday, hn]
    exact toUnsigned_natCast (by omega)
  have hcombine : combine n lt.hour lt.minute lt.second lt.secondPart =
      n * usecOfDay + lt.timeUsec := by
    have := timeUsec_lt h
    unfold combine timeUsec usecOfDay at *
    omega
  unfold addUsec
  simp only [ne_eq, h.not_time, not_false_eq_true, if_true, hnum]
  rw [toLong_emod, hcombine, combine_interval]
  have hreduced : ((iv.totalUsec % 2 ^ 64 : Nat) : Int) =
      iv.totalUsec + 2 ^ 64 * (-(iv.totalUsec / 2 ^ 64 : Nat)) := by
    omega
  have hsum : ((n * usecOfDay + lt.timeUsec : Nat) : Int) +
      lt.sign iv * ((iv.totalUsec % 2 ^ 64 : Nat) : Int) =
      lt.exactSum iv .usec + 2 ^ 64 * (lt.sign iv * (-(iv.totalUsec / 2 ^ 64 : Nat))) := by
    rw [hreduced, exactSum, totalUsec, hn]
    push_cast
    ring
  rw [hsum, add_mul_emod_self_left]

def ofUsec (lt : MysqlTime) (intType : IntervalType) (sum year month day : Nat) : MysqlTime :=
  { lt with
    secondPart := sum % 1000000
    second := sum / 1000000 % 60
    minute := sum / 1000000 / 60 % 60
    hour := sum / 1000000 / 60 / 60 % 24
    year := year
    month := month
    day := day
    neg := false
    timeType := if intType ≠ .day then .datetime else lt.timeType }

lemma addDays_of_neg (h : lt.Valid) (intType : IntervalType) (hneg : lt.addUsec iv < 0) :
    lt.addDays iv intType = .error lt.overflow := by
  unfold addDays
  by_cases hdays : maxDayNumber < iv.days
  · rw [if_pos hdays]
  · rw [if_neg hdays]
    simp only [hneg, decide_true, if_true, h.not_time, if_false, h.not_neg, Bool.false_xor]

lemma addDays_of_nonneg (h : lt.Valid) (intType : IntervalType) (hdays : ¬ maxDayNumber < iv.days)
    (hsum : lt.addUsec iv = sum) (hlt : sum < 2 ^ 63) :
    lt.addDays iv intType =
      match getDateFromDaynr ((sum / 1000000 / 60 / 60 / 24 : Nat) : Int) with
      | Option.none => .error lt.overflow
      | some (year, month, day) => .ok (lt.ofUsec intType sum year month day) := by
  have hdiv : ∀ a b : Nat, (a : Int).tdiv b = (a / b : Nat) := fun a b => rfl
  have hfinish : ∀ y m d, finish (lt.ofUsec intType sum y m d) =
      .ok (lt.ofUsec intType sum y m d) := by
    intro y m d
    refine finish_eq ?_
    have := h.not_time
    unfold ofUsec
    split_ifs <;> simp_all
  have hnn : ¬ (sum : Int) < 0 := by omega
  unfold addDays
  rw [if_neg hdays, hsum]
  simp only [hnn, decide_false, Bool.false_eq_true, if_false, h.not_time, h.not_neg, Bool.xor_false]
  have h1 : (sum : Int).tdiv 1000000 = (sum / 1000000 : Nat) := hdiv _ _
  have h2 : ((sum / 1000000 : Nat) : Int).tdiv 60 = (sum / 1000000 / 60 : Nat) := hdiv _ _
  have h3 : ((sum / 1000000 / 60 : Nat) : Int).tdiv 60 = (sum / 1000000 / 60 / 60 : Nat) := hdiv _ _
  have h4 : ((sum / 1000000 / 60 / 60 : Nat) : Int).tdiv 24 =
      (sum / 1000000 / 60 / 60 / 24 : Nat) := hdiv _ _
  have m1 : toUnsigned 64 ((sum : Int).tmod 1000000) = sum % 1000000 :=
    toUnsigned_natCast (by omega : sum % 1000000 < 2 ^ 64)
  have m2 : toUnsigned 32 (((sum / 1000000 : Nat) : Int).tmod 60) = sum / 1000000 % 60 :=
    toUnsigned_natCast (by omega : sum / 1000000 % 60 < 2 ^ 32)
  have m3 : toUnsigned 32 (((sum / 1000000 / 60 : Nat) : Int).tmod 60) = sum / 1000000 / 60 % 60 :=
    toUnsigned_natCast (by omega : sum / 1000000 / 60 % 60 < 2 ^ 32)
  have m4 : toUnsigned 32 (((sum / 1000000 / 60 / 60 : Nat) : Int).tmod 24) =
      sum / 1000000 / 60 / 60 % 24 :=
    toUnsigned_natCast (by omega : sum / 1000000 / 60 / 60 % 24 < 2 ^ 32)
  rw [h1, h2, h3, h4, m1, m2, m3, m4]
  split
  · rfl
  · exact hfinish _ _ _

lemma ofUsec_isResult (h : lt.Valid) (intType : IntervalType) {day : Nat}
    (hdate : IsDate year month day)
    (hnum : calcDaynr year month day = (sum / 1000000 / 60 / 60 / 24 : Nat)) :
    (lt.ofUsec intType sum year month day).Valid ∧
      (lt.ofUsec intType sum year month day).totalUsec = sum := by
  refine ⟨⟨rfl, ?_, hdate, ?_, ?_, ?_, ?_⟩, ?_⟩
  · have := h.type
    unfold ofUsec
    split_ifs
    · exact .inr rfl
    · exact this
  · exact Nat.mod_lt _ (by decide)
  · exact Nat.mod_lt _ (by decide)
  · exact Nat.mod_lt _ (by decide)
  · exact Nat.mod_lt _ (by decide)
  · unfold totalUsec timeUsec usecOfDay ofUsec
    dsimp only
    rw [hnum]
    omega

lemma inRange_usec {x : Int} : InRange .usec x ↔ 31622400000000 ≤ x ∧ x < 315569520000000000 := by
  simp [InRange, maxDayNumber, usecOfDay]

lemma addsExactly_usec (h : lt.Valid) (hu : intType.unit = .usec)
    (hdate : lt.dateAddInterval iv intType = lt.addDays iv intType) :
    lt.AddsExactly iv intType ↔ lt.NoWrap iv 64 .usec ∨ maxDayNumber < iv.days := by
  have hmax : (maxDayNumber : Int) = 3652424 := rfl
  by_cases hdays : maxDayNumber < iv.days
  · have herr : lt.dateAddInterval iv intType = .error lt.overflow := by
      rw [hdate]
      exact if_pos hdays
    refine ⟨fun _ => .inr hdays, fun _ => ⟨fun r hr => ?_, fun _ => ⟨_, herr⟩⟩⟩
    rw [herr] at hr
    cases hr
  rw [or_iff_left hdays]
  have hmod := @addUsec_emod lt iv h
  obtain ⟨sum, hsum⟩ := eq_ofNat_of_zero_le
    (emod_nonneg (lt.exactSum iv .usec) (by decide : (2 : Int) ^ 64 ≠ 0))
  rw [hsum] at hmod
  -- a negative sum is out of range when it is reduced
  have hlong : lt.addUsec iv = toLong (lt.addUsec iv) := by
    unfold addUsec
    rw [toLong, toLong, bmod_bmod]
  have hcases : (lt.addUsec iv < 0 ∧ (2 : Int) ^ 63 ≤ sum) ∨
      (lt.addUsec iv = sum ∧ (sum : Int) < 2 ^ 63) := by
    rw [toLong_eq, hmod] at hlong
    split_ifs at hlong <;> omega
  have hrange : InRange .usec sum ↔ lt.addUsec iv = sum ∧ (sum : Int) < 2 ^ 63 ∧
      366 ≤ ((sum / 1000000 / 60 / 60 / 24 : Nat) : Int) ∧
      ((sum / 1000000 / 60 / 60 / 24 : Nat) : Int) ≤ maxDayNumber := by
    rw [inRange_usec]
    omega
  refine addsExactly_iff hu (fun r hr => ?_) (fun hin => ?_) fun hin => ?_
  · rw [hdate] at hr
    rw [hsum]
    rcases hcases with ⟨hneg, -⟩ | ⟨heq, hlt⟩
    · rw [addDays_of_neg h intType hneg] at hr
      cases hr
    · rw [addDays_of_nonneg h intType hdays heq (by exact_mod_cast hlt)] at hr
      by_cases hin : InRange .usec sum
      · obtain ⟨-, -, hlow, hhigh⟩ := hrange.mp hin
        obtain ⟨y, m, d, hget, hisdate, -, hnum⟩ := getDateFromDaynr_spec hlow hhigh
        rw [hget] at hr
        cases hr
        exact ⟨hin, ofUsec_isResult h intType hisdate hnum⟩
      · have hnone := getDateFromDaynr_eq_none.mpr fun hb => hin (hrange.mpr ⟨heq, hlt, hb⟩)
        rw [hnone] at hr
        cases hr
  · rw [hsum] at hin
    obtain ⟨heq, hlt, hlow, hhigh⟩ := hrange.mp hin
    obtain ⟨y, m, d, hget, -⟩ := getDateFromDaynr_spec hlow hhigh
    rw [hdate, addDays_of_nonneg h intType hdays heq (by exact_mod_cast hlt), hget]
    exact ⟨_, rfl⟩
  · rw [inRange_usec] at hin
    exact emod_eq_of_lt (by omega) (by omega)

end

/-- No sum out of range comes back into the range when it is reduced to the bits that it is
formed in, or there are too many days. -/
def WrapFree (intType : IntervalType) : Prop :=
  match intType.unit with
  | .usec => lt.NoWrap iv 64 .usec ∨ maxDayNumber < iv.days
  | .day => lt.NoWrap iv 64 .day
  | .month => lt.NoWrap iv 64 .month
  | .year => lt.NoWrap iv 32 .year
  | .none => True

/-- The sum of a date and an interval is exact, or the function fails, exactly when no sum
wraps around into the range. -/
theorem addsExactly_iff_wrapFree {lt : MysqlTime} (h : lt.Valid) (iv : Interval)
    (intType : IntervalType) : lt.AddsExactly iv intType ↔ lt.WrapFree iv intType := by
  cases intType with
  | year => exact addsExactly_year h
  | quarter | month | yearMonth => exact addsExactly_month h rfl rfl
  | week => exact addsExactly_week h
  | last => exact iff_of_true ⟨nofun, fun _ => ⟨.null, rfl⟩⟩ trivial
  | _ => exact addsExactly_usec h rfl rfl

def newYear2000 : MysqlTime := ⟨2000, 1, 1, 0, 0, 0, 0, false, .date⟩

lemma newYear2000_valid : newYear2000.Valid :=
  ⟨rfl, .inl rfl, ⟨by decide, by decide, by decide, by decide, by decide⟩, by decide, by decide,
    by decide, by decide⟩

theorem addsExactly_iff_wrapFree_year :
    newYear2000.WrapFree { year := 1 } .year ∧ newYear2000.AddsExactly { year := 1 } .year :=
  have h : newYear2000.WrapFree { year := 1 } .year := .inl ⟨by decide, by decide⟩
  ⟨h, (addsExactly_iff_wrapFree newYear2000_valid _ _).mpr h⟩

/-- `'2000-01-01' + INTERVAL 4294967296 YEAR` is `'2000-01-01'`. -/
theorem not_addsExactly :
    newYear2000.dateAddInterval { year := 4294967296 } .year = .ok newYear2000 ∧
      newYear2000.Valid ∧ ¬ newYear2000.AddsExactly { year := 4294967296 } .year := by
  have hok : newYear2000.dateAddInterval { year := 4294967296 } .year = .ok newYear2000 := by decide
  refine ⟨hok, newYear2000_valid, fun h => ?_⟩
  exact absurd (h.1 _ hok).1 (by decide)

end MysqlTime

end MariaDB.Time
