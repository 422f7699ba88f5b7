import MariaDB.Time.DateAdd

/-!
# Weeks

`calc_week()` numbers the weeks of a year. Weeks start on Monday or on Sunday, and the first week
of a year is the first one with four days in it or the first one that is all in it.
-/
namespace MariaDB.Time

/-- `calc_weekday()`, for a day number that is not negative. -/
def calcWeekday (daynr : Nat) (sundayFirst : Bool) : Nat := (daynr + 5 + sundayFirst.toNat) % 7

/-- The bits of `week_behaviour`. -/
structure WeekMode where
  mondayFirst : Bool
  weekYear : Bool
  firstWeekday : Bool
  deriving DecidableEq, Repr

namespace WeekMode

variable (mode : WeekMode)

def late (weekday : Nat) : Bool :=
  (mode.firstWeekday && weekday ≠ 0) || (!mode.firstWeekday && weekday ≥ 4)

/-- The end of `calc_week()`: the week, and the year that it belongs to. -/
def weekOf (weekYear : Bool) (daynr firstDaynr : Int) (weekday year : Nat) : Nat × Nat :=
  let days := toUnsigned 32 (if mode.late weekday then daynr - (firstDaynr + (7 - weekday))
    else daynr - (firstDaynr - weekday))
  if weekYear && days ≥ 52 * 7 && !mode.late ((weekday + calcDaysInYear year) % 7) then
    (1, year + 1)
  else (days / 7 + 1, year)

def calcWeek (year month day : Nat) : Nat × Nat :=
  let daynr := calcDaynr year month day
  let firstDaynr := calcDaynr year 1 1
  let weekday := calcWeekday firstDaynr.toNat (!mode.mondayFirst)
  if month = 1 ∧ day ≤ 7 - weekday then
    if !mode.weekYear && mode.late weekday then (0, year)
    else
      let year := toUnsigned 32 (year - 1)
      let days := calcDaysInYear year
      mode.weekOf true daynr (firstDaynr - days) ((weekday + 53 * 7 - days) % 7) year
  else mode.weekOf mode.weekYear daynr firstDaynr weekday year

/-- The number of the week that a day is in, counted from the beginning of the calendar. -/
def weekNo (n : Nat) : Nat := (n + 5 + (!mode.mondayFirst).toNat) / 7

def firstDay (year : Nat) : Nat := calcWeekday (daysBefore year + 1) (!mode.mondayFirst)

def firstWeek (year : Nat) : Nat :=
  mode.weekNo (daysBefore year + 1) + (mode.late (mode.firstDay year)).toNat

variable {mode}

lemma late_toNat (w : Nat) :
    (mode.late w).toNat = if w < (if mode.firstWeekday then 1 else 4) then 0 else 1 := by
  unfold late
  cases mode.firstWeekday <;> simp <;> split_ifs <;> simp <;> omega

lemma firstDay_succ (mode : WeekMode) (y : Nat) :
    mode.firstDay (y + 1) = (mode.firstDay y + calcDaysInYear y) % 7 := by
  unfold firstDay calcWeekday
  rw [daysBefore_succ]
  omega

lemma firstWeek_succ (mode : WeekMode) (y : Nat) :
    mode.firstWeek y + 52 ≤ mode.firstWeek (y + 1) ∧
      (mode.late (mode.firstDay (y + 1)) = false →
        mode.firstWeek (y + 1) = mode.firstWeek y + 52) := by
  have hlen := calcDaysInYear_cases y
  rw [← Bool.toNat_eq_zero]
  simp only [firstWeek, late_toNat, firstDay, calcWeekday, weekNo, daysBefore_succ]
  generalize (!mode.mondayFirst).toNat = off
  refine ⟨?_, fun h => ?_⟩
  · cases mode.firstWeekday <;> simp only [Bool.false_eq_true, if_false, if_true] <;>
      split_ifs <;> omega
  · cases hfirst : mode.firstWeekday <;>
      simp only [hfirst, Bool.false_eq_true, if_false, if_true] at h ⊢ <;>
      split_ifs at h ⊢ <;> omega

lemma year_unique (h : mode.firstWeek y ≤ w) (h' : w < mode.firstWeek (y + 1))
    (hw : mode.firstWeek y' ≤ w) (hw' : w < mode.firstWeek (y' + 1)) : y = y' := by
  have hmono : StrictMono mode.firstWeek :=
    strictMono_nat_of_lt_succ fun y => by have := (firstWeek_succ mode y).1; omega
  have h₁ := hmono.lt_iff_lt.mp (h.trans_lt hw')
  have h₂ := hmono.lt_iff_lt.mp (hw.trans_lt h')
  omega

lemma weekOf_eq (hlow : mode.firstWeek y ≤ mode.weekNo n) (hn : n < 2 ^ 31) (weekYear : Bool) :
    mode.weekOf weekYear n (daysBefore y + 1 : Nat) (mode.firstDay y) y =
      if weekYear = true ∧ mode.firstWeek y + 52 ≤ mode.weekNo n ∧
        mode.late (mode.firstDay (y + 1)) = false
      then (1, y + 1) else (mode.weekNo n - mode.firstWeek y + 1, y) := by
  have hdays : toUnsigned 32 (if mode.late (mode.firstDay y) then
      (n : Int) - ((daysBefore y + 1 : Nat) + (7 - mode.firstDay y))
      else n - ((daysBefore y + 1 : Nat) - mode.firstDay y)) =
      n + 5 + (!mode.mondayFirst).toNat - 7 * mode.firstWeek y := by
    have hday : mode.firstDay y = (daysBefore y + 1 + 5 + (!mode.mondayFirst).toNat) % 7 := rfl
    unfold toUnsigned
    simp only [firstWeek, weekNo] at hlow ⊢
    cases hlate : mode.late (mode.firstDay y) <;> simp [hlate] at hlow ⊢ <;> omega
  have hweek : (n + 5 + (!mode.mondayFirst).toNat - 7 * mode.firstWeek y) / 7 =
      mode.weekNo n - mode.firstWeek y := by
    unfold weekNo
    omega
  have h52 : 364 ≤ n + 5 + (!mode.mondayFirst).toNat - 7 * mode.firstWeek y ↔
      mode.firstWeek y + 52 ≤ mode.weekNo n := by
    unfold weekNo
    omega
  unfold weekOf
  rw [hdays, ← firstDay_succ]
  simp only [hweek, h52, Bool.and_eq_true, decide_eq_true_eq, Bool.not_eq_true', and_assoc,
    Nat.reduceMul]

/-- The week of a day of the year `y`, or of the week in which the next year begins. -/
lemma weekOf_spec (hlow : mode.firstWeek y ≤ mode.weekNo n) (hn : n < 2 ^ 31)
    (hhigh : mode.weekNo n ≤ mode.weekNo (daysBefore (y + 1) + 1)) :
    ∃ year, mode.firstWeek year ≤ mode.weekNo n ∧ mode.weekNo n < mode.firstWeek (year + 1) ∧
      mode.weekOf true n (daysBefore y + 1 : Nat) (mode.firstDay y) y =
        (mode.weekNo n - mode.firstWeek year + 1, year) := by
  have hnext := (firstWeek_succ mode y).2
  have hnext' := (firstWeek_succ mode (y + 1)).1
  have hfirst : mode.firstWeek (y + 1) = mode.weekNo (daysBefore (y + 1) + 1) +
    (mode.late (mode.firstDay (y + 1))).toNat := rfl
  rw [weekOf_eq hlow hn]
  cases hlate : mode.late (mode.firstDay (y + 1)) with
  | true =>
    rw [hlate, Bool.toNat_true] at hfirst
    exact ⟨y, hlow, by omega, if_neg (by simp)⟩
  | false =>
    rw [hlate, Bool.toNat_false] at hfirst
    have := hnext hlate
    by_cases h52 : mode.firstWeek y + 52 ≤ mode.weekNo n
    · refine ⟨y + 1, by omega, by omega, ?_⟩
      rw [if_pos ⟨rfl, h52, rfl⟩]
      congr 1
      omega
    · exact ⟨y, hlow, by omega, if_neg (by simp [h52])⟩

/-- Weeks are numbered from the first week of a year on. Without `WEEK_YEAR` it is the year of
the date, and the days before the first week are in week 0. -/
lemma calcWeek_spec (mode : WeekMode) (h : IsDate y m d) (hy : 1 ≤ y) :
    let week := mode.weekNo (calcDaynr y m d).toNat
    if mode.weekYear then ∃ year, mode.firstWeek year ≤ week ∧ week < mode.firstWeek (year + 1) ∧
      mode.calcWeek y m d = (week - mode.firstWeek year + 1, year)
    else mode.firstWeek y ≤ week + 1 ∧ mode.calcWeek y m d = (week + 1 - mode.firstWeek y, y) := by
  obtain ⟨k, hk, hk1, hkL, hkm⟩ := h.exists_dayOfYear hy
  have hyear := h.year_le
  have hfirst : calcDaynr y 1 1 = (daysBefore y + 1 : Nat) := by
    rw [calcDaynr_eq hy (by decide) (by decide)]
    simp [daysBeforeMonth]
  have hn : daysBefore y + k < 2 ^ 31 := by
    have := calcDaysInYear_cases y
    unfold daysBefore
    omega
  have hfw : mode.firstWeek y = mode.weekNo (daysBefore y + 1) +
    (mode.late (mode.firstDay y)).toNat := rfl
  have hlate1 := Bool.toNat_le (mode.late (mode.firstDay y))
  have hcond : (m = 1 ∧ d ≤ 7 - mode.firstDay y) ↔
      mode.weekNo (daysBefore y + k) = mode.weekNo (daysBefore y + 1) := by
    unfold firstDay calcWeekday weekNo
    by_cases hm : m = 1
    · have : daysBeforeMonth (isLeap y) 1 = 0 := by simp [daysBeforeMonth]
      rw [hm] at hkm
      omega
    · have := (daysBeforeMonth_add h.month_pos h.month_le y).2.2 1 (by have := h.month_pos; omega)
        le_rfl
      have : calcDaysInMonth y 1 = 31 := rfl
      have := h.day_pos
      omega
  unfold calcWeek
  rw [hk, hfirst]
  simp only [Int.toNat_natCast, show calcWeekday (daysBefore y + 1) (!mode.mondayFirst) =
    mode.firstDay y from rfl, hcond]
  by_cases hweek : mode.weekNo (daysBefore y + k) = mode.weekNo (daysBefore y + 1)
  · -- the days before the first week belong to the year before
    obtain ⟨y, rfl⟩ := Nat.exists_eq_add_of_le' hy
    have hlen := calcDaysInYear_cases y
    have hprev := (firstWeek_succ mode y).1
    have hnext := (firstWeek_succ mode (y + 1)).1
    have hyear' : toUnsigned 32 ((y + 1 : Nat) - 1) = y := by
      unfold toUnsigned
      omega
    have hstart : ((daysBefore (y + 1) + 1 : Nat) : Int) - calcDaysInYear y =
        (daysBefore y + 1 : Nat) := by
      rw [daysBefore_succ]
      omega
    have hday : (mode.firstDay (y + 1) + 53 * 7 - calcDaysInYear y) % 7 = mode.firstDay y := by
      unfold firstDay calcWeekday
      rw [daysBefore_succ]
      omega
    obtain ⟨year, hlo, hhi, heq⟩ := weekOf_spec (by omega) hn hweek.le
    rw [if_pos hweek, hyear', hstart, hday, heq]
    cases mode.weekYear with
    | true => exact ⟨year, hlo, hhi, rfl⟩
    | false =>
      rw [if_neg (by decide)]
      refine ⟨by omega, ?_⟩
      cases hlate : mode.late (mode.firstDay (y + 1)) with
      | true =>
        rw [hlate, Bool.toNat_true] at hfw
        rw [if_pos (by decide)]
        congr 1
        omega
      | false =>
        rw [hlate, Bool.toNat_false] at hfw
        obtain rfl := year_unique hlo hhi (by omega : mode.firstWeek (y + 1) ≤ _) (by omega)
        rw [if_neg (by decide)]
        congr 1
        omega
  · have hlow : mode.firstWeek y ≤ mode.weekNo (daysBefore y + k) := by
      unfold weekNo at *
      omega
    rw [if_neg hweek]
    cases mode.weekYear with
    | true =>
      refine weekOf_spec hlow hn ?_
      rw [daysBefore_succ]
      unfold weekNo
      omega
    | false =>
      rw [if_neg (by decide), weekOf_eq hlow hn, if_neg (by simp)]
      refine ⟨by omega, ?_⟩
      congr 1
      omega

end WeekMode

def nextDate (y m d : Nat) : Nat × Nat × Nat :=
  if d < calcDaysInMonth y m then (y, m, d + 1) else if m < 12 then (y, m + 1, 1) else (y + 1, 1, 1)

variable {y m d : Nat}

lemma calcDaynr_nextDate (h : IsDate y m d) (hy : 1 ≤ y) :
    calcDaynr (nextDate y m d).1 (nextDate y m d).2.1 (nextDate y m d).2.2 =
      calcDaynr y m d + 1 := by
  have hend := (daysBeforeMonth_add h.month_pos h.month_le y).1
  have hd := h.day_le
  rw [calcDaynr_eq hy h.month_pos h.month_le]
  unfold nextDate
  split_ifs with hday hmonth <;> dsimp only
  · rw [calcDaynr_eq hy h.month_pos h.month_le]
    omega
  · rw [if_pos hmonth] at hend
    rw [calcDaynr_eq hy (by omega) (by omega)]
    omega
  · rw [if_neg hmonth] at hend
    rw [calcDaynr_eq (by omega) (by decide) (by decide), daysBefore_succ,
      show daysBeforeMonth (isLeap (y + 1)) 1 = 0 by simp [daysBeforeMonth]]
    omega

lemma getDateFromDaynr_calcDaynr (h : IsDate y m d) (hy : 1 ≤ y) :
    getDateFromDaynr (calcDaynr y m d) = some (y, m, d) := by
  obtain ⟨k, hk, hk1, hkL, -⟩ := h.exists_dayOfYear hy
  have hlow := daysBefore_mono hy
  have hhigh := daysBefore_mono (by have := h.year_le; omega : y + 1 ≤ 10000)
  have h1 : daysBefore 1 = 365 := by decide
  have h10000 : daysBefore 10000 = maxDayNumber := by decide
  rw [daysBefore_succ] at hhigh
  obtain ⟨y', m', d', hget, hdate, hy', hn⟩ := @getDateFromDaynr_spec (calcDaynr y m d)
    (by omega) (by omega)
  obtain ⟨rfl, rfl, rfl⟩ := calcDaynr_inj hdate h hy' hy hn
  exact hget

/-- Dates and day numbers are inverse to each other, and weeks have seven days. -/
theorem dates_and_weeks :
    (∀ n : Int, 366 ≤ n → n ≤ maxDayNumber → ∃ y m d, getDateFromDaynr n = some (y, m, d) ∧
      IsDate y m d ∧ 1 ≤ y ∧ calcDaynr y m d = n) ∧
    (∀ y m d, IsDate y m d → 1 ≤ y → getDateFromDaynr (calcDaynr y m d) = some (y, m, d) ∧
      calcDaynr (nextDate y m d).1 (nextDate y m d).2.1 (nextDate y m d).2.2 =
        calcDaynr y m d + 1) ∧
    ∀ mode : WeekMode,
      (∀ n, mode.weekNo (n + 1) =
        if calcWeekday (n + 1) (!mode.mondayFirst) = 0 then mode.weekNo n + 1 else mode.weekNo n) ∧
      ∀ y m d y' m' d', IsDate y m d → 1 ≤ y → IsDate y' m' d' → 1 ≤ y' →
        mode.weekYear = true ∨ y = y' →
        (mode.calcWeek y m d = mode.calcWeek y' m' d' ↔
          mode.weekNo (calcDaynr y m d).toNat = mode.weekNo (calcDaynr y' m' d').toNat) := by
  refine ⟨fun n => getDateFromDaynr_spec, fun y m d h hy =>
    ⟨getDateFromDaynr_calcDaynr h hy, calcDaynr_nextDate h hy⟩, fun mode => ⟨fun n => ?_, ?_⟩⟩
  · unfold WeekMode.weekNo calcWeekday
    split_ifs <;> omega
  · intro y m d y' m' d' h hy h' hy' hyear
    have hspec := mode.calcWeek_spec h hy
    have hspec' := mode.calcWeek_spec h' hy'
    dsimp only at hspec hspec'
    cases hmode : mode.weekYear with
    | true =>
      rw [if_pos hmode] at hspec hspec'
      obtain ⟨year, hlo, hhi, heq⟩ := hspec
      obtain ⟨year', hlo', hhi', heq'⟩ := hspec'
      rw [heq, heq', Prod.mk.injEq]
      refine ⟨?_, fun hweek => ?_⟩
      · rintro ⟨hweek, rfl⟩
        omega
      · rw [hweek] at hlo hhi ⊢
        obtain rfl := WeekMode.year_unique hlo hhi hlo' hhi'
        exact ⟨rfl, rfl⟩
    | false =>
      rw [if_neg (by simp [hmode])] at hspec hspec'
      obtain rfl : y = y' := hyear.resolve_left (by simp [hmode])
      rw [hspec.2, hspec'.2, Prod.mk.injEq]
      omega

/-- The last day of 2023 is a Sunday, and not in the ISO week of the next day. -/
theorem dates_and_weeks_iso :
    WeekMode.calcWeek ⟨true, true, false⟩ 2023 12 31 ≠
        WeekMode.calcWeek ⟨true, true, false⟩ 2024 1 1 ∧
      getDateFromDaynr (calcDaynr 2024 2 29) = some (2024, 2, 29) := by
  refine ⟨fun heq => ?_, ?_⟩
  · have := (dates_and_weeks.2.2 ⟨true, true, false⟩).2 2023 12 31 2024 1 1
      ⟨by decide, by decide, by decide, by decide, by decide⟩ (by decide)
      ⟨by decide, by decide, by decide, by decide, by decide⟩ (by decide) (.inl rfl)
    exact absurd (this.mp heq) (by decide)
  · exact (dates_and_weeks.2.1 2024 2 29
      ⟨by decide, by decide, by decide, by decide, by decide⟩ (by decide)).1

end MariaDB.Time
