import MariaDB.Time.ZoneTable

/-!
# Local time to instants and back

`TIME_to_gmt_sec()` finds the first instant with a local time, and the start of the gap for a
local time that does not exist. Both need the local time to be away from the ends of the range
by what the offsets are, since local times outside the range are not in the table, and no
transition near a date that is shifted by two days.
-/
namespace MariaDB.Time

open MariaDB.Library List

/-! ## Dates of the range -/

lemma MysqlTime.IsLocalTime.year_of_seconds {m : MysqlTime} (hm : m.IsLocalTime)
    (hlow : 0 ≤ m.seconds) (hhigh : m.seconds ≤ timestampMaxValue + 2 * secsPerDay) :
    1970 ≤ m.year ∧ m.year ≤ 2106 := by
  have hh := hm.hour_lt
  have hmi := hm.minute_lt
  have hs := hm.second_lt
  have hd := hm.date.day_pos
  have hy : 1 ≤ m.year := by
    by_contra h0
    have h0 : m.year = 0 := by omega
    have h1 := hm.date.month_pos
    have h2 := hm.date.month_le
    have h3 := hm.date.day_le
    have hend := (daysBeforeMonth_add h1 h2 0).2.1
    have hms := monStarts_eq false (m.month - 1) (by omega)
    have hleap : isLeap 0 = false := rfl
    have hlen : calcDaysInYear 0 = 365 := rfl
    have hleapY : isLeapYear ((0 : Nat) : Int) = false := rfl
    have hm1 : ((m.month : Int) - 1).toNat = m.month - 1 := by omega
    have hl1 : leapsThruEndOf (((0 : Nat) : Int) - 1) = 0 := by decide
    have hl2 : leapsThruEndOf (1970 - 1) = 477 := by decide
    unfold MysqlTime.seconds secSinceEpoch at hlow
    dsimp only at hlow
    rw [h0, hleapY, hm1, hl1, hl2] at hlow
    rw [h0] at h3
    rw [Nat.sub_add_cancel h1] at hms
    rw [hleap, hlen] at hend
    omega
  unfold MysqlTime.seconds at hlow hhigh
  obtain ⟨k, hk, hk1, hkL, -⟩ := hm.date.exists_dayOfYear hy
  rw [secSinceEpoch_eq hm.date hy, hk] at hlow hhigh
  unfold timestampMaxValue secsPerDay at hhigh
  constructor
  · by_contra hlt
    have hsucc := daysBefore_succ m.year
    have hmono := daysBefore_mono (by omega : m.year + 1 ≤ 1970)
    have hepoch : daysBefore 1970 = 719527 := by decide
    omega
  · by_contra hlt
    have hmono := daysBefore_mono (by omega : 2107 ≤ m.year)
    have hlast : daysBefore 2107 = 769565 := by decide
    omega

/-! ## Instants of a local time -/

def InTimestampRange (t : Int) : Prop := timestampMinValue ≤ t ∧ t ≤ timestampMaxValue

namespace TimeZoneInfo

variable {z : TimeZoneInfo}

/-- A local time away from the ends of the range, where offsets are up to `b`. A date from
2106-02-03 on is shifted by two days, and there is no transition from the shifted date on. -/
structure Away (z : TimeZoneInfo) (b : Int) (m : MysqlTime) : Prop where
  inner : Inner b (m.seconds - timestampShift m * secsPerDay)
  quiet : timestampShift m ≠ 0 →
    ∀ tr ∈ z.transitions, tr.1 + b ≤ m.seconds - timestampShift m * secsPerDay

lemma timestampShift_cases (m : MysqlTime) : timestampShift m = 0 ∨ timestampShift m = 2 := by
  unfold timestampShift
  split_ifs <;> simp

variable {b : Int} {m : MysqlTime} {r : RevTable}

lemma Away.bounds (h : z.Away b m) (hb : 0 ≤ b) :
    0 < m.seconds ∧ m.seconds ≤ timestampMaxValue + 2 * secsPerDay ∧ 3 * b < myTimeTMax := by
  have h1 := h.inner.1
  have h2 := h.inner.2
  unfold myTimeTMax at *
  unfold timestampMaxValue secsPerDay at *
  rcases timestampShift_cases m with hs | hs <;> rw [hs] at h1 h2 <;> omega

lemma gmtSecToTIME_eq (hz : z.Regular) (t : Int) :
    z.gmtSecToTIME t = secToTIME t (z.findTransitionType t) := by
  unfold gmtSecToTIME
  rw [hz.lsis]
  simp [leapCorrection]

lemma gmtSecToTIME_eq_some_iff (hz : z.Regular) (hb : ∀ tti ∈ z.ttis, |tti.gmtoff| ≤ b)
    (hm : m.IsLocalTime) (haway : z.Away b m) (ht : InTimestampRange t) :
    z.gmtSecToTIME t = some m ↔ t + z.findTransitionType t = m.seconds := by
  have hoff := abs_le.mp (findTransitionType_le hz hb t)
  obtain ⟨h1, h2, h3⟩ := haway.bounds (by omega)
  have hyear := hm.year_of_seconds (by omega) h2
  unfold InTimestampRange timestampMinValue timestampMaxValue at ht
  unfold myTimeTMax at h3
  rw [gmtSecToTIME_eq hz]
  exact secToTIME_eq_some_iff hm (by omega) (by omega) (by omega) (by omega)

lemma exists_change_of_ne : ∀ {o a : Int},
    offsetFrom o l (a - 1) ≠ offsetFrom o l a → ∃ c ∈ l, c.1 = a := by
  induction l <;> grind [offsetFrom]

lemma offsetFrom_eq_of_le : ∀ {o t t' : Int},
    (∀ c ∈ l, c.1 ≤ t) → (∀ c ∈ l, c.1 ≤ t') → offsetFrom o l t = offsetFrom o l t' := by
  induction l <;> grind [offsetFrom]

lemma not_jumpsOver_of_quiet (hz : z.Regular) (hb : ∀ tti ∈ z.ttis, |tti.gmtoff| ≤ b)
    (hquiet : ∀ tr ∈ z.transitions, tr.1 + b ≤ l) : ¬ z.JumpsOver a l := by
  rintro ⟨h1, h2⟩
  have hne : z.findTransitionType (a - 1) ≠ z.findTransitionType a := by omega
  rw [findTransitionType_eq hz, findTransitionType_eq hz] at hne
  obtain ⟨c, hc, rfl⟩ := exists_change_of_ne hne
  obtain ⟨tr, htr, rfl⟩ := mem_map.mp hc
  have := hquiet tr htr
  have := abs_le.mp (findTransitionType_le hz hb tr.1)
  dsimp only at h2
  omega

lemma findTransitionType_of_quiet (hz : z.Regular) (ht : ∀ tr ∈ z.transitions, tr.1 ≤ t)
    (ht' : ∀ tr ∈ z.transitions, tr.1 ≤ t') : z.findTransitionType t = z.findTransitionType t' := by
  rw [findTransitionType_eq hz, findTransitionType_eq hz]
  refine offsetFrom_eq_of_le ?_ ?_
  · intro c hc
    obtain ⟨tr, htr, rfl⟩ := mem_map.mp hc
    exact ht tr htr
  · intro c hc
    obtain ⟨tr, htr, rfl⟩ := mem_map.mp hc
    exact ht' tr htr

/-! ## The conversion -/

/-- The conversion, by the range that the search finds. -/
lemma timeToGmtSec_eq (hr : TableGood z b r) (hb : 0 ≤ b) (hm : m.IsLocalTime)
    (haway : z.Away b m) :
    ∃ e, z.Right (m.seconds - timestampShift m * secsPerDay) e ∧ r.timeToGmtSec m = some
      (if timestampShift m ≠ 0 ∧ timestampMaxValue + e.offset < m.seconds then
        (0, some .dataOutOfRange)
      else if e.gap then checkTimestampRange (e.start - e.offset) (some .invalidTimestamp)
      else checkTimestampRange (m.seconds - e.offset) none) := by
  obtain ⟨h1, h2, -⟩ := haway.bounds hb
  obtain ⟨hy1, hy2⟩ := hm.year_of_seconds (by omega) h2
  have hvalid : validateTimestampRange m = true := by
    simp only [validateTimestampRange, Bool.not_eq_true', Bool.or_eq_false_iff,
      Bool.and_eq_false_iff, decide_eq_false_iff_not]
    omega
  have hsecond := hm.second_lt
  have hlocal : secSinceEpoch m.year m.month (m.day - timestampShift m) m.hour m.minute m.second =
      m.seconds - timestampShift m * secsPerDay := by
    unfold MysqlTime.seconds
    rw [secSinceEpoch_eq hm.date (by omega), secSinceEpoch_eq hm.date (by omega)]
    unfold secsPerDay
    ring
  obtain ⟨hin, e, he, hright⟩ := hr.exists_range haway.inner
  refine ⟨e, hright, ?_⟩
  unfold RevTable.timeToGmtSec
  rw [if_neg (by simp [hvalid])]
  simp only [if_pos hsecond, ne_eq, not_true_eq_false, if_false]
  rw [hlocal, if_neg hin, he]
  simp only [Option.map_some, Int.sub_zero, Int.add_zero, Int.sub_add_cancel]
  have hcheck : (timestampMaxValue - timestampShift m * secsPerDay + e.offset <
      m.seconds - timestampShift m * secsPerDay) ↔ timestampMaxValue + e.offset < m.seconds := by
    omega
  simp only [hcheck]

section

variable (hz : z.Regular) (hb : ∀ tti ∈ z.ttis, |tti.gmtoff| ≤ b) (hr : TableGood z b r)
  (hm : m.IsLocalTime) (haway : z.Away b m)
include hz hb hr hm haway

lemma right_of_timeToGmtSec (hshift : timestampShift m = 0) :
    (∃ a, InTimestampRange a ∧ z.JumpsOver a m.seconds ∧
        (∀ t, 0 ≤ t → t + z.findTransitionType t ≠ m.seconds) ∧
        r.timeToGmtSec m = some (a, some .invalidTimestamp)) ∨
      ∃ t₀, InTimestampRange t₀ ∧ t₀ + z.findTransitionType t₀ = m.seconds ∧
        (∀ t, 0 ≤ t → t + z.findTransitionType t = m.seconds → t₀ ≤ t) ∧
        r.timeToGmtSec m = some (t₀, none) := by
  have hoff := fun t => abs_le.mp (findTransitionType_le hz hb t)
  have h0 := hoff 0
  obtain ⟨e, hright, heq⟩ := timeToGmtSec_eq hr (by omega) hm haway
  obtain ⟨hin1, hin2⟩ := haway.inner
  rw [hshift, Int.zero_mul, Int.sub_zero] at hright hin1 hin2
  rw [hshift, if_neg (by simp)] at heq
  rw [Right] at hright
  unfold myTimeTMax at hin2
  unfold InTimestampRange timestampMinValue timestampMaxValue
  cases hgap : e.gap with
  | true =>
    rw [if_pos hgap] at hright heq
    obtain ⟨hno, hjump⟩ := hright
    left
    set a := e.start - e.offset
    have h1 := hoff (a - 1)
    have h2 := hoff a
    have h3 := hjump.1
    have h4 := hjump.2
    refine ⟨a, ⟨by omega, by omega⟩, hjump, hno, ?_⟩
    rw [heq, checkTimestampRange, if_neg]
    unfold timestampMinValue timestampMaxValue
    omega
  | false =>
    rw [if_neg (by simp [hgap])] at hright heq
    obtain ⟨hlocal, hfirst⟩ := hright
    right
    have h1 := hoff (m.seconds - e.offset)
    refine ⟨m.seconds - e.offset, ⟨by omega, by omega⟩, hlocal, hfirst, ?_⟩
    rw [heq, checkTimestampRange, if_neg]
    unfold timestampMinValue timestampMaxValue
    omega

/-- The conversion of a date that is shifted: there is one instant, which may be out of the
range. -/
lemma right_of_timeToGmtSec_shift (hshift : timestampShift m ≠ 0) :
    (∀ a, ¬ z.JumpsOver a m.seconds) ∧
      ∃ t₀, 0 ≤ t₀ ∧ t₀ + z.findTransitionType t₀ = m.seconds ∧
        (∀ t, t + z.findTransitionType t = m.seconds → t₀ = t) ∧
        r.timeToGmtSec m = some (checkTimestampRange t₀ none) := by
  have hoff := fun t => abs_le.mp (findTransitionType_le hz hb t)
  have h0 := hoff 0
  have hquiet := haway.quiet hshift
  obtain ⟨e, hright, heq⟩ := timeToGmtSec_eq hr (by omega) hm haway
  obtain ⟨hin1, hin2⟩ := haway.inner
  have hs2 : timestampShift m = 2 := (timestampShift_cases m).resolve_left hshift
  have hgap : e.gap = false := by
    cases hgap : e.gap with
    | true =>
      rw [Right, if_pos hgap] at hright
      exact absurd hright.2 (not_jumpsOver_of_quiet hz hb hquiet)
    | false => rfl
  rw [Right, if_neg (by simp [hgap])] at hright
  rw [if_neg (by simp [hgap] : ¬ e.gap = true)] at heq
  rw [hs2] at hright hin1 hin2 hquiet
  unfold secsPerDay at hright hin1 hin2 hquiet
  set l := m.seconds
  have h1 := hoff (l - 2 * 86400 - e.offset)
  -- the offset of the shifted date is that of every later instant
  have hlast : ∀ t, l - 2 * 86400 - b ≤ t → z.findTransitionType t = e.offset := by
    intro t ht
    have heoff : z.findTransitionType (l - 2 * 86400 - e.offset) = e.offset := by omega
    rw [← heoff]
    refine findTransitionType_of_quiet hz ?_ ?_ <;> intro tr htr <;> have := hquiet tr htr <;> omega
  have he := hlast (l - e.offset) (by omega)
  refine ⟨fun a => not_jumpsOver_of_quiet hz hb fun tr htr => ?_, l - e.offset, ?_, ?_, ?_, ?_⟩
  · have := hquiet tr htr
    omega
  · omega
  · omega
  · intro t ht
    have h2 := hoff t
    have := hlast t (by omega)
    omega
  · rw [heq]
    split_ifs with hout
    · rw [checkTimestampRange, if_pos (by omega)]
    · rfl

end

/-- Away from the ends of the range, `TIME_to_gmt_sec()` gives the first instant with a local
time, and reports a local time that is in a gap with the instant at which the gap begins. -/
theorem timeToGmtSec_inverts (hz : z.Regular) {b : Int} (hb : ∀ tti ∈ z.ttis, |tti.gmtoff| ≤ b)
    {r : RevTable} (hr : z.prepareTzInfo = some r) {m : MysqlTime} (hm : m.IsLocalTime)
    (haway : z.Away b m) :
    (∀ t, InTimestampRange t → z.gmtSecToTIME t = some m →
      ∃ t₀, r.timeToGmtSec m = some (t₀, none) ∧
        IsLeast {t | InTimestampRange t ∧ z.gmtSecToTIME t = some m} t₀) ∧
    ((∃ a, r.timeToGmtSec m = some (a, some .invalidTimestamp)) ↔
      (∀ t, InTimestampRange t → z.gmtSecToTIME t ≠ some m) ∧
        ∃ a, InTimestampRange a ∧ z.JumpsOver a m.seconds) ∧
    ∀ a, r.timeToGmtSec m = some (a, some .invalidTimestamp) →
      InTimestampRange a ∧ z.JumpsOver a m.seconds := by
  have htable := tableGood hz hb hr
  have hiff := fun {t : Int} (ht : InTimestampRange t) =>
    gmtSecToTIME_eq_some_iff hz hb hm haway ht
  by_cases hshift : timestampShift m = 0
  · rcases right_of_timeToGmtSec hz hb htable hm haway hshift with
      ⟨a, ha, hjump, hno, heq⟩ | ⟨t₀, ht₀, hlocal, hfirst, heq⟩
    · have hnone : ∀ t, InTimestampRange t → z.gmtSecToTIME t ≠ some m := fun t ht hgmt =>
        hno t ht.1 ((hiff ht).mp hgmt)
      refine ⟨fun t ht hgmt => absurd hgmt (hnone t ht), ⟨fun _ => ⟨hnone, a, ha, hjump⟩,
        fun _ => ⟨a, heq⟩⟩, fun a' ha' => ?_⟩
      obtain rfl : a = a' := by simpa [heq] using ha'
      exact ⟨ha, hjump⟩
    · have hgmt : z.gmtSecToTIME t₀ = some m := (hiff ht₀).mpr hlocal
      refine ⟨fun t _ _ => ⟨t₀, heq, ⟨ht₀, hgmt⟩, fun t ht => ?_⟩, ⟨?_, ?_⟩, ?_⟩
      · exact hfirst t ht.1.1 ((hiff ht.1).mp ht.2)
      · rintro ⟨a, ha⟩
        simp [heq] at ha
      · rintro ⟨hnone, -⟩
        exact absurd hgmt (hnone t₀ ht₀)
      · intro a ha
        simp [heq] at ha
  · obtain ⟨hjump, t₀, hpos, hlocal, hunique, heq⟩ :=
      right_of_timeToGmtSec_shift hz hb htable hm haway hshift
    have hvalid : ∀ a, r.timeToGmtSec m ≠ some (a, some .invalidTimestamp) := by
      intro a
      rw [heq, checkTimestampRange]
      split_ifs <;> simp
    refine ⟨fun t ht hgmt => ?_, ⟨?_, ?_⟩, fun a ha => absurd ha (hvalid a)⟩
    · obtain rfl := hunique t ((hiff ht).mp hgmt)
      refine ⟨t₀, ?_, ⟨ht, hgmt⟩, fun t' ht' => ?_⟩
      · rw [heq, checkTimestampRange, if_neg]
        have := ht.1
        have := ht.2
        omega
      · exact Int.le_of_eq (hunique t' ((hiff ht'.1).mp ht'.2))
    · rintro ⟨a, ha⟩
      exact absurd ha (hvalid a)
    · rintro ⟨-, a, -, ha⟩
      exact absurd ha (hjump a)

def summerZone : TimeZoneInfo where
  transitions := [(1000000, 1), (20000000, 0)]
  ttis := [⟨3600, false⟩, ⟨7200, true⟩]
  lsis := []
  ttis_ne := by decide
  types_lt := by decide

/-- The gap of the first transition. -/
theorem timeToGmtSec_inverts_summerZone :
    InTimestampRange 1000000 ∧
      summerZone.JumpsOver 1000000
        (MysqlTime.seconds ⟨1970, 1, 12, 15, 10, 0, 0, false, .datetime⟩) := by
  have hregular : summerZone.Regular := by
    refine ⟨rfl, by decide, ?_⟩
    show SmallChanges 3600 [(1000000, 7200), (20000000, 3600)]
    norm_num [SmallChanges]
  refine (timeToGmtSec_inverts hregular (b := 7200) (by simp [summerZone])
    (r := ⟨[⟨3600, 3600, false⟩, ⟨1003600, 3600, true⟩, ⟨1007200, 7200, false⟩,
      ⟨20007200, 3600, false⟩], 4294967295⟩) (by decide)
    ⟨⟨by decide, by decide, by decide, by decide, by decide⟩, by decide, by decide, by decide, rfl,
      rfl, rfl⟩ ⟨by unfold Inner; decide, fun h => absurd rfl h⟩).2.2 1000000
    (by decide)

def westernZone : TimeZoneInfo where
  transitions := []
  ttis := [⟨-18000, false⟩]
  lsis := []
  ttis_ne := by decide
  types_lt := by decide

def lateZone : TimeZoneInfo where
  transitions := [(4294900000, 1)]
  ttis := [⟨0, false⟩, ⟨3600, true⟩]
  lsis := []
  ttis_ne := by decide
  types_lt := by decide

/-- A local time before the epoch is not in the table, though its instant is in the range; and a
date that is shifted over a transition is converted with the wrong offset. -/
theorem not_timeToGmtSec_inverts :
    (westernZone.Regular ∧ ∃ r, westernZone.prepareTzInfo = some r ∧
      westernZone.gmtSecToTIME 1 = some ⟨1969, 12, 31, 19, 0, 1, 0, false, .datetime⟩ ∧
      r.timeToGmtSec ⟨1969, 12, 31, 19, 0, 1, 0, false, .datetime⟩ =
        some (0, some .dataOutOfRange)) ∧
    lateZone.Regular ∧ ∃ r, lateZone.prepareTzInfo = some r ∧
      lateZone.gmtSecToTIME 4294950000 = some ⟨2106, 2, 7, 2, 40, 0, 0, false, .datetime⟩ ∧
      r.timeToGmtSec ⟨2106, 2, 7, 2, 40, 0, 0, false, .datetime⟩ = some (4294953600, none) := by
  refine ⟨⟨⟨rfl, by decide, trivial⟩, ⟨[⟨0, -18000, false⟩], 4294949295⟩, ?_, ?_, ?_⟩,
    ⟨rfl, by decide, trivial⟩, ⟨[⟨0, 0, false⟩, ⟨4294900000, 0, true⟩, ⟨4294903600, 3600, false⟩],
      4294967295⟩, ?_, ?_, ?_⟩ <;> decide

end TimeZoneInfo

end MariaDB.Time
