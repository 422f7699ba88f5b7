import MariaDB.Time.BrokenDown
import MariaDB.Library.RangeSearch

/-!
# Time zone descriptions

A description has the instants at which the offset from UTC changes. `prepare_tz_info()` builds
a table for the way back from local time: it goes through the ranges of constant offset and
records which local times each one adds, and the gaps between them.
-/
namespace MariaDB.Time

open MariaDB.Library

def myTimeTMin : Int := 0

def myTimeTMax : Int := 4294967295

def tzMaxTimes : Nat := 370

def tzMaxLeaps : Nat := 50

def tzMaxRevRanges : Nat := tzMaxTimes + tzMaxLeaps + 2

structure TranTypeInfo where
  gmtoff : Int
  isdst : Bool
  deriving DecidableEq

structure LsInfo where
  trans : Int
  corr : Int
  deriving DecidableEq

/-- `TIME_ZONE_INFO`, as it is loaded: the transitions have their instant and the index of their
local time type. -/
structure TimeZoneInfo where
  transitions : List (Int × Nat)
  ttis : List TranTypeInfo
  lsis : List LsInfo
  ttis_ne : ttis ≠ []
  types_lt : ∀ tr ∈ transitions, tr.2 < ttis.length

structure RevtInfo where
  start : Int
  offset : Int
  gap : Bool
  deriving DecidableEq

/-- `revts[]` and `revtis[]`, and the finisher of `revts[]`. -/
structure RevTable where
  ranges : List RevtInfo
  endL : Int
  deriving DecidableEq

namespace TimeZoneInfo

variable (z : TimeZoneInfo)

def gmtoff (type : Nat) : Int := (z.ttis.map TranTypeInfo.gmtoff).getD type 0

/-- The index of `fallback_tti`: the first type that is not a DST type. -/
def fallbackType : Nat := (z.ttis.findIdx? fun tti => !tti.isdst).getD 0

/-- The instants of the transitions, each with the offset from then on. -/
def changes : List (Int × Int) := z.transitions.map fun tr => (tr.1, z.gmtoff tr.2)

def findTransitionType (t : Int) : Int :=
  match z.changes with
  | [] => z.gmtoff z.fallbackType
  | (at₀, _) :: _ =>
    if t < at₀ then z.gmtoff z.fallbackType
    else
      let i := RangeSearch.find (fun i => (z.changes.getD i (0, 0)).1) t z.changes.length
      (z.changes.getD i (0, 0)).2

/-- The number of leap seconds in a row that end with the one at the head; the corrections are
in reverse. -/
def leapRow : List LsInfo → Nat
  | ls :: prev :: rest =>
    if ls.trans = prev.trans + 1 ∧ ls.corr = prev.corr + 1 then leapRow (prev :: rest) + 1 else 0
  | _ => 0

/-- The leap correction at an instant and the extra seconds of the minute; the corrections are in
reverse. -/
def leapCorrection (t : Int) : List LsInfo → Int × Nat
  | [] => (0, 0)
  | ls :: rest =>
    if ls.trans ≤ t then
      let positive : Bool := match rest with
        | [] => decide (0 < ls.corr)
        | prev :: _ => decide (prev.corr < ls.corr)
      (ls.corr, if t = ls.trans ∧ positive then leapRow (ls :: rest) + 1 else 0)
    else leapCorrection t rest

def gmtSecToTIME (t : Int) : Option MysqlTime :=
  let (corr, hit) := leapCorrection t z.lsis.reverse
  (secToTIME t (z.findTransitionType t - corr)).map fun m => { m with second := m.second + hit }

/-! ## The table for the way back -/

/-- The loop of `prepare_tz_info()` between two rounds: `cur_t`, `cur_offset`, `cur_corr`, the
transitions and leap seconds that are left, `cur_max_seen_l`, and the ranges in reverse. -/
structure Sweep where
  curT : Int
  curOffset : Int
  curCorr : Int
  changes : List (Int × Int)
  lsis : List LsInfo
  curMaxSeenL : Int
  ranges : List RevtInfo

/-- The ranges that a range of local times adds, with the new `cur_max_seen_l`; `none` if there
are too many. -/
def addRange (curL endL offset curMaxSeenL : Int) (ranges : List RevtInfo) :
    Option (Int × List RevtInfo) :=
  if curMaxSeenL < endL then
    if curMaxSeenL = myTimeTMin then some (endL, ⟨curL, offset, false⟩ :: ranges)
    else if curMaxSeenL + 1 < curL then
      let ranges := ⟨curMaxSeenL + 1, (ranges.map RevtInfo.offset).headD 0, true⟩ :: ranges
      if ranges.length = tzMaxTimes + tzMaxLeaps + 1 then none
      else some (endL, ⟨curL, offset, false⟩ :: ranges)
    else some (endL, ⟨curMaxSeenL + 1, offset, false⟩ :: ranges)
  else some (curMaxSeenL, ranges)

def Sweep.offAndCorr (s : Sweep) : Int := s.curOffset - s.curCorr

/-- `cur_t`, not below what local time can express. -/
def Sweep.clippedT (s : Sweep) : Int :=
  if s.offAndCorr < 0 ∧ s.curT < myTimeTMin - s.offAndCorr then myTimeTMin - s.offAndCorr
  else s.curT

/-- `end_t`, not above what local time can express. -/
def Sweep.endT (s : Sweep) : Int :=
  let nextT := (s.changes.head?.map (·.1 - 1)).getD myTimeTMax
  let nextLs := (s.lsis.head?.map (·.trans - 1)).getD myTimeTMax
  let endT := min nextT nextLs
  if 0 < s.offAndCorr ∧ myTimeTMax - s.offAndCorr < endT then myTimeTMax - s.offAndCorr else endT

def Sweep.AtEnd (s : Sweep) : Prop :=
  s.endT = myTimeTMax ∨ (0 < s.offAndCorr ∧ myTimeTMax - s.offAndCorr ≤ s.endT)

instance (s : Sweep) : Decidable s.AtEnd :=
  inferInstanceAs (Decidable (_ ∨ _))

/-- The next round starts after `end_t`, with the offset and the correction from there on. -/
def Sweep.next (s : Sweep) (curMaxSeenL : Int) (ranges : List RevtInfo) : Sweep :=
  let curT := s.endT + 1
  let (curOffset, changes) := match z.changes, s.changes with
    | (at₀, _) :: _, (a, offset) :: rest =>
      if at₀ ≤ curT ∧ curT = a then (offset, rest) else (s.curOffset, s.changes)
    | _, _ => (s.curOffset, s.changes)
  let (curCorr, lsis) := match s.lsis with
    | ls :: rest => if curT = ls.trans then (ls.corr, rest) else (s.curCorr, s.lsis)
    | [] => (s.curCorr, s.lsis)
  ⟨curT, curOffset, curCorr, changes, lsis, curMaxSeenL, ranges⟩

/-- The loop of `prepare_tz_info()`; a round that is not the last one takes a transition or a
leap second. -/
def sweep : Nat → Sweep → Option RevTable
  | 0, _ => none
  | fuel + 1, s =>
    if tzMaxRevRanges - 1 ≤ s.ranges.length then none else
    match addRange (s.clippedT + s.offAndCorr) (s.endT + s.offAndCorr) s.offAndCorr s.curMaxSeenL
      s.ranges with
    | none => none
    | some (curMaxSeenL, ranges) =>
      if s.AtEnd then
        -- the check for enough space
        if ranges.length = tzMaxRevRanges - 1 then none
        else some ⟨ranges.reverse, s.endT + s.offAndCorr⟩
      else sweep fuel (Sweep.next z s curMaxSeenL ranges)

/-- The first round: the offset at `MY_TIME_T_MIN`. -/
def firstRound : Sweep :=
  let (curOffset, changes) := match z.changes with
    | [] => (z.gmtoff z.fallbackType, [])
    | (at₀, offset) :: rest =>
      if myTimeTMin < at₀ then (z.gmtoff z.fallbackType, (at₀, offset) :: rest) else (offset, rest)
  let past := z.lsis.takeWhile fun ls => decide (ls.trans ≤ myTimeTMin)
  { curT := myTimeTMin
    curOffset
    curCorr := (past.getLast?.map LsInfo.corr).getD 0
    changes
    lsis := z.lsis.drop past.length
    curMaxSeenL := myTimeTMin
    ranges := [] }

def prepareTzInfo : Option RevTable :=
  z.sweep (z.changes.length + z.lsis.length + 1) z.firstRound

end TimeZoneInfo

/-! ## Local time to instants -/

def timestampMinValue : Int := 0

def timestampMaxValue : Int := 4294967295

inductive TimestampError
  /-- `ER_WARN_DATA_OUT_OF_RANGE`. -/
  | dataOutOfRange
  /-- `ER_WARN_INVALID_TIMESTAMP`. -/
  | invalidTimestamp
  deriving DecidableEq

def validateTimestampRange (m : MysqlTime) : Bool :=
  !((2106 < m.year || m.year < 1969) || (m.year = 1969 && (m.month < 12 || m.day < 31)))

/-- The days by which `TIME_to_gmt_sec()` shifts dates at the end of the range. -/
def timestampShift (m : MysqlTime) : Int :=
  if m.year = 2106 ∧ m.month = 2 ∧ 2 < m.day then 2 else 0

/-- The end of `TIME_to_gmt_sec()`. -/
def checkTimestampRange (localT : Int) (error : Option TimestampError) :
    Int × Option TimestampError :=
  if localT < timestampMinValue ∨ timestampMaxValue < localT then (0, some .dataOutOfRange)
  else (localT, error)

/-- `TIME_to_gmt_sec()`: the instant and the error code. `none` is a table without a range. -/
def RevTable.timeToGmtSec (r : RevTable) (m : MysqlTime) : Option (Int × Option TimestampError) :=
  if ¬ validateTimestampRange m then some (0, some .dataOutOfRange) else
  let savedSeconds : Int := if m.second < 60 then 0 else m.second
  let shift := timestampShift m
  let localT := secSinceEpoch m.year m.month (m.day - shift) m.hour m.minute
    (if savedSeconds ≠ 0 then 0 else m.second)
  let start i := (r.ranges.map RevtInfo.start).getD i r.endL
  if localT < start 0 ∨ r.endL < localT then some (0, some .dataOutOfRange) else
  (r.ranges[RangeSearch.find start localT r.ranges.length]?).map fun range =>
    if shift ≠ 0 ∧
        timestampMaxValue - shift * secsPerDay + range.offset - savedSeconds < localT then
      (0, some .dataOutOfRange)
    else
      let localT := localT + shift * secsPerDay
      if range.gap then
        checkTimestampRange (range.start - range.offset + savedSeconds) (some .invalidTimestamp)
      else checkTimestampRange (localT - range.offset + savedSeconds) none

end MariaDB.Time
