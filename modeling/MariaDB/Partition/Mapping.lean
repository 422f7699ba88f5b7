import MariaDB.Partition.Iterator
import MariaDB.Partition.Endpoint

/-!
# Pruning by an interval of the partitioning column

`get_part_iter_for_interval_via_mapping()` maps an interval of column values, given by two
key images and the flags of its ends, to an iterator over the partitions that may have rows
in the interval.

No partition with a row of the interval is left out for RANGE. For LIST the function compares
as many bytes of the key images as the column has to tell an interval from a single value.
The null byte is one of them, so the most significant byte of a nullable column is not
compared, and the DEFAULT partition is left out for an interval whose ends differ only
there. The partition of NULL is left out for an interval without a lower end.
-/
namespace MariaDB.Partition

structure IntervalFlags where
  nearMin : Bool
  nearMax : Bool
  noMinRange : Bool
  noMaxRange : Bool
  deriving DecidableEq, Repr

namespace IntervalFlags

variable (flags : IntervalFlags)

def any : Bool := flags.noMinRange || flags.noMaxRange || flags.nearMin || flags.nearMax

variable {flags} in
lemma any_eq_false : flags.any = false ↔
    flags.noMinRange = false ∧ flags.noMaxRange = false ∧ flags.nearMin = false ∧
      flags.nearMax = false := by
  simp [any, and_assoc]

def Within (lo hi x : WithBot Int) : Prop :=
  (flags.noMinRange = false → Above (!flags.nearMin) lo x) ∧
    (flags.noMaxRange = false → Below (!flags.nearMax) hi x)

end IntervalFlags

section Mapping

variable (info : PartitionInfo) (minValue maxValue : List UInt8) (flags : IntervalFlags)

def hasDefaultPartition : Bool := info.partType == .list && info.definedMaxValue

def maxEndpointVal : Nat :=
  match info.partType with
  | .range => info.numParts
  | .list => info.listArray.length

def getEndpoint : WithBot Int → Bool → Bool → Nat :=
  match info.partType with
  | .range => getPartitionIdRangeForEndpoint info
  | .list => getListArrayIdxForEndpoint info

def getNext : PartitionIterator → Option Nat × PartitionIterator :=
  match info.partType with
  | .range => getNextPartitionIdRange
  | .list => getNextPartitionIdList
      ⟨listPartitionIds info, info.hasNullPartId, info.defaultPartitionId⟩

def getPartitionId : WithBot Int → Option Nat :=
  match info.partType with
  | .range => getPartitionIdRange info
  | .list => getPartitionIdList info

/-- The interval is not known to be a single value: `memcmp()` compares `field_len` bytes of
the two key images. -/
def canMatchMultipleValues : Bool :=
  flags.any ||
    decide (minValue.take info.column.packLength ≠ maxValue.take info.column.packLength)

def notFound (it : PartitionIterator) : Int × PartitionIterator :=
  if hasDefaultPartition info then
    (1, { it with retDefaultPart := true, retDefaultPartOrig := true })
  else (0, it)

def findMaximum (it : PartitionIterator) : Int × PartitionIterator :=
  if flags.noMaxRange then (1, { it with stop := maxEndpointVal info })
  else
    let stop := getEndpoint info (info.column.storeKeyImageToRec maxValue) false (!flags.nearMax)
    if stop ≤ it.start ∧ it.retNullPart = false then notFound info { it with stop }
    else (1, { it with stop })

/-- The interval begins with NULL, and there is a partition for NULL. -/
def beginsWithNull : Bool :=
  info.column.realMaybeNull && info.hasNullValue && !(flags.noMinRange || flags.nearMin) &&
    decide (minValue.headD 0 ≠ 0)

def getPartIterForIntervalViaMapping (it : PartitionIterator) : Int × PartitionIterator :=
  if info.partType = .list ∧ info.listArray = [] then
    (-1, { it with start := 0, cur := 0, stop := 0, retNullPart := true, retNullPartOrig := true,
                   retDefaultPart := false, retDefaultPartOrig := false })
  else
    let canMatch := canMatchMultipleValues info minValue maxValue flags
    let retDefault := canMatch && hasDefaultPartition info
    let it := { it with retNullPart := false, retNullPartOrig := false,
                        retDefaultPart := retDefault, retDefaultPartOrig := retDefault }
    if beginsWithNull info minValue flags then
      let it := { it with retNullPart := true, retNullPartOrig := true, start := 0, cur := 0 }
      if flags.noMaxRange = false ∧ maxValue.headD 0 ≠ 0 then
        -- the interval is NULL itself
        (1, { it with stop := 0, retDefaultPart := false, retDefaultPartOrig := false })
      else findMaximum info maxValue flags it
    else if flags.noMinRange then findMaximum info maxValue flags { it with start := 0, cur := 0 }
    else
      let record := info.column.storeKeyImageToRec minValue
      let start := getEndpoint info record true (!flags.nearMin)
      if canMatch = false ∧ record = ⊥ then
        let it := { it with start := 0, cur := 0, stop := 0 }
        if info.partType = .range ∨ info.hasNullValue = true then
          (1, { it with retNullPart := true, retNullPartOrig := true })
        else notFound info it
      else
        let it := { it with start, cur := start }
        if start = maxEndpointVal info then notFound info it
        else findMaximum info maxValue flags it

/-- The result says that all partitions match, or the iterator returns `p`. -/
def Answered (result : Int × PartitionIterator) (p : Nat) : Prop :=
  result.1 = -1 ∨ (result.1 = 1 ∧ Returns (getNext info) result.2 p)

end Mapping

section Images

variable {c : IntColumn} {image image' : List UInt8}

lemma IntColumn.inRange_value {bytes : List UInt8} (h : bytes.length = c.packLength) :
    c.InRange (c.value bytes) := by
  have hlt := Library.ofLE_lt bytes
  rw [h] at hlt
  unfold InRange value
  split_ifs
  · exact ⟨Int.natCast_nonneg _, by exact_mod_cast hlt⟩
  · have hpow : 0 < 256 ^ c.packLength := Nat.pow_pos (by norm_num)
    have hlow := Int.le_bmod (x := Library.ofLE bytes) hpow
    have hhigh := Int.bmod_lt (x := Library.ofLE bytes) hpow
    have heven : (256 ^ c.packLength) % 2 = 0 := by
      obtain ⟨n, hn⟩ := Nat.exists_eq_succ_of_ne_zero c.pos.ne'
      rw [hn, pow_succ]
      omega
    push_cast at hlow hhigh
    have heven' : (256 : Int) ^ c.packLength % 2 = 0 := by exact_mod_cast heven
    omega

lemma IntColumn.holds_storeKeyImageToRec (h : c.IsKeyImage image) :
    c.Holds (c.storeKeyImageToRec image) := by
  unfold storeKeyImageToRec IsKeyImage at *
  split_ifs with hnull hbyte
  · exact hnull
  · refine inRange_value ?_
    simp only [hnull, if_true] at h
    rw [List.length_take, List.length_tail, h]
    omega
  · refine inRange_value ?_
    simp only [hnull, Bool.false_eq_true, if_false] at h
    rw [List.length_take, h]
    omega

lemma IntColumn.eq_bot_iff_of_take (h : image.take c.packLength = image'.take c.packLength) :
    c.storeKeyImageToRec image = ⊥ ↔ c.storeKeyImageToRec image' = ⊥ := by
  have hhead : image.headD 0 = image'.headD 0 := by
    have := congrArg (fun l => List.headD l 0) h
    simpa [List.headD_eq_head?_getD, List.head?_take, c.pos.ne'] using this
  unfold storeKeyImageToRec
  rw [hhead]
  split_ifs <;> simp

lemma IntColumn.eq_of_take (hnull : c.realMaybeNull = false)
    (h : image.take c.packLength = image'.take c.packLength) :
    c.storeKeyImageToRec image = c.storeKeyImageToRec image' := by
  unfold storeKeyImageToRec
  rw [if_neg (by simp [hnull]), if_neg (by simp [hnull]), h]

lemma IntColumn.storeKeyImageToRec_eq_bot_iff (hnull : c.realMaybeNull = true) :
    c.storeKeyImageToRec image = ⊥ ↔ image.headD 0 ≠ 0 := by
  unfold storeKeyImageToRec
  rw [if_pos hnull]
  split_ifs with h
  · exact iff_of_true rfl h
  · exact iff_of_false WithBot.coe_ne_bot h

end Images

end MariaDB.Partition
