import MariaDB.Library.Bisect
import MariaDB.Partition.Definition

/-!
# The searches of RANGE and LIST partitioning

`get_partition_id_range()` and `get_partition_id_list()` find the partition of a row. The
functions for an endpoint map the edge of an interval of column values to an edge in the
array of partitions or of list constants. The lemmas say that the two kinds of search agree:
the partition of a row in the interval lies between the two edges.
-/
namespace MariaDB.Partition

open Library.Bisect

variable (info : PartitionInfo)

/-- `get_partition_id_range()`; `none` is `HA_ERR_NO_PARTITION_FOUND`. -/
def getPartitionIdRange : WithBot Int → Option Nat
  | ⊥ => some 0
  | (v : Int) =>
    let value := info.column.partFuncValue v
    let maxPartition := info.numParts - 1
    let loc := first (fun i => decide (info.rangeIntArray.getD i 0 ≤ value)) maxPartition
    if loc = maxPartition ∧ info.rangeIntArray.getD loc 0 ≤ value ∧
        info.definedMaxValue = false then none
    else some loc

def getPartitionIdRangeForEndpoint (x : WithBot Int) (left incl : Bool) : Nat :=
  match x with
  | ⊥ => if !left && incl then 1 else 0
  | (v : Int) =>
    let partFuncValue := info.column.partFuncValue v
    let value := if left && !incl then longlong (partFuncValue + 1) else partFuncValue
    let maxPartition := info.numParts - 1
    let loc := first (fun i => decide (info.rangeIntArray.getD i 0 < value)) maxPartition
    let partEndVal := info.rangeIntArray.getD loc 0
    if left then
      -- the last partition also has what is not less than MAXVALUE
      if partEndVal ≤ value ∧ (loc < maxPartition ∨ info.definedMaxValue = false) then loc + 1
      else loc
    else if incl = true ∧ loc < maxPartition ∧ value = partEndVal then loc + 2
    else loc + 1

/-- The search of `list_array`. -/
def findListValue (value : Int) : Except Nat Nat :=
  find (fun i => compare ((info.listArray.map (·.listValue)).getD i 0) value) info.listArray.length

/-- The end of `get_partition_id_list()` for a value that is not listed. -/
def notListed : Option Nat :=
  if info.definedMaxValue then some info.defaultPartitionId else none

def listPartitionIds : List Nat := info.listArray.map (·.partitionId)

def getPartitionIdList : WithBot Int → Option Nat
  | ⊥ => if info.hasNullValue then some info.hasNullPartId else notListed info
  | (v : Int) =>
    if info.listArray = [] then notListed info
    else
      match findListValue info (info.column.partFuncValue v) with
      | .ok i => some ((listPartitionIds info).getD i 0)
      | .error _ => notListed info

def getListArrayIdxForEndpoint (x : WithBot Int) (left incl : Bool) : Nat :=
  match x with
  | ⊥ => 0
  | (v : Int) =>
    match findListValue info (info.column.partFuncValue v) with
    | .ok i => i + if left ^^ incl then 1 else 0
    | .error i => i

def Above (incl : Bool) (bound x : WithBot Int) : Prop :=
  if incl then bound ≤ x else bound < x

def Below (incl : Bool) (bound x : WithBot Int) : Prop :=
  if incl then x ≤ bound else x < bound

variable {info} {c : IntColumn}

lemma IntColumn.partFuncValue_le (h : c.InRange v) (h' : c.InRange v') :
    c.partFuncValue v ≤ c.partFuncValue v' ↔ v ≤ v' := by
  rw [← c.constant_le_constant, c.partFuncValue_eq h, c.partFuncValue_eq h']

lemma IntColumn.partFuncValue_lt (h : c.InRange v) (h' : c.InRange v') :
    c.partFuncValue v < c.partFuncValue v' ↔ v < v' := by
  rw [← c.constant_lt_constant, c.partFuncValue_eq h, c.partFuncValue_eq h']

section Range

variable (hr : RangeInfo info) {p : Nat}
include hr

lemma RangeInfo.isFirst (v : Int) :
    IsFirst info.numParts (fun i => info.column.partFuncValue v < info.rangeIntArray.getD i 0 ∨
      (i = info.numParts - 1 ∧ info.definedMaxValue = true)) (getPartitionIdRange info (v : Int))
    := by
  have hpos := hr.numParts_pos
  have hlen := hr.length
  dsimp only [getPartitionIdRange]
  set value := info.column.partFuncValue v
  obtain ⟨hle, hbelow, habove⟩ := first_spec
    (fun i => decide (info.rangeIntArray.getD i 0 ≤ value)) (info.numParts - 1)
    fun i j hij hj => by simpa using fun hle => (hr.ascend.le i j hij (by omega)).trans hle
  simp only [decide_eq_true_eq, decide_eq_false_iff_not, not_le] at hbelow habove
  set loc := first (fun i => decide (info.rangeIntArray.getD i 0 ≤ value)) (info.numParts - 1)
  split_ifs with hnone
  · obtain ⟨hlast, hge, hmax⟩ := hnone
    apply isFirst_none
    intro i hi
    rcases Nat.eq_or_lt_of_le (show i ≤ loc by omega) with rfl | hi
    · simpa [hmax] using hge
    · simpa [hmax] using hbelow i hi
  · apply isFirst_some (by omega)
    · grind
    · intro i hi
      have := hbelow i hi
      omega

lemma RangeInfo.partition (h : getPartitionIdRange info (v : Int) = some p) :
    p < info.numParts ∧ (∀ i < p, info.rangeIntArray.getD i 0 ≤ info.column.partFuncValue v) ∧
      (info.column.partFuncValue v < info.rangeIntArray.getD p 0 ∨
        (p = info.numParts - 1 ∧ info.definedMaxValue = true)) := by
  obtain ⟨hp, hbound, hbefore⟩ := (h ▸ hr.isFirst v).some_spec
  exact ⟨hp, fun i hi => not_lt.mp fun hlt => hbefore i hi (.inl hlt), hbound⟩

lemma RangeInfo.partition_lt (h : getPartitionIdRange info x = some p) : p < info.numParts := by
  cases x with
  | bot =>
    obtain rfl : 0 = p := by simpa [getPartitionIdRange] using h
    exact hr.numParts_pos
  | coe v => exact (hr.partition h).1

lemma RangeInfo.first_bound (value : Int) :
    let loc := first (fun i => decide (info.rangeIntArray.getD i 0 < value)) (info.numParts - 1)
    loc ≤ info.numParts - 1 ∧ (∀ i < loc, info.rangeIntArray.getD i 0 < value) ∧
      (loc < info.numParts - 1 → value ≤ info.rangeIntArray.getD loc 0) := by
  have hlen := hr.length
  obtain ⟨hle, hbelow, habove⟩ := first_spec
    (fun i => decide (info.rangeIntArray.getD i 0 < value)) (info.numParts - 1)
    fun i j hij hj => by simpa using fun hlt => (hr.ascend.le i j hij (by omega)).trans_lt hlt
  exact ⟨hle, fun i hi => by simpa using hbelow i hi, fun h => by simpa using habove h⟩

lemma RangeInfo.left_le (hbound : info.column.Holds bound) (hx : info.column.Holds x)
    (habove : Above incl bound x) (hp : getPartitionIdRange info x = some p) :
    getPartitionIdRangeForEndpoint info bound true incl ≤ p := by
  cases bound with
  | bot => simp [getPartitionIdRangeForEndpoint]
  | coe v₀ =>
    cases x with
    | bot => cases incl <;> simp [Above] at habove
    | coe v =>
      obtain ⟨hlt, -, hbelow⟩ := hr.partition hp
      dsimp only [getPartitionIdRangeForEndpoint]
      -- the endpoint, moved by one if it is not included, is not above the row
      set value := if (true && !incl) = true then longlong (info.column.partFuncValue v₀ + 1)
        else info.column.partFuncValue v₀ with hvalue
      have hle : value ≤ info.column.partFuncValue v := by
        cases incl with
        | true =>
          have hle : v₀ ≤ v := by simpa [Above] using habove
          simpa [hvalue] using (IntColumn.partFuncValue_le hbound hx).mpr hle
        | false =>
          have hlt : v₀ < v := by simpa [Above] using habove
          have hlt := (IntColumn.partFuncValue_lt hbound hx).mpr hlt
          have hmax := info.column.partFuncValue_le_longlongMax v
          obtain ⟨k, hk, hlow, hhigh⟩ := longlong_spec (info.column.partFuncValue v₀ + 1)
          have hmin := info.column.le_partFuncValue v₀
          unfold longlongMax at hmax
          omega
      obtain ⟨hloc, hbefore, -⟩ := hr.first_bound value
      generalize first _ _ = loc at *
      have hlocp : loc ≤ p := by
        by_contra hcon
        have := hbefore p (by omega)
        omega
      rw [if_pos rfl]
      split_ifs with hnext
      · rcases Nat.eq_or_lt_of_le hlocp with rfl | hlocp
        · rcases hbelow with h | ⟨h, hmax⟩
          · omega
          · rcases hnext.2 with h' | h'
            · omega
            · simp [hmax] at h'
        · exact hlocp
      · exact hlocp

lemma RangeInfo.lt_right (hbound : info.column.Holds bound) (hx : info.column.Holds x)
    (hbelow : Below incl bound x) (hp : getPartitionIdRange info x = some p) :
    p < getPartitionIdRangeForEndpoint info bound false incl := by
  have hlen := hr.length
  cases x with
  | bot =>
    obtain rfl : 0 = p := by simpa [getPartitionIdRange] using hp
    cases bound with
    | bot =>
      cases incl with
      | true => simp [getPartitionIdRangeForEndpoint]
      | false => simp [Below] at hbelow
    | coe v₀ =>
      dsimp only [getPartitionIdRangeForEndpoint]
      rw [if_neg Bool.false_ne_true]
      split_ifs <;> exact Nat.succ_pos _
  | coe v =>
    cases bound with
    | bot => cases incl <;> simp [Below] at hbelow
    | coe v₀ =>
      obtain ⟨hlt, hbefore, -⟩ := hr.partition hp
      dsimp only [getPartitionIdRangeForEndpoint]
      simp only [Bool.false_and, Bool.false_eq_true, if_false]
      set value := info.column.partFuncValue v₀
      obtain ⟨hloc, -, hend⟩ := hr.first_bound value
      generalize first _ _ = loc at *
      cases incl with
      | true =>
        have hle : v ≤ v₀ := by simpa [Below] using hbelow
        have hle := (IntColumn.partFuncValue_le hx hbound).mpr hle
        rcases lt_or_ge loc p with hgt | hge
        · -- the row lies behind the bound, which therefore is the endpoint itself
          have hbound := hbefore loc hgt
          have hval := hend (by omega)
          rw [if_pos ⟨rfl, by omega, by omega⟩]
          by_contra hcon
          have hnext := hbefore (loc + 1) (by omega)
          have hstrict := hr.ascend.lt loc (loc + 1) (Nat.lt_succ_self _) (by omega)
          omega
        · split_ifs <;> omega
      | false =>
        have hlt' : v < v₀ := by simpa [Below] using hbelow
        have hlt' := (IntColumn.partFuncValue_lt hx hbound).mpr hlt'
        simp only [Bool.false_eq_true, false_and, if_false]
        by_contra hcon
        have hbound := hbefore loc (by omega)
        omega

end Range

section List

variable (info) in
/-- The list constant at `i`, as a value of the column. -/
def constantAt (i : Nat) : Int :=
  info.column.constant ((info.listArray.map (·.listValue)).getD i 0)

variable {v : Int} {bound : WithBot Int} {incl : Bool}

lemma compare_constantAt (hv : info.column.InRange v) (i : Nat) :
    compare ((info.listArray.map (·.listValue)).getD i 0) (info.column.partFuncValue v) =
      compare (constantAt info i) v := by
  conv_rhs => rw [← info.column.partFuncValue_eq hv]
  unfold constantAt IntColumn.constant
  split_ifs
  · simp only [compare, compareOfLessAndEq, add_lt_add_iff_right, add_left_inj]
  · rfl

variable (hl : ListInfo info)
include hl

lemma ListInfo.constantAt_lt (hij : i < j) (hj : j < info.listArray.length) :
    constantAt info i < constantAt info j := by
  have hlt := List.pairwise_iff_getElem.mp hl.ascend i j (hij.trans hj) hj hij
  rw [constantAt, constantAt, IntColumn.constant_lt_constant]
  simpa [List.getElem?_eq_getElem hj, List.getElem?_eq_getElem (hij.trans hj)] using hlt

lemma ListInfo.ascending (v : Int) :
    Ascending (fun i => compare (constantAt info i) v) info.listArray.length := by
  refine ⟨fun i j hij hj hgt => ?_, fun i j hij hj hlt => ?_⟩
  · have := hl.constantAt_lt hij hj
    rw [ne_eq, compare_gt_iff_gt] at hgt
    rw [compare_lt_iff_lt]
    omega
  · have := hl.constantAt_lt hij hj
    rw [ne_eq, compare_lt_iff_lt] at hlt
    rw [compare_gt_iff_gt]
    omega

lemma ListInfo.located (hv : info.column.InRange v) (hne : info.listArray ≠ []) :
    Located (fun i => compare (constantAt info i) v) info.listArray.length
      (findListValue info (info.column.partFuncValue v)) := by
  rw [findListValue, funext (compare_constantAt hv)]
  exact find_spec _ (List.length_pos_iff.mpr hne) (hl.ascending v)

lemma ListInfo.endpoint_le (hbound : info.column.Holds bound) (hne : info.listArray ≠ []) :
    getListArrayIdxForEndpoint info bound left incl ≤ info.listArray.length := by
  cases bound with
  | bot => exact Nat.zero_le _
  | coe v =>
    have hloc := hl.located (show info.column.InRange v from hbound) hne
    dsimp only [getListArrayIdxForEndpoint]
    cases hfind : findListValue info (info.column.partFuncValue v) with
    | ok j =>
      rw [hfind] at hloc
      have hj : j < info.listArray.length := hloc.1
      dsimp only
      split_ifs <;> omega
    | error j =>
      rw [hfind] at hloc
      exact hloc.1

lemma ListInfo.constantAt_cmp (hv : info.column.InRange v) (hi : i < info.listArray.length) :
    match findListValue info (info.column.partFuncValue v) with
    | .ok j => (i < j ↔ constantAt info i < v) ∧ (j < i ↔ v < constantAt info i)
    | .error j => (i < j ↔ constantAt info i < v) ∧ (j ≤ i ↔ v < constantAt info i) := by
  have hloc := hl.located hv (List.ne_nil_of_length_pos (Nat.zero_lt_of_lt hi))
  cases hfind : findListValue info (info.column.partFuncValue v) with
  | ok j =>
    rw [hfind] at hloc
    obtain ⟨hj, heq⟩ := hloc
    rw [compare_eq_iff_eq] at heq
    have hij : j < i → constantAt info j < constantAt info i := fun h => hl.constantAt_lt h hi
    have hji : i < j → constantAt info i < constantAt info j := fun h => hl.constantAt_lt h hj
    have hii : i = j → constantAt info i = constantAt info j := fun h => by rw [h]
    omega
  | error j =>
    rw [hfind] at hloc
    obtain ⟨hj, hbefore, hafter⟩ := hloc
    have hlt : i < j → constantAt info i < v := fun h => compare_lt_iff_lt.mp (hbefore i h)
    have hgt : j ≤ i → v < constantAt info i := fun h => compare_gt_iff_gt.mp (hafter i h hi)
    omega

lemma ListInfo.left_le_iff (hbound : info.column.Holds bound) (hi : i < info.listArray.length) :
    getListArrayIdxForEndpoint info bound true incl ≤ i ↔
      Above incl bound (constantAt info i : Int) := by
  cases bound with
  | bot => cases incl <;> simp [getListArrayIdxForEndpoint, Above]
  | coe v =>
    have hcmp := hl.constantAt_cmp (show info.column.InRange v from hbound) hi
    dsimp only [getListArrayIdxForEndpoint]
    split at hcmp <;> cases incl <;> simp [Above, *] <;> omega

lemma ListInfo.lt_right_iff (hbound : info.column.Holds bound) (hi : i < info.listArray.length) :
    i < getListArrayIdxForEndpoint info bound false incl ↔
      Below incl bound (constantAt info i : Int) := by
  cases bound with
  | bot => cases incl <;> simp [getListArrayIdxForEndpoint, Below]
  | coe v =>
    have hcmp := hl.constantAt_cmp (show info.column.InRange v from hbound) hi
    dsimp only [getListArrayIdxForEndpoint]
    split at hcmp <;> cases incl <;> simp [Below, *] <;> omega

lemma ListInfo.partition (hv : info.column.InRange v) :
    (∃ i < info.listArray.length, constantAt info i = v ∧
        getPartitionIdList info (v : Int) = some ((listPartitionIds info).getD i 0)) ∨
      ((∀ i < info.listArray.length, constantAt info i ≠ v) ∧
        getPartitionIdList info (v : Int) = notListed info) := by
  dsimp only [getPartitionIdList]
  split_ifs with hnil
  · exact .inr ⟨by simp [hnil], rfl⟩
  · rcases (hl.located hv hnil).ok_or with ⟨i, hi, heq, hfind⟩ | ⟨hne, i, hfind⟩
    · exact .inl ⟨i, hi, compare_eq_iff_eq.mp heq, by rw [hfind]⟩
    · exact .inr ⟨fun i hi => by simpa using hne i hi, by rw [hfind]⟩

end List

end MariaDB.Partition
