import MariaDB.Partition.Mapping

/-!
# What pruning keeps

The partitions that the iterator returns are compared with those that hold the rows of the
interval.
-/
namespace MariaDB.Partition

open IntervalFlags

variable {info : PartitionInfo} {minValue maxValue : List UInt8} {flags : IntervalFlags}
  {it : PartitionIterator} {p : Nat}

lemma beginsWithNull_iff : beginsWithNull info minValue flags = true ↔
    info.column.realMaybeNull = true ∧ info.hasNullValue = true ∧ flags.noMinRange = false ∧
      flags.nearMin = false ∧ info.column.storeKeyImageToRec minValue = ⊥ := by
  unfold beginsWithNull
  cases hmaybe : info.column.realMaybeNull
  · simp
  · simp [info.column.storeKeyImageToRec_eq_bot_iff hmaybe, and_assoc]

section Range

variable (hr : RangeInfo info)
include hr

lemma RangeInfo.answered_findMaximum (hmax : info.column.IsKeyImage maxValue)
    (hx : info.column.Holds x) (hp : getPartitionIdRange info x = some p)
    (hbelow : flags.noMaxRange = false →
      Below (!flags.nearMax) (info.column.storeKeyImageToRec maxValue) x)
    (hcur : it.cur = it.start) (hstart : it.start ≤ p) :
    Answered info (findMaximum info maxValue flags it) p := by
  unfold findMaximum maxEndpointVal getEndpoint Answered getNext
  simp only [hr.partType]
  by_cases hno : flags.noMaxRange = true
  · rw [if_pos hno]
    exact .inr ⟨rfl, returns_range_iff _ |>.mpr (.inl ⟨hcur ▸ hstart, hr.partition_lt hp⟩)⟩
  · have hlt := hr.lt_right (info.column.holds_storeKeyImageToRec hmax) hx
      (hbelow (by simpa using hno)) hp
    rw [if_neg hno, if_neg (fun h => by omega)]
    exact .inr ⟨rfl, returns_range_iff _ |>.mpr (.inl ⟨hcur ▸ hstart, hlt⟩)⟩

lemma RangeInfo.answered (hmin : info.column.IsKeyImage minValue)
    (hmax : info.column.IsKeyImage maxValue) (hx : info.column.Holds x)
    (hwithin : flags.Within (info.column.storeKeyImageToRec minValue)
      (info.column.storeKeyImageToRec maxValue) x)
    (hp : getPartitionIdRange info x = some p) :
    Answered info (getPartIterForIntervalViaMapping info minValue maxValue flags it) p := by
  obtain ⟨habove, hbelow⟩ := hwithin
  have hnull : beginsWithNull info minValue flags = false := by
    simp [beginsWithNull, hr.hasNullValue]
  unfold getPartIterForIntervalViaMapping
  simp only [hr.partType, reduceCtorEq, false_and, if_false, hnull, Bool.false_eq_true, true_or,
    if_true]
  by_cases hno : flags.noMinRange = true
  · rw [if_pos hno]
    exact hr.answered_findMaximum hmax hx hp hbelow rfl (Nat.zero_le p)
  · rw [if_neg hno]
    have habove := habove (by simpa using hno)
    have hle := hr.left_le (info.column.holds_storeKeyImageToRec hmin) hx habove hp
    have hendpoint : getEndpoint info = getPartitionIdRangeForEndpoint info := by
      unfold getEndpoint
      rw [hr.partType]
    have hmaxval : maxEndpointVal info = info.numParts := by
      unfold maxEndpointVal
      rw [hr.partType]
    rw [hendpoint, hmaxval]
    split_ifs with hsingle hend
    · -- the interval is NULL itself, and NULL is in the first partition
      obtain ⟨hcan, hbot⟩ := hsingle
      simp only [canMatchMultipleValues, any, Bool.or_eq_false_iff,
        decide_eq_false_iff_not, not_not] at hcan
      obtain ⟨⟨⟨⟨-, hnoMax⟩, -⟩, hnearMax⟩, htake⟩ := hcan
      have hbelow := hbelow hnoMax
      rw [hnearMax, (info.column.eq_bot_iff_of_take htake).mp hbot] at hbelow
      obtain rfl : x = ⊥ := by simpa [Below] using hbelow
      obtain rfl : 0 = p := by simpa [getPartitionIdRange] using hp
      refine .inr ⟨rfl, ?_⟩
      unfold getNext
      rw [hr.partType]
      exact returns_range_iff _ |>.mpr (.inr ⟨rfl, rfl⟩)
    · have := hr.partition_lt hp
      omega
    · exact hr.answered_findMaximum hmax hx hp hbelow rfl hle

end Range

section List

variable (info minValue maxValue flags) in
def WithinAt (i : Nat) : Prop :=
  i < info.listArray.length ∧
    flags.Within (info.column.storeKeyImageToRec minValue)
      (info.column.storeKeyImageToRec maxValue) (constantAt info i : Int)

variable (info minValue maxValue flags) in
def IsNull : Prop :=
  beginsWithNull info minValue flags = true ∧ flags.noMaxRange = false ∧ maxValue.headD 0 ≠ 0

variable (info minValue maxValue flags) in
def Shown (p : Nat) : Prop :=
  (∃ i, WithinAt info minValue maxValue flags i ∧ (listPartitionIds info).getD i 0 = p) ∨
    (beginsWithNull info minValue flags = true ∧ p = info.hasNullPartId) ∨
    (info.definedMaxValue = true ∧ p = info.defaultPartitionId ∧
      ((canMatchMultipleValues info minValue maxValue flags = true ∧
          ¬ IsNull info minValue maxValue flags) ∨
        (beginsWithNull info minValue flags = false ∧
          ∀ i, ¬ WithinAt info minValue maxValue flags i)))

variable (hl : ListInfo info)

include hl in
lemma ListInfo.hasDefaultPartition_eq : hasDefaultPartition info = info.definedMaxValue := by
  simp [hasDefaultPartition, hl.partType]

include hl in
lemma ListInfo.answered_one_iff :
    Answered info (1, it) p ↔
      (∃ i, it.cur ≤ i ∧ i < it.stop ∧ (listPartitionIds info).getD i 0 = p) ∨
        (it.retNullPart = true ∧ p = info.hasNullPartId) ∨
        (it.retDefaultPart = true ∧ p = info.defaultPartitionId) := by
  unfold Answered getNext
  rw [or_iff_right (by simp), and_iff_right_of_imp fun _ => rfl, hl.partType, returns_list_iff]

include hl in
/-- At the exit `not_found` only the DEFAULT partition is left. -/
lemma ListInfo.answered_notFound (it : PartitionIterator) (hnull : it.retNullPart = false)
    (hend : it.stop ≤ it.cur) :
    Answered info (notFound info it) p ↔
      info.definedMaxValue = true ∧ p = info.defaultPartitionId := by
  unfold notFound
  rw [hl.hasDefaultPartition_eq]
  split_ifs with hmax
  · rw [hl.answered_one_iff]
    constructor
    · rintro (⟨i, h, h', -⟩ | ⟨h, -⟩ | ⟨-, h⟩)
      · dsimp only at h h'
        omega
      · simp [hnull] at h
      · exact ⟨hmax, h⟩
    · rintro ⟨-, h⟩
      exact .inr (.inr ⟨rfl, h⟩)
  · simp [Answered, hmax]

section

variable (hcur : it.cur = it.start) (hlt : it.start < info.listArray.length)
  (hstart : ∀ i < info.listArray.length, it.start ≤ i ↔ (flags.noMinRange = false →
    Above (!flags.nearMin) (info.column.storeKeyImageToRec minValue) (constantAt info i : Int)))

include hl hcur hlt hstart in
/-- The right end of the interval, after its left end has been found. -/
lemma ListInfo.answered_findMaximum_iff (hmax : info.column.IsKeyImage maxValue)
    (hdefault : it.retDefaultPart = true → info.definedMaxValue = true) :
    Answered info (findMaximum info maxValue flags it) p ↔
      (∃ i, WithinAt info minValue maxValue flags i ∧ (listPartitionIds info).getD i 0 = p) ∨
        (it.retNullPart = true ∧ p = info.hasNullPartId) ∨
        (info.definedMaxValue = true ∧ p = info.defaultPartitionId ∧
          (it.retDefaultPart = true ∨
            (it.retNullPart = false ∧ ∀ i, ¬ WithinAt info minValue maxValue flags i))) := by
  -- the edge of the right end, with the constants before it
  obtain ⟨stop, hfind, hle, hstop⟩ : ∃ stop,
      findMaximum info maxValue flags it =
        (if flags.noMaxRange = false ∧ stop ≤ it.start ∧ it.retNullPart = false then
          notFound info { it with stop } else (1, { it with stop })) ∧
      stop ≤ info.listArray.length ∧
      ∀ i < info.listArray.length, i < stop ↔ (flags.noMaxRange = false →
        Below (!flags.nearMax) (info.column.storeKeyImageToRec maxValue)
          (constantAt info i : Int)) := by
    have hholds := info.column.holds_storeKeyImageToRec hmax
    unfold findMaximum maxEndpointVal getEndpoint
    simp only [hl.partType]
    cases hno : flags.noMaxRange with
    | true => exact ⟨info.listArray.length, by simp, le_refl _, by simp⟩
    | false =>
      refine ⟨getListArrayIdxForEndpoint info (info.column.storeKeyImageToRec maxValue) false
        (!flags.nearMax), by simp, hl.endpoint_le hholds (List.ne_nil_of_length_pos (by omega)),
        fun i hi => ?_⟩
      rw [hl.lt_right_iff hholds hi]
      simp
  have hwithin : ∀ i, WithinAt info minValue maxValue flags i ↔ it.start ≤ i ∧ i < stop := by
    intro i
    constructor
    · rintro ⟨hi, habove, hbelow⟩
      exact ⟨(hstart i hi).mpr habove, (hstop i hi).mpr hbelow⟩
    · rintro ⟨hs, he⟩
      have hi := he.trans_le hle
      exact ⟨hi, (hstart i hi).mp hs, (hstop i hi).mp he⟩
  have hempty : (∀ i, ¬ WithinAt info minValue maxValue flags i) ↔
      flags.noMaxRange = false ∧ stop ≤ it.start := by
    constructor
    · intro h
      have hge : stop ≤ it.start := by
        by_contra hcon
        exact h it.start ((hwithin _).mpr ⟨le_refl _, by omega⟩)
      refine ⟨?_, hge⟩
      by_contra hno
      have := (hstop it.start hlt).mpr fun h => absurd h hno
      omega
    · rintro ⟨-, hge⟩ i hi
      have := (hwithin i).mp hi
      omega
  rw [hfind]
  split_ifs with hcond
  · obtain ⟨hno, hge, hnull⟩ := hcond
    have hnone := hempty.mpr ⟨hno, hge⟩
    rw [hl.answered_notFound { it with stop } hnull (by dsimp only; omega)]
    constructor
    · rintro ⟨hdef, rfl⟩
      exact .inr (.inr ⟨hdef, rfl, .inr ⟨hnull, hnone⟩⟩)
    · rintro (⟨i, hi, -⟩ | ⟨h, -⟩ | ⟨hdef, rfl, -⟩)
      · exact absurd hi (hnone i)
      · simp [hnull] at h
      · exact ⟨hdef, rfl⟩
  · rw [hl.answered_one_iff]
    simp only [hcur]
    refine or_congr ?_ (or_congr_right ?_)
    · exact exists_congr fun i => by rw [hwithin, and_assoc]
    · constructor
      · rintro ⟨h, rfl⟩
        exact ⟨hdefault h, rfl, .inl h⟩
      · rintro ⟨-, rfl, h | ⟨hnull, hnone⟩⟩
        · exact ⟨h, rfl⟩
        · obtain ⟨hno, hge⟩ := hempty.mp hnone
          exact absurd ⟨hno, hge, hnull⟩ hcond

/-- No constant is in an interval that ends with NULL. -/
lemma not_withinAt_of_bot (minValue : List UInt8) (hno : flags.noMaxRange = false)
    (hbot : info.column.storeKeyImageToRec maxValue = ⊥) (i : Nat) :
    ¬ WithinAt info minValue maxValue flags i := by
  rintro ⟨-, -, hbelow⟩
  have hbelow := hbelow hno
  rw [hbot] at hbelow
  cases hnear : flags.nearMax <;> simp [Below, hnear] at hbelow

include hl hcur hlt hstart in
/-- The right end of the interval, with the flags as the first half sets them. -/
lemma ListInfo.answered_rest_iff (hmax : info.column.IsKeyImage maxValue)
    (hnull : beginsWithNull info minValue flags = retNull)
    (hnotNull : ¬ IsNull info minValue maxValue flags) (hretNull : it.retNullPart = retNull)
    (hretDefault : it.retDefaultPart =
      (canMatchMultipleValues info minValue maxValue flags && hasDefaultPartition info)) :
    Answered info (findMaximum info maxValue flags it) p ↔
      Shown info minValue maxValue flags p := by
  rw [hl.hasDefaultPartition_eq] at hretDefault
  rw [hl.answered_findMaximum_iff hcur hlt hstart hmax
    (fun h => (Bool.and_eq_true_iff.mp (hretDefault ▸ h)).2)]
  unfold Shown
  refine or_congr_right (or_congr (by rw [hretNull, hnull]) (and_congr_right fun hdef => ?_))
  rw [hretDefault, hdef, Bool.and_true, hretNull, hnull]
  simp [hnotNull]

end

include hl in
/-- What the function returns. An interval whose left end is behind all constants leaves the
end of the iterator as it was. -/
lemma ListInfo.answered_iff_shown (it : PartitionIterator) (p : Nat)
    (hmin : info.column.IsKeyImage minValue)
    (hmax : info.column.IsKeyImage maxValue) (hne : info.listArray ≠ []) :
    (Answered info (getPartIterForIntervalViaMapping info minValue maxValue flags it) p ↔
        Shown info minValue maxValue flags p) ∨
      (flags.noMinRange = false ∧ beginsWithNull info minValue flags = false ∧
        (∀ i, ¬ WithinAt info minValue maxValue flags i) ∧
        (info.definedMaxValue = true → p = info.defaultPartitionId →
          Answered info (getPartIterForIntervalViaMapping info minValue maxValue flags it) p)) := by
  have hpos : 0 < info.listArray.length := List.length_pos_iff.mpr hne
  have hholds := info.column.holds_storeKeyImageToRec hmin
  unfold getPartIterForIntervalViaMapping
  rw [if_neg (fun h => hne h.2)]
  dsimp only
  by_cases hnull : beginsWithNull info minValue flags = true
  · left
    obtain ⟨hmaybe, -, hnoMin, hnearMin, hbot⟩ := beginsWithNull_iff.mp hnull
    rw [if_pos hnull]
    split_ifs with hself
    · -- NULL itself
      have hmaxbot := (info.column.storeKeyImageToRec_eq_bot_iff hmaybe).mpr hself.2
      have hnone := not_withinAt_of_bot minValue hself.1 hmaxbot
      rw [hl.answered_one_iff]
      constructor
      · rintro (⟨i, -, h, -⟩ | ⟨-, h⟩ | ⟨h, -⟩)
        · exact absurd h (Nat.not_lt_zero i)
        · exact .inr (.inl ⟨hnull, h⟩)
        · exact absurd h Bool.false_ne_true
      · rintro (⟨i, hi, -⟩ | ⟨-, h⟩ | ⟨-, -, ⟨-, h⟩ | ⟨h, -⟩⟩)
        · exact absurd hi (hnone i)
        · exact .inr (.inl ⟨rfl, h⟩)
        · exact absurd ⟨hnull, hself⟩ h
        · exact absurd (hnull.symm.trans h) (by decide)
    · exact hl.answered_rest_iff rfl hpos (fun i hi => by simp [hnoMin, hnearMin, hbot, Above])
        hmax hnull (fun h => hself h.2) rfl rfl
  · have hnull' : beginsWithNull info minValue flags = false := by simpa using hnull
    have hnotNull : ¬ IsNull info minValue maxValue flags := fun h => hnull h.1
    rw [if_neg hnull]
    by_cases hnoMin : flags.noMinRange = true
    · left
      rw [if_pos hnoMin]
      exact hl.answered_rest_iff rfl hpos (fun i hi => by simp [hnoMin]) hmax hnull' hnotNull
        rfl rfl
    · have hnoMin' : flags.noMinRange = false := by simpa using hnoMin
      have hendpoint : getEndpoint info = getListArrayIdxForEndpoint info := by
        unfold getEndpoint
        rw [hl.partType]
      have hmaxval : maxEndpointVal info = info.listArray.length := by
        unfold maxEndpointVal
        rw [hl.partType]
      rw [if_neg hnoMin, hendpoint, hmaxval]
      set start := getListArrayIdxForEndpoint info (info.column.storeKeyImageToRec minValue) true
        (!flags.nearMin) with hstart
      have habove : ∀ i < info.listArray.length, start ≤ i ↔ (flags.noMinRange = false →
          Above (!flags.nearMin) (info.column.storeKeyImageToRec minValue)
            (constantAt info i : Int)) := fun i hi => by
        rw [hstart, hl.left_le_iff hholds hi]
        simp [hnoMin']
      split_ifs with hsingle hrange hend
      · -- NULL itself, with a partition for it: that is the first case of the function
        exfalso
        obtain ⟨hcan, hbot⟩ := hsingle
        have hhas : info.hasNullValue = true := hrange.resolve_left (by simp [hl.partType])
        have hmaybe : info.column.realMaybeNull = true := by
          rw [hbot] at hholds
          exact hholds
        simp only [canMatchMultipleValues, any, Bool.or_eq_false_iff] at hcan
        exact hnull (beginsWithNull_iff.mpr ⟨hmaybe, hhas, hnoMin', hcan.1.1.2, hbot⟩)
      · -- NULL itself, which only the DEFAULT partition can have
        left
        obtain ⟨hcan, hbot⟩ := hsingle
        have hcan' := hcan
        simp only [canMatchMultipleValues, any, Bool.or_eq_false_iff,
          decide_eq_false_iff_not, not_not] at hcan'
        have hmaxbot := (info.column.eq_bot_iff_of_take hcan'.2).mp hbot
        have hnone := not_withinAt_of_bot minValue hcan'.1.1.1.2 hmaxbot
        rw [hl.answered_notFound _ rfl (le_refl 0)]
        constructor
        · rintro ⟨hdef, rfl⟩
          exact .inr (.inr ⟨hdef, rfl, .inr ⟨hnull', hnone⟩⟩)
        · rintro (⟨i, hi, -⟩ | ⟨h, -⟩ | ⟨hdef, rfl, -⟩)
          · exact absurd hi (hnone i)
          · exact absurd h hnull
          · exact ⟨hdef, rfl⟩
      · -- all constants are below the left end
        right
        refine ⟨hnoMin', hnull', ?_, fun hdef hp => ?_⟩
        · rintro i ⟨hi, hab, -⟩
          have := (habove i hi).mpr hab
          omega
        · unfold notFound
          rw [if_pos (hl.hasDefaultPartition_eq.trans hdef), hl.answered_one_iff]
          exact .inr (.inr ⟨rfl, hp⟩)
      · left
        have hle : start ≤ info.listArray.length := hl.endpoint_le hholds hne
        exact hl.answered_rest_iff rfl (lt_of_le_of_ne hle hend) habove hmax hnull' hnotNull rfl rfl

end List

section Kept

variable (info minValue maxValue flags)

def KeepsRows (it : PartitionIterator) : Prop :=
  ∀ (x : WithBot Int) (p : Nat), info.column.Holds x →
    flags.Within (info.column.storeKeyImageToRec minValue)
      (info.column.storeKeyImageToRec maxValue) x →
    getPartitionId info x = some p →
    Answered info (getPartIterForIntervalViaMapping info minValue maxValue flags it) p

/-- If a nullable column has the ends of the interval differ in the most significant byte
alone, then the DEFAULT partition has no row of the interval, or no list constant lies in the
interval. -/
def DefaultKept : Prop :=
  info.partType = .list → info.definedMaxValue = true → info.column.realMaybeNull = true →
    flags.any = false →
    minValue.take info.column.packLength = maxValue.take info.column.packLength →
    ∀ a b : Int, info.column.storeKeyImageToRec minValue = a →
      info.column.storeKeyImageToRec maxValue = b → a ≠ b →
      (∀ i < info.listArray.length, ¬ (a ≤ constantAt info i ∧ constantAt info i ≤ b)) ∨
        ∀ v, a ≤ v → v ≤ b → ∃ i < info.listArray.length, constantAt info i = v

/-- If an interval without a lower end has NULL, then the partition of NULL has a list
constant in the interval too, or there are no constants but NULL. -/
def NullKept : Prop :=
  info.partType = .list → info.hasNullValue = true → info.column.realMaybeNull = true →
    flags.noMinRange = true →
    flags.Within (info.column.storeKeyImageToRec minValue)
      (info.column.storeKeyImageToRec maxValue) ⊥ →
    info.listArray = [] ∨ ∃ i, WithinAt info minValue maxValue flags i ∧
      (listPartitionIds info).getD i 0 = info.hasNullPartId

variable {info minValue maxValue flags}

lemma listPartitionIds_getD_mem (hi : i < info.listArray.length) :
    ∃ e ∈ info.listArray, (listPartitionIds info).getD i 0 = e.partitionId :=
  ⟨info.listArray[i], List.getElem_mem hi, by
    simp [listPartitionIds, List.getElem?_eq_getElem hi]⟩

lemma canMatch_eq_false :
    canMatchMultipleValues info minValue maxValue flags = false ↔
      flags.any = false ∧
        minValue.take info.column.packLength = maxValue.take info.column.packLength := by
  simp [canMatchMultipleValues]

lemma IntervalFlags.within_iff (h : flags.any = false) :
    flags.Within lo hi x ↔ lo ≤ x ∧ x ≤ hi := by
  obtain ⟨h1, h2, h3, h4⟩ := any_eq_false.mp h
  simp [IntervalFlags.Within, h1, h2, h3, h4, Above, Below]

section List

variable (hl : ListInfo info)
include hl

lemma ListInfo.shown_bot (hx : info.column.realMaybeNull = true) (hne : info.listArray ≠ [])
    (hwithin : flags.Within (info.column.storeKeyImageToRec minValue)
      (info.column.storeKeyImageToRec maxValue) ⊥)
    (hp : getPartitionIdList info ⊥ = some p)
    (hnull : NullKept info minValue maxValue flags) : Shown info minValue maxValue flags p := by
  dsimp only [getPartitionIdList] at hp
  split_ifs at hp with hhas
  · cases hp
    cases hnoMin : flags.noMinRange with
    | true =>
      obtain ⟨i, hi, heq⟩ := (hnull hl.partType hhas hx hnoMin hwithin).resolve_left hne
      exact .inl ⟨i, hi, heq⟩
    | false =>
      have habove := hwithin.1 hnoMin
      cases hnear : flags.nearMin with
      | true => simp [Above, hnear] at habove
      | false =>
        have hbot : info.column.storeKeyImageToRec minValue = ⊥ := by
          simpa [Above, hnear] using habove
        exact .inr (.inl ⟨beginsWithNull_iff.mpr ⟨hx, hhas, hnoMin, hnear, hbot⟩, rfl⟩)
  · unfold notListed at hp
    split_ifs at hp with hdef
    cases hp
    have hbegin : beginsWithNull info minValue flags = false := by simp [beginsWithNull, hhas]
    refine .inr (.inr ⟨hdef, rfl, ?_⟩)
    cases hcan : canMatchMultipleValues info minValue maxValue flags with
    | true => exact .inl ⟨rfl, fun h => absurd (hbegin.symm.trans h.1) (by decide)⟩
    | false =>
      obtain ⟨hany, htake⟩ := canMatch_eq_false.mp hcan
      have hbot : info.column.storeKeyImageToRec minValue = ⊥ := by
        simpa using (within_iff hany |>.mp hwithin).1
      exact .inr ⟨hbegin, not_withinAt_of_bot minValue (any_eq_false.mp hany).2.1
        ((info.column.eq_bot_iff_of_take htake).mp hbot)⟩

lemma ListInfo.shown_default (hdef : info.definedMaxValue = true)
    (hnot : ∀ i < info.listArray.length, constantAt info i ≠ v)
    (hwithin : flags.Within (info.column.storeKeyImageToRec minValue)
      (info.column.storeKeyImageToRec maxValue) (v : Int))
    (hdefault : DefaultKept info minValue maxValue flags) :
    Shown info minValue maxValue flags info.defaultPartitionId := by
  refine .inr (.inr ⟨hdef, rfl, ?_⟩)
  cases hcan : canMatchMultipleValues info minValue maxValue flags with
  | true =>
    refine .inl ⟨rfl, fun ⟨hbegin, hno, hbyte⟩ => ?_⟩
    have hmaybe := (beginsWithNull_iff.mp hbegin).1
    have hbelow := hwithin.2 hno
    rw [(info.column.storeKeyImageToRec_eq_bot_iff hmaybe).mpr hbyte] at hbelow
    cases hnear : flags.nearMax <;> simp [Below, hnear] at hbelow
  | false =>
    obtain ⟨hany, htake⟩ := canMatch_eq_false.mp hcan
    obtain ⟨hlo, hhi⟩ := (within_iff hany).mp hwithin
    obtain ⟨b, hb⟩ : ∃ b : Int, info.column.storeKeyImageToRec maxValue = b :=
      WithBot.ne_bot_iff_exists.mp (fun h => by simp [h] at hhi) |>.imp fun _ h => h.symm
    obtain ⟨a, ha⟩ : ∃ a : Int, info.column.storeKeyImageToRec minValue = a :=
      WithBot.ne_bot_iff_exists.mp (fun h => by
        have := (info.column.eq_bot_iff_of_take htake).mp h
        simp [hb] at this) |>.imp fun _ h => h.symm
    have hav : a ≤ v := by simpa [ha] using hlo
    have hvb : v ≤ b := by simpa [hb] using hhi
    have hbegin : beginsWithNull info minValue flags = false := by
      by_contra hbegin
      simp [beginsWithNull_iff, ha] at hbegin
    refine .inr ⟨hbegin, fun i hi => ?_⟩
    have hwi := (within_iff hany).mp hi.2
    have hai : a ≤ constantAt info i := by simpa [ha] using hwi.1
    have hib : constantAt info i ≤ b := by simpa [hb] using hwi.2
    have hsingle : a = b → False := fun h => hnot i hi.1 (by omega)
    cases hmaybe : info.column.realMaybeNull with
    | false =>
      have := info.column.eq_of_take hmaybe htake
      rw [ha, hb] at this
      exact hsingle (WithBot.coe_injective this)
    | true =>
      rcases hdefault hl.partType hdef hmaybe hany htake a b ha hb hsingle with h | h
      · exact h i hi.1 ⟨hai, hib⟩
      · obtain ⟨j, hj, heq⟩ := h v hav hvb
        exact hnot j hj heq

section

variable (hmin : info.column.IsKeyImage minValue) (hmax : info.column.IsKeyImage maxValue)
include hmin hmax

lemma ListInfo.keepsRows (hdefault : DefaultKept info minValue maxValue flags)
    (hnull : NullKept info minValue maxValue flags) :
    KeepsRows info minValue maxValue flags it := by
  intro x p hx hwithin hp
  rw [getPartitionId, hl.partType] at hp
  dsimp only at hp
  by_cases hne : info.listArray = []
  · exact .inl (by rw [getPartIterForIntervalViaMapping, if_pos ⟨hl.partType, hne⟩])
  have hshown : Shown info minValue maxValue flags p := by
    cases x with
    | bot => exact hl.shown_bot hx hne hwithin hp hnull
    | coe v =>
      rcases hl.partition (show info.column.InRange v from hx) with
        ⟨i, hi, rfl, h⟩ | ⟨hnot, h⟩
      · obtain rfl := Option.some.inj (h.symm.trans hp)
        exact .inl ⟨i, ⟨hi, hwithin⟩, rfl⟩
      · rw [h, notListed] at hp
        split_ifs at hp with hdef
        cases hp
        exact hl.shown_default hdef hnot hwithin hdefault
  rcases hl.answered_iff_shown it p hmin hmax hne with h | ⟨-, hbegin, hnone, h⟩
  · exact h.mpr hshown
  · rcases hshown with ⟨i, hi, -⟩ | ⟨h', -⟩ | ⟨hdef, hp, -⟩
    · exact absurd hi (hnone i)
    · exact absurd (hbegin.symm.trans h') (by decide)
    · exact h hdef hp

lemma ListInfo.defaultKept (h : KeepsRows info minValue maxValue flags it) :
    DefaultKept info minValue maxValue flags := by
  intro _ hdef hmaybe hany htake a b ha hb hab
  by_contra hcon
  push Not at hcon
  obtain ⟨⟨i, hi, hai, hib⟩, v, hav, hvb, hnot⟩ := hcon
  have hwi : WithinAt info minValue maxValue flags i :=
    ⟨hi, (within_iff hany).mpr (by simp [ha, hb, hai, hib])⟩
  have hrow : info.column.Holds (v : Int) := by
    have hra := info.column.holds_storeKeyImageToRec hmin
    have hrb := info.column.holds_storeKeyImageToRec hmax
    rw [ha] at hra
    rw [hb] at hrb
    change info.column.InRange _ at hra hrb ⊢
    unfold IntColumn.InRange at *
    split_ifs at * <;> omega
  have hp : getPartitionId info (v : Int) = some info.defaultPartitionId := by
    rw [getPartitionId, hl.partType]
    rcases hl.partition (show info.column.InRange v from hrow) with ⟨j, hj, heq, -⟩ | ⟨-, h⟩
    · exact absurd heq (hnot j hj)
    · exact h.trans (if_pos hdef)
  have hans := h _ _ hrow ((within_iff hany).mpr (by simp [ha, hb, hav, hvb])) hp
  have hne : info.listArray ≠ [] := List.ne_nil_of_length_pos (by omega)
  rcases hl.answered_iff_shown it info.defaultPartitionId hmin hmax hne with
    hiff | ⟨-, -, hnone, -⟩
  · rcases hiff.mp hans with ⟨j, hj, heq⟩ | ⟨hbegin, -⟩ | ⟨-, -, ⟨hcan, -⟩ | ⟨-, hnone⟩⟩
    · obtain ⟨e, he, hid⟩ := listPartitionIds_getD_mem hj.1
      exact hl.entry_ne_default hdef e he (hid.symm.trans heq)
    · simp [beginsWithNull_iff, ha] at hbegin
    · exact absurd (hcan.symm.trans (canMatch_eq_false.mpr ⟨hany, htake⟩)) (by decide)
    · exact hnone i hwi
  · exact hnone i hwi

lemma ListInfo.nullKept (h : KeepsRows info minValue maxValue flags it) :
    NullKept info minValue maxValue flags := by
  intro _ hhas hmaybe hnoMin hwithin
  by_cases hne : info.listArray = []
  · exact .inl hne
  right
  have hp : getPartitionId info ⊥ = some info.hasNullPartId := by
    rw [getPartitionId, hl.partType]
    exact if_pos hhas
  have hans := h ⊥ _ hmaybe hwithin hp
  rcases hl.answered_iff_shown it info.hasNullPartId hmin hmax hne with hiff | ⟨hno, -⟩
  · rcases hiff.mp hans with hlisted | ⟨hbegin, -⟩ | ⟨hdef, heq, -⟩
    · exact hlisted
    · simp [beginsWithNull, hnoMin] at hbegin
    · exact absurd heq (hl.null_ne_default hdef hhas)
  · exact absurd (hnoMin.symm.trans hno) (by decide)

end

end List

/-- The partitioning is one that `check_range_constants()` or `check_list_constants()`
accepts. -/
def Accepted (c : IntColumn) (info : PartitionInfo) : Prop :=
  (∃ d, checkRangeConstants c d = some info) ∨ ∃ parts, checkListConstants c parts = some info

/-- Pruning keeps all rows of an interval unless it loses the DEFAULT partition or the
partition of NULL. -/
theorem keepsRows_iff {c : IntColumn} (h : Accepted c info) (hmin : c.IsKeyImage minValue)
    (hmax : c.IsKeyImage maxValue) :
    KeepsRows info minValue maxValue flags it ↔
      DefaultKept info minValue maxValue flags ∧ NullKept info minValue maxValue flags := by
  rcases h with ⟨d, h⟩ | ⟨parts, h⟩
  · obtain ⟨rfl, hr⟩ := checkRangeConstants_spec h
    have hlist : info.partType ≠ .list := by simp [hr.partType]
    refine iff_of_true (fun x p hx hwithin hp => ?_) ⟨fun h => absurd h hlist,
      fun h => absurd h hlist⟩
    rw [getPartitionId, hr.partType] at hp
    exact hr.answered hmin hmax hx hwithin hp
  · obtain ⟨rfl, hl⟩ := checkListConstants_spec h
    exact ⟨fun h => ⟨hl.defaultKept hmin hmax h, hl.nullKept hmin hmax h⟩,
      fun ⟨hdefault, hnull⟩ => hl.keepsRows hmin hmax hdefault hnull⟩

def tinyintNull : IntColumn := ⟨1, true, false, by decide, by decide⟩

def oneAndDefault : PartitionInfo :=
  { column := tinyintNull, partType := .list, numParts := 2, rangeIntArray := [],
    listArray := [⟨1, 0⟩], definedMaxValue := true, defaultPartitionId := 1,
    hasNullValue := false, hasNullPartId := 0 }

/-- `BETWEEN 1 AND 2` reads only the first partition; the row 2 is in the second. -/
theorem not_keepsRows_oneAndDefault :
    checkListConstants tinyintNull [.values [1] false, .default] = some oneAndDefault ∧
      tinyintNull.IsKeyImage [0, 1] ∧ tinyintNull.IsKeyImage [0, 2] ∧
      getPartitionId oneAndDefault (2 : Int) = some 1 ∧
      ∀ it, ¬ KeepsRows oneAndDefault [0, 1] [0, 2] ⟨false, false, false, false⟩ it := by
  have hp : getPartitionId oneAndDefault (2 : Int) = some 1 := by decide
  refine ⟨by rfl, rfl, rfl, hp, fun it h => ?_⟩
  have hresult : getPartIterForIntervalViaMapping oneAndDefault [0, 1] [0, 2]
      ⟨false, false, false, false⟩ it = (1, ⟨0, 0, 1, false, false, false, false⟩) := by rfl
  have hwithin : IntervalFlags.Within ⟨false, false, false, false⟩
      (tinyintNull.storeKeyImageToRec [0, 1]) (tinyintNull.storeKeyImageToRec [0, 2])
      (2 : Int) :=
    ⟨fun _ => show ((1 : Int) : WithBot Int) ≤ (2 : Int) by decide,
      fun _ => show ((2 : Int) : WithBot Int) ≤ (2 : Int) by decide⟩
  have hans := h (2 : Int) 1 (show -256 ^ 1 ≤ 2 * (2 : Int) ∧ 2 * (2 : Int) < 256 ^ 1 by decide)
    hwithin hp
  rw [hresult] at hans
  rcases hans with hans | ⟨-, hans⟩
  · exact absurd hans (by decide)
  · rcases (returns_list_iff _ _).mp hans with ⟨i, -, hi, hid⟩ | ⟨h, -⟩ | ⟨h, -⟩
    · obtain rfl : i = 0 := Nat.lt_one_iff.mp hi
      exact absurd hid (by decide)
    · exact absurd h (by decide)
    · exact absurd h (by decide)

/-- `BETWEEN 3 AND 4` has no list constant and reads the DEFAULT partition. -/
theorem keepsRows_oneAndDefault :
    KeepsRows oneAndDefault [0, 3] [0, 4] ⟨false, false, false, false⟩
      ⟨0, 0, 2, false, false, false, false⟩ := by
  refine (keepsRows_iff (c := tinyintNull) (.inr ⟨[.values [1] false, .default], by rfl⟩)
    (show List.length [0, 3] = 2 from rfl) (show List.length [0, 4] = 2 from rfl)).mpr
      ⟨?_, fun _ h => absurd h (by decide)⟩
  intro _ _ _ _ _ a b ha hb _
  obtain rfl : 3 = a := WithBot.coe_injective (show ((3 : Int) : WithBot Int) = a from ha)
  refine .inl fun i hi h => ?_
  obtain rfl : i = 0 := Nat.lt_one_iff.mp hi
  exact absurd h.1 (by decide)

end Kept

end MariaDB.Partition
