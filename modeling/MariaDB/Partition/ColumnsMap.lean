import MariaDB.Partition.ColumnsPruning

/-!
# Pruning by an interval of column tuples

`get_part_iter_for_interval_cols_via_map()` keeps the partition of every row of the interval.
-/
namespace MariaDB.Partition

open Library Library.Bisect Std List Ordering

variable {α : Type} {cmp : Nat → α → α → Ordering} {info : ColumnsInfo α} {columns : Columns}

variable (cmp info) in
/-- What the searches rely on in a RANGE COLUMNS partitioned table. -/
structure RangeColumnsInfo : Prop where
  partType : info.partType = .range
  numParts : info.rangeColArray.length = info.numParts
  pos : 0 < info.numParts
  length : ∀ i < info.numParts, (info.rangeColArray.getD i []).length = info.numColumns
  increase : ∀ i j, i < j → j < info.numParts →
    compareColumnValues cmp 0 (info.rangeColArray.getD i []) (info.rangeColArray.getD j []) = .lt

variable (cmp info) in
/-- What the searches rely on in a LIST COLUMNS partitioned table. -/
structure ListColumnsInfo : Prop where
  partType : info.partType = .list
  storeLength : info.storeLength.length = info.numColumns
  storeLength_pos : ∀ length ∈ info.storeLength, 0 < length
  length : ∀ i < info.listColArray.length, (listTuple info i).length = info.numColumns
  increase : ∀ i j, i < j → j < info.listColArray.length →
    compareColumnValues cmp 0 (listTuple info i) (listTuple info j) = .lt
  onlyDefault : info.listColArray = [] → info.definedMaxValue = true ∧ info.numParts = 1

lemma isChain_of_boundsIncrease : ∀ {bounds : List (List (ColumnVal α))},
    boundsIncrease cmp bounds = true →
      bounds.IsChain fun b b' => compareColumnValues cmp 0 b b' = .lt
  | [], _ => .nil
  | [_], _ => .singleton _
  | _ :: _ :: _, h => by
    simp only [boundsIncrease, Bool.and_eq_true, decide_eq_true_eq] at h
    exact .cons_cons h.1 (isChain_of_boundsIncrease h.2)

lemma mem_columnsEntries :
    ∀ {parts : List (ColumnsElement α)} {i : Nat}, e ∈ columnsEntries i parts ↔
      ∃ listVal, (.values listVal, e.2) ∈ parts.zipIdx i ∧ e.1 ∈ listVal := by
  intro parts
  induction parts with
  | nil => simp [columnsEntries]
  | cons part rest ih =>
    intro i
    cases part with
    | default => simp [columnsEntries, zipIdx_cons, ih]
    | values listVal =>
      rw [columnsEntries, mem_append, mem_map, ih, zipIdx_cons]
      constructor
      · rintro (⟨val, hval, rfl⟩ | ⟨l, hmem, hval⟩)
        · exact ⟨listVal, mem_cons_self, hval⟩
        · exact ⟨l, mem_cons_of_mem _ hmem, hval⟩
      · rintro ⟨l, hmem, hval⟩
        rcases mem_cons.mp hmem with heq | hmem
        · cases heq
          exact .inl ⟨e.1, hval, rfl⟩
        · exact .inr ⟨l, hmem, hval⟩

lemma isDefault_of_columnsEntries_eq_nil {parts : List (ColumnsElement α)}
    (hall : parts.all ColumnsElement.hasValues = true) (hnil : columnsEntries 0 parts = []) :
    ∀ part ∈ parts, part.isDefault = true := by
  rintro (_ | listVal) hpart
  · rfl
  · obtain ⟨i, hi⟩ := mem_iff_getElem?.mp hpart
    obtain ⟨val, hval⟩ := exists_mem_of_ne_nil listVal (by
      simpa [ColumnsElement.hasValues] using all_eq_true.mp hall _ hpart)
    have := (mem_columnsEntries (e := (val, i))).mpr
      ⟨listVal, mk_mem_zipIdx_iff_getElem?.mpr hi, hval⟩
    simp [hnil] at this

variable [∀ i, TransCmp (cmp i)]

instance : IsTrans (List (ColumnVal α)) fun b b' => compareColumnValues cmp 0 b b' = .lt :=
  ⟨fun _ _ _ => TransCmp.lt_trans⟩

lemma checkRangeColumns_spec (h : checkRangeColumns cmp columns bounds = some info) :
    RangeColumnsInfo cmp info := by
  unfold checkRangeColumns at h
  split_ifs at h with hok
  obtain ⟨hne, hlen, hinc⟩ := hok
  cases h
  refine ⟨rfl, rfl, length_pos_iff.mpr hne, fun i hi => ?_, fun i j hij hj => ?_⟩
  · dsimp only at hi ⊢
    rw [getD_eq_getElem _ _ hi]
    exact hlen _ (getElem_mem hi)
  · dsimp only at hj ⊢
    rw [getD_eq_getElem _ _ hj, getD_eq_getElem _ _ (hij.trans hj)]
    exact pairwise_iff_getElem.mp (isChain_of_boundsIncrease hinc).pairwise i j _ hj hij

lemma isChain_of_not_hasDuplicateTuple : ∀ {entries : List (List (ColumnVal α) × Nat)},
    entries.IsChain (fun e e' => compareColumnValues cmp 0 e.1 e'.1 ≠ .gt) →
    hasDuplicateTuple cmp entries = false →
      entries.IsChain fun e e' => compareColumnValues cmp 0 e.1 e'.1 = .lt
  | [], _, _ => .nil
  | [_], _, _ => .singleton _
  | e :: e' :: _, hle, h => by
    simp only [hasDuplicateTuple, Bool.or_eq_false_iff, decide_eq_false_iff_not] at h
    have hngt := hle.rel
    have hne := h.1
    rw [compareColumnValues_swap] at hne
    refine .cons_cons ?_ (isChain_of_not_hasDuplicateTuple hle.of_cons h.2)
    cases hcmp : compareColumnValues cmp 0 e.1 e'.1 with
    | lt => rfl
    | eq => simp [hcmp] at hne
    | gt => exact absurd hcmp hngt

lemma checkListColumns_spec (h : checkListColumns cmp columns parts = some info) :
    ListColumnsInfo cmp info := by
  unfold checkListColumns at h
  dsimp only at h
  set entries := (columnsEntries 0 parts).insertionSort
    fun e e' => compareColumnValues cmp 0 e.1 e'.1 ≠ .gt with hentries
  split_ifs at h with hok
  obtain ⟨hne, hdefault, hvalues, hlen, hdup⟩ := hok
  cases h
  have hlt : entries.Pairwise fun e e' => compareColumnValues cmp 0 e.1 e'.1 = .lt := by
    have htotal : Std.Total fun e e' : List (ColumnVal α) × Nat =>
        compareColumnValues cmp 0 e.1 e'.1 ≠ .gt := ⟨fun e e' => by
      rw [compareColumnValues_swap e'.1 e.1]
      cases compareColumnValues cmp 0 e.1 e'.1 <;> simp⟩
    have htrans : IsTrans (List (ColumnVal α) × Nat) fun e e' =>
        compareColumnValues cmp 0 e.1 e'.1 ≠ .gt := ⟨fun e e' e'' h h' => by
      exact isLE_iff_ne_gt.mp (TransCmp.isLE_trans (isLE_iff_ne_gt.mpr h) (isLE_iff_ne_gt.mpr h'))⟩
    have hlt : IsTrans (List (ColumnVal α) × Nat) fun e e' =>
        compareColumnValues cmp 0 e.1 e'.1 = .lt := ⟨fun _ _ _ => TransCmp.lt_trans⟩
    exact (isChain_of_not_hasDuplicateTuple (pairwise_insertionSort _ _).isChain hdup).pairwise
  have htuple : ∀ i (hi : i < entries.length),
      (entries.map Prod.fst).getD i [] = entries[i].1 := fun i hi => by
    simp [getElem?_eq_getElem hi]
  refine ⟨rfl, rfl, columns.pos, fun i hi => ?_, fun i j hij hj => ?_, fun hnil => ?_⟩
  · unfold listTuple
    rw [htuple i hi]
    exact hlen _ (getElem_mem hi)
  · unfold listTuple
    rw [htuple j hj, htuple i (hij.trans hj)]
    exact pairwise_iff_getElem.mp hlt i j _ hj hij
  · dsimp only at hnil ⊢
    have hentries_nil : columnsEntries 0 parts = [] := by
      have hperm := perm_insertionSort
        (fun e e' => compareColumnValues cmp 0 e.1 e'.1 ≠ .gt) (columnsEntries 0 parts)
      rw [← hentries, hnil] at hperm
      exact nil_perm.mp hperm
    have hall := isDefault_of_columnsEntries_eq_nil hvalues hentries_nil
    rw [filter_eq_self.mpr hall] at hdefault
    have hpos := length_pos_iff.mpr hne
    refine ⟨?_, by omega⟩
    obtain ⟨part, hpart⟩ := exists_mem_of_ne_nil parts hne
    exact any_eq_true.mpr ⟨part, hpart, hall part hpart⟩

section Kept

variable (cmp info) in
def WithinCols (minValue maxValue : List (KeyPart α)) (flags : IntervalFlags)
    (row : List (Option α)) : Prop :=
  (flags.noMinRange = false → AboveCols cmp (!flags.nearMin) (storeTupleToRecord minValue) row) ∧
    (flags.noMaxRange = false → BelowCols cmp (!flags.nearMax) (storeTupleToRecord maxValue) row)

variable {row fields : List (Option α)} {p : Nat}

section Range

variable (hr : RangeColumnsInfo cmp info)
include hr

lemma RangeColumnsInfo.isFirst (row : List (Option α)) :
    IsFirst info.numParts (fun i => cmpRecAndTuple cmp 0 row (info.rangeColArray.getD i []) = .lt)
      (getPartitionIdRangeCol cmp info row) := by
  have hpos := hr.pos
  unfold getPartitionIdRangeCol
  have hmono : ∀ i j, i ≤ j → j < info.numParts →
      decide (cmpRecAndTuple cmp 0 row (info.rangeColArray.getD j []) ≠ .lt) = true →
      decide (cmpRecAndTuple cmp 0 row (info.rangeColArray.getD i []) ≠ .lt) = true := by
    intro i j hij hj h
    rcases Nat.eq_or_lt_of_le hij with rfl | hij
    · exact h
    rw [decide_eq_true_eq] at h ⊢
    intro hlt
    rw [cmpRecAndTuple_eq] at h hlt
    have hP := prefixCompare_of_lt
      ((hr.length i (hij.trans hj)).trans (hr.length j hj).symm) (hr.increase i j hij hj)
    exact h (prefixCompare_lt _ hlt (by rw [hP]; decide))
  obtain ⟨hlt, hbelow, habove⟩ := lastStep_spec hmono (Nat.sub_le (info.numParts - 1) 0)
    (Nat.zero_le _) (by omega) (fun i hi => absurd hi (Nat.not_lt_zero i)) (fun h => by omega)
  simp only [decide_eq_true_eq, decide_eq_false_iff_not, not_not] at hmono hbelow habove
  set loc := lastStep (fun i => decide (cmpRecAndTuple cmp 0 row (info.rangeColArray.getD i []) ≠
    .lt)) (info.numParts - 1) 0 (info.numParts - 1)
  simp only [decide_eq_true_eq]
  by_cases hnext : loc ≠ info.numParts - 1 ∧
      cmpRecAndTuple cmp 0 row (info.rangeColArray.getD loc []) ≠ .lt
  · have hlt' := habove (by omega)
    rw [if_pos hnext, if_neg fun h => h.2 hlt']
    exact isFirst_some (by omega) hlt' fun i hi => hmono i loc (by omega) hlt hnext.2
  · rw [if_neg hnext]
    split_ifs with hnone
    · exact isFirst_none fun i hi => hmono i loc (by omega) hlt hnone.2
    · exact isFirst_some hlt (by grind) hbelow

lemma RangeColumnsInfo.first_spec (fields : List (Option α)) (left incl : Bool) :
    let f := fun i => cmpRecAndTuplePrune cmp info.numColumns fields
      (info.rangeColArray.getD i []) left incl
    let loc := first (fun i => decide (f i ≠ .lt)) info.numParts
    (∀ i < loc, f i ≠ .lt) ∧ (loc < info.numParts → f loc = .lt) := by
  intro f
  obtain ⟨-, hbelow, habove⟩ := Bisect.first_spec (fun i => decide (f i ≠ .lt)) info.numParts
    fun i j hij hj h => by
    rcases Nat.eq_or_lt_of_le hij with rfl | hij
    · exact h
    rw [decide_eq_true_eq] at h ⊢
    exact fun hlt => h (prune_lt (hr.length i (hij.trans hj)) (hr.length j hj)
      (hr.increase i j hij hj) (hlt.trans_ne (by decide)))
  exact ⟨fun i hi => by simpa using hbelow i hi, fun h => by simpa using habove h⟩

lemma RangeColumnsInfo.left_le (hrow : row.length = info.numColumns)
    (habove : AboveCols cmp incl fields row) (hp : getPartitionIdRangeCol cmp info row = some p) :
    getPartitionIdColsRangeForEndpoint cmp info fields true incl ≤ p := by
  obtain ⟨-, hlt, -⟩ := (hp ▸ hr.isFirst row).some_spec
  obtain ⟨hbelow, -⟩ := hr.first_spec fields true incl
  dsimp only at hbelow
  unfold getPartitionIdColsRangeForEndpoint
  rw [if_neg (by simp)]
  by_contra hcon
  exact hbelow p (by omega) (prune_left_lt hrow habove hlt)

lemma RangeColumnsInfo.lt_right (hfields : fields.length ≤ info.numColumns)
    (hrow : row.length = info.numColumns) (hbelow : BelowCols cmp incl fields row)
    (hp : getPartitionIdRangeCol cmp info row = some p) :
    p < getPartitionIdColsRangeForEndpoint cmp info fields false incl := by
  obtain ⟨hpn, -, hbefore⟩ := (hp ▸ hr.isFirst row).some_spec
  obtain ⟨-, hloc⟩ := hr.first_spec fields false incl
  dsimp only at hloc
  unfold getPartitionIdColsRangeForEndpoint
  dsimp only
  generalize first _ _ = loc at hloc ⊢
  split_ifs with hlt
  · by_contra hcon
    exact hbefore loc (by omega) (lt_of_prune_right_lt hfields hrow hbelow (hloc hlt.2))
  · have : ¬ loc < info.numParts := fun h => hlt ⟨rfl, h⟩
    omega

end Range

section List

variable (hl : ListColumnsInfo cmp info)
include hl

lemma ListColumnsInfo.ascending (fields : List (Option α)) (left incl : Bool) :
    Ascending (fun i => (cmpRecAndTuplePrune cmp info.numColumns fields (listTuple info i)
      left incl).swap) info.listColArray.length := by
  have hstep : ∀ i j, i < j → j < info.listColArray.length →
      cmpRecAndTuplePrune cmp info.numColumns fields (listTuple info i) left incl ≠ .gt →
      cmpRecAndTuplePrune cmp info.numColumns fields (listTuple info j) left incl = .lt :=
    fun i j hij hj => prune_lt (hl.length i (hij.trans hj)) (hl.length j hj)
      (hl.increase i j hij hj)
  refine ⟨fun i j hij hj h => ?_, fun i j hij hj h => ?_⟩
  · by_contra hcon
    rw [swap_eq_lt] at hcon
    exact h (by rw [hstep i j hij hj hcon]; rfl)
  · rw [ne_eq, swap_eq_lt] at h
    rw [hstep i j hij hj h]
    rfl

lemma ListColumnsInfo.endpoint_located (hne : info.listColArray ≠ [])
    (fields : List (Option α)) (left incl : Bool) :
    let f := fun i => (cmpRecAndTuplePrune cmp info.numColumns fields (listTuple info i)
      left incl).swap
    Located f info.listColArray.length
      (bisectOpen f info.listColArray.length 0 info.listColArray.length) :=
  bisectOpen_spec (hl.ascending fields left incl) (Nat.sub_le _ _)
    (length_pos_iff.mpr hne) (Nat.le_refl _) (fun i hi => absurd hi (Nat.not_lt_zero i))
    fun i hi hin => by omega

lemma ListColumnsInfo.left_le (hq : q < info.listColArray.length)
    (h : cmpRecAndTuplePrune cmp info.numColumns fields (listTuple info q) true incl ≠ .gt) :
    getPartitionIdColsListForEndpoint cmp info fields true incl ≤ q := by
  have hloc : Located _ _ _ := hl.endpoint_located (ne_nil_of_length_pos (Nat.zero_lt_of_lt hq))
    fields true incl
  unfold getPartitionIdColsListForEndpoint
  generalize bisectOpen _ _ _ _ = found at hloc ⊢
  cases found with
  | ok i =>
    dsimp only
    rw [if_neg (by simp)]
    by_contra hcon
    have hlt := (hl.ascending fields true incl).lt q i (by omega) hloc.1 (by simp [hloc.2])
    exact h (swap_eq_lt.mp hlt)
  | error i =>
    by_contra hcon
    exact h (swap_eq_lt.mp (hloc.2.1 q (Nat.not_le.mp hcon)))

lemma ListColumnsInfo.lt_right (hq : q < info.listColArray.length)
    (h : cmpRecAndTuplePrune cmp info.numColumns fields (listTuple info q) false incl = .gt ∨
      (cmpRecAndTuplePrune cmp info.numColumns fields (listTuple info q) false incl = .eq ∧
        incl = true)) : q < getPartitionIdColsListForEndpoint cmp info fields false incl := by
  have hloc : Located _ _ _ := hl.endpoint_located (ne_nil_of_length_pos (Nat.zero_lt_of_lt hq))
    fields false incl
  unfold getPartitionIdColsListForEndpoint
  generalize bisectOpen _ _ _ _ = found at hloc ⊢
  have hnot : cmpRecAndTuplePrune cmp info.numColumns fields (listTuple info q) false incl ≠
      .lt := by
    rcases h with h | ⟨h, -⟩ <;> simp [h]
  cases found with
  | ok i =>
    obtain ⟨hi, heq⟩ := hloc
    have hle : q ≤ i := by
      by_contra hcon
      have hgt := (hl.ascending fields false incl).gt i q (by omega) hq (by simp [heq])
      exact hnot (swap_eq_gt.mp hgt)
    dsimp only
    split_ifs with hincl
    · omega
    · have hexcl : ¬ incl = true := fun h' => hincl ⟨rfl, h', hi⟩
      have hgt := h.resolve_right fun h' => hexcl h'.2
      have hne : q ≠ i := by
        rintro rfl
        rw [swap_eq_eq] at heq
        exact absurd (hgt.symm.trans heq) (by decide)
      omega
  | error i =>
    by_contra hcon
    exact hnot (swap_eq_gt.mp (hloc.2.2 q (Nat.not_lt.mp hcon) hq))

omit [∀ i, TransCmp (cmp i)] hl in
lemma prune_of_length (hfields : fields.length = info.numColumns) (bound : List (ColumnVal α))
    (left : Bool) :
    cmpRecAndTuplePrune cmp info.numColumns fields bound left true =
      cmpRecAndTuple cmp 0 fields bound := by
  unfold cmpRecAndTuplePrune
  cases cmpRecAndTuple cmp 0 fields bound <;> simp [hfields]

lemma ListColumnsInfo.ascending_row (hrow : row.length = info.numColumns) :
    Ascending (fun i => (cmpRecAndTuple cmp 0 row (listTuple info i)).swap)
      info.listColArray.length := by
  simpa only [prune_of_length hrow] using hl.ascending row true true

lemma ListColumnsInfo.partition (hrow : row.length = info.numColumns) :
    (∃ q < info.listColArray.length, cmpRecAndTuple cmp 0 row (listTuple info q) = .eq ∧
        getPartitionIdListCol cmp info row = some ((info.listColArray.map Prod.snd).getD q 0)) ∨
      ((∀ q < info.listColArray.length, cmpRecAndTuple cmp 0 row (listTuple info q) ≠ .eq) ∧
        getPartitionIdListCol cmp info row =
          if info.definedMaxValue then some info.defaultPartitionId else none) := by
  dsimp only [getPartitionIdListCol]
  by_cases hnil : info.listColArray = []
  · exact .inr ⟨by simp [hnil], if_pos hnil⟩
  · rw [if_neg hnil]
    rcases (find_spec _ (length_pos_iff.mpr hnil) (hl.ascending_row hrow)).ok_or with
      ⟨q, hq, heq, hfind⟩ | ⟨hne, i, hfind⟩
    · exact .inl ⟨q, hq, swap_eq_eq.mp heq, by rw [hfind]⟩
    · exact .inr ⟨fun q hq => by simpa using hne q hq, by rw [hfind]⟩

lemma ListColumnsInfo.edges_eq (fields : List (Option α)) (hne : info.listColArray ≠ [])
    (hfields : fields.length = info.numColumns)
    (hnot : ∀ q < info.listColArray.length, cmpRecAndTuple cmp 0 fields (listTuple info q) ≠ .eq) :
    getPartitionIdColsListForEndpoint cmp info fields true true =
      getPartitionIdColsListForEndpoint cmp info fields false true := by
  have hloc := hl.endpoint_located hne fields true true
  unfold getPartitionIdColsListForEndpoint
  simp only [prune_of_length hfields] at hloc ⊢
  generalize bisectOpen _ _ _ _ = found at hloc ⊢
  cases found with
  | ok i => exact absurd (swap_eq_eq.mp hloc.2) (hnot i hloc.1)
  | error i => rfl

end List

variable [DecidableEq α] {minValue maxValue : List (KeyPart α)} {flags : IntervalFlags}
  {it : PartitionIterator}

variable (info) in
/-- The iterator returns `p`, or all partitions match because the only one is the DEFAULT of a
LIST COLUMNS table. -/
def AnsweredCols (result : Int × PartitionIterator) (p : Nat) : Prop :=
  (result.1 = -1 ∧ info.partType = .list ∧ info.definedMaxValue = true ∧ info.numParts = 1) ∨
    (result.1 = 1 ∧ Returns (getNextCols info) result.2 p)

variable (hmax : maxValue.length ≤ info.numColumns) (hrow : row.length = info.numColumns)
  (hwithin : WithinCols cmp minValue maxValue flags row)

include hmax hrow hwithin in
lemma RangeColumnsInfo.answered (hr : RangeColumnsInfo cmp info)
    (hp : getPartitionIdRangeCol cmp info row = some p) :
    AnsweredCols info (getPartIterForIntervalColsViaMap cmp info minValue maxValue flags it) p := by
  have hpn := (hp ▸ hr.isFirst row).some_spec.1
  have hstart : (if flags.noMinRange = true then 0 else getPartitionIdColsRangeForEndpoint cmp
      info (storeTupleToRecord minValue) true (!flags.nearMin)) ≤ p := by
    split_ifs with hno
    · exact Nat.zero_le p
    · exact hr.left_le hrow (hwithin.1 (by simpa using hno)) hp
  have hstop : p < (if flags.noMaxRange = true then info.numParts else
      getPartitionIdColsRangeForEndpoint cmp info (storeTupleToRecord maxValue) false
        (!flags.nearMax)) := by
    split_ifs with hno
    · exact hpn
    · exact hr.lt_right (by simpa [storeTupleToRecord] using hmax) hrow
        (hwithin.2 (by simpa using hno)) hp
  unfold getPartIterForIntervalColsViaMap getColEndpoint
  simp only [hr.partType, reduceCtorEq, beq_iff_eq, Bool.and_eq_true, false_and, if_false,
    and_false]
  rw [if_neg (by omega)]
  refine .inr ⟨rfl, ?_⟩
  unfold getNextCols
  simp only [hr.partType]
  exact (returns_range_iff _).mpr (.inl ⟨hstart, hstop⟩)

omit [DecidableEq α] in
lemma length_of_keyLength (hpos : ∀ length ∈ info.storeLength, 0 < length)
    (hlen : minValue.length ≤ info.storeLength.length)
    (h : keyLength info minValue = info.storeLength.sum) :
    minValue.length = info.storeLength.length := by
  by_contra hne
  have hdrop : 0 < (info.storeLength.drop minValue.length).sum := by
    refine sum_pos _ (fun x hx => hpos x (mem_of_mem_drop hx)) ?_
    exact ne_nil_of_length_pos (by rw [length_drop]; omega)
  have hsum := sum_take_add_sum_drop info.storeLength minValue.length
  unfold keyLength at h
  omega

lemma canMatchMultipleTuples_eq_false (hlen : info.storeLength.length = info.numColumns)
    (hpos : ∀ length ∈ info.storeLength, 0 < length) (hmin : minValue.length ≤ info.numColumns)
    (h : canMatchMultipleTuples info minValue maxValue flags = false) :
    flags.any = false ∧ minValue = maxValue ∧ minValue.length = info.numColumns := by
  simp only [canMatchMultipleTuples, Bool.or_eq_false_iff, decide_eq_false_iff_not, not_not] at h
  exact ⟨h.1.1.1, h.2, hlen ▸ length_of_keyLength hpos (hlen.symm ▸ hmin) h.1.2⟩

include hmax hrow hwithin in
lemma ListColumnsInfo.answered (hl : ListColumnsInfo cmp info)
    (hmin : minValue.length ≤ info.numColumns)
    (hp : getPartitionIdListCol cmp info row = some p) :
    AnsweredCols info (getPartIterForIntervalColsViaMap cmp info minValue maxValue flags it) p := by
  unfold getPartIterForIntervalColsViaMap getColEndpoint
  simp only [hl.partType, beq_self_eq_true, Bool.true_and]
  by_cases honly : info.definedMaxValue = true ∧ info.numParts = 1
  · rw [if_pos honly]
    exact .inl ⟨rfl, hl.partType, honly⟩
  rw [if_neg honly]
  have hne : info.listColArray ≠ [] := fun h => honly (hl.onlyDefault h)
  have hfields : (storeTupleToRecord maxValue).length ≤ info.numColumns := by
    simpa [storeTupleToRecord] using hmax
  have hreturns : ∀ it : PartitionIterator,
      ((∃ i, it.cur ≤ i ∧ i < it.stop ∧ (info.listColArray.map Prod.snd).getD i 0 = p) ∨
        (it.retDefaultPart = true ∧ p = info.defaultPartitionId)) →
      AnsweredCols info (1, it) p := fun it h => by
    refine .inr ⟨rfl, ?_⟩
    unfold getNextCols
    simp only [hl.partType]
    exact (returns_list_iff _ _).mpr (h.imp_right .inr)
  rcases hl.partition hrow with ⟨q, hq, heq, hid⟩ | ⟨hnot, hid⟩ <;> rw [hid] at hp
  · -- the tuple of the row lies between the two edges
    have hstart : (if flags.noMinRange = true then 0 else getPartitionIdColsListForEndpoint cmp
        info (storeTupleToRecord minValue) true (!flags.nearMin)) ≤ q := by
      split_ifs with hno
      · exact Nat.zero_le q
      · exact hl.left_le hq (prune_left_ne_gt (hwithin.1 (by simpa using hno)) heq)
    have hstop : q < (if flags.noMaxRange = true then info.listColArray.length else
        getPartitionIdColsListForEndpoint cmp info (storeTupleToRecord maxValue) false
          (!flags.nearMax)) := by
      split_ifs with hno
      · exact hq
      · exact hl.lt_right hq
          (prune_right_gt hfields hrow (hwithin.2 (by simpa using hno)) heq)
    rw [if_neg (by omega)]
    exact hreturns _ (.inl ⟨q, hstart, hstop, Option.some.inj hp⟩)
  · split_ifs at hp with hdef
    have hpd := (Option.some.inj hp).symm
    rw [hdef]
    simp only [Bool.and_true, if_true]
    cases hcan : canMatchMultipleTuples info minValue maxValue flags with
    | true =>
      simp only [if_true]
      split_ifs <;> exact hreturns _ (.inr ⟨rfl, hpd⟩)
    | false =>
      obtain ⟨hany, rfl, hlen⟩ :=
        canMatchMultipleTuples_eq_false hl.storeLength hl.storeLength_pos hmin hcan
      obtain ⟨hnoMin, hnoMax, hnearMin, hnearMax⟩ := IntervalFlags.any_eq_false.mp hany
      have hlen' : (storeTupleToRecord minValue).length = info.numColumns := by
        simpa [storeTupleToRecord] using hlen
      -- the row is the tuple of the interval, and is not listed
      have habove := hwithin.1 hnoMin
      have hbelow := hwithin.2 hnoMax
      simp only [AboveCols, BelowCols, hnearMin, hnearMax, Bool.not_false, if_true,
        ← prefixCompare_toColumnVal] at habove hbelow
      have hsame : prefixCompare (compareColumn cmp) 0
          ((storeTupleToRecord minValue).map toColumnVal) (row.map toColumnVal) = .eq := by
        generalize prefixCompare _ _ _ _ = o at habove hbelow ⊢
        cases o with
        | lt => exact absurd rfl hbelow
        | eq => rfl
        | gt => exact absurd rfl habove
      have hedges := hl.edges_eq (storeTupleToRecord minValue) hne hlen'
        fun q hq h => hnot q hq (by
          rw [cmpRecAndTuple_eq] at h ⊢
          rw [← prefixCompare_congr _ (by simp [hlen', hrow]) hsame]
          exact h)
      simp only [hnoMin, hnoMax, hnearMin, hnearMax, Bool.false_eq_true, if_false, Bool.not_false,
        hedges, if_true]
      exact hreturns _ (.inr ⟨rfl, hpd⟩)

/-- The partitioning is one that `check_range_constants()` or `check_list_constants()`
accepts. -/
def AcceptedCols (cmp : Nat → α → α → Ordering) (columns : Columns) (info : ColumnsInfo α) :
    Prop :=
  (∃ bounds, checkRangeColumns cmp columns bounds = some info) ∨
    ∃ parts, checkListColumns cmp columns parts = some info

/-- Pruning by columns keeps the partition of every row of the interval. -/
theorem keepsRows_cols (columns : Columns) (h : AcceptedCols cmp columns info)
    (hmin : minValue.length ≤ info.numColumns) (hmax : maxValue.length ≤ info.numColumns)
    (hrow : row.length = info.numColumns) (hwithin : WithinCols cmp minValue maxValue flags row)
    (hp : getPartitionIdCols cmp info row = some p) :
    AnsweredCols info (getPartIterForIntervalColsViaMap cmp info minValue maxValue flags it) p := by
  rcases h with ⟨bounds, h⟩ | ⟨parts, h⟩
  · have hr := checkRangeColumns_spec h
    rw [getPartitionIdCols, hr.partType] at hp
    exact hr.answered hmax hrow hwithin hp
  · have hl := checkListColumns_spec h
    rw [getPartitionIdCols, hl.partType] at hp
    exact hl.answered hmax hrow hwithin hmin hp

def twoBytes : Columns := ⟨[1, 1], by decide⟩

/-- `VALUES LESS THAN (10, 5)` and `VALUES LESS THAN (10, MAXVALUE)`. -/
def tenFive : ColumnsInfo Nat :=
  { numColumns := 2, storeLength := [1, 1], partType := .range, numParts := 2,
    rangeColArray := [[.value 10, .value 5], [.value 10, .maxValue]], listColArray := [],
    definedMaxValue := false, defaultPartitionId := 0 }

/-- The row (10, 7) of the interval `a <= 10` is in the second partition. -/
theorem keepsRows_cols_tenFive :
    getPartitionIdCols (fun _ => compare) tenFive [some 10, some 7] = some 1 ∧
      AnsweredCols tenFive (getPartIterForIntervalColsViaMap (fun _ => compare) tenFive []
        [⟨false, 10⟩] ⟨false, false, true, false⟩ ⟨0, 0, 0, false, false, false, false⟩) 1 :=
  have hp : getPartitionIdCols (fun _ => compare) tenFive [some 10, some 7] = some 1 := by decide
  ⟨hp, keepsRows_cols twoBytes
    (.inl ⟨[[.value 10, .value 5], [.value 10, .maxValue]], by rfl⟩) (by decide)
    (by decide) rfl ⟨fun h => absurd h (by decide), fun _ => by
      simp [BelowCols, storeTupleToRecord, KeyPart.field, prefixCompare, compareField]⟩ hp⟩

end Kept

end MariaDB.Partition
