import MariaDB.Partition.ColumnsMap
import MariaDB.Partition.Pruning

/-!
# The partition of a value

What a partitioning that the checks accept says about the partition of a value, and that the
four searches find that partition.
-/
namespace MariaDB.Partition

open Library Library.Bisect List

def RangeDefinition.IsAbove (c : IntColumn) (d : RangeDefinition) (x : WithBot Int) (i : Nat) :
    Prop :=
  (i = d.rangeValue.length - 1 ∧ d.definedMaxValue = true) ∨
    x < (c.literal (d.rangeValue.getD i 0) : Int)

def ListElement.Contains (c : IntColumn) (x : WithBot Int) : ListElement → Prop
  | default => False
  | values listVal hasNullValue =>
    (x = ⊥ ∧ hasNullValue = true) ∨ ∃ v ∈ listVal, x = (c.literal v : Int)

section Columns

variable {α : Type} (cmp : Nat → α → α → Ordering)

/-- The order of a row and a tuple of a partition: that of the first columns that differ. -/
def compareRow (row : List (Option α)) (tuple : List (ColumnVal α)) : Ordering :=
  prefixCompare (compareColumn cmp) 0 (row.map toColumnVal) tuple

def ColumnsElement.Contains (row : List (Option α)) : ColumnsElement α → Prop
  | default => False
  | values listVal => ∃ tuple ∈ listVal, compareRow cmp row tuple = .eq

end Columns

section Listed

variable {β : Type} {parts : List β} {contains isDefault : β → Prop} {r default : Option Nat}

variable (parts contains isDefault r) in
/-- `r` is the partition that contains the value, or else the DEFAULT partition. -/
def IsListed : Prop :=
  (∀ p, r = some p ↔ ∃ part, parts[p]? = some part ∧
      (contains part ∨ (isDefault part ∧ ∀ other ∈ parts, ¬ contains other))) ∧
    (r = none ↔ ∀ part ∈ parts, ¬ contains part ∧ ¬ isDefault part)

lemma isListed_of_listed (listed : Nat → Prop)
    (hdefault : ∀ p, default = some p ↔ ∃ part, parts[p]? = some part ∧ isDefault part)
    (hlisted : ∀ p, (∃ part, parts[p]? = some part ∧ contains part) ↔ listed p)
    (hunique : ∀ p q, listed p → listed q → p = q)
    (h : (∃ p, listed p ∧ r = some p) ∨ ((∀ p, ¬ listed p) ∧ r = default)) :
    IsListed parts contains isDefault r := by
  have hmem : ∀ part ∈ parts, contains part → ∃ p, listed p := fun part hpart hcon => by
    obtain ⟨p, hp⟩ := mem_iff_getElem?.mp hpart
    exact ⟨p, (hlisted p).mp ⟨part, hp, hcon⟩⟩
  rcases h with ⟨p, hp, rfl⟩ | ⟨hnot, rfl⟩
  · obtain ⟨part, hpart, hcon⟩ := (hlisted p).mpr hp
    have hin := mem_of_getElem? hpart
    refine ⟨fun q => ⟨?_, ?_⟩, by simpa using ⟨part, hin, fun h => absurd hcon h⟩⟩
    · rintro ⟨⟩
      exact ⟨part, hpart, .inl hcon⟩
    · rintro ⟨other, hother, hcon' | ⟨-, hno⟩⟩
      · exact congrArg some (hunique p q hp ((hlisted q).mp ⟨other, hother, hcon'⟩))
      · exact absurd hcon (hno part hin)
  · have hno : ∀ part ∈ parts, ¬ contains part := fun part hpart hcon => by
      obtain ⟨p, hp⟩ := hmem part hpart hcon
      exact hnot p hp
    refine ⟨fun p => ?_, fun hr part hpart => ⟨hno part hpart, fun hdef => ?_⟩, fun hall => ?_⟩
    · rw [hdefault p]
      grind
    · obtain ⟨p, hp⟩ := mem_iff_getElem?.mp hpart
      simp [(hdefault p).mpr ⟨part, hp, hdef⟩] at hr
    · cases hr : r with
      | none => rfl
      | some p =>
        obtain ⟨part, hpart, hdef⟩ := (hdefault p).mp hr
        exact absurd hdef (hall part (mem_of_getElem? hpart)).2

lemma exists_getD_iff {κ : Type} {l : List β} {f : β → κ} {g : β → Nat} {P : κ → Prop} {a : κ} :
    (∃ i < l.length, P ((l.map f).getD i a) ∧ (l.map g).getD i 0 = p) ↔
      ∃ e ∈ l, P (f e) ∧ g e = p := by
  constructor
  · rintro ⟨i, hi, h⟩
    exact ⟨l[i], getElem_mem hi, by simpa [getElem?_eq_getElem hi] using h⟩
  · rintro ⟨e, he, h⟩
    obtain ⟨i, hi, rfl⟩ := mem_iff_getElem.mp he
    exact ⟨i, hi, by simpa [getElem?_eq_getElem hi] using h⟩

end Listed

variable {c : IntColumn} {d : RangeDefinition} {info : PartitionInfo} {x : WithBot Int}

lemma isFirst_getPartitionIdRange (h : checkRangeConstants c d = some info) (hx : c.Holds x) :
    IsFirst d.rangeValue.length (d.IsAbove c x) (getPartitionIdRange info x) := by
  obtain ⟨rfl, hnum, hmax, harray, hr⟩ := checkRangeConstants_eq_some h
  have hpos := hnum ▸ hr.numParts_pos
  cases x with
  | bot => exact isFirst_some hpos (.inr (WithBot.bot_lt_coe _)) fun i hi => by omega
  | coe v =>
    apply (hnum ▸ hr.isFirst v).congr
    intro i hi
    have hget : info.rangeIntArray.getD i 0 = partRangeValue info.column d i
        (d.rangeValue.getD i 0) := by
      simp [harray, getElem?_eq_getElem hi]
    rw [hget, hmax, RangeDefinition.IsAbove, WithBot.coe_lt_coe, or_comm]
    by_cases hlast : i = d.rangeValue.length - 1 ∧ d.definedMaxValue = true
    · simp [hlast]
    · have hbound : i ≠ d.rangeValue.length - 1 ∨ d.definedMaxValue = false := by
        rw [← Bool.not_eq_true]
        exact not_and_or.mp hlast
      rw [partRangeValue, if_pos hbound, ← info.column.constant_shift,
        ← info.column.constant_lt_constant, info.column.partFuncValue_eq hx]

lemma isListed_getPartitionIdList (h : checkListConstants c parts = some info) (hx : c.Holds x) :
    IsListed parts (ListElement.Contains c x) (·.isDefault = true) (getPartitionIdList info x) := by
  have hl := (checkListConstants_spec h).2
  obtain ⟨rfl, -, hmem, -, hdefault, hnull⟩ := checkListConstants_eq_some h
  have hnotListed : ∀ p, notListed info = some p ↔
      ∃ part, parts[p]? = some part ∧ part.isDefault = true := fun p => by
    rw [← hdefault p, notListed]
    split_ifs with hmax <;> simp [hmax]
  cases x with
  | bot =>
    apply isListed_of_listed (fun p => info.hasNullValue = true ∧ info.hasNullPartId = p) hnotListed
    · intro p
      rw [hnull p]
      refine exists_congr fun part => and_congr_right fun _ => ?_
      cases part <;> simp [ListElement.Contains, ListElement.hasNull]
    · rintro p q ⟨-, rfl⟩ ⟨-, rfl⟩
      rfl
    · by_cases hhas : info.hasNullValue = true <;> simp [getPartitionIdList, hhas]
  | coe v =>
    apply isListed_of_listed (fun p => ∃ i < info.listArray.length,
      constantAt info i = v ∧ (listPartitionIds info).getD i 0 = p) hnotListed
    · intro p
      refine Iff.trans ?_ (exists_getD_iff (P := (info.column.constant · = v))).symm
      constructor
      · rintro ⟨_ | ⟨listVal, null⟩, hpart, hcon⟩
        · exact hcon.elim
        · obtain ⟨hbot, -⟩ | ⟨w, hw, hv⟩ := hcon
          · cases hbot
          · refine ⟨⟨info.column.shift w, p⟩, (hmem _).mpr ⟨listVal, null, hpart, w, hw, rfl⟩,
              ?_, rfl⟩
            exact (info.column.constant_shift w).trans (WithBot.coe_injective hv).symm
      · rintro ⟨e, he, hv, rfl⟩
        obtain ⟨listVal, null, hpart, w, hw, hew⟩ := (hmem e).mp he
        refine ⟨_, hpart, .inr ⟨w, hw, ?_⟩⟩
        rw [← hv, hew, info.column.constant_shift]
    · rintro p q ⟨i, hi, hiv, rfl⟩ ⟨j, hj, hjv, rfl⟩
      rw [(hl.ascending v).unique hi hj (compare_eq_iff_eq.mpr hiv) (compare_eq_iff_eq.mpr hjv)]
    · rcases hl.partition hx with ⟨i, hi, hiv, hr⟩ | ⟨hne, hr⟩
      · exact .inl ⟨_, ⟨i, hi, hiv, rfl⟩, hr⟩
      · exact .inr ⟨fun p hp => hp.elim fun i hi => hne i hi.1 hi.2.1, hr⟩

section Columns

variable {α : Type} {cmp : Nat → α → α → Ordering} [∀ i, Std.TransCmp (cmp i)]
  {columns : Columns} {info : ColumnsInfo α} {row : List (Option α)}

lemma isFirst_getPartitionIdRangeCol (h : checkRangeColumns cmp columns bounds = some info) :
    IsFirst bounds.length (fun i => compareRow cmp row (bounds.getD i []) = .lt)
      (getPartitionIdRangeCol cmp info row) := by
  have hfirst := (checkRangeColumns_spec h).isFirst row
  simp only [cmpRecAndTuple_eq] at hfirst
  unfold checkRangeColumns at h
  split_ifs at h
  cases h
  exact hfirst

lemma findIdx_eq_of_unique {β : Type} {f : β → Bool} {x : β} (hf : f x = true) :
    ∀ {l : List β} {p : Nat}, (l.filter f).length ≤ 1 → l[p]? = some x → l.findIdx f = p
  | a :: l, 0, _, hx => by
    obtain rfl : a = x := by simpa using hx
    simp [findIdx_cons, hf]
  | a :: l, p + 1, h, hx => by
    have hpos := length_pos_of_mem
      (mem_filter.mpr ⟨mem_of_getElem? (show l[p]? = some x from hx), hf⟩)
    by_cases ha : f a = true
    · rw [filter_cons_of_pos ha, length_cons] at h
      omega
    · rw [filter_cons_of_neg ha] at h
      simp [findIdx_cons, ha, findIdx_eq_of_unique hf h hx]

lemma isListed_getPartitionIdListCol {parts : List (ColumnsElement α)}
    (h : checkListColumns cmp columns parts = some info)
    (hrow : row.length = info.numColumns) :
    IsListed parts (ColumnsElement.Contains cmp row) (·.isDefault = true)
      (getPartitionIdListCol cmp info row) := by
  have hl := checkListColumns_spec h
  have hdefault : ∀ p, (if info.definedMaxValue then some info.defaultPartitionId else none) =
      some p ↔ ∃ part, parts[p]? = some part ∧ part.isDefault = true := fun p => by
    unfold checkListColumns at h
    dsimp only at h
    split_ifs at h with hok
    cases h
    constructor
    · intro hp
      dsimp only at hp
      split_ifs at hp with hany
      cases hp
      have hlt := findIdx_lt_length.mpr (any_eq_true.mp hany)
      exact ⟨_, getElem?_eq_getElem hlt, findIdx_getElem⟩
    · rintro ⟨part, hpart, hdef⟩
      dsimp only
      rw [if_pos (any_eq_true.mpr ⟨part, mem_of_getElem? hpart, hdef⟩),
        findIdx_eq_of_unique hdef hok.2.1 hpart]
  have hmem : ∀ e, e ∈ info.listColArray ↔
      ∃ listVal, parts[e.2]? = some (.values listVal) ∧ e.1 ∈ listVal := fun e => by
    unfold checkListColumns at h
    dsimp only at h
    split_ifs at h
    cases h
    rw [(perm_insertionSort _ _).mem_iff, mem_columnsEntries]
    simp only [mem_zipIdx_iff_getElem?]
  apply isListed_of_listed (fun p => ∃ i < info.listColArray.length,
    cmpRecAndTuple cmp 0 row (listTuple info i) = .eq ∧
      (info.listColArray.map Prod.snd).getD i 0 = p) hdefault
  · intro p
    refine Iff.trans ?_ (exists_getD_iff (P := (cmpRecAndTuple cmp 0 row · = .eq))).symm
    constructor
    · rintro ⟨_ | listVal, hpart, hcon⟩
      · exact hcon.elim
      · obtain ⟨tuple, htuple, heq⟩ := hcon
        exact ⟨(tuple, p), (hmem _).mpr ⟨listVal, hpart, htuple⟩,
          (cmpRecAndTuple_eq row tuple 0).trans heq, rfl⟩
    · rintro ⟨e, he, heq, rfl⟩
      obtain ⟨listVal, hpart, htuple⟩ := (hmem e).mp he
      exact ⟨_, hpart, e.1, htuple, (cmpRecAndTuple_eq row e.1 0).symm.trans heq⟩
  · rintro p q ⟨i, hi, hieq, rfl⟩ ⟨j, hj, hjeq, rfl⟩
    rw [(hl.ascending_row hrow).unique hi hj (Ordering.swap_eq_eq.mpr hieq)
      (Ordering.swap_eq_eq.mpr hjeq)]
  · rcases hl.partition hrow with ⟨i, hi, heq, hr⟩ | ⟨hne, hr⟩
    · exact .inl ⟨_, ⟨i, hi, heq, rfl⟩, hr⟩
    · exact .inr ⟨fun p ⟨i, hi, heq, _⟩ => hne i hi heq, hr⟩

/-- The four searches, for every partitioning that is accepted. -/
theorem getPartitionId_spec (cmp : Nat → α → α → Ordering) (hcmp : ∀ i, Std.TransCmp (cmp i)) :
    (∀ c d info x, checkRangeConstants c d = some info → c.Holds x →
      IsFirst d.rangeValue.length (d.IsAbove c x) (getPartitionIdRange info x)) ∧
    (∀ c parts info x, checkListConstants c parts = some info → c.Holds x →
      IsListed parts (ListElement.Contains c x) (·.isDefault = true) (getPartitionIdList info x)) ∧
    (∀ columns bounds info row, checkRangeColumns cmp columns bounds = some info →
      row.length = info.numColumns →
      IsFirst bounds.length (fun i => compareRow cmp row (bounds.getD i []) = .lt)
        (getPartitionIdRangeCol cmp info row)) ∧
    ∀ columns parts info row, checkListColumns cmp columns parts = some info →
      row.length = info.numColumns →
      IsListed parts (ColumnsElement.Contains cmp row) (·.isDefault = true)
        (getPartitionIdListCol cmp info row) :=
  ⟨fun _ _ _ _ h hx => isFirst_getPartitionIdRange h hx,
    fun _ _ _ _ h hx => isListed_getPartitionIdList h hx,
    fun _ _ _ _ h _ => isFirst_getPartitionIdRangeCol h,
    fun _ _ _ _ h hrow => isListed_getPartitionIdListCol h hrow⟩

/-- NULL is in the DEFAULT partition, and (10, 7) in the first one above it. -/
theorem getPartitionId_spec_null :
    IsListed [.values [1] false, .default] (ListElement.Contains tinyintNull ⊥)
        (·.isDefault = true) (getPartitionIdList oneAndDefault ⊥) ∧
      IsFirst 2 (fun i => compareRow (fun _ => compare) [some 10, some 7]
        ([[.value 10, .value 5], [.value 10, .maxValue]].getD i []) = .lt)
        (getPartitionIdRangeCol (fun _ => compare) tenFive [some 10, some 7]) :=
  have h := getPartitionId_spec (fun _ => (compare : Nat → Nat → Ordering)) inferInstance
  ⟨h.2.1 tinyintNull [.values [1] false, .default] oneAndDefault ⊥ (by rfl) rfl,
    h.2.2.1 twoBytes [[.value 10, .value 5], [.value 10, .maxValue]] tenFive _ (by rfl) rfl⟩

end Columns

end MariaDB.Partition
