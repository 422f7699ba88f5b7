import MariaDB.Library.LittleEndian

/-!
# RANGE and LIST partitioning by an integer column

A table is partitioned by the plain value of one integer column. `check_range_constants()`
and `check_list_constants()` check the constants of the partitions and put them into the
arrays that later searches use. The values of an unsigned column are shifted by 2^63 there,
so that all comparisons are signed.
-/
namespace MariaDB.Partition

open Library List

def longlong (v : Int) : Int := v.bmod (2 ^ 64)

def longlongMax : Int := 2 ^ 63 - 1

variable (v : Int)

lemma longlong_spec :
    ∃ k, longlong v = v + 2 ^ 64 * k ∧ -2 ^ 63 ≤ longlong v ∧ longlong v < 2 ^ 63 := by
  unfold longlong
  rw [Int.bmod_def]
  split_ifs with h
  · exact ⟨-(v / 2 ^ 64), by omega, by omega, by omega⟩
  · exact ⟨-(v / 2 ^ 64) - 1, by omega, by omega, by omega⟩

structure IntColumn where
  /-- `pack_length_in_rec()`, the number of bytes of a value. -/
  packLength : Nat
  realMaybeNull : Bool
  unsignedFlag : Bool
  pos : 0 < packLength
  le_eight : packLength ≤ 8

namespace IntColumn

variable (c : IntColumn)

def InRange (v : Int) : Prop :=
  if c.unsignedFlag then 0 ≤ v ∧ v < 256 ^ c.packLength
  else -256 ^ c.packLength ≤ 2 * v ∧ 2 * v < 256 ^ c.packLength

/-- What the column can hold; `⊥` is NULL, which is ordered first. -/
def Holds : WithBot Int → Prop
  | ⊥ => c.realMaybeNull = true
  | (v : Int) => c.InRange v

def value (bytes : List UInt8) : Int :=
  if c.unsignedFlag then ofLE bytes else Int.bmod (ofLE bytes) (256 ^ c.packLength)

def storeKeyImageToRec (image : List UInt8) : WithBot Int :=
  if c.realMaybeNull then
    if image.headD 0 ≠ 0 then ⊥ else (c.value (image.tail.take c.packLength) : Int)
  else (c.value (image.take c.packLength) : Int)

/-- A key image: the null byte of a nullable column and the bytes of the value. -/
def IsKeyImage (image : List UInt8) : Prop :=
  image.length = c.packLength + if c.realMaybeNull then 1 else 0

/-- `part_func_value-= 0x8000000000000000ULL` for an unsigned column. For a list constant
the sign bit is flipped, which is the same. -/
def shift (v : Int) : Int := if c.unsignedFlag then longlong (v - 2 ^ 63) else v

/-- `part_val_int()` of the field and the shift. -/
def partFuncValue (v : Int) : Int := c.shift (longlong v)

def constant (w : Int) : Int := if c.unsignedFlag then w + 2 ^ 63 else w

/-- The value of a constant of the definition, which is given as a 64-bit integer. -/
def literal (w : Int) : Int := if c.unsignedFlag then w % 2 ^ 64 else w

lemma constant_shift (w : Int) : c.constant (c.shift w) = c.literal w := by
  unfold constant shift literal
  obtain ⟨k, hk, hlow, hhigh⟩ := longlong_spec (w - 2 ^ 63)
  split_ifs <;> omega

lemma pow_packLength_le : (256 : Int) ^ c.packLength ≤ 2 ^ 64 := by
  calc (256 : Int) ^ c.packLength ≤ 256 ^ 8 := pow_le_pow_right₀ (by norm_num) c.le_eight
    _ = 2 ^ 64 := by norm_num

lemma partFuncValue_eq {v : Int} (h : c.InRange v) : c.constant (c.partFuncValue v) = v := by
  have hpow := c.pow_packLength_le
  unfold InRange at h
  unfold constant partFuncValue shift
  obtain ⟨k, hk, hlow, hhigh⟩ := longlong_spec v
  cases hu : c.unsignedFlag with
  | true =>
    obtain ⟨k', hk', hlow', hhigh'⟩ := longlong_spec (longlong v - 2 ^ 63)
    simp only [hu, if_true] at h ⊢
    omega
  | false =>
    simp only [hu, Bool.false_eq_true, if_false] at h ⊢
    omega

lemma constant_lt_constant : c.constant w < c.constant w' ↔ w < w' := by
  unfold constant
  split_ifs <;> omega

lemma constant_le_constant : c.constant w ≤ c.constant w' ↔ w ≤ w' := by
  unfold constant
  split_ifs <;> omega

lemma partFuncValue_le_longlongMax : c.partFuncValue v ≤ longlongMax := by
  grind [partFuncValue, shift, longlongMax, longlong]

lemma le_partFuncValue : -2 ^ 63 ≤ c.partFuncValue v := by
  grind [partFuncValue, shift, longlong]

end IntColumn

inductive PartType
  | range
  | list
  deriving DecidableEq, Repr

structure ListPartEntry where
  listValue : Int
  partitionId : Nat
  deriving DecidableEq, Repr

structure PartitionInfo where
  column : IntColumn
  partType : PartType
  numParts : Nat
  rangeIntArray : List Int
  listArray : List ListPartEntry
  definedMaxValue : Bool
  defaultPartitionId : Nat
  hasNullValue : Bool
  hasNullPartId : Nat

section Range

structure RangeDefinition where
  /-- `range_value` of each partition. -/
  rangeValue : List Int
  /-- The last partition is VALUES LESS THAN MAXVALUE. -/
  definedMaxValue : Bool

variable (c : IntColumn) (d : RangeDefinition)

def partRangeValue (i : Nat) (rangeValue : Int) : Int :=
  if i ≠ d.rangeValue.length - 1 ∨ d.definedMaxValue = false then c.shift rangeValue
  else longlongMax

/-- The loop of `check_range_constants()` from partition `i` on; `currentLargest` is absent
at the first one. -/
def checkRangeFrom : Nat → Option Int → List Int → Option (List Int)
  | _, _, [] => some []
  | i, currentLargest, rangeValue :: rest =>
    let value := partRangeValue c d i rangeValue
    if ∃ l ∈ currentLargest, value < l ∨ (l = value ∧
        (value < longlongMax ∨ i ≠ d.rangeValue.length - 1 ∨ d.definedMaxValue = false)) then
      none
    else (checkRangeFrom (i + 1) (some value) rest).map (value :: ·)

def checkRangeConstants : Option PartitionInfo :=
  if d.rangeValue = [] then none
  else
    (checkRangeFrom c d 0 none d.rangeValue).map fun rangeIntArray =>
      { column := c, partType := .range, numParts := d.rangeValue.length, rangeIntArray,
        listArray := [], definedMaxValue := d.definedMaxValue,
        defaultPartitionId := d.rangeValue.length - 1, hasNullValue := false,
        hasNullPartId := 0 }

/-- The bounds ascend; only the last one may be as large as the one before it. -/
structure RangesAscend (bounds : List Int) : Prop where
  le : ∀ i j, i ≤ j → j < bounds.length → bounds.getD i 0 ≤ bounds.getD j 0
  lt : ∀ i j, i < j → j + 1 < bounds.length → bounds.getD i 0 < bounds.getD j 0

lemma checkRangeFrom_spec : ∀ (rest : List Int) (i : Nat) (currentLargest : Option Int)
    (bounds : List Int), i + rest.length = d.rangeValue.length →
    checkRangeFrom c d i currentLargest rest = some bounds →
    bounds = rest.mapIdx (fun j => partRangeValue c d (i + j)) ∧
      (∀ l ∈ currentLargest, ∀ b ∈ bounds, l ≤ b) ∧
      (∀ l ∈ currentLargest, ∀ b ∈ bounds.dropLast, l < b) ∧
      bounds.Pairwise (· ≤ ·) ∧ bounds.dropLast.Pairwise (· < ·) := by
  intro rest
  induction rest with
  | nil =>
    intro i currentLargest bounds _ h
    obtain rfl : [] = bounds := by simpa [checkRangeFrom] using h
    simp
  | cons rangeValue rest ih =>
    intro i currentLargest bounds hlen h
    rw [checkRangeFrom] at h
    split_ifs at h with herr
    obtain ⟨bounds', hrest, rfl⟩ := Option.map_eq_some_iff.mp h
    simp only [length_cons] at hlen
    obtain ⟨hmap, hle, hlt, hsorted, hstrict⟩ := ih (i + 1) _ bounds' (by omega) hrest
    have hlen' : bounds'.length = rest.length := by rw [hmap, length_mapIdx]
    have hnot : ∀ l ∈ currentLargest, l ≤ partRangeValue c d i rangeValue ∧
        (i ≠ d.rangeValue.length - 1 → l < partRangeValue c d i rangeValue) := by
      intro l hl
      refine ⟨?_, fun hi => ?_⟩
      · by_contra hcon
        exact herr ⟨l, hl, .inl (by omega)⟩
      · by_contra hcon
        rcases lt_or_eq_of_le (not_lt.mp hcon) with h' | h'
        · exact herr ⟨l, hl, .inl h'⟩
        · exact herr ⟨l, hl, .inr ⟨h'.symm, .inr (.inl hi)⟩⟩
    have hlast : bounds' = [] ∨ (partRangeValue c d i rangeValue :: bounds').dropLast =
        partRangeValue c d i rangeValue :: bounds'.dropLast := by
      cases bounds' with
      | nil => exact .inl rfl
      | cons => exact .inr rfl
    refine ⟨by simp [hmap, mapIdx_cons, add_assoc, add_comm 1], ?_, ?_, ?_, ?_⟩
    · intro l hl b hb
      rcases mem_cons.mp hb with rfl | hb
      · exact (hnot l hl).1
      · exact (hnot l hl).1.trans (hle _ rfl b hb)
    · intro l hl b hb
      rcases hlast with rfl | heq
      · simp at hb
      · rw [heq] at hb
        rcases mem_cons.mp hb with rfl | hb
        · refine (hnot l hl).2 ?_
          rcases rest with - | ⟨_, _⟩
          · simp only [length_nil, length_eq_zero_iff] at hlen'
            simp [hlen'] at heq
          · simp only [length_cons] at hlen
            omega
        · exact (hnot l hl).1.trans_lt (hlt _ rfl b hb)
    · exact pairwise_cons.mpr ⟨fun b hb => hle _ rfl b hb, hsorted⟩
    · rcases hlast with rfl | heq
      · simp
      · rw [heq]
        exact pairwise_cons.mpr ⟨fun b hb => hlt _ rfl b hb, hstrict⟩

structure RangeInfo (info : PartitionInfo) : Prop where
  partType : info.partType = .range
  numParts_pos : 0 < info.numParts
  length : info.rangeIntArray.length = info.numParts
  ascend : RangesAscend info.rangeIntArray
  hasNullValue : info.hasNullValue = false

variable {c d}

lemma rangesAscend_of_pairwise {bounds : List Int} (hsorted : bounds.Pairwise (· ≤ ·))
    (hstrict : bounds.dropLast.Pairwise (· < ·)) : RangesAscend bounds := by
  refine ⟨fun i j hij hj => ?_, fun i j hij hj => ?_⟩
  · simp only [getD_eq_getElem _ _ hj, getD_eq_getElem _ _ (hij.trans_lt hj)]
    rcases Nat.eq_or_lt_of_le hij with rfl | hij
    · exact le_refl _
    · exact pairwise_iff_getElem.mp hsorted i j _ hj hij
  · have hj' : j < bounds.dropLast.length := by rw [length_dropLast]; omega
    have := pairwise_iff_getElem.mp hstrict i j (hij.trans hj') hj' hij
    simpa only [getElem_dropLast, getD_eq_getElem _ _ (show j < bounds.length by omega),
      getD_eq_getElem _ _ (show i < bounds.length by omega)] using this

lemma checkRangeConstants_eq_some (h : checkRangeConstants c d = some info) :
    info.column = c ∧ info.numParts = d.rangeValue.length ∧
      info.definedMaxValue = d.definedMaxValue ∧
      info.rangeIntArray = d.rangeValue.mapIdx (partRangeValue c d) ∧ RangeInfo info := by
  rw [checkRangeConstants] at h
  split_ifs at h with hnil
  obtain ⟨bounds, hbounds, rfl⟩ := Option.map_eq_some_iff.mp h
  obtain ⟨hmap, -, -, hsorted, hstrict⟩ :=
    checkRangeFrom_spec c d d.rangeValue 0 none bounds (zero_add _) hbounds
  simp only [zero_add] at hmap
  exact ⟨rfl, rfl, rfl, hmap, rfl, length_pos_iff.mpr hnil, by simp [hmap],
    rangesAscend_of_pairwise hsorted hstrict, rfl⟩

lemma checkRangeConstants_spec
    (h : checkRangeConstants c d = some info) : info.column = c ∧ RangeInfo info :=
  have h := checkRangeConstants_eq_some h
  ⟨h.1, h.2.2.2.2⟩

end Range

section List

/-- The values of a partition of a LIST partitioned table. NULL is no value of the list. -/
inductive ListElement
  | default
  | values (listVal : List Int) (hasNullValue : Bool)

def ListElement.isDefault : ListElement → Bool
  | default => true
  | values _ _ => false

def ListElement.hasNull : ListElement → Bool
  | default => false
  | values _ hasNullValue => hasNullValue

/-- The index of the partition with a property, from partition `i` on; a second one is an
error. -/
def onlyIndex (has : ListElement → Bool) :
    Nat → Option Nat → List ListElement → Option (Option Nat)
  | _, found, [] => some found
  | i, found, x :: rest =>
    if has x then if found.isSome then none else onlyIndex has (i + 1) (some i) rest
    else onlyIndex has (i + 1) found rest

variable (c : IntColumn)

def listEntries : Nat → List ListElement → List ListPartEntry
  | _, [] => []
  | i, .default :: rest => listEntries (i + 1) rest
  | i, .values listVal _ :: rest =>
    listVal.map (fun v => ⟨c.shift v, i⟩) ++ listEntries (i + 1) rest

def hasDuplicate : List ListPartEntry → Bool
  | e :: e' :: rest => e'.listValue == e.listValue || hasDuplicate (e' :: rest)
  | _ => false

/-- `check_list_constants()` after `fix_parser_data()` found the DEFAULT partition; `none`
is an error. -/
def checkListConstants (parts : List ListElement) : Option PartitionInfo :=
  if parts = [] then none
  else
    (onlyIndex ListElement.isDefault 0 none parts).bind fun default =>
      (onlyIndex ListElement.hasNull 0 none parts).bind fun null =>
        let listArray :=
          (listEntries c 0 parts).insertionSort fun e e' => e.listValue ≤ e'.listValue
        if hasDuplicate listArray then none
        else
          some { column := c, partType := .list, numParts := parts.length,
                 rangeIntArray := [], listArray, definedMaxValue := default.isSome,
                 defaultPartitionId := default.getD 0, hasNullValue := null.isSome,
                 hasNullPartId := null.getD 0 }

structure ListInfo (info : PartitionInfo) : Prop where
  partType : info.partType = .list
  ascend : info.listArray.Pairwise fun e e' => e.listValue < e'.listValue
  entry_ne_default : info.definedMaxValue = true → ∀ e ∈ info.listArray,
    e.partitionId ≠ info.defaultPartitionId
  null_ne_default : info.definedMaxValue = true → info.hasNullValue = true →
    info.hasNullPartId ≠ info.defaultPartitionId

variable {c}

lemma onlyIndex_spec : ∀ {rest : List ListElement} {i : Nat}
    {found r : Option Nat}, onlyIndex has i found rest = some r →
    ∀ k, r = some k ↔ found = some k ∨ ∃ x, (x, k) ∈ rest.zipIdx i ∧ has x = true := by
  intro rest
  induction rest <;> grind [onlyIndex]

lemma mem_listEntries : ∀ {rest : List ListElement} {i : Nat},
    e ∈ listEntries c i rest ↔ ∃ listVal null, (.values listVal null, e.partitionId) ∈
      rest.zipIdx i ∧ ∃ v ∈ listVal, e.listValue = c.shift v := by
  intro rest
  induction rest with
  | nil => simp [listEntries]
  | cons x rest ih =>
    intro i
    cases x with
    | default => simp [listEntries, zipIdx_cons, ih]
    | values listVal null =>
      rw [listEntries, mem_append, mem_map, ih, zipIdx_cons]
      constructor
      · rintro (⟨v, hv, rfl⟩ | ⟨l, n, hmem, hv⟩)
        · exact ⟨listVal, null, mem_cons_self, v, hv, rfl⟩
        · exact ⟨l, n, mem_cons_of_mem _ hmem, hv⟩
      · rintro ⟨l, n, hmem, v, hv, he⟩
        rcases mem_cons.mp hmem with heq | hmem
        · cases heq
          exact .inl ⟨v, hv, by rw [← he]⟩
        · exact .inr ⟨l, n, hmem, v, hv, he⟩

lemma isChain_lt_of_not_hasDuplicate : ∀ {entries : List ListPartEntry},
    entries.IsChain (fun e e' => e.listValue ≤ e'.listValue) → hasDuplicate entries = false →
      entries.IsChain fun e e' => e.listValue < e'.listValue
  | [], _, _ => .nil
  | [_], _, _ => .singleton _
  | _ :: _ :: _, hle, h => by
    simp only [hasDuplicate, Bool.or_eq_false_iff, beq_eq_false_iff_ne] at h
    exact .cons_cons (lt_of_le_of_ne hle.rel h.1.symm)
      (isChain_lt_of_not_hasDuplicate hle.of_cons h.2)

lemma checkListConstants_eq_some (h : checkListConstants c parts = some info) :
    info.column = c ∧ info.partType = .list ∧
      (∀ e, e ∈ info.listArray ↔ ∃ listVal null,
        parts[e.partitionId]? = some (.values listVal null) ∧ ∃ v ∈ listVal,
          e.listValue = c.shift v) ∧
      info.listArray.Pairwise (fun e e' => e.listValue < e'.listValue) ∧
      (∀ k, (info.definedMaxValue = true ∧ info.defaultPartitionId = k) ↔
        ∃ x, parts[k]? = some x ∧ x.isDefault = true) ∧
      ∀ k, (info.hasNullValue = true ∧ info.hasNullPartId = k) ↔
        ∃ x, parts[k]? = some x ∧ x.hasNull = true := by
  rw [checkListConstants] at h
  split_ifs at h with hnil
  obtain ⟨default, hdefault, h⟩ := Option.bind_eq_some_iff.mp h
  obtain ⟨null, hnull, h⟩ := Option.bind_eq_some_iff.mp h
  dsimp only at h
  split_ifs at h with hdup
  cases h
  have hindex : ∀ (r : Option Nat) k, (r.isSome = true ∧ r.getD 0 = k) ↔ r = some k := by
    rintro (_ | i) k <;> simp
  refine ⟨rfl, rfl, fun e => ?_, ?_, fun k => ?_, fun k => ?_⟩
  · rw [(perm_insertionSort _ _).mem_iff, mem_listEntries]
    simp only [mem_zipIdx_iff_getElem?]
  · have hsorted := pairwise_insertionSort
      (fun e e' : ListPartEntry => e.listValue ≤ e'.listValue) (listEntries c 0 parts)
    have : IsTrans ListPartEntry fun e e' => e.listValue < e'.listValue := ⟨fun _ _ _ => lt_trans⟩
    exact (isChain_lt_of_not_hasDuplicate hsorted.isChain (by simpa using hdup)).pairwise
  · simp only [hindex, onlyIndex_spec hdefault, reduceCtorEq, false_or, mem_zipIdx_iff_getElem?]
  · simp only [hindex, onlyIndex_spec hnull, reduceCtorEq, false_or, mem_zipIdx_iff_getElem?]

lemma checkListConstants_spec (h : checkListConstants c parts = some info) :
    info.column = c ∧ ListInfo info := by
  obtain ⟨hcolumn, htype, hmem, hascend, hdefault, hnull⟩ := checkListConstants_eq_some h
  refine ⟨hcolumn, htype, hascend, fun hmax e he heq => ?_, fun hmax hhas heq => ?_⟩
  · obtain ⟨x, hx, hdef⟩ := (hdefault _).mp ⟨hmax, heq.symm⟩
    obtain ⟨listVal, null, hval, -⟩ := (hmem e).mp he
    obtain rfl := Option.some.inj (hx.symm.trans hval)
    simp [ListElement.isDefault] at hdef
  · obtain ⟨x, hx, hdef⟩ := (hdefault _).mp ⟨hmax, heq.symm⟩
    obtain ⟨y, hy, hhas⟩ := (hnull _).mp ⟨hhas, rfl⟩
    obtain rfl := Option.some.inj (hx.symm.trans hy)
    cases x with
    | default => simp [ListElement.hasNull] at hhas
    | values => simp [ListElement.isDefault] at hdef

end List

end MariaDB.Partition
