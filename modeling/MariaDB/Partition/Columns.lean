import MariaDB.Library.Lexicographic
import MariaDB.Partition.Mapping

/-!
# RANGE COLUMNS and LIST COLUMNS partitioning

The bounds of the partitions, or the list constants, are tuples of column values. A bound may
have MAXVALUE in a column, which is above all values and makes the columns after it
irrelevant. An interval is given by two tuples that may be prefixes of the list of columns.
The order of the values of a column is that of `Field::cmp()`; NULL is below all of them.
-/
namespace MariaDB.Partition

open Library Library.Bisect Std

inductive ColumnVal (α : Type)
  | maxValue
  | null
  | value (columnValue : α)
  deriving DecidableEq, Repr

def ColumnVal.isMaxValue {α : Type} : ColumnVal α → Bool
  | maxValue => true
  | _ => false

variable {α : Type} (cmp : Nat → α → α → Ordering)

/-- The order of the values of column `i`: NULL, the values, MAXVALUE. -/
def compareColumn (i : Nat) : ColumnVal α → ColumnVal α → Ordering
  | .maxValue, .maxValue => .eq
  | _, .maxValue => .lt
  | .maxValue, _ => .gt
  | .null, .null => .eq
  | _, .null => .gt
  | .null, _ => .lt
  | .value a, .value b => cmp i a b

def compareColumnValues : Nat → List (ColumnVal α) → List (ColumnVal α) → Ordering
  | _, [], [] => .eq
  | _, [], _ :: _ => .lt
  | _, _ :: _, [] => .gt
  | i, first :: rest, second :: rest' =>
    match first, second with
    | .maxValue, .maxValue => .eq
    | _, .maxValue => .lt
    | .maxValue, _ => .gt
    | .null, .null => compareColumnValues (i + 1) rest rest'
    | _, .null => .gt
    | .null, _ => .lt
    | .value a, .value b =>
      match cmp i a b with
      | .eq => compareColumnValues (i + 1) rest rest'
      | o => o

/-- `cmp_rec_and_tuple()` from column `i` on: the fields of the record that are compared,
where `none` is NULL, and the tuple of a partition. -/
def cmpRecAndTuple : Nat → List (Option α) → List (ColumnVal α) → Ordering
  | _, [], _ => .eq
  | _, _ :: _, [] => .gt
  | i, field :: fields, val :: vals =>
    match val, field with
    | .maxValue, _ => .lt
    | .null, none => cmpRecAndTuple (i + 1) fields vals
    | .value _, none => .lt
    | .null, some _ => .gt
    | .value b, some a =>
      match cmp i a b with
      | .eq => cmpRecAndTuple (i + 1) fields vals
      | o => o

/-- `cmp_rec_and_tuple_prune()`, of which only the sign is used. -/
def cmpRecAndTuplePrune (numColumns : Nat) (fields : List (Option α)) (val : List (ColumnVal α))
    (left incl : Bool) : Ordering :=
  match cmpRecAndTuple cmp 0 fields val with
  | .eq =>
    if fields.length = numColumns then if incl then .eq else if left then .gt else .lt
    else if left = incl then .lt
    else if left = false ∧ val[fields.length]?.any ColumnVal.isMaxValue = true then .lt
    else .gt
  | o => o

/-- The parts of `partition_info` that the searches by columns read. -/
structure ColumnsInfo (α : Type) where
  numColumns : Nat
  /-- `store_length_array`, the lengths of the columns in a key image. -/
  storeLength : List Nat
  partType : PartType
  numParts : Nat
  rangeColArray : List (List (ColumnVal α))
  /-- `list_col_array`, with `partition_id`. -/
  listColArray : List (List (ColumnVal α) × Nat)
  definedMaxValue : Bool
  defaultPartitionId : Nat

section Definition

/-- The loop of `check_range_constants()` over the bounds after the first one. -/
def boundsIncrease : List (List (ColumnVal α)) → Bool
  | bound :: next :: rest =>
    decide (compareColumnValues cmp 0 bound next = .lt) && boundsIncrease (next :: rest)
  | _ => true

/-- The tuples of a partition of a LIST COLUMNS partitioned table. -/
inductive ColumnsElement (α : Type)
  | default
  | values (listVal : List (List (ColumnVal α)))

def ColumnsElement.isDefault : ColumnsElement α → Bool
  | default => true
  | values _ => false

def ColumnsElement.hasValues : ColumnsElement α → Bool
  | default => true
  | values listVal => !listVal.isEmpty

def columnsEntries : Nat → List (ColumnsElement α) → List (List (ColumnVal α) × Nat)
  | _, [] => []
  | i, .default :: rest => columnsEntries (i + 1) rest
  | i, .values listVal :: rest =>
    listVal.map (fun val => (val, i)) ++ columnsEntries (i + 1) rest

def hasDuplicateTuple : List (List (ColumnVal α) × Nat) → Bool
  | e :: e' :: rest =>
    decide (compareColumnValues cmp 0 e'.1 e.1 = .eq) || hasDuplicateTuple (e' :: rest)
  | _ => false

/-- The columns of the table, with what a key image has for each. -/
structure Columns where
  storeLength : List Nat
  pos : ∀ length ∈ storeLength, 0 < length

variable (columns : Columns)

/-- `check_range_constants()` for the bounds of the partitions; `none` is an error. Every
tuple has a value for each column. -/
def checkRangeColumns (bounds : List (List (ColumnVal α))) : Option (ColumnsInfo α) :=
  if bounds ≠ [] ∧ (∀ bound ∈ bounds, bound.length = columns.storeLength.length) ∧
      boundsIncrease cmp bounds = true then
    some { numColumns := columns.storeLength.length, storeLength := columns.storeLength,
           partType := .range, numParts := bounds.length, rangeColArray := bounds,
           listColArray := [], definedMaxValue := false, defaultPartitionId := 0 }
  else none

/-- `fix_parser_data()` and `check_list_constants()` for the tuples of the partitions: there
is at most one DEFAULT partition, every other one has a tuple, and no tuple is listed
twice. -/
def checkListColumns (parts : List (ColumnsElement α)) : Option (ColumnsInfo α) :=
  let entries := (columnsEntries 0 parts).insertionSort
    fun e e' => compareColumnValues cmp 0 e.1 e'.1 ≠ .gt
  if parts ≠ [] ∧ (parts.filter ColumnsElement.isDefault).length ≤ 1 ∧
      parts.all ColumnsElement.hasValues = true ∧
      (∀ entry ∈ entries, entry.1.length = columns.storeLength.length) ∧
      hasDuplicateTuple cmp entries = false then
    some { numColumns := columns.storeLength.length, storeLength := columns.storeLength,
           partType := .list, numParts := parts.length, rangeColArray := [],
           listColArray := entries, definedMaxValue := parts.any ColumnsElement.isDefault,
           defaultPartitionId := parts.findIdx ColumnsElement.isDefault }
  else none

end Definition

section Searches

variable (info : ColumnsInfo α)

def getPartitionIdRangeCol (row : List (Option α)) : Option Nat :=
  let notBelow := fun i =>
    decide (cmpRecAndTuple cmp 0 row (info.rangeColArray.getD i []) ≠ .lt)
  let maxPartition := info.numParts - 1
  let loc := lastStep notBelow maxPartition 0 maxPartition
  let loc := if loc ≠ maxPartition ∧ notBelow loc = true then loc + 1 else loc
  if loc = maxPartition ∧ notBelow loc = true then none else some loc

/-- The tuple at index `i` of `list_col_array`. -/
def listTuple (i : Nat) : List (ColumnVal α) := (info.listColArray.map Prod.fst).getD i []

def getPartitionIdListCol (row : List (Option α)) : Option Nat :=
  let notFound := if info.definedMaxValue then some info.defaultPartitionId else none
  if info.listColArray = [] then notFound
  else
    match find (fun i => (cmpRecAndTuple cmp 0 row (listTuple info i)).swap)
        info.listColArray.length with
    | .ok i => some ((info.listColArray.map Prod.snd).getD i 0)
    | .error _ => notFound

def getPartitionIdColsRangeForEndpoint (fields : List (Option α)) (left incl : Bool) : Nat :=
  let loc := first (fun i => decide (cmpRecAndTuplePrune cmp info.numColumns fields
    (info.rangeColArray.getD i []) left incl ≠ .lt)) info.numParts
  if left = false ∧ loc < info.numParts then loc + 1 else loc

def getPartitionIdColsListForEndpoint (fields : List (Option α)) (left incl : Bool) : Nat :=
  match bisectOpen (fun i => (cmpRecAndTuplePrune cmp info.numColumns fields
      (listTuple info i) left incl).swap) info.listColArray.length 0
      info.listColArray.length with
  | .ok i => if left = false ∧ incl = true ∧ i < info.listColArray.length then i + 1 else i
  | .error i => i

end Searches

section Mapping

/-- The key image of a column: the null byte and the bytes of the value. -/
structure KeyPart (α : Type) where
  isNull : Bool
  image : α
  deriving DecidableEq, Repr

/-- The field after `store_tuple_to_record()`. -/
def KeyPart.field (part : KeyPart α) : Option α := if part.isNull then none else some part.image

def storeTupleToRecord (tuple : List (KeyPart α)) : List (Option α) := tuple.map KeyPart.field

variable [DecidableEq α] (info : ColumnsInfo α) (minValue maxValue : List (KeyPart α))
  (flags : IntervalFlags)

def keyLength (tuple : List (KeyPart α)) : Nat := (info.storeLength.take tuple.length).sum

def canMatchMultipleTuples : Bool :=
  flags.any || decide (keyLength info minValue ≠ keyLength info maxValue) ||
    decide (keyLength info minValue ≠ info.storeLength.sum) || decide (minValue ≠ maxValue)

def getColEndpoint : List (Option α) → Bool → Bool → Nat :=
  match info.partType with
  | .range => getPartitionIdColsRangeForEndpoint cmp info
  | .list => getPartitionIdColsListForEndpoint cmp info

def getPartIterForIntervalColsViaMap (it : PartitionIterator) : Int × PartitionIterator :=
  let hasDefault := info.partType == .list && info.definedMaxValue
  if hasDefault = true ∧ info.numParts = 1 then (-1, it)
  else
    let it :=
      if canMatchMultipleTuples info minValue maxValue flags && hasDefault then
        { it with retDefaultPart := true, retDefaultPartOrig := true }
      else it
    let start :=
      if flags.noMinRange then 0
      else getColEndpoint cmp info (storeTupleToRecord minValue) true (!flags.nearMin)
    let stop :=
      if flags.noMaxRange then
        match info.partType with
        | .range => info.numParts
        | .list => info.listColArray.length
      else getColEndpoint cmp info (storeTupleToRecord maxValue) false (!flags.nearMax)
    let it := { it with start, cur := start, stop }
    if start = stop then
      if hasDefault then (1, { it with retDefaultPart := true, retDefaultPartOrig := true })
      else (0, it)
    else (1, it)

def getNextCols : PartitionIterator → Option Nat × PartitionIterator :=
  match info.partType with
  | .range => getNextPartitionIdRange
  | .list => getNextPartitionIdList ⟨info.listColArray.map Prod.snd, 0, info.defaultPartitionId⟩

def getPartitionIdCols : List (Option α) → Option Nat :=
  match info.partType with
  | .range => getPartitionIdRangeCol cmp info
  | .list => getPartitionIdListCol cmp info

end Mapping

section Order

/-- The order of the values of column `i` of a row, NULL first. -/
def compareField (i : Nat) : Option α → Option α → Ordering
  | none, none => .eq
  | none, some _ => .lt
  | some _, none => .gt
  | some a, some b => cmp i a b

/-- The tuple of a row or of an endpoint, as one of a partition. -/
def toColumnVal : Option α → ColumnVal α
  | none => .null
  | some a => .value a

variable {cmp}

lemma compareColumn_toColumnVal (i : Nat) (a b : Option α) :
    compareColumn cmp i (toColumnVal a) (toColumnVal b) = compareField cmp i a b := by
  cases a <;> cases b <;> rfl

lemma prefixCompare_toColumnVal : ∀ (xs ys : List (Option α)) (i : Nat),
    prefixCompare (compareColumn cmp) i (xs.map toColumnVal) (ys.map toColumnVal) =
      prefixCompare (compareField cmp) i xs ys := by
  intro xs
  induction xs with
  | nil => exact fun ys i => rfl
  | cons x xs ih =>
    rintro (_ | ⟨y, ys⟩) i
    · rfl
    · simp [prefixCompare, compareColumn_toColumnVal, ih]

lemma cmpRecAndTuple_eq : ∀ (fields : List (Option α)) (vals : List (ColumnVal α)) (i : Nat),
    cmpRecAndTuple cmp i fields vals =
      prefixCompare (compareColumn cmp) i (fields.map toColumnVal) vals := by
  intro fields
  induction fields with
  | nil => exact fun vals i => rfl
  | cons field fields ih =>
    rintro (_ | ⟨val, vals⟩) i
    · rfl
    · cases val with
      | maxValue => cases field <;> rfl
      | null =>
        cases field with
        | none => exact ih vals (i + 1)
        | some a => rfl
      | value b =>
        cases field with
        | none => rfl
        | some a =>
          simp only [cmpRecAndTuple, List.map_cons, prefixCompare, toColumnVal, compareColumn]
          cases cmp i a b with
          | lt | gt => rfl
          | eq => exact ih vals (i + 1)

variable [∀ i, TransCmp (cmp i)]

instance (i : Nat) : TransCmp (compareColumn cmp i) where
  eq_swap := by
    intro a b
    cases a <;> cases b <;> simp [compareColumn]
    exact OrientedCmp.eq_swap
  isLE_trans := by
    intro a b c h h'
    cases a <;> cases b <;> cases c <;> simp [compareColumn] at h h' ⊢
    exact TransCmp.isLE_trans h h'

end Order

end MariaDB.Partition
