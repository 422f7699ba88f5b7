import Mathlib

/-!
# Partition iterators

Pruning leaves the partitions to read in an iterator: a range of partition numbers, or of
indexes in the array of list constants, and two flags for the partition of NULL and for the
DEFAULT partition.
-/
namespace MariaDB.Partition

structure PartitionIterator where
  start : Nat
  cur : Nat
  stop : Nat
  retNullPart : Bool
  retNullPartOrig : Bool
  retDefaultPart : Bool
  retDefaultPartOrig : Bool
  deriving DecidableEq, Repr

def getNextPartitionIdRange (it : PartitionIterator) : Option Nat × PartitionIterator :=
  if it.stop ≤ it.cur then
    if it.retNullPart then (some 0, { it with retNullPart := false })
    else (none, { it with cur := it.start, retNullPart := it.retNullPartOrig })
  else (some it.cur, { it with cur := it.cur + 1 })

/-- What `get_next_partition_id_list()` reads of the partitioning. -/
structure ListIds where
  /-- The partition of each entry of the array of list constants. -/
  partitionId : List Nat
  hasNullPartId : Nat
  defaultPartitionId : Nat

def getNextPartitionIdList (ids : ListIds) (it : PartitionIterator) :
    Option Nat × PartitionIterator :=
  if it.stop ≤ it.cur then
    if it.retNullPart then (some ids.hasNullPartId, { it with retNullPart := false })
    else if it.retDefaultPart then
      (some ids.defaultPartitionId, { it with retDefaultPart := false })
    else
      (none, { it with cur := it.start, retNullPart := it.retNullPartOrig,
                       retDefaultPart := it.retDefaultPartOrig })
  else (some (ids.partitionId.getD it.cur 0), { it with cur := it.cur + 1 })

/-- What the first `n` calls return, up to `NOT_A_PARTITION_ID`. -/
def returned (getNext : PartitionIterator → Option Nat × PartitionIterator) :
    Nat → PartitionIterator → List Nat
  | 0, _ => []
  | n + 1, it =>
    match getNext it with
    | (some p, it') => p :: returned getNext n it'
    | (none, _) => []

def Returns (getNext : PartitionIterator → Option Nat × PartitionIterator)
    (it : PartitionIterator) (p : Nat) : Prop :=
  ∃ n, p ∈ returned getNext n it

section Returns

lemma returns_of_some (h : getNext it = (some q, it')) :
    Returns getNext it p ↔ p = q ∨ Returns getNext it' p := by
  constructor
  · rintro ⟨_ | n, hn⟩
    · simp [returned] at hn
    · rw [returned, h] at hn
      exact (List.mem_cons.mp hn).imp_right fun hn => ⟨n, hn⟩
  · rintro (rfl | ⟨n, hn⟩)
    · exact ⟨1, by simp [returned, h]⟩
    · exact ⟨n + 1, by rw [returned, h]; exact List.mem_cons_of_mem _ hn⟩

lemma not_returns_of_none (h : getNext it = (none, it')) : ¬ Returns getNext it p := by
  rintro ⟨_ | n, hn⟩
  · simp [returned] at hn
  · simp [returned, h] at hn

/-- An iterator that walks its range first: what it returns are the identifiers of the range
and what it returns at the end of the range. -/
lemma returns_iff_range (idAt : Nat → Nat)
    (hwalk : ∀ it : PartitionIterator, it.cur < it.stop →
      getNext it = (some (idAt it.cur), { it with cur := it.cur + 1 })) :
    ∀ (k : Nat) (it : PartitionIterator), it.stop - it.cur = k →
      (Returns getNext it p ↔ (∃ i, it.cur ≤ i ∧ i < it.stop ∧ idAt i = p) ∨
        Returns getNext { it with cur := max it.cur it.stop } p) := by
  intro k
  induction k with
  | zero =>
    intro it hk
    have hcur : max it.cur it.stop = it.cur := by omega
    rw [hcur]
    refine ⟨Or.inr, ?_⟩
    rintro (⟨i, hi, hlt, -⟩ | h)
    · omega
    · exact h
  | succ k ih =>
    intro it hk
    rw [returns_of_some (hwalk it (by omega)), ih _ (by dsimp only; omega)]
    have hcur : max (it.cur + 1) it.stop = max it.cur it.stop := by omega
    dsimp only
    rw [hcur, ← or_assoc]
    refine or_congr_left ⟨?_, ?_⟩
    · rintro (rfl | ⟨i, hi, hlt, rfl⟩)
      · exact ⟨it.cur, Nat.le_refl _, by omega, rfl⟩
      · exact ⟨i, by omega, hlt, rfl⟩
    · rintro ⟨i, hi, hlt, rfl⟩
      rcases Nat.eq_or_lt_of_le hi with rfl | hi
      · exact .inl rfl
      · exact .inr ⟨i, hi, hlt, rfl⟩

end Returns

section Range

variable (it : PartitionIterator)

lemma not_returns_range_end (hend : it.stop ≤ it.cur) (hnull : it.retNullPart = false) :
    ¬ Returns getNextPartitionIdRange it p :=
  not_returns_of_none (by rw [getNextPartitionIdRange, if_pos hend, if_neg (by simp [hnull])])

lemma returns_range_end (hend : it.stop ≤ it.cur) :
    Returns getNextPartitionIdRange it p ↔ it.retNullPart = true ∧ p = 0 := by
  by_cases hnull : it.retNullPart = true
  · rw [returns_of_some (by rw [getNextPartitionIdRange, if_pos hend, if_pos hnull])]
    simp [hnull, not_returns_range_end { it with retNullPart := false } hend rfl]
  · have hno := not_returns_range_end (p := p) it hend (by simpa using hnull)
    simp [hno, hnull]

lemma returns_range_iff :
    Returns getNextPartitionIdRange it p ↔
      (it.cur ≤ p ∧ p < it.stop) ∨ (it.retNullPart = true ∧ p = 0) := by
  have hwalk : ∀ it : PartitionIterator, it.cur < it.stop →
      getNextPartitionIdRange it = (some (id it.cur), { it with cur := it.cur + 1 }) :=
    fun it h => by rw [getNextPartitionIdRange, if_neg (Nat.not_le.mpr h)]; rfl
  rw [returns_iff_range id hwalk _ it rfl, returns_range_end _ (Nat.le_max_right _ _)]
  simp

end Range

section List

variable (ids : ListIds) (it : PartitionIterator)

lemma not_returns_list_end (hend : it.stop ≤ it.cur) (hnull : it.retNullPart = false)
    (hdef : it.retDefaultPart = false) : ¬ Returns (getNextPartitionIdList ids) it p :=
  not_returns_of_none (by
    rw [getNextPartitionIdList, if_pos hend, if_neg (by simp [hnull]), if_neg (by simp [hdef])])

lemma returns_list_default (hend : it.stop ≤ it.cur) (hnull : it.retNullPart = false) :
    Returns (getNextPartitionIdList ids) it p ↔
      it.retDefaultPart = true ∧ p = ids.defaultPartitionId := by
  by_cases hdef : it.retDefaultPart = true
  · rw [returns_of_some (by
      rw [getNextPartitionIdList, if_pos hend, if_neg (by simp [hnull]), if_pos hdef])]
    have hno := not_returns_list_end (p := p) ids { it with retDefaultPart := false } hend hnull rfl
    simp [hdef, hno]
  · have hno := not_returns_list_end (p := p) ids it hend hnull (by simpa using hdef)
    simp [hno, hdef]

lemma returns_list_end (hend : it.stop ≤ it.cur) :
    Returns (getNextPartitionIdList ids) it p ↔
      (it.retNullPart = true ∧ p = ids.hasNullPartId) ∨
        (it.retDefaultPart = true ∧ p = ids.defaultPartitionId) := by
  by_cases hnull : it.retNullPart = true
  · rw [returns_of_some (by rw [getNextPartitionIdList, if_pos hend, if_pos hnull]),
      returns_list_default _ { it with retNullPart := false } hend rfl]
    simp [hnull]
  · rw [returns_list_default _ _ hend (by simpa using hnull)]
    simp [hnull]

lemma returns_list_iff :
    Returns (getNextPartitionIdList ids) it p ↔
      (∃ i, it.cur ≤ i ∧ i < it.stop ∧ ids.partitionId.getD i 0 = p) ∨
        (it.retNullPart = true ∧ p = ids.hasNullPartId) ∨
        (it.retDefaultPart = true ∧ p = ids.defaultPartitionId) := by
  have hwalk : ∀ it : PartitionIterator, it.cur < it.stop → getNextPartitionIdList ids it =
      (some (ids.partitionId.getD it.cur 0), { it with cur := it.cur + 1 }) :=
    fun it h => by rw [getNextPartitionIdList, if_neg (Nat.not_le.mpr h)]
  rw [returns_iff_range (fun i => ids.partitionId.getD i 0) hwalk _ it rfl,
    returns_list_end _ _ (Nat.le_max_right _ _)]

end List

end MariaDB.Partition
