import Mathlib

/-!
# Aggregates with removal

A window function whose frame moves takes rows out of `COUNT`, `SUM` and the bit aggregates. The
bit aggregates count the values and the values with each bit for this.
-/
namespace MariaDB.Window.Removal

open Multiset

section Run

variable {S α : Type} (clear : S) (add remove : S → Option α → S) (removable : Option α → Prop)

/-- The states after `clear()` and calls of `add()` and `remove()`, with the rows that were added
and not removed. -/
inductive Run : S → Multiset (Option α) → Prop
  | clear : Run clear 0
  | add {s : S} {rows : Multiset (Option α)} (x : Option α) :
    Run s rows → card rows + 1 < 2 ^ 63 → Run (add s x) (x ::ₘ rows)
  | remove {s : S} {rows : Multiset (Option α)} (x : Option α) :
    Run s (x ::ₘ rows) → removable x → Run (remove s x) rows

variable {clear add remove removable}

lemma coe_append_singleton (l : List α) (x : α) : ((l ++ [x] : List α) : Multiset α) = x ::ₘ l :=
  coe_eq_coe.mpr (List.perm_append_singleton x l)

lemma Run.foldl (l : List (Option α)) (h : l.length < 2 ^ 63) :
    Run clear add remove removable (l.foldl add clear) l := by
  induction l using List.reverseRecOn with
  | nil => exact .clear
  | append_singleton l x ih =>
    rw [List.length_append, List.length_singleton] at h
    rw [List.foldl_append, coe_append_singleton]
    exact .add x (ih (by omega)) h

lemma Run.card_lt (h : Run clear add remove removable s rows) : card rows < 2 ^ 63 := by
  induction h with
  | clear => simp
  | add x _ hlt => simpa using hlt
  | remove x _ _ ih =>
    rw [card_cons] at ih
    omega

end Run

/-! ### COUNT and SUM -/

def countAdd {α : Type} (count : Nat) (x : Option α) : Nat :=
  if x.isNone then count else (count + 1) % 2 ^ 64

def countRemove {α : Type} (count : Nat) (x : Option α) : Nat :=
  if x.isNone then count else if 0 < count then count - 1 else count

/-- `Item_sum_sum` of exact numbers; a sum that fits a DECIMAL is exact. -/
structure ItemSumSum where
  decBuffs : Bool → ℚ
  currDecBuff : Bool
  count : Nat
  nullValue : Bool

namespace ItemSumSum

def clear (decBuffs : Bool → ℚ) : ItemSumSum := ⟨Function.update decBuffs false 0, false, 0, true⟩

def addHelper (performRemoval : Bool) (s : ItemSumSum) : Option ℚ → ItemSumSum
  | none => s
  | some val =>
    let store (sum : ℚ) (count : Nat) : ItemSumSum :=
      ⟨Function.update s.decBuffs (!s.currDecBuff) sum, !s.currDecBuff, count, !decide (0 < count)⟩
    if performRemoval then
      if 0 < s.count then store (s.decBuffs s.currDecBuff - val) (s.count - 1) else s
    else store (val + s.decBuffs s.currDecBuff) ((s.count + 1) % 2 ^ 64)

def valDecimal (s : ItemSumSum) : Option ℚ :=
  if s.nullValue then none else some (s.decBuffs s.currDecBuff)

end ItemSumSum

lemma Run.count_eq {α : Type} {rows : Multiset (Option α)}
    (h : Run 0 countAdd countRemove (fun _ => True) s rows) : s = rows.countP (·.isSome) := by
  induction h with
  | clear => rfl
  | @add s rows x _ hlt ih =>
    have := countP_le_card (·.isSome) rows
    cases x <;> simp [countAdd, ih]
    omega
  | remove x _ _ ih => cases x <;> simp_all [countRemove]

lemma Run.sum_eq (buffs : Bool → ℚ) {s : ItemSumSum} {rows : Multiset (Option ℚ)}
    (h : Run (.clear buffs) (.addHelper false) (.addHelper true) (fun _ => True) s rows) :
    s.count = rows.countP (·.isSome) ∧ s.decBuffs s.currDecBuff = (rows.map (·.getD 0)).sum ∧
      s.nullValue = !decide (0 < s.count) := by
  induction h with
  | clear => exact ⟨rfl, rfl, rfl⟩
  | @add s rows x _ hlt ih =>
    have := countP_le_card (·.isSome) rows
    cases x with
    | none => simp_all [ItemSumSum.addHelper]
    | some v =>
      simp [ItemSumSum.addHelper, ih]
      omega
  | remove x _ _ ih => cases x <;> simp_all [ItemSumSum.addHelper]

/-! ### The bit aggregates -/

inductive BitKind where
  | or
  | and
  | xor

structure ItemSumBit where
  bits : BitVec 64
  numValuesAdded : Nat
  bitCounters : Fin 64 → Nat

namespace BitKind

def resetBits : BitKind → BitVec 64
  | and => .allOnes 64
  | _ => 0

/-- `1 << i` of an `int`, whose shift count is taken modulo 32. -/
def intShift (i : Fin 64) : BitVec 64 := (1#32 <<< (i.val % 32)).signExtend 64

def collect (p : Fin 64 → Bool) (bit : Fin 64 → BitVec 64) : BitVec 64 :=
  (List.finRange 64).foldl (fun value i => value ||| if p i then bit i else 0) 0

variable (kind : BitKind)

def setBitsFromCounters (n : Nat) (c : Fin 64 → Nat) : BitVec 64 :=
  match kind with
  | or => collect (fun i => 0 < c i) (1#64 <<< ·.val) ||| kind.resetBits
  | xor => collect (fun i => c i % 2 = 1) intShift ^^^ kind.resetBits
  | and =>
    if n = 0 then kind.resetBits
    else collect (fun i => c i = n) (1#64 <<< ·.val) &&& kind.resetBits

def window (n : Nat) (c : Fin 64 → Nat) : ItemSumBit :=
  ⟨kind.setBitsFromCounters n c, n, c⟩

def add (s : ItemSumBit) : Option (BitVec 64) → ItemSumBit
  | none => s
  | some value => kind.window (max s.numValuesAdded ((s.numValuesAdded + 1) % 2 ^ 64))
      fun i => (s.bitCounters i + (value.getLsbD i).toNat) % 2 ^ 64

/-- `remove()` does not look at NULL, whose `val_int()` is 0. -/
def remove (s : ItemSumBit) (x : Option (BitVec 64)) : ItemSumBit :=
  if s.numValuesAdded = 0 then s
  else kind.window (s.numValuesAdded - 1) fun i =>
    if s.bitCounters i = 0 then 0 else s.bitCounters i - ((x.getD 0).getLsbD i).toNat

/-- `add()` of an item that is no window function. -/
def addPlain (bits : BitVec 64) : Option (BitVec 64) → BitVec 64
  | none => bits
  | some value =>
    match kind with
    | or => bits ||| value
    | and => bits &&& value
    | xor => bits ^^^ value

/-- A bit of the result, from the number of values with it and the number of values. -/
def bitOf (c n : Nat) : Bool :=
  match kind with
  | or => 0 < c
  | and => c = n
  | xor => c % 2 = 1

lemma getLsbD_collect (p : Fin 64 → Bool) (bit : Fin 64 → BitVec 64) (j : Fin 64)
    (h : ∀ i, p i → (bit i).getLsbD j = decide (i = j)) : (collect p bit).getLsbD j = p j := by
  have key : ∀ (l : List (Fin 64)) (b : BitVec 64),
      (l.foldl (fun value i => value ||| if p i then bit i else 0) b).getLsbD j =
        (b.getLsbD j || l.any fun i => p i && i = j) := by
    intro l
    induction l with
    | nil => simp
    | cons i l ih =>
      intro b
      have := h i
      rw [List.foldl_cons, ih]
      cases hp : p i <;> simp_all [Bool.or_assoc]
  rw [collect, key, Bool.eq_iff_iff]
  simp

lemma getLsbD_resetBits (j : Fin 64) :
    kind.resetBits.getLsbD j = kind.bitOf 0 0 := by
  cases kind with
  | and => exact BitVec.getLsbD_allOnes.trans (decide_eq_true j.isLt)
  | or | xor => simp [resetBits, bitOf]

lemma getLsbD_setBitsFromCounters (j : Fin 64) (hle : c j ≤ n)
    (hxor : kind = .xor → ∀ i : Fin 64, 31 ≤ i.val → c i = 0) :
    (kind.setBitsFromCounters n c).getLsbD j = kind.bitOf (c j) n := by
  have hreset := kind.getLsbD_resetBits j
  have hbit : ∀ i : Fin 64, (1#64 <<< i.val).getLsbD j = decide (i = j) := by
    intro i
    simp only [BitVec.getLsbD_shiftLeft, BitVec.getLsbD_one]
    grind
  cases kind with
  | or =>
    have := getLsbD_collect (fun i => 0 < c i) _ j fun i _ => hbit i
    simp_all [setBitsFromCounters, bitOf]
  | and =>
    have := getLsbD_collect (fun i => c i = n) _ j fun i _ => hbit i
    rw [setBitsFromCounters]
    split_ifs with hn
    · rw [hreset]
      simp [bitOf]
      omega
    · simp_all [bitOf]
  | xor =>
    have hint : ∀ i : Fin 64, c i % 2 = 1 → (intShift i).getLsbD j = decide (i = j) := by
      intro i hi
      have hlt : i.val < 31 := by
        by_contra hge
        simp [hxor rfl i (by omega)] at hi
      simp only [intShift, BitVec.getLsbD_signExtend, BitVec.getLsbD_shiftLeft,
        BitVec.getLsbD_one, BitVec.msb_shiftLeft]
      grind
    have := getLsbD_collect (fun i => c i % 2 = 1) intShift j (by simpa using hint)
    simp_all [setBitsFromCounters, bitOf]

def bitCount (rows : Multiset (Option (BitVec 64))) (i : Fin 64) : Nat :=
  (rows.map fun x => (x.any (·.getLsbD i)).toNat).sum

variable {x : Option (BitVec 64)} {rows : Multiset (Option (BitVec 64))} {i : Fin 64}

lemma bitCount_cons : bitCount (x ::ₘ rows) i = bitCount rows i + (x.any (·.getLsbD i)).toNat := by
  rw [bitCount, map_cons, sum_cons, add_comm, ← bitCount]

lemma bitCount_le (rows : Multiset (Option (BitVec 64))) (i : Fin 64) :
    bitCount rows i ≤ rows.countP (·.isSome) := by
  induction rows using Multiset.induction with
  | empty => simp [bitCount]
  | cons x rows ih =>
    rw [bitCount_cons, countP_cons]
    cases x with
    | none => simpa using ih
    | some v => exact Nat.add_le_add ih (Bool.toNat_le _)

lemma getLsbD_foldl_addPlain (j : Fin 64) (l : List (Option (BitVec 64))) :
    (l.foldl kind.addPlain kind.resetBits).getLsbD j =
      kind.bitOf (bitCount l j) (countP (·.isSome) (l : Multiset (Option (BitVec 64)))) := by
  induction l using List.reverseRecOn with
  | nil => exact kind.getLsbD_resetBits j
  | append_singleton l x ih =>
    have hle := bitCount_le l j
    rw [List.foldl_append, coe_append_singleton, countP_cons, bitCount_cons]
    generalize bitCount l j = c at *
    generalize countP (·.isSome) (l : Multiset (Option (BitVec 64))) = n at *
    cases x with
    | none => exact ih
    | some v =>
      cases kind <;> cases hv : v.getLsbD j <;>
        simp only [List.foldl_cons, List.foldl_nil, addPlain, BitVec.getLsbD_or, BitVec.getLsbD_and,
          BitVec.getLsbD_xor, ih, hv, bitOf, Option.any_some] <;> grind

lemma bitCount_eq_zero (h : ∀ x ∈ rows, x.any (·.getLsbD i) = false) : bitCount rows i = 0 := by
  rw [bitCount, map_congr rfl fun x hx => congrArg Bool.toNat (h x hx), map_const', sum_replicate]
  rfl

lemma remove_window (n : Nat) (c : Fin 64 → Nat) (x : Option (BitVec 64)) :
    kind.remove (kind.window (n + 1) c) x = kind.window n fun i =>
      if c i = 0 then 0 else c i - ((x.getD 0).getLsbD i).toNat :=
  if_neg (Nat.succ_ne_zero n)

lemma run_inv {kind : BitKind}
    (h : Run (kind.window 0 fun _ => 0) kind.add kind.remove (· ≠ none) s rows) :
    s = kind.window (rows.countP (·.isSome)) (bitCount rows) := by
  induction h with
  | clear => rfl
  | @add s rows x _ hlt ih =>
    have hcard := countP_le_card (·.isSome) rows
    subst ih
    cases x with
    | none =>
      refine congrArg₂ kind.window (countP_cons_of_neg rows nofun).symm ?_
      ext
      rw [bitCount_cons]
      rfl
    | some v =>
      refine congrArg₂ kind.window ?_ ?_
      · rw [countP_cons_of_pos _ (by rfl)]
        dsimp only [window]
        omega
      · ext i
        have := bitCount_le rows i
        have := Bool.toNat_le (v.getLsbD i)
        rw [bitCount_cons, Option.any_some]
        dsimp only [window]
        omega
  | @remove s rows x _ hx ih =>
    obtain ⟨v, rfl⟩ := Option.ne_none_iff_exists'.mp hx
    subst ih
    rw [countP_cons_of_pos _ (by rfl)]
    rw [remove_window]
    congr 1
    ext i
    rw [bitCount_cons, Option.any_some, Option.getD_some]
    split_ifs <;> omega

end BitKind

/-- After calls of `add()` and `remove()` the value is that of the plain aggregate over the rows
that are left, in any order. For the bit aggregates NULL must not be removed, and `BIT_XOR` has the
bits below 31 only. -/
theorem removal_spec {α : Type} {count : Nat} {counted : List (Option α)} {buffs buffs' : Bool → ℚ}
    {sum : ItemSumSum} {summed : List (Option ℚ)} {kind : BitKind} {s : ItemSumBit}
    {l : List (Option (BitVec 64))} :
    (Run (α := α) 0 countAdd countRemove (fun _ => True) count counted →
      count = counted.foldl countAdd 0) ∧
    (Run (.clear buffs) (ItemSumSum.addHelper false) (.addHelper true) (fun _ => True) sum summed →
      sum.valDecimal = (summed.foldl (ItemSumSum.addHelper false) (.clear buffs')).valDecimal) ∧
    (Run (kind.window 0 fun _ => 0) kind.add kind.remove (· ≠ none) s l →
      (kind = .xor → ∀ v, some v ∈ l → v.toNat < 2 ^ 31) →
        s.bits = l.foldl kind.addPlain kind.resetBits) := by
  refine ⟨fun h => ?_, fun h => ?_, fun h hxor => ?_⟩
  · rw [h.count_eq, (Run.foldl counted h.card_lt).count_eq]
  · simp only [ItemSumSum.valDecimal, Run.sum_eq buffs h,
      Run.sum_eq buffs' (.foldl summed h.card_lt)]
  · rw [BitKind.run_inv h]
    refine BitVec.eq_of_getLsbD_eq fun j hj => ?_
    refine (kind.getLsbD_setBitsFromCounters ⟨j, hj⟩ (BitKind.bitCount_le _ _)
      fun hk i hi => BitKind.bitCount_eq_zero ?_).trans (kind.getLsbD_foldl_addPlain ⟨j, hj⟩ l).symm
    intro x hx
    cases x with
    | none => rfl
    | some v =>
      have hlt := hxor hk v hx
      exact Nat.testBit_lt_two_pow (hlt.trans_le (Nat.pow_le_pow_right (by decide) hi))

/-- The aggregates of 5, after 6 was added and removed. -/
theorem removal_spec_xor :
    countRemove ([some 5, some 6].foldl countAdd 0) (some 6) = [some 5].foldl countAdd 0 ∧
    (ItemSumSum.addHelper true ([some 5, some 6].foldl (ItemSumSum.addHelper false)
      (.clear fun _ => 0)) (some 6)).valDecimal =
      ([some 5].foldl (ItemSumSum.addHelper false) (.clear fun _ => 1)).valDecimal ∧
    (BitKind.xor.remove ([some 5, some 6].foldl BitKind.xor.add (BitKind.xor.window 0 fun _ => 0))
      (some 6)).bits = 5 := by
  obtain ⟨hcount, hsum, hbits⟩ := @removal_spec ℕ _ _ _ _ _ _ .xor _ [some 5]
  exact ⟨hcount (.remove (some 6) (.add (some 6) (.add (some 5) .clear (by decide)) (by decide))
      trivial),
    hsum (.remove (some 6) (.add (some 6) (.add (some 5) .clear (by decide)) (by decide)) trivial),
    hbits (.remove (some 6) (.add (some 6) (.add (some 5) .clear (by decide)) (by decide)) nofun)
      fun _ v hv => by simp_all⟩

/-- `BIT_AND` loses the value 1 when NULL leaves the frame; `BIT_XOR` sign-extends bit 31. -/
theorem not_removal_spec :
    (∃ s l, Run (BitKind.and.window 0 fun _ => 0) BitKind.and.add BitKind.and.remove
      (fun _ => True) s (l : List _) ∧ s.bits ≠ l.foldl BitKind.and.addPlain (.allOnes 64)) ∧
    ∃ s l, Run (BitKind.xor.window 0 fun _ => 0) BitKind.xor.add BitKind.xor.remove
      (· ≠ none) s (l : List _) ∧ s.bits ≠ l.foldl BitKind.xor.addPlain 0 := by
  refine ⟨⟨_, [some 1], .remove none (.add none (.add (some 1) .clear ?_) ?_) trivial, ?_⟩,
    _, [some (2 ^ 31)], .add _ .clear ?_, ?_⟩
  on_goal 5 => exact fun h => absurd (congrArg BitVec.msb h) (by decide +kernel)
  all_goals decide

end MariaDB.Window.Removal
