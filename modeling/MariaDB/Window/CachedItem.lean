import Mathlib

/-!
# Cached items

`GROUP BY`, the partitions and the `RANGE` frames find the bounds of their groups with
`Cached_item` objects, which remember the value of the row before. The three classes change the
value and the NULL flag under different conditions.
-/
namespace MariaDB.Window

open List

inductive CachedKind where
  | int
  | decimal
  | field
deriving DecidableEq

structure CachedItem (V : Type) where
  kind : CachedKind
  nullValue : Bool
  value : V

namespace CachedItem

section Cmp

variable {V : Type} [DecidableEq V] [Zero V]

/-- `cmp()` of the three classes with the value of the current row; `val_int()` of NULL is 0.
`Cached_item_decimal` says nothing of a value that becomes NULL. -/
def cmp (c : CachedItem V) (v : Option V) : Bool × CachedItem V :=
  match c.kind, v with
  | .int, v =>
    let nr := v.getD 0
    if c.nullValue ≠ v.isNone ∨ nr ≠ c.value then
      (true, { c with nullValue := v.isNone, value := nr })
    else (false, c)
  | .decimal, none => (false, { c with nullValue := true })
  | .decimal, some value | .field, some value =>
    if c.nullValue ∨ value ≠ c.value then (true, { c with nullValue := false, value })
    else (false, c)
  | .field, none => (!c.nullValue, { c with nullValue := true })

/-- The loop of `test_if_group_changed()`; its counter is the number of items behind. -/
def groupLoop : List Bool → Int → Int
  | [], idx => idx
  | changed :: rest, idx => groupLoop rest (if changed then rest.length else idx)

def testIfGroupChanged (cs : List (CachedItem V)) (row : List (Option V)) :
    Int × List (CachedItem V) :=
  (groupLoop (zipWith (fun c v => (c.cmp v).1) cs row) (-1),
    zipWith (fun c v => (c.cmp v).2) cs row)

/-- The number of the first element with the property, or -1. -/
def leftmost {α : Type} (p : α → Bool) (l : List α) : Int := (l.findIdx? p).elim (-1) (·)

/-- The item remembers a value. -/
structure Holds (c : CachedItem V) (u : Option V) : Prop where
  nullValue : c.nullValue = u.isNone
  value : ∀ x, u = some x → c.value = x
  zero : c.kind = .int → u = none → c.value = 0

/-- What `cmp()` reports of a change. -/
def Seen (kind : CachedKind) (u v : Option V) : Prop := u ≠ v ∧ ¬(kind = .decimal ∧ v = none)

instance (kind : CachedKind) (u v : Option V) : Decidable (Seen kind u v) :=
  inferInstanceAs (Decidable (_ ∧ _))

/-- After a comparison the item remembers the row, whatever it remembered before. -/
lemma cmp_holds (c : CachedItem V) (v : Option V) :
    (c.cmp v).2.Holds v ∧ (c.cmp v).2.kind = c.kind := by
  obtain ⟨kind, n, x⟩ := c
  cases kind <;> cases v <;> refine ⟨⟨?_, ?_, ?_⟩, ?_⟩ <;> grind [cmp]

lemma cmp_fst {c : CachedItem V} (h : c.Holds u) (v : Option V) :
    (c.cmp v).1 = decide (Seen c.kind u v) := by
  obtain ⟨hnull, hvalue, hzero⟩ := h
  cases hkind : c.kind <;> cases u <;> cases v <;> grind [cmp, Seen]

lemma groupLoop_eq (l : List Bool) (idx : Int) :
    groupLoop l idx = (l.reverse.findIdx? id).elim idx (·) := by
  induction l generalizing idx with
  | nil => rfl
  | cons changed rest ih =>
    rw [groupLoop, ih, reverse_cons, findIdx?_append]
    cases h : rest.reverse.findIdx? id <;> cases changed <;> simp

lemma leftmost_eq_iff {α : Type} {p q : α → Bool} (hpq : ∀ a, q a → p a) (l : List α) :
    leftmost q l = leftmost p l ↔ ∀ a, l.find? p = some a → q a := by
  have hinj : leftmost q l = leftmost p l ↔ l.findIdx? q = l.findIdx? p := by
    unfold leftmost
    cases l.findIdx? q <;> cases l.findIdx? p <;> simp
  rw [hinj]
  clear hinj
  induction l with
  | nil => simp
  | cons a l ih =>
    have := hpq a
    have hinj : Function.Injective (Option.map (· + 1 : Nat → Nat)) :=
      Option.map_injective (add_left_injective 1)
    cases hp : p a <;> cases hq : q a <;> simp_all [findIdx?_cons, hinj.eq_iff]

/-- What is reported of a row after another one, from any state of the items. Each triple is an
item, its value in the row before and its value in the row. -/
lemma testIfGroupChanged_fst (l : List (CachedItem V × Option V × Option V)) :
    (testIfGroupChanged (testIfGroupChanged (l.map (·.1)) (l.map (·.2.1))).2 (l.map (·.2.2))).1 =
      leftmost (fun e => Seen e.1.kind e.2.1 e.2.2) l.reverse := by
  have hflags : zipWith (fun c v => (c.cmp v).1)
      (zipWith (fun c v => (c.cmp v).2) (l.map (·.1)) (l.map (·.2.1))) (l.map (·.2.2)) =
      l.map fun e => decide (Seen e.1.kind e.2.1 e.2.2) := by
    induction l with
    | nil => rfl
    | cons e l ih =>
      obtain ⟨hholds, hkind⟩ := cmp_holds e.1 e.2.1
      simp only [map_cons, zipWith_cons_cons, ih, cmp_fst hholds, hkind]
  rw [testIfGroupChanged, testIfGroupChanged, hflags, groupLoop_eq, ← map_reverse, findIdx?_map]
  rfl

end Cmp

/-- `Cached_item_int::cmp_read_only()`, which compares signed numbers. -/
def cmpReadOnlyInt (c : CachedItem (BitVec 64)) (v : Option (BitVec 64)) : Ordering :=
  match c.nullValue, v with
  | true, none => .eq
  | true, some _ => .lt
  | false, none => .gt
  | false, some nr => if nr = c.value then .eq else if nr.slt c.value then .gt else .lt

/-- `Cached_item_decimal::cmp_read_only()` -/
def cmpReadOnlyDecimal (c : CachedItem ℚ) (v : Option ℚ) : Ordering :=
  match c.nullValue, v with
  | true, none => .eq
  | true, some _ => .lt
  | false, none => .gt
  | false, some value => compare c.value value

def compareNull {α : Type} [Ord α] : Option α → Option α → Ordering
  | none, none => .eq
  | none, some _ => .lt
  | some _, none => .gt
  | some a, some b => compare a b

def number (unsigned : Bool) (b : BitVec 64) : Int := if unsigned then b.toNat else b.toInt

lemma number_signed (a b : BitVec 64) :
    (if b = a then Ordering.eq else if b.slt a then .gt else .lt) =
      compare (number false a) (number false b) := by
  have hinj : a = b ↔ a.toInt = b.toInt := BitVec.toInt_inj.symm
  simp only [number, compare, compareOfLessAndEq, BitVec.slt]
  grind

lemma compare_number_iff (unsigned : Bool) (a b : BitVec 64) :
    compare (number false a) (number false b) = compare (number unsigned a) (number unsigned b) ↔
      (unsigned = true → a.msb = b.msb) := by
  have ha := a.toInt_eq_msb_cond
  have hb := b.toInt_eq_msb_cond
  have := a.isLt
  have := b.isLt
  have := a.msb_eq_decide
  have := b.msb_eq_decide
  cases unsigned
  · simp
  · simp only [number, compare, compareOfLessAndEq]
    grind

/-- The change that is reported is the leftmost one, if this is not a DECIMAL that becomes NULL. The
items are kept from the last to the first, so that the order of `GROUP BY` is `l.reverse`. The
comparison without side effect is that of the values, if unsigned values are on the same side of
`2 ^ 63`. -/
theorem cachedItem_spec {V : Type} [DecidableEq V] [Zero V]
    (l : List (CachedItem V × Option V × Option V)) (c : CachedItem (BitVec 64)) (unsigned : Bool)
    (u v : Option (BitVec 64)) (d : CachedItem ℚ) (x y : Option ℚ) :
    ((testIfGroupChanged (testIfGroupChanged (l.map (·.1)) (l.map (·.2.1))).2 (l.map (·.2.2))).1 =
      leftmost (fun e => e.2.1 ≠ e.2.2) l.reverse ↔
      ∀ e, l.reverse.find? (fun e => e.2.1 ≠ e.2.2) = some e →
        ¬(e.1.kind = .decimal ∧ e.2.2 = none)) ∧
    ((c.cmp u).2.cmpReadOnlyInt v =
      compareNull (u.map (number unsigned)) (v.map (number unsigned)) ↔
      ∀ a b, u = some a → v = some b → unsigned = true → a.msb = b.msb) ∧
    (d.cmp x).2.cmpReadOnlyDecimal y = compareNull x y := by
  refine ⟨?_, ?_, ?_⟩
  · rw [testIfGroupChanged_fst]
    refine (leftmost_eq_iff (fun e => by simp +contextual [Seen]) l.reverse).trans ?_
    refine forall₂_congr fun e he => ?_
    have hne : e.2.1 ≠ e.2.2 := by simpa using find?_some he
    simp only [decide_eq_true_eq]
    grind [Seen]
  · obtain ⟨⟨hnull, hvalue, -⟩, -⟩ := cmp_holds c u
    cases u with
    | none => cases v <;> simp_all [cmpReadOnlyInt, compareNull]
    | some a =>
      cases v with
      | none => simp_all [cmpReadOnlyInt, compareNull]
      | some b =>
        simp only [cmpReadOnlyInt, hnull, hvalue a rfl, compareNull, Option.map_some,
          Option.isNone_some, number_signed, compare_number_iff]
        grind
  · obtain ⟨⟨hnull, hvalue, -⟩, -⟩ := cmp_holds d x
    cases x <;> cases y <;> simp_all [cmpReadOnlyDecimal, compareNull]

/-- The change from 1 to NULL is not reported, and `2 ^ 63` is compared as less than 1. -/
theorem not_cachedItem_spec :
    (let l : List (CachedItem ℤ × Option ℤ × Option ℤ) := [(⟨.decimal, false, 0⟩, some 1, none)]
    (testIfGroupChanged (testIfGroupChanged (l.map (·.1)) (l.map (·.2.1))).2 (l.map (·.2.2))).1 ≠
      leftmost (fun e => e.2.1 ≠ e.2.2) l.reverse) ∧
    cmpReadOnlyInt ⟨.int, false, .intMin 64⟩ (some 1) ≠
      compareNull (some (number true (.intMin 64))) (some (number true 1)) := by
  exact ⟨by decide, by decide⟩

end CachedItem

end MariaDB.Window
