import Mathlib

/-!
# Lists of PARTITION BY and ORDER BY elements

The comparison of two lists skips constants. It finds the first two elements that differ, or
that one of the lists is the beginning of the other. A constant at the end of a list is
skipped only when the other list has not ended before. What the comparison returns depends on
the list without its constants, its core, and on whether the list ends with a constant.
-/
namespace MariaDB.Window

open List

/-- An item: a field of the temporary table, an expression or a constant. -/
inductive Item
  | field (index : Nat)
  | expr (id : Nat)
  | const (id : Nat)
  deriving DecidableEq, Repr

inductive Direction
  | asc
  | desc
  deriving DecidableEq, Repr

structure Order where
  item : Item
  direction : Direction
  deriving DecidableEq, Repr

/-- The results `CMP_LT`, `CMP_LT_C`, `CMP_EQ`, `CMP_GT_C` and `CMP_GT` of the comparisons;
those with a C are between lists that can share one sort. -/
inductive Cmp
  | lt
  | ltC
  | eq
  | gtC
  | gt
  deriving DecidableEq, Repr

namespace Cmp

def pos : Cmp → Bool
  | gtC | gt => true
  | _ => false

/-- `CMP_LT_C <= cmp && cmp <= CMP_GT_C`. -/
def compatible : Cmp → Bool
  | ltC | eq | gtC => true
  | _ => false

end Cmp

def Item.isConst : Item → Bool
  | .const _ => true
  | _ => false

def Order.isConst (o : Order) : Bool := o.item.isConst

def Item.address : Item → Nat
  | .field index => index
  | .expr id => id
  | .const id => id

def Direction.compare : Direction → Direction → Cmp
  | .asc, .desc => .lt
  | .desc, .asc => .gt
  | _, _ => .eq

/-- The end of `compare_order_elements()`. -/
def compareDirections (cmp : Ordering) (ord1 ord2 : Order) : Cmp :=
  match cmp with
  | .lt => .lt
  | .eq => ord1.direction.compare ord2.direction
  | .gt => .gt

/-- `compare_order_elements()`. A field and an expression are `CMP_LT` in either order. -/
def compareOrderElements (ord1 : Order) (weight1 : Nat) (ord2 : Order) (weight2 : Nat) : Cmp :=
  if ord1 = ord2 then .eq
  else
    match ord1.item, ord2.item with
    | .field i, .field j => compareDirections (compare i j) ord1 ord2
    | .field _, _ => .lt
    | _, .field _ => .lt
    | item1, item2 =>
      compareDirections (if weight1 ≠ weight2 then compare weight1 weight2
        else compare item1.address item2.address) ord1 ord2

def compareRests : List Order → List Order → Cmp
  | _ :: _, _ => .gtC
  | [], _ :: _ => .ltC
  | [], [] => .eq

/-- The loop of `compare_order_lists()`; every pass takes an element of the first list. -/
def compareLoop (number1 number2 : Nat) : Nat → List Order → List Order → Cmp
  | 0, elem1, elem2 => compareRests elem1 elem2
  | fuel + 1, elem1, elem2 =>
    if elem1 = [] ∨ elem2 = [] then compareRests elem1 elem2
    else
      match elem1.dropWhile (·.isConst), elem2.dropWhile (·.isConst) with
      | o1 :: rest1, o2 :: rest2 =>
        match compareOrderElements o1 number1 o2 number2 with
        | .eq => compareLoop number1 number2 fuel rest1 rest2
        | cmp => cmp
      | elem1, elem2 => compareRests elem1 elem2

/-- `compare_order_lists()`; lists at one address have the same elements. -/
def compareOrderLists (list1 : List Order) (number1 : Nat) (list2 : List Order)
    (number2 : Nat) : Cmp :=
  compareLoop number1 number2 list1.length list1 list2

def core (l : List Order) : List Order := l.filter fun o => !o.isConst

def endsConst : List Order → Bool
  | [] => false
  | [o] => o.isConst
  | _ :: o :: l => endsConst (o :: l)

def compareCores (number1 number2 : Nat) : List Order → Bool → List Order → Bool → Cmp
  | o1 :: rest1, b1, o2 :: rest2, b2 =>
    match compareOrderElements o1 number1 o2 number2 with
    | .eq => compareCores number1 number2 rest1 b1 rest2 b2
    | cmp => cmp
  | _ :: _, _, [], _ => .gtC
  | [], _, _ :: _, _ => .ltC
  | [], true, [], false => .gtC
  | [], false, [], true => .ltC
  | [], _, [], _ => .eq

attribute [simp] compareCores

section Elements

variable {d1 d2 : Direction}

lemma Direction.compare_eq_iff : d1.compare d2 = .eq ↔ d1 = d2 := by
  cases d1 <;> cases d2 <;> decide

lemma Direction.compare_gt (h : d1.compare d2 = .gt) : d2.compare d1 = .lt := by
  cases d1 <;> cases d2 <;> first | rfl | cases h

def Cmp.Strict (c : Cmp) : Prop := c = .lt ∨ c = .eq ∨ c = .gt

variable {ord1 ord2 : Order}

lemma compareDirections_strict (cmp : Ordering) : (compareDirections cmp ord1 ord2).Strict := by
  unfold compareDirections
  cases cmp with
  | lt => exact .inl rfl
  | gt => exact .inr (.inr rfl)
  | eq => cases ord1.direction <;> cases ord2.direction <;> simp [Direction.compare, Cmp.Strict]

lemma compareDirections_eq {cmp : Ordering} (h : compareDirections cmp ord1 ord2 = .eq) :
    cmp = .eq ∧ ord1.direction = ord2.direction := by
  cases cmp with
  | lt | gt => cases h
  | eq => exact ⟨rfl, Direction.compare_eq_iff.mp h⟩

lemma compareDirections_gt {cmp cmp' : Ordering} (hswap : cmp' = cmp.swap)
    (h : compareDirections cmp ord1 ord2 = .gt) : compareDirections cmp' ord2 ord1 = .lt := by
  subst hswap
  cases cmp with
  | lt => cases h
  | gt => rfl
  | eq => exact Direction.compare_gt h

lemma compareOrderElements_strict : (compareOrderElements ord1 weight1 ord2 weight2).Strict := by
  unfold compareOrderElements
  by_cases h : ord1 = ord2
  · rw [if_pos h]
    exact .inr (.inl rfl)
  · rw [if_neg h]
    split
    · exact compareDirections_strict _
    · exact .inl rfl
    · exact .inl rfl
    · exact compareDirections_strict _

lemma compareOrderElements_self (o : Order) : compareOrderElements o weight1 o weight2 = .eq :=
  if_pos rfl

lemma compareOrderElements_eq (h1 : ord1.isConst = false) (h2 : ord2.isConst = false)
    (h : compareOrderElements ord1 weight1 ord2 weight2 = .eq) : ord1 = ord2 := by
  unfold compareOrderElements at h
  by_cases hne : ord1 = ord2
  · exact hne
  · rw [if_neg hne] at h
    obtain ⟨item1, d1⟩ := ord1
    obtain ⟨item2, d2⟩ := ord2
    cases item1 with
    | const => cases h1
    | field =>
      cases item2 with
      | const => cases h2
      | expr => cases h
      | field =>
        obtain ⟨hij, rfl⟩ := compareDirections_eq h
        rw [Nat.compare_eq_eq.mp hij]
    | expr i =>
      cases item2 with
      | const => cases h2
      | field => cases h
      | expr j =>
        obtain ⟨hij, rfl⟩ := compareDirections_eq h
        split_ifs at hij with hw
        · exact absurd (Nat.compare_eq_eq.mp hij) hw
        · rw [show i = j from Nat.compare_eq_eq.mp hij]

lemma compareOrderElements_gt (h : compareOrderElements ord1 weight1 ord2 weight2 = .gt) :
    compareOrderElements ord2 weight2 ord1 weight1 = .lt := by
  unfold compareOrderElements at h ⊢
  by_cases hne : ord1 = ord2
  · rw [if_pos hne] at h
    cases h
  · rw [if_neg hne] at h
    rw [if_neg (Ne.symm hne)]
    have hswap : ∀ a b : Nat, compare b a = (compare a b).swap := fun a b =>
      (Nat.compare_swap a b).symm
    obtain ⟨item1, d1⟩ := ord1
    obtain ⟨item2, d2⟩ := ord2
    have hother : ∀ a b : Nat,
        (if weight2 ≠ weight1 then compare weight2 weight1 else compare b a) =
        (if weight1 ≠ weight2 then compare weight1 weight2 else compare a b).swap := by
      intro a b
      by_cases hw : weight1 = weight2
      · rw [if_neg (by simp [hw]), if_neg (by simp [hw]), hswap]
      · rw [if_pos (Ne.symm hw), if_pos hw, hswap]
    cases item1 with
    | field i =>
      cases item2 with
      | field j => exact compareDirections_gt (hswap i j) h
      | expr | const => cases h
    | expr | const =>
      cases item2 with
      | field => cases h
      | expr | const => exact compareDirections_gt (hother _ _) h

lemma compareOrderElements_weight (h : ord1.item = .field i) (w w' : Nat) (ord2 : Order)
    (weight2 : Nat) :
    compareOrderElements ord1 w ord2 weight2 = compareOrderElements ord1 w' ord2 weight2 ∧
    compareOrderElements ord2 weight2 ord1 w = compareOrderElements ord2 weight2 ord1 w' := by
  unfold compareOrderElements
  rw [h]
  cases ord2.item <;> exact ⟨rfl, rfl⟩

end Elements

section Cores

def NoConst (l : List Order) : Prop := ∀ o ∈ l, o.isConst = false

attribute [local simp] Cmp.compatible Cmp.pos core

lemma noConst_core (l : List Order) : NoConst (core l) := by
  intro o ho
  simpa using (mem_filter.mp ho).2

lemma core_append (l l' : List Order) : core (l ++ l') = core l ++ core l' := filter_append ..

variable {o : Order}

lemma core_cons_const (h : o.isConst = true) (l : List Order) : core (o :: l) = core l := by
  simp [h]

lemma core_cons_other (h : o.isConst = false) (l : List Order) : core (o :: l) = o :: core l := by
  simp [h]

lemma endsConst_cons_other (h : o.isConst = false) (l : List Order) :
    endsConst (o :: l) = endsConst l := by
  cases l with
  | nil => exact h
  | cons => rfl

lemma skip_spec : ∀ (l : List Order), l ≠ [] →
    (l.dropWhile (·.isConst) = [] ∧ core l = [] ∧ endsConst l = true) ∨
    ∃ o rest, l.dropWhile (·.isConst) = o :: rest ∧ o.isConst = false ∧
      core l = o :: core rest ∧ endsConst l = endsConst rest ∧ rest.length < l.length := by
  intro l
  induction l with
  | nil => exact fun h => absurd rfl h
  | cons o l ih =>
    intro _
    cases ho : o.isConst with
    | false =>
      refine .inr ⟨o, l, ?_, ho, core_cons_other ho l, endsConst_cons_other ho l, by simp⟩
      exact dropWhile_cons_of_neg (by simp [ho])
    | true =>
      rw [dropWhile_cons_of_pos (by simp [ho]), core_cons_const ho]
      cases l with
      | nil => exact .inl ⟨rfl, rfl, ho⟩
      | cons o' l =>
        rcases ih (cons_ne_nil o' l) with h | ⟨x, rest, hdrop, hx, hcore, hend, hlen⟩
        · exact .inl h
        · exact .inr ⟨x, rest, hdrop, hx, hcore, hend, Nat.lt_succ_of_lt hlen⟩

lemma compareRests_nil (number1 number2 : Nat) (l : List Order) :
    compareRests [] l = compareCores number1 number2 (core []) (endsConst []) (core l)
      (endsConst l) ∧
    compareRests l [] = compareCores number1 number2 (core l) (endsConst l) (core [])
      (endsConst []) := by
  cases l with
  | nil => exact ⟨rfl, rfl⟩
  | cons o l =>
    rcases skip_spec (o :: l) (cons_ne_nil o l) with
      ⟨-, hcore, hend⟩ | ⟨x, rest, -, -, hcore, -⟩
    · rw [hcore, hend]
      exact ⟨rfl, rfl⟩
    · rw [hcore]
      exact ⟨rfl, rfl⟩

lemma compareLoop_eq (number1 number2 : Nat) : ∀ (fuel : Nat) (l1 l2 : List Order),
    l1.length ≤ fuel → compareLoop number1 number2 fuel l1 l2 =
      compareCores number1 number2 (core l1) (endsConst l1) (core l2) (endsConst l2) := by
  intro fuel
  induction fuel with
  | zero =>
    intro l1 l2 hlen
    obtain rfl := length_eq_zero_iff.mp (Nat.le_zero.mp hlen)
    exact (compareRests_nil number1 number2 l2).1
  | succ fuel ih =>
    intro l1 l2 hlen
    rw [compareLoop]
    by_cases h1 : l1 = []
    · subst h1
      rw [if_pos (.inl rfl)]
      exact (compareRests_nil number1 number2 l2).1
    · by_cases h2 : l2 = []
      · subst h2
        rw [if_pos (.inr rfl)]
        exact (compareRests_nil number1 number2 l1).2
      · rw [if_neg (by simp [h1, h2])]
        rcases skip_spec l1 h1 with ⟨hdrop1, hcore1, hend1⟩ |
          ⟨o1, rest1, hdrop1, ho1, hcore1, hend1, hlen1⟩
        · rcases skip_spec l2 h2 with ⟨hdrop2, hcore2, hend2⟩ |
            ⟨o2, rest2, hdrop2, ho2, hcore2, hend2, hlen2⟩
          · rw [hdrop1, hdrop2, hcore1, hcore2, hend1, hend2]
            rfl
          · rw [hdrop1, hdrop2, hcore1, hcore2, hend1]
            rfl
        · rcases skip_spec l2 h2 with ⟨hdrop2, hcore2, hend2⟩ |
            ⟨o2, rest2, hdrop2, ho2, hcore2, hend2, hlen2⟩
          · rw [hdrop1, hdrop2, hcore1, hcore2]
            rfl
          · rw [hdrop1, hdrop2, hcore1, hcore2, hend1, hend2]
            dsimp only
            rw [compareCores, ih rest1 rest2 (by omega)]

lemma compareOrderLists_eq (l1 : List Order) (number1 : Nat) (l2 : List Order) (number2 : Nat) :
    compareOrderLists l1 number1 l2 number2 =
      compareCores number1 number2 (core l1) (endsConst l1) (core l2) (endsConst l2) :=
  compareLoop_eq number1 number2 _ l1 l2 (Nat.le_refl _)

variable {number1 number2 : Nat}

/-- Two cores that differ first in `o1` and `o2`. -/
lemma not_prefix_of_ne (h : o1 ≠ o2) (c1 c2 : List Order) :
    ¬ (o1 :: c1 <+: o2 :: c2 ∨ o2 :: c2 <+: o1 :: c1) := by
  rintro (hpre | hpre)
  · exact h (cons_prefix_cons.mp hpre).1
  · exact h (cons_prefix_cons.mp hpre).1.symm

lemma compareCores_cons_self (o : Order) (c1 c2 : List Order) (b1 b2 : Bool) :
    compareCores number1 number2 (o :: c1) b1 (o :: c2) b2 =
      compareCores number1 number2 c1 b1 c2 b2 := by
  rw [compareCores, compareOrderElements_self]

variable (number1 number2) in
lemma compareCores_cons_ne (ho1 : o1.isConst = false)
    (ho2 : o2.isConst = false) (ho : o1 ≠ o2) (c1 c2 : List Order) (b1 b2 : Bool) :
    compareCores number1 number2 (o1 :: c1) b1 (o2 :: c2) b2 =
        compareOrderElements o1 number1 o2 number2 ∧
      (compareOrderElements o1 number1 o2 number2 = .lt ∨
        compareOrderElements o1 number1 o2 number2 = .gt) := by
  have hstrict : (compareOrderElements o1 number1 o2 number2).Strict := compareOrderElements_strict
  rw [compareCores]
  rcases hstrict with h | h | h
  · rw [h]
    exact ⟨rfl, .inl rfl⟩
  · exact absurd (compareOrderElements_eq ho1 ho2 h) ho
  · rw [h]
    exact ⟨rfl, .inr rfl⟩

@[elab_as_elim] lemma cores_induction {P : List Order → List Order → Prop} (nil : P [] [])
    (left : ∀ o c, P [] (o :: c)) (right : ∀ o c, P (o :: c) [])
    (same : ∀ o c1 c2, P c1 c2 → P (o :: c1) (o :: c2))
    (differ : ∀ o1 o2 c1 c2, o1.isConst = false → o2.isConst = false → o1 ≠ o2 →
      P (o1 :: c1) (o2 :: c2)) : ∀ {c1 c2 : List Order}, NoConst c1 → NoConst c2 → P c1 c2
  | [], [], _, _ => nil
  | [], o :: c, _, _ => left o c
  | o :: c, [], _, _ => right o c
  | o1 :: c1, o2 :: c2, h1, h2 => by
    obtain ⟨ho1, hc1⟩ := forall_mem_cons.mp h1
    obtain ⟨ho2, hc2⟩ := forall_mem_cons.mp h2
    by_cases ho : o1 = o2
    · subst ho
      exact same o1 c1 c2 (cores_induction nil left right same differ hc1 hc2)
    · exact differ o1 o2 c1 c2 ho1 ho2 ho

lemma compareCores_compatible (b1 b2 : Bool) (h1 : NoConst c1) (h2 : NoConst c2) :
    (compareCores number1 number2 c1 b1 c2 b2).compatible = true ↔ c1 <+: c2 ∨ c2 <+: c1 := by
  refine cores_induction ?_ ?_ ?_ ?_ ?_ h1 h2
  · cases b1 <;> cases b2 <;> simp
  · simp
  · simp
  · intro o c1 c2 ih
    rw [compareCores_cons_self, ih, prefix_cons_inj, prefix_cons_inj]
  · intro o1 o2 c1 c2 ho1 ho2 ho
    refine iff_of_false ?_ (not_prefix_of_ne ho c1 c2)
    obtain ⟨-, h | h⟩ := compareCores_cons_ne number1 number2 ho1 ho2 ho c1 c2 b1 b2 <;>
      simp [h]

lemma compareCores_prefix_of_not_pos : ∀ {c1 c2 : List Order} {b1 b2 : Bool},
    (compareCores number1 number2 c1 b1 c2 b2).pos = false → c2 <+: c1 → c1 = c2 := by
  intro c1
  induction c1 with
  | nil => exact fun _ hpre => (prefix_nil.mp hpre).symm
  | cons o1 c1 ih =>
    intro c2 b1 b2 hpos hpre
    cases c2 with
    | nil => simp at hpos
    | cons =>
      obtain ⟨rfl, hrest⟩ := cons_prefix_cons.mp hpre
      rw [compareCores_cons_self] at hpos
      rw [ih hpos hrest]

lemma compareCores_eq_iff (h1 : NoConst c1)
    (h2 : NoConst c2) : compareCores number1 number2 c1 b1 c2 b2 = .eq ↔ c1 = c2 ∧ b1 = b2 := by
  refine cores_induction ?_ ?_ ?_ ?_ ?_ h1 h2
  · cases b1 <;> cases b2 <;> simp
  · simp
  · simp
  · intro o c1 c2 ih
    rw [compareCores_cons_self, ih, cons_inj_right]
  · intro o1 o2 c1 c2 ho1 ho2 ho
    refine iff_of_false ?_ fun h => ho (cons.inj h.1).1
    obtain ⟨-, h | h⟩ := compareCores_cons_ne number1 number2 ho1 ho2 ho c1 c2 b1 b2 <;>
      simp [h]

/-- If the first list is greater, then the second one is not. -/
lemma compareCores_pos (h1 : NoConst c1) (h2 : NoConst c2) :
    (compareCores number1 number2 c1 b1 c2 b2).pos = true →
      (compareCores number2 number1 c2 b2 c1 b1).pos = false := by
  refine cores_induction ?_ ?_ ?_ ?_ ?_ h1 h2
  · cases b1 <;> cases b2 <;> simp
  · simp
  · simp
  · intro o c1 c2 ih
    rwa [compareCores_cons_self, compareCores_cons_self]
  · intro o1 o2 c1 c2 ho1 ho2 ho h
    obtain ⟨heq, hlt | hgt⟩ := compareCores_cons_ne number1 number2 ho1 ho2 ho c1 c2 b1 b2
    · rw [heq, hlt] at h
      cases h
    · obtain ⟨heq', -⟩ := compareCores_cons_ne number2 number1 ho2 ho1 (Ne.symm ho) c2 c1 b2 b1
      rw [heq', compareOrderElements_gt hgt]
      rfl

lemma compareCores_ends : ∀ {c1 c2 : List Order} {b1 b2 : Bool} (b1' b2' : Bool),
    (compareCores number1 number2 c1 b1 c2 b2).compatible = false →
    compareCores number1 number2 c1 b1' c2 b2' = compareCores number1 number2 c1 b1 c2 b2 := by
  intro c1
  induction c1 with
  | nil =>
    intro c2 b1 b2 b1' b2' h
    cases c2 with
    | nil => cases b1 <;> cases b2 <;> cases h
    | cons => cases h
  | cons o1 c1 ih =>
    intro c2 b1 b2 b1' b2' h
    cases c2 with
    | nil => cases h
    | cons o2 =>
      rw [compareCores] at h ⊢
      rw [compareCores]
      cases hcmp : compareOrderElements o1 number1 o2 number2 with
      | eq =>
        rw [hcmp] at h
        exact ih b1' b2' h
      | _ => rfl

/-- The numbers of the specifications matter for expressions only. -/
def NoExpr (l : List Order) : Prop := ∀ o ∈ l, ∃ i, o.item = .field i

lemma compareCores_number : ∀ {c1 : List Order}, NoExpr c1 → ∀ (n n' : Nat)
    (c2 : List Order) (b1 b2 : Bool),
    compareCores n number2 c1 b1 c2 b2 = compareCores n' number2 c1 b1 c2 b2 ∧
    compareCores number2 n c2 b2 c1 b1 = compareCores number2 n' c2 b2 c1 b1 := by
  intro c1
  induction c1 with
  | nil =>
    intro _ n n' c2 b1 b2
    cases c2 <;> cases b1 <;> cases b2 <;> exact ⟨rfl, rfl⟩
  | cons o1 c1 ih =>
    intro h n n' c2 b1 b2
    cases c2 with
    | nil => exact ⟨rfl, rfl⟩
    | cons o2 c2 =>
      obtain ⟨⟨i, ho1⟩, hc1⟩ := forall_mem_cons.mp h
      obtain ⟨hweight, hweight'⟩ := compareOrderElements_weight ho1 n n' o2 number2
      obtain ⟨hrec, hrec'⟩ := ih hc1 n n' c2 b1 b2
      constructor
      · rw [compareCores, compareCores, hweight, hrec]
      · rw [compareCores, compareCores, hweight', hrec']

end Cores

end MariaDB.Window
