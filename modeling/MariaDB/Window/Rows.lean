import MariaDB.Window.Order

/-!
# Rows in the order of a list

What a window function needs of the order of the rows: the rows of a partition are
contiguous, and they are in the order of its own list. Rows that are sorted by a list serve
every function whose lists, without constants, are the beginning of it.
-/
namespace MariaDB.Window

variable {V : Type} [LinearOrder V] {F : Type}

/-- A row of the temporary table: the values of its fields and of the expressions. -/
structure Row (V : Type) where
  field : Nat → V
  expr : Nat → V

/-- The value of an item; a constant has the same one in all rows. -/
def Item.value (consts : Nat → V) (row : Row V) : Item → V
  | .field i => row.field i
  | .expr id => row.expr id
  | .const id => consts id

def Order.compareRows (consts : Nat → V) (o : Order) (r r' : Row V) : Ordering :=
  match o.direction with
  | .asc => compare (o.item.value consts r) (o.item.value consts r')
  | .desc => compare (o.item.value consts r') (o.item.value consts r)

def compareBy (consts : Nat → V) : List Order → Row V → Row V → Ordering
  | [], _, _ => .eq
  | o :: l, r, r' => (o.compareRows consts r r').then (compareBy consts l r r')

def SortedBy (consts : Nat → V) (l : List Order) (rows : List (Row V)) : Prop :=
  rows.Pairwise fun r r' => compareBy consts l r r' ≠ .gt

def Agree (consts : Nat → V) (l : List Order) (r r' : Row V) : Prop :=
  ∀ o ∈ l, o.item.value consts r = o.item.value consts r'

/-- The partitions of a specification are contiguous in `rows` and in the order of its order
list. -/
structure Serves (consts : Nat → V) (rows : List (Row V)) (spec : Spec F) : Prop where
  contiguous : ∀ r₁ r₂ r₃, [r₁, r₂, r₃].Sublist rows → Agree consts spec.partitionList r₁ r₃ →
    Agree consts spec.partitionList r₁ r₂
  ordered : rows.Pairwise fun r r' => Agree consts spec.partitionList r r' →
    compareBy consts spec.orderList r r' ≠ .gt

variable {consts : Nat → V}

lemma Order.compareRows_eq_iff {o : Order} :
    o.compareRows consts r r' = .eq ↔ o.item.value consts r = o.item.value consts r' := by
  unfold Order.compareRows
  cases o.direction with
  | asc => exact compare_eq_iff_eq
  | desc => exact compare_eq_iff_eq.trans eq_comm

lemma Order.compareRows_swap (o : Order) (r r' : Row V) :
    (o.compareRows consts r r').swap = o.compareRows consts r' r := by
  unfold Order.compareRows
  cases o.direction with
  | asc | desc => exact Std.OrientedOrd.eq_swap.symm

lemma Order.compareRows_const {o : Order} (h : o.isConst = true) (r r' : Row V) :
    o.compareRows consts r r' = .eq := by
  rw [Order.compareRows_eq_iff]
  unfold Order.isConst Item.isConst at h
  cases hitem : o.item with
  | const id => rfl
  | field | expr => simp [hitem] at h

lemma compareBy_eq_iff : ∀ {l : List Order} {r r' : Row V},
    compareBy consts l r r' = .eq ↔ Agree consts l r r' := by
  intro l
  induction l with
  | nil => exact fun {r r'} => iff_of_true rfl fun o ho => nomatch ho
  | cons o l ih =>
    intro r r'
    rw [compareBy, Ordering.then_eq_eq, Order.compareRows_eq_iff, ih]
    unfold Agree
    rw [List.forall_mem_cons]

lemma compareBy_swap : ∀ (l : List Order) (r r' : Row V),
    (compareBy consts l r r').swap = compareBy consts l r' r := by
  intro l
  induction l with
  | nil => exact fun r r' => rfl
  | cons o l ih =>
    intro r r'
    rw [compareBy, compareBy, Ordering.swap_then, Order.compareRows_swap, ih]

lemma compareBy_append (l l' : List Order) (r r' : Row V) :
    compareBy consts (l ++ l') r r' =
      (compareBy consts l r r').then (compareBy consts l' r r') := by
  induction l with
  | nil => rfl
  | cons o l ih => rw [List.cons_append, compareBy, compareBy, ih, Ordering.then_assoc]

lemma compareBy_core (l : List Order) (r r' : Row V) :
    compareBy consts (core l) r r' = compareBy consts l r r' := by
  induction l with
  | nil => rfl
  | cons o l ih =>
    cases ho : o.isConst with
    | true => rw [core_cons_const ho, ih, compareBy, Order.compareRows_const ho]; rfl
    | false => rw [core_cons_other ho, compareBy, compareBy, ih]

lemma Agree.compareBy_right : ∀ {l : List Order} {r r' : Row V}, Agree consts l r r' →
    ∀ x : Row V, compareBy consts l x r = compareBy consts l x r' := by
  intro l
  induction l with
  | nil => exact fun _ _ => rfl
  | cons o l ih =>
    intro r r' h x
    obtain ⟨ho, hl⟩ := List.forall_mem_cons.mp h
    rw [compareBy, compareBy, ih hl x]
    unfold Order.compareRows
    rw [ho]

lemma not_gt_of_prefix (h : compareBy consts (l ++ l' ++ t) r r' ≠ .gt) :
    compareBy consts l r r' ≠ .gt ∧ (Agree consts l r r' → compareBy consts l' r r' ≠ .gt) := by
  rw [compareBy_append, compareBy_append] at h
  constructor
  · intro hgt
    rw [hgt] at h
    exact h rfl
  · intro hagree hgt
    rw [compareBy_eq_iff.mpr hagree, hgt] at h
    exact h rfl

lemma serves_of_prefix {spec : Spec F} (hpre : core spec.joined <+: core order)
    (hrows : SortedBy consts order rows) : Serves consts rows spec := by
  obtain ⟨t, ht⟩ := hpre
  rw [Spec.joined, core_append] at ht
  have hpair : ∀ {r r' : Row V}, compareBy consts order r r' ≠ .gt →
      compareBy consts spec.partitionList r r' ≠ .gt ∧
        (Agree consts spec.partitionList r r' → compareBy consts spec.orderList r r' ≠ .gt) := by
    intro r r' h
    rw [← compareBy_core, ← ht] at h
    obtain ⟨hpart, hord⟩ := not_gt_of_prefix h
    rw [compareBy_core] at hpart hord
    refine ⟨hpart, fun hagree => hord ?_⟩
    rwa [← compareBy_eq_iff, compareBy_core, compareBy_eq_iff]
  constructor
  · intro r₁ r₂ r₃ hsub hagree
    have hsorted := hrows.sublist hsub
    obtain ⟨h₁, hrest⟩ := List.pairwise_cons.mp hsorted
    obtain ⟨h₂, -⟩ := List.pairwise_cons.mp hrest
    have h₁₂ := (hpair (h₁ r₂ (by simp))).1
    have h₂₃ := (hpair (h₂ r₃ (by simp))).1
    have hback : compareBy consts spec.partitionList r₂ r₁ ≠ .gt := by
      rwa [hagree.compareBy_right r₂]
    rw [← compareBy_swap] at hback
    rw [← compareBy_eq_iff]
    cases hcmp : compareBy consts spec.partitionList r₁ r₂ with
    | eq => rfl
    | gt => exact absurd hcmp h₁₂
    | lt => rw [hcmp] at hback; exact absurd rfl hback
  · exact hrows.imp fun h => (hpair h).2

end MariaDB.Window
