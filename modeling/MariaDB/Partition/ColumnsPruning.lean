import MariaDB.Partition.Columns

/-!
# What pruning by columns keeps

The comparison of an endpoint with a tuple is not symmetric: what an endpoint that is a
prefix is compared to depends on the side of the interval and on whether it is included. It
stays monotone along the sorted tuples in all cases, so the searches find the edges, and the
partition of a row of the interval lies between them.
-/
namespace MariaDB.Partition

open Library Library.Bisect Std ColumnVal

variable {α : Type} {cmp : Nat → α → α → Ordering}

section Tuples

attribute [local simp] compareColumnValues prefixCompare isMaxValue

lemma compareColumnValues_cons (i : Nat) (x y : ColumnVal α) (xs ys : List (ColumnVal α)) :
    compareColumnValues cmp i (x :: xs) (y :: ys) =
      match compareColumn cmp i x y with
      | .eq => if x.isMaxValue then .eq else compareColumnValues cmp (i + 1) xs ys
      | o => o := by
  cases x with
  | maxValue | null => cases y <;> rfl
  | value a =>
    cases y with
    | maxValue | null => rfl
    | value b =>
      cases hab : cmp i a b <;>
        simp [compareColumn, hab]

lemma isMaxValue_eq (h : compareColumn cmp i x y = .eq) : x.isMaxValue = y.isMaxValue := by
  cases x <;> cases y <;> simp [compareColumn] at h ⊢

lemma prefixCompare_of_lt {xs ys : List (ColumnVal α)} (hlen : xs.length = ys.length)
    (h : compareColumnValues cmp i xs ys = .lt) :
    prefixCompare (compareColumn cmp) i xs ys = .lt := by
  fun_induction prefixCompare with
  | case1 _ ys => cases ys <;> simp at h hlen
  | case2 => simp at hlen
  | case3 i x xs y ys hxy ih =>
    simp only [compareColumnValues_cons, hxy] at h
    split_ifs at h
    exact ih (by simpa using hlen) h
  | case4 i x xs y ys =>
    rw [compareColumnValues_cons] at h
    cases hxy : compareColumn cmp i x y <;> simp_all

variable [∀ i, TransCmp (cmp i)]

lemma compareColumnValues_swap : ∀ (xs ys : List (ColumnVal α)) (i : Nat),
    compareColumnValues cmp i xs ys = (compareColumnValues cmp i ys xs).swap := by
  intro xs
  induction xs with
  | nil => rintro (_ | ⟨y, ys⟩) i <;> rfl
  | cons x xs ih =>
    rintro (_ | ⟨y, ys⟩) i
    · rfl
    · have hswap : compareColumn cmp i y x = (compareColumn cmp i x y).swap := OrientedCmp.eq_swap
      rw [compareColumnValues_cons, compareColumnValues_cons, hswap]
      cases hxy : compareColumn cmp i x y with
      | lt | gt => rfl
      | eq =>
        rw [isMaxValue_eq hxy]
        simp only [Ordering.swap_eq]
        split_ifs
        · rfl
        · exact ih ys (i + 1)

lemma compareColumnValues_isLE_trans : ∀ (xs ys zs : List (ColumnVal α)) (i : Nat),
    (compareColumnValues cmp i xs ys).isLE → (compareColumnValues cmp i ys zs).isLE →
    (compareColumnValues cmp i xs zs).isLE := by
  intro xs
  induction xs with
  | nil => rintro (_ | ⟨y, ys⟩) (_ | ⟨z, zs⟩) i h h' <;> simp_all
  | cons x xs ih =>
    rintro (_ | ⟨y, ys⟩) (_ | ⟨z, zs⟩) i h h'
    · simp at h
    · simp at h
    · simp at h'
    · rw [compareColumnValues_cons] at h h' ⊢
      cases hxy : compareColumn cmp i x y with
      | gt => simp [hxy] at h
      | lt =>
        have hle : (compareColumn cmp i y z).isLE := by
          cases hyz : compareColumn cmp i y z <;> simp [hyz] at h' ⊢
        simp [TransCmp.lt_of_lt_of_isLE hxy hle]
      | eq =>
        rw [TransCmp.congr_left hxy]
        rw [hxy] at h
        rw [← isMaxValue_eq hxy] at h'
        cases hyz : compareColumn cmp i y z with
        | gt => simp [hyz] at h'
        | lt => rfl
        | eq =>
          rw [hyz] at h'
          dsimp only at h h' ⊢
          split_ifs at h h' ⊢ with hmax
          · rfl
          · exact ih ys zs (i + 1) h h'

instance : TransCmp (compareColumnValues cmp 0) where
  eq_swap := fun {a b} => compareColumnValues_swap a b 0
  isLE_trans := fun {a b c} => compareColumnValues_isLE_trans a b c 0

lemma not_lt_of_isMaxValue (h : prefixCompare (compareColumn cmp) i fields bound = .eq)
    (h' : prefixCompare (compareColumn cmp) i fields bound' = .eq)
    (hmax : bound[fields.length]?.any isMaxValue = true) :
    compareColumnValues cmp i bound bound' ≠ .lt := by
  fun_induction prefixCompare (compareColumn cmp) i fields bound generalizing bound' with
  | case1 _ bound =>
    rcases bound with _ | ⟨y, ys⟩
    · simp at hmax
    · rcases bound' with _ | ⟨z, zs⟩
      · simp
      · cases y <;> cases z <;> simp at hmax ⊢
  | case2 => simp at h
  | case3 i x fields y ys hxy ih =>
    rcases bound' with _ | ⟨z, zs⟩
    · simp at h'
    · rw [prefixCompare, TransCmp.congr_left hxy] at h'
      rw [compareColumnValues_cons]
      cases hyz : compareColumn cmp i y z with
      | lt => simp [hyz] at h'
      | gt => simp
      | eq =>
        rw [hyz] at h'
        dsimp only
        split_ifs
        · simp
        · exact ih h h' (by simpa using hmax)
  | case4 _ _ _ _ _ hne => exact absurd h hne

lemma lt_of_isMaxValue {row : List (Option α)}
    (h : prefixCompare (compareColumn cmp) i fields (row.map toColumnVal) = .eq)
    (h' : prefixCompare (compareColumn cmp) i fields bound = .eq)
    (hlen : fields.length < row.length) (hmax : bound[fields.length]?.any isMaxValue = true) :
    prefixCompare (compareColumn cmp) i (row.map toColumnVal) bound = .lt := by
  fun_induction prefixCompare (compareColumn cmp) i fields bound generalizing row with
  | case1 _ bound =>
    rcases row with _ | ⟨x, row⟩
    · simp at hlen
    · rcases bound with _ | ⟨y, ys⟩
      · simp at hmax
      · cases y <;> cases x <;> simp [compareColumn, toColumnVal] at hmax ⊢
  | case2 => simp at h'
  | case3 i f fields y ys hfy ih =>
    rcases row with _ | ⟨x, row⟩
    · simp at hlen
    · rw [List.map_cons, prefixCompare] at h ⊢
      cases hfx : compareColumn cmp i f (toColumnVal x) with
      | lt | gt => simp [hfx] at h
      | eq =>
        rw [hfx] at h
        rw [← TransCmp.congr_left hfx, hfy]
        exact ih h h' (by simpa using hlen) (by simpa using hmax)
  | case4 _ _ _ _ _ hne => exact absurd h' hne

end Tuples

section Endpoints

variable (cmp) in
/-- The row is above the left endpoint, compared as far as the endpoint goes. -/
def AboveCols (incl : Bool) (fields row : List (Option α)) : Prop :=
  if incl then prefixCompare (compareField cmp) 0 fields row ≠ .gt
  else prefixCompare (compareField cmp) 0 fields row = .lt

variable (cmp) in
def BelowCols (incl : Bool) (fields row : List (Option α)) : Prop :=
  if incl then prefixCompare (compareField cmp) 0 fields row ≠ .lt
  else prefixCompare (compareField cmp) 0 fields row = .gt

lemma prune_right_short (hnot : fields.length ≠ numColumns)
    (h : prefixCompare (compareColumn cmp) 0 (fields.map toColumnVal) bound = .eq) :
    cmpRecAndTuplePrune cmp numColumns fields bound false true =
      if bound[fields.length]?.any isMaxValue = true then .lt else .gt := by
  simp [cmpRecAndTuplePrune, cmpRecAndTuple_eq, h, hnot]

lemma prune_incl_full (left : Bool) (hfull : fields.length = numColumns)
    (h : prefixCompare (compareColumn cmp) 0 (fields.map toColumnVal) bound = .eq) :
    cmpRecAndTuplePrune cmp numColumns fields bound left true = .eq := by
  simp [cmpRecAndTuplePrune, cmpRecAndTuple_eq, h, hfull]

lemma prune_of_gt (h : prefixCompare (compareColumn cmp) 0 (fields.map toColumnVal) bound = .gt) :
    cmpRecAndTuplePrune cmp numColumns fields bound left incl = .gt := by
  simp [cmpRecAndTuplePrune, cmpRecAndTuple_eq, h]

lemma AboveCols.cases (h : AboveCols cmp incl fields row) :
    prefixCompare (compareColumn cmp) 0 (fields.map toColumnVal) (row.map toColumnVal) = .lt ∨
      incl = true ∧
        prefixCompare (compareColumn cmp) 0 (fields.map toColumnVal) (row.map toColumnVal) =
          .eq := by
  rw [AboveCols, ← prefixCompare_toColumnVal] at h
  generalize prefixCompare _ _ _ _ = o at *
  cases o <;> cases incl <;> simp at h ⊢

lemma BelowCols.cases (h : BelowCols cmp incl fields row) :
    prefixCompare (compareColumn cmp) 0 (fields.map toColumnVal) (row.map toColumnVal) = .gt ∨
      incl = true ∧
        prefixCompare (compareColumn cmp) 0 (fields.map toColumnVal) (row.map toColumnVal) =
          .eq := by
  rw [BelowCols, ← prefixCompare_toColumnVal] at h
  generalize prefixCompare _ _ _ _ = o at *
  cases o <;> cases incl <;> simp at h ⊢

variable [∀ i, TransCmp (cmp i)]

lemma prune_lt (hbound : bound.length = numColumns) (hbound' : bound'.length = numColumns)
    (hlt : compareColumnValues cmp 0 bound bound' = .lt)
    (h : cmpRecAndTuplePrune cmp numColumns fields bound left incl ≠ .gt) :
    cmpRecAndTuplePrune cmp numColumns fields bound' left incl = .lt := by
  have hP := prefixCompare_of_lt (hbound.trans hbound'.symm) hlt
  unfold cmpRecAndTuplePrune at *
  simp only [cmpRecAndTuple_eq] at *
  cases hm : prefixCompare (compareColumn cmp) 0 (fields.map toColumnVal) bound with
  | lt => simp [prefixCompare_lt bound' hm (by simp [hP])]
  | gt => simp [hm] at h
  | eq =>
    rcases prefixCompare_eq bound' hm with ⟨heq, hfull⟩ | heq
    · rw [List.length_map, hbound] at hfull
      simp only [hm, heq, if_neg hfull] at h ⊢
      by_cases hsame : left = incl
      · rw [if_pos hsame]
      · rw [if_neg hsame] at h ⊢
        by_cases hmax : left = false ∧ bound[fields.length]?.any isMaxValue = true
        · exact absurd hlt (not_lt_of_isMaxValue hm heq (by simpa using hmax.2))
        · exact absurd (if_neg hmax) h
    · simp [heq, hP]

lemma prune_left_lt (hrow : row.length = numColumns) (habove : AboveCols cmp incl fields row)
    (hlt : cmpRecAndTuple cmp 0 row bound = .lt) :
    cmpRecAndTuplePrune cmp numColumns fields bound true incl = .lt := by
  unfold cmpRecAndTuplePrune
  simp only [cmpRecAndTuple_eq] at *
  rcases habove.cases with hm | ⟨rfl, hm⟩
  · simp [prefixCompare_lt bound hm (by simp [hlt])]
  · rcases prefixCompare_eq bound hm with ⟨heq, hfull⟩ | heq
    · simp only [List.length_map, hrow] at hfull
      simp [heq, hfull]
    · simp [heq, hlt]

lemma lt_of_prune_right_lt (hfields : fields.length ≤ numColumns)
    (hrow : row.length = numColumns) (hbelow : BelowCols cmp incl fields row)
    (h : cmpRecAndTuplePrune cmp numColumns fields bound false incl = .lt) :
    cmpRecAndTuple cmp 0 row bound = .lt := by
  rw [cmpRecAndTuple_eq]
  by_contra hnot
  rcases hbelow.cases with hm | ⟨rfl, hm⟩
  · have hgt := prefixCompare_gt bound (by simpa [hrow] using hfields) hm hnot
    exact absurd (h.symm.trans (prune_of_gt hgt)) (by decide)
  · have hnext : prefixCompare (compareColumn cmp) 0 (fields.map toColumnVal) bound = .eq →
        False := fun heq => by
      by_cases hfull : fields.length = numColumns
      · exact absurd (h.symm.trans (prune_incl_full false hfull heq)) (by decide)
      · rw [prune_right_short hfull heq] at h
        split_ifs at h with hmax
        exact hnot (lt_of_isMaxValue hm heq (by simp; omega) (by simpa using hmax))
    rcases prefixCompare_eq bound hm with ⟨heq, -⟩ | heq
    · exact hnext heq
    · cases hr : prefixCompare (compareColumn cmp) 0 (row.map toColumnVal) bound with
      | lt => exact hnot hr
      | eq => exact hnext (heq.trans hr)
      | gt => exact absurd (h.symm.trans (prune_of_gt (heq.trans hr))) (by decide)

lemma prune_left_ne_gt (habove : AboveCols cmp incl fields row)
    (heq : cmpRecAndTuple cmp 0 row bound = .eq) :
    cmpRecAndTuplePrune cmp numColumns fields bound true incl ≠ .gt := by
  unfold cmpRecAndTuplePrune
  simp only [cmpRecAndTuple_eq] at *
  rcases habove.cases with hm | ⟨rfl, hm⟩
  · simp [prefixCompare_lt bound hm (by simp [heq])]
  · have hb : prefixCompare (compareColumn cmp) 0 (fields.map toColumnVal) bound = .eq :=
      (prefixCompare_eq bound hm).elim And.left fun h => h.trans heq
    simp only [hb]
    split_ifs <;> simp_all

lemma prune_right_gt (hfields : fields.length ≤ numColumns) (hrow : row.length = numColumns)
    (hbelow : BelowCols cmp incl fields row) (heq : cmpRecAndTuple cmp 0 row bound = .eq) :
    cmpRecAndTuplePrune cmp numColumns fields bound false incl = .gt ∨
      (cmpRecAndTuplePrune cmp numColumns fields bound false incl = .eq ∧ incl = true) := by
  unfold cmpRecAndTuplePrune
  simp only [cmpRecAndTuple_eq] at *
  rcases hbelow.cases with hm | ⟨rfl, hm⟩
  · left
    simp [prefixCompare_gt bound (by simpa [hrow] using hfields) hm (by simp [heq])]
  · have hb : prefixCompare (compareColumn cmp) 0 (fields.map toColumnVal) bound = .eq :=
      (prefixCompare_eq bound hm).elim And.left fun h => h.trans heq
    by_cases hfull : fields.length = numColumns
    · simp [hb, hfull]
    · have hmax : bound[fields.length]?.any isMaxValue = false := by
        by_contra hmax
        have hlt := lt_of_isMaxValue hm hb (by simp; omega) (by simpa using hmax)
        exact absurd (heq.symm.trans hlt) (by decide)
      simp [hb, hfull, hmax]

end Endpoints

end MariaDB.Partition
