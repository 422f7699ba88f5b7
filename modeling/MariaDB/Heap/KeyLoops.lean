import MariaDB.Heap.Share

/-!
# What the loops over the indexes change

Every loop that writes or deletes the keys of a row goes through the indexes in order and may
end early. The lemmas say for each loop that the trees keep their elements at distinct
addresses, which trees can have changed, and what this has to do with `last_pos`.
-/
namespace MariaDB.Heap

open Function List

variable {κ σ ρ : Type} {cmp : κ → Ordering}

attribute [local grind =] List.pairwise_cons update_of_ne

def NodupTrees (trees : Nat → Tree κ) : Prop := ∀ i, (trees i).addrs.Nodup

lemma NodupTrees.update (h : NodupTrees trees) (ht : t.addrs.Nodup) (i : Nat) :
    NodupTrees (update trees i t) := by
  intro j
  by_cases hj : j = i
  · rw [hj, update_self]
    exact ht
  · rw [update_of_ne hj]
    exact h j

lemma nodup_treeInsert (h : treeInsert noDups cmp e t = some t') (hnodup : t.addrs.Nodup)
    (he : e.addr ∉ t.addrs) : t'.addrs.Nodup := by
  rcases inorder_treeInsert h with rfl | ⟨xs, ys, ht, ht'⟩
  all_goals grind [Tree.addrs]

lemma nodup_treeDelete (h : treeDelete cmp t = some t') (hnodup : t.addrs.Nodup) :
    t'.addrs.Nodup := by
  obtain ⟨xs, e, ys, ht, ht'⟩ := inorder_treeDelete h
  rw [Tree.addrs, ht] at hnodup
  rw [Tree.addrs, ht']
  refine hnodup.sublist (Sublist.map _ ?_)
  exact Sublist.append_left (sublist_cons_self e ys) xs

namespace TableDef

variable (tbl : TableDef κ σ ρ)

def duplicate (i : Nat) (record : ρ) (pos : Nat) (t : Tree κ) : Bool :=
  let key := tbl.makeKey i record pos
  tbl.unique i && (descend (fun k => tbl.insertCompare i k key) t []).1.elem?.isSome

def missing (i : Nat) (record : ρ) (pos : Nat) (t : Tree κ) : Bool :=
  (tbl.deleteKey i record pos t).isNone

def rewrites (i : Nat) (old new : ρ) (pos : Nat) (t : Tree κ) : Bool :=
  (tbl.deleteKey i old pos t).any fun t' => !tbl.duplicate i new pos t'

variable {tbl} {record old new : ρ} {pos : Nat} {malloc : Allocator}

variable {i : Nat} {t t' : Tree κ} {trees : Nat → Tree κ}

lemma writeKey_eq_none_iff :
    tbl.writeKey i record pos addr t = none ↔ tbl.duplicate i record pos t = true := by
  unfold writeKey duplicate treeInsert
  dsimp only
  generalize descend _ t [] = found
  obtain ⟨u, way⟩ := found
  cases u with
  | nil | node => simp [Tree.elem?]

lemma not_duplicate_of_writeKey (h : tbl.writeKey i record pos addr t = some t') :
    tbl.duplicate i record pos t = false := by
  rw [← Bool.not_eq_true, ← writeKey_eq_none_iff, h]
  exact Option.some_ne_none t'

lemma addr_fresh (malloc : Allocator) (n : Nat) (hi : i < tbl.keys)
    (trees : Nat → Tree κ) : malloc.addr n (tbl.used trees) ∉ (trees i).addrs := by
  intro hmem
  refine malloc.fresh n (tbl.used trees) (mem_flatMap.mpr ⟨i, ?_, hmem⟩)
  exact mem_range.mpr hi

lemma nodup_writeKey (hi : i < tbl.keys) (hnodup : NodupTrees trees)
    (h : tbl.writeKey i record pos (malloc.addr n (tbl.used trees)) (trees i) = some t') :
    NodupTrees (update trees i t') :=
  hnodup.update (nodup_treeInsert h (hnodup i) (addr_fresh malloc n hi trees)) i

lemma nodup_deleteKey (hnodup : NodupTrees trees) (h : tbl.deleteKey i record pos
    (trees i) = some t') :
    NodupTrees (update trees i t') :=
  hnodup.update (nodup_treeDelete h (hnodup i)) i

lemma nodup_rewriteKey (hi : i < tbl.keys) (hnodup : NodupTrees (update trees i t))
    (h : tbl.writeKey i record pos
      (malloc.addr n (tbl.used (update trees i t))) t = some t') :
    NodupTrees (update (update trees i t) i t') := by
  have h' : tbl.writeKey i record pos (malloc.addr n (tbl.used (update trees i t)))
      (update trees i t i) = some t' := by
    rwa [update_self]
  exact nodup_writeKey hi hnodup h'

section Write

variable {is : List Nat} {trees : Nat → Tree κ} {out : (Nat → Tree κ) × Option Nat}
  (hout : tbl.writeKeys record pos malloc is trees = out)
include hout

lemma nodup_writeKeys (his : ∀ i ∈ is, i < tbl.keys)
    (hnodup : NodupTrees trees) : NodupTrees out.1 := by
  subst hout
  fun_induction writeKeys with
  | case1 | case2 => exact hnodup
  | case3 i rest trees t hw ih =>
    obtain ⟨hi, hrest⟩ := forall_mem_cons.mp his
    exact ih hrest (nodup_writeKey hi hnodup hw)

/-- The loop ends at the first index that refuses the key; this one and those behind it are as
before. -/
lemma writeKeys_failed (hsorted : is.Pairwise (· < ·)) (h : out.2 = some j) :
    j ∈ is ∧ tbl.duplicate j record pos (trees j) = true ∧
      (∀ i ∈ is, i < j → tbl.duplicate i record pos (trees i) = false) ∧
      ∀ i, j ≤ i → out.1 i = trees i := by
  subst hout
  fun_induction writeKeys with
  | case1 => cases h
  | case2 i rest trees hw =>
    have hdup := writeKey_eq_none_iff.mp hw
    grind
  | case3 i rest trees t hw =>
    have hdup := not_duplicate_of_writeKey hw
    grind

lemma writeKeys_all (hsorted : is.Pairwise (· < ·))
    (h : out.2 = none) : ∀ i ∈ is, tbl.duplicate i record pos (trees i) = false := by
  subst hout
  fun_induction writeKeys with
  | case1 => exact forall_mem_nil _
  | case2 => cases h
  | case3 i rest trees t hw =>
    have hdup := not_duplicate_of_writeKey hw
    grind

omit hout

lemma nodup_removeKeys (n : Nat) (trees : Nat → Tree κ) (hnodup : NodupTrees trees) :
    NodupTrees (tbl.removeKeys record pos n trees) := by
  fun_induction removeKeys with
  | case1 | case2 => exact hnodup
  | case3 n trees t hd ih => exact ih (nodup_deleteKey hnodup hd)

lemma removeKeys_of_le (n : Nat) (trees : Nat → Tree κ) (hi : n ≤ i) :
    tbl.removeKeys record pos n trees i = trees i := by
  fun_induction removeKeys tbl record pos n trees with
  | case1 | case2 => rfl
  | case3 n trees t hd ih => rw [ih (by omega), update_of_ne (by omega)]

end Write

section Delete

variable {lastinx lastPos : Option Nat} {is : List Nat} {trees : Nat → Tree κ}

lemma resetPos_self (i : Nat) (lastPos : Option Nat) : resetPos (some i) i lastPos = none :=
  if_pos rfl

lemma resetPos_or (lastinx : Option Nat) (i : Nat) (lastPos : Option Nat) :
    resetPos lastinx i lastPos = none ∨ resetPos lastinx i lastPos = lastPos := by
  unfold resetPos
  split_ifs
  · exact .inl rfl
  · exact .inr rfl

variable {out : (Nat → Tree κ) × Option Nat × Bool}
  (hout : tbl.deleteKeys record pos lastinx is trees lastPos = out)
include hout

lemma nodup_deleteKeys (hnodup : NodupTrees trees) : NodupTrees out.1 := by
  subst hout
  fun_induction deleteKeys with
  | case1 | case2 => exact hnodup
  | case3 i rest trees lastPos t hd ih => exact ih (nodup_deleteKey hnodup hd)

lemma deleteKeys_pos : out.2.1 = none ∨ out.2.1 = lastPos := by
  subst hout
  fun_induction deleteKeys with
  | case1 => exact .inr rfl
  | case2 i rest trees lastPos => exact resetPos_or lastinx i lastPos
  | case3 i rest trees lastPos =>
    have hreset := resetPos_or lastinx i lastPos
    grind

omit hout in
lemma deleteKeys_none : (tbl.deleteKeys record pos lastinx is trees none).2.1 = none :=
  (deleteKeys_pos rfl).elim id id

/-- If all keys were deleted there was one in each index, and the handle has lost its
position. -/
lemma deleteKeys_all (hsorted : is.Pairwise (· < ·)) (h : out.2.2 = true) :
    ∀ i ∈ is, tbl.missing i record pos (trees i) = false ∧ (lastinx = some i → out.2.1 = none) := by
  subst hout
  fun_induction deleteKeys with
  | case1 => exact forall_mem_nil _
  | case2 => cases h
  | case3 =>
    grind [missing, resetPos, deleteKeys_none]

lemma deleteKeys_failed (hsorted : is.Pairwise (· < ·)) (h : out.2.2 = false) :
    ∃ j ∈ is, tbl.missing j record pos (trees j) = true ∧
      (∀ i ∈ is, i < j → tbl.missing i record pos (trees i) = false) ∧
      (∀ i, j ≤ i → out.1 i = trees i) ∧
      ∀ i ∈ is, i < j → lastinx = some i → out.2.1 = none := by
  subst hout
  fun_induction deleteKeys <;> grind [missing, resetPos, deleteKeys_none]

end Delete

section Update

variable {lastinx lastPos : Option Nat} {is : List Nat} {trees : Nat → Tree κ}

def Updated.UpTo (out : Updated) (i : Nat) : Prop :=
  match out with
  | .all => True
  | .failed j _ => i ≤ j

def Touched (tbl : TableDef κ σ ρ) (old new : ρ) (is : List Nat) (out : Updated) (i : Nat) :
    Prop :=
  i ∈ is ∧ tbl.keyCmp i old new = true ∧ out.UpTo i

variable {out : (Nat → Tree κ) × Option Nat × Updated}
  (hout : tbl.updateKeys old new pos lastinx malloc is trees lastPos = out)
include hout

lemma nodup_updateKeys (his : ∀ i ∈ is, i < tbl.keys) (hnodup : NodupTrees trees) :
    NodupTrees out.1 := by
  subst hout
  fun_induction updateKeys with
  | case1 | case2 => exact hnodup
  | case3 i rest trees lastPos hcmp t hd => exact nodup_deleteKey hnodup hd
  | case4 i rest trees lastPos hcmp t hd trees' t' hw ih =>
    obtain ⟨hi, hrest⟩ := forall_mem_cons.mp his
    exact ih hrest (nodup_rewriteKey hi (nodup_deleteKey hnodup hd) hw)
  | case5 i rest trees lastPos hcmp ih => exact ih (forall_mem_cons.mp his).2 hnodup

lemma updateKeys_pos : out.2.1 = none ∨ out.2.1 = lastPos := by
  subst hout
  fun_induction updateKeys with
  | case1 => exact .inr rfl
  | case2 i rest trees lastPos | case3 i rest trees lastPos => exact resetPos_or lastinx i lastPos
  | case4 i rest trees lastPos =>
    have hreset := resetPos_or lastinx i lastPos
    grind
  | case5 i rest trees lastPos hcmp ih => exact ih

lemma updateKeys_failed_mem (h : out.2.2 = .failed j dup) :
    j ∈ is ∧ tbl.keyCmp j old new = true := by
  subst hout
  fun_induction updateKeys <;> grind

/-- The loop over the indexes behind `k` ends behind it. -/
lemma Updated.upTo_of_lt (hlt : ∀ i ∈ is, k < i) : out.2.2.UpTo k := by
  cases hcase : out.2.2 with
  | all => trivial
  | failed j => exact (hlt j (updateKeys_failed_mem hout hcase).1).le

/-- An index that the loop has not written to is as before. -/
lemma updateKeys_of_not_touched (hsorted : is.Pairwise (· < ·))
    (htouched : ¬Touched tbl old new is out.2.2 i) : out.1 i = trees i := by
  subst hout
  fun_induction updateKeys with
  | case1 | case2 => rfl
  | case3 k rest trees lastPos hcmp =>
    refine update_of_ne ?_ ..
    rintro rfl
    exact htouched ⟨mem_cons_self .., hcmp, le_refl i⟩
  | case4 k rest trees lastPos hcmp t hd trees' t' hw ih =>
    obtain ⟨hlt, hrest⟩ := pairwise_cons.mp hsorted
    have hne : i ≠ k := by
      rintro rfl
      exact htouched ⟨mem_cons_self .., hcmp, Updated.upTo_of_lt rfl hlt⟩
    rw [ih hrest fun h => htouched ⟨mem_cons_of_mem _ h.1, h.2⟩, update_of_ne hne]
    exact update_of_ne hne ..
  | case5 k rest trees lastPos hcmp ih =>
    exact ih hsorted.tail fun h => htouched ⟨mem_cons_of_mem _ h.1, h.2⟩

/-- The handle loses its position if it is in an index that is written to. -/
lemma updateKeys_resets (hi : lastinx = some i) (hsorted : is.Pairwise (· < ·))
    (htouched : Touched tbl old new is out.2.2 i) : out.2.1 = none := by
  subst hout hi
  obtain ⟨hmem, hcmpi, hupto⟩ := htouched
  fun_induction updateKeys with
  | case1 => cases hmem
  | case2 | case3 => grind [resetPos, Updated.UpTo]
  | case4 k rest trees lastPos hcmp t hd trees' t' hw ih =>
    rcases mem_cons.mp hmem with rfl | hmem
    · rw [resetPos_self]
      exact (updateKeys_pos rfl).elim id id
    · exact ih hsorted.tail hmem hupto
  | case5 k rest trees lastPos hcmp ih =>
    rcases mem_cons.mp hmem with rfl | hmem
    · exact absurd hcmpi hcmp
    · exact ih hsorted.tail hmem hupto

lemma rewrites_of_touched (hsorted : is.Pairwise (· < ·))
    (htouched : Touched tbl old new is out.2.2 i) (hj : j ∈ is) (hji : j < i)
    (hcmpj : tbl.keyCmp j old new = true) : tbl.rewrites j old new pos (trees j) = true := by
  subst hout
  obtain ⟨hmem, hcmpi, hupto⟩ := htouched
  fun_induction updateKeys with
  | case1 => cases hmem
  | case2 | case3 => grind [Updated.UpTo]
  | case4 k rest trees lastPos hcmp t hd trees' t' hw =>
    have hdup := not_duplicate_of_writeKey hw
    grind [rewrites]
  | case5 => grind

omit hout

lemma nodup_restoreKeys (n : Nat) (trees : Nat → Tree κ) (hn : n ≤ tbl.keys)
    (hnodup : NodupTrees trees) : NodupTrees (tbl.restoreKeys old new pos malloc n trees) := by
  fun_induction restoreKeys with
  | case1 | case2 => exact hnodup
  | case3 n trees hcmp t hd => exact nodup_deleteKey hnodup hd
  | case4 n trees hcmp t hd trees' t' hw ih =>
    exact ih (by omega) (nodup_rewriteKey (by omega) (nodup_deleteKey hnodup hd) hw)
  | case5 n trees hcmp ih => exact ih (by omega) hnodup

lemma restoreKeys_same (n : Nat) (trees : Nat → Tree κ)
    (hi : ¬(i < n ∧ tbl.keyCmp i old new = true)) :
    tbl.restoreKeys old new pos malloc n trees i = trees i := by
  fun_induction restoreKeys tbl old new pos malloc n trees with
  | case1 | case2 => rfl
  | case3 | case4 => grind
  | case5 n trees hcmp ih => exact ih fun h => hi ⟨by omega, h.2⟩

lemma nodup_rollback (hi : i < tbl.keys) (hnodup : NodupTrees trees) :
    NodupTrees (tbl.rollback old new pos malloc errno i trees) := by
  unfold rollback
  split_ifs
  · cases hw : tbl.writeKey i old pos (malloc.addr (tbl.keys + i) (tbl.used trees)) (trees i) with
    | none => exact hnodup
    | some => exact nodup_restoreKeys _ _ hi.le (nodup_writeKey hi hnodup hw)
  · exact hnodup

lemma rollback_same (hi : tbl.keyCmp i old new = true)
    (hk : ¬ (k ≤ i ∧ tbl.keyCmp k old new = true)) :
    tbl.rollback old new pos malloc errno i trees k = trees k := by
  unfold rollback
  split_ifs
  · cases tbl.writeKey i old pos (malloc.addr (tbl.keys + i) (tbl.used trees)) (trees i) with
    | none => rfl
    | some =>
      have hne : k ≠ i := by
        rintro rfl
        exact hk ⟨le_refl k, hi⟩
      dsimp only
      rw [restoreKeys_same _ _ fun h => hk ⟨h.1.le, h.2⟩, update_of_ne hne]
  · rfl

end Update

end TableDef

end MariaDB.Heap
