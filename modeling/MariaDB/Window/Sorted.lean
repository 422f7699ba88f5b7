import MariaDB.Window.Order

/-!
# The order of the window functions

The comparison of two window functions depends on their specifications as they were given:
when the comparison exchanges a list for an equal one, it has the same core and the same end.
After the sort every two neighbours are in order, although the comparison is no order. Two
neighbours that can share a sort either have the same partition list, and the first one's
lists are the beginning of the second one's, or the first one has the longer partition list.
-/
namespace MariaDB.Window

open List

variable {F : Type}

namespace Specs

variable (specs : Specs F)

def part (n : Nat) : List Order := core (specs n).partitionList

def ord (n : Nat) : List Order := core (specs n).orderList

def join (n : Nat) : List Order := core (specs n).joined

end Specs

def Comparable (l l' : List Order) : Prop := l <+: l' ∨ l' <+: l

instance (l l' : List Order) : Decidable (Comparable l l') :=
  inferInstanceAs (Decidable (_ ∨ _))

/-- The condition on the specifications of the functions: an expression is in one
specification only. -/
def DistinctExprs (specs : Specs F) (funcs : List WinFunc) : Prop :=
  ∀ f ∈ funcs, ∀ g ∈ funcs, f.spec ≠ g.spec → ∀ o ∈ (specs f.spec).joined,
    ∀ o' ∈ (specs g.spec).joined, ∀ id, o.item = .expr id → o'.item ≠ .expr id

/-- The condition under which the groups are right. Constants do not change which of two lists
is the longer one, and a function whose lists begin those of two others that do not go
together is not between them in the order of the functions. -/
structure Sharable (specs : Specs F) (funcs : List WinFunc) : Prop where
  /-- Equal partition lists both end with a constant, or none does. -/
  ends : ∀ f ∈ funcs, ∀ g ∈ funcs, specs.part f.spec = specs.part g.spec →
    endsConst (specs f.spec).partitionList = endsConst (specs g.spec).partitionList
  /-- A partition list that begins another one has fewer elements. -/
  partitions : ∀ f ∈ funcs, ∀ g ∈ funcs, specs.part f.spec <+: specs.part g.spec →
    specs.part f.spec ≠ specs.part g.spec →
    (specs f.spec).partitionList.length < (specs g.spec).partitionList.length
  /-- Lists that begin those of another function do not have more elements, and fewer ones if
  the partition list is shorter; also with the partition lists of functions that have equal
  ones. -/
  elements : ∀ f ∈ funcs, ∀ g ∈ funcs, specs.join f.spec <+: specs.join g.spec →
    specs.join f.spec ≠ specs.join g.spec → ∀ f' ∈ funcs, ∀ g' ∈ funcs,
    specs.part f'.spec = specs.part f.spec → specs.part g'.spec = specs.part g.spec →
    (specs f'.spec).partitionList.length + (specs f.spec).orderList.length ≤
        (specs g'.spec).partitionList.length + (specs g.spec).orderList.length ∧
      ((specs.part f.spec).length < (specs.part g.spec).length →
        (specs f'.spec).partitionList.length + (specs f.spec).orderList.length <
          (specs g'.spec).partitionList.length + (specs g.spec).orderList.length)
  /-- If the lists of `f` begin those of `g`, which has a longer partition list, and those of
  `h`, which has not, then `g` and `h` go together. -/
  between : ∀ f ∈ funcs, ∀ g ∈ funcs, ∀ h ∈ funcs, specs.join f.spec <+: specs.join g.spec →
    specs.join f.spec <+: specs.join h.spec →
    (specs.part f.spec).length < (specs.part g.spec).length →
    (specs.part h.spec).length ≤ (specs.part f.spec).length →
    Comparable (specs.join g.spec) (specs.join h.spec)

/-- The comparison of two functions without their frames, by the lists as they were given. -/
def specCompare (specs : Specs F) (m n : Nat) : Cmp :=
  if m = n then .eq
  else
    match compareOrderLists (specs m).partitionList m (specs n).partitionList n with
    | .eq => compareOrderLists (specs m).orderList m (specs n).orderList n
    | .gt => .gt
    | .lt => .lt
    | _ =>
      if Comparable (specs.join m) (specs.join n) then
        if (specs.part m).length < (specs.part n).length then .gtC else .ltC
      else compareJoinedLists specs m n

/-- The lists of specification `n` have been exchanged for equal ones of specifications in
`funcs`. -/
structure Kept (specs : Specs F) (funcs : List WinFunc) (n : Nat) (spec : Spec F) : Prop where
  partCore : core spec.partitionList = specs.part n
  partEnds : endsConst spec.partitionList = endsConst (specs n).partitionList
  ordCore : core spec.orderList = specs.ord n
  ordEnds : endsConst spec.orderList = endsConst (specs n).orderList
  partFrom : ∃ f ∈ funcs, spec.partitionList = (specs f.spec).partitionList
  ordFrom : ∃ f ∈ funcs, spec.orderList = (specs f.spec).orderList ∧
    specs.part f.spec = specs.part n

def AllKept (specs : Specs F) (funcs : List WinFunc) (st : Specs F) : Prop :=
  ∀ f ∈ funcs, Kept specs funcs f.spec (st f.spec)

section Lists

variable {specs st : Specs F} {funcs : List WinFunc} {m n : Nat}

lemma join_eq (n : Nat) : specs.join n = specs.part n ++ specs.ord n := core_append ..

lemma Kept.join (h : Kept specs funcs n (st n)) : core (st n).joined = specs.join n := by
  rw [Spec.joined, core_append, h.partCore, h.ordCore, join_eq]

variable (hm : Kept specs funcs m (st m)) (hn : Kept specs funcs n (st n))

include hm hn in
lemma Kept.partCompare : compareOrderLists (st m).partitionList m (st n).partitionList n =
      compareOrderLists (specs m).partitionList m (specs n).partitionList n := by
  simp only [compareOrderLists_eq, hm.partCore, hm.partEnds, hn.partCore, hn.partEnds, Specs.part]

include hm hn in
lemma Kept.ordCompare : compareOrderLists (st m).orderList m (st n).orderList n =
      compareOrderLists (specs m).orderList m (specs n).orderList n := by
  simp only [compareOrderLists_eq, hm.ordCore, hm.ordEnds, hn.ordCore, hn.ordEnds, Specs.ord]

lemma compareOrderLists_compatible (l1 l2 : List Order) (n1 n2 : Nat) :
    (compareOrderLists l1 n1 l2 n2).compatible = true ↔ Comparable (core l1) (core l2) := by
  rw [compareOrderLists_eq]
  exact compareCores_compatible _ _ (noConst_core _) (noConst_core _)

lemma compareJoined_compatible (specs : Specs F) (m n : Nat) :
    (compareJoinedLists specs m n).compatible = true ↔ Comparable (specs.join m) (specs.join n) :=
  compareOrderLists_compatible ..

include hm hn in
lemma Kept.joinedCompare : ((compareJoinedLists st m n).compatible = true ↔
      Comparable (specs.join m) (specs.join n)) ∧
    (¬ Comparable (specs.join m) (specs.join n) →
      compareJoinedLists st m n = compareJoinedLists specs m n) := by
  have hst : (compareJoinedLists st m n).compatible = true ↔
      Comparable (specs.join m) (specs.join n) := by
    rw [compareJoined_compatible, Specs.join, Specs.join, hm.join, hn.join]
  refine ⟨hst, fun hnot => ?_⟩
  have hspecs : (compareJoinedLists specs m n).compatible = false := by
    rwa [← Bool.not_eq_true, compareJoined_compatible]
  rw [compareJoinedLists, compareOrderLists_eq] at hspecs
  rw [compareJoinedLists, compareOrderLists_eq, hm.join, hn.join, compareJoinedLists,
    compareOrderLists_eq]
  exact compareCores_ends _ _ hspecs

lemma compareOrderLists_eq_iff :
    compareOrderLists l1 n1 l2 n2 = .eq ↔ core l1 = core l2 ∧ endsConst l1 = endsConst l2 := by
  rw [compareOrderLists_eq]
  exact compareCores_eq_iff (noConst_core _) (noConst_core _)

end Lists

section Exchange

variable {specs st : Specs F} {funcs : List WinFunc} {f g : WinFunc} {s t : Spec F}

lemma Kept.exchangePart (hm : Kept specs funcs m s) (hn : Kept specs funcs n t)
    (hpart : specs.part m = specs.part n)
    (hends : endsConst (specs m).partitionList = endsConst (specs n).partitionList) :
    Kept specs funcs m { s with partitionList := t.partitionList } where
  __ := hm
  partCore := hn.partCore.trans hpart.symm
  partEnds := hn.partEnds.trans hends.symm
  partFrom := hn.partFrom

lemma Kept.exchangeOrd (hm : Kept specs funcs m s) (hn : Kept specs funcs n t)
    (hpart : specs.part m = specs.part n) (hord : specs.ord m = specs.ord n)
    (hends : endsConst (specs m).orderList = endsConst (specs n).orderList) :
    Kept specs funcs m { s with orderList := t.orderList } where
  __ := hm
  ordCore := hn.ordCore.trans hord.symm
  ordEnds := hn.ordEnds.trans hends.symm
  ordFrom := by
    obtain ⟨f, hf, hlist, hfrom⟩ := hn.ordFrom
    exact ⟨f, hf, hlist, hfrom.trans hpart.symm⟩

lemma Kept.exchangeFrame (hm : Kept specs funcs m s) (frame : F) :
    Kept specs funcs m { s with frame } := { hm with }

lemma AllKept.update (h : AllKept specs funcs st) (hspec : Kept specs funcs n spec) :
    AllKept specs funcs (Function.update st n spec) := by
  intro f hf
  by_cases hn : f.spec = n
  · rw [hn, Function.update_self]
    exact hspec
  · rw [Function.update_of_ne hn]
    exact h f hf

lemma AllKept.useOne {α : Type} {get : Spec F → α} {set : Spec F → α → Spec F}
    (h : AllKept specs funcs st) (hm : Kept specs funcs m (set (st m) (get (st n))))
    (hn : Kept specs funcs n (set (st n) (get (st m)))) :
    AllKept specs funcs (useOne st get set m n) := by
  unfold Window.useOne
  split_ifs
  · exact h.update hm
  · exact h.update hn

structure Tie (specs : Specs F) (m n : Nat) : Prop where
  part : specs.part m = specs.part n
  partEnds : endsConst (specs m).partitionList = endsConst (specs n).partitionList
  ord : specs.ord m = specs.ord n
  ordEnds : endsConst (specs m).orderList = endsConst (specs n).orderList

lemma compareOrders_spec (frameCmp : F → F → Cmp) (hkept : AllKept specs funcs st)
    (hf : f ∈ funcs) (hg : g ∈ funcs) (hpart : specs.part f.spec = specs.part g.spec)
    (hends : endsConst (specs f.spec).partitionList = endsConst (specs g.spec).partitionList) :
    AllKept specs funcs (compareOrders frameCmp st f.spec g.spec).2 ∧
      (Tie specs f.spec g.spec ∨ (compareOrders frameCmp st f.spec g.spec).1 =
        compareOrderLists (specs f.spec).orderList f.spec (specs g.spec).orderList g.spec) := by
  have hkept₁ : AllKept specs funcs (useOne st (·.partitionList)
      (fun s l => { s with partitionList := l }) f.spec g.spec) :=
    hkept.useOne ((hkept f hf).exchangePart (hkept g hg) hpart hends)
      ((hkept g hg).exchangePart (hkept f hf) hpart.symm hends.symm)
  unfold compareOrders
  dsimp only
  generalize useOne st _ _ _ _ = st₁ at hkept₁
  rw [Kept.ordCompare (hkept₁ f hf) (hkept₁ g hg)]
  cases hcmp : compareOrderLists (specs f.spec).orderList f.spec (specs g.spec).orderList
    g.spec with
  | eq =>
    obtain ⟨hord, hordEnds⟩ := compareOrderLists_eq_iff.mp hcmp
    have hkept₂ : AllKept specs funcs (useOne st₁ (·.orderList)
        (fun s l => { s with orderList := l }) f.spec g.spec) :=
      hkept₁.useOne ((hkept₁ f hf).exchangeOrd (hkept₁ g hg) hpart hord hordEnds)
        ((hkept₁ g hg).exchangeOrd (hkept₁ f hf) hpart.symm hord.symm hordEnds.symm)
    dsimp only
    generalize useOne st₁ _ _ _ _ = st₂ at hkept₂
    refine ⟨?_, .inl ⟨hpart, hends, hord, hordEnds⟩⟩
    cases frameCmp (st₂ f.spec).frame (st₂ g.spec).frame with
    | eq =>
      dsimp only
      refine hkept₂.useOne ?_ ?_
      · exact (hkept₂ f hf).exchangeFrame _
      · exact (hkept₂ g hg).exchangeFrame _
    | lt | ltC | gtC | gt => exact hkept₂
  | lt | ltC | gtC | gt => exact ⟨hkept₁, .inr rfl⟩

end Exchange

section Compare

variable {specs st : Specs F} {funcs : List WinFunc} {f g : WinFunc} {l1 l2 : List Order}

/-- Of two partition lists that begin each other the one with the longer core has more
elements, also after an exchange. -/
lemma Sharable.partitionList_lt_iff (hs : Sharable specs funcs) (hkept : AllKept specs funcs st)
    (hf : f ∈ funcs) (hg : g ∈ funcs) (hcomp : Comparable (specs.part f.spec) (specs.part g.spec))
    (hne : specs.part f.spec ≠ specs.part g.spec) :
    (st f.spec).partitionList.length < (st g.spec).partitionList.length ↔
      (specs.part f.spec).length < (specs.part g.spec).length := by
  obtain ⟨f', hf', hfrom⟩ := (hkept f hf).partFrom
  obtain ⟨g', hg', hgfrom⟩ := (hkept g hg).partFrom
  have hpartf : specs.part f'.spec = specs.part f.spec := by
    rw [Specs.part, ← hfrom, (hkept f hf).partCore]
  have hpartg : specs.part g'.spec = specs.part g.spec := by
    rw [Specs.part, ← hgfrom, (hkept g hg).partCore]
  rw [hfrom, hgfrom]
  rcases hcomp with hpre | hpre
  · have hlen := hs.partitions f' hf' g' hg' (by rwa [hpartf, hpartg]) (by rwa [hpartf, hpartg])
    have hlt : (specs.part f.spec).length < (specs.part g.spec).length :=
      lt_of_le_of_ne hpre.length_le fun h => hne (hpre.eq_of_length h)
    exact iff_of_true hlen hlt
  · have hlen := hs.partitions g' hg' f' hf' (by rwa [hpartf, hpartg])
      (by rw [hpartf, hpartg]; exact hne.symm)
    have hle := hpre.length_le
    exact iff_of_false (by omega) (by omega)

lemma prefix_part_join (specs : Specs F) (n : Nat) : specs.part n <+: specs.join n := by
  rw [join_eq]
  exact prefix_append ..

lemma Comparable.part (h : Comparable (specs.join m) (specs.join n)) :
    Comparable (specs.part m) (specs.part n) := by
  have hm := prefix_part_join specs m
  have hn := prefix_part_join specs n
  rcases h with h | h
  · exact prefix_or_prefix_of_prefix (hm.trans h) hn
  · exact prefix_or_prefix_of_prefix hm (hn.trans h)

/-- The comparison keeps the specifications, and unless only the frames decide it depends on
the lists as they were given. -/
lemma compareWindowFuncs_spec (frameCmp : F → F → Cmp) (hs : Sharable specs funcs)
    (hkept : AllKept specs funcs st) (hf : f ∈ funcs) (hg : g ∈ funcs) :
    AllKept specs funcs (compareWindowFuncs frameCmp st f g).2 ∧
      ((f.spec ≠ g.spec ∧ Tie specs f.spec g.spec) ∨
        (compareWindowFuncs frameCmp st f g).1 = specCompare specs f.spec g.spec) := by
  unfold compareWindowFuncs specCompare
  dsimp only
  by_cases hsame : f.spec = g.spec
  · rw [if_pos hsame, if_pos hsame]
    exact ⟨hkept, .inr rfl⟩
  · rw [if_neg hsame, if_neg hsame, Kept.partCompare (hkept f hf) (hkept g hg)]
    cases hcmp : compareOrderLists (specs f.spec).partitionList f.spec
      (specs g.spec).partitionList g.spec with
    | eq =>
      obtain ⟨hpart, hends⟩ := compareOrderLists_eq_iff.mp hcmp
      obtain ⟨hkept', hres⟩ := compareOrders_spec frameCmp hkept hf hg hpart hends
      exact ⟨hkept', hres.imp_left fun htie => ⟨hsame, htie⟩⟩
    | lt | gt => exact ⟨hkept, .inr rfl⟩
    | ltC | gtC =>
      have hne : specs.part f.spec ≠ specs.part g.spec := by
        intro hpart
        cases hcmp.symm.trans (compareOrderLists_eq_iff.mpr ⟨hpart, hs.ends f hf g hg hpart⟩)
      obtain ⟨hcompat, hother⟩ := Kept.joinedCompare (hkept f hf) (hkept g hg)
      dsimp only
      by_cases hcomp : Comparable (specs.join f.spec) (specs.join g.spec)
      · rw [if_pos (hcompat.mpr hcomp), if_pos hcomp]
        refine ⟨hkept, .inr ?_⟩
        exact if_congr (hs.partitionList_lt_iff hkept hf hg hcomp.part hne) rfl rfl
      · rw [if_neg fun h => hcomp (hcompat.mp h), if_neg hcomp]
        exact ⟨hkept, .inr (hother hcomp)⟩

lemma specCompare_self (n : Nat) : specCompare specs n n = .eq := if_pos rfl

lemma Tie.symm (h : Tie specs m n) : Tie specs n m :=
  ⟨h.part.symm, h.partEnds.symm, h.ord.symm, h.ordEnds.symm⟩

lemma Tie.specCompare (h : Tie specs m n) : specCompare specs m n = .eq := by
  unfold Window.specCompare
  by_cases hmn : m = n
  · rw [if_pos hmn]
  · rw [if_neg hmn, compareOrderLists_eq_iff.mpr ⟨h.part, h.partEnds⟩]
    exact compareOrderLists_eq_iff.mpr ⟨h.ord, h.ordEnds⟩

lemma compareOrderLists_pos (h : (compareOrderLists l1 n1 l2 n2).pos = true) :
    (compareOrderLists l2 n2 l1 n1).pos = false := by
  rw [compareOrderLists_eq] at h ⊢
  exact compareCores_pos (noConst_core _) (noConst_core _) h

lemma Comparable.symm (h : Comparable l l') : Comparable l' l := Or.symm h

lemma partCompare_swap (l1 l2 : List Order) (n1 n2 : Nat) :
    (compareOrderLists l1 n1 l2 n2).compatible = (compareOrderLists l2 n2 l1 n1).compatible := by
  rw [Bool.eq_iff_iff, compareOrderLists_compatible, compareOrderLists_compatible]
  exact or_comm

/-- If a function comes after another one, then the other one does not come after it. -/
lemma specCompare_pos (h : (specCompare specs m n).pos = true) :
    (specCompare specs n m).pos = false := by
  unfold specCompare at h ⊢
  by_cases hmn : m = n
  · rw [if_pos hmn] at h
    cases h
  · rw [if_neg hmn] at h
    rw [if_neg (Ne.symm hmn)]
    have hcompat := partCompare_swap (specs m).partitionList (specs n).partitionList m n
    have hpos := @compareOrderLists_pos (specs m).partitionList (specs n).partitionList m n
    have heq : compareOrderLists (specs n).partitionList n (specs m).partitionList m = .eq ↔
        compareOrderLists (specs m).partitionList m (specs n).partitionList n = .eq := by
      rw [compareOrderLists_eq_iff, compareOrderLists_eq_iff]
      exact and_congr eq_comm eq_comm
    generalize compareOrderLists _ m _ n = c at h hcompat hpos heq
    generalize compareOrderLists _ n _ m = c' at hcompat hpos heq ⊢
    cases c with
    | eq =>
      rw [heq.mpr rfl]
      exact compareOrderLists_pos h
    | lt => cases h
    | gt =>
      cases c' with
      | lt => rfl
      | eq => cases heq.mp rfl
      | gt => cases hpos rfl
      | ltC | gtC => cases hcompat
    | ltC | gtC =>
      cases c' with
      | eq => cases heq.mp rfl
      | lt | gt => cases hcompat
      | ltC | gtC =>
        by_cases hcomp : Comparable (specs.join m) (specs.join n)
        · rw [if_pos hcomp] at h
          rw [if_pos hcomp.symm]
          by_cases hlt : (specs.part m).length < (specs.part n).length
          · rw [if_neg (by omega)]
            rfl
          · rw [if_neg hlt] at h
            cases h
        · rw [if_neg hcomp] at h
          rw [if_neg fun h' => hcomp h'.symm]
          exact compareOrderLists_pos h

lemma DistinctExprs.noExpr (hd : DistinctExprs specs funcs) (hf : f ∈ funcs) (hg : g ∈ funcs)
    (hne : f.spec ≠ g.spec) (hlf : l ⊆ specs.join f.spec) (hlg : l ⊆ specs.join g.spec) :
    NoExpr l := by
  intro o ho
  have hof := mem_filter.mp (hlf ho)
  have hog := mem_filter.mp (hlg ho)
  cases hitem : o.item with
  | field i => exact ⟨i, rfl⟩
  | expr id => exact absurd hitem (hd f hf g hg hne o hof.1 o hog.1 id hitem)
  | const id => simp [Order.isConst, hitem, Item.isConst] at hof

lemma compareOrderLists_congr (hcore : core l1 = core l2)
    (hends : endsConst l1 = endsConst l2) (hnoExpr : NoExpr (core l1)) (m n x : Nat)
    (l : List Order) : compareOrderLists l1 m l x = compareOrderLists l2 n l x := by
  rw [compareOrderLists_eq, compareOrderLists_eq, hends, ← hcore]
  exact (compareCores_number hnoExpr m n _ _ _).1

lemma Tie.congr (h : Tie specs m n) (hpart : NoExpr (specs.part m)) (hord : NoExpr (specs.ord m))
    (hxm : m ≠ x) (hxn : n ≠ x) : Window.specCompare specs m x = Window.specCompare specs n x := by
  have hjoin : specs.join m = specs.join n := by rw [join_eq, join_eq, h.part, h.ord]
  have hJ : ¬ Comparable (specs.join m) (specs.join x) →
      compareJoinedLists specs m x = compareJoinedLists specs n x := by
    intro hnot
    have hnoExpr : NoExpr (specs.join m) := by
      rw [join_eq]
      intro o ho
      rcases mem_append.mp ho with ho | ho
      · exact hpart o ho
      · exact hord o ho
    have hcompat : (compareJoinedLists specs n x).compatible = false := by
      rwa [← Bool.not_eq_true, compareJoined_compatible, ← hjoin]
    rw [compareJoinedLists, compareOrderLists_eq] at hcompat ⊢
    rw [compareJoinedLists, compareOrderLists_eq]
    change (compareCores n x (specs.join n) _ _ _).compatible = false at hcompat
    change compareCores m x (specs.join m) _ _ _ = compareCores n x (specs.join n) _ _ _
    rw [(compareCores_number hnoExpr m n _ _ _).1, hjoin]
    exact compareCores_ends _ _ hcompat
  unfold Window.specCompare
  rw [if_neg hxm, if_neg hxn, compareOrderLists_congr h.part h.partEnds hpart m n x,
    compareOrderLists_congr h.ord h.ordEnds hord m n x, hjoin, h.part]
  rw [hjoin] at hJ
  cases compareOrderLists (specs n).partitionList n (specs x).partitionList x with
  | eq | lt | gt => rfl
  | ltC | gtC =>
    dsimp only
    by_cases hcomp : Comparable (specs.join n) (specs.join x)
    · rw [if_pos hcomp, if_pos hcomp]
    · rw [if_neg hcomp, if_neg hcomp, hJ hcomp]

/-- The relation that the sort establishes between neighbours. -/
def NotAfter (specs : Specs F) (f g : WinFunc) : Prop :=
  (specCompare specs f.spec g.spec).pos = false

open Library.BubbleSort in
lemma consistent_sortFunc (frameCmp : F → F → Cmp) (hs : Sharable specs funcs)
    (hd : DistinctExprs specs funcs) :
    Consistent (sortFunc frameCmp) (AllKept specs funcs) (· ∈ funcs) (NotAfter specs) where
  keeps := fun hst hf hg => (compareWindowFuncs_spec frameCmp hs hst hf hg).1
  swap := by
    intro st f g hst hf hg hswap
    rcases (compareWindowFuncs_spec frameCmp hs hst hf hg).2 with ⟨-, htie⟩ | heq
    · rw [NotAfter, htie.symm.specCompare]
      rfl
    · exact specCompare_pos (heq ▸ hswap)
  stay := by
    intro st f g hst hf hg hstay
    rcases (compareWindowFuncs_spec frameCmp hs hst hf hg).2 with ⟨-, htie⟩ | heq
    · rw [NotAfter, htie.specCompare]
      rfl
    · rw [NotAfter, ← heq]
      exact hstay
  tie := by
    intro st n m x hst hn hm hx hswap hle hmx
    rcases (compareWindowFuncs_spec frameCmp hs hst hn hm).2 with ⟨hne, htie⟩ | heq
    · by_cases hxn : n.spec = x.spec
      · rw [NotAfter, hxn, specCompare_self]
        rfl
      · by_cases hxm : m.spec = x.spec
        · rw [NotAfter, ← hxm, htie.specCompare]
          rfl
        · have hjoin : specs.join n.spec = specs.join m.spec := by
            rw [join_eq, join_eq, htie.part, htie.ord]
          have hnoExpr : NoExpr (specs.join n.spec) :=
            hd.noExpr hn hm hne (fun _ h => h) (hjoin ▸ fun _ h => h)
          rw [join_eq] at hnoExpr
          rw [NotAfter, htie.congr (fun o ho => hnoExpr o (mem_append_left _ ho))
            (fun o ho => hnoExpr o (mem_append_right _ ho)) hxn hxm]
          exact hmx
    · have hpos : (specCompare specs n.spec m.spec).pos = true := heq ▸ hswap
      rw [NotAfter, hpos] at hle
      cases hle

end Compare

end MariaDB.Window
