import MariaDB.Window.Groups

/-!
# Every window function is served by its sort

Under the condition on the specifications, `Window_funcs_computation::setup()` puts every
function into one sort, and rows sorted by its list are in an order that serves the function.
Without it the function in the middle of a group can be compatible with both neighbours while
they are not compatible with each other.
-/
namespace MariaDB.Window

open List

variable {F : Type} {specs st : Specs F} {funcs : List WinFunc}

section Sorts

variable (st) in
lemma takeGroup_spec : ∀ (l : List WinFunc) (prev : WinFunc), (prev :: l).IsChain R →
    l = (takeGroup st prev l).1 ++ (takeGroup st prev l).2 ∧
      (prev :: (takeGroup st prev l).1).IsChain (fun f g => R f g ∧
        sortOrderChange st f g = false) ∧
      (takeGroup st prev l).2.IsChain R := by
  intro l
  induction l <;> grind [takeGroup]

variable (st) in
lemma makeSorts_spec : ∀ (fuel : Nat) (l : List WinFunc), l.length ≤ fuel → l.IsChain R →
    (makeSorts st fuel l).flatMap (·.funcs) = l ∧
      ∀ sort ∈ makeSorts st fuel l, ∃ first group, sort = sortSetup st first group ∧
        (first :: group).IsChain (fun f g => R f g ∧ sortOrderChange st f g = false) ∧
        ∀ f ∈ first :: group, f ∈ l := by
  intro fuel
  induction fuel with
  | zero =>
    intro l hlen _
    obtain rfl := length_eq_zero_iff.mp (Nat.le_zero.mp hlen)
    exact ⟨rfl, forall_mem_nil _⟩
  | succ fuel ih =>
    intro l hlen hchain
    cases l with
    | nil => exact ⟨rfl, forall_mem_nil _⟩
    | cons first rest =>
      obtain ⟨heq, hgroup, hrest⟩ := takeGroup_spec st rest first hchain
      rw [makeSorts]
      dsimp only
      generalize takeGroup st first rest = taken at heq hgroup hrest
      obtain ⟨group, left⟩ := taken
      dsimp only at heq hgroup hrest ⊢
      subst heq
      simp only [length_cons, length_append] at hlen
      obtain ⟨hflat, hsorts⟩ := ih left (by omega) hrest
      refine ⟨?_, forall_mem_cons.mpr ⟨⟨first, group, rfl, hgroup, ?_⟩, ?_⟩⟩
      · rw [flatMap_cons, hflat]
        rfl
      · intro f hf
        rw [← cons_append]
        exact mem_append_left _ hf
      · intro sort hsort
        obtain ⟨first', group', hsetup, hchain', hmem⟩ := hsorts sort hsort
        refine ⟨first', group', hsetup, hchain', fun f hf => ?_⟩
        exact mem_cons_of_mem _ (mem_append_right _ (hmem f hf))

lemma core_prefix_sortOrder (h : l <+: core l') : l <+: core (sortOrder l') := by
  unfold sortOrder
  split_ifs with hnil
  · rw [hnil] at h
    rw [prefix_nil.mp h]
    exact nil_prefix
  · exact h

end Sorts

lemma allKept_self (specs : Specs F) (funcs : List WinFunc) : AllKept specs funcs specs :=
  fun f hf => ⟨rfl, rfl, rfl, rfl, ⟨f, hf, rfl⟩, ⟨f, hf, rfl, rfl⟩⟩

/-- Every function is in one sort, and rows in the order of that sort serve it. -/
def AllServed (frameCmp : F → F → Cmp) (specs : Specs F) (funcs : List WinFunc) : Prop :=
  ((setup frameCmp specs funcs).flatMap (·.funcs)).Perm funcs ∧
    ∀ sort ∈ setup frameCmp specs funcs, ∀ f ∈ sort.funcs,
      ∀ (V : Type) [LinearOrder V] (consts : Nat → V) (rows : List (Row V)),
        SortedBy consts sort.order rows → Serves consts rows (specs f.spec)

theorem allServed_of_sharable (frameCmp : F → F → Cmp) (hd : DistinctExprs specs funcs)
    (hs : Sharable specs funcs) : AllServed frameCmp specs funcs := by
  obtain ⟨hkept, hchain, hperm⟩ :=
    (consistent_sortFunc frameCmp hs hd).sort_spec (allKept_self specs funcs) fun _ hf => hf
  unfold AllServed setup orderWindowFuncs
  generalize Library.BubbleSort.sort _ _ _ = sorted at hkept hchain hperm
  obtain ⟨sorted, st⟩ := sorted
  obtain ⟨hflat, hsorts⟩ := makeSorts_spec st sorted.length sorted (le_refl _) hchain
  refine ⟨by rw [hflat]; exact hperm, fun sort hsort f hf V _ consts rows hrows => ?_⟩
  obtain ⟨first, group, rfl, hgroup, hmem⟩ := hsorts sort hsort
  have hin : ∀ f ∈ first :: group, f ∈ funcs := fun f hf => hperm.mem_iff.mp (hmem f hf)
  have hsteps : (first :: group).IsChain fun f g => Step specs f g ∧
      Comparable (specs.join f.spec) (specs.join g.spec) := by
    refine hgroup.imp_of_mem_imp fun f g hf hg ⟨hafter, hchange⟩ => ?_
    have hcomp := comparable_of_no_change hkept (hin f hf) (hin g hg) hchange
    exact ⟨step_of_notAfter hs (hin f hf) (hin g hg) hafter hcomp, hcomp⟩
  have hpre := join_prefix_longest hs hkept hin (pairwise_comparable hs _ hin hsteps) f hf
  have hlongest : longest st first group ∈ funcs := by
    obtain ⟨xs, ys, heq, -⟩ := longest_spec st group first
    exact hin _ (heq ▸ by simp)
  rw [← (hkept _ hlongest).join] at hpre
  exact serves_of_prefix (core_prefix_sortOrder hpre) hrows

section Example

def asc (i : Nat) : Order := ⟨.field i, .asc⟩

/-- `OVER (PARTITION BY a ORDER BY b)` and `OVER (PARTITION BY a ORDER BY b, c)`. -/
def orderSpecs : Specs Unit
  | 0 => ⟨false, [asc 0], [asc 1, asc 2], ()⟩
  | _ => ⟨false, [asc 0], [asc 1], ()⟩

theorem allServed_orderSpecs :
    setup (fun _ _ => .eq) orderSpecs [⟨0, 0⟩, ⟨1, 1⟩] =
        [⟨[⟨1, 1⟩, ⟨0, 0⟩], [asc 0, asc 1, asc 2]⟩] ∧
      AllServed (fun _ _ => .eq) orderSpecs [⟨0, 0⟩, ⟨1, 1⟩] := by
  refine ⟨by decide, allServed_of_sharable _ ?_ ⟨by decide, by decide, by decide, by decide⟩⟩
  intro f hf g hg hne o ho o' ho' id hid
  simp only [mem_cons, not_mem_nil, or_false] at hf hg
  rcases hf with rfl | rfl <;> simp [orderSpecs, Spec.joined, asc] at ho
  · rcases ho with rfl | rfl | rfl <;> cases hid
  · rcases ho with rfl | rfl <;> cases hid

/-- `OVER (PARTITION BY a, b)`, `OVER (PARTITION BY a)` and
`OVER (PARTITION BY a ORDER BY c)`. -/
def betweenSpecs : Specs Unit
  | 0 => ⟨false, [asc 0, asc 1], [], ()⟩
  | 1 => ⟨false, [asc 0], [], ()⟩
  | _ => ⟨false, [asc 0], [asc 2], ()⟩

def threeFields (a b c : Nat) : Row Nat :=
  ⟨fun i => [a, b, c].getD i 0, fun _ => 0⟩

attribute [local simp] betweenSpecs threeFields Item.value

/-- All three functions are in one sort, by `a` and `c`. In rows sorted that way the rows with
equal `a` and `b` need not be contiguous. -/
theorem not_allServed_between : DistinctExprs betweenSpecs [⟨0, 0⟩, ⟨1, 1⟩, ⟨2, 2⟩] ∧
    setup (fun _ _ => .eq) betweenSpecs [⟨0, 0⟩, ⟨1, 1⟩, ⟨2, 2⟩] =
      [⟨[⟨0, 0⟩, ⟨1, 1⟩, ⟨2, 2⟩], [asc 0, asc 2]⟩] ∧
    ¬ AllServed (fun _ _ => .eq) betweenSpecs [⟨0, 0⟩, ⟨1, 1⟩, ⟨2, 2⟩] := by
  have hsetup : setup (fun _ _ => .eq) betweenSpecs [⟨0, 0⟩, ⟨1, 1⟩, ⟨2, 2⟩] =
      [⟨[⟨0, 0⟩, ⟨1, 1⟩, ⟨2, 2⟩], [asc 0, asc 2]⟩] := by decide
  refine ⟨?_, hsetup, fun hserved => ?_⟩
  · intro f hf g hg hne o ho o' ho' id hid
    simp only [mem_cons, not_mem_nil, or_false] at hf
    rcases hf with rfl | rfl | rfl <;> simp [Spec.joined, asc] at ho
    · rcases ho with rfl | rfl <;> cases hid
    · subst ho; cases hid
    · rcases ho with rfl | rfl <;> cases hid
  · have hserves := hserved.2
    rw [hsetup] at hserves
    have h := hserves _ (mem_cons_self ..) ⟨0, 0⟩ (mem_cons_self ..) Nat (fun _ => 0)
      [threeFields 0 0 0, threeFields 0 1 1, threeFields 0 0 2] (by
        simp [SortedBy, compareBy, Order.compareRows, asc]
        decide)
    have hagree := h.contiguous _ _ _ (Sublist.refl _) (by
      simp [Agree, asc])
    have hb := hagree (asc 1) (by simp)
    simp [asc] at hb

end Example

end MariaDB.Window
