import MariaDB.Window.Rows
import MariaDB.Window.Sorted

/-!
# The groups of window functions

The members of a group are compatible with their neighbours only. Under the condition on the
specifications all lists of a group are beginnings of one another, and the function with the
most elements has the longest one, so that one sort serves them all.
-/
namespace MariaDB.Window

open List

variable {F : Type} {specs st : Specs F} {f g h : WinFunc}

/-- Neighbours of a group: equal partition lists with lists that begin each other, or a longer
partition list first. -/
def Step (specs : Specs F) (f g : WinFunc) : Prop :=
  (specs.part f.spec = specs.part g.spec ∧ specs.join f.spec <+: specs.join g.spec) ∨
    (specs.part g.spec).length < (specs.part f.spec).length

lemma Step.trans (hfg : Step specs f g) (hgh : Step specs g h) : Step specs f h := by
  grind [Step]

lemma Step.length_le (hfg : Step specs f g) :
    (specs.part g.spec).length ≤ (specs.part f.spec).length := by
  rcases hfg with ⟨hp, -⟩ | hlt
  · rw [hp]
  · exact hlt.le

lemma step_of_notAfter (hs : Sharable specs funcs) (hf : f ∈ funcs) (hg : g ∈ funcs)
    (hafter : NotAfter specs f g)
    (hcomp : Comparable (specs.join f.spec) (specs.join g.spec)) : Step specs f g := by
  unfold NotAfter specCompare at hafter
  by_cases hsame : f.spec = g.spec
  · exact .inl ⟨congrArg specs.part hsame, [], by rw [append_nil, hsame]⟩
  · rw [if_neg hsame] at hafter
    have hpartComp : (compareOrderLists (specs f.spec).partitionList f.spec
        (specs g.spec).partitionList g.spec).compatible = true :=
      (compareOrderLists_compatible ..).mpr hcomp.part
    cases hcmp : compareOrderLists (specs f.spec).partitionList f.spec
      (specs g.spec).partitionList g.spec with
    | eq =>
      rw [hcmp] at hafter
      have hpart : specs.part _ = specs.part _ := (compareOrderLists_eq_iff.mp hcmp).1
      refine .inl ⟨hpart, ?_⟩
      rw [join_eq, join_eq, ← hpart] at hcomp ⊢
      rw [prefix_append_right_inj]
      rcases hcomp with hpre | hpre
      · exact (prefix_append_right_inj _).mp hpre
      · have hord := (prefix_append_right_inj _).mp hpre
        dsimp only at hafter
        rw [compareOrderLists_eq] at hafter
        have hsame : specs.ord f.spec = specs.ord g.spec :=
          compareCores_prefix_of_not_pos hafter hord
        exact ⟨[], by rw [append_nil, hsame]⟩
    | lt | gt => rw [hcmp] at hpartComp; cases hpartComp
    | ltC | gtC =>
      rw [hcmp] at hafter
      dsimp only at hafter
      rw [if_pos hcomp] at hafter
      have hne : specs.part f.spec ≠ specs.part g.spec := by
        intro hpart
        cases hcmp.symm.trans (compareOrderLists_eq_iff.mpr ⟨hpart, hs.ends f hf g hg hpart⟩)
      have hlen : (specs.part f.spec).length ≠ (specs.part g.spec).length := by
        intro hlen
        rcases hcomp.part with hpre | hpre
        · exact hne (hpre.eq_of_length hlen)
        · exact hne (hpre.eq_of_length hlen.symm).symm
      split_ifs at hafter with hlt
      · cases hafter
      · exact .inr (by omega)

/-- Neighbours without a marker go together. -/
lemma comparable_of_no_change (hkept : AllKept specs funcs st) (hf : f ∈ funcs) (hg : g ∈ funcs)
    (hchange : sortOrderChange st f g = false) :
    Comparable (specs.join f.spec) (specs.join g.spec) := by
  rw [← (hkept f hf).join, ← (hkept g hg).join]
  unfold sortOrderChange at hchange
  dsimp only at hchange
  split_ifs at hchange with hboth hpart
  · rw [Spec.joined, Spec.joined, hboth.1, hboth.2]
    exact .inl (prefix_refl _)
  · rw [Bool.not_eq_false'] at hchange
    have hcomp := (compareOrderLists_compatible ..).mp hchange
    rw [Spec.joined, Spec.joined, core_append, core_append, hpart]
    exact hcomp.imp (prefix_append_right_inj _).mpr (prefix_append_right_inj _).mpr
  · rw [Bool.not_eq_false'] at hchange
    exact (compareOrderLists_compatible ..).mp hchange

/-- Lists of which the middle one goes with both others, which do not go together: it is the
beginning of both. -/
lemma begins_of_not_comparable (hab : Comparable a b) (hbc : Comparable b c)
    (hac : ¬ Comparable a c) : (b <+: a ∧ b <+: c) ∧ ¬ a <+: b := by
  have hnot : ¬ a <+: b := by
    intro hpre
    rcases hbc with hbc | hcb
    · exact hac (.inl (hpre.trans hbc))
    · exact hac (List.prefix_or_prefix_of_prefix hpre hcb)
  refine ⟨⟨hab.resolve_left hnot, ?_⟩, hnot⟩
  rcases hbc with hbc | hcb
  · exact hbc
  · exact absurd (.inr (hcb.trans (hab.resolve_left hnot))) hac

lemma pairwise_comparable (hs : Sharable specs funcs) : ∀ (l : List WinFunc), (∀ f ∈ l, f ∈ funcs) →
    l.IsChain (fun f g => Step specs f g ∧ Comparable (specs.join f.spec) (specs.join g.spec)) →
    l.Pairwise fun f g => Step specs f g ∧ Comparable (specs.join f.spec) (specs.join g.spec) := by
  intro l
  induction l with
  | nil => exact fun _ _ => .nil
  | cons x l ih =>
    intro hmem hchain
    obtain ⟨hx, hl⟩ := forall_mem_cons.mp hmem
    cases l with
    | nil => exact pairwise_singleton ..
    | cons y l =>
      obtain ⟨⟨hstep, hxy⟩, hrest⟩ := isChain_cons_cons.mp hchain
      have hpair := ih hl hrest
      refine pairwise_cons.mpr ⟨fun z hz => ?_, hpair⟩
      rcases mem_cons.mp hz with rfl | hz
      · exact ⟨hstep, hxy⟩
      · obtain ⟨hstep', hyz⟩ := (pairwise_cons.mp hpair).1 z hz
        refine ⟨hstep.trans hstep', ?_⟩
        by_contra hxz
        obtain ⟨⟨hyx, hyz'⟩, hnot⟩ := begins_of_not_comparable hxy hyz hxz
        have hlt : (specs.part y.spec).length < (specs.part x.spec).length := by
          rcases hstep with ⟨-, hpre⟩ | hlt
          · exact absurd hpre hnot
          · exact hlt
        exact hxz (hs.between y (hl y (mem_cons_self ..)) x hx z
          (hl z (mem_cons_of_mem _ hz)) hyx hyz' hlt hstep'.length_le)

section Longest

variable (st) in
/-- The function that is chosen: none before it has more elements, all behind it have
fewer. -/
lemma longest_spec : ∀ (rest : List WinFunc) (best : WinFunc),
    ∃ xs ys, best :: rest = xs ++ longest st best rest :: ys ∧
      (∀ f ∈ xs, orderElements st f ≤ orderElements st (longest st best rest)) ∧
      ∀ f ∈ ys, orderElements st f < orderElements st (longest st best rest) := by
  intro rest
  induction rest with
  | nil => exact fun best => ⟨[], [], rfl, forall_mem_nil _, forall_mem_nil _⟩
  | cons f rest ih =>
    intro best
    rw [longest]
    split_ifs with hle
    · obtain ⟨xs, ys, heq, hxs, hys⟩ := ih f
      refine ⟨best :: xs, ys, by rw [heq]; rfl, forall_mem_cons.mpr ⟨?_, hxs⟩, hys⟩
      have hf : f ∈ xs ++ longest st f rest :: ys := heq ▸ mem_cons_self ..
      rcases mem_append.mp hf with hf | hf
      · exact hle.trans (hxs f hf)
      · rcases mem_cons.mp hf with hf | hf
        · rwa [← hf]
        · exact hle.trans (hys f hf).le
    · obtain ⟨xs, ys, heq, hxs, hys⟩ := ih best
      generalize longest st best rest = chosen at *
      cases xs with
      | nil =>
        obtain ⟨hbest, hrest⟩ := cons.inj heq
        refine ⟨[], f :: ys, ?_, forall_mem_nil _, forall_mem_cons.mpr ⟨?_, hys⟩⟩
        · rw [← hbest, hrest]
          rfl
        · rw [← hbest]
          omega
      | cons x xs =>
        obtain ⟨rfl, hrest⟩ := cons.inj heq
        obtain ⟨hbest, hxs⟩ := forall_mem_cons.mp hxs
        refine ⟨best :: f :: xs, ys, by rw [hrest]; rfl, ?_, hys⟩
        exact forall_mem_cons.mpr ⟨hbest, forall_mem_cons.mpr ⟨by omega, hxs⟩⟩

/-- A function whose lists begin those of another one does not have more elements, also after
an exchange of lists. -/
lemma Sharable.orderElements_le (hs : Sharable specs funcs) (hkept : AllKept specs funcs st)
    (hf : f ∈ funcs) (hg : g ∈ funcs) (hpre : specs.join f.spec <+: specs.join g.spec)
    (hne : specs.join f.spec ≠ specs.join g.spec) :
    orderElements st f ≤ orderElements st g ∧
      ((specs.part f.spec).length < (specs.part g.spec).length →
        orderElements st f < orderElements st g) := by
  have hfrom : ∀ f ∈ funcs, ∃ f' ∈ funcs, ∃ f'' ∈ funcs,
      orderElements st f =
        (specs f'.spec).partitionList.length + (specs f''.spec).orderList.length ∧
      specs.part f'.spec = specs.part f.spec ∧ specs.part f''.spec = specs.part f.spec ∧
      specs.join f''.spec = specs.join f.spec := by
    intro f hf
    obtain ⟨f', hf', hlist'⟩ := (hkept f hf).partFrom
    obtain ⟨f'', hf'', hlist'', hpart⟩ := (hkept f hf).ordFrom
    refine ⟨f', hf', f'', hf'', ?_, ?_, hpart, ?_⟩
    · rw [orderElements, hlist', hlist'']
    · rw [Specs.part, ← hlist', (hkept f hf).partCore]
    · rw [join_eq, join_eq, hpart, Specs.ord, ← hlist'', (hkept f hf).ordCore]
  obtain ⟨f', hf', f'', hf'', hcountf, hpf', hpf'', hjf⟩ := hfrom f hf
  obtain ⟨g', hg', g'', hg'', hcountg, hpg', hpg'', hjg⟩ := hfrom g hg
  have helem := hs.elements f'' hf'' g'' hg'' (by rwa [hjf, hjg]) (by rwa [hjf, hjg]) f' hf' g' hg'
    (hpf'.trans hpf''.symm) (hpg'.trans hpg''.symm)
  rw [hpf'', hpg''] at helem
  rwa [hcountf, hcountg]

lemma join_prefix_longest (hs : Sharable specs funcs) (hkept : AllKept specs funcs st)
    (hmem : ∀ f ∈ first :: group, f ∈ funcs)
    (hpair : (first :: group).Pairwise fun f g => Step specs f g ∧
      Comparable (specs.join f.spec) (specs.join g.spec)) :
    ∀ f ∈ first :: group, specs.join f.spec <+: specs.join (longest st first group).spec := by
  obtain ⟨xs, ys, heq, hxs, hys⟩ := longest_spec st group first
  generalize longest st first group = best at *
  rw [heq] at hmem hpair ⊢
  have hbest : best ∈ funcs := hmem best (by simp)
  intro f hf
  obtain ⟨hbefore, hafter, hcross⟩ := pairwise_append.mp hpair
  rcases mem_append.mp hf with hf | hf
  · obtain ⟨hstep, hcomp⟩ := hcross f hf best (mem_cons_self ..)
    refine hcomp.elim id fun hpre => ?_
    by_contra hnot
    have hne : specs.join best.spec ≠ specs.join f.spec := fun h => hnot (h ▸ prefix_refl _)
    obtain ⟨-, hlt⟩ := hs.orderElements_le hkept hbest (hmem f (by simp [hf])) hpre hne
    have hle := hxs f hf
    rcases hstep with ⟨-, hpre'⟩ | hlen
    · exact hnot hpre'
    · have := hlt hlen
      omega
  · rcases mem_cons.mp hf with rfl | hf
    · exact prefix_refl _
    · obtain ⟨-, hcomp⟩ := (pairwise_cons.mp hafter).1 f hf
      refine hcomp.symm.elim id fun hpre => ?_
      by_contra hnot
      have hne : specs.join best.spec ≠ specs.join f.spec := fun h => hnot (h ▸ prefix_refl _)
      obtain ⟨hle, -⟩ := hs.orderElements_le hkept hbest (hmem f (by simp [hf])) hpre hne
      have := hys f hf
      omega

end Longest

end MariaDB.Window
