import Mathlib

/-!
# The GTID state of a binlog

The state has the last GTID of each domain and server, and knows the most recent one of each
domain. It is a list without two GTIDs of the same domain and server, in which the most recent
GTID of a domain comes after its others; this is the order in which a state is written and
read back.
-/
namespace MariaDB.Rpl

open List

structure Gtid where
  domainId : Nat
  serverId : Nat
  seqNo : Nat
  deriving DecidableEq

namespace Gtid

def SameServer (g h : Gtid) : Prop := g.domainId = h.domainId ∧ g.serverId = h.serverId

instance (g h : Gtid) : Decidable (g.SameServer h) := inferInstanceAs (Decidable (_ ∧ _))

lemma SameServer.symm {g h : Gtid} (h' : g.SameServer h) : h.SameServer g := ⟨h'.1.symm, h'.2.symm⟩

lemma SameServer.trans {g h k : Gtid} (h₁ : g.SameServer h) (h₂ : h.SameServer k) :
    g.SameServer k :=
  ⟨h₁.1.trans h₂.1, h₁.2.trans h₂.2⟩

end Gtid

abbrev BinlogState := List Gtid

namespace BinlogState

def update (s : BinlogState) (g : Gtid) : BinlogState :=
  s.filter (fun h => ¬ h.SameServer g) ++ [g]

def updateAll (s : BinlogState) (gs : List Gtid) : BinlogState := gs.foldl update s

def find (s : BinlogState) (domainId serverId : Nat) : Option Gtid :=
  s.find? fun g => g.domainId = domainId ∧ g.serverId = serverId

def lastGtid (s : BinlogState) (domainId : Nat) : Option Gtid :=
  (s.filter fun g => g.domainId = domainId).getLast?

/-- `is_before_pos()`; the position has one GTID for each of its domains. -/
def isBeforePos (s : BinlogState) (pos : List Gtid) : Bool :=
  pos.all (fun e => match s.find e.domainId e.serverId with
    | none => true
    | some g => !(e.seqNo < g.seqNo || (g.seqNo = e.seqNo && s.lastGtid e.domainId ≠ some g))) &&
  s.all fun g => (pos.find? fun e => e.domainId = g.domainId).isSome

/-! ## Updates -/

variable (s : BinlogState)

@[simp]
lemma updateAll_nil : s.updateAll [] = s := rfl

lemma updateAll_append (gs hs : List Gtid) :
    s.updateAll (gs ++ hs) = (s.updateAll gs).updateAll hs :=
  foldl_append

lemma updateAll_concat (gs : List Gtid) (g : Gtid) :
    s.updateAll (gs ++ [g]) = (s.updateAll gs).update g :=
  updateAll_append s gs [g]

variable {gs : List Gtid} {g : Gtid}

lemma updateAll_nil_of_pairwise
    (h : gs.Pairwise fun g h => ¬ g.SameServer h) : updateAll [] gs = gs := by
  induction gs using reverseRecOn with
  | nil => rfl
  | append_singleton gs g ih =>
    rw [pairwise_append] at h
    rw [updateAll_concat, ih h.1, update]
    congr 1
    refine filter_eq_self.mpr fun k hk => ?_
    simpa using h.2.2 k hk g (by simp)

lemma updateAll_eq (gs : List Gtid) :
    s.updateAll gs = s.filter (fun h => ∀ g ∈ gs, ¬ h.SameServer g) ++ updateAll [] gs := by
  induction gs using reverseRecOn with
  | nil => simp
  | append_singleton gs g ih =>
    rw [updateAll_concat, updateAll_concat, ih, update, update, filter_append,
      filter_filter, append_assoc]
    congr 2
    funext h
    simp [or_imp, forall_and, and_comm]

lemma mem_updateAll_nil (hg : g ∈ updateAll [] gs) : g ∈ gs := by
  induction gs using reverseRecOn <;> grind [updateAll_concat, update, updateAll]

lemma pairwise_updateAll_nil (gs : List Gtid) :
    (updateAll [] gs).Pairwise fun g h => ¬ g.SameServer h := by
  induction gs using reverseRecOn with
  | nil => simp
  | append_singleton gs g ih =>
    rw [updateAll_concat, update, pairwise_append]
    refine ⟨ih.filter _, by simp, fun h hh k hk => ?_⟩
    obtain rfl := mem_singleton.mp hk
    simpa using of_mem_filter hh

lemma exists_mem_updateAll_nil (hg : g ∈ gs) : ∃ h ∈ updateAll [] gs, h.SameServer g := by
  induction gs using reverseRecOn with
  | nil => simp at hg
  | append_singleton gs k ih =>
    rw [updateAll_concat, update]
    by_cases hk : k.SameServer g
    · exact ⟨k, by simp, hk⟩
    · obtain hg | hg := mem_append.mp hg
      · obtain ⟨h, hh, hsame⟩ := ih hg
        refine ⟨h, mem_append_left _ (mem_filter.mpr ⟨hh, ?_⟩), hsame⟩
        simpa using fun h' : h.SameServer k => hk (h'.symm.trans hsame)
      · obtain rfl := mem_singleton.mp hg
        exact absurd ⟨rfl, rfl⟩ hk

lemma updateAll_updateAll_nil (gs : List Gtid) :
    s.updateAll (updateAll [] gs) = s.updateAll gs := by
  rw [updateAll_eq s gs, updateAll_eq s (updateAll [] gs),
    updateAll_nil_of_pairwise (pairwise_updateAll_nil gs)]
  congr 2
  funext h
  simp only [decide_eq_decide]
  constructor
  · intro hno g hg hsame
    obtain ⟨k, hk, hkg⟩ := exists_mem_updateAll_nil hg
    exact hno k hk (hsame.trans hkg.symm)
  · exact fun hno g hg => hno g (mem_updateAll_nil hg)

lemma updateAll_of_isPrefix (gs hs : List Gtid) :
    (updateAll [] gs).updateAll (updateAll [] (gs ++ hs)) = updateAll [] (gs ++ hs) := by
  rw [updateAll_eq, updateAll_nil_of_pairwise (pairwise_updateAll_nil _)]
  have hnil : (updateAll [] gs).filter
      (fun h => ∀ g ∈ updateAll [] (gs ++ hs), ¬ h.SameServer g) = [] := by
    refine filter_eq_nil_iff.mpr fun g hg => ?_
    obtain ⟨k, hk, hkg⟩ := exists_mem_updateAll_nil (mem_append_left hs (mem_updateAll_nil hg))
    simp only [decide_eq_true_eq, not_forall, not_not]
    exact ⟨k, hk, hkg.symm⟩
  rw [hnil, nil_append]

/-! ## Lookups -/

lemma find_updateAll_nil (gs : List Gtid) (d s : Nat) : (updateAll [] gs).find d s =
      (gs.filter fun g => g.domainId = d ∧ g.serverId = s).getLast? := by
  induction gs using reverseRecOn with
  | nil => rfl
  | append_singleton gs g ih =>
    rw [updateAll_concat, update, find, find?_append, filter_append]
    by_cases hg : g.domainId = d ∧ g.serverId = s
    · have hnone : ((updateAll [] gs).filter (fun h => ¬ h.SameServer g)).find?
          (fun g => g.domainId = d ∧ g.serverId = s) = none := by
        refine find?_eq_none.mpr fun h hh hkey => ?_
        have hkey : h.domainId = d ∧ h.serverId = s := by simpa using hkey
        have := of_mem_filter hh
        simp only [decide_eq_true_eq] at this
        exact this ⟨hkey.1.trans hg.1.symm, hkey.2.trans hg.2.symm⟩
      rw [hnone]
      simp [hg]
    · have hsame : ((updateAll [] gs).filter (fun h => ¬ h.SameServer g)).find?
          (fun g => g.domainId = d ∧ g.serverId = s) = (updateAll [] gs).find d s := by
        rw [find?_filter, find]
        congr 1
        funext h
        by_cases hh : h.domainId = d ∧ h.serverId = s
        · have hne : ¬ h.SameServer g := fun h' => hg ⟨h'.1.symm.trans hh.1, h'.2.symm.trans hh.2⟩
          simp [hh, hne]
        · simp [hh]
      rw [hsame, ih]
      simp [hg]

lemma lastGtid_updateAll_nil (gs : List Gtid) (d : Nat) :
    (updateAll [] gs).lastGtid d = (gs.filter fun g => g.domainId = d).getLast? := by
  induction gs using reverseRecOn with
  | nil => rfl
  | append_singleton gs g ih =>
    rw [updateAll_concat, update, lastGtid, filter_append, filter_append]
    by_cases hg : g.domainId = d
    · simp [hg]
    · have hsame : ((updateAll [] gs).filter (fun h => ¬ h.SameServer g)).filter
          (fun g => g.domainId = d) = (updateAll [] gs).filter fun g => g.domainId = d := by
        rw [filter_filter]
        congr 1
        funext h
        by_cases hh : h.domainId = d
        · have hne : ¬ h.SameServer g := fun h' => hg (h'.1.symm.trans hh)
          simp [hh, hne]
        · simp [hh]
      have hnil : [g].filter (fun g => decide (g.domainId = d)) = [] := by simp [hg]
      rw [hsame, hnil, append_nil, append_nil]
      exact ih

/-! ## Positions -/

/-- The GTIDs of each server come in the order of their numbers. -/
def Increasing (gs : List Gtid) : Prop :=
  gs.Pairwise fun g h => g.SameServer h → g.seqNo < h.seqNo

/-- An event group that comes after `before` is included in a position: the position has a GTID
of its domain, which does not come before the group and is not an earlier one of its server. -/
def Included (pos before : List Gtid) (g : Gtid) : Prop :=
  ∃ e, (pos.find? fun e => e.domainId = g.domainId) = some e ∧ e ∉ before ∧
    (e.serverId = g.serverId → g.seqNo ≤ e.seqNo)

lemma Increasing.exists_last (h : Increasing gs) (hg : g ∈ gs) {d s : Nat}
    (hd : g.domainId = d) (hs : g.serverId = s) :
    ∃ last, (gs.filter fun x => x.domainId = d ∧ x.serverId = s).getLast? = some last ∧
      (g = last ∨ g.seqNo < last.seqNo) := by
  have hinc := h.filter fun x => x.domainId = d ∧ x.serverId = s
  have hmem : g ∈ gs.filter fun x => x.domainId = d ∧ x.serverId = s := by simp [hg, hd, hs]
  obtain ⟨last, hlast⟩ := getLast?_isSome.mpr (ne_nil_of_mem hmem) |> Option.isSome_iff_exists.mp
  have hkey : last.domainId = d ∧ last.serverId = s := by
    simpa using of_mem_filter (mem_of_getLast? hlast)
  obtain ⟨l, hl⟩ := getLast?_eq_some_iff.mp hlast
  rw [hl] at hinc hmem
  refine ⟨last, hlast, ?_⟩
  obtain hmem | hmem := mem_append.mp hmem
  · right
    exact (pairwise_append.mp hinc).2.2 g hmem last (by simp)
      ⟨hd.trans hkey.1.symm, hs.trans hkey.2.symm⟩
  · left
    exact mem_singleton.mp hmem

lemma included_of_isBeforePos (hinc : Increasing gs) {pos : List Gtid}
    (hbefore : (updateAll [] gs).isBeforePos pos) {a b : List Gtid}
    (hgs : gs = a ++ g :: b) : Included pos a g := by
  have hg : g ∈ gs := by rw [hgs]; simp
  simp only [isBeforePos, Bool.and_eq_true, all_eq_true] at hbefore
  obtain ⟨hpos, hdomains⟩ := hbefore
  -- the position has the domain
  obtain ⟨k, hk, hkg⟩ := exists_mem_updateAll_nil hg
  obtain ⟨e, he⟩ := Option.isSome_iff_exists.mp (hdomains k hk)
  rw [hkg.1] at he
  have hed : e.domainId = g.domainId := by simpa using find?_some he
  have hcheck := hpos e (mem_of_find?_eq_some he)
  rw [find_updateAll_nil, lastGtid_updateAll_nil] at hcheck
  refine ⟨e, he, fun hea => ?_, fun hserver => ?_⟩
  · -- the last group of the domain is not before `g`, so that it is not `e`
    have hegs : e ∈ gs := by rw [hgs]; exact mem_append_left _ hea
    obtain ⟨last, hlast, hle⟩ := hinc.exists_last hegs rfl rfl
    rw [hlast] at hcheck
    simp only [Bool.not_eq_true', Bool.or_eq_false_iff, decide_eq_false_iff_not, Nat.not_lt,
      Bool.and_eq_false_iff, ne_eq, not_not] at hcheck
    obtain rfl | hlt := hle
    · obtain hne | hlastD := hcheck.2
      · exact hne rfl
      · have hmem : e ∈ g :: b := by
          rw [hgs, filter_append] at hlastD
          have hne : ((g :: b).filter fun g => g.domainId = e.domainId) ≠ [] := by simp [hed]
          rw [getLast?_append_of_ne_nil _ hne] at hlastD
          exact mem_of_mem_filter (mem_of_getLast? hlastD)
        rw [Increasing, hgs, pairwise_append] at hinc
        exact Nat.lt_irrefl _ (hinc.2.2 e hea e hmem ⟨rfl, rfl⟩)
    · omega
  · obtain ⟨last, hlast, hle⟩ := hinc.exists_last hg hed.symm hserver.symm
    rw [hlast] at hcheck
    simp only [Bool.not_eq_true', Bool.or_eq_false_iff, decide_eq_false_iff_not,
      Nat.not_lt] at hcheck
    obtain rfl | hlt := hle
    · exact hcheck.1
    · omega

/-- The numbers of the next GTID are checked against the state. -/
lemma Increasing.concat (h : Increasing gs)
    (hg : ∀ k ∈ updateAll [] gs, k.SameServer g → k.seqNo < g.seqNo) :
    Increasing (gs ++ [g]) := by
  refine pairwise_append.mpr ⟨h, by simp, fun k hk g' hg' hsame => ?_⟩
  obtain rfl := mem_singleton.mp hg'
  have hlookup := find_updateAll_nil gs k.domainId k.serverId
  obtain ⟨last, hlast, hle⟩ := h.exists_last hk rfl rfl
  rw [hlast] at hlookup
  have hkey : last.SameServer k := by simpa [Gtid.SameServer] using find?_some hlookup
  have hlt := hg last (mem_of_find?_eq_some hlookup) (hkey.trans hsame)
  obtain rfl | hle := hle
  · exact hlt
  · omega

end BinlogState

end MariaDB.Rpl
