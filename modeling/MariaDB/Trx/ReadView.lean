import Mathlib

/-!
# Read views

`ReadViewBase`: how a view is made of the active transaction identifiers that
`trx_sys_t::snapshot_ids()` collected, and which changes it sees. `append()` makes a view see
only what another view sees as well, and `trx_sys_t::clone_oldest_view()` appends all open views
to a new snapshot: this is the view of purge.
-/
namespace MariaDB.Trx

open List

/-- A read view. `ids` is sorted. -/
structure ReadViewBase where
  lowLimitId : Nat
  upLimitId : Nat
  ids : List Nat
  lowLimitNo : Nat
  deriving DecidableEq, Repr

namespace ReadViewBase

/-- The end of `ReadViewBase::snapshot()`, after the identifiers were collected. -/
def snapshot (maxTrxId : Nat) (ids : List Nat) (minTrxNo : Nat) : ReadViewBase :=
  if ids = [] then ⟨maxTrxId, maxTrxId, ids, minTrxNo⟩
  else
    let ids := ids.insertionSort (· ≤ ·)
    let upLimitId := ids.headD 0
    if minTrxNo = maxTrxId ∧ maxTrxId = upLimitId + ids.length then
      ⟨upLimitId, upLimitId, [], upLimitId⟩
    else ⟨maxTrxId, upLimitId, ids, minTrxNo⟩

/-- Whether the changes of a transaction are visible. A binary search in the sorted
identifiers is a membership test. -/
def changesVisible (view : ReadViewBase) (id : Nat) : Bool :=
  if id ≥ view.lowLimitId then false
  else id < view.upLimitId || view.ids.isEmpty || !view.ids.contains id

/-- The loop of `append()` over the identifiers of the other view. The iterator `dst` is
between `passed` and `rest`. -/
def appendLoop (lowLimitId : Nat) :
    (other passed rest : List Nat) → List Nat × List Nat
  | [], passed, rest => (passed, rest)
  | id :: other, passed, rest =>
    if id ≥ lowLimitId then (passed, rest)
    else match rest with
      | [] => appendLoop lowLimitId other (passed ++ [id]) []
      | dst :: rest =>
        if dst < id then appendLoop lowLimitId (id :: other) (passed ++ [dst]) rest
        else if dst > id then appendLoop lowLimitId other (passed ++ [id]) (dst :: rest)
        else appendLoop lowLimitId other passed (dst :: rest)
termination_by other _ rest => other.length + rest.length

/-- `std::lower_bound()` in sorted identifiers ends the part below the limit. -/
def append (view other : ReadViewBase) : ReadViewBase :=
  let lowLimitNo := if view.lowLimitNo > other.lowLimitNo then other.lowLimitNo else view.lowLimitNo
  let lowLimitId := if view.lowLimitId > other.lowLimitId then other.lowLimitId else view.lowLimitId
  let (passed, rest) := appendLoop lowLimitId other.ids [] view.ids
  let ids := passed ++ rest.takeWhile (· < lowLimitId)
  ⟨lowLimitId, if ids = [] then lowLimitId else ids.headD 0, ids, lowLimitNo⟩

def sees (view : ReadViewBase) (id : Nat) : Bool := id < view.upLimitId

def cloneOldestView (snapshot : ReadViewBase) (views : List ReadViewBase) : ReadViewBase :=
  views.foldl append snapshot

structure Consistent (view : ReadViewBase) : Prop where
  sorted : view.ids.Pairwise (· < ·)
  lt_low : ∀ id ∈ view.ids, id < view.lowLimitId
  up_le : ∀ id ∈ view.ids, view.upLimitId ≤ id
  up_le_low : view.upLimitId ≤ view.lowLimitId

variable {maxTrxId minTrxNo id : Nat} {ids : List Nat} {a b : ReadViewBase}

lemma changesVisible_iff (h : a.Consistent) :
    a.changesVisible id = true ↔ id < a.lowLimitId ∧ id ∉ a.ids := by
  have := h.up_le id
  unfold changesVisible
  grind

lemma exists_min (hne : ids ≠ []) :
    ∃ up ∈ ids, (ids.insertionSort (· ≤ ·)).headD 0 = up ∧ ∀ id ∈ ids, up ≤ id := by
  have hperm := ids.perm_insertionSort (· ≤ ·)
  have hsorted := ids.pairwise_insertionSort (· ≤ ·)
  cases hl : ids.insertionSort (· ≤ ·) with
  | nil =>
    rw [hl] at hperm
    exact absurd hperm.nil_eq.symm hne
  | cons up l =>
    rw [hl] at hperm hsorted
    refine ⟨up, hperm.mem_iff.mp (by simp), rfl, fun id hid => ?_⟩
    rcases mem_cons.mp (hperm.mem_iff.mpr hid) with rfl | hid
    · exact le_rfl
    · exact (pairwise_cons.mp hsorted).1 id hid

lemma consistent_snapshot (hnodup : ids.Nodup) (hlt : ∀ id ∈ ids, id < maxTrxId) :
    (snapshot maxTrxId ids minTrxNo).Consistent := by
  unfold snapshot
  by_cases hne : ids = []
  · rw [if_pos hne, hne]
    exact ⟨.nil, nofun, nofun, le_rfl⟩
  · obtain ⟨up, hup, hhead, hmin⟩ := exists_min hne
    have hperm := ids.perm_insertionSort (· ≤ ·)
    have hupLt := hlt up hup
    have hsorted : (ids.insertionSort (· ≤ ·)).Pairwise (· < ·) :=
      (ids.pairwise_insertionSort (· ≤ ·)).imp₂ (fun _ _ hle hne => lt_of_le_of_ne hle hne)
        (hperm.nodup_iff.mpr hnodup)
    rw [if_neg hne]
    simp only [hhead]
    split
    · exact ⟨.nil, nofun, nofun, le_rfl⟩
    · exact ⟨hsorted, fun id hid => hlt id (hperm.mem_iff.mp hid),
        fun id hid => hmin id (hperm.mem_iff.mp hid), hupLt.le⟩

lemma mem_of_length_eq (hnodup : ids.Nodup) (hmem : ∀ id ∈ ids, lo ≤ id ∧ id < hi)
    (hlen : hi = lo + ids.length) (hlo : lo ≤ id) (hhi : id < hi) : id ∈ ids := by
  have hsub : ids.toFinset ⊆ Finset.Ico lo hi := by
    intro x hx
    exact Finset.mem_Ico.mpr (hmem x (mem_toFinset.mp hx))
  have hcard : (Finset.Ico lo hi).card ≤ ids.toFinset.card := by
    rw [toFinset_card_of_nodup hnodup, Nat.card_Ico]
    omega
  have heq := Finset.eq_of_subset_of_card_le hsub hcard
  exact mem_toFinset.mp (heq ▸ Finset.mem_Ico.mpr ⟨hlo, hhi⟩)

/-- A view sees the identifiers below the limit that were not collected. -/
lemma changesVisible_snapshot (hnodup : ids.Nodup) (hlt : ∀ id ∈ ids, id < maxTrxId)
    (minTrxNo id : Nat) :
    (snapshot maxTrxId ids minTrxNo).changesVisible id = true ↔ id < maxTrxId ∧ id ∉ ids := by
  rw [changesVisible_iff (consistent_snapshot hnodup hlt)]
  unfold snapshot
  by_cases hne : ids = []
  · rw [if_pos hne]
  · obtain ⟨up, hup, hhead, hmin⟩ := exists_min hne
    have hperm := ids.perm_insertionSort (· ≤ ·)
    rw [if_neg hne]
    simp only [hhead, hperm.length_eq]
    split
    · -- all identifiers from the smallest one on are active
      rename_i hfull
      have hall : up ≤ id → id < maxTrxId → id ∈ ids :=
        mem_of_length_eq hnodup (fun x hx => ⟨hmin x hx, hlt x hx⟩) hfull.2
      grind
    · rw [hperm.mem_iff]

lemma lowLimitNo_snapshot_le :
    (snapshot maxTrxId ids minTrxNo).lowLimitNo ≤ minTrxNo := by
  grind [snapshot]

lemma changesVisible_of_sees (h : a.Consistent) (hid : a.sees id) : a.changesVisible id := by
  have := h.up_le id
  have := h.up_le_low
  rw [changesVisible_iff h]
  grind [sees]

/-- The merged part is sorted and below the limit, and what the loop leaves can be cut there. -/
lemma appendLoop_spec {other passed rest : List Nat} (hother : other.Pairwise (· < ·))
    (hall : (passed ++ rest).Pairwise (· < ·)) (hlow : ∀ x ∈ passed, x < low)
    (hnext : ∀ x ∈ passed, ∀ y ∈ other, x < y) :
    let (passed', rest') := appendLoop low other passed rest
    (passed' ++ rest').Pairwise (· < ·) ∧ (∀ x ∈ passed', x < low) ∧
      ∀ x < low, x ∈ passed' ++ rest' ↔ x ∈ passed ++ rest ∨ x ∈ other := by
  fun_induction appendLoop low other passed rest
  next passed rest => simp_all
  next id other passed rest hge =>
    rw [pairwise_cons] at hother
    refine ⟨hall, hlow, fun x hx => ?_⟩
    grind
  next id other passed hlt ih =>
    rw [pairwise_cons] at hother
    have := ih hother.2 (by grind) (by grind) (by grind)
    grind
  next id other passed hlt dst rest hdst ih =>
    have hother' := pairwise_cons.mp hother
    have := ih hother (by simpa using hall) (by grind) (by grind)
    grind
  next id other passed hlt dst rest hdst hgt ih =>
    rw [pairwise_cons] at hother
    have hsorted : (passed ++ [id] ++ dst :: rest).Pairwise (· < ·) := by
      simp only [append_assoc, singleton_append, pairwise_append, pairwise_cons] at hall ⊢
      grind
    have := ih hother.2 hsorted (by grind) (by grind)
    grind
  next id other passed hlt dst rest hdst hgt ih =>
    rw [pairwise_cons] at hother
    have := ih hother.2 hall hlow (by grind)
    grind

lemma mem_takeWhile_lt {l : List Nat} (h : l.Pairwise (· < ·)) (low : Nat) :
    id ∈ l.takeWhile (· < low) ↔ id ∈ l ∧ id < low := by
  induction l with
  | nil => simp
  | cons x l ih =>
    rw [pairwise_cons] at h
    have := ih h.2
    rw [takeWhile_cons]
    grind

lemma lowLimitId_append : (a.append b).lowLimitId = min a.lowLimitId b.lowLimitId := by
  simp only [append]
  split_ifs <;> omega

lemma upLimitId_append :
    (a.append b).upLimitId = (a.append b).ids.headD (a.append b).lowLimitId := by
  rw [show (a.append b).upLimitId = if (a.append b).ids = [] then (a.append b).lowLimitId
    else (a.append b).ids.headD 0 from rfl]
  cases (a.append b).ids <;> simp

lemma append_ids (ha : a.Consistent) (hb : b.Consistent) :
    (a.append b).ids.Pairwise (· < ·) ∧ ∀ id, id ∈ (a.append b).ids ↔
      (id ∈ a.ids ∨ id ∈ b.ids) ∧ id < (a.append b).lowLimitId := by
  set low := (a.append b).lowLimitId with hlow
  have h := @appendLoop_spec low _ [] _ hb.sorted ha.sorted nofun nofun
  obtain ⟨passed, rest, hl⟩ : ∃ p r, appendLoop low b.ids [] a.ids = (p, r) := ⟨_, _, rfl⟩
  have hids : (a.append b).ids = passed ++ rest.takeWhile (· < low) := by
    simp only [append] at hlow ⊢
    rw [← hlow, hl]
  rw [hl] at h
  obtain ⟨hsorted, hbelow, hmem⟩ := h
  have hrest := (pairwise_append.mp hsorted).2.1
  rw [hids]
  refine ⟨hsorted.sublist ((takeWhile_sublist _).append_left _), fun id => ?_⟩
  rw [mem_append, mem_takeWhile_lt hrest]
  have := hmem id
  grind

lemma consistent_append (ha : a.Consistent) (hb : b.Consistent) : (a.append b).Consistent := by
  obtain ⟨hsorted, hmem⟩ := append_ids ha hb
  have hlow : ∀ id ∈ (a.append b).ids, id < (a.append b).lowLimitId :=
    fun id hid => ((hmem id).mp hid).2
  refine ⟨hsorted, hlow, ?_, ?_⟩ <;> rw [upLimitId_append]
  all_goals
    cases hids : (a.append b).ids with
    | nil => simp
    | cons up ids =>
      rw [hids, forall_mem_cons] at hlow
      rw [hids, pairwise_cons] at hsorted
      grind

lemma changesVisible_append (ha : a.Consistent) (hb : b.Consistent) (id : Nat) :
    (a.append b).changesVisible id = true ↔ a.changesVisible id ∧ b.changesVisible id := by
  have hmem := (append_ids ha hb).2 id
  rw [changesVisible_iff (consistent_append ha hb), changesVisible_iff ha, changesVisible_iff hb,
    hmem, lowLimitId_append]
  have := ha.lt_low id
  have := hb.lt_low id
  grind

lemma cloneOldestView_spec (views : List ReadViewBase) (ha : a.Consistent)
    (hviews : ∀ view ∈ views, view.Consistent) :
    (cloneOldestView a views).Consistent ∧ ∀ id,
      ((cloneOldestView a views).changesVisible id = true ↔
        a.changesVisible id ∧ ∀ view ∈ views, view.changesVisible id) := by
  induction views generalizing a with
  | nil => simpa [cloneOldestView] using ha
  | cons view views ih =>
    obtain ⟨hview, hviews⟩ := forall_mem_cons.mp hviews
    obtain ⟨hclone, hvisible⟩ := ih (consistent_append ha hview) hviews
    refine ⟨hclone, fun id => ?_⟩
    rw [cloneOldestView, foldl_cons]
    rw [← cloneOldestView, hvisible, changesVisible_append ha hview, forall_mem_cons, and_assoc]

/-- An appended view sees what both views see, and purge never sees a transaction that an open
view does not see. -/
theorem append_oldest :
    (∀ a b : ReadViewBase, a.Consistent → b.Consistent → (a.append b).Consistent ∧
      (a.append b).upLimitId = (a.append b).ids.headD (a.append b).lowLimitId ∧
      (∀ id, (a.append b).changesVisible id = true ↔ a.changesVisible id ∧ b.changesVisible id) ∧
      (∀ id, (a.append b).sees id → (a.append b).changesVisible id) ∧
      (a.append b).lowLimitNo = min a.lowLimitNo b.lowLimitNo) ∧
    ∀ (maxTrxId minTrxNo : Nat) (ids : List Nat) (views : List ReadViewBase), ids.Nodup →
      (∀ id ∈ ids, id < maxTrxId) → (∀ view ∈ views, view.Consistent) →
      let purge := cloneOldestView (snapshot maxTrxId ids minTrxNo) views
      ∀ id, (purge.sees id ∨ purge.changesVisible id) → ∀ view ∈ views, view.changesVisible id := by
  refine ⟨fun a b ha hb => ?_, ?_⟩
  · have hc := consistent_append ha hb
    refine ⟨hc, upLimitId_append, changesVisible_append ha hb,
      fun id => changesVisible_of_sees hc, ?_⟩
    simp only [append]
    split_ifs <;> omega
  · intro maxTrxId minTrxNo ids views hnodup hlt hviews purge id hid
    obtain ⟨hc, hvisible⟩ := cloneOldestView_spec views (consistent_snapshot hnodup hlt) hviews
    exact ((hvisible id).mp (hid.elim (changesVisible_of_sees hc) fun h => h)).2

theorem append_oldest_two :
    let a : ReadViewBase := ⟨9, 3, [3, 7], 9⟩
    let b : ReadViewBase := ⟨8, 2, [2, 3], 6⟩
    (∀ id, (a.append b).changesVisible id = true ↔ a.changesVisible id ∧ b.changesVisible id) ∧
      ∀ id, (cloneOldestView (snapshot 10 [3] 9) [a, b]).changesVisible id →
        ∀ view ∈ [a, b], view.changesVisible id := by
  have ha : Consistent ⟨9, 3, [3, 7], 9⟩ := ⟨by decide, by decide, by decide, by decide⟩
  have hb : Consistent ⟨8, 2, [2, 3], 6⟩ := ⟨by decide, by decide, by decide, by decide⟩
  exact ⟨(append_oldest.1 _ _ ha hb).2.2.1, fun id hid =>
    append_oldest.2 10 9 [3] _ (by decide) (by decide) (by simp [ha, hb]) id (.inr hid)⟩

end ReadViewBase

end MariaDB.Trx
