import MariaDB.RecLock.Update

/-!
# No gap lock is lost in a change of the index pages

For each change of the leaf level: a key position that a transaction's request covered before the
change is covered by a request of the same transaction in the same mode after it. Two things are
needed of the order of the calls: the heir inherits before the donor's bits are reset, and what is
reset is not the bound of any key position any more.
-/

namespace MariaDB.RecLock

open List

variable {κ : Type} [LinearOrder κ] {alloc : Alloc} {trxs : Nat → Trx} {trx : Nat} {mode : Mode}
variable {s : Locks} {k : κ}

/-! ### Pages in order -/

namespace PageOk

variable {recs next : List (Rec κ)} {rec : Rec κ}

lemma firstAbove_next (hok : PageOk (recs ++ rec :: next)) (hk : k < rec.key) :
    firstAbove k next = minHeapNo next := by
  refine firstAbove_of_below fun r hr => lt_trans hk ?_
  have h := (pairwise_append.mp hok.sorted).2.1
  exact (pairwise_cons.mp h).1 r hr

lemma heapNo_ne (hok : PageOk (recs ++ rec :: next)) (hr : r ∈ recs ++ next) :
    r.heapNo ≠ rec.heapNo := by
  grind [PageOk]

/-- What bounds a key position is not the removed record. -/
lemma firstAbove_ne (hok : PageOk (recs ++ rec :: next)) (k : κ) :
    firstAbove k (recs ++ next) ≠ rec.heapNo := by
  rcases RecLock.firstAbove_cases k (recs ++ next) with ⟨r, hr, h⟩ | h
  · rw [h]
    exact hok.heapNo_ne hr
  · rw [h]
    exact Nat.ne_of_lt (hok.user rec (by simp))

lemma sublist (hok : PageOk recs) (h : next.Sublist recs) : PageOk next :=
  ⟨hok.sorted.sublist h, hok.nodup.sublist (h.map _), fun r hr => hok.user r (h.mem hr)⟩

lemma left (hok : PageOk (recs ++ next)) : PageOk recs := hok.sublist (sublist_append_left ..)

lemma right (hok : PageOk (recs ++ next)) : PageOk next := hok.sublist (sublist_append_right ..)

lemma supremum_not_mem (hok : PageOk recs) : heapNoSupremum ∉ recs.map Rec.heapNo := by
  intro h
  obtain ⟨r, hr, heq⟩ := mem_map.mp h
  exact Nat.ne_of_gt (hok.user r hr) heq

/-- Either a record bounds `k`, whatever follows, or none of them is above it. -/
lemma firstAbove_cases (hok : PageOk recs) (k : κ) :
    (firstAbove k recs ≠ heapNoSupremum ∧ ∀ b, firstAbove k (recs ++ b) = firstAbove k recs) ∨
      (firstAbove k recs = heapNoSupremum ∧ ∀ r ∈ recs, ¬k < r.key) := by
  rcases firstAbove_append k recs with ⟨r, hr, h⟩ | h
  · have hr' : firstAbove k recs = r.heapNo := by simpa using h []
    rw [hr']
    exact .inl ⟨Nat.ne_of_gt (hok.user r hr), h⟩
  · exact .inr ⟨firstAbove_of_above h, h⟩

lemma firstAbove_not_mem (hok : PageOk recs)
    (hdisj : (next.map Rec.heapNo).Disjoint (recs.map Rec.heapNo)) (k : κ) :
    firstAbove k next ∉ recs.map Rec.heapNo := by
  rcases RecLock.firstAbove_cases k next with ⟨r, hr, h⟩ | h
  · rw [h]
    exact hdisj (mem_map_of_mem hr)
  · rw [h]
    exact hok.supremum_not_mem

lemma disjoint (hok : PageOk (recs ++ next)) :
    (recs.map Rec.heapNo).Disjoint (next.map Rec.heapNo) := by
  have hnodup := hok.nodup
  rw [map_append, nodup_append] at hnodup
  exact fun h hl hr => hnodup.2.2 h hl h hr rfl

/-- A record of one part of the page does not bound with a heap number of the other. -/
lemma firstAbove_left_not_mem (hok : PageOk (recs ++ next)) (k : κ) :
    firstAbove k recs ∉ next.map Rec.heapNo :=
  hok.right.firstAbove_not_mem hok.disjoint k

lemma firstAbove_right_not_mem (hok : PageOk (recs ++ next)) (k : κ) :
    firstAbove k next ∉ recs.map Rec.heapNo :=
  hok.left.firstAbove_not_mem (fun _ hr hl => hok.disjoint hl hr) k

end PageOk

namespace Separates

variable {sep : κ} {left right : List (Rec κ)}

lemma firstAbove_right (h : Separates sep left right) (hk : k < sep) :
    firstAbove k right = minHeapNo right :=
  firstAbove_of_below fun r hr => hk.trans_le (h.le_right r hr)

lemma not_lt_left (h : Separates sep left right) (hk : ¬k < sep) : ∀ r ∈ left, ¬k < r.key :=
  fun r hr hlt => hk (hlt.trans (h.left_lt r hr))

end Separates

/-! ### Records of one page -/

lemma coversGap_insert {recs next : List (Rec κ)} {rec : Rec κ} (hok : PageOk (recs ++ rec :: next))
    (hx : (trxs trx).Inheriting) (hc : CoversGap (s page) (firstAbove k (recs ++ next)) trx mode) :
    CoversGap (lockUpdateInsert alloc trxs page rec.heapNo next s page)
      (firstAbove k (recs ++ rec :: next)) trx mode := by
  unfold lockUpdateInsert
  rcases firstAbove_append k recs with ⟨r, -, h⟩ | habove
  · rw [h] at hc ⊢
    exact hc.inheritToGapIfGapLock _ _ _
  · rw [firstAbove_append_of_above habove] at hc ⊢
    rw [firstAbove]
    split_ifs with hk
    · -- the new record bounds `k`, which the next one bounded
      rw [hok.firstAbove_next hk] at hc
      exact coversGap_inheritToGapIfGapLock hx hc _
    · exact hc.inheritToGapIfGapLock _ _ _

lemma coversGap_delete {recs next : List (Rec κ)} {rec : Rec κ} (hok : PageOk (recs ++ rec :: next))
    (hs : s.SingleBits) (hx : (trxs trx).Inheriting)
    (hc : CoversGap (s page) (firstAbove k (recs ++ rec :: next)) trx mode) :
    CoversGap (lockUpdateDelete alloc trxs page rec.heapNo next s page)
      (firstAbove k (recs ++ next)) trx mode := by
  have hne := hok.firstAbove_ne k
  unfold lockUpdateDelete
  refine CoversGap.resetAndReleaseWait (hs.inheritToGap) ?_ fun h => hne h.2
  rcases firstAbove_append k recs with ⟨r, -, h⟩ | habove
  · rw [h] at hc ⊢
    exact hc.inheritToGap
  · rw [firstAbove_append_of_above habove] at hc ⊢
    rw [firstAbove] at hc
    split_ifs at hc with hk
    · -- the next record bounds `k`, which the removed one bounded
      rw [hok.firstAbove_next hk]
      exact coversGap_inheritToGap hx hc
    · exact hc.inheritToGap

/-! ### Records copied to another page -/

section

variable {moved : List (Rec κ)} {nos : List Nat}

lemma Separates.renumber {sep : κ} {left right : List (Rec κ)} (h : Separates sep left right)
    (nos : List Nat) : Separates sep left (renumber right nos) := by
  refine ⟨h.left_lt, fun r hr => ?_⟩
  obtain ⟨x, hx, hkey⟩ := mem_renumber hr
  exact hkey ▸ h.le_right x hx

lemma Separates.renumber_left {sep : κ} {left right : List (Rec κ)}
    (h : Separates sep left right) (nos : List Nat) :
    Separates sep (RecLock.renumber left nos) right := by
  refine ⟨fun r hr => ?_, h.le_right⟩
  obtain ⟨x, hx, hkey⟩ := mem_renumber hr
  exact hkey ▸ h.left_lt x hx

variable (alloc) in
/-- If a copied record bounds `k`, its requests are on the new page. Otherwise the supremum does,
and its requests are where they were. -/
lemma coversGap_copied (hne : newPage ≠ page) (hok : PageOk moved)
    (hnew : PageOk (renumber moved nos)) (hlen : nos.length = moved.length)
    (hc : CoversGap (s page) (firstAbove k moved) trx mode) :
    let s' := moveRecList alloc newPage page (moves moved nos) s
    (firstAbove k (renumber moved nos) ≠ heapNoSupremum ∧
        CoversGap (s' newPage) (firstAbove k (renumber moved nos)) trx mode) ∨
      (firstAbove k moved = heapNoSupremum ∧ firstAbove k (renumber moved nos) = heapNoSupremum ∧
        CoversGap (s' page) heapNoSupremum trx mode) := by
  intro s'
  have hfst := map_fst_moves hlen
  rcases firstAbove_renumber k hlen with hmem | ⟨h, h'⟩
  · refine .inl ⟨?_, coversGap_moveRecList hmem (hfst ▸ hok.nodup) hc⟩
    intro hsup
    refine hnew.supremum_not_mem ?_
    rw [← hsup, map_heapNo_renumber hlen]
    exact (of_mem_zip hmem).2
  · rw [h] at hc
    exact .inr ⟨h, h', hc.moveRecList hne fun _ => hfst ▸ hok.supremum_not_mem⟩

end

/-! ### Splits -/

section

variable {left right : Nat} {recs moved : List (Rec κ)} {nos : List Nat} {sep : κ}

lemma CoversGap.freeAllFromDiscardPage (hc : CoversGap (s p) h trx mode) (hp : p ≠ page) :
    CoversGap (freeAllFromDiscardPage page s p) h trx mode := by
  unfold RecLock.freeAllFromDiscardPage
  rwa [Function.update_of_ne hp]

variable (hne : left ≠ right) (hlen : nos.length = moved.length) (hx : (trxs trx).Inheriting)
include hne hlen hx

lemma coversGap_splitRight (hok : PageOk (recs ++ moved)) (hsep : Separates sep recs moved)
    (hnew : PageOk (renumber moved nos)) (hs : s.SingleBits)
    (hc : CoversGap (s left) (firstAbove k (recs ++ moved)) trx mode) :
    let s' := lockUpdateSplitRight alloc trxs ⟨right, renumber moved nos⟩ ⟨left, recs⟩
      (moveRecList alloc right left (moves moved nos) s)
    (k < sep → CoversGap (s' left) (firstAbove k recs) trx mode) ∧
      (¬k < sep → CoversGap (s' right) (firstAbove k (renumber moved nos)) trx mode) := by
  intro s'
  have hs₁ : (moveRecList alloc right left (moves moved nos) s).SingleBits := hs.moveRecList
  have hne' : ¬(right = left ∧ heapNoSupremum = heapNoSupremum) := fun h => hne h.1.symm
  -- what bounds `k` after the records of the left page
  have hright : CoversGap (s left) (firstAbove k moved) trx mode →
      CoversGap (recMove alloc right heapNoSupremum left heapNoSupremum
        (moveRecList alloc right left (moves moved nos) s) right)
        (firstAbove k (renumber moved nos)) trx mode := by
    intro hc
    rcases coversGap_copied alloc hne.symm hok.right hnew hlen hc with ⟨-, h⟩ | ⟨-, h', h⟩
    · exact h.recMove hs₁ hne' fun h => hne h.1.symm
    · rw [h']
      exact coversGap_recMove hs₁ hne' h
  constructor
  · intro hk
    rcases hok.left.firstAbove_cases k with ⟨hsup, h⟩ | ⟨hsup, h⟩
    · rw [h] at hc
      refine CoversGap.inheritToGap ?_
      refine CoversGap.recMove hs₁ hne' ?_ fun h => hsup h.2
      exact hc.moveRecList hne.symm fun _ => map_fst_moves hlen ▸ hok.firstAbove_left_not_mem k
    · rw [firstAbove_append_of_above h] at hc
      have hmin := (hsep.renumber nos).firstAbove_right hk
      rw [hsup]
      exact coversGap_inheritToGap hx (hmin ▸ hright hc)
  · intro hk
    rw [firstAbove_append_of_above (hsep.not_lt_left hk)] at hc
    exact (hright hc).inheritToGap

lemma coversGap_splitLeft (hok : PageOk (moved ++ recs)) (hsep : Separates sep moved recs)
    (hnew : PageOk (renumber moved nos))
    (hc : CoversGap (s right) (firstAbove k (moved ++ recs)) trx mode) :
    let s' := lockUpdateSplitLeft alloc trxs ⟨right, recs⟩ ⟨left, renumber moved nos⟩
      (moveRecList alloc left right (moves moved nos) s)
    (k < sep → CoversGap (s' left) (firstAbove k (renumber moved nos)) trx mode) ∧
      (¬k < sep → CoversGap (s' right) (firstAbove k recs) trx mode) := by
  intro s'
  have hright : CoversGap (s right) (firstAbove k recs) trx mode →
      CoversGap (moveRecList alloc left right (moves moved nos) s right) (firstAbove k recs)
        trx mode := fun hc =>
    hc.moveRecList hne fun _ => map_fst_moves hlen ▸ hok.firstAbove_right_not_mem k
  constructor
  · intro hk
    rcases hok.left.firstAbove_cases k with ⟨hsup, h⟩ | ⟨-, h⟩
    · rw [h] at hc
      rcases coversGap_copied alloc hne hok.left hnew hlen hc with ⟨-, h⟩ | ⟨h, -⟩
      · exact h.inheritToGap
      · exact absurd h hsup
    · rw [firstAbove_append_of_above h] at hc
      have hsup : firstAbove k (renumber moved nos) = heapNoSupremum := by
        refine firstAbove_of_above fun r hr => ?_
        obtain ⟨x, hmem, hkey⟩ := mem_renumber hr
        exact hkey ▸ h x hmem
      rw [hsup]
      exact coversGap_inheritToGap hx (hsep.firstAbove_right hk ▸ hright hc)
  · intro hk
    rw [firstAbove_append_of_above (hsep.not_lt_left hk)] at hc
    exact (hright hc).inheritToGap

/-! ### Merges -/

lemma coversGap_mergeLeft (hrecs : PageOk recs) (hmoved : PageOk moved)
    (hsep : Separates sep recs moved) (hnew : PageOk (recs ++ renumber moved nos))
    (hs : s.SingleBits)
    (hlt : k < sep → CoversGap (s left) (firstAbove k recs) trx mode)
    (hge : ¬k < sep → CoversGap (s right) (firstAbove k moved) trx mode) :
    CoversGap (lockUpdateMergeLeft alloc trxs left (minHeapNo (renumber moved nos)) right
        (moveRecList alloc left right (moves moved nos) s) left)
      (firstAbove k (recs ++ renumber moved nos)) trx mode := by
  unfold lockUpdateMergeLeft
  have hs₁ : (moveRecList alloc left right (moves moved nos) s).SingleBits := hs.moveRecList
  generalize hm : minHeapNo (renumber moved nos) = h₀
  generalize hs₁eq : moveRecList alloc left right (moves moved nos) s = s₁ at hs₁ ⊢
  -- the supremum of the left page gives its requests to the first record moved
  let s₂ : Locks :=
    if h₀ ≠ heapNoSupremum then
      resetAndReleaseWait left heapNoSupremum
        (inheritToGap alloc trxs false left h₀ left heapNoSupremum s₁)
    else s₁
  have hs₂ : s₂.SingleBits := by
    simp only [s₂]
    split_ifs
    · exact (hs₁.inheritToGap).resetAndReleaseWait _ _
    · exact hs₁
  have hkeep : ∀ {p h : Nat}, CoversGap (s₁ p) h trx mode →
      (p = left ∧ h = heapNoSupremum → h₀ = heapNoSupremum) → CoversGap (s₂ p) h trx mode := by
    intro p h hc hp
    simp only [s₂]
    split_ifs with h₀ne
    · exact (hc.inheritToGap).resetAndReleaseWait (hs₁.inheritToGap)
        fun h => h₀ne (hp h)
    · exact hc
  have hgain : CoversGap (s₁ left) heapNoSupremum trx mode → CoversGap (s₂ left) h₀ trx mode := by
    intro hc
    simp only [s₂]
    split_ifs with h₀ne
    · exact (coversGap_inheritToGap hx hc).resetAndReleaseWait (hs₁.inheritToGap)
        fun h => h₀ne h.2
    · rwa [not_not.mp h₀ne]
  have hne' : ¬(left = right ∧ heapNoSupremum = heapNoSupremum) := fun h => hne h.1
  refine CoversGap.freeAllFromDiscardPage ?_ hne
  change CoversGap (recMove alloc left heapNoSupremum right heapNoSupremum s₂ left) _ _ _
  by_cases hk : k < sep
  · have hc : CoversGap (s₁ left) (firstAbove k recs) trx mode :=
      hs₁eq ▸ (hlt hk).moveRecList hne fun h => absurd h hne
    refine CoversGap.recMove hs₂ hne' ?_ fun h => hne h.1
    rcases hrecs.firstAbove_cases k with ⟨hsup, h⟩ | ⟨hsup, h⟩
    · rw [h]
      exact hkeep hc fun h => absurd h.2 hsup
    · rw [firstAbove_append_of_above h, (hsep.renumber nos).firstAbove_right hk, hm]
      exact hgain (hsup ▸ hc)
  · rw [firstAbove_append_of_above (hsep.not_lt_left hk)]
    rcases coversGap_copied alloc hne hmoved hnew.right hlen (hge hk) with ⟨hsup, h⟩ | ⟨-, hsup, h⟩
    · rw [hs₁eq] at h
      exact (hkeep h fun h => absurd h.2 hsup).recMove hs₂ hne' fun h => hne h.1
    · rw [hs₁eq] at h
      rw [hsup]
      exact coversGap_recMove hs₂ hne' (hkeep h fun h => absurd h.1.symm hne)

lemma coversGap_mergeRight (hmoved : PageOk moved) (hsep : Separates sep moved recs)
    (hnew : PageOk (renumber moved nos ++ recs)) (hs : s.SingleBits)
    (hlt : k < sep → CoversGap (s left) (firstAbove k moved) trx mode)
    (hge : ¬k < sep → CoversGap (s right) (firstAbove k recs) trx mode) :
    CoversGap (lockUpdateMergeRight alloc trxs right (minHeapNo recs) left
        (moveRecList alloc right left (moves moved nos) s) right)
      (firstAbove k (renumber moved nos ++ recs)) trx mode := by
  unfold lockUpdateMergeRight
  have hs₁ : (moveRecList alloc right left (moves moved nos) s).SingleBits := hs.moveRecList
  refine CoversGap.freeAllFromDiscardPage ?_ hne.symm
  refine CoversGap.resetAndReleaseWait (hs₁.inheritToGap) ?_ fun h => hne h.1.symm
  by_cases hk : k < sep
  · rcases coversGap_copied alloc hne.symm hmoved hnew.left hlen (hlt hk)
      with ⟨hsup, h⟩ | ⟨-, hsup, h⟩
    · rcases hnew.left.firstAbove_cases k with ⟨-, heq⟩ | ⟨hsup', -⟩
      · rw [heq]
        exact h.inheritToGap
      · exact absurd hsup' hsup
    · rcases hnew.left.firstAbove_cases k with ⟨hsup', -⟩ | ⟨-, habove⟩
      · exact absurd hsup hsup'
      · rw [firstAbove_append_of_above habove, hsep.firstAbove_right hk]
        exact coversGap_inheritToGap hx h
  · rw [firstAbove_append_of_above ((hsep.renumber_left nos).not_lt_left hk)]
    refine CoversGap.inheritToGap ?_
    exact (hge hk).moveRecList hne.symm fun h => absurd h.symm hne

end

/-! ### Discarded pages -/

section

variable {heir heirNo page : Nat}

lemma CoversGap.discardLoop (hs : s.SingleBits) (hc : CoversGap (s p) h trx mode) (hp : p ≠ page)
    (hnos : List Nat) :
    CoversGap (discardLoop alloc trxs heir heirNo page hnos s p) h trx mode := by
  induction hnos generalizing s with
  | nil => exact hc
  | cons h' hnos ih =>
    have hs₁ : (RecLock.inheritToGap alloc trxs false heir heirNo page h' s).SingleBits :=
      hs.inheritToGap
    exact ih (hs₁.resetAndReleaseWait _ _)
      ((hc.inheritToGap).resetAndReleaseWait hs₁ fun h => hp h.1)

lemma coversGap_discardLoop (hne : heir ≠ page) (hs : s.SingleBits) (hx : (trxs trx).Inheriting)
    {hnos : List Nat} (hnodup : hnos.Nodup) (hmem : h ∈ hnos) (hc : CoversGap (s page) h trx mode) :
    CoversGap (discardLoop alloc trxs heir heirNo page hnos s heir) heirNo trx mode := by
  induction hnos generalizing s with
  | nil => cases hmem
  | cons h' hnos ih =>
    have hs₁ : (inheritToGap alloc trxs false heir heirNo page h' s).SingleBits := hs.inheritToGap
    have hs₂ : (resetAndReleaseWait page h'
        (inheritToGap alloc trxs false heir heirNo page h' s)).SingleBits :=
      hs₁.resetAndReleaseWait _ _
    rw [nodup_cons] at hnodup
    rw [discardLoop]
    rcases mem_cons.mp hmem with rfl | hmem
    · have hheir : CoversGap (resetAndReleaseWait page h
          (inheritToGap alloc trxs false heir heirNo page h s) heir) heirNo trx mode :=
        (coversGap_inheritToGap hx hc).resetAndReleaseWait hs₁ fun h => hne h.1
      exact hheir.discardLoop hs₂ hne _
    · have hh : h ≠ h' := fun heq => hnodup.1 (heq ▸ hmem)
      exact ih hs₂ hnodup.2 hmem ((hc.inheritToGap).resetAndReleaseWait hs₁ fun h => hh h.2)

lemma PageOk.nodup_heapNos {p : Leaf κ} (hok : PageOk p.recs) : p.heapNos.Nodup := by
  have huser : ∀ h ∈ p.recs.map Rec.heapNo, heapNoSupremum < h := by
    intro h hh
    obtain ⟨r, hr, rfl⟩ := mem_map.mp hh
    exact hok.user r hr
  unfold Leaf.heapNos
  rw [nodup_append, nodup_cons]
  refine ⟨⟨fun h => absurd (huser _ h) (by decide), hok.nodup⟩, by simp, ?_⟩
  intro a ha b hb
  rw [mem_singleton.mp hb]
  rcases mem_cons.mp ha with rfl | ha
  · decide
  · exact Nat.ne_of_gt (huser a ha)

lemma firstAbove_mem_heapNos (k : κ) (p : Leaf κ) : firstAbove k p.recs ∈ p.heapNos := by
  unfold Leaf.heapNos
  rcases firstAbove_cases k p.recs with ⟨r, hr, h⟩ | h
  · rw [h]
    simp only [cons_append, mem_cons, mem_append, mem_map]
    exact .inr (.inl ⟨r, hr, rfl⟩)
  · rw [h]
    simp

lemma coversGap_lockUpdateDiscard {p : Leaf κ} (hne : heir ≠ p.id) (hok : PageOk p.recs)
    (hs : s.SingleBits) (hx : (trxs trx).Inheriting)
    (hc : CoversGap (s p.id) (firstAbove k p.recs) trx mode) :
    CoversGap (lockUpdateDiscard alloc trxs heir heirNo p s heir) heirNo trx mode := by
  unfold lockUpdateDiscard
  rw [if_neg]
  · exact (coversGap_discardLoop hne hs hx hok.nodup_heapNos (firstAbove_mem_heapNos k p)
      hc).freeAllFromDiscardPage hne
  · intro hempty
    rw [isEmpty_iff.mp hempty] at hc
    obtain ⟨r, hr, -⟩ := hc
    cases hr

omit [LinearOrder κ] in
lemma CoversGap.lockUpdateDiscard {p : Leaf κ} (hs : s.SingleBits) (hc : CoversGap (s q) h trx mode)
    (hq : q ≠ p.id) : CoversGap (lockUpdateDiscard alloc trxs heir heirNo p s q) h trx mode := by
  unfold RecLock.lockUpdateDiscard
  split_ifs
  · exact hc
  · exact (hc.discardLoop hs hq _).freeAllFromDiscardPage hq

end

/-! ### Every change -/

def Covered (level : Level κ) (s : Locks) (trx : Nat) (mode : Mode) (k : κ) : Prop :=
  CoversGap (s (level.bound k).1) (level.bound k).2 trx mode

lemma covered_one :
    Covered (.one p) s trx mode k ↔ CoversGap (s p.id) (firstAbove k p.recs) trx mode := Iff.rfl

lemma covered_two :
    Covered (.two l sep r) s trx mode k ↔
      (k < sep → CoversGap (s l.id) (firstAbove k l.recs) trx mode) ∧
        (¬k < sep → CoversGap (s r.id) (firstAbove k r.recs) trx mode) := by
  grind [Covered, Level.bound]

/-- A key position that a request of a transaction covers before a change of the pages is covered
by a request of it in the same mode after the change, if its isolation level is above
`READ COMMITTED`, it is not flagged as not inheriting locks and has no `LOCK_X` on the table. -/
theorem covered_updateLocks (alloc : Alloc) (trxs : Nat → Trx) {c : Change κ} (hc : c.Valid)
    {s : Locks} (hs : s.SingleBits) {trx : Nat} (hx : (trxs trx).Inheriting) (mode : Mode) (k : κ)
    (hk : Covered c.before s trx mode k) :
    Covered c.after (c.updateLocks alloc trxs s) trx mode k := by
  cases c with
  | insert => exact coversGap_insert hc hx hk
  | delete => exact coversGap_delete hc hs hx hk
  | splitRight =>
    obtain ⟨hne, hok, hsep, hlen, hnew⟩ := hc
    exact covered_two.mpr (coversGap_splitRight hne hlen hx hok hsep hnew hs hk)
  | splitLeft =>
    obtain ⟨hne, hok, hsep, hlen, hnew⟩ := hc
    exact covered_two.mpr (coversGap_splitLeft hne hlen hx hok hsep hnew hk)
  | mergeLeft =>
    obtain ⟨hne, hrecs, hmoved, hsep, hlen, hnew⟩ := hc
    obtain ⟨hlt, hge⟩ := covered_two.mp hk
    exact coversGap_mergeLeft hne hlen hx hrecs hmoved hsep hnew hs hlt hge
  | mergeRight =>
    obtain ⟨hne, hmoved, hrecs, hsep, hlen, hnew⟩ := hc
    obtain ⟨hlt, hge⟩ := covered_two.mp hk
    exact coversGap_mergeRight hne hlen hx hmoved hsep hnew hs hlt hge
  | discard left sep =>
    obtain ⟨hne, -, hpage, hsep⟩ := hc
    obtain ⟨hlt, hge⟩ := covered_two.mp hk
    refine covered_one.mpr ?_
    by_cases hks : k < sep
    · exact (hlt hks).lockUpdateDiscard hs hne
    · rw [firstAbove_of_above (hsep.not_lt_left hks)]
      exact coversGap_lockUpdateDiscard hne hpage hs hx (hge hks)
  | discardFirst page sep =>
    obtain ⟨hne, hpage, -, hsep⟩ := hc
    obtain ⟨hlt, hge⟩ := covered_two.mp hk
    refine covered_one.mpr ?_
    by_cases hks : k < sep
    · rw [hsep.firstAbove_right hks]
      exact coversGap_lockUpdateDiscard hne.symm hpage hs hx (hlt hks)
    · exact (hge hks).lockUpdateDiscard hs hne.symm
  | discardOnly =>
    obtain ⟨hne, hpage⟩ := hc
    exact coversGap_lockUpdateDiscard hne.symm hpage hs hx hk

def splitLast : Change Nat := .splitRight 4 5 [⟨10, 2⟩, ⟨20, 3⟩] [⟨30, 4⟩] [2] 30

def nextKeyOnLast : Locks := fun p =>
  if p = 4 then [⟨1, ⟨.S, false, false, false, false⟩, [false, false, false, false, true]⟩] else []

lemma valid_splitLast : splitLast.Valid := by
  refine ⟨by decide, ⟨?_, by decide, by decide⟩, ⟨by decide, by decide⟩, rfl,
    ⟨?_, by decide, by decide⟩⟩
  · simp
  · simp [renumber]

lemma singleBits_nextKeyOnLast : nextKeyOnLast.SingleBits := by
  intro p l hl hw
  unfold nextKeyOnLast at hl
  split_ifs at hl
  · rw [mem_singleton.mp hl] at hw
    cases hw
  · cases hl

def byteAlloc : Alloc := ⟨fun _ _ h => 8 * (h / 8 + 1), fun _ _ h => by omega⟩

/-- After the split the supremum of the left page bounds 25 and transaction 1 has a request on
it. -/
theorem covered_splitLast :
    Covered splitLast.after
      (splitLast.updateLocks byteAlloc (fun _ => ⟨.repeatableRead, false, false, false⟩)
        nextKeyOnLast) 1 .S 25 :=
  covered_updateLocks byteAlloc _ valid_splitLast singleBits_nextKeyOnLast ⟨rfl, rfl, rfl⟩ .S 25
    ⟨⟨1, ⟨.S, false, false, false, false⟩⟩, by decide, rfl, rfl, rfl, rfl⟩

end MariaDB.RecLock
