import MariaDB.Page.InsertReplay

/-!
# Splitting the directory slot after an insert

The split follows the links of the page to the record that is to own the first half
of the group. All records that it can reach are those of the page before the insert
and the new one, and the split changes no byte of the new record other than the
number of records it owns.
-/
namespace MariaDB.Page

open Library (Frame)
open WellFormed PageEnv Library.Frame List Option

variable {env : PageEnv} {f : Frame} {comp : Bool} {pageNo : Nat} {d : PageDesc} {a : Allocation}
  {cur : Nat} {seg : List Nat} {owner slotNo : Nat}

/-! ## The slots of the page -/

lemma WellFormed.Position.many_users (h : WellFormed env f comp pageNo d)
    (hp : Position f comp d cur seg owner slotNo)
    (hn : recGetNOwned f comp owner = pageDirSlotMaxNOwned) :
    4 * (d.groups comp).length ≤ d.users.length + 4 := by
  obtain ⟨g, hg, -, hlen⟩ := hp.group
  have hpos := hp.slot_pos
  have h8 : g.length = 8 := by rw [← hlen, hn]; rfl
  have hmem : g ∈ d.upperGroups comp := by
    obtain ⟨i, rfl⟩ := Nat.exists_eq_succ_of_ne_zero (by omega : slotNo ≠ 0)
    exact mem_of_getElem? (by simpa [PageDesc.groups] using hg)
  simp only [PageDesc.groups, PageDesc.upperGroups, PageDesc.users, length_cons,
    length_append, length_nil]
  rcases mem_append.mp hmem with hmid | hlast
  · obtain ⟨l₁, l₂, hsplit⟩ := append_of_mem hmid
    have h1 := four_mul_le_sum (l := l₁) fun g' hg' => h.middle g' (by rw [hsplit]; simp [hg'])
    have h2 := four_mul_le_sum (l := l₂) fun g' hg' => h.middle g' (by rw [hsplit]; simp [hg'])
    rw [hsplit]
    simp only [length_append, length_cons, flatten_append, flatten_cons]
    omega
  · have h1 := four_mul_le_sum h.middle
    rw [mem_singleton.mp hlast, length_append, length_singleton] at h8
    omega

lemma WellFormed.slot_mem (h : WellFormed env f comp pageNo d) (hj : j < (d.groups comp).length) :
    f.read2 (env.pageDirGetNthSlot j) ∈ d.recs comp := by
  rw [← d.flatten_groups]
  exact mem_flatten.mpr ⟨_, getElem_mem hj, h.slot_mem_group hj⟩

/-! ## The links after the insert -/

lemma insertedFrame_of_mem (hs : Space env f comp d size a) (h : WellFormed env f comp pageNo d)
    (hcur : cur ∈ d.recs comp) (howner : owner ∈ d.recs comp) (nextRec insertRec : Nat)
    (hbytes : bytes.length = size) (hlo : a.insertBuf ≤ i) (hhi : i < a.insertBuf + size) :
    insertedFrame f comp a cur nextRec insertRec owner bytes i =
      bytes.getD (i - a.insertBuf) 0 := by
  have h1 := hs.rec_disjoint h hcur
  have h2 := hs.rec_disjoint h howner
  have h3 := h.recs_ge hcur
  have h4 := h.recs_ge howner
  have h5 := recNExtraBytes_ge comp
  rw [insertedFrame, recSetNOwned_of_ne (by omega), linkedFrame,
    write2_of_not_mem (by simp only [recNext]; omega),
    memcpy_of_mem _ _ hlo (by omega)]

lemma linked_of_read2 (hread : g.read2 (r - recNext) = linkTo comp r t % 65536) (hne : r ≠ t)
    (hr : r < 65536) (ht : t < 65536) (hpos : 0 < t) : Linked g comp r t := by
  unfold Linked applyNext
  rw [hread, linkTo]
  cases comp with
  | true =>
    simp only [if_true]
    omega
  | false =>
    simp only [Bool.false_eq_true, if_false]
    omega

lemma insertedFrame_link (hs : Space env f comp d size a) (h : WellFormed env f comp pageNo d)
    (hcur : cur ∈ d.recs comp) (howner : owner ∈ d.recs comp) (nextRec insertRec : Nat)
    (hbytes : bytes.length = size) (hr : r ∈ d.recs comp) (hne : r ≠ cur) :
    (insertedFrame f comp a cur nextRec insertRec owner bytes).read2 (r - recNext) =
      f.read2 (r - recNext) := by
  rw [← linkedFrame_link hs h nextRec insertRec hbytes hcur hr hne]
  have h1 := h.recs_ge hr
  have h3 := recNExtraBytes_ge comp
  have hown : ∀ i, r - recNext ≤ i → i < r → i ≠ owner - recNExtraBytes comp := by
    intro i hlo hhi
    simp only [recNext] at hlo
    by_cases heq : r = owner
    · omega
    · have := h.fixed_disjoint hr howner heq
      omega
  refine read2_congr ?_ ?_
  · exact recSetNOwned_of_ne (hown _ le_rfl (by simp only [recNext]; omega))
  · exact recSetNOwned_of_ne (hown _ (by omega) (by simp only [recNext]; omega))

section

variable {rec : InsertRec comp} {p q : List UInt8}

/-- The page that an insert leaves when the variable-size header of the new record is `p`
and its data is `q`. -/
def pageWith (f : Frame) (a : Allocation) (cur nextRec owner : Nat) (rec : InsertRec comp)
    (p q : List UInt8) : Frame :=
  insertedFrame f comp a cur nextRec (a.insertBuf + rec.extraSize) owner
    (p ++ (rec.fixedHeader a.heapNo (linkTo comp (a.insertBuf + rec.extraSize) nextRec) ++ q))

lemma length_with (hp : p.length = rec.header.length) (hq : q.length = rec.data.length)
    (heapNo link : Nat) : (p ++ (rec.fixedHeader heapNo link ++ q)).length = rec.bytes.length := by
  rw [length_append, length_append, rec.fixedHeader_length, rec.bytes_length, hp, hq,
    InsertRec.extraSize]
  omega

lemma pageWith_of_lt (h : WellFormed env f comp pageNo d)
    (hp : Position f comp d cur seg owner slotNo)
    (ha : Placed env f comp d rec.extraSize rec.bytes.length a) (p q : List UInt8) (nextRec : Nat) :
    ∀ i < pageLastInsert, pageWith f a cur nextRec owner rec p q i = a.frame i := fun _ hi =>
  insertedFrame_of_lt (h.space ha) h hp.mem hp.owner_mem _ _ _ hi

lemma insertedFrame_link_new (hs : Space env f comp d rec.bytes.length a)
    (h : WellFormed env f comp pageNo d) (hcur : cur ∈ d.recs comp) (howner : owner ∈ d.recs comp)
    (nextRec insertRec heapNo link : Nat) (hp : p.length = rec.header.length)
    (hlen : (p ++ (rec.fixedHeader heapNo link ++ q)).length = rec.bytes.length) :
    (insertedFrame f comp a cur nextRec insertRec owner
      (p ++ (rec.fixedHeader heapNo link ++ q))).read2 (a.insertBuf + rec.extraSize - recNext) =
      link % 65536 := by
  obtain ⟨l, hl⟩ : ∃ l, rec.fixedHeader heapNo link =
      l ++ [UInt8.ofNat (link / 256), UInt8.ofNat link] := ⟨_, rfl⟩
  have hlen' := rec.fixedHeader_length heapNo link
  rw [hl, length_append, length_cons, length_singleton] at hlen'
  have hsize := rec.bytes_length
  have hofs : a.insertBuf + rec.extraSize - recNext = a.insertBuf + (p ++ l).length := by
    simp only [InsertRec.extraSize, length_append, recNext]
    omega
  have hin := fun i => insertedFrame_of_mem hs h hcur howner nextRec insertRec hlen (i := i)
  trans (f.memcpy a.insertBuf (p ++ (rec.fixedHeader heapNo link ++ q))).read2
    (a.insertBuf + rec.extraSize - recNext)
  · simp only [InsertRec.extraSize, recNext] at hsize ⊢
    refine read2_congr ?_ ?_
    all_goals
      rw [hin _ (by omega) (by omega), memcpy_of_mem _ _ (by omega) (by rw [hlen]; omega)]
  · have hread := read2_memcpy_append f a.insertBuf (p ++ l) q (UInt8.ofNat (link / 256))
      (UInt8.ofNat link)
    rw [hofs, hl]
    simp only [append_assoc, cons_append, nil_append] at hread ⊢
    rw [hread]
    simp only [UInt8.toNat_ofNat']
    omega

variable (h : WellFormed env f comp pageNo d) (hp : Position f comp d cur seg owner slotNo)
  (ha : Placed env f comp d rec.extraSize rec.bytes.length a)
  (hlen : p.length = rec.header.length) (hdata : q.length = rec.data.length)
include h hp ha hlen hdata

lemma pageRecGetNext_inserted (hr : r = a.insertBuf + rec.extraSize ∨ r ∈ d.recs comp)
    (hnext : env.pageRecGetNext (pageWith f a cur ((seg ++ [owner]).headD 0) owner rec p q) r =
      some s) : s = a.insertBuf + rec.extraSize ∨ s ∈ d.recs comp := by
  have hs := h.space ha
  have hbytes := length_with hlen hdata a.heapNo
  have hlt := pageWith_of_lt h hp ha p q ((seg ++ [owner]).headD 0)
  have hnew : (pageWith f a cur ((seg ++ [owner]).headD 0) owner rec p q).read2 _ = _ :=
    insertedFrame_link_new hs h hp.mem hp.owner_mem _ _ _ _ hlen (hbytes _)
  have hold : ∀ r ∈ d.recs comp, r ≠ cur → (pageWith f a cur ((seg ++ [owner]).headD 0) owner rec
    p q).read2 _ = _ := fun r => insertedFrame_link hs h hp.mem hp.owner_mem _ _ (hbytes _)
  have hcur := h.recs_ge hp.mem
  have hge := recNExtraBytes_ge comp
  have hdisj := hs.rec_disjoint h hp.mem
  have hdisj' := hs.rec_disjoint h hp.next_mem
  have hnext0 := h.recs_ge hp.next_mem
  have hend := hs.end_le
  have htop := hs.top_le
  have hps := h.size_le
  have hcurLt := h.recs_lt hp.mem
  have hnextLt := h.recs_lt hp.next_mem
  have hsize := rec.bytes_length
  have hextra : recNExtraBytes comp ≤ rec.extraSize := Nat.le_add_left _ _
  have hpred : (pageWith f a cur ((seg ++ [owner]).headD 0) owner rec p q).read2 (cur - recNext) =
      linkTo comp cur (a.insertBuf + rec.extraSize) % 65536 := by
    have hfix := h.fixed_disjoint hp.mem hp.owner_mem hp.owner_ne.symm
    rw [pageWith, insertedFrame, read2_congr (g := linkedFrame f comp a cur _ _ _)
      (recSetNOwned_of_ne (by simp only [recNext]; omega))
      (recSetNOwned_of_ne (by simp only [recNext]; omega)), linkedFrame, read2_write2]
  generalize pageWith f a cur _ owner rec p q = F at *
  have hcomp : pageIsComp F = comp := by
    rw [← ha.pageIsComp_eq h, pageIsComp, pageIsComp, hlt _ (by decide)]
  -- what a link that leads on says about `s`
  have hfollow : ∀ t, Linked F comp r t → t < env.srvPageSize → s = t := by
    intro t hlink ht
    have := hlink.recGetNextOffs_eq h.size_dvd ht
    unfold pageRecGetNext at hnext
    simp only [hcomp, this, ite_none_left_eq_some, some.injEq] at hnext
    exact hnext.2.2.symm
  rcases hr with rfl | hr
  · right
    rw [hfollow _ (linked_of_read2 hnew (by omega) (by omega) (by omega) (by omega)) hnextLt]
    exact hp.next_mem
  · by_cases hrc : r = cur
    · left
      subst hrc
      exact hfollow _ (linked_of_read2 hpred (by omega) (by omega) (by omega) (by omega)) (by omega)
    · right
      by_cases hsup : r = pageSupremum comp
      · -- there is no record after the supremum
        subst hsup
        have hzero := (hold _ hr hrc).trans h.supremum_link
        have hpos : 0 < pageSupremum comp := by
          have := pageInfimum_lt_pageSupremum comp
          omega
        unfold pageRecGetNext recGetNextOffs at hnext
        simp only [hcomp, hzero] at hnext
        cases comp <;> simp [hpos] at hnext
      · obtain ⟨seg', owner', i, hp'⟩ := h.exists_position hr hsup
        rw [hfollow _ (hp'.next_linked.congr (hold _ hr hrc)) (h.recs_lt hp'.next_mem)]
        exact hp'.next_mem

lemma pageRecGetNth_inserted (hr : r = a.insertBuf + rec.extraSize ∨ r ∈ d.recs comp)
    (hnth : env.pageRecGetNth (pageWith f a cur ((seg ++ [owner]).headD 0) owner rec p q) n r =
      some s) : s = a.insertBuf + rec.extraSize ∨ s ∈ d.recs comp := by
  induction n generalizing r with
  | zero =>
    cases hnth
    exact hr
  | succ n ih =>
    obtain ⟨t, hnext, hnth⟩ := bind_eq_some_iff.mp hnth
    exact ih (pageRecGetNext_inserted h hp ha hlen hdata hr hnext) hnth

/-! ## The split -/

lemma pageDirSplitSlot_pageWith (hn : recGetNOwned f comp owner = pageDirSlotMaxNOwned)
    (hsplit : env.pageDirSplitSlot (pageWith f a cur ((seg ++ [owner]).headD 0) owner rec p q)
      (env.pageDirGetNthSlot slotNo) = some g) (hlo : a.insertBuf ≤ i)
    (hhi : i < a.insertBuf + rec.bytes.length) (hne : i ≠ a.insertBuf + rec.header.length) :
    g i = pageWith f a cur ((seg ++ [owner]).headD 0) owner rec p q i := by
  have hs := h.space ha
  have hk := hp.slot_pos
  have hk' := hp.slot_lt
  have hroom := hs.slot_room (hp.many_users h hn)
  have hend := hs.end_le
  have hbuf := hs.buf_ge
  have hps := h.size_le
  have hbytes := length_with hlen hdata a.heapNo
  have hlt := pageWith_of_lt h hp ha p q ((seg ++ [owner]).headD 0)
  have hge : ∀ i, newHeapTop f a.reuse rec.bytes.length ≤ i →
      pageWith f a cur ((seg ++ [owner]).headD 0) owner rec p q i = f i := fun i hi =>
    insertedFrame_of_ge_top hs h hp.mem hp.owner_mem _ _ (hbytes _) hi
  have hnth := fun n r s => pageRecGetNth_inserted h hp ha hlen hdata (n := n) (r := r) (s := s)
  generalize pageWith f a cur _ owner rec p q = F at *
  have hcomp : pageIsComp F = comp := by
    rw [← ha.pageIsComp_eq h, pageIsComp, pageIsComp, hlt _ (by decide)]
  have hslots : F.read2 pageNDirSlots = (d.groups comp).length := by
    rw [read2_congr (hlt _ (by decide)) (hlt _ (by decide)), hs.frame_eq,
      read2_allocFrame (by decide), h.n_slots]
  have hdir : ∀ j ≤ (d.groups comp).length, F.read2 (env.pageDirGetNthSlot j) =
      f.read2 (env.pageDirGetNthSlot j) := by
    intro j hj
    simp only [pageDirGetNthSlot, pageDir]
    exact read2_congr (hge _ (by omega)) (hge _ (by omega))
  -- a record of the page or the new one has its number of owned records elsewhere
  have hbyte : ∀ r, r = a.insertBuf + rec.extraSize ∨ r ∈ d.recs comp →
      i ≠ r - recNExtraBytes comp := by
    rintro r (rfl | hr)
    · simp only [InsertRec.extraSize]
      omega
    · have := hs.rec_disjoint h hr
      have := h.recs_ge hr
      have := recNExtraBytes_ge comp
      omega
  unfold pageDirSplitSlot at hsplit
  obtain ⟨r₀, hr₀, hsplit⟩ := bind_eq_some_iff.mp hsplit
  obtain ⟨r, hr, hsplit⟩ := bind_eq_some_iff.mp hsplit
  simp only [ite_none_left_eq_some, some.injEq, hslots] at hsplit
  obtain ⟨-, rfl⟩ := hsplit
  -- the record of the slot below, and the record that is reached from there
  have hr₀' : r₀ ∈ d.recs comp := by
    simp only [pageDirSlotGetRecValidate, ite_none_right_eq_some, some.injEq] at hr₀
    have hbelow : env.pageDirGetNthSlot slotNo + pageDirSlotSize =
        env.pageDirGetNthSlot (slotNo - 1) := by
      simp only [pageDirGetNthSlot, pageDir, pageDirSlotSize]
      omega
    rw [← hr₀.2, hbelow, hdir _ (by omega)]
    exact h.slot_mem (by omega)
  have hr' := hnth _ _ _ (.inr hr₀') hr
  have hrLe : r ≤ newHeapTop f a.reuse rec.bytes.length := by
    have := rec.bytes_length
    rcases hr' with rfl | hr'
    · omega
    · exact (h.recs_le hr').trans (le_newHeapTop f a.reuse _)
  have hends := pageInfimum_lt_pageSupremum comp
  have hextra := recNExtraBytes_ge comp
  have hdirK := (hdir slotNo hk'.le).trans (findSlot_spec (h.findSlot_owner hp)).1
  simp only [pageDirGetNthSlot, pageDir, pageDirSlotSize] at hdirK ⊢
  generalize hslotEq : env.srvPageSize - (8 + 2) - slotNo * 2 = slot at *
  generalize hlastEq : env.srvPageSize - (8 + 2) - (d.groups comp).length * 2 = last at *
  obtain ⟨moved, hmoved⟩ : ∃ g, g = ((F.memmove last (last + 2) (slot - last)).write2 pageNDirSlots
      ((d.groups comp).length + 1)).write2 slot r :=
    ⟨_, rfl⟩
  rw [← hmoved]
  have hi : moved i = F i := by
    have h1 : i < last := by omega
    rw [hmoved, write2_of_not_mem (by omega),
      write2_of_not_mem (.inr (by simp only [pageNDirSlots, pageHeader]; omega)),
      memmove_of_not_mem _ _ (.inl h1)]
  have hcomp' : pageIsComp moved = comp := by
    have h1 : pageNHeap < last := by simp only [pageNHeap, pageHeader]; omega
    rw [← hcomp, pageIsComp, pageIsComp, hmoved, write2_of_not_mem (by omega),
      write2_of_not_mem (.inr (by decide)), memmove_of_not_mem _ _ (.inl h1)]
  have hread : moved.read2 slot = r := by rw [hmoved, read2_write2, Nat.mod_eq_of_lt (by omega)]
  -- the slot above was moved
  have hread' : (recSetNOwned moved comp r ((pageDirSlotMaxNOwned + 1) / 2)).read2 (slot - 2) =
      owner := by
    refine Eq.trans (read2_congr ?_ ?_) hdirK
    all_goals
      rw [recSetNOwned_of_ne (by omega), hmoved, write2_of_not_mem (by omega),
        write2_of_not_mem (.inr (by simp only [pageNDirSlots, pageHeader]; omega)),
        memmove_of_mem _ _ (by omega) (by omega)]
      congr 1
      omega
  rw [hcomp', hread, hread', recSetNOwned_of_ne (hbyte _ (.inr hp.owner_mem)),
    recSetNOwned_of_ne (hbyte _ hr'), hi]

end

end MariaDB.Page
