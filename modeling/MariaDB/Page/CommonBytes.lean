import MariaDB.Page.SplitSlot

/-!
# The bytes that the log record omits

The insert counts the bytes that the new record has in common with the bytes around
its predecessor when the new record is on the page already. The replay copies these
bytes from the page as it was before. `Stable` says that every byte that is counted is
the same on both pages, in terms of the page before the insert.
-/
namespace MariaDB.Page

open Library (Frame)
open WellFormed PageEnv Library.Frame List Option

variable {env : PageEnv} {f g : Frame} {comp : Bool} {pageNo : Nat} {d : PageDesc}
  {a : Allocation} {cur : Nat} {seg : List Nat} {owner slotNo : Nat} {rec : InsertRec comp}

/-! ## Counting -/

variable {i cEnd : Nat} {l : List UInt8}

lemma lt_hdrCommonLoop_iff :
    i < hdrCommonLoop g cStart l c ↔ ∀ j ≤ i, l[j]? = some (g (c - j)) ∧ c - j ≠ cStart := by
  induction l generalizing c i with
  | nil =>
    simp only [hdrCommonLoop, getElem?_nil, reduceCtorEq, false_and]
    exact iff_of_false (by omega) fun h => h 0 (by omega)
  | cons r rs ih =>
    simp only [hdrCommonLoop, ← Nat.lt_succ_iff, Nat.forall_lt_succ_left]
    rcases i with _ | i
    · split_ifs with hr <;> simpa using hr
    · have := @ih i (c - 1)
      split_ifs with hr
      · simp_all [Nat.sub_sub, add_comm 1]
      · simp_all

lemma lt_dataCommonLoop_iff :
    i < dataCommonLoop g cEnd l c ↔ ∀ j ≤ i, l[j]? = some (g (c + j)) ∧ c + j ≠ cEnd := by
  induction l generalizing c i with
  | nil =>
    simp only [dataCommonLoop, getElem?_nil, reduceCtorEq, false_and]
    exact iff_of_false (by omega) fun h => h 0 (by omega)
  | cons r rs ih =>
    simp only [dataCommonLoop, ← Nat.lt_succ_iff, Nat.forall_lt_succ_left]
    rcases i with _ | i
    · split_ifs with hr <;> simpa [and_comm] using hr
    · have := @ih i (c + 1)
      split_ifs with hr
      · simp_all [add_assoc, add_comm 1]
      · simp_all [and_comm]

def HeaderWindow (cur : Nat) (rec : InsertRec comp) (i : Nat) : Prop :=
  pageSupremumEnd comp + recNExtraBytes comp + rec.extraSize ≤ cur ∧ i + 1 < rec.header.length

/-- The first `i + 1` header bytes, from the last one down, are on the page. -/
def HeaderCommon (g : Frame) (cur : Nat) (rec : InsertRec comp) (i : Nat) : Prop :=
  ∀ j ≤ i, rec.header.reverse[j]? = some (g (cur - recNExtraBytes comp - 1 - j))

def DataCommon (g : Frame) (cur : Nat) (rec : InsertRec comp) (i : Nat) : Prop :=
  ∀ j ≤ i, rec.data[j]? = some (g (cur + j))

lemma lt_hdrCommon_iff :
    i < hdrCommon g cur rec ↔ HeaderWindow cur rec i ∧ HeaderCommon g cur rec i := by
  unfold hdrCommon HeaderWindow HeaderCommon
  simp only
  split
  · rename_i hguard
    rw [lt_hdrCommonLoop_iff]
    have hextra : rec.extraSize = rec.header.length + recNExtraBytes comp := rfl
    have hge := recNExtraBytes_ge comp
    constructor
    · intro h
      have hlen : i < rec.header.length := by
        have := (List.getElem?_eq_some_iff.mp (h i le_rfl).1).1
        simpa using this
      refine ⟨⟨by omega, ?_⟩, fun j hj => by simpa [Nat.sub_sub] using (h j hj).1⟩
      by_contra hlast
      exact (h i le_rfl).2 (by omega)
    · rintro ⟨⟨-, hlen⟩, h⟩ j hj
      exact ⟨by simpa [Nat.sub_sub] using h j hj, by omega⟩
  · rename_i hguard
    refine iff_of_false (by omega) ?_
    rintro ⟨⟨hge, hlen⟩, -⟩
    refine hguard ⟨fun _ => ?_, by omega⟩
    rw [InsertRec.extraSize]
    omega

lemma lt_dataCommonLoop_iff_dataCommon (hle : cur ≤ cEnd) :
    i < dataCommonLoop g cEnd rec.data cur ↔ cur + i < cEnd ∧ DataCommon g cur rec i := by
  rw [lt_dataCommonLoop_iff]
  unfold DataCommon
  constructor
  · intro h
    refine ⟨?_, fun j hj => (h j hj).1⟩
    by_contra hlt
    exact (h (cEnd - cur) (by omega)).2 (by omega)
  · rintro ⟨hlt, h⟩ j hj
    exact ⟨h j hj, by omega⟩

/-- The bytes that are common when the record is on the page `g` are the bytes of the
page `f`. -/
structure Stable (f g : Frame) (cur cEnd : Nat) (rec : InsertRec comp) : Prop where
  header : ∀ i, HeaderWindow cur rec i → HeaderCommon g cur rec i →
    f (cur - recNExtraBytes comp - 1 - i) = g (cur - recNExtraBytes comp - 1 - i)
  data : ∀ i, cur + i < cEnd → DataCommon g cur rec i → f (cur + i) = g (cur + i)

/-! ## The record that is replayed -/

lemma drop_eq_slice_iff (hn : n ≤ l.length) (hp : n ≤ p) :
    f.slice (p - n) n = l.drop (l.length - n) ↔ ∀ i < n, l.reverse[i]? = some (f (p - 1 - i)) := by
  constructor
  · intro h i hi
    have hget := congrArg (fun l => l[n - 1 - i]?) h
    simp only [slice, getElem?_map, getElem?_drop] at hget
    rw [getElem?_range (by omega), map_some] at hget
    rw [getElem?_reverse (by omega), show p - 1 - i = p - n + (n - 1 - i) by omega, hget]
    congr 1
    omega
  · intro h
    refine ext_getElem? fun k => ?_
    by_cases hk : k < n
    · have := h (n - 1 - k) (by omega)
      rw [getElem?_reverse (by omega)] at this
      simp only [slice, getElem?_map, getElem?_drop]
      rw [getElem?_range hk, map_some,
        show l.length - n + k = l.length - 1 - (n - 1 - k) by omega, this]
      congr 2
      omega
    · rw [getElem?_eq_none (by simp; omega), getElem?_eq_none (by simp; omega)]

lemma take_eq_slice_iff : f.slice p n = l.take n ↔ ∀ i < n, l[i]? = some (f (p + i)) := by
  constructor
  · intro h i hi
    have hget := congrArg (fun l => l[i]?) h
    simp only [slice, getElem?_map] at hget
    rw [getElem?_range hi, map_some, getElem?_take_of_lt hi] at hget
    exact hget.symm
  · intro h
    refine ext_getElem? fun k => ?_
    by_cases hk : k < n
    · simp only [slice, getElem?_map]
      rw [getElem?_range hk, map_some, getElem?_take_of_lt hk, h k hk]
    · rw [getElem?_eq_none (by simp; omega), getElem?_eq_none (by simp; omega)]

lemma hdrCommon_le : hdrCommon g cur rec ≤ rec.header.length := by
  by_contra hlt
  have := (lt_hdrCommon_iff.mp (not_le.mp hlt)).1.2
  omega

lemma dataCommonLoop_le (g : Frame) (rec : InsertRec comp) (hle : cur ≤ cEnd) :
    dataCommonLoop g cEnd rec.data cur ≤ rec.data.length ∧
      cur + dataCommonLoop g cEnd rec.data cur ≤ cEnd := by
  rcases Nat.eq_zero_or_pos (dataCommonLoop g cEnd rec.data cur) with h0 | hpos
  · omega
  · obtain ⟨hlt, hcommon⟩ := (lt_dataCommonLoop_iff_dataCommon hle).mp (Nat.sub_one_lt_of_lt hpos)
    have := (List.getElem?_eq_some_iff.mp (hcommon _ le_rfl)).1
    omega

variable (h : WellFormed env f comp pageNo d) (hp : Position f comp d cur seg owner slotNo)

include h hp in
/-- The end of the data that may be common is not in front of the record, and not inside
of the new record. -/
lemma WellFormed.dataCommonEnd_bounds (n buf : Nat) :
    cur ≤ env.dataCommonEnd comp cur n buf owner (f.read2 pageNDirSlots) ∧
      (cur ≤ buf → env.dataCommonEnd comp cur n buf owner (f.read2 pageNDirSlots) ≤ buf) := by
  have hfix := h.fixed_disjoint hp.mem hp.owner_mem hp.owner_ne.symm
  have hlt := h.recs_le hp.mem
  have htop := h.heap_top_le_last_slot
  have hn := h.n_slots
  unfold dataCommonEnd
  simp only [pageDir, pageDirSlotSize]
  generalize hend : (if pageRecIsInfimum cur = true ∧ n > 8 then cur + 8 else cur + n) = cEnd
  have hge : cur ≤ cEnd := by
    rw [← hend]
    split_ifs <;> omega
  split_ifs <;> omega

lemma copied_of_common (h : WellFormed env f comp pageNo d)
    (hp : Position f comp d cur seg owner slotNo) (hs : Space env f comp d rec.bytes.length a) :
    Copied cur a rec (hdrCommon g cur rec)
      (dataCommonLoop g (env.dataCommonEnd comp cur rec.data.length a.insertBuf owner
        (f.read2 pageNDirSlots)) rec.data cur) := by
  obtain ⟨hge, hle⟩ := h.dataCommonEnd_bounds hp rec.data.length a.insertBuf
  have hdata := dataCommonLoop_le g rec hge
  have hdisj := hs.rec_disjoint h hp.mem
  refine ⟨hdrCommon_le, fun hne => ?_, hdata.1, by omega⟩
  exact (lt_hdrCommon_iff.mp (Nat.pos_of_ne_zero hne)).1.1

lemma forall_common_iff {window common : Nat → Prop} {x y : Nat → UInt8}
    (hn : ∀ i, i < n ↔ window i ∧ common i) (hy : ∀ i, common i → l[i]? = some (y i)) :
    (∀ i < n, l[i]? = some (x i)) ↔ ∀ i, window i → common i → x i = y i := by
  grind

lemma replayedHeader_eq_iff {hc : Nat} (hhc : hc = hdrCommon g cur rec) :
    replayedHeader f cur rec hc = rec.header ↔
      ∀ i, HeaderWindow cur rec i → HeaderCommon g cur rec i →
        f (cur - recNExtraBytes comp - 1 - i) = g (cur - recNExtraBytes comp - 1 - i) := by
  have hle : hc ≤ rec.header.length := by rw [hhc]; exact hdrCommon_le
  have hcur : hc ≤ cur - recNExtraBytes comp := by
    by_cases h0 : hc = 0
    · omega
    · have := (lt_hdrCommon_iff.mp (by omega : 0 < hdrCommon g cur rec)).1.1
      rw [InsertRec.extraSize] at this
      omega
  have hsplit : replayedHeader f cur rec hc = rec.header ↔
      f.slice (cur - recNExtraBytes comp - hc) hc = rec.header.drop (rec.header.length - hc) := by
    rw [replayedHeader]
    nth_rewrite 3 [← take_append_drop (rec.header.length - hc) rec.header]
    rw [append_cancel_left_eq]
  rw [hsplit, drop_eq_slice_iff hle hcur]
  exact forall_common_iff (fun i => hhc ▸ lt_hdrCommon_iff) fun i h => h i le_rfl

lemma replayedData_eq_iff {dc : Nat} (hle : cur ≤ cEnd)
    (hdc : dc = dataCommonLoop g cEnd rec.data cur) :
    f.slice cur dc ++ rec.data.drop dc = rec.data ↔
      ∀ i, cur + i < cEnd → DataCommon g cur rec i → f (cur + i) = g (cur + i) := by
  have hsplit : f.slice cur dc ++ rec.data.drop dc = rec.data ↔
      f.slice cur dc = rec.data.take dc := by
    nth_rewrite 2 [← take_append_drop dc rec.data]
    rw [append_cancel_right_eq]
  rw [hsplit, take_eq_slice_iff]
  exact forall_common_iff (fun i => hdc ▸ lt_dataCommonLoop_iff_dataCommon hle)
    fun i h => h i le_rfl

/-! ## The page before the insert -/

def insertImage (f : Frame) (a : Allocation) (owner : Nat) (rec : InsertRec comp) (nextRec : Nat) :
    Frame :=
  recSetNOwned (f.memcpy a.insertBuf
      (rec.stored a.heapNo (linkTo comp (a.insertBuf + rec.extraSize) nextRec))) comp owner
    (recGetNOwned f comp owner + 1)

include h hp in
lemma pageWith_eq_insertImage (ha : Placed env f comp d rec.extraSize rec.bytes.length a)
    (nextRec : Nat) (hi : pageData ≤ i) (hcur : i < cur - recNext ∨ cur ≤ i) :
    pageWith f a cur nextRec owner rec rec.header rec.data i =
      insertImage f a owner rec nextRec i := by
  have hs := h.space ha
  have hge := h.recs_ge hp.mem
  have hbytes : ∀ bytes j, pageData ≤ j → j < cur - recNext ∨ cur ≤ j →
      linkedFrame f comp a cur nextRec (a.insertBuf + rec.extraSize) bytes j =
      f.memcpy a.insertBuf bytes j := by
    intro bytes j hj hcur
    rw [linkedFrame, write2_of_not_mem (by simp only [recNext] at *; omega)]
    by_cases hin : a.insertBuf ≤ j ∧ j < a.insertBuf + bytes.length
    · rw [memcpy_of_mem _ _ hin.1 hin.2, memcpy_of_mem _ _ hin.1 hin.2]
    · rw [memcpy_of_not_mem _ _ (by omega), memcpy_of_not_mem _ _ (by omega),
        (localTo_headerFrame _ _ _ _).unchanged _ _ (.inr hj), hs.frame_eq,
        allocFrame_of_ge hj]
  change recSetNOwned _ comp owner _ i = recSetNOwned _ comp owner _ i
  have hlocal := (localTo_recSetNOwned comp owner (recGetNOwned f comp owner + 1)).congr
  by_cases hown : i = owner - recNExtraBytes comp
  · subst hown
    refine hlocal _ _ (fun j hlo hhi => ?_) _ le_rfl (by omega)
    obtain rfl : j = owner - recNExtraBytes comp := by omega
    exact hbytes _ _ hi hcur
  · rw [recSetNOwned_of_ne hown, recSetNOwned_of_ne hown]
    exact hbytes _ i hi hcur

lemma Stable.of_eq (h : Stable f g cur cEnd rec) (hhdr : ∀ i, HeaderWindow cur rec i →
      g (cur - recNExtraBytes comp - 1 - i) = g' (cur - recNExtraBytes comp - 1 - i))
    (hdata : ∀ i, g (cur + i) = g' (cur + i)) : Stable f g' cur cEnd rec := by
  constructor
  · intro i hw hcommon
    rw [← hhdr i hw]
    refine h.header i hw fun j hj => ?_
    rw [hhdr j ⟨hw.1, by have := hw.2; omega⟩]
    exact hcommon j hj
  · intro i hlt hcommon
    rw [← hdata i]
    refine h.data i hlt fun j hj => ?_
    rw [hdata j]
    exact hcommon j hj

include h hp in
lemma stable_pageWith_iff (ha : Placed env f comp d rec.extraSize rec.bytes.length a)
    (nextRec cEnd : Nat) :
    Stable f (pageWith f a cur nextRec owner rec rec.header rec.data) cur cEnd rec ↔
      Stable f (insertImage f a owner rec nextRec) cur cEnd rec := by
  have hge := h.recs_ge hp.mem
  have hends := pageInfimum_lt_pageSupremum comp
  have hhdr : ∀ i, HeaderWindow cur rec i →
      pageWith f a cur nextRec owner rec rec.header rec.data (cur - recNExtraBytes comp - 1 - i) =
        insertImage f a owner rec nextRec (cur - recNExtraBytes comp - 1 - i) := by
    rintro i ⟨hw, hi⟩
    rw [InsertRec.extraSize] at hw
    refine pageWith_eq_insertImage h hp ha nextRec ?_ (.inl ?_)
    · change 94 ≤ _
      omega
    · have := recNExtraBytes_ge comp
      simp only [recNext]
      omega
  have hdata : ∀ i, pageWith f a cur nextRec owner rec rec.header rec.data (cur + i) =
      insertImage f a owner rec nextRec (cur + i) := fun i =>
    pageWith_eq_insertImage h hp ha nextRec (by change 94 ≤ _; omega) (.inr (by omega))
  exact ⟨fun hst => hst.of_eq hhdr hdata,
    fun hst => hst.of_eq (fun i hw => (hhdr i hw).symm) fun i => (hdata i).symm⟩

end MariaDB.Page
