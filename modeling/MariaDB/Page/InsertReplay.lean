import MariaDB.Page.Inserted

/-!
# Replaying an insert

The replay of the log record of an insert on the before-image of a well-formed page.
It leaves `insertedFrame`, too, with the bytes that the log record stands for: those
that are logged and those that are copied from around the predecessor, as they were
before the insert.
-/
namespace MariaDB.Page

open Library (Frame)
open WellFormed PageEnv Library.Frame List

variable {env : PageEnv} {f : Frame} {comp : Bool} {pageNo : Nat} {d : PageDesc}
  {size extraSize : Nat} {a : Allocation} {cur : Nat}

variable (h : WellFormed env f comp pageNo d)

/-! ## The checks of a well-formed page -/

include h in
lemma WellFormed.applyHeaderCorrupted_eq : env.applyHeaderCorrupted f comp pageNo = false := by
  have hheap := h.nHeap_eq
  have hge := h.n_heap_ge
  have hslots := h.n_slots_le
  have htop := h.heap_top_le_last_slot
  have hlt := h.n_heap_lt
  have hinf := h.slots 0 [pageInfimum comp] (pageInfimum comp) rfl rfl
  have hsup : f.read2 (env.pageDirGetNthSlot ((d.groups comp).length - 1)) = pageSupremum comp := by
    refine h.slots _ (d.last ++ [pageSupremum comp]) _ ?_ (by simp)
    simp [PageDesc.groups, PageDesc.upperGroups]
  simp only [PageDesc.recs, length_cons, length_append, length_nil] at hge
  have hheap' : f.read2 pageNHeap - (if comp then 0x8000 else 0) = pageDirGetNHeap f := by omega
  unfold applyHeaderCorrupted
  rw [decide_eq_false_iff_not]
  simp only [h.n_slots, h.index_page, h.page_no, h.supremum_link, hsup, hinf, hheap',
    Bool.not_true, Bool.false_eq_true, not_true_eq_false, ne_eq, or_false, false_or]
  have := h.heap_top_ge
  simp only [pageHeapNoUserLow, pageDirGetNthSlot, pageDir]
  omega

variable {r hc dc : Nat} {rec : InsertRec comp}

include h in
lemma WellFormed.inHeap_of_upper (hr : r ∈ d.users ++ [pageSupremum comp]) :
    inHeap comp (f.read2 pageHeapTop) r = true := by
  unfold inHeap
  rw [decide_eq_true_iff]
  rcases mem_append.mp hr with hr | hr
  · exact .inr ⟨h.users_ge hr, h.users_le hr⟩
  · exact .inl (mem_singleton.mp hr)

lemma applyFindOwner_eq (hlinks : (seg ++ [owner]).IsChain (Linked f comp))
    (hin : ∀ r ∈ seg ++ [owner], inHeap comp top r = true)
    (hseg : ∀ r ∈ seg, recGetNOwned f comp r = 0) (howner : 0 < recGetNOwned f comp owner)
    (hns : seg.length ≤ ns) :
    applyFindOwner f comp top ns ((seg ++ [owner]).headD 0) = some owner := by
  induction seg generalizing ns with
  | nil =>
    unfold applyFindOwner
    exact if_pos (by change recGetNOwned f comp owner ≠ 0; omega)
  | cons r seg ih =>
    obtain ⟨ns, rfl⟩ := Nat.exists_eq_succ_of_ne_zero (n := ns) (by
      rintro rfl
      simp at hns)
    obtain ⟨⟨-, hnext⟩, hmem⟩ := Linked.headD hlinks
    have hstep : applyFindOwner f comp top (ns + 1) r =
        applyFindOwner f comp top ns ((seg ++ [owner]).headD 0) := by
      rw [applyFindOwner, if_neg (not_not.mpr (hseg r (by simp))), hnext,
        hin _ (mem_cons_of_mem _ hmem), if_neg (by decide)]
    refine hstep.trans ?_
    exact ih hlinks.tail (fun s hs => hin s (mem_cons_of_mem _ hs))
      (fun s hs => hseg s (mem_cons_of_mem _ hs)) (by simpa using hns)

include h in
lemma WellFormed.inHeap_next (hp : Position f comp d cur seg owner slotNo) :
    inHeap comp (f.read2 pageHeapTop) ((seg ++ [owner]).headD 0) = true := by
  refine h.inHeap_of_upper (hp.upper _ ?_)
  cases seg <;> simp

include h in
lemma WellFormed.applyOwnerSlot_eq (hp : Position f comp d cur seg owner slotNo) :
    applyOwnerSlot f comp (f.read2 pageHeapTop)
      (env.pageDirGetNthSlot (f.read2 pageNDirSlots - 1)) (f.read2 pageNDirSlots)
      ((seg ++ [owner]).headD 0) = some (owner, env.pageDirGetNthSlot slotNo) := by
  have hfind := applyFindOwner_eq hp.links.tail (fun r hr => h.inHeap_of_upper (hp.upper r hr))
    (fun r hr => (hp.seg_mem r hr).2.2) hp.n_owned_pos hp.seg_length.le
  have hle := hp.n_owned_le
  unfold applyOwnerSlot
  rw [hfind, Option.bind_some, if_neg (by omega), h.n_slots, h.findSlot_owner hp]
  rfl

/-! ## The end of the replay -/

/-- The result of an insert, with the directory slot split if it owns too many records. -/
def PageEnv.splitResult (env : PageEnv) (nOwned slot : Nat) (f : Frame) : Bool × Frame :=
  if nOwned = pageDirSlotMaxNOwned then
    match env.pageDirSplitSlot f slot with
    | none => (true, f)
    | some f => (false, f)
  else (false, f)

lemma localTo_recSetNOwned (comp : Bool) (r v : Nat) :
    Frame.LocalTo (r - recNExtraBytes comp) (r - recNExtraBytes comp + 1)
      (recSetNOwned · comp r v) := by
  constructor
  · intro g i hi
    exact recSetNOwned_of_ne (by omega)
  · intro g g' hgg i hlo hhi
    have hbyte := hgg (r - recNExtraBytes comp) le_rfl (by omega)
    simp only [recSetNOwned, recSetBitField1, hbyte]
    exact (localTo_write1 _ _).congr g g' hgg i hlo hhi

lemma applyFinish_eq (hs : Space env f comp d size a) (h : WellFormed env f comp pageNo d)
    (hp : Position f comp d cur seg owner slotNo) (nextRec insertRec slot : Nat)
    {bytes : List UInt8} (hbytes : bytes.length = size) :
    env.applyFinish (((a.frame.write2 pageLastInsert insertRec).memcpy a.insertBuf bytes).write2
        (cur - recNext) (linkTo comp cur insertRec)) comp cur nextRec owner slot
        (f.read2 pageLastInsert) =
      env.splitResult (recGetNOwned f comp owner) slot
        (insertedFrame f comp a cur nextRec insertRec owner bytes) := by
  have h1 := h.recs_ge hp.mem
  have h2 := h.recs_ge hp.owner_mem
  have h3 := hs.buf_ge
  have h4 := pageInfimum_lt_pageSupremum comp
  have h5 := recNExtraBytes_ge comp
  have h6 := hs.rec_disjoint h hp.owner_mem
  have h7 := h.fixed_disjoint hp.owner_mem hp.mem hp.owner_ne
  have hown : recGetNOwned (((a.frame.write2 pageLastInsert insertRec).memcpy a.insertBuf
      bytes).write2 (cur - recNext) (linkTo comp cur insertRec)) comp owner =
      recGetNOwned f comp owner := by
    refine recGetNOwned_congr ?_
    rw [write2_of_not_mem (by simp only [recNext]; omega), memcpy_of_not_mem _ _ (by omega),
      write2_of_not_mem (.inr (by simp only [pageLastInsert, pageHeader]; omega)),
      hs.frame_eq, allocFrame_of_ge (by change 94 ≤ _; omega)]
  have hheader := localTo_incNRecs.comp
    (localTo_pageUpdateDirection cur nextRec (f.read2 pageLastInsert))
  have hbody : Frame.LocalTo pageData (pageData + (a.insertBuf + size + cur + owner))
      fun g => recSetNOwned ((g.memcpy a.insertBuf bytes).write2 (cur - recNext)
        (linkTo comp cur insertRec)) comp owner (recGetNOwned f comp owner + 1) := by
    refine ((localTo_recSetNOwned comp owner _).mono ?_ ?_).comp
      (((localTo_write2 _ _).mono ?_ ?_).comp ((localTo_memcpy _ _).mono ?_ ?_))
    all_goals simp only [recNext, pageData, pageHeader]
    all_goals omega
  have hcomm := hheader.comm hbody (.inl le_rfl) (a.frame.write2 pageLastInsert insertRec)
  unfold applyFinish splitResult
  rw [hown]
  simp only [] at hcomm ⊢
  rw [hcomm]
  rfl

/-! ## Taking the space -/

include h in
lemma WellFormed.free_cons {rec : Nat} (hfree : d.free = rec :: recs) :
    f.read2 pageFree = rec ∧ HeapRec env f comp rec ∧ env.recSize f rec ≤ f.read2 pageGarbage ∧
      (f.read2 (rec - recNext) ≠ 0 →
        pageSupremumEnd comp + recNExtraBytes comp + (if comp then 0 else 1) ≤ nextFree f comp rec ∧
        nextFree f comp rec ≤ f.read2 pageHeapTop) := by
  have hlist := h.free_list
  have hgarbage := h.garbage
  rw [hfree] at hlist hgarbage
  rw [map_cons, sum_cons] at hgarbage
  obtain ⟨hrec, hend, hnext⟩ := hlist
  refine ⟨hrec, h.heap rec (by simp [hfree]), by omega, fun hne => ?_⟩
  cases recs with
  | nil => exact absurd (hend rfl) hne
  | cons s =>
    have hs := h.heap s (by simp [hfree])
    have h1 := hs.extra_ge
    have h2 := hs.start_ge
    have h3 := hs.end_le
    rw [hnext.1]
    simp only [recEnd] at h3
    omega

lemma heap_write_comm (f : Frame) (comp : Bool) (size : Nat) :
    (f.write2 pageNHeap (f.read2 pageNHeap + 1)).write2 pageHeapTop
      ((f.write2 pageNHeap (f.read2 pageNHeap + 1)).read2 pageHeapTop + size) =
      allocFrame f comp false size := by
  rw [read2_write2_of_disjoint (by decide), allocFrame, if_neg (by decide),
    write2_comm _ _ _ (by decide)]

lemma WellFormed.applyAllocateComp_eq (h : WellFormed env f true pageNo d)
    (ha : Placed env f true d extraSize size a) {dataSize : Nat}
    (hsize : extraSize + dataSize = size) :
    applyAllocateComp f a.reuse (Redo.encodeShift a.freeOffset) (f.read2 pageHeapTop)
      (env.pageDirGetNthSlot ((d.groups true).length - 1)) extraSize dataSize =
      some (a.frame, a.insertBuf, a.heapNo) := by
  have hs := h.space ha
  have htop := hs.top_le
  have hgroups := h.n_slots_le
  unfold applyAllocateComp
  cases ha with
  | @reuse rec recs hfree hfits =>
    obtain ⟨hrec, hheap, hgarbage, hnext⟩ := h.free_cons hfree
    have hge := hheap.extra_ge
    have hstart := hheap.start_ge
    have hle := hheap.end_le
    have hshift : ∀ s : Int, (if Redo.encodeShift s % 2 = 1 then
        -((Redo.encodeShift s / 2 : Nat) : Int) else (Redo.encodeShift s / 2 : Nat)) = s := by
      intro s
      unfold Redo.encodeShift
      by_cases hneg : s < 0
      · rw [if_pos hneg, Redo.shiftLeft_or (k := 1) _ (by decide), if_pos (by omega)]
        omega
      · rw [if_neg hneg, Nat.shiftLeft_eq, if_neg (by omega)]
        omega
    simp only [recEnd, recSize, recStart, newHeapTop, if_true] at *
    simp only [hrec, hshift]
    have hn : (if f.read2 (rec - recNext) ≠ 0 then (f.read2 (rec - recNext) + rec) % 65536 else 0) =
        nextFree f true rec := by
      simp [nextFree, add_comm rec]
    rw [hn, if_neg]
    · have hheapNo : recGetHeapNo ((f.write2 pageFree (nextFree f true rec)).write2 pageGarbage
          (f.read2 pageGarbage - (extraSize + dataSize))) true rec = recGetHeapNo f true rec := by
        unfold recGetHeapNo recGetBitField2
        rw [read2_write2_of_disjoint, read2_write2_of_disjoint]
        all_goals
          simp only [pageFree, pageGarbage, pageHeader, pageSupremumEnd, pageSupremum, pageData,
            recNExtraBytes, if_true] at *
          omega
      rw [hheapNo, allocFrame, if_pos rfl, hrec, hsize]
      simp only [Option.some.injEq, Prod.mk.injEq, true_and, and_true]
      omega
    · simp only [recNExtraBytes, if_true] at *
      omega
  | heap =>
    simp only [newHeapTop, Bool.false_eq_true, if_false] at *
    rw [if_neg (by simp only [pageDirGetNthSlot, pageDir]; omega), add_assoc, hsize,
      heap_write_comm f true]
    rfl

/-! ## The bytes that the log record stands for -/

def replayedHeader (f : Frame) (cur : Nat) (rec : InsertRec comp) (hc : Nat) :
    List UInt8 :=
  rec.header.take (rec.header.length - hc) ++ f.slice (cur - recNExtraBytes comp - hc) hc

lemma replayedHeader_length
    (h : hc ≤ rec.header.length) : (replayedHeader f cur rec hc).length = rec.header.length := by
  simp only [replayedHeader, length_append, length_take, slice_length]
  omega

lemma header_length (h : hc ≤ rec.header.length) (heapNo link : Nat) :
    (replayedHeader f cur rec hc ++ rec.fixedHeader heapNo link).length = rec.extraSize := by
  rw [length_append, replayedHeader_length h, rec.fixedHeader_length]
  rfl

/-- The record that the replay builds out of a log record with `hc` common header bytes and
`dc` common data bytes. -/
def replayedBytes (f : Frame) (cur : Nat) (rec : InsertRec comp) (heapNo link hc dc : Nat) :
    List UInt8 :=
  replayedHeader f cur rec hc ++
    (rec.fixedHeader heapNo link ++ (f.slice cur dc ++ rec.data.drop dc))

/-- The common bytes are on the page, and the data bytes are not in the way of the copy. -/
structure Copied (cur : Nat) (a : Allocation) (rec : InsertRec comp) (hc dc : Nat) : Prop where
  hdr_le : hc ≤ rec.header.length
  hdr_ge : hc ≠ 0 → pageSupremumEnd comp + recNExtraBytes comp + rec.extraSize ≤ cur
  data_le : dc ≤ rec.data.length
  data : cur + dc ≤ a.insertBuf ∨ a.insertBuf + rec.bytes.length ≤ cur

section

variable (hs : Space env f comp d size a) (hcur : cur ∈ d.recs comp)
include hs h hcur

lemma slice_header_eq (hsize : rec.bytes.length = size) (hcopy : Copied cur a rec hc dc) :
    (a.frame.memcpy a.insertBuf (rec.header.take (rec.header.length - hc))).slice
      (cur - recNExtraBytes comp - hc) hc = f.slice (cur - recNExtraBytes comp - hc) hc := by
  have h1 := hs.rec_disjoint h hcur
  have h2 := hcopy.hdr_le
  have hends := pageInfimum_lt_pageSupremum comp
  rw [rec.bytes_length, InsertRec.extraSize] at hsize
  refine slice_congr fun i hlo hhi => ?_
  have hge := hcopy.hdr_ge (by omega)
  rw [InsertRec.extraSize] at hge
  rw [memcpy_of_not_mem _ _ (by simp only [length_take]; omega), hs.frame_eq,
    allocFrame_of_ge (by change 94 ≤ i; omega)]

lemma slice_data_eq (hcopy : Copied cur a rec hc dc)
    (hhdr : hdr.length = rec.extraSize) (v w : Nat) :
    (((a.frame.memcpy a.insertBuf hdr).write2 pageLastInsert v).write2 (cur - recNext) w).slice
      cur dc = f.slice cur dc := by
  have h1 := hcopy.data
  have h3 := h.recs_ge hcur
  rw [rec.bytes_length] at h1
  refine slice_congr fun i hlo hhi => ?_
  rw [write2_of_not_mem (.inr (by simp only [recNext]; omega)),
    write2_of_not_mem (.inr (by simp only [pageLastInsert, pageHeader]; omega)),
    memcpy_of_not_mem _ _ (by omega), hs.frame_eq,
    allocFrame_of_ge (by change 94 ≤ i; omega)]

lemma memcpy_around_links (g : Frame) {data : List UInt8}
    (hsize : hdr.length + data.length = size) (v w : Nat) :
    (((g.memcpy a.insertBuf hdr).write2 pageLastInsert v).write2 (cur - recNext) w).memcpy
        (a.insertBuf + hdr.length) data =
      ((g.write2 pageLastInsert v).memcpy a.insertBuf (hdr ++ data)).write2 (cur - recNext) w := by
  have h1 := hs.rec_disjoint h hcur
  have h3 := hs.buf_ge
  have h4 := recNExtraBytes_ge comp
  have hends := pageInfimum_lt_pageSupremum comp
  have hlink := (localTo_memcpy (a.insertBuf + hdr.length) data).comm
    (localTo_write2 (cur - recNext) w) (by simp only [recNext]; omega)
  have hlast := (localTo_memcpy a.insertBuf hdr).comm
    (localTo_write2 pageLastInsert v) (.inr
    (by simp only [pageLastInsert, pageHeader]; omega))
  rw [hlink, ← hlast, memcpy_append]

end

lemma read2_lastInsert (hs : Space env f comp d size a) (hdr : List UInt8) :
    (a.frame.memcpy a.insertBuf hdr).read2 pageLastInsert = f.read2 pageLastInsert := by
  have hbuf := hs.buf_ge
  have hends := pageInfimum_lt_pageSupremum comp
  rw [read2_memcpy _ _ (.inl (by simp only [pageLastInsert, pageHeader]; omega)),
    hs.frame_eq, read2_allocFrame (by decide)]

include h in
lemma applyFinish_record (hp : Position f comp d cur seg owner slotNo)
    (hs : Space env f comp d rec.bytes.length a) (hcopy : Copied cur a rec hc dc)
    (hhdr : hdr.length = rec.extraSize) (nextRec slot : Nat) :
    let insertRec := a.insertBuf + rec.extraSize
    let g := ((a.frame.memcpy a.insertBuf hdr).write2 pageLastInsert insertRec).write2
      (cur - recNext) (linkTo comp cur insertRec)
    env.applyFinish ((g.memcpy insertRec (g.slice cur dc)).memcpy (insertRec + dc)
        (rec.data.drop dc)) comp cur nextRec owner slot (f.read2 pageLastInsert) =
      env.splitResult (recGetNOwned f comp owner) slot
        (insertedFrame f comp a cur nextRec insertRec owner
          (hdr ++ (f.slice cur dc ++ rec.data.drop dc))) := by
  have hdc := hcopy.data_le
  have hlen : hdr.length + (f.slice cur dc ++ rec.data.drop dc).length = rec.bytes.length := by
    rw [hhdr, rec.bytes_length, length_append, slice_length, length_drop]
    omega
  dsimp only
  rw [slice_data_eq h hs hp.mem hcopy hhdr, memcpy_append_of_eq _ _ (by simp), ← hhdr,
    memcpy_around_links h hs hp.mem _ hlen]
  exact applyFinish_eq hs h hp nextRec _ slot (by rw [length_append, hlen])

/-! ## COMPACT and DYNAMIC -/

/-- The records that may be inserted on a COMPACT or DYNAMIC page. -/
structure InsertRec.LegalComp (rec : InsertRec true) (f : Frame) : Prop where
  info_lt : rec.infoBits < 64
  status_leaf : pageIsLeaf f = true → rec.status = 0 ∨ rec.status = 4
  status_node : pageIsLeaf f = false → rec.status = 1
  /-- A record has at most 1023 fields. -/
  header_lt : rec.header.length < Redo.min3Byte

lemma applyHeaderComp_eq (hs : Space env f true d size a) (h : WellFormed env f true pageNo d)
    (hcur : cur ∈ d.recs true) {rec : InsertRec true} (hrec : rec.LegalComp f)
    (hsize : rec.bytes.length = size) (hcopy : Copied cur a rec hc dc) (nextRec : Nat)
    (henc8 : enc / 8 = rec.header.length - hc) (henc4 : getBits enc 2 1 = rec.status / 4)
    (henc0 : getBits enc 0 2 * 16 = rec.infoBits) (data : List UInt8) :
    applyHeaderComp a.frame a.insertBuf cur nextRec a.heapNo enc hc
        (rec.header.take (rec.header.length - hc) ++ data) =
      a.frame.memcpy a.insertBuf (replayedHeader f cur rec hc ++
        rec.fixedHeader a.heapNo (linkTo true (a.insertBuf + rec.extraSize) nextRec)) := by
  have h1 := hcopy.hdr_le
  have hbuf := hs.buf_ge
  have hends := pageInfimum_lt_pageSupremum true
  have hlen : (rec.header.take (rec.header.length - hc)).length = rec.header.length - hc := by simp
  have hcommon := slice_header_eq h hs hcur hsize hcopy
  have hextra : rec.extraSize = rec.header.length + 5 := rfl
  have hleaf : pageIsLeaf (a.frame.memcpy a.insertBuf
      (rec.header.take (rec.header.length - hc) ++ f.slice (cur - recNExtraBytes true - hc) hc)) =
      pageIsLeaf f := by
    unfold pageIsLeaf
    rw [read2_memcpy _ _ (.inl (by simp only [pageLevel, pageHeader]; omega)), hs.frame_eq,
      read2_allocFrame (by decide)]
  have hstatus : (if pageIsLeaf f = true then rec.status / 4 * 4 else 1) = rec.status := by
    cases hl : pageIsLeaf f with
    | true => rcases hrec.status_leaf hl with hst | hst <;> simp [hst]
    | false => simp [hrec.status_node hl]
  unfold applyHeaderComp
  simp only [henc8, henc4, henc0]
  rw [show cur - 5 - hc = cur - recNExtraBytes true - hc from rfl, take_left' hlen, hcommon,
    memcpy_append_of_eq _ _ (by rw [hlen]), hleaf, hstatus]
  simp only [write1, write2]
  rw [memcpy_append_of_eq, memcpy_append_of_eq, memcpy_append_of_eq, memcpy_append_of_eq]
  · congr 1
    simp only [replayedHeader, InsertRec.fixedHeader, if_true, append_assoc, cons_append,
      nil_append, linkTo, recNext, hextra]
    congr 8 <;> omega
  all_goals
    simp only [length_append, hlen, slice_length, length_singleton, recNext] <;>
      omega

include h in
lemma WellFormed.infimum_le (hr : r ∈ d.recs comp) : pageInfimum comp ≤ r := by
  have hends := pageInfimum_lt_pageSupremum comp
  rcases mem_recs.mp hr with rfl | hr | rfl
  · exact le_rfl
  · have := h.users_ge hr
    omega
  · omega

lemma mem_users_of_ne (hr : r ∈ d.recs comp) (hsup : r ≠ pageSupremum comp)
    (hne : r - pageInfimum comp ≠ 0) :
    r ∈ d.users := by
  rcases mem_recs.mp hr with rfl | hr | rfl
  · omega
  · exact hr
  · exact absurd rfl hsup

lemma pageApplyInsertDynamic_eq (h : WellFormed env f true pageNo d)
    (hp : Position f true d cur seg owner slotNo) (hsup : cur ≠ pageSupremum true)
    {rec : InsertRec true} (hrec : rec.LegalComp f)
    (ha : Placed env f true d rec.extraSize rec.bytes.length a) (hcopy : Copied cur a rec hc dc)
    (henc : enc = (rec.header.length - hc) * 8 + (rec.status / 4 * 4 + rec.infoBits / 16)) :
    env.pageApplyInsertDynamic pageNo a.reuse (cur - pageInfimum true)
        (Redo.encodeShift a.freeOffset) enc hc dc
        (rec.header.take (rec.header.length - hc) ++ rec.data.drop dc) f =
      env.splitResult (recGetNOwned f true owner) (env.pageDirGetNthSlot slotNo)
        (insertedFrame f true a cur ((seg ++ [owner]).headD 0) (a.insertBuf + rec.extraSize) owner
          (replayedBytes f cur rec a.heapNo
            (linkTo true (a.insertBuf + rec.extraSize) ((seg ++ [owner]).headD 0)) hc dc)) := by
  have hs := h.space ha
  have h1 := hcopy.hdr_le
  have h2 := hcopy.data_le
  have hinf := h.infimum_le hp.mem
  have hlt := h.recs_lt hp.mem
  have hsize := h.size_le
  -- the parts of the encoded header length
  have hinfo := rec.infoBits_mod
  have hinfo64 := hrec.info_lt
  have hstatus : rec.status < 8 := Nat.mod_lt _ (by decide)
  have henc8 : enc / 8 = rec.header.length - hc := by omega
  have henc4 : getBits enc 2 1 = rec.status / 4 := by simp only [getBits]; omega
  have henc0 : getBits enc 0 2 * 16 = rec.infoBits := by simp only [getBits]; omega
  have hinstant : ¬ (decide (rec.status / 4 = 1) = true ∧ (!pageIsLeaf f) = true) := by
    rintro ⟨hst, hleaf⟩
    have := hrec.status_node (by simpa using hleaf)
    simp [this] at hst
  have hprev : (pageInfimum true + (cur - pageInfimum true)) % 65536 = cur := by
    rw [Nat.add_sub_cancel' hinf, Nat.mod_eq_of_lt (by omega)]
  have hprevOk : ¬ (cur - pageInfimum true ≠ 0 ∧
      (pageSupremumEnd true + 5 > cur ∨ cur > f.read2 pageHeapTop)) := by
    rintro ⟨hne, hbad⟩
    have hu := mem_users_of_ne hp.mem hsup hne
    have hge := h.users_ge hu
    have hle := h.users_le hu
    simp only [recNExtraBytes, if_true] at hge
    omega
  have hnext := hp.next_linked.2
  have hlen : (rec.header.take (rec.header.length - hc)).length = rec.header.length - hc := by simp
  have hextra : 5 + hc + (rec.header.length - hc) = rec.extraSize := by
    simp only [InsertRec.extraSize, recNExtraBytes, if_true]
    omega
  have hdata : dc + (rec.header.take (rec.header.length - hc) ++ rec.data.drop dc).length -
      (rec.header.length - hc) = rec.data.length := by
    simp only [length_append, hlen, length_drop]
    omega
  unfold pageApplyInsertDynamic
  simp only [h.applyHeaderCorrupted_eq, henc8, henc4, hprev, hnext, h.inHeap_next hp]
  rw [if_neg (by simp only [length_append, hlen, not_or]
                 exact ⟨by decide, hinstant, by omega⟩), if_neg hprevOk, if_neg (by decide)]
  rw [h.applyOwnerSlot_eq hp]
  simp only [hextra, hdata, h.n_slots, h.applyAllocateComp_eq ha rec.bytes_length.symm]
  rw [applyHeaderComp_eq hs h hp.mem hrec rfl hcopy _ henc8 henc4 henc0]
  rw [read2_lastInsert hs, drop_left' hlen]
  refine (applyFinish_record h hp hs hcopy (header_length h1 _ _) _ _).trans ?_
  simp [replayedBytes]

end MariaDB.Page
