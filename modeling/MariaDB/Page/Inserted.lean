import MariaDB.Page.WellFormed

/-!
# What an insert leaves on the page

The runtime insert and its replay write the same page header, the same links and the
same owner, in a different order. `insertedFrame` is the page that both leave when the
bytes of the new record are given; `pageCurInsertRecLow_eq` says what the runtime
insert does in these terms.
-/
namespace MariaDB.Page

open Library (Frame)
open PageEnv Library.Frame InsertRec List Option UInt8 Nat

/-! ## Space for the record -/

def allocFrame (f : Frame) (comp reuse : Bool) (size : Nat) : Frame :=
  if reuse then
    (f.write2 pageFree (nextFree f comp (f.read2 pageFree))).write2 pageGarbage
      (f.read2 pageGarbage - size)
  else
    (f.write2 pageHeapTop (f.read2 pageHeapTop + size)).write2 pageNHeap (f.read2 pageNHeap + 1)

/-- Where a record may be placed: over the head of the free list, or on top of the heap
with enough space for the directory. -/
inductive Placed (env : PageEnv) (f : Frame) (comp : Bool) (d : PageDesc) (extraSize size : Nat) :
    Allocation → Prop
  | reuse {rec : Nat} {recs : List Nat} (hfree : d.free = rec :: recs)
      (hsize : size ≤ env.recSize f rec) :
      Placed env f comp d extraSize size ⟨allocFrame f comp true size, env.recStart f rec,
        recGetHeapNo f comp rec, true, (extraSize : Int) - (env.recGetOffsets f rec).1⟩
  | heap (hroom : f.read2 pageHeapTop + size +
        pageDirCalcReservedSpace (pageDirGetNHeap f - 1) +
        (pageDir + 2 * pageDirSlotSize) ≤ env.srvPageSize)
      (hheap : pageDirGetNHeap f < 8191) :
      Placed env f comp d extraSize size ⟨allocFrame f comp false size, f.read2 pageHeapTop,
        pageDirGetNHeap f, false, 0⟩

section

variable {env : PageEnv} {f : Frame} {comp : Bool} {pageNo : Nat} {d : PageDesc}
  {extraSize size : Nat} {a : Allocation}

variable (h : WellFormed env f comp pageNo d)
include h

lemma WellFormed.nHeap_eq : f.read2 pageNHeap = pageDirGetNHeap f + if comp then 0x8000 else 0 := by
  have hcomp := h.comp_eq
  have hlo := toNat_lt (f (pageNHeap + 1))
  have hhi := toNat_lt (f pageNHeap)
  simp only [pageDirGetNHeap, pageIsComp, read2] at hcomp ⊢
  cases comp with
  | true =>
    have := decide_eq_true_iff.mp hcomp
    simp only [if_true]
    omega
  | false =>
    have := decide_eq_false_iff_not.mp hcomp
    simp only [Bool.false_eq_true, if_false]
    omega

omit h in
lemma heap_room (hsize : 0 < size) (hneed : size ≤ env.pageGetMaxInsertSize f 1) :
    f.read2 pageHeapTop + size + pageDirCalcReservedSpace (pageDirGetNHeap f - 1) +
      (pageDir + 2 * pageDirSlotSize) ≤ env.srvPageSize := by
  grind [pageGetFreeSpaceOfEmpty, pageGetMaxInsertSize]

lemma WellFormed.pageMemAllocHeap_placed (hsize : 0 < size)
    (ha : env.pageMemAllocHeap f size = some a) : Placed env f comp d extraSize size a := by
  have hlt := h.n_heap_lt
  have hdiv : env.srvPageSize / recNExtraBytes comp ≤ 65536 / 5 :=
    Nat.div_le_div h.size_le (recNExtraBytes_ge comp) (by decide)
  have hheap := h.nHeap_eq
  unfold pageMemAllocHeap at ha
  simp only [ite_none_left_eq_some] at ha
  obtain ⟨hneed, hbits, ha⟩ := ha
  rw [some.injEq] at ha
  subst ha
  refine .heap (heap_room hsize (by omega)) ?_
  have hbits : (f.read2 pageNHeap + 1) / 8192 % 4 = 0 := by simpa [getBits] using hbits
  cases comp <;> simp only [Bool.false_eq_true, if_false, if_true] at hheap <;> omega

lemma WellFormed.allocate_placed (hsize : 0 < size) (ha : env.allocate f extraSize size = some a) :
    Placed env f comp d extraSize size a := by
  have hlist := h.free_list
  have hgarbage := h.garbage
  unfold allocate at ha
  by_cases hfree : f.read2 pageFree = 0
  · rw [if_pos hfree] at ha
    exact h.pageMemAllocHeap_placed hsize ha
  · rw [if_neg hfree] at ha
    cases hd : d.free with
    | nil =>
      rw [hd] at hlist
      exact absurd hlist hfree
    | cons rec =>
      rw [hd] at hlist hgarbage
      rw [map_cons, sum_cons] at hgarbage
      obtain ⟨hrec, -⟩ := hlist
      rw [hrec] at ha
      dsimp only at ha
      split at ha
      · exact h.pageMemAllocHeap_placed hsize ha
      · rename_i hsmall
        have hsmall : size ≤ env.recSize f rec := not_lt.mp hsmall
        rw [some.injEq] at ha
        subst ha
        convert Placed.reuse hd hsmall using 2
        · simp only [allocFrame, if_true, hrec, h.comp_eq]
          rw [read2_write2_of_disjoint (by decide)]
          refine write2_congr _ _ ?_
          omega
        · rfl
        · rw [h.comp_eq]

def newHeapTop (f : Frame) (reuse : Bool) (size : Nat) : Nat :=
  if reuse then f.read2 pageHeapTop else f.read2 pageHeapTop + size

structure Space (env : PageEnv) (f : Frame) (comp : Bool) (d : PageDesc) (size : Nat)
    (a : Allocation) : Prop where
  frame_eq : a.frame = allocFrame f comp a.reuse size
  heap_no_lt : a.heapNo < 8192
  buf_ge : pageSupremumEnd comp ≤ a.insertBuf
  users : ∀ r ∈ d.users, env.recEnd f r ≤ a.insertBuf ∨ a.insertBuf + size ≤ env.recStart f r
  end_le : a.insertBuf + size ≤ newHeapTop f a.reuse size
  top_le : newHeapTop f a.reuse size + 2 * (d.groups comp).length + 8 ≤ env.srvPageSize
  /-- There is room for one more slot when there are enough records for it. -/
  slot_room : 4 * (d.groups comp).length ≤ d.users.length + 4 →
    newHeapTop f a.reuse size + 2 * (d.groups comp).length + 10 ≤ env.srvPageSize

lemma WellFormed.space (ha : Placed env f comp d extraSize size a) : Space env f comp d size a := by
  have htop := h.heap_top_ge
  have hn := h.n_heap_ge
  have hslots := h.n_slots_le
  simp only [PageDesc.recs, length_cons, length_append, length_nil] at hn
  cases ha with
  | @reuse rec recs hfree hsize =>
    have hmem : rec ∈ d.users ++ d.free := by simp [hfree]
    have hrec := h.heap rec hmem
    have hle := h.heap_top_le_last_slot
    have hres := h.heap_top_le
    have := hrec.start_ge
    have hend := hrec.end_le
    have hnodup := (nodup_append.mp h.heap_nodup).2.2
    refine ⟨rfl, ?_, ?_, ?_, ?_, hle, ?_⟩
    · exact mod_lt _ (by decide)
    · simp only [recStart]
      omega
    · intro r hr
      have hne : r ≠ rec := hnodup r hr rec (by simp [hfree])
      have hdisj := h.disjoint_of_ne (mem_append_left _ hr) hmem hne
      simp only [recSize, recEnd, recStart] at hsize hdisj ⊢
      omega
    · simp only [newHeapTop, if_true, recSize, recEnd, recStart] at *
      omega
    · intro hmany
      simp only [newHeapTop, if_true, pageDirCalcReservedSpace, pageDirSlotSize,
        pageDirSlotMinNOwned, pageDir] at *
      omega
  | heap hroom =>
    simp only [pageDirCalcReservedSpace, pageDirSlotSize, pageDirSlotMinNOwned, pageDir] at hroom
    refine ⟨rfl, by simp only; omega, htop, ?_, le_rfl, ?_, ?_⟩
    · intro r hr
      exact .inl (h.heap r (mem_append_left _ hr)).end_le
    · simp only [newHeapTop, Bool.false_eq_true, if_false]
      omega
    · intro hmany
      simp only [newHeapTop, Bool.false_eq_true, if_false]
      omega

end

/-! ## The bytes of the new record -/

namespace InsertRec

variable {comp : Bool} (rec : InsertRec comp)

def nFields : Nat := recGetNFieldsOld rec.frame rec.extraSize

def isShort : Bool := recGet1byteOffsFlag rec.frame rec.extraSize

variable (heapNo link : Nat)

def fixedHeader : List UInt8 :=
  UInt8.ofNat rec.infoBits ::
    (if comp then [UInt8.ofNat (heapNo / 32), UInt8.ofNat (heapNo % 32 * 8 + rec.status)]
      else [UInt8.ofNat ((heapNo * 8 + rec.nFields / 128) / 256),
        UInt8.ofNat (heapNo * 8 + rec.nFields / 128),
        UInt8.ofNat (rec.nFields % 128 * 2 + rec.isShort.toNat)]) ++
    [UInt8.ofNat (link / 256), UInt8.ofNat link]

def stored : List UInt8 :=
  rec.header ++ (rec.fixedHeader heapNo link ++ rec.data)

lemma infoBits_mod : rec.infoBits % 16 = 0 := by simp [infoBits]

lemma nFields_lt : rec.nFields < 1024 := Nat.mod_lt _ (by decide)

lemma fixedHeader_length :
    (rec.fixedHeader heapNo link).length = recNExtraBytes comp := by
  cases comp <;> rfl

lemma bytes_length : rec.bytes.length = rec.extraSize + rec.data.length := by
  simp only [bytes, extraSize, length_append, rec.fixed_length]

lemma stored_length : (rec.stored heapNo link).length = rec.bytes.length := by
  simp only [stored, bytes_length, extraSize, length_append, fixedHeader_length]
  omega

end InsertRec

/-- The link from the predecessor to the new record, and from there to its successor. -/
def linkTo (comp : Bool) (rec next : Nat) : Nat := if comp then next + 65536 - rec else next

attribute [local simp] recNExtraBytes bytes

lemma InsertRec.frame_fixed (rec : InsertRec comp) (h : rec.fixed = p ++ b :: q) :
    rec.frame (rec.header.length + p.length) = b := by
  have hbytes : rec.bytes = (rec.header ++ p) ++ b :: (q ++ rec.data) := by simp [h]
  have := memcpy_append_cons zeros 0 (rec.header ++ p) (q ++ rec.data) b
  rw [zero_add, length_append] at this
  rw [frame, hbytes, this]

lemma recSetHeapNo_recSetNOwned (g : Frame) (rec : InsertRec comp) (buf heapNo : Nat)
    (hfixed : rec.fixed = b0 :: b1 :: b2 :: q) :
    recSetHeapNo (recSetNOwned (g.memcpy buf rec.bytes) comp (buf + rec.extraSize) 0) comp
        (buf + rec.extraSize) heapNo =
      g.memcpy buf ((rec.header ++ [UInt8.ofNat rec.infoBits,
        UInt8.ofNat (setBits (b1.toNat * 256 + b2.toNat) 3 13 heapNo / 256),
        UInt8.ofNat (setBits (b1.toNat * 256 + b2.toNat) 3 13 heapNo)]) ++ (q ++ rec.data)) := by
  have h0 := toNat_lt b0
  have hinfo : rec.infoBits = setBits b0.toNat 0 4 0 := by
    rw [infoBits, extraSize, Nat.add_sub_cancel,
      show rec.frame rec.header.length = b0 from rec.frame_fixed (p := []) hfixed]
    simp [getBits, setBits]
    omega
  have e1 (x : UInt8) : buf + rec.extraSize - (if comp then 4 else 5) =
      buf + (rec.header ++ [x]).length := by
    cases comp <;> simp [extraSize] <;> omega
  have hbytes : rec.bytes = rec.header ++ b0 :: (b1 :: b2 :: (q ++ rec.data)) := by simp [hfixed]
  have hown : recSetNOwned (g.memcpy buf rec.bytes) comp (buf + rec.extraSize) 0 =
      g.memcpy buf ((rec.header ++ [UInt8.ofNat rec.infoBits]) ++ b1 :: b2 :: (q ++ rec.data)) := by
    rw [recSetNOwned, recSetBitField1, extraSize, ← add_assoc, Nat.add_sub_cancel,
      hbytes, memcpy_append_cons, write1_memcpy_append, hinfo]
    simp
  rw [hown, recSetHeapNo, recSetBitField2, e1 (UInt8.ofNat rec.infoBits),
    read2_memcpy_append, write2_memcpy_append]
  simp

lemma linkInserted_comp (g : Frame) (rec : InsertRec true) (cur next buf heapNo : Nat) :
    linkInserted (g.memcpy buf rec.bytes) true cur next (buf + rec.extraSize) heapNo =
      (g.memcpy buf (rec.stored heapNo (linkTo true (buf + rec.extraSize) next))).write2 (cur - 2)
        (linkTo true cur (buf + rec.extraSize)) := by
  obtain ⟨b0, b1, b2, b3, b4, hfixed⟩ : ∃ b0 b1 b2 b3 b4, rec.fixed = [b0, b1, b2, b3, b4] := by
    match hrec : rec.fixed, rec.fixed_length with
    | [b0, b1, b2, b3, b4], _ => exact ⟨b0, b1, b2, b3, b4, rfl⟩
  have h1 := toNat_lt b1
  have h2 := toNat_lt b2
  have hstatus : rec.status = b2.toNat % 8 := by
    have := rec.frame_fixed (p := [b0, b1]) hfixed
    simp only [status, extraSize, recNExtraBytes, if_true, getBits]
    simpa using congrArg (fun b => b.toNat % 8) this
  have e2 (x y z : UInt8) : buf + rec.extraSize - 2 = buf + (rec.header ++ [x, y, z]).length := by
    simp [extraSize]; omega
  have hval : setBits (b1.toNat * 256 + b2.toNat) 3 13 heapNo = heapNo * 8 + rec.status := by
    simp only [setBits, hstatus]
    omega
  have hhi : (heapNo * 8 + rec.status) / 256 = heapNo / 32 := by omega
  have hlo : UInt8.ofNat (heapNo * 8 + rec.status) =
      UInt8.ofNat (heapNo % 32 * 8 + rec.status) := by
    rw [← UInt8.toNat_inj, UInt8.toNat_ofNat', UInt8.toNat_ofNat']
    omega
  simp only [linkInserted, recSetHeapNo_recSetNOwned g rec buf heapNo hfixed, hval, hhi, hlo,
    if_true, recNext, cons_append, nil_append]
  rw [e2, write2_memcpy_append]
  simp [stored, fixedHeader, linkTo]

lemma linkInserted_old (g : Frame) (rec : InsertRec false) {cur next buf : Nat} (heapNo : Nat)
    (hnext : g.read2 (cur - 2) = next)
    (hdisj : cur - 2 + 2 ≤ buf ∨ buf + rec.bytes.length ≤ cur - 2) :
    linkInserted (g.memcpy buf rec.bytes) false cur next (buf + rec.extraSize) heapNo =
      (g.memcpy buf (rec.stored heapNo (linkTo false (buf + rec.extraSize) next))).write2 (cur - 2)
        (linkTo false cur (buf + rec.extraSize)) := by
  obtain ⟨b0, b1, b2, b3, b4, b5, hfixed⟩ :
      ∃ b0 b1 b2 b3 b4 b5, rec.fixed = [b0, b1, b2, b3, b4, b5] := by
    match hrec : rec.fixed, rec.fixed_length with
    | [b0, b1, b2, b3, b4, b5], _ => exact ⟨b0, b1, b2, b3, b4, b5, rfl⟩
  have h1 := toNat_lt b1
  have h2 := toNat_lt b2
  have h3 := toNat_lt b3
  have f3 : rec.frame (rec.extraSize - 3) = b3 := by
    simpa [extraSize] using rec.frame_fixed (p := [b0, b1, b2]) hfixed
  have f4 : rec.frame (rec.extraSize - 4) = b2 := by
    simpa [extraSize] using rec.frame_fixed (p := [b0, b1]) hfixed
  have hshort : rec.isShort.toNat = b3.toNat % 2 := by
    simp only [isShort, recGet1byteOffsFlag, getBits, f3]
    rcases mod_two_eq_zero_or_one b3.toNat with h | h <;> simp [h]
  have hfields : rec.nFields = (b2.toNat * 256 + b3.toNat) / 2 % 1024 := by
    have e : rec.extraSize - 4 + 1 = rec.extraSize - 3 := by simp [extraSize]
    simp [nFields, recGetNFieldsOld, recGetBitField2, read2, getBits, e, f3, f4]
  have e2 (x y z w : UInt8) :
      buf + rec.extraSize - 2 = buf + (rec.header ++ [x, y, z] ++ [w]).length := by
    simp [extraSize]; omega
  have hbytes : rec.bytes = rec.header ++ b0 :: (b1 :: b2 :: b3 :: b4 :: b5 :: rec.data) := by
    simp [hfixed]
  have hb3 : UInt8.ofNat (rec.nFields % 128 * 2 + rec.isShort.toNat) = b3 := by
    rw [← UInt8.toNat_inj, UInt8.toNat_ofNat', hfields, hshort]
    omega
  have hval : setBits (b1.toNat * 256 + b2.toNat) 3 13 heapNo = heapNo * 8 + rec.nFields / 128 := by
    simp only [setBits, hfields]
    omega
  simp only [linkInserted, recSetHeapNo_recSetNOwned g rec buf heapNo hfixed, hval,
    Bool.false_eq_true, if_false, recNext, cons_append, nil_append]
  rw [← write2_read2, read2_memcpy, hnext, append_cons _ b3, e2, write2_memcpy_append]
  · simp [stored, fixedHeader, linkTo, hb3]
  · rw [hbytes] at hdisj
    simpa using hdisj

/-! ## The page header -/

def headerFrame (f : Frame) (cur nextRec insertRec lastInsert : Nat) : Frame :=
  let f := pageUpdateDirection (f.write2 pageLastInsert insertRec) cur nextRec lastInsert
  f.write2 pageNRecs (f.read2 pageNRecs + 1)

lemma localTo_pageUpdateDirection (cur nextRec lastInsert : Nat) :
    Frame.LocalTo 24 pageData (pageUpdateDirection · cur nextRec lastInsert) := by
  have hop (v w : Nat) : Frame.LocalTo 24 pageData
      fun f => (f.write1 pageDirectionB v).write2 pageNDirection w :=
    ((localTo_write2 _ w).mono (by decide) (by decide)).comp
      ((localTo_write1 _ v).mono (by decide) (by decide))
  constructor
  · intro f i hi
    unfold pageUpdateDirection
    split_ifs
    · rfl
    all_goals exact (hop _ _).unchanged f i hi
  · intro f g hfg i hlo hhi
    have htype : f (filPageType + 1) = g (filPageType + 1) := hfg _ (by decide) (by decide)
    have hdir : f pageDirectionB = g pageDirectionB := hfg _ (by decide) (by decide)
    have hn : f.read2 pageNDirection = g.read2 pageNDirection :=
      read2_congr (hfg _ (by decide) (by decide)) (hfg _ (by decide) (by decide))
    unfold pageUpdateDirection
    simp only [htype, hdir, hn]
    split_ifs
    · exact hfg i hlo hhi
    all_goals exact (hop _ _).congr f g hfg i hlo hhi

lemma localTo_incNRecs :
    Frame.LocalTo 24 pageData fun f => f.write2 pageNRecs (f.read2 pageNRecs + 1) := by
  have hop (v : Nat) : Frame.LocalTo 24 pageData (·.write2 pageNRecs v) :=
    (localTo_write2 _ v).mono (by decide) (by decide)
  constructor
  · intro f i hi
    exact (hop _).unchanged f i hi
  · intro f g hfg i hlo hhi
    have hn : f.read2 pageNRecs = g.read2 pageNRecs :=
      read2_congr (hfg _ (by decide) (by decide)) (hfg _ (by decide) (by decide))
    simp only [hn]
    exact (hop _).congr f g hfg i hlo hhi

lemma localTo_headerFrame (cur nextRec insertRec lastInsert : Nat) :
    Frame.LocalTo 24 pageData (headerFrame · cur nextRec insertRec lastInsert) :=
  localTo_incNRecs.comp ((localTo_pageUpdateDirection cur nextRec lastInsert).comp
    ((localTo_write2 _ _).mono (by decide) (by decide)))

/-- The fields in front of `PAGE_LAST_INSERT` are not among them. -/
lemma headerFrame_of_lt (f : Frame) (cur nextRec insertRec lastInsert : Nat)
    (hi : i < pageLastInsert) : headerFrame f cur nextRec insertRec lastInsert i = f i := by
  have hi : i < 48 := hi
  have hdir : ∀ g : Frame, pageUpdateDirection g cur nextRec lastInsert i = g i := by
    intro g
    unfold pageUpdateDirection
    dsimp only
    split_ifs
    · rfl
    all_goals
      rw [write2_of_not_mem (.inl (by simp only [pageNDirection, pageHeader]; omega)),
        write1_of_ne _ _ (by simp only [pageDirectionB, pageHeader]; omega)]
  unfold headerFrame
  rw [write2_of_not_mem (.inl (by simp only [pageNRecs, pageHeader]; omega)), hdir]
  exact write2_of_not_mem (.inl hi)

lemma allocFrame_of_ge {f : Frame} {comp reuse : Bool} {size i : Nat} (hi : pageData ≤ i) :
    allocFrame f comp reuse size i = f i := by
  have : 94 ≤ i := hi
  unfold allocFrame
  split_ifs
  all_goals
    rw [write2_of_not_mem (.inr (by simp only [pageGarbage, pageNHeap, pageHeader]; omega)),
      write2_of_not_mem (.inr (by simp only [pageFree, pageHeapTop, pageHeader]; omega))]

/-! ## The records of the page -/

def linkedFrame (f : Frame) (comp : Bool) (a : Allocation) (cur nextRec insertRec : Nat)
    (bytes : List UInt8) : Frame :=
  ((headerFrame a.frame cur nextRec insertRec (f.read2 pageLastInsert)).memcpy a.insertBuf
    bytes).write2 (cur - recNext) (linkTo comp cur insertRec)

def insertedFrame (f : Frame) (comp : Bool) (a : Allocation) (cur nextRec insertRec ownerRec : Nat)
    (bytes : List UInt8) : Frame :=
  recSetNOwned (linkedFrame f comp a cur nextRec insertRec bytes) comp ownerRec
    (recGetNOwned f comp ownerRec + 1)

section

open WellFormed

variable {env : PageEnv} {f : Frame} {comp : Bool} {pageNo : Nat} {d : PageDesc}
  {size : Nat} {a : Allocation} {cur : Nat} {seg : List Nat} {owner slotNo : Nat}

variable {r i s rec n : Nat} {bytes : List UInt8}

variable (hs : Space env f comp d size a) (h : WellFormed env f comp pageNo d)

include hs h in
lemma Space.rec_disjoint (hr : r ∈ d.recs comp) :
    r ≤ a.insertBuf ∨ a.insertBuf + size + recNExtraBytes comp ≤ r := by
  have hends := pageInfimum_lt_pageSupremum comp
  have hbuf := hs.buf_ge
  rcases mem_recs.mp hr with rfl | hr | rfl
  · omega
  · have hheap := h.heap r (mem_append_left _ hr)
    have := hs.users r hr
    have := hheap.extra_ge
    simp only [recEnd, recStart] at *
    omega
  · omega

lemma linkedFrame_of_ge (hs : Space env f comp d size a) (nextRec insertRec : Nat)
    (hbytes : bytes.length = size) (hi : pageData ≤ i)
    (hbuf : i < a.insertBuf ∨ a.insertBuf + size ≤ i)
    (hcur : i < cur - recNext ∨ cur - recNext + 2 ≤ i) :
    linkedFrame f comp a cur nextRec insertRec bytes i = f i := by
  rw [linkedFrame, write2_of_not_mem hcur, memcpy_of_not_mem _ _ (by omega),
    (localTo_headerFrame _ _ _ _).unchanged _ _ (.inr hi), hs.frame_eq, allocFrame_of_ge hi]

include hs h in
lemma linkedFrame_rec (nextRec insertRec : Nat) (hbytes : bytes.length = size)
    (hcur : cur ∈ d.recs comp)
    (hr : r ∈ d.recs comp) (hne : r ≠ cur) (hlo : r - recNExtraBytes comp ≤ i) (hhi : i < r) :
    linkedFrame f comp a cur nextRec insertRec bytes i = f i := by
  have hge := h.recs_ge hr
  have := hs.rec_disjoint h hr
  have := h.fixed_disjoint hr hcur hne
  have := recNExtraBytes_ge comp
  refine linkedFrame_of_ge hs _ _ hbytes (by change 94 ≤ i; omega) (by omega) ?_
  simp only [recNext]
  omega

lemma recGetNOwned_congr (h : f (r - recNExtraBytes comp) = g (r - recNExtraBytes comp)) :
    recGetNOwned f comp r = recGetNOwned g comp r := by
  rw [recGetNOwned, recGetNOwned, h]

section

variable (nextRec insertRec : Nat) (hbytes : bytes.length = size) (hcur : cur ∈ d.recs comp)
  (hr : r ∈ d.recs comp) (hne : r ≠ cur)
include hs h nextRec insertRec hbytes hcur hr hne

lemma linkedFrame_nOwned :
    recGetNOwned (linkedFrame f comp a cur nextRec insertRec bytes) comp r =
      recGetNOwned f comp r := by
  have := h.recs_ge hr
  have := recNExtraBytes_ge comp
  exact recGetNOwned_congr (linkedFrame_rec hs h _ _ hbytes hcur hr hne le_rfl (by omega))

lemma linkedFrame_link :
    (linkedFrame f comp a cur nextRec insertRec bytes).read2 (r - recNext) =
      f.read2 (r - recNext) := by
  have := h.recs_ge hr
  have := recNExtraBytes_ge comp
  refine read2_congr ?_ ?_
  all_goals
    refine linkedFrame_rec hs h _ _ hbytes hcur hr hne ?_ ?_ <;> simp only [recNext] <;> omega

end

/-! ## The owner of the place -/

lemma Linked.recGetNextOffs_eq (hlink : Linked f comp r s)
    (hdvd : env.srvPageSize ∣ 65536) (hs : s < env.srvPageSize) :
    recGetNextOffs env.srvPageSize f comp r = s := by
  obtain ⟨hne, hnext⟩ := hlink
  grind [mod_mod_of_dvd, mod_eq_of_lt, recGetNextOffs, applyNext]

lemma Linked.congr {f : Frame} (hlink : Linked f comp r s)
    (h : g.read2 (r - recNext) = f.read2 (r - recNext)) : Linked g comp r s := by
  unfold Linked applyNext at *
  rwa [h]

lemma Linked.headD (hlinks : (r :: (seg ++ [owner])).IsChain (Linked g comp)) :
    Linked g comp r ((seg ++ [owner]).headD 0) ∧ (seg ++ [owner]).headD 0 ∈ seg ++ [owner] := by
  cases seg <;> exact ⟨(isChain_cons_cons.mp hlinks).1, by simp⟩

lemma findOwner_eq (hdvd : env.srvPageSize ∣ 65536)
    (hlinks : (seg ++ [owner]).IsChain (Linked g comp))
    (hlt : ∀ r ∈ seg ++ [owner], r < env.srvPageSize) (hseg : ∀ r ∈ seg, recGetNOwned g comp r = 0)
    (howner : 0 < recGetNOwned g comp owner) (hfuel : seg.length < fuel) :
    env.findOwner g comp fuel ((seg ++ [owner]).headD 0) = some owner := by
  induction seg generalizing fuel with
  | nil =>
    obtain ⟨fuel, rfl⟩ := exists_eq_succ_of_ne_zero (by omega : fuel ≠ 0)
    exact if_pos (by change recGetNOwned g comp owner ≠ 0; omega)
  | cons r seg ih =>
    obtain ⟨fuel, rfl⟩ := exists_eq_succ_of_ne_zero (by omega : fuel ≠ 0)
    have hstep : env.findOwner g comp (fuel + 1) r =
        env.findOwner g comp fuel (recGetNextOffs env.srvPageSize g comp r) :=
      if_neg (not_not.mpr (hseg r (by simp)))
    obtain ⟨hlink, hmem⟩ := Linked.headD hlinks
    refine hstep.trans ?_
    rw [hlink.recGetNextOffs_eq hdvd (hlt _ (mem_cons_of_mem _ hmem))]
    exact ih hlinks.tail (fun s hs => hlt s (mem_cons_of_mem _ hs))
      (fun s hs => hseg s (mem_cons_of_mem _ hs)) (by simpa using hfuel)

/-! ## The slot of the owner -/

lemma exists_findSlot (slot : Nat) (hj : j < n) (hread : g.read2 (slot + 2 * j) = rec) :
    ∃ j', j' < n ∧ findSlot g rec n slot = some (slot + 2 * j') := by
  induction n generalizing slot j with
  | zero => omega
  | succ n ih =>
    by_cases hslot : g.read2 slot = rec
    · exact ⟨0, by omega, if_pos hslot⟩
    · obtain ⟨j, rfl⟩ := exists_eq_succ_of_ne_zero (n := j) (by rintro rfl; exact hslot hread)
      obtain ⟨j', hj', hfind⟩ := ih (j := j) (slot + 2) (by omega) (by rw [← hread]; congr 1; omega)
      refine ⟨j' + 1, by omega, (if_neg hslot).trans (hfind.trans ?_)⟩
      congr 1
      omega

lemma findSlot_succ (h : findSlot g rec n slot = some s) :
    findSlot g rec (n + 1) slot = some s := by
  induction n generalizing slot <;> grind [findSlot]

lemma findSlot_congr (g' : Frame) (h : ∀ j < n, g.read2 (slot + 2 * j) = g'.read2 (slot + 2 * j)) :
    findSlot g rec n slot = findSlot g' rec n slot := by
  induction n generalizing slot with
  | zero => rfl
  | succ n ih =>
    have h0 := h 0 (by omega)
    rw [Nat.mul_zero, Nat.add_zero] at h0
    rw [findSlot, findSlot, h0, ih]
    intro j hj
    have := h (j + 1) (by omega)
    rwa [show slot + 2 * (j + 1) = slot + 2 + 2 * j by omega] at this

lemma findSlot_spec (h : findSlot g rec n slot = some s) :
    g.read2 s = rec ∧ ∃ j < n, s = slot + 2 * j := by
  induction n generalizing slot with
  | zero => exact absurd h (by simp [findSlot])
  | succ n ih =>
    by_cases hslot : g.read2 slot = rec
    · rw [findSlot, if_pos hslot] at h
      obtain rfl := some.inj h
      exact ⟨hslot, 0, by omega, rfl⟩
    · rw [findSlot, if_neg hslot] at h
      obtain ⟨hread, j, hj, rfl⟩ := ih h
      exact ⟨hread, j + 1, by omega, by omega⟩

lemma PageDesc.flatten_groups (d : PageDesc) (comp : Bool) :
    (d.groups comp).flatten = d.recs comp := by
  rw [PageDesc.groups, flatten_cons, d.flatten_upperGroups]
  rfl

section

include h

lemma WellFormed.groups_ne_nil {g : List Nat} (hg : g ∈ d.groups comp) : g ≠ [] := by
  rintro rfl
  simp only [PageDesc.groups, PageDesc.upperGroups, mem_cons, mem_append,
    not_mem_nil, or_false] at hg
  rcases hg with hg | hg | hg
  · simp at hg
  · exact absurd (h.middle _ hg) (by decide)
  · simp at hg

lemma WellFormed.slot_mem_group {k : Nat}
    (hk : k < (d.groups comp).length) : f.read2 (env.pageDirGetNthSlot k) ∈ (d.groups comp)[k] := by
  have hne := h.groups_ne_nil (getElem_mem hk)
  rw [h.slots k _ _ (getElem?_eq_getElem hk) (getLast?_eq_some_getLast hne)]
  exact getLast_mem hne

lemma WellFormed.slot_inj (hi : i < (d.groups comp).length) (hj : j < (d.groups comp).length)
    (heq : f.read2 (env.pageDirGetNthSlot i) = f.read2 (env.pageDirGetNthSlot j)) : i = j := by
  have hnodup := h.recs_nodup
  rw [← d.flatten_groups, nodup_flatten, pairwise_iff_getElem] at hnodup
  by_contra hne
  rcases Nat.lt_or_gt_of_ne hne with hlt | hlt
  · refine hnodup.2 i j hi hj hlt (h.slot_mem_group hi) ?_
    rw [heq]
    exact h.slot_mem_group hj
  · refine hnodup.2 j i hj hi hlt (h.slot_mem_group hj) ?_
    rw [← heq]
    exact h.slot_mem_group hi

lemma WellFormed.findSlot_eq (hk : k < (d.groups comp).length) (hn : n ≤ (d.groups comp).length)
    (hfind : findSlot f (f.read2 (env.pageDirGetNthSlot k)) n
      (env.pageDirGetNthSlot ((d.groups comp).length - 1)) = some s) :
    s = env.pageDirGetNthSlot k := by
  have htop := h.heap_top_le_last_slot
  obtain ⟨hread, j, hj, rfl⟩ := findSlot_spec hfind
  have hslot : env.pageDirGetNthSlot ((d.groups comp).length - 1) + 2 * j =
      env.pageDirGetNthSlot ((d.groups comp).length - 1 - j) := by
    simp only [pageDirGetNthSlot, pageDir]
    omega
  rw [hslot] at hread ⊢
  rw [h.slot_inj (by omega) hk hread]

lemma WellFormed.findSlot_some (hpos : 0 < k) (hk : k < (d.groups comp).length) :
    findSlot f (f.read2 (env.pageDirGetNthSlot k)) ((d.groups comp).length - 1)
      (env.pageDirGetNthSlot ((d.groups comp).length - 1)) = some (env.pageDirGetNthSlot k) := by
  have htop := h.heap_top_le_last_slot
  have hslot : env.pageDirGetNthSlot ((d.groups comp).length - 1) +
      2 * ((d.groups comp).length - 1 - k) = env.pageDirGetNthSlot k := by
    simp only [pageDirGetNthSlot, pageDir]
    omega
  obtain ⟨j, -, hfind⟩ := exists_findSlot (n := (d.groups comp).length - 1) _ (by omega)
    (congrArg f.read2 hslot)
  rw [hfind, h.findSlot_eq hk (by omega) hfind]

lemma WellFormed.findSlot_owner
    (hp : Position f comp d cur seg owner slotNo) :
    findSlot f owner ((d.groups comp).length - 1)
      (env.pageDirGetNthSlot ((d.groups comp).length - 1)) =
        some (env.pageDirGetNthSlot slotNo) := by
  obtain ⟨g, hg, hlast, -⟩ := hp.group
  rw [← h.slots slotNo g owner hg hlast]
  exact h.findSlot_some hp.slot_pos hp.slot_lt

end

/-! ## The runtime insert -/

lemma recSetNOwned_of_ne (hi : i ≠ r - recNExtraBytes comp) : recSetNOwned g comp r v i = g i :=
  g.write1_of_ne _ hi

lemma recGetNOwned_recSetNOwned (g : Frame) (r : Nat) (hv : v < 16) :
    recGetNOwned (recSetNOwned g comp r v) comp r = v := by
  rw [recGetNOwned, recSetNOwned, recSetBitField1, write1_self, UInt8.toNat_ofNat']
  simp only [getBits, setBits]
  omega

include hs h in
lemma insertedFrame_of_lt (hcur : cur ∈ d.recs comp) (howner : owner ∈ d.recs comp)
    (nextRec insertRec : Nat) (bytes : List UInt8) (hi : i < pageLastInsert) :
    insertedFrame f comp a cur nextRec insertRec owner bytes i = a.frame i := by
  have hi' : i < 48 := hi
  have h1 := h.recs_ge hcur
  have h2 := h.recs_ge howner
  have h3 := hs.buf_ge
  have h4 := pageInfimum_lt_pageSupremum comp
  rw [insertedFrame, recSetNOwned_of_ne (by omega), linkedFrame,
    write2_of_not_mem (.inl (by simp only [recNext]; omega)),
    memcpy_of_not_mem _ _ (.inl (by omega))]
  exact headerFrame_of_lt _ _ _ _ _ hi

lemma read2_allocFrame {reuse : Bool} (hr : r + 2 ≤ pageHeapTop ∨ pageLastInsert ≤ r) :
    (allocFrame f comp reuse size).read2 r = f.read2 r := by
  simp only [pageHeapTop, pageLastInsert, pageHeader] at hr
  unfold allocFrame
  split_ifs
  all_goals
    rw [read2_write2_of_disjoint, read2_write2_of_disjoint] <;>
      simp only [pageFree, pageGarbage, pageHeapTop, pageNHeap, pageHeader] <;> omega

lemma pageIsComp_iff (g : Frame) : pageIsComp g = decide (0x8000 ≤ g.read2 pageNHeap) := by
  have := toNat_lt (g (pageNHeap + 1))
  unfold pageIsComp read2
  rw [decide_eq_decide]
  omega

lemma Placed.pageIsComp_eq {extraSize : Nat} (ha : Placed env f comp d extraSize size a)
    (h : WellFormed env f comp pageNo d) : pageIsComp a.frame = comp := by
  rw [← h.comp_eq]
  have hn := h.nHeap_eq
  cases ha with
  | reuse =>
    rw [pageIsComp_iff, pageIsComp_iff]
    simp only [allocFrame, if_true]
    rw [read2_write2_of_disjoint (by decide), read2_write2_of_disjoint (by decide)]
  | heap =>
    rw [pageIsComp_iff, pageIsComp_iff]
    simp only [allocFrame, Bool.false_eq_true, if_false, read2_write2, decide_eq_decide]
    cases comp <;> simp only [Bool.false_eq_true, if_false, if_true] at hn <;> omega

lemma le_newHeapTop (f : Frame) (reuse : Bool) (size : Nat) :
    f.read2 pageHeapTop ≤ newHeapTop f reuse size := by
  unfold newHeapTop
  split_ifs <;> omega

include hs h in
lemma insertedFrame_of_ge_top (hcur : cur ∈ d.recs comp) (howner : owner ∈ d.recs comp)
    (nextRec insertRec : Nat) (hbytes : bytes.length = size) (hi : newHeapTop f a.reuse size ≤ i) :
    insertedFrame f comp a cur nextRec insertRec owner bytes i = f i := by
  have h1 := h.recs_le hcur
  have h2 := h.recs_le howner
  have h3 := hs.end_le
  have h4 := h.recs_ge howner
  have h5 := recNExtraBytes_ge comp
  have htop := le_newHeapTop f a.reuse size
  rw [insertedFrame, recSetNOwned_of_ne (by omega)]
  refine linkedFrame_of_ge hs _ _ hbytes ?_ (by omega) ?_
  · change 94 ≤ i
    omega
  · simp only [recNext]
    omega

lemma InsertRec.bytes_length_pos (rec : InsertRec comp) : 0 < rec.bytes.length := by
  have := recNExtraBytes_ge comp
  rw [rec.bytes_length, extraSize]
  omega

lemma WellFormed.recs_lt (h : WellFormed env f comp pageNo d) (hr : r ∈ d.recs comp) :
    r < env.srvPageSize := by
  have := h.recs_le hr
  have := h.heap_top_le
  simp only [pageDir] at this
  omega

lemma WellFormed.Position.next_linked (hp : Position f comp d cur seg owner slotNo) :
    Linked f comp cur ((seg ++ [owner]).headD 0) :=
  (Linked.headD hp.links).1

lemma WellFormed.Position.next_mem (hp : Position f comp d cur seg owner slotNo) :
    (seg ++ [owner]).headD 0 ∈ d.recs comp := by
  cases seg with
  | nil => exact hp.owner_mem
  | cons r => exact (hp.seg_mem r (by simp)).1

section

variable (hp : Position f comp d cur seg owner slotNo)
include hs h hp

lemma linkInserted_eq (rec : InsertRec comp) (hsize : rec.bytes.length = size) :
    let nextRec := (seg ++ [owner]).headD 0
    let insertRec := a.insertBuf + rec.extraSize
    linkInserted
        ((headerFrame a.frame cur nextRec insertRec (f.read2 pageLastInsert)).memcpy a.insertBuf
          rec.bytes) comp cur nextRec insertRec a.heapNo =
      linkedFrame f comp a cur nextRec insertRec
        (rec.stored a.heapNo (linkTo comp insertRec nextRec)) := by
  have hcur := h.recs_ge hp.mem
  have hne := recNExtraBytes_ge comp
  have hdisj := hs.rec_disjoint h hp.mem
  have hnext := hp.next_linked.2
  cases comp with
  | true => exact linkInserted_comp _ rec cur _ a.insertBuf a.heapNo
  | false =>
    refine linkInserted_old _ rec a.heapNo ?_ (by omega)
    rw [← hnext, applyNext, if_neg (by decide), recNext]
    refine read2_congr ?_ ?_
    all_goals
      rw [(localTo_headerFrame _ _ _ _).unchanged _ _ (.inr (by change 94 ≤ _; omega)),
        hs.frame_eq, allocFrame_of_ge (by change 94 ≤ _; omega)]

lemma findOwner_linkedFrame (nextRec insertRec : Nat) (hbytes : bytes.length = size) :
    env.findOwner (linkedFrame f comp a cur nextRec insertRec bytes) comp env.srvPageSize
      ((seg ++ [owner]).headD 0) = some owner := by
  have hmem : ∀ r ∈ seg ++ [owner], r ∈ d.recs comp ∧ r ≠ cur := by
    intro r hr
    rcases mem_append.mp hr with hr | hr
    · exact ⟨(hp.seg_mem r hr).1, (hp.seg_mem r hr).2.1⟩
    · rw [mem_singleton.mp hr]
      exact ⟨hp.owner_mem, hp.owner_ne⟩
  refine findOwner_eq h.size_dvd ?_ (fun r hr => h.recs_lt (hmem r hr).1) ?_ ?_ ?_
  · refine (isChain_iff_forall_rel_of_append_cons_cons).mpr fun r s l₁ l₂ hsplit => ?_
    have hlinks := (isChain_iff_forall_rel_of_append_cons_cons).mp hp.links.tail
    have hr := hmem r (by rw [hsplit]; simp)
    exact (hlinks hsplit).congr (linkedFrame_link hs h _ _ hbytes hp.mem hr.1 hr.2)
  · intro r hr
    rw [linkedFrame_nOwned hs h _ _ hbytes hp.mem (hp.seg_mem r hr).1 (hp.seg_mem r hr).2.1]
    exact (hp.seg_mem r hr).2.2
  · rw [linkedFrame_nOwned hs h _ _ hbytes hp.mem hp.owner_mem hp.owner_ne]
    exact hp.n_owned_pos
  · have := hp.seg_length
    have := h.size_ge
    simp only [pageDirSlotMaxNOwned] at *
    omega

lemma pageDirFindOwnerSlot_inserted (nextRec insertRec : Nat) (hbytes : bytes.length = size)
    (hcomp : pageIsComp a.frame = comp) :
    env.pageDirFindOwnerSlot (insertedFrame f comp a cur nextRec insertRec owner bytes) owner =
      some slotNo := by
  have hk := hp.slot_lt
  have hpos := hp.n_owned_le
  have htop := hs.top_le
  have hlt := fun i hi => insertedFrame_of_lt hs h hp.mem hp.owner_mem nextRec insertRec bytes
    (i := i) hi
  have hge := fun i hi => insertedFrame_of_ge_top hs h hp.mem hp.owner_mem nextRec insertRec hbytes
    (i := i) hi
  generalize hF : insertedFrame _ _ _ _ _ _ _ _ = F at *
  have hcompF : pageIsComp F = comp := by rw [← hcomp, pageIsComp, pageIsComp, hlt _ (by decide)]
  have hslots : F.read2 pageNDirSlots = (d.groups comp).length := by
    rw [read2_congr (hlt _ (by decide)) (hlt _ (by decide)), hs.frame_eq,
      read2_allocFrame (by decide), h.n_slots]
  have hown : recGetNOwned F comp owner = recGetNOwned f comp owner + 1 := by
    simp only [pageDirSlotMaxNOwned] at hpos
    rw [← hF, insertedFrame, recGetNOwned_recSetNOwned _ _ (by omega)]
  have hbelow : env.findOwnerBelow F (env.pageDirGetNthSlot ((d.groups comp).length - 1))
      env.srvPageSize owner = some owner := by
    obtain ⟨n, hn⟩ := exists_eq_succ_of_ne_zero (by omega : env.srvPageSize ≠ 0)
    rw [hn]
    exact if_pos (by rw [hcompF, hown]; omega)
  have hfind : findSlot F owner (d.groups comp).length
      (env.pageDirGetNthSlot ((d.groups comp).length - 1)) =
        some (env.pageDirGetNthSlot slotNo) := by
    rw [findSlot_congr f, show (d.groups comp).length = (d.groups comp).length - 1 + 1 by
      omega]
    · exact findSlot_succ (h.findSlot_owner hp)
    · intro j hj
      refine read2_congr (hge _ ?_) (hge _ ?_)
      all_goals
        simp only [pageDirGetNthSlot, pageDir]
        omega
  unfold pageDirFindOwnerSlot
  simp only [hslots, hbelow, bind_some, hfind, map_some, some.injEq]
  simp only [pageDirGetNthSlot, pageDir, pageDirSlotSize]
  omega

end

lemma pageCurInsertRecLow_eq (h : WellFormed env f comp pageNo d)
    (hp : Position f comp d cur seg owner slotNo) (rec : InsertRec comp)
    (ha : env.allocate f rec.extraSize rec.bytes.length = some a) :
    env.pageCurInsertRecLow f cur rec =
      let nextRec := (seg ++ [owner]).headD 0
      let insertRec := a.insertBuf + rec.extraSize
      let g := insertedFrame f comp a cur nextRec insertRec owner
        (rec.stored a.heapNo (linkTo comp insertRec nextRec))
      if recGetNOwned f comp owner = pageDirSlotMaxNOwned then
        (env.pageDirSplitSlot g (env.pageDirGetNthSlot slotNo)).map
          (·, env.insertLog g cur rec a owner)
      else some (g, env.insertLog g cur rec a owner) := by
  have hplaced := h.allocate_placed rec.bytes_length_pos ha
  have hs := h.space hplaced
  have hcur := h.recs_ge hp.mem
  have hne := recNExtraBytes_ge comp
  have hframe : ∀ i, pageData ≤ i → a.frame i = f i := by
    intro i hi
    rw [hs.frame_eq, allocFrame_of_ge hi]
  have hlast : a.frame.read2 pageLastInsert = f.read2 pageLastInsert := by
    rw [hs.frame_eq, read2_allocFrame (by decide)]
  have hnext : recGetNextOffs env.srvPageSize a.frame comp cur = (seg ++ [owner]).headD 0 := by
    refine (hp.next_linked.congr ?_).recGetNextOffs_eq h.size_dvd (h.recs_lt hp.next_mem)
    exact read2_congr (hframe _ (by change 94 ≤ cur - 2; omega))
      (hframe _ (by change 94 ≤ cur - 2 + 1; omega))
  have hstored := rec.stored_length a.heapNo
    (linkTo comp (a.insertBuf + rec.extraSize) ((seg ++ [owner]).headD 0))
  have hlink := linkInserted_eq hs h hp rec rfl
  have hfind := fun n r => findOwner_linkedFrame hs h hp n r hstored
  have hown := fun n r => linkedFrame_nOwned hs h n r hstored hp.mem hp.owner_mem hp.owner_ne
  have hdir := fun n r =>
    pageDirFindOwnerSlot_inserted hs h hp n r hstored (hplaced.pageIsComp_eq h)
  simp only [headerFrame] at hlink
  unfold pageCurInsertRecLow
  rw [ha, bind_some]
  simp only [hnext, hlast, hlink, hfind, bind_some, hown]
  change (if _ then (env.pageDirFindOwnerSlot (insertedFrame f comp a cur _ _ owner _) owner).bind _
    else _) = _
  rw [hdir, bind_some]
  rfl

end

end MariaDB.Page
