import MariaDB.Page.CommonBytes
import MariaDB.Page.ReplayRedundant
import MariaDB.Redo.PageInsert

/-!
# Recovery of an insert

The log record of an insert, executed on the page as it was before the insert, leaves
the page that the insert left exactly when no byte that was counted as common with the
predecessor is one that the insert itself changed.
-/
namespace MariaDB.Page

open Library (Frame)
open Redo (min3Byte min4Byte Mtr Block ApplyEnv ApplyState encHdrLen encHdrFields InsertBounds)
open WellFormed PageEnv Library.Frame Redo InsertRec List Option

variable {env : PageEnv} {f f' : Frame} {comp : Bool} {pageNo : Nat} {d : PageDesc}
  {a : Allocation} {cur : Nat} {seg : List Nat} {owner slotNo : Nat} {rec : InsertRec comp}

/-! ## Pages that differ in the new record -/

variable (h : WellFormed env f comp pageNo d) (hp : Position f comp d cur seg owner slotNo)
  (ha : Placed env f comp d rec.extraSize rec.bytes.length a)

include h hp ha in
lemma eq_of_pageWith_eq (nextRec : Nat)
    (hlen : p.length = rec.header.length) (hdata : q.length = rec.data.length)
    (heq : ∀ i, a.insertBuf ≤ i → i < a.insertBuf + rec.bytes.length →
      i ≠ a.insertBuf + rec.header.length →
      pageWith f a cur nextRec owner rec p q i =
        pageWith f a cur nextRec owner rec rec.header rec.data i) :
    p = rec.header ∧ q = rec.data := by
  have hs := h.space ha
  generalize hl : linkTo comp (a.insertBuf + rec.extraSize) nextRec = link at heq
  have hbytes := length_with hlen hdata a.heapNo link
  have hbytes' := rec.stored_length a.heapNo link
  rw [stored] at hbytes'
  have hfixed := rec.fixedHeader_length a.heapNo link
  have hge := recNExtraBytes_ge comp
  have hfirst : ∀ l r : List UInt8, l.length = rec.header.length →
      (l ++ (rec.fixedHeader a.heapNo link ++ r)).getD rec.header.length 0 =
        (rec.fixedHeader a.heapNo link).getD 0 0 := by
    intro l r hl
    rw [getD_append_right _ _ _ _ (by omega), getD_append _ _ _ _ (by omega), hl, Nat.sub_self]
  have hall : p ++ (rec.fixedHeader a.heapNo link ++ q) =
      rec.header ++ (rec.fixedHeader a.heapNo link ++ rec.data) := by
    refine ext_getElem (hbytes.trans hbytes'.symm) fun i hi hi' => ?_
    rw [← getD_eq_getElem _ 0 hi, ← getD_eq_getElem _ 0 hi']
    by_cases hne : i = rec.header.length
    · -- the first byte of the fixed-size header
      rw [hne, hfirst p q hlen, hfirst rec.header rec.data rfl]
    · have := heq (a.insertBuf + i) (by omega) (by omega) (by omega)
      simp only [pageWith, hl] at this
      rwa [insertedFrame_of_mem hs h hp.mem hp.owner_mem _ _ hbytes (by omega) (by omega),
        insertedFrame_of_mem hs h hp.mem hp.owner_mem _ _ hbytes' (by omega) (by omega),
        Nat.add_sub_cancel_left] at this
  obtain ⟨h1, h2⟩ := append_inj hall hlen
  exact ⟨h1, (append_inj h2 rfl).2⟩

def PageEnv.RunsTo (env : PageEnv) (nOwned slot : Nat) (g f' : Frame) : Prop :=
  if nOwned = pageDirSlotMaxNOwned then env.pageDirSplitSlot g slot = some f' else g = f'

variable {g : Frame} {i : InsertLog} {hc dc : Nat}

lemma splitResult_eq_iff :
    env.splitResult nOwned slot g = (false, f') ↔ env.RunsTo nOwned slot g f' := by
  unfold PageEnv.RunsTo splitResult
  split_ifs
  · cases env.pageDirSplitSlot g slot <;> simp
  · simp

variable {aenv : ApplyEnv}

include h hp ha in
lemma splitResult_pageWith_iff
    (hlen : p.length = rec.header.length) (hdata : q.length = rec.data.length)
    (hrun : env.RunsTo (recGetNOwned f comp owner) (env.pageDirGetNthSlot slotNo)
      (pageWith f a cur ((seg ++ [owner]).headD 0) owner rec rec.header rec.data) f') :
    env.splitResult (recGetNOwned f comp owner) (env.pageDirGetNthSlot slotNo)
        (pageWith f a cur ((seg ++ [owner]).headD 0) owner rec p q) = (false, f') ↔
      p = rec.header ∧ q = rec.data := by
  constructor
  · intro hres
    have hrun' := splitResult_eq_iff.mp hres
    refine eq_of_pageWith_eq h hp ha ((seg ++ [owner]).headD 0) hlen hdata fun i hlo hhi hne => ?_
    unfold PageEnv.RunsTo at hrun hrun'
    split at hrun
    · rename_i hn
      rw [if_pos hn] at hrun'
      rw [← pageDirSplitSlot_pageWith h hp ha hlen hdata hn hrun' hlo hhi hne,
        ← pageDirSplitSlot_pageWith h hp ha rfl rfl hn hrun hlo hhi hne]
    · rename_i hn
      rw [if_neg hn] at hrun'
      rw [hrun, hrun']
  · rintro ⟨rfl, rfl⟩
    exact splitResult_eq_iff.mpr hrun

/-! ## The log record -/

def InsertRec.Legal : {comp : Bool} → InsertRec comp → Frame → Prop
  | true, rec, f => rec.LegalComp f
  | false, rec, _ => rec.LegalOld

def PageEnv.applyInsert (env : PageEnv) (comp : Bool) (pageNo : Nat) (i : InsertLog) (f : Frame) :
    Bool × Frame :=
  if comp then
    env.pageApplyInsertDynamic pageNo i.reuse i.prevRec
      (if i.reuse then encodeShift i.shift else 0) (encHdrLen i) i.hdrC i.dataC
      (i.hdr ++ i.data) f
  else
    env.pageApplyInsertRedundant pageNo i.reuse i.prevRec (encHdrFields i) i.hdrC i.dataC
      (i.hdr ++ i.data) f

section

variable (nextRec : Nat)
include h hp ha nextRec

lemma pageWith_of_mem {i : Nat} (hlo : a.insertBuf ≤ i) (hhi : i < a.insertBuf + rec.bytes.length) :
    pageWith f a cur nextRec owner rec rec.header rec.data i =
      f.memcpy a.insertBuf (rec.stored a.heapNo
        (linkTo comp (a.insertBuf + rec.extraSize) nextRec)) i := by
  have hlen := rec.stored_length a.heapNo (linkTo comp (a.insertBuf + rec.extraSize) nextRec)
  rw [memcpy_of_mem _ _ hlo (by omega)]
  exact insertedFrame_of_mem (h.space ha) h hp.mem hp.owner_mem _ _ hlen hlo hhi

lemma slice_header_pageWith {n : Nat} (hn : n ≤ rec.header.length) :
    (pageWith f a cur nextRec owner rec rec.header rec.data).slice a.insertBuf n =
      rec.header.take n := by
  have hsize := rec.bytes_length
  rw [extraSize] at hsize
  refine (slice_congr fun i hlo hhi =>
    pageWith_of_mem h hp ha nextRec hlo (by omega)).trans ?_
  have hslice := f.slice_memcpy_append a.insertBuf [] (rec.header.take n)
    (rec.header.drop n ++ (rec.fixedHeader a.heapNo (linkTo comp (a.insertBuf + rec.extraSize)
      nextRec) ++ rec.data)) (n := n) (by simp [hn])
  rw [← append_assoc (rec.header.take n), take_append_drop] at hslice
  exact hslice

end

/-- The fields of a `ROW_FORMAT=REDUNDANT` record on the page. -/
lemma fields_pageWith {rec : InsertRec false} (h : WellFormed env f false pageNo d)
    (hp : Position f false d cur seg owner slotNo)
    (ha : Placed env f false d rec.extraSize rec.bytes.length a) (nextRec : Nat) :
    recGetNFieldsOld (pageWith f a cur nextRec owner rec rec.header rec.data)
        (a.insertBuf + rec.extraSize) = rec.nFields ∧
      recGet1byteOffsFlag (pageWith f a cur nextRec owner rec rec.header rec.data)
        (a.insertBuf + rec.extraSize) = rec.isShort := by
  have hn := rec.nFields_lt
  have hsize : rec.bytes.length = rec.header.length + 6 + rec.data.length := rec.bytes_length
  have hextra : rec.extraSize = rec.header.length + 6 := rfl
  have hshort : rec.isShort.toNat < 2 := Bool.toNat_lt _
  generalize hl : linkTo false (a.insertBuf + rec.extraSize) nextRec = link
  obtain ⟨x, y, u, v, hfixed⟩ : ∃ x y u v,
      rec.stored a.heapNo link =
        (rec.header ++ [x, y]) ++ UInt8.ofNat (a.heapNo * 8 + rec.nFields / 128) ::
          UInt8.ofNat (rec.nFields % 128 * 2 + rec.isShort.toNat) :: (u :: v :: rec.data) := by
    refine ⟨UInt8.ofNat rec.infoBits, UInt8.ofNat ((a.heapNo * 8 + rec.nFields / 128) / 256),
      UInt8.ofNat (link / 256), UInt8.ofNat link, ?_⟩
    simp [stored, fixedHeader]
  have hmem := fun i hlo hhi => pageWith_of_mem h hp ha nextRec (i := i) hlo hhi
  rw [hl] at hmem
  have hread : (pageWith f a cur nextRec owner rec rec.header rec.data).read2
      (a.insertBuf + rec.extraSize - 4) =
      (UInt8.ofNat (a.heapNo * 8 + rec.nFields / 128)).toNat * 256 +
        (UInt8.ofNat (rec.nFields % 128 * 2 + rec.isShort.toNat)).toNat := by
    rw [read2_congr (hmem _ (by omega) (by omega)) (hmem _ (by omega) (by omega)), hfixed,
      show a.insertBuf + rec.extraSize - 4 = a.insertBuf + (rec.header ++ [x, y]).length by
        simp; omega, read2_memcpy_append]
  have hbyte : pageWith f a cur nextRec owner rec rec.header rec.data
      (a.insertBuf + rec.extraSize - 3) =
      UInt8.ofNat (rec.nFields % 128 * 2 + rec.isShort.toNat) := by
    rw [hmem _ (by omega) (by omega), hfixed,
      show a.insertBuf + rec.extraSize - 3 = a.insertBuf + (rec.header ++ [x, y] ++
        [UInt8.ofNat (a.heapNo * 8 + rec.nFields / 128)]).length by simp; omega,
      append_cons, memcpy_append_cons]
  constructor
  · rw [recGetNFieldsOld, recGetBitField2, hread]
    simp only [getBits, UInt8.toNat_ofNat']
    omega
  · rw [recGet1byteOffsFlag, hbyte]
    simp only [getBits, UInt8.toNat_ofNat']
    cases rec.isShort <;> simp

include h hp ha in
lemma insertLog_eq (nextRec : Nat) (hg : g = pageWith f a cur nextRec owner rec rec.header rec.data)
    (hhc : hc = hdrCommon g cur rec)
    (hdc : dc = dataCommonLoop g (env.dataCommonEnd comp cur rec.data.length a.insertBuf
      owner (f.read2 pageNDirSlots)) rec.data cur) :
    env.insertLog g cur rec a owner =
      { reuse := a.reuse
        prevRec := cur - pageInfimum comp
        infoStatus := rec.infoAndStatusBits
        shift := a.freeOffset
        nFieldsS := 2 * recGetNFieldsOld g (a.insertBuf + rec.extraSize) +
          (recGet1byteOffsFlag g (a.insertBuf + rec.extraSize)).toNat
        hdrC := hc
        dataC := dc
        hdr := rec.header.take (rec.header.length - hc)
        data := rec.data.drop dc } := by
  have hlt := pageWith_of_lt h hp ha rec.header rec.data nextRec
  have hslots : g.read2 pageNDirSlots = f.read2 pageNDirSlots := by
    rw [hg, read2_congr (hlt _ (by decide)) (hlt _ (by decide)), (h.space ha).frame_eq,
      read2_allocFrame (by decide)]
  have hhdr : g.slice a.insertBuf (rec.header.length - hc) =
      rec.header.take (rec.header.length - hc) := by
    rw [hg]
    exact slice_header_pageWith h hp ha nextRec (Nat.sub_le _ _)
  unfold insertLog
  simp only [hslots, ← hhc, ← hdc, hhdr]

lemma freeOffset_eq {extraSize size : Nat} (ha : Placed env f comp d extraSize size a)
    (hreuse : a.reuse = false) : a.freeOffset = 0 := by
  cases ha with
  | reuse => simp at hreuse
  | heap => rfl

lemma infoStatus_bits {info status : Nat} (hinfo : info < 64) (hinfo' : info % 16 = 0)
    (hstatus : status < 8) :
    ((info + status) &&& 4) ||| (info + status) >>> 4 = status / 4 * 4 + info / 16 := by
  have hall : ∀ i < 4, ∀ s < 8, ((i * 16 + s) &&& 4) ||| (i * 16 + s) >>> 4 =
      s / 4 * 4 + i * 16 / 16 := by decide
  have := hall (info / 16) (by omega) status hstatus
  rwa [show info / 16 * 16 = info by omega] at this

lemma encHdrLen_eq {rec : InsertRec true} (hrec : rec.LegalComp f)
    (hi : i.infoStatus = rec.infoAndStatusBits) :
    encHdrLen i = i.hdr.length * 8 + (rec.status / 4 * 4 + rec.infoBits / 16) := by
  have hinfo := rec.infoBits_mod
  have hinfo64 := hrec.info_lt
  have hstatus : rec.status < 8 := Nat.mod_lt _ (by decide)
  simp only [encHdrLen, hi, infoAndStatusBits, if_true]
  rw [Nat.or_assoc, infoStatus_bits hinfo64 hinfo hstatus, shiftLeft_or (k := 3) _ (by omega)]
  rfl

lemma encHdrFields_eq {rec : InsertRec false} (hrec : rec.LegalOld)
    (hi : i.infoStatus = rec.infoAndStatusBits)
    (hn : i.nFieldsS = 2 * rec.nFields + rec.isShort.toNat) :
    encHdrFields i = (rec.nFields - 1) * 8 + (rec.isShort.toNat * 4 + rec.infoBits / 16) := by
  have hpos := hrec.fields_pos
  have hinfo64 := hrec.info_lt
  simp only [encHdrFields, hi, hn, infoAndStatusBits, Bool.false_eq_true, if_false]
  rw [Nat.shiftRight_eq_div_pow, shiftLeft_or (k := 2) _ (by omega)]
  omega

section

include h hp

lemma applyInsert_eq_iff (hsup : cur ≠ pageSupremum comp) (hrec : rec.Legal f)
    (ha : Placed env f comp d rec.extraSize rec.bytes.length a)
    (hg : g = pageWith f a cur ((seg ++ [owner]).headD 0) owner rec rec.header rec.data)
    (hrun : env.RunsTo (recGetNOwned f comp owner) (env.pageDirGetNthSlot slotNo) g f') :
    env.applyInsert comp pageNo (env.insertLog g cur rec a owner) f = (false, f') ↔
      Stable f g cur (env.dataCommonEnd comp cur rec.data.length a.insertBuf owner
        (f.read2 pageNDirSlots)) rec := by
  obtain ⟨hcEnd, -⟩ := h.dataCommonEnd_bounds hp rec.data.length a.insertBuf
  have hcopy := copied_of_common (g := g) h hp (h.space ha)
  generalize hhc : hdrCommon g cur rec = hc at hcopy
  generalize hdc : dataCommonLoop _ _ _ _ = dc at hcopy
  have hlog := insertLog_eq h hp ha _ hg hhc.symm hdc.symm
  have hlenH : (replayedHeader f cur rec hc).length = rec.header.length :=
    replayedHeader_length hcopy.hdr_le
  have hlenD : (f.slice cur dc ++ rec.data.drop dc).length = rec.data.length := by
    have := hcopy.data_le
    simp only [length_append, slice_length, length_drop]
    omega
  have hstable : (replayedHeader f cur rec hc = rec.header ∧
      f.slice cur dc ++ rec.data.drop dc = rec.data) ↔
      Stable f g cur (env.dataCommonEnd comp cur rec.data.length a.insertBuf owner
        (f.read2 pageNDirSlots)) rec := by
    rw [replayedHeader_eq_iff hhc.symm, replayedData_eq_iff hcEnd hdc.symm]
    exact ⟨fun hst => ⟨hst.1, hst.2⟩, fun hst => ⟨hst.1, hst.2⟩⟩
  have hiff := splitResult_pageWith_iff h hp ha hlenH hlenD (hg ▸ hrun)
  rw [← hstable, ← hiff, hlog]
  unfold applyInsert
  cases comp with
  | true =>
    have hlegal : rec.LegalComp f := hrec
    have hshift : (if a.reuse then encodeShift a.freeOffset else 0) = encodeShift a.freeOffset := by
      split
      · rfl
      · rename_i hreuse
        rw [freeOffset_eq ha (by simpa using hreuse)]
        rfl
    simp only [if_true, hshift]
    rw [pageApplyInsertDynamic_eq h hp hsup hlegal ha hcopy ?_]
    · rfl
    · rw [encHdrLen_eq hlegal rfl, length_take, min_eq_left (Nat.sub_le _ _)]
  | false =>
    have hlegal : rec.LegalOld := hrec
    obtain ⟨hfields, hflag⟩ := fields_pageWith h hp ha ((seg ++ [owner]).headD 0)
    rw [← hg] at hfields hflag
    rw [pageApplyInsertRedundant_eq h hp hsup hlegal ha hcopy ?_]
    · by_cases hsize : headerDataSize rec.isShort (replayedHeader f cur rec hc) = rec.data.length
      · rw [if_neg (not_not.mpr hsize)]
        rfl
      · rw [if_pos hsize]
        refine iff_of_false (by simp) ?_
        rw [hiff]
        rintro ⟨hhdr, -⟩
        rw [hhdr] at hsize
        exact hsize hlegal.headerDataSize_eq
    · exact encHdrFields_eq hlegal rfl (by simp only [hfields, hflag])

/-! ## Crash recovery -/

section

variable (hrec : rec.Legal f) (hcopy : Copied cur a rec hc dc)
include hrec ha hcopy

/-- The fields of the log record are in the range of their encoding. -/
lemma insertBounds (hprev : i.prevRec = cur - pageInfimum comp) (hshift : i.shift = a.freeOffset)
    (hhdrC : i.hdrC = hc) (hdataC : i.dataC = dc)
    (hhdr : i.hdr = rec.header.take (rec.header.length - hc)) (hdata : i.data = rec.data.drop dc) :
    InsertBounds i := by
  have hs := h.space ha
  have hend := hs.end_le
  have htop := hs.top_le
  have hps := h.size_le
  have hcur := h.recs_lt hp.mem
  have hsize := rec.bytes_length
  have h3 := min3Byte_eq
  have h4 := min4Byte_eq
  have h1 := hcopy.hdr_le
  have h2 := hcopy.data_le
  have hextra : rec.header.length ≤ rec.extraSize := Nat.le_add_right _ _
  refine ⟨by omega, ?_, ?_, by omega, ?_⟩
  · rw [hshift]
    have hoff : -65536 ≤ a.freeOffset ∧ a.freeOffset ≤ 65536 := by
      cases ha with
      | @reuse r recs hfree hfits =>
        have hheap := h.heap r (by simp [hfree])
        have := hheap.start_ge
        have := hheap.end_le
        have := h.heap_top_le_last_slot
        simp only [recEnd] at *
        omega
      | heap => simp
    unfold encodeShift
    split
    · rw [shiftLeft_or (k := 1) _ (by decide)]
      omega
    · rw [Nat.shiftLeft_eq]
      omega
  · rw [hhdrC]
    cases comp with
    | true => exact h1.trans_lt (InsertRec.LegalComp.header_lt hrec)
    | false =>
      have hn := rec.nFields_lt
      have := InsertRec.LegalOld.header_length hrec
      split_ifs at this <;> omega
  · rw [hhdr, hdata]
    simp only [length_take, length_drop]
    omega

lemma encoded_lt {nextRec : Nat} (hinfo : i.infoStatus = rec.infoAndStatusBits)
    (hfields : i.nFieldsS = 2 * recGetNFieldsOld (pageWith f a cur nextRec owner rec rec.header
        rec.data) (a.insertBuf + rec.extraSize) + (recGet1byteOffsFlag (pageWith f a cur nextRec
        owner rec rec.header rec.data) (a.insertBuf + rec.extraSize)).toNat) (hdataC : i.dataC = dc)
    (hhdr : i.hdr = rec.header.take (rec.header.length - hc)) :
    (comp = true → encHdrLen i < min4Byte) ∧
      (comp = false → encHdrFields i < min3Byte ∧ i.dataC < min3Byte) := by
  have h3 := min3Byte_eq
  have h4 := min4Byte_eq
  cases comp with
  | true =>
    have hlegal : rec.LegalComp f := hrec
    have hinfo64 := hlegal.info_lt
    have hstatus : rec.status < 8 := Nat.mod_lt _ (by decide)
    have hlt := hlegal.header_lt
    refine ⟨fun _ => ?_, fun hf => absurd hf (by decide)⟩
    rw [encHdrLen_eq hlegal hinfo, hhdr, length_take]
    omega
  | false =>
    have hlegal : rec.LegalOld := hrec
    have hn := rec.nFields_lt
    have hinfo64 := hlegal.info_lt
    have hshort : rec.isShort.toNat < 2 := Bool.toNat_lt _
    obtain ⟨hn', hflag⟩ := fields_pageWith h hp ha nextRec
    have hdata : rec.data.length < 0x4000 := by
      rw [← hlegal.headerDataSize_eq, headerDataSize]
      split_ifs <;> omega
    have := hcopy.data_le
    refine ⟨fun hf => absurd hf (by decide), fun _ => ⟨?_, by omega⟩⟩
    rw [encHdrFields_eq hlegal hinfo (by rw [hfields, hn', hflag])]
    omega

end

end

/-- Recovery that executes inserts as these functions do, and stops at a corrupted page. -/
structure Executes (aenv : ApplyEnv) (env : PageEnv) : Prop where
  strict : aenv.forceRecovery = false
  redundant : ∀ b, aenv.ops.pageApplyInsertRedundant b = env.pageApplyInsertRedundant b.id.pageNo
  dynamic : ∀ b, aenv.ops.pageApplyInsertDynamic b = env.pageApplyInsertDynamic b.id.pageNo

/-- Recovery executes the record, finds no corruption, and leaves the page `f'`. -/
def RecoversTo (aenv : ApplyEnv) (b : Block) (st : ApplyState) (record rest : List UInt8)
    (f' : Frame) : Prop :=
  ∃ st', aenv.applyStep b st (record ++ rest) = .next st' rest ∧ st'.frame = f' ∧
    st'.recordCorrupted = st.recordCorrupted

lemma recoversTo_iff (hexec : Executes aenv env) {st st' : ApplyState}
    (hcorr : st'.recordCorrupted = st.recordCorrupted)
    (hstep : aenv.applyStep b st (record ++ rest) = aenv.finish st' rest (aenv.pageOp st' result)) :
    RecoversTo aenv b st record rest f' ↔ result = (false, f') := by
  obtain ⟨corrupted, g⟩ := result
  unfold RecoversTo
  rw [hstep]
  cases corrupted with
  | true => simp [ApplyEnv.pageOp, hexec.strict, ApplyEnv.finish]
  | false => simp [ApplyEnv.pageOp, hexec.strict, ApplyEnv.finish, hcorr]

lemma exists_record (hexec : Executes aenv env) (hb : Redo.PageWrite.IndexOrUndoPage b) (m : Mtr)
    (hi : InsertBounds i) (henc : comp = true → encHdrLen i < min4Byte)
    (henc' : comp = false → encHdrFields i < min3Byte ∧ i.dataC < min3Byte) (st : ApplyState)
    (rest : List UInt8) :
    ∃ record st', (m.pageInsert comp b i).log = m.log ++ record ∧
      st'.recordCorrupted = st.recordCorrupted ∧
      aenv.applyStep b st (record ++ rest) = aenv.finish st' rest
        (aenv.pageOp st' (env.applyInsert comp b.id.pageNo i st.frame)) := by
  have hlen := hi.data_lt
  have h1 := varintSize_le i.prevRec
  have h3 := varintSize_le i.hdrC
  have h5 := varintSize_le i.dataC
  cases comp with
  | true =>
    have h2 := varintSize_le (encHdrLen i)
    have h6 := varintSize_le (encodeShift i.shift)
    have hne : dynamicBody i (encHdrLen i) ≠ [] := by simp [dynamicBody]
    have hmax : (dynamicBody i (encHdrLen i)).length < 2 ^ 19 := by
      rw [dynamicBody_length, length_append]
      split_ifs <;> omega
    obtain ⟨st', hframe, hcorr, hstep⟩ := aenv.applyStep_extendedRecord m b hne hmax st rest
    refine ⟨_, st', m.pageInsertDynamic_log b hi (henc rfl), hcorr, ?_⟩
    rw [hstep, aenv.applyExtended_dynamicBody hb hi (henc rfl), hexec.dynamic, hframe]
    rfl
  | false =>
    obtain ⟨henc, hdata⟩ := henc' rfl
    have h2 := varintSize_le (encHdrFields i)
    have hne : redundantBody i (encHdrFields i) ≠ [] := by simp [redundantBody]
    have hmax : (redundantBody i (encHdrFields i)).length < 2 ^ 19 := by
      rw [redundantBody_length, length_append]
      omega
    obtain ⟨st', hframe, hcorr, hstep⟩ := aenv.applyStep_extendedRecord m b hne hmax st rest
    refine ⟨_, st', m.pageInsertRedundant_log b hi henc hdata, hcorr, ?_⟩
    rw [hstep, aenv.applyExtended_redundantBody hb hi henc hdata, hexec.redundant, hframe]
    rfl

/-- No byte that the log record of an insert omits is one that the insert changes. This
is a condition on the page before the insert: `insertImage` is this page with the new
record in the free space and with the owner's number of records incremented. -/
def PageEnv.LogStable (env : PageEnv) (f : Frame) (cur : Nat) (rec : InsertRec comp) : Prop :=
  ∀ a owner, env.allocate f rec.extraSize rec.bytes.length = some a →
    env.findOwner f comp env.srvPageSize (recGetNextOffs env.srvPageSize f comp cur) = some owner →
    Stable f (insertImage f a owner rec (recGetNextOffs env.srvPageSize f comp cur)) cur
      (env.dataCommonEnd comp cur rec.data.length a.insertBuf owner (f.read2 pageNDirSlots)) rec

include h hp in
lemma findOwner_before : recGetNextOffs env.srvPageSize f comp cur = (seg ++ [owner]).headD 0 ∧
      env.findOwner f comp env.srvPageSize ((seg ++ [owner]).headD 0) = some owner := by
  refine ⟨hp.next_linked.recGetNextOffs_eq h.size_dvd (h.recs_lt hp.next_mem), ?_⟩
  refine findOwner_eq h.size_dvd hp.links.tail ?_ (fun r hr => (hp.seg_mem r hr).2.2)
    hp.n_owned_pos ?_
  · intro r hr
    rcases mem_append.mp hr with hr | hr
    · exact h.recs_lt (hp.seg_mem r hr).1
    · rw [mem_singleton.mp hr]
      exact h.recs_lt hp.owner_mem
  · have := hp.seg_length
    have := h.size_ge
    simp only [pageDirSlotMaxNOwned] at *
    omega

/-- The insert that is logged is recovered to the page that it left if and only if its log
record is stable. -/
theorem insert_recovered_iff {b : Block} (h : WellFormed env f comp b.id.pageNo d)
    (hb : Redo.PageWrite.IndexOrUndoPage b) (hcur : cur ∈ d.recs comp)
    (hsup : cur ≠ pageSupremum comp) (hrec : rec.Legal f) {log : InsertLog}
    (hins : env.pageCurInsertRecLow f cur rec = some (f', log)) (m : Mtr) {aenv : ApplyEnv}
    (hexec : Executes aenv env) {st : ApplyState} (hst : st.frame = f) (rest : List UInt8) :
    ∃ record, (m.pageInsert comp b log).log = m.log ++ record ∧
      (RecoversTo aenv b st record rest f' ↔ env.LogStable f cur rec) := by
  obtain ⟨seg, owner, slotNo, hp⟩ := h.exists_position hcur hsup
  obtain ⟨a, halloc, -⟩ := bind_eq_some_iff.mp hins
  have ha := h.allocate_placed rec.bytes_length_pos halloc
  have hrunLow := pageCurInsertRecLow_eq h hp rec halloc
  rw [hins] at hrunLow
  generalize hg : pageWith f a cur ((seg ++ [owner]).headD 0) owner rec rec.header rec.data = g
  have hg' : insertedFrame _ _ _ _ _ _ _ (rec.stored _ _) = g := hg
  simp only [hg'] at hrunLow
  -- what the insert left, and what it logged
  have hrun : env.RunsTo (recGetNOwned f comp owner) (env.pageDirGetNthSlot slotNo) g f' ∧
      log = env.insertLog g cur rec a owner := by
    unfold PageEnv.RunsTo
    split at hrunLow
    · rename_i hn
      obtain ⟨f₂, hsplit, heq⟩ := map_eq_some_iff.mp hrunLow.symm
      obtain ⟨rfl, rfl⟩ := Prod.mk.inj heq
      rw [if_pos hn]
      exact ⟨hsplit, rfl⟩
    · rename_i hn
      obtain ⟨rfl, rfl⟩ := Prod.mk.inj (some.inj hrunLow)
      rw [if_neg hn]
      exact ⟨rfl, rfl⟩
  obtain ⟨hrun, rfl⟩ := hrun
  have hiff := applyInsert_eq_iff h hp hsup hrec ha hg.symm hrun
  have hcopy := copied_of_common (g := g) h hp (h.space ha)
  have hlog := insertLog_eq h hp ha _ hg.symm rfl rfl
  have hbounds : InsertBounds (env.insertLog g cur rec a owner) := by
    rw [hlog]
    exact insertBounds h hp ha hrec hcopy rfl rfl rfl rfl rfl rfl
  obtain ⟨henc, henc'⟩ : (comp = true → encHdrLen (env.insertLog g cur rec a owner) < min4Byte) ∧
      (comp = false → encHdrFields (env.insertLog g cur rec a owner) < min3Byte ∧
        (env.insertLog g cur rec a owner).dataC < min3Byte) := by
    rw [hlog]
    exact encoded_lt h hp ha hrec hcopy rfl (by rw [hg]) rfl rfl
  obtain ⟨record, st', hrecord, hcorr, hstep⟩ := exists_record hexec hb m hbounds henc henc' st rest
  refine ⟨record, hrecord, ?_⟩
  obtain ⟨hnext, howner⟩ := findOwner_before h hp
  rw [recoversTo_iff hexec hcorr hstep, hst, hiff, ← hg, stable_pageWith_iff h hp ha]
  unfold PageEnv.LogStable
  rw [hnext, halloc, howner]
  constructor
  · rintro hstable _ _ ⟨⟩ ⟨⟩
    exact hstable
  · intro hstable
    exact hstable a owner rfl rfl

/-! ## A page of an index on one variable-length column -/

def varcharEnv : PageEnv where
  srvPageSize := 4096
  recOffsComp f rec := (6, (f (rec - 6)).toNat)

def varcharPage : Frame :=
  ((((zeros.memcpy 4 [0, 0, 0, 3]).memcpy 24 [0x45, 0xBF]).memcpy 38
    [0, 3, 0, 160, 0x80, 6, 0, 0, 0, 0, 0, 0, 0, 5, 0, 0, 0, 4]).memcpy 94
    [1, 0, 2, 0, 27, 105, 110, 102, 105, 109, 117, 109, 0,
     1, 0, 11, 0, 0, 115, 117, 112, 114, 101, 109, 117, 109,
     4, 0, 0, 16, 0, 10, 1, 1, 1, 1,
     4, 0, 0, 24, 0, 10, 2, 2, 2, 2,
     4, 0, 0, 32, 0, 10, 3, 3, 3, 3,
     4, 4, 0, 40, 0xFF, 0xD4, 4, 4, 4, 4]).memcpy 4082 [0, 112, 0, 156, 0, 99]

def varcharDesc : PageDesc := ⟨[[126, 136, 146, 156]], [], []⟩

def varcharRec (data : List UInt8) : InsertRec true :=
  ⟨[UInt8.ofNat data.length], [0, 0, 0, 0, 0], data, rfl⟩

lemma varcharPage_wellFormed : WellFormed varcharEnv varcharPage true 3 varcharDesc where
  size_ge := by decide
  size_dvd := by decide
  comp_eq := by decide
  index_page := by decide
  page_no := by decide
  n_slots := by decide
  n_heap_lt := by decide
  n_heap_ge := by decide
  heap_top_ge := by decide
  heap_top_le := by decide
  groups := by
    intro g hg
    fin_cases hg <;> refine ⟨by decide, ?_, by decide⟩ <;> rintro _ ⟨⟩ <;> decide
  middle := by decide
  slots := by
    intro i g r hi hr
    match i, hi with
    | 0, rfl | 1, rfl | 2, rfl =>
      cases hr
      decide
  links := by decide
  supremum_link := by decide
  infimum := by simp
  heap := by
    intro r hr
    fin_cases hr <;> exact ⟨by decide, by decide, by decide⟩
  disjoint := by decide
  free_list := (by decide : varcharPage.read2 pageFree = 0)
  garbage := by decide

def PageEnv.recovery (env : PageEnv) : ApplyEnv where
  srvPageSize := env.srvPageSize
  forceRecovery := false
  encryptionOffset _ := 0
  ops :=
    { pageCreateLow := fun _ _ f => f
      trxUndoPageInit := fun _ f => f
      undoAppend := fun _ _ f => (false, f)
      pageApplyInsertRedundant := fun b => env.pageApplyInsertRedundant b.id.pageNo
      pageApplyInsertDynamic := fun b => env.pageApplyInsertDynamic b.id.pageNo
      pageApplyDeleteRedundant := fun _ _ f => (false, f)
      pageApplyDeleteDynamic := fun _ _ _ _ f => (false, f)
      pageChecksum := fun _ _ _ => false
      initPage := fun _ f => f }

lemma executes_recovery (env : PageEnv) : Executes env.recovery env :=
  ⟨rfl, fun _ => rfl, fun _ => rfl⟩

def varcharBlock : Block := ⟨⟨5, 3⟩, 0⟩

lemma varcharRec_legal (data : List UInt8) : (varcharRec data).Legal varcharPage := by
  have hlen : (varcharRec data).extraSize = 6 := rfl
  have hbyte : ∀ i < 5, (varcharRec data).frame (1 + i) = 0 := by
    intro i hi
    have : (varcharRec data).bytes = [UInt8.ofNat data.length, 0, 0, 0, 0, 0] ++ data := rfl
    rw [frame, memcpy_of_mem _ _ (by omega) (by rw [this]; simp; omega), this]
    interval_cases i <;> rfl
  have hleaf : pageIsLeaf varcharPage = true := by decide
  refine ⟨?_, fun _ => .inl ?_, fun h => absurd (hleaf.symm.trans h) (by decide), ?_⟩
  · rw [infoBits, hlen, show 6 - recNExtraBytes true = 1 + 0 from rfl, hbyte 0 (by decide)]
    decide
  · rw [status, hlen, show 6 - 3 = 1 + 2 from rfl, hbyte 2 (by decide)]
    decide
  · rw [show (varcharRec data).header.length = 1 from rfl]
    decide

/-- An insert of a record that has no byte in common with its predecessor is recovered. -/
theorem insert_recovered_varcharPage : ∃ f' log record,
    varcharEnv.pageCurInsertRecLow varcharPage 146 (varcharRec [9, 9]) = some (f', log) ∧
      (Mtr.start.pageInsert true varcharBlock log).log = Mtr.start.log ++ record ∧
      RecoversTo varcharEnv.recovery varcharBlock ⟨varcharPage, 0, .no, false⟩ record [] f' := by
  have hsome : (varcharEnv.pageCurInsertRecLow varcharPage 146 (varcharRec [9, 9])).isSome := by
    decide
  obtain ⟨⟨f', log⟩, hins⟩ := isSome_iff_exists.mp hsome
  have hst : (⟨varcharPage, 0, .no, false⟩ : ApplyState).frame = varcharPage := rfl
  obtain ⟨record, hrecord, hiff⟩ := insert_recovered_iff (b := varcharBlock) varcharPage_wellFormed
    ⟨rfl, by decide⟩ (by decide) (by decide) (varcharRec_legal [9, 9]) hins Mtr.start
    (executes_recovery _) hst []
  refine ⟨f', log, record, hins, hrecord, hiff.mpr ?_⟩
  intro a owner ha howner
  have hbuf : a.insertBuf = 160 := by
    have : (varcharEnv.allocate varcharPage (varcharRec [9, 9]).extraSize
        (varcharRec [9, 9]).bytes.length).map (·.insertBuf) = some 160 := by decide
    rw [ha] at this
    exact some.inj this
  have howner' : owner = 156 := by
    have : varcharEnv.findOwner varcharPage true varcharEnv.srvPageSize
        (recGetNextOffs varcharEnv.srvPageSize varcharPage true 146) = some 156 := by decide
    exact some.inj (howner.symm.trans this)
  refine ⟨fun i hw => absurd hw.2 (by change ¬ i + 1 < 1; omega), fun i _ hcommon => ?_⟩
  -- the first byte is not common
  have hfirst := hcommon 0 (by omega)
  have hbyte : varcharPage 146 = 3 := by decide
  rw [insertImage, recSetNOwned_of_ne (by rw [howner']; decide),
    memcpy_of_not_mem _ _ (.inl (by omega)), add_zero, hbyte] at hfirst
  exact absurd hfirst (by decide)

/-- The state after a step that leaves no log. -/
def consumed : ApplyEnv.Step → Option ApplyState
  | .next st [] => some st
  | _ => none

lemma consumed_eq_some {r : ApplyEnv.Step} {st : ApplyState} (h : consumed r = some st) :
    r = .next st [] := by
  cases r with
  | next st' rest => cases rest <;> simp_all [consumed]
  | _ => simp [consumed] at h

/-- The data of the new record goes on like the page after the predecessor: with the data
of the predecessor, the length of the owner, and the number of records that the owner
has after the insert. The recovered record has the number from before the insert. -/
theorem insert_not_recovered_varcharPage : ∃ f' log st',
    WellFormed varcharEnv varcharPage true 3 varcharDesc ∧ 146 ∈ varcharDesc.recs true ∧
      (varcharRec [3, 3, 3, 3, 4, 5, 1, 1, 1, 1]).Legal varcharPage ∧
      varcharEnv.pageCurInsertRecLow varcharPage 146 (varcharRec [3, 3, 3, 3, 4, 5, 1, 1, 1, 1]) =
        some (f', log) ∧
      varcharEnv.recovery.applyStep varcharBlock ⟨varcharPage, 0, .no, false⟩
        (Mtr.start.pageInsert true varcharBlock log).log = .next st' [] ∧
      f' 171 = 5 ∧ st'.frame 171 = 4 := by
  have hrun : ((varcharEnv.pageCurInsertRecLow varcharPage 146
        (varcharRec [3, 3, 3, 3, 4, 5, 1, 1, 1, 1])).bind fun r =>
      (consumed (varcharEnv.recovery.applyStep varcharBlock ⟨varcharPage, 0, .no, false⟩
        (Mtr.start.pageInsert true varcharBlock r.2).log)).map fun st =>
          (r.1 171, st.frame 171)) = some (5, 4) := by
    decide
  obtain ⟨⟨f', log⟩, hins, hrest⟩ := Option.bind_eq_some_iff.mp hrun
  obtain ⟨st', hstep, hbytes⟩ := Option.map_eq_some_iff.mp hrest
  exact ⟨f', log, st', varcharPage_wellFormed, by decide, varcharRec_legal _, hins,
    consumed_eq_some hstep, congrArg Prod.fst hbytes, congrArg Prod.snd hbytes⟩

end MariaDB.Page
