import MariaDB.Page.InsertReplay

/-!
# Replaying an insert on a `ROW_FORMAT=REDUNDANT` page

The header of a `ROW_FORMAT=REDUNDANT` record holds the number of its fields and the
ends of its fields, so the replay finds the size of the data in the header that it has
put together. A header that was not put together right may be reported as corruption.
-/
namespace MariaDB.Page

open Library (Frame)
open WellFormed PageEnv Library.Frame InsertRec List

variable {env : PageEnv} {f : Frame} {pageNo : Nat} {d : PageDesc}
  {size extraSize : Nat} {a : Allocation} {cur : Nat} {seg : List Nat} {owner slotNo : Nat}

/-! ## The checks of the predecessor -/

lemma WellFormed.recGetOffsets_old (h : WellFormed env f false pageNo d) (r : Nat) :
    env.recGetOffsets f r = (recExtraSizeOld f r, recGetDataSizeOld f r) := by
  rw [recGetOffsets, h.comp_eq, if_neg (by decide)]

lemma recExtraSizeOld_le_six (h : recGetNFieldsOld f r = 0) : recExtraSizeOld f r ≤ 6 := by
  simp [recExtraSizeOld, h]

variable (h : WellFormed env f false pageNo d) (hp : Position f false d cur seg owner slotNo)
  (hsup : cur ≠ pageSupremum false)

include h hp hsup in
lemma WellFormed.applyPrevCorruptedOld_eq {rec : InsertRec false} (hcopy : Copied cur a rec hc dc) :
    applyPrevCorruptedOld f (cur - pageInfimum false) hc (f.read2 pageHeapTop) = false := by
  have hinf := h.infimum_le hp.mem
  have htop := h.heap_top_ge
  have hhdr := hcopy.hdr_le
  have hnext : f.read2 (cur - recNext) = (seg ++ [owner]).headD 0 := hp.next_linked.2
  have hmax : recGetNFieldsOld f cur < 1024 := Nat.mod_lt _ (by decide)
  have hcommon : hc = 0 ∨ pageSupremumEnd false + hc ≤ cur := by
    by_cases hne : hc = 0
    · exact .inl hne
    · have := hcopy.hdr_ge hne
      simp only [extraSize] at this
      omega
  unfold applyPrevCorruptedOld
  simp only [Nat.add_sub_cancel' hinf, hnext, h.inHeap_next hp]
  rw [decide_eq_false_iff_not]
  simp only [recMaxNFields, not_or, not_and_or, not_lt, ne_eq, not_not, Bool.not_true,
    Bool.false_eq_true, not_false_eq_true, and_true]
  by_cases hcur : cur - pageInfimum false = 0
  · have hcur : cur = pageInfimum false := by omega
    have hofs := (h.recGetOffsets_old cur).symm.trans (hcur ▸ h.infimum rfl)
    obtain ⟨hextra, hdata⟩ := Prod.mk.inj hofs
    have hfields : recGetNFieldsOld f cur ≠ 0 := by
      intro h0
      have := recExtraSizeOld_le_six h0
      omega
    have hends := pageInfimum_lt_pageSupremum false
    exact ⟨.inl (by omega), hfields, by omega, .inl hcur, hcommon, by omega⟩
  · have hu := mem_users_of_ne hp.mem hsup hcur
    have hheap := h.heap cur (mem_append_left _ hu)
    have hge := hheap.extra_ge
    have hstart := hheap.start_ge
    have hend := hheap.end_le
    simp only [recEnd, h.recGetOffsets_old, recNExtraBytes, Bool.false_eq_true,
      if_false] at hge hstart hend
    have hfields : recGetNFieldsOld f cur ≠ 0 := by
      intro h0
      have := recExtraSizeOld_le_six h0
      omega
    exact ⟨.inr (by omega), hfields, by omega, .inr (by omega), hcommon, by omega⟩

/-! ## Taking the space -/

lemma WellFormed.applyAllocateOld_eq (h : WellFormed env f false pageNo d)
    (ha : Placed env f false d extraSize size a) (hsize : extraSize + dataSize = size) :
    applyAllocateOld f a.reuse (f.read2 pageHeapTop)
      (env.pageDirGetNthSlot ((d.groups false).length - 1)) extraSize dataSize =
      some (a.frame, a.insertBuf, a.heapNo) := by
  have hs := h.space ha
  have htop := hs.top_le
  have hgroups := h.n_slots_le
  have hn := h.nHeap_eq
  unfold applyAllocateOld
  cases ha with
  | @reuse rec recs hfree hfits =>
    obtain ⟨hrec, hheap, hgarbage, hnext⟩ := h.free_cons hfree
    have hge := hheap.extra_ge
    have hstart := hheap.start_ge
    have hle := hheap.end_le
    simp only [recEnd, recSize, recStart, h.recGetOffsets_old,
      recNExtraBytes, nextFree, Bool.false_eq_true, if_false] at *
    simp only [hrec, if_true]
    rw [if_neg (by omega)]
    have hends := pageInfimum_lt_pageSupremum false
    have hdisj : ∀ p, p + 2 ≤ 94 → ∀ q, q + 6 = rec ∨ q + 5 = rec ∨ q + 2 = rec →
        ∀ v, (f.write2 p v).read2 q = f.read2 q := by
      intro p hp q hq v
      exact read2_write2_of_disjoint (by omega)
    have hlink : (f.write2 pageGarbage (f.read2 pageGarbage - extraSize - dataSize)).memcpy pageFree
        ((f.write2 pageGarbage (f.read2 pageGarbage - extraSize - dataSize)).slice
          (rec - recNext) 2) =
        allocFrame f false true size := by
      rw [← write2_read2, hdisj _ (by decide) _ (.inr (.inr (by simp only [recNext]; omega))),
        write2_comm _ _ _ (by decide), Nat.sub_sub, hsize]
      simp [allocFrame, nextFree, hrec]
    have hheapNo : ∀ v,
        recGetHeapNo (f.write2 pageGarbage v) false rec = recGetHeapNo f false rec := by
      intro v
      unfold recGetHeapNo recGetBitField2
      rw [hdisj _ (by decide) _ (.inr (.inl (by simp; omega)))]
    rw [hlink, hheapNo]
  | heap =>
    simp only [newHeapTop, Bool.false_eq_true, if_false] at *
    rw [if_neg (by simp only [pageDirGetNthSlot, pageDir]; omega), add_assoc, hsize,
      heap_write_comm f false, hn]
    rfl

/-! ## The header in the buffer -/

section

variable (g : Frame) (p q : List UInt8) (x y : UInt8) (val shift width : Nat) {r offs : Nat}

lemma recSetBitField1_memcpy (hr : r = p.length + offs) :
    recSetBitField1 (g.memcpy 0 (p ++ x :: q)) r val offs shift width =
      g.memcpy 0 (p ++ UInt8.ofNat (setBits x.toNat shift width val) :: q) := by
  have hofs : r - offs = 0 + p.length := by omega
  rw [recSetBitField1, hofs, memcpy_append_cons, write1_memcpy_append]

lemma recSetBitField2_memcpy (hr : r = p.length + offs) :
    recSetBitField2 (g.memcpy 0 (p ++ x :: y :: q)) r val offs shift width =
      g.memcpy 0 (p ++
        UInt8.ofNat (setBits (x.toNat * 256 + y.toNat) shift width val / 256) ::
        UInt8.ofNat (setBits (x.toNat * 256 + y.toNat) shift width val) :: q) := by
  have hofs : r - offs = 0 + p.length := by omega
  rw [recSetBitField2, hofs, read2_memcpy_append, write2_memcpy_append]

end

/-- The fixed-size header after all fields but the heap number were set. -/
def fieldsOld (b : Fin 6 → UInt8) (n info : Nat) (short : Bool) : List UInt8 :=
  [UInt8.ofNat (info * 16), b 1, UInt8.ofNat ((b 2).toNat / 8 * 8 + n / 128),
    UInt8.ofNat (n % 128 * 2 + short.toNat), b 4, b 5]

variable {n info r hc : Nat} {rec : InsertRec false}

lemma setFields_old (g : Frame) (p : List UInt8) (b : Fin 6 → UInt8) (short : Bool)
    (hn : n < 1024) (hinfo : info < 16) (hr : r = p.length + 6) :
    recSetNOwned (recSetBitField2 (recSetBitField1 (recSetBitField1
      (g.memcpy 0 (p ++ [b 0, b 1, b 2, b 3, b 4, b 5])) r info 6 4 4) r short.toNat 3 0 1)
      r n 4 1 10) false r 0 = g.memcpy 0 (p ++ fieldsOld b n info short) := by
  have h0 := UInt8.toNat_lt (b 0)
  have h3 := UInt8.toNat_lt (b 3)
  have hs : short.toNat < 2 := Bool.toNat_lt short
  rw [recSetBitField1_memcpy (r := r) _ _ _ _ _ _ _ hr]
  generalize hx0 : UInt8.ofNat (setBits (b 0).toNat 4 4 info) = x0
  have e1 : p ++ [x0, b 1, b 2, b 3, b 4, b 5] = (p ++ [x0, b 1, b 2]) ++ b 3 :: [b 4, b 5] := by
    simp
  rw [e1, recSetBitField1_memcpy (r := r) _ _ _ _ _ _ _ (by simp; omega)]
  generalize hx3 : UInt8.ofNat (setBits (b 3).toNat 0 1 short.toNat) = x3
  have e2 : (p ++ [x0, b 1, b 2]) ++ x3 :: [b 4, b 5] =
      (p ++ [x0, b 1]) ++ b 2 :: x3 :: [b 4, b 5] := by simp
  rw [e2, recSetBitField2_memcpy (r := r) _ _ _ _ _ _ _ _ (by simp; omega)]
  have e3 : ∀ y z : UInt8, (p ++ [x0, b 1]) ++ y :: z :: [b 4, b 5] =
      p ++ x0 :: [b 1, y, z, b 4, b 5] := by simp
  rw [e3, recSetNOwned, show recNExtraBytes false = 6 from rfl,
    recSetBitField1_memcpy (r := r) _ _ _ _ _ _ _ hr]
  -- the value of each byte
  have hx0' : x0.toNat = setBits (b 0).toNat 4 4 info := by
    rw [← hx0, UInt8.toNat_ofNat']
    simp only [setBits]
    omega
  have hx3' : x3.toNat = setBits (b 3).toNat 0 1 short.toNat := by
    rw [← hx3, UInt8.toNat_ofNat']
    simp only [setBits]
    omega
  have hown : setBits x0.toNat 0 4 0 = info * 16 := by
    simp only [hx0', setBits]
    omega
  have hfields : setBits ((b 2).toNat * 256 + x3.toNat) 1 10 n =
      ((b 2).toNat / 8 * 8 + n / 128) * 256 + (n % 128 * 2 + short.toNat) := by
    simp only [hx3', setBits]
    omega
  have hhi : (((b 2).toNat / 8 * 8 + n / 128) * 256 + (n % 128 * 2 + short.toNat)) / 256 =
      (b 2).toNat / 8 * 8 + n / 128 := by omega
  have hlo : UInt8.ofNat (((b 2).toNat / 8 * 8 + n / 128) * 256 + (n % 128 * 2 + short.toNat)) =
      UInt8.ofNat (n % 128 * 2 + short.toNat) := by
    rw [← UInt8.toNat_inj, UInt8.toNat_ofNat', UInt8.toNat_ofNat']
    omega
  rw [hown, hfields, hhi, hlo]
  rfl

lemma setHeapNo_old (g : Frame) (p : List UInt8) (b : Fin 6 → UInt8) (short : Bool)
    (heapNo : Nat) (hn : n < 1024) (hr : r = p.length + 6) :
    recSetHeapNo (g.memcpy 0 (p ++ fieldsOld b n info short)) false r heapNo =
      g.memcpy 0 (p ++ [UInt8.ofNat (info * 16), UInt8.ofNat ((heapNo * 8 + n / 128) / 256),
        UInt8.ofNat (heapNo * 8 + n / 128), UInt8.ofNat (n % 128 * 2 + short.toNat),
        b 4, b 5]) := by
  have h1 := UInt8.toNat_lt (b 1)
  have e : p ++ fieldsOld b n info short = (p ++ [UInt8.ofNat (info * 16)]) ++ b 1 ::
      UInt8.ofNat ((b 2).toNat / 8 * 8 + n / 128) ::
      [UInt8.ofNat (n % 128 * 2 + short.toNat), b 4, b 5] := by simp [fieldsOld]
  have hval : setBits ((b 1).toNat * 256 + (UInt8.ofNat ((b 2).toNat / 8 * 8 + n / 128)).toNat) 3 13
      heapNo = heapNo * 8 + n / 128 := by
    simp only [setBits, UInt8.toNat_ofNat']
    omega
  rw [e, recSetHeapNo, if_neg (by decide),
    recSetBitField2_memcpy (r := r) _ _ _ _ _ _ _ _ (by simp; omega), hval]
  simp

def headerDataSize (short : Bool) (header : List UInt8) : Nat :=
  if short then (header.getD 0 0).toNat % 0x80
  else ((header.getD 0 0).toNat * 256 + (header.getD 1 0).toNat) % 0x4000

lemma recGetDataSizeOld_memcpy (g : Frame) {p q : List UInt8} {short : Bool}
    (hpos : 1 ≤ n) (hp : p.length = if short then n else n * 2) (hr : r = p.length + 6)
    (hn : recGetNFieldsOld (g.memcpy 0 (p ++ q)) r = n)
    (hs : recGet1byteOffsFlag (g.memcpy 0 (p ++ q)) r = short) :
    recGetDataSizeOld (g.memcpy 0 (p ++ q)) r = headerDataSize short p := by
  have hbyte : ∀ i < p.length, (g.memcpy 0 (p ++ q)) i = p.getD i 0 := by
    intro i hi
    rw [memcpy_of_mem _ _ (by omega) (by simp; omega), Nat.sub_zero, getD_append _ _ _ _ hi]
  grind [read2, recGetDataSizeOld, headerDataSize]

lemma recGetNFieldsOld_fieldsOld (g : Frame) (p : List UInt8) (b : Fin 6 → UInt8) (short : Bool)
    (hn : n < 1024) (hr : r = p.length + 6) :
    recGetNFieldsOld (g.memcpy 0 (p ++ fieldsOld b n i short)) r = n ∧
      recGet1byteOffsFlag (g.memcpy 0 (p ++ fieldsOld b n i short)) r = short := by
  have hs : short.toNat < 2 := Bool.toNat_lt short
  have e : p ++ fieldsOld b n i short = (p ++ [UInt8.ofNat (i * 16), b 1]) ++
      UInt8.ofNat ((b 2).toNat / 8 * 8 + n / 128) ::
      UInt8.ofNat (n % 128 * 2 + short.toNat) :: [b 4, b 5] := by simp [fieldsOld]
  have e' : p ++ fieldsOld b n i short = (p ++ [UInt8.ofNat (i * 16), b 1,
      UInt8.ofNat ((b 2).toNat / 8 * 8 + n / 128)]) ++
      UInt8.ofNat (n % 128 * 2 + short.toNat) :: [b 4, b 5] := by simp [fieldsOld]
  constructor
  · have hofs : r - 4 = 0 + (p ++ [UInt8.ofNat (i * 16), b 1]).length := by simp; omega
    rw [recGetNFieldsOld, recGetBitField2, e, hofs, read2_memcpy_append]
    simp only [getBits, UInt8.toNat_ofNat']
    omega
  · have hofs : r - 3 = 0 + (p ++ [UInt8.ofNat (i * 16), b 1,
        UInt8.ofNat ((b 2).toNat / 8 * 8 + n / 128)]).length := by simp; omega
    rw [recGet1byteOffsFlag, e', hofs, memcpy_append_cons]
    simp only [getBits, UInt8.toNat_ofNat']
    cases short <;> simp

/-! ## The replay -/

/-- The records that may be inserted on a `ROW_FORMAT=REDUNDANT` page. -/
structure InsertRec.LegalOld (rec : InsertRec false) : Prop where
  info_lt : rec.infoBits < 64
  fields_pos : 1 ≤ rec.nFields
  extra_eq : recExtraSizeOld rec.frame rec.extraSize = rec.extraSize
  data_eq : recGetDataSizeOld rec.frame rec.extraSize = rec.data.length

def fixedBytes (f : Frame) (r : Nat) : Fin 6 → UInt8 := fun i => f (r - 6 + i)

lemma applyHeaderOld_eq (f : Frame) (hle : hc ≤ rec.header.length) (hcur : hc + 6 ≤ cur)
    (short : Bool) (hn : n < 1024) (hinfo : info < 16) (data : List UInt8) :
    applyHeaderOld f cur (hc + 6) rec.extraSize n info short
        (rec.header.take (rec.header.length - hc) ++ data) =
      zeros.memcpy 0
        (replayedHeader f cur rec hc ++ fieldsOld (fixedBytes f cur) n info short) := by
  have hlit : rec.extraSize - (hc + 6) = (rec.header.take (rec.header.length - hc)).length := by
    simp only [extraSize, recNExtraBytes, length_take]
    simp
  have hslice : f.slice (cur - (hc + 6)) (hc + 6) = f.slice (cur - 6 - hc) hc ++
      [fixedBytes f cur 0, fixedBytes f cur 1, fixedBytes f cur 2, fixedBytes f cur 3,
        fixedBytes f cur 4, fixedBytes f cur 5] := by
    rw [slice_add, show cur - (hc + 6) = cur - 6 - hc by omega,
      show cur - 6 - hc + hc = cur - 6 by omega]
    rfl
  unfold applyHeaderOld
  dsimp only
  rw [hlit, take_left, hslice, memcpy_append_of_eq _ _ (by simp)]
  have := setFields_old zeros (replayedHeader f cur rec hc) (fixedBytes f cur) short hn hinfo
    (r := rec.extraSize) (by rw [replayedHeader_length hle]; rfl)
  rw [← this, replayedHeader, append_assoc]
  rfl

lemma fixedBytes_link (f : Frame) {next : Nat} (hr : 6 ≤ r) (h : f.read2 (r - recNext) = next) :
    [fixedBytes f r 4, fixedBytes f r 5] = [UInt8.ofNat (next / 256), UInt8.ofNat next] := by
  have := write2_read2 f f 0 (r - recNext)
  rw [h] at this
  have h2 := memcpy_inj (by simp) this
  rw [h2]
  simp only [slice, fixedBytes, recNext, range_succ, range_zero]
  simp [show r - 6 + 4 = r - 2 by omega, show r - 6 + 5 = r - 2 + 1 by omega]

lemma InsertRec.LegalOld.header_length (h : rec.LegalOld) :
    rec.header.length = if rec.isShort then rec.nFields else rec.nFields * 2 := by
  have := h.extra_eq
  simp only [recExtraSizeOld, extraSize, recNExtraBytes, Bool.false_eq_true, if_false] at this
  simp only [isShort, nFields, extraSize, recNExtraBytes, Bool.false_eq_true, if_false]
  omega

lemma InsertRec.LegalOld.headerDataSize_eq (h : rec.LegalOld) :
    headerDataSize rec.isShort rec.header = rec.data.length := by
  have hbytes : rec.bytes = rec.header ++ (rec.fixed ++ rec.data) := by simp [bytes]
  rw [← h.data_eq, frame, hbytes]
  refine (recGetDataSizeOld_memcpy zeros h.fields_pos h.header_length rfl ?_ ?_).symm
  · rw [nFields, frame, hbytes]
    rfl
  · rw [isShort, frame, hbytes]
    rfl

lemma recSetHeapNo_replayed {next : Nat} (hle : hc ≤ rec.header.length) (hcur : hc + 6 ≤ cur)
    (hnext : f.read2 (cur - recNext) = next) (heapNo insertRec : Nat) :
    recSetHeapNo (zeros.memcpy 0 (replayedHeader f cur rec hc ++
        fieldsOld (fixedBytes f cur) rec.nFields (rec.infoBits / 16) rec.isShort)) false
        rec.extraSize heapNo =
      zeros.memcpy 0 (replayedHeader f cur rec hc ++
        rec.fixedHeader heapNo (linkTo false insertRec next)) := by
  have hinfo := rec.infoBits_mod
  have hn := rec.nFields_lt
  have hlink := fixedBytes_link f (by omega) hnext
  have hinfo' : rec.infoBits / 16 * 16 = rec.infoBits := by omega
  rw [setHeapNo_old _ _ _ _ _ hn (by rw [replayedHeader_length hle]; rfl), hinfo']
  simp only [fixedHeader, Bool.false_eq_true, if_false, linkTo, ← hlink]
  rfl

include h hp hsup in
lemma pageApplyInsertRedundant_eq (hrec : rec.LegalOld)
    (ha : Placed env f false d rec.extraSize rec.bytes.length a) {dc enc : Nat}
    (hcopy : Copied cur a rec hc dc)
    (henc : enc = (rec.nFields - 1) * 8 + (rec.isShort.toNat * 4 + rec.infoBits / 16)) :
    env.pageApplyInsertRedundant pageNo a.reuse (cur - pageInfimum false) enc hc dc
        (rec.header.take (rec.header.length - hc) ++ rec.data.drop dc) f =
      if headerDataSize rec.isShort (replayedHeader f cur rec hc) ≠ rec.data.length then (true, f)
      else env.splitResult (recGetNOwned f false owner) (env.pageDirGetNthSlot slotNo)
        (insertedFrame f false a cur ((seg ++ [owner]).headD 0) (a.insertBuf + rec.extraSize) owner
          (replayedBytes f cur rec a.heapNo
            (linkTo false (a.insertBuf + rec.extraSize) ((seg ++ [owner]).headD 0)) hc dc)) := by
  have hs := h.space ha
  have h1 := hcopy.hdr_le
  have h2 := hcopy.data_le
  have hcur := h.recs_ge hp.mem
  have hinf := h.infimum_le hp.mem
  have hend := hs.end_le
  have htop := hs.top_le
  have hsize := h.size_le
  -- the parts of the encoded header
  have hinfo64 := hrec.info_lt
  have hpos := hrec.fields_pos
  have hshort : rec.isShort.toNat < 2 := Bool.toNat_lt _
  have hn := rec.nFields_lt
  have hencN : enc / 8 + 1 = rec.nFields := by omega
  have hencS : decide (getBits enc 2 1 = 1) = rec.isShort := by
    have : getBits enc 2 1 = rec.isShort.toNat := by simp only [getBits]; omega
    rw [this]
    cases rec.isShort <;> rfl
  have hencI : getBits enc 0 2 = rec.infoBits / 16 := by simp only [getBits]; omega
  have hextra : (6 + if rec.isShort = true then rec.nFields else rec.nFields * 2) =
      rec.extraSize := by
    rw [← hrec.header_length, add_comm]
    rfl
  have hextra' : rec.extraSize = rec.header.length + 6 := rfl
  have hlen : (rec.header.take (rec.header.length - hc)).length = rec.header.length - hc := by simp
  have hlit : rec.extraSize - (hc + 6) = rec.header.length - hc := by omega
  have hge : hc + 6 ≤ cur := by
    by_cases h0 : hc = 0
    · simp only [recNExtraBytes] at hcur
      simp at hcur
      omega
    · have := hcopy.hdr_ge h0
      omega
  have hnext : f.read2 (cur - recNext) = (seg ++ [owner]).headD 0 := hp.next_linked.2
  -- the header that is put together, and the size of the data in it
  have hlen' : (replayedHeader f cur rec hc).length = rec.header.length := replayedHeader_length h1
  have hinfo16 : rec.infoBits / 16 < 16 := by omega
  have hheader := applyHeaderOld_eq f h1 hge rec.isShort hn hinfo16 (rec.data.drop dc)
  obtain ⟨hfields, hflag⟩ := recGetNFieldsOld_fieldsOld zeros (replayedHeader f cur rec hc)
    (fixedBytes f cur) rec.isShort (i := rec.infoBits / 16) hn (r := rec.extraSize)
    (by rw [hlen', hextra'])
  have hdataSize := recGetDataSizeOld_memcpy zeros hpos
    (by rw [hlen', hrec.header_length]) (by rw [hlen', hextra']) hfields hflag
  unfold pageApplyInsertRedundant
  simp only [h.applyHeaderCorrupted_eq, Nat.add_sub_cancel' hinf, hencN, hencS, hencI, hextra,
    h.applyPrevCorruptedOld_eq hp hsup hcopy, hnext, h.applyOwnerSlot_eq hp, hheader,
    hdataSize, hlit]
  rw [if_neg (by decide), if_neg (by decide), if_neg (by simp only [recMaxNFields]; omega),
    if_neg (by omega), if_neg (by simp only [length_append, hlen]; omega)]
  simp only [length_append, hlen, length_drop]
  by_cases hsizeEq : headerDataSize rec.isShort (replayedHeader f cur rec hc) = rec.data.length
  · rw [if_neg (by omega), if_neg (by omega), if_neg (by omega), hsizeEq, h.n_slots,
      h.applyAllocateOld_eq ha rec.bytes_length.symm]
    simp only
    have hlastInsert : a.frame.read2 pageLastInsert = f.read2 pageLastInsert := by
      rw [← read2_lastInsert hs [], memcpy_nil]
    rw [recSetHeapNo_replayed h1 hge hnext _ (a.insertBuf + rec.extraSize),
      slice_memcpy_zero _ (header_length h1 _ _).symm,
      drop_left' hlen, ← write2_read2 _ _ _ pageLastInsert, read2_write2,
      Nat.mod_eq_of_lt (by rw [rec.bytes_length] at hend htop; omega),
      hlastInsert]
    refine (applyFinish_record h hp hs hcopy (header_length h1 _ _) _ _).trans ?_
    simp [replayedBytes]
  · rw [if_pos hsizeEq]
    split_ifs
    · rfl
    · rfl
    · omega

end MariaDB.Page
