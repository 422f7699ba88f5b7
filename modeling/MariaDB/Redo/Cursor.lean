import MariaDB.Redo.Layout

/-!
# The three cursors of the redo log

The writer's `m_last_offset`, the `last_offset` of `parse_tail()` and the one of
`log_phys_t::apply()` are kept independently. `parseStep_record` says exactly what
the parser does with a record that the writer logged while their cursors agreed:
after a `MEMSET` or `MEMMOVE` it advances by the number of payload bytes, and not by
the number of bytes written to the page.
-/
namespace MariaDB.Redo

open Library (Frame)
open PageWrite Mtr List

/-! ## The parser on one written record -/

namespace RecvEnv

variable {env : RecvEnv} {st : ParseState} {type : MrecType} {payload bytes : List UInt8}

lemma getD_append_of_isRecord {samePage : Bool} (h : IsRecord type samePage payload bytes)
    (rest : List UInt8) : (bytes ++ rest).getD 0 0 = bytes.getD 0 0 := by
  have := h.payload_lt
  rw [getD_append]
  omega

/-- A same-page record goes straight to the `switch`. -/
lemma parseStep_samePage (h : IsRecord type true payload bytes) (hres : type ≠ .reserved)
    (hfree : type ≠ .freePage) (hinit : type ≠ .initPage) (hgot : st.gotPageOp = true)
    (hstore : env.storing ≠ .backup) (rest : List UInt8) :
    env.parseStep st (bytes ++ rest) =
      env.finishRecord st false (payload ++ rest) payload.length bytes rest
        (env.parsePageRecord type false st.id st.lastOffset (payload ++ rest) payload.length
          bytes.length) := by
  have hgt := h.first_gt
  have hlt := h.payload_lt
  have hsize : (bytes ++ rest).length - (payload ++ rest).length + payload.length =
      bytes.length := by simp; omega
  unfold parseStep
  simp only [getD_append_of_isRecord h, h.type_eq, h.samePage_eq, h.parse, if_neg (by omega :
    ¬ (bytes.getD 0 0).toNat ≤ 1), hres, false_and, if_false, hgot, and_self, if_true, hstore,
    hfree, hinit, or_self, hsize, drop_left, take_left]

lemma not_binlog (h : space < logBinlogId0) : ¬ space ||| 1 = logBinlogId0 ||| 1 := by
  grind [Nat.or_div_two, logBinlogId0]

/-- A record with a page identifier resets the cursor and goes to the `switch`. A backup
only remembers the page. -/
lemma parseStep_newPage {id : PageId} (h : IsRecord type false
      (mlogEncodeVarint id.space ++ mlogEncodeVarint id.pageNo ++ payload) bytes)
    (hres : type ≠ .reserved) (hspace : id.space < logBinlogId0)
    (hpageNo : id.pageNo < 2 ^ 32 - 1) (hmodify : env.logPageModify id = .ok)
    (rest : List UInt8) :
    env.parseStep st (bytes ++ rest) =
      if env.storing = .backup then .next { st with id := id, gotPageOp := true } rest
      else env.finishRecord { st with id := id, lastOffset := 0, gotPageOp := true } false
        (payload ++ rest) payload.length bytes rest
        (env.parsePageRecord type false id 0 (payload ++ rest) payload.length bytes.length) := by
  have hgt := h.first_gt
  have hlt := h.payload_lt
  have hsize : (bytes ++ rest).length -
      (mlogEncodeVarint id.space ++ mlogEncodeVarint id.pageNo ++ payload ++ rest).length +
      (mlogEncodeVarint id.space ++ mlogEncodeVarint id.pageNo ++ payload).length =
      bytes.length := by simp at hlt ⊢; omega
  have hs0 := varintSize_le id.space
  have hs1 := varintSize_pos id.pageNo
  have hs2 := varintSize_le id.pageNo
  have hspace32 : id.space < 2 ^ 32 := by
    rw [logBinlogId0] at hspace
    omega
  have hspaceErr : id.space ≠ mlogDecodeError := by
    rw [logBinlogId0] at hspace
    rw [mlogDecodeError]
    omega
  have hpageErr : id.pageNo ≠ mlogDecodeError := by
    rw [mlogDecodeError]
    omega
  have hmod : (if env.storing = .yes ∧ id.space ≠ 0 then env.logPageModify id else .ok) = .ok := by
    split_ifs
    · exact hmodify
    · rfl
  unfold parseStep
  simp only [getD_append_of_isRecord h, h.type_eq, h.samePage_eq, h.parse, if_neg (by omega :
    ¬ (bytes.getD 0 0).toNat ≤ 1), hres, false_and, if_false, Bool.false_eq_true, hsize,
    drop_left, take_left]
  unfold parseNewPage
  simp only [append_assoc, decodeVarintLength_encode, decodeVarint_encode hspace32,
    length_append, mlogEncodeVarint_length, drop_varintSize,
    decodeVarint_encode (by omega : id.pageNo < 2 ^ 32), hspaceErr, hpageErr, if_false,
    not_binlog hspace, decide_false, h.samePage_eq, Bool.false_eq_true, Bool.not_false,
    h.type_eq, hmod, Nat.add_sub_cancel_left]
  rw [if_neg (by omega), if_neg (by omega)]
  by_cases hstore : env.storing = .backup
  · simp only [hstore, if_true]
  · simp only [hstore, if_false]

def Inspects (env : RecvEnv) (pageNo : Nat) : Prop :=
  env.storing = .yes ∨ (env.storing = .no ∧ pageNo = 0)

instance (pageNo : Nat) : Decidable (env.Inspects pageNo) := inferInstanceAs (Decidable (_ ∨ _))

/-- After a `MEMSET` the parser advances by the size of the string, and not by its length. -/
lemma parseLengthAndSource_memset (str : List UInt8) (hfit : ofs + len ≤ env.srvPageSize)
    (hlen : len < min4Byte) (hstr : str.length ≤ len) (rest : List UInt8) :
    env.parseLengthAndSource .memset ofs (mlogEncodeVarint len ++ str ++ rest)
      (mlogEncodeVarint len ++ str).length = .accept (ofs + str.length) := by
  have h3 := varintSize_le_three hlen
  have h4 := min4Byte_eq
  unfold parseLengthAndSource
  simp only [append_assoc, length_append, mlogEncodeVarint_length,
    decodeVarintLength_encode, decodeVarint_encode (by omega : len < 2 ^ 32),
    Nat.add_sub_cancel_left, if_true]
  rw [if_neg (by omega), if_neg (by omega), if_neg (by omega)]

lemma memmoveSourceOffset_memmoveSource (hd : d < 2 ^ 16) (hs : s < 2 ^ 16) (hne : s ≠ d) :
    memmoveSourceOffset d (memmoveSource d s) = s := by
  grind [shiftLeft_or, Nat.shiftLeft_eq, memmoveSource, memmoveSourceOffset]

/-- After a `MEMMOVE` the parser advances by the size of the encoded source offset. -/
lemma parseLengthAndSource_memmove (hps : env.srvPageSize ≤ 2 ^ 16) (hd : d + len ≤ env.srvPageSize)
    (hs : s + len ≤ env.srvPageSize) (hlen : 0 < len) (hs8 : 8 ≤ s) (hne : s ≠ d)
    (rest : List UInt8) :
    env.parseLengthAndSource .memmove d
      (mlogEncodeVarint len ++ mlogEncodeVarint (memmoveSource d s) ++ rest)
      (mlogEncodeVarint len ++ mlogEncodeVarint (memmoveSource d s)).length =
      .accept (d + varintSize (memmoveSource d s)) := by
  have h4 := min4Byte_eq
  have hsrc := memmoveSource_lt (d := d) (s := s) (n := 2 ^ 16) (by omega) (by omega)
  have h3 := varintSize_le_three (i := len) (by omega)
  have h3' := varintSize_le_three (i := memmoveSource d s) (by omega)
  unfold parseLengthAndSource
  simp only [append_assoc, length_append, mlogEncodeVarint_length,
    decodeVarintLength_encode, decodeVarint_encode (by omega : len < 2 ^ 32), drop_varintSize,
    decodeVarint_encode (by omega : memmoveSource d s < 2 ^ 32), reduceCtorEq, if_false,
    Nat.add_sub_cancel_left, memmoveSourceOffset_memmoveSource (by omega : d < 2 ^ 16)
    (by omega : s < 2 ^ 16) hne]
  rw [if_neg (by omega), if_neg (by omega), if_neg (by omega), if_neg (by omega)]

end RecvEnv

def PageWrite.parserEnd : PageWrite → Nat
  | .memcpy ofs data => ofs + data.length
  | .memset ofs _ _ => ofs + 1
  | .memsetString ofs _ str => ofs + str.length
  | .memmove d s _ => d + varintSize (memmoveSource d s)
  | _ => filPageType

variable {ps : Nat} {w : PageWrite}

lemma PageWrite.body_ne_nil (h : w.Legal ps b) : w.body ≠ [] := by
  cases w with
  | memcpy => exact h.1
  | memsetString => simp [body, h.1]
  | memmove d s len =>
    have hpos := varintSize_pos len
    intro he
    have hlen := congrArg length he
    simp [body] at hlen
    omega
  | _ => simp [body]

namespace RecvEnv

variable {env : RecvEnv} {body : List UInt8} {base rel : Nat}

/-- `EXTENDED` records of index and undo pages move the cursor to `FIL_PAGE_TYPE`. -/
lemma parsePageRecord_extended (hstore : env.storing = .yes)
    (hbody : body ≠ []) (htrim : body.length = 1 → body.getD 0 0 ≠ trimPages) (id : PageId)
    (base : Nat) (rest : List UInt8) (size : Nat) :
    env.parsePageRecord .extended false id base (body ++ rest) body.length size =
      if size > env.srvPageSize then .corrupted else .accept filPageType := by
  have hpos := length_pos_iff.mpr hbody
  have hget : (body ++ rest).getD 0 0 = body.getD 0 0 := by
    rw [getD_append]
    omega
  unfold parsePageRecord
  simp only [hget, hstore, reduceCtorEq, if_false, Bool.not_false, true_and]
  by_cases hbig : size > env.srvPageSize
  · rw [if_pos ⟨by omega, hbig⟩, if_pos hbig]
  · rw [if_neg (fun h => hbig h.2), if_neg (by omega), if_neg (fun h => htrim h.1 h.2), if_neg hbig]

lemma parsePageRecord_write {type : MrecType} (htype : type.haveOffset = true) (id : PageId)
    (base : Nat) (l : List UInt8) (hlen : 0 < rlen) (size : Nat) :
    env.parsePageRecord type false id base l rlen size =
      if size > env.srvPageSize then .corrupted
      else env.parseWrite type false id.pageNo base l rlen := by
  unfold parsePageRecord
  by_cases hbig : size > env.srvPageSize
  · rw [if_pos ⟨by omega, rfl, hbig⟩, if_pos hbig]
  · rw [if_neg (fun h => hbig h.2.2), if_neg hbig]
    cases type <;> first | rfl | simp [MrecType.haveOffset] at htype

/-- The offset and the length of a `WRITE`, `MEMSET` or `MEMMOVE` record. -/
lemma parsePageRecord_offset (type : MrecType) (htype : type.haveOffset = true) {id : PageId}
    (hpage : env.Inspects id.pageNo) (hbase : base ≠ 1) (hofs : base + rel = ofs)
    (hrel : rel < min4Byte) (hbody : body ≠ []) (hlow : 8 ≤ ofs) (hhigh : ofs < env.srvPageSize)
    (hverdict : (if type = .write then
        if body.length + ofs > env.srvPageSize then .corrupted else .accept (ofs + body.length)
      else env.parseLengthAndSource type ofs (body ++ rest) body.length) = verdict) (size : Nat) :
    env.parsePageRecord type false id base (mlogEncodeVarint rel ++ body ++ rest)
      (mlogEncodeVarint rel ++ body).length size =
      if size > env.srvPageSize then .corrupted else verdict := by
  subst hofs hverdict
  have hpos : 0 < body.length := length_pos_iff.mpr hbody
  have h3 := varintSize_le_three hrel
  have h4 := min4Byte_eq
  have hback : env.storing ≠ .backup := by
    rcases hpage with h | ⟨h, _⟩ <;> rw [h] <;> decide
  have hskip : ¬ (env.storing = .no ∧ id.pageNo ≠ 0) := by
    rintro ⟨h, h'⟩
    rcases hpage with hp | ⟨_, hp⟩
    · rw [h] at hp; exact absurd hp (by decide)
    · exact h' hp
  rw [parsePageRecord_write htype _ _ _ (by rw [length_append]; omega)]
  congr 1
  unfold parseWrite
  simp only [Bool.false_eq_true, and_false, if_false, hback, or_false, hskip, append_assoc,
    length_append, mlogEncodeVarint_length, decodeVarintLength_encode,
    decodeVarint_encode (by omega : rel < 2 ^ 32), drop_varintSize, Nat.add_sub_cancel_left]
  rw [if_neg (by omega), if_neg (by omega), if_neg (by omega), if_neg (by omega)]

lemma Inspects.storing_yes (h : env.Inspects pageNo) (hno : 3 ≤ pageNo) : env.storing = .yes := by
  rcases h with h | ⟨_, h⟩
  · exact h
  · omega

lemma parsePageRecord_op {op : MtrOp} (hps : env.srvPageSize ≤ 2 ^ 16)
    (hop : op.Legal env.srvPageSize) (hpage : env.Inspects op.block.id.pageNo)
    (hbase : base ≠ 1) (hrel : op.write.type.haveOffset = true → base + rel = op.write.offset)
    (rest : List UInt8) (size : Nat) :
    env.parsePageRecord op.write.type false op.block.id base
      ((if op.write.type.haveOffset then mlogEncodeVarint rel else []) ++ op.write.body ++ rest)
      ((if op.write.type.haveOffset then mlogEncodeVarint rel else []) ++ op.write.body).length
      size = if size > env.srvPageSize then .corrupted else .accept op.write.parserEnd := by
  obtain ⟨block, w⟩ := op
  have hsize : block.physicalSize env.srvPageSize ≤ env.srvPageSize := hop.size_le
  have hw : w.Legal env.srvPageSize block := hop.write
  have hbody := body_ne_nil hw
  have h4 := min4Byte_eq
  cases w with
  | memcpy ofs =>
    obtain ⟨hdata, hlow, hhigh⟩ := hw
    have hr : base + rel = ofs := hrel rfl
    have hpos := length_pos_iff.mpr hdata
    refine parsePageRecord_offset .write rfl hpage hbase hr (by omega) hdata hlow (by omega) ?_ _
    rw [if_pos rfl, if_neg (by omega)]
    rfl
  | memset ofs len val =>
    obtain ⟨hpos, hlow, hhigh⟩ := hw
    have hr : base + rel = ofs := hrel rfl
    refine parsePageRecord_offset .memset rfl hpage hbase hr (by omega) hbody hlow (by omega) ?_ _
    exact parseLengthAndSource_memset [val] (by omega) (by omega) hpos rest
  | memsetString ofs len str =>
    obtain ⟨hstr, hpos, hlow, hhigh⟩ := hw
    have hr : base + rel = ofs := hrel rfl
    refine parsePageRecord_offset .memset rfl hpage hbase hr (by omega) hbody hlow (by omega) ?_ _
    exact parseLengthAndSource_memset str (by omega) (by omega) (by omega) rest
  | memmove d =>
    obtain ⟨hd, hs, hpos, hsd, hsrc, hdst⟩ := hw
    have hr : base + rel = d := hrel rfl
    refine parsePageRecord_offset .memmove rfl hpage hbase hr (by omega) hbody hd (by omega) ?_ _
    exact parseLengthAndSource_memmove hps (by omega) (by omega) hpos hs hsd rest
  | extended =>
    obtain ⟨hundo, htype⟩ := hw
    refine parsePageRecord_extended (hpage.storing_yes hundo.2) hbody ?_ _ _ _ _
    rintro -
    rcases htype with rfl | rfl | rfl <;> decide
  | deleteRedundant | deleteDynamic | undoAppend =>
    obtain ⟨hundo, -⟩ := hw
    refine parsePageRecord_extended (hpage.storing_yes hundo.2) hbody ?_ _ _ _ _
    simp only [body, getD_cons_zero]
    rintro -
    decide

end RecvEnv

lemma PageWrite.body_length_le {b : Block}
    (hsize : b.physicalSize ps ≤ ps) (h : w.Legal ps b) : w.body.length ≤ ps + 16 := by
  have hv := varintSize_le
  cases w with
  | memcpy => obtain ⟨_, _, _⟩ := h; simp only [body]; omega
  | memset ofs len => have := hv len; simp [body]; omega
  | memsetString ofs len =>
    obtain ⟨_, _, _, _⟩ := h
    have := hv len
    simp [body]
    omega
  | memmove d s len =>
    have := hv len
    have := hv (memmoveSource d s)
    simp [body]
    omega
  | extended => simp [body]
  | deleteRedundant prevRec => have := hv prevRec; simp [body]; omega
  | deleteDynamic prevRec hdrSize dataSize =>
    have := hv prevRec
    have := hv hdrSize
    have := hv dataSize
    simp [body]
    omega
  | undoAppend => obtain ⟨_, _, _⟩ := h; simp [body]; omega

lemma Mtr.recordTail_length_le_add (m : Mtr) (op : MtrOp) : (m.recordTail op).length ≤ 15 := by
  have h1 := varintSize_le op.block.id.space
  have h2 := varintSize_le op.block.id.pageNo
  have h3 := varintSize_le (m.relOffset op)
  unfold recordTail
  split_ifs <;> simp <;> omega

variable {op : MtrOp}

lemma Mtr.record_isRecord (hps : ps ≤ 2 ^ 16) (m : Mtr) (hop : op.Legal ps) :
    IsRecord op.write.type (m.samePage op) (m.payload op) (m.record op) := by
  have hle := body_length_le hop.size_le hop.write
  have hpos := length_pos_iff.mpr (body_ne_nil hop.write)
  have htail := m.recordTail_length_le_add op
  refine mkRecord_isRecord _ op.write.type_ne_freePage ?_ ?_ <;>
    rw [payload_eq, length_append] <;> omega

variable {m : Mtr}

lemma Mtr.record_samePage (hps : ps ≤ 2 ^ 16) (hop : op.Legal ps) (hs : m.samePage op = true) :
    IsRecord op.write.type true (m.pagePayload op) (m.record op) := by
  have h := m.record_isRecord hps hop
  rwa [payload, hs, if_pos rfl, nil_append] at h

lemma Mtr.record_newPage (hps : ps ≤ 2 ^ 16) (hop : op.Legal ps) (hs : m.samePage op = false) :
    IsRecord op.write.type false (mlogEncodeVarint op.block.id.space ++
      mlogEncodeVarint op.block.id.pageNo ++ m.pagePayload op) (m.record op) := by
  have h := m.record_isRecord hps hop
  rwa [payload, hs, if_neg (by decide)] at h

lemma Mtr.relOffset_samePage (hs : m.samePage op = true)
    (ho : op.write.type.haveOffset = true) : m.lastOffset + m.relOffset op = op.write.offset := by
  rw [relOffset, if_pos hs]
  simp only [samePage, decide_eq_true_eq] at hs
  exact Nat.add_sub_cancel' (hs.2 ho)

structure InSync (env : RecvEnv) (m : Mtr) (st : ParseState) : Prop where
  logged : m.isLogged = true
  uncorrupted : st.corrupted = false
  page : ∀ id, m.last = some id → st.gotPageOp = true ∧ st.id = id
  cursor : ∀ id, m.last = some id → env.Inspects id.pageNo → st.lastOffset = m.lastOffset
  past_header : ∀ id, m.last = some id → 8 < m.lastOffset

namespace RecvEnv

variable {env : RecvEnv}

def Stores (env : RecvEnv) (id : PageId) : Prop :=
  env.storing = .yes ∧ ¬ (env.ifExists = true ∧ env.parseStoreIfExists id.space = false) ∧
    env.willAvoidRead id = false

instance (id : PageId) : Decidable (env.Stores id) := inferInstanceAs (Decidable (_ ∧ _))

lemma finishRecord_accept (st : ParseState) (l : List UInt8) (rlen : Nat)
    (recs rest : List UInt8) (ofs : Nat) :
    env.finishRecord st false l rlen recs rest (.accept ofs) =
      .next { st with
        lastOffset := ofs
        stored := if env.Stores st.id then st.stored ++ [(st.id, recs)] else st.stored } rest := by
  grind [finishRecord, Stores]

lemma parsePageRecord_any (hps : env.srvPageSize ≤ 2 ^ 16) (hstore : env.storing ≠ .backup)
    (hop : op.Legal env.srvPageSize) (hbase : env.Inspects op.block.id.pageNo → base ≠ 1 ∧
      (op.write.type.haveOffset = true → base + rel = op.write.offset)) (rest : List UInt8)
    (size : Nat) :
    env.parsePageRecord op.write.type false op.block.id base
      ((if op.write.type.haveOffset then mlogEncodeVarint rel else []) ++ op.write.body ++ rest)
      ((if op.write.type.haveOffset then mlogEncodeVarint rel else []) ++ op.write.body).length
      size = if size > env.srvPageSize then .corrupted
        else if env.Inspects op.block.id.pageNo then .accept op.write.parserEnd
        else .skip base := by
  by_cases hpage : env.Inspects op.block.id.pageNo
  · obtain ⟨hne, hrel⟩ := hbase hpage
    rw [if_pos hpage, parsePageRecord_op hps hop hpage hne hrel]
  · rw [if_neg hpage]
    -- only `storing == NO` is left, where the payload is ignored
    have hno : env.storing = .no ∧ op.block.id.pageNo ≠ 0 := by
      simp only [Inspects] at hpage
      cases h : env.storing <;> simp_all
    have hpos := length_pos_iff.mpr (body_ne_nil hop.write)
    cases ho : op.write.type.haveOffset with
    | true =>
      rw [parsePageRecord_write ho _ _ _ (by rw [length_append]; omega)]
      congr 1
      unfold parseWrite
      simp [hno]
    | false =>
      have htype : op.write.type = .extended := by
        cases hw : op.write <;> simp_all [type, MrecType.haveOffset]
      rw [htype]
      unfold parsePageRecord
      by_cases hbig : size > env.srvPageSize
      · rw [if_pos ⟨by simp; exact body_ne_nil hop.write, rfl, hbig⟩, if_pos hbig]
      · rw [if_neg (fun h => hbig h.2.2), if_neg hbig]
        exact if_pos hno.1

def afterRecord (env : RecvEnv) (st : ParseState) (op : MtrOp) (recs : List UInt8)
    (lastOffset : Nat) : ParseState :=
  ⟨op.block.id, lastOffset, true, if env.Stores op.block.id then
    st.stored ++ [(op.block.id, recs)] else st.stored, st.corrupted⟩

lemma parseStep_record (hps : env.srvPageSize ≤ 2 ^ 16) (hstore : env.storing ≠ .backup)
    (hop : op.Legal env.srvPageSize) (hmodify : env.logPageModify op.block.id = .ok)
    (hsync : InSync env m st) (rest : List UInt8) :
    env.parseStep st (m.record op ++ rest) =
      if (m.record op).length > env.srvPageSize then
        env.recordCorrupted { st with
          id := op.block.id
          gotPageOp := true
          lastOffset := if m.samePage op then st.lastOffset else 0 } rest
      else .next (env.afterRecord st op (m.record op)
        (if env.Inspects op.block.id.pageNo then op.write.parserEnd
          else if m.samePage op then st.lastOffset else 0)) rest := by
  have hres : op.write.type ≠ .reserved := by cases op.write <;> simp [type]
  have hinit : op.write.type ≠ .initPage := by cases op.write <;> simp [type]
  -- the record is handled in the same way once its page is known
  obtain ⟨base, hlast, hstep, hbase⟩ : ∃ base, (if m.samePage op then st.lastOffset else 0) = base ∧
      env.parseStep st (m.record op ++ rest) = env.finishRecord
        { st with id := op.block.id, gotPageOp := true, lastOffset := base } false
        (m.pagePayload op ++ rest) (m.pagePayload op).length (m.record op) rest
        (env.parsePageRecord op.write.type false op.block.id base (m.pagePayload op ++ rest)
          (m.pagePayload op).length (m.record op).length) ∧
      (env.Inspects op.block.id.pageNo → base ≠ 1 ∧
        (op.write.type.haveOffset = true → base + m.relOffset op = op.write.offset)) := by
    cases hs : m.samePage op with
    | true =>
      have hlast := samePage_last hs
      obtain ⟨hgot, hid⟩ := hsync.page _ hlast
      refine ⟨_, rfl, ?_, fun hpage => ?_⟩
      · rw [parseStep_samePage (record_samePage hps hop hs) hres op.write.type_ne_freePage hinit
          hgot hstore, if_pos rfl, ← hid, ← hgot]
      · have hcur := hsync.cursor _ hlast hpage
        have hpast := hsync.past_header _ hlast
        exact ⟨by simp only [if_true]; omega, fun ho => hcur ▸ relOffset_samePage hs ho⟩
    | false =>
      refine ⟨_, rfl, ?_, fun hpage => ⟨by simp, fun ho => ?_⟩⟩
      · rw [parseStep_newPage (record_newPage hps hop hs) hres hop.space_lt hop.pageNo_lt hmodify,
          if_neg hstore]
        rfl
      · simp [relOffset, hs]
  rw [hstep, hlast, pagePayload, parsePageRecord_any hps hstore hop hbase]
  by_cases hbig : (m.record op).length > env.srvPageSize
  · rw [if_pos hbig, if_pos hbig]
    rfl
  · rw [if_neg hbig, if_neg hbig]
    by_cases hpage : env.Inspects op.block.id.pageNo
    · rw [if_pos hpage, if_pos hpage, finishRecord_accept]
      rfl
    · rw [if_neg hpage, if_neg hpage]
      have hst : ¬ env.Stores op.block.id := fun h => hpage (.inl h.1)
      simp [finishRecord, afterRecord, hst]

lemma parseStep_backup {st : ParseState} (hps : env.srvPageSize ≤ 2 ^ 16)
    (hstore : env.storing = .backup) (hop : op.Legal env.srvPageSize)
    (hmodify : env.logPageModify op.block.id = .ok) (hsync : InSync env m st) (rest : List UInt8) :
    ∃ st', env.parseStep st (m.record op ++ rest) = .next st' rest ∧ st'.gotPageOp = true ∧
      st'.id = op.block.id ∧ st'.corrupted = st.corrupted := by
  have hres : op.write.type ≠ .reserved := by cases op.write <;> simp [type]
  cases hs : m.samePage op with
  | true =>
    obtain ⟨hgot, hid⟩ := hsync.page _ (samePage_last hs)
    have hrec := record_samePage hps hop hs
    have hgt := hrec.first_gt
    refine ⟨st, ?_, hgot, hid, rfl⟩
    unfold parseStep
    simp only [getD_append_of_isRecord hrec, hrec.type_eq, hrec.samePage_eq, hrec.parse,
      if_neg (by omega : ¬ ((m.record op).getD 0 0).toNat ≤ 1), hres, false_and, if_false, hgot,
      and_self, if_true, hstore, drop_left]
  | false =>
    refine ⟨{ st with id := op.block.id, gotPageOp := true }, ?_, rfl, rfl, rfl⟩
    rw [parseStep_newPage (record_newPage hps hop hs) hres hop.space_lt hop.pageNo_lt hmodify,
      if_pos hstore]

end RecvEnv

/-! ## When the cursors agree -/

def writeRecordSize (id : PageId) (ofs len : Nat) : Nat :=
  let n := varintSize id.space + varintSize id.pageNo + varintSize ofs + len
  1 + n + if n < 16 then 0 else if n < 142 then 1 else if n < 16525 then 2 else 3

/-- The writes after which the parser's cursor is where the operation ended. -/
def Faithful (srvPageSize : Nat) (m : Mtr) (op : MtrOp) : Prop :=
  match op.write with
  | .memcpy ofs data => ofs + data.length < 2 ^ 16 ∧
      (m.samePage op = false → writeRecordSize op.block.id ofs data.length ≤ srvPageSize)
  | .memset ofs len _ => len = 1 ∧ ofs + len < 2 ^ 16
  | .memsetString .. => False
  | .memmove d s len => len = varintSize (memmoveSource d s) ∧ d + len < 2 ^ 16
  | _ => True

lemma lengthBytes_length (hn : n < 2 ^ 20) : (lengthBytes n).length =
      if n < 16 then 0 else if n < 142 then 1 else if n < 16525 then 2 else 3 := by
  unfold lengthBytes
  split_ifs with h1 h2 h3
  · rfl
  all_goals
    rw [mlogEncodeVarint_length]
    unfold varintSize extraLength
    have h2' := min2Byte_eq
    have h3' := min3Byte_eq
    have h4' := min4Byte_eq
    split_ifs <;> omega

lemma lengthBytes_length_le (hn : n < 2 ^ 20) : (lengthBytes n).length ≤ 3 := by
  rw [lengthBytes_length hn]
  split_ifs <;> omega

lemma Mtr.record_length (m : Mtr) (op : MtrOp) : (m.record op).length =
      1 + (m.recordTail op).length + op.write.body.length +
        (lengthBytes ((m.recordTail op).length + op.write.body.length)).length := by
  simp only [record, mkRecord, payload_eq, length_cons, length_append]
  omega

lemma Mtr.recordTail_length (m : Mtr) (op : MtrOp) : (m.recordTail op).length =
      (if m.samePage op then 0
        else varintSize op.block.id.space + varintSize op.block.id.pageNo) +
      (if op.write.type.haveOffset then varintSize (m.relOffset op) else 0) := by
  unfold recordTail
  split_ifs <;> simp [add_assoc]

lemma faithful_iff (hmin : 4096 ≤ ps) (hps : ps ≤ 2 ^ 16) (m : Mtr) (hop : op.Legal ps) :
    Faithful ps m op ↔
      (m.record op).length ≤ ps ∧ op.write.parserEnd = op.write.endOffset % 2 ^ 16 := by
  have hle := body_length_le hop.size_le hop.write
  have htail := m.recordTail_length_le_add op
  have hlen := m.record_length op
  have h3 := lengthBytes_length_le (n := (m.recordTail op).length + op.write.body.length) (by omega)
  have hv := varintSize_le
  obtain ⟨block, w⟩ := op
  have hsize : block.physicalSize ps ≤ ps := hop.size_le
  have hw : w.Legal ps block := hop.write
  cases w with
  | memcpy ofs data =>
    obtain ⟨hdata, hlow, hhigh⟩ := hw
    simp only [body] at hle hlen h3
    simp only [Faithful, parserEnd, endOffset]
    cases hs : m.samePage ⟨block, .memcpy ofs data⟩ with
    | true =>
      have h4 := min4Byte_eq
      have hrel : m.relOffset ⟨block, .memcpy ofs data⟩ ≤ ofs := by
        rw [relOffset, if_pos hs]
        exact Nat.sub_le _ _
      have hrel3 := varintSize_le_three (i := m.relOffset ⟨block, .memcpy ofs data⟩) (by omega)
      have ht := m.recordTail_length ⟨block, .memcpy ofs data⟩
      rw [if_pos hs, if_pos (by rfl)] at ht
      simp only [reduceCtorEq, false_imp_iff, and_true]
      omega
    | false =>
      have ht := m.recordTail_length ⟨block, .memcpy ofs data⟩
      have hrel : m.relOffset ⟨block, .memcpy ofs data⟩ = ofs := by
        rw [relOffset, if_neg (by simp [hs])]
        rfl
      rw [if_neg (by simp [hs]), if_pos (by rfl), hrel] at ht
      have hfit : (m.record ⟨block, .memcpy ofs data⟩).length =
          writeRecordSize block.id ofs data.length := by
        rw [hlen, lengthBytes_length (by omega), ht, writeRecordSize]
        dsimp only
        omega
      rw [hfit]
      simp only [true_imp_iff]
      omega
  | memset ofs len =>
    obtain ⟨hpos, hlow, hhigh⟩ := hw
    have := hv len
    simp only [Faithful, parserEnd, endOffset, body,
      length_append, mlogEncodeVarint_length, length_singleton] at *
    omega
  | memsetString =>
    obtain ⟨hstr, hpos, hlow, hhigh⟩ := hw
    simp only [Faithful, parserEnd, endOffset, false_iff, not_and]
    omega
  | memmove d s len =>
    obtain ⟨hd, hs, hpos, hsd, hsrc, hdst⟩ := hw
    have := hv len
    have := hv (memmoveSource d s)
    simp only [Faithful, parserEnd, endOffset, body, length_append, mlogEncodeVarint_length] at *
    omega
  | extended =>
    simp only [Faithful, parserEnd, endOffset, body, filPageType, length_singleton, true_iff] at *
    omega
  | deleteRedundant prevRec =>
    have := hv prevRec
    simp only [Faithful, parserEnd, endOffset, body, filPageType,
      length_cons, mlogEncodeVarint_length, true_iff] at *
    omega
  | deleteDynamic prevRec hdrSize dataSize =>
    have := hv prevRec
    have := hv hdrSize
    have := hv dataSize
    simp only [Faithful, parserEnd, endOffset, body, filPageType,
      length_cons, length_append, mlogEncodeVarint_length, true_iff] at *
    omega
  | undoAppend =>
    obtain ⟨_, _, _⟩ := hw
    simp only [Faithful, parserEnd, endOffset, body, filPageType, length_cons, true_iff] at *
    omega

end MariaDB.Redo
