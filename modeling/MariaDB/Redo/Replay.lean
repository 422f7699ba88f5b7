import MariaDB.Redo.Cursor

/-!
# Replaying written records on a page

`log_phys_t::apply()` on the records that the writer logged for one page: as long as
its cursor agrees with `m_last_offset`, each record changes the frame at the offset
that the writer meant, and the cursors agree again.
-/
namespace MariaDB.Redo

open Library (Frame)
open PageWrite List

/-- What a page-level write does to the frame, with the page operations of recovery. -/
def PageWrite.replay (ops : PageOps) (b : Block) : PageWrite → Frame → Frame
  | .memcpy ofs data, f => f.memcpy ofs data
  | .memset ofs len val, f => f.memset ofs len val
  | .memsetString ofs len str, f => f.memcpy ofs ((List.range len).map fun i =>
      str.getD (i % str.length) 0)
  | .memmove d s len, f => f.memmove d s len
  | .extended type, f => if type = undoInit then ops.trxUndoPageInit b f
      else ops.pageCreateLow b (type != initRowFormatRedundant) f
  | .deleteRedundant prevRec, f => (ops.pageApplyDeleteRedundant b prevRec f).2
  | .deleteDynamic prevRec hdrSize dataSize, f =>
      (ops.pageApplyDeleteDynamic b prevRec hdrSize dataSize f).2
  | .undoAppend data, f => (ops.undoAppend b data f).2

/-- The page operation that an `EXTENDED` record stands for: whether it finds the page
corrupted, and the frame. -/
def PageWrite.extendedResult (ops : PageOps) (b : Block) : PageWrite → Frame → Bool × Frame
  | .extended type, f => (false, if type = undoInit then ops.trxUndoPageInit b f
      else ops.pageCreateLow b (type != initRowFormatRedundant) f)
  | .deleteRedundant prevRec, f => ops.pageApplyDeleteRedundant b prevRec f
  | .deleteDynamic prevRec hdrSize dataSize, f =>
      ops.pageApplyDeleteDynamic b prevRec hdrSize dataSize f
  | .undoAppend data, f => ops.undoAppend b data f
  | _, f => (false, f)

def PageWrite.WholeCopies : PageWrite → Prop
  | .memsetString _ len str => str.length ∣ len
  | _ => True

lemma flatten_replicate_eq (str : List UInt8) (n : Nat) : (replicate n str).flatten =
      (range (n * str.length)).map fun i => str.getD (i % str.length) 0 := by
  induction n with
  | zero => simp
  | succ n ih =>
    have hcopy : (range str.length).map
        (fun i => str.getD ((n * str.length + i) % str.length) 0) = str := by
      refine ext_getElem (by simp) fun i hi hi' => ?_
      simp [add_comm (n * str.length), Nat.mod_eq_of_lt hi', getD, hi']
    rw [replicate_succ', flatten_append, ih, Nat.succ_mul, range_add, map_append, map_map]
    simp only [flatten_singleton]
    exact congrArg _ hcopy.symm

namespace ApplyEnv

variable {env : ApplyEnv} {b : Block} {a : ApplyState} {type : MrecType}
  {payload bytes : List UInt8}

lemma applyStep_samePage (h : IsRecord type true payload bytes) (rest : List UInt8) :
    env.applyStep b a (bytes ++ rest) =
      env.finish a rest (env.applyRecord b type a (payload ++ rest) payload.length) := by
  unfold applyStep
  simp only [RecvEnv.getD_append_of_isRecord h, h.type_eq, h.samePage_eq, h.parse, h.first_ne,
    if_false, if_true, drop_left]

lemma applyStep_newPage {id : PageId} (h : IsRecord type false
      (mlogEncodeVarint id.space ++ mlogEncodeVarint id.pageNo ++ payload) bytes)
    (rest : List UInt8) :
    env.applyStep b a (bytes ++ rest) =
      env.finish { a with lastOffset := 0 } rest
        (env.applyRecord b type { a with lastOffset := 0 } (payload ++ rest) payload.length) := by
  have hskip : skipPageId
      (mlogEncodeVarint id.space ++ mlogEncodeVarint id.pageNo ++ payload ++ rest)
      (mlogEncodeVarint id.space ++ mlogEncodeVarint id.pageNo ++ payload).length =
      (payload ++ rest, payload.length) := by
    unfold skipPageId
    simp only [append_assoc, decodeVarintLength_encode, drop_varintSize, length_append,
      mlogEncodeVarint_length, Nat.add_sub_cancel_left]
  unfold applyStep
  simp only [RecvEnv.getD_append_of_isRecord h, h.type_eq, h.samePage_eq, h.parse, h.first_ne,
    if_false, Bool.false_eq_true, drop_left, hskip]

/-- A record was replayed, or a page operation found the page corrupted. -/
def Replayed (a : ApplyState) (frame : Frame) (lastOffset : Nat) : ApplyVerdict → Prop
  | .applied a' => a'.frame = frame ∧ a'.lastOffset = lastOffset ∧
      a'.recordCorrupted = a.recordCorrupted
  | .pageCorrupted a' => a'.recordCorrupted = a.recordCorrupted
  | _ => False

lemma replayed_pageOp (result : Bool × Frame) :
    Replayed a result.2 filPageType (env.pageOp a result) := by
  unfold pageOp
  split_ifs
  · exact rfl
  · exact ⟨rfl, rfl, rfl⟩

/-- The offset of a `WRITE`, `MEMSET` or `MEMMOVE` record. -/
lemma applyWrite_offset (type : MrecType) {body : List UInt8} (hbase : a.lastOffset ≠ 1)
    (hrel : rel < min4Byte) (hofs : a.lastOffset + rel = ofs) (hofs16 : ofs < 2 ^ 16)
    (hbody : body ≠ []) (hlow : 8 ≤ ofs) (hhigh : ofs < b.physicalSize env.srvPageSize)
    (rest : List UInt8) :
    env.applyWrite b type a (mlogEncodeVarint rel ++ body ++ rest)
      (mlogEncodeVarint rel ++ body).length =
      if type = .write then
        if body.length + ofs > b.physicalSize env.srvPageSize then .recordCorrupted
        else afterWrite { a with
            lastOffset := ofs
            applied := env.writeStatus b { a with lastOffset := ofs } body.length }
          (a.frame.memcpy ofs body) body.length
      else env.applyLengthAndSource b type { a with lastOffset := ofs } (body ++ rest)
        body.length := by
  have hpos : 0 < body.length := length_pos_iff.mpr hbody
  have h3 := varintSize_le_three hrel
  have hmod : (a.lastOffset + rel) % 2 ^ 16 = ofs := by omega
  unfold applyWrite
  simp only [append_assoc, length_append, mlogEncodeVarint_length,
    decodeVarintLength_encode, decodeVarint_encode (by omega : rel < 2 ^ 32), drop_varintSize,
    Nat.add_sub_cancel_left, hmod, take_left]
  rw [if_neg hbase, if_neg (by omega), if_neg (by omega), if_neg (by omega)]

lemma decodeField_encode (hi : i < min4Byte) (hmax : varintSize i ≤ maxLen) (hmore : more ≤ n)
    (l : List UInt8) :
    decodeField maxLen more (mlogEncodeVarint i ++ l) (varintSize i + n) = some (i, l, n) := by
  have h4 := min4Byte_eq
  unfold decodeField
  simp only [decodeVarintLength_encode, decodeVarint_encode (by omega : i < 2 ^ 32),
    drop_varintSize, Nat.add_sub_cancel_left]
  rw [if_neg (by omega)]

variable (hps : env.srvPageSize ≤ 2 ^ 16) {m : Mtr} {w : PageWrite}

attribute [local simp] MrecType.haveOffset type

include hps in
/-- The `EXTENDED` records execute the page operation that they stand for. -/
lemma applyExtended_eq (hw : w.Legal env.srvPageSize b) (htype : w.type = .extended)
    (rest : List UInt8) :
    env.applyExtended b a (w.body ++ rest) w.body.length =
      env.pageOp a (w.extendedResult env.ops b a.frame) := by
  have h4 := min4Byte_eq
  have h3 := min3Byte_eq
  cases w with
  | memcpy | memset | memsetString | memmove => simp at htype
  | extended =>
    obtain ⟨⟨hzip, hno⟩, htype⟩ := hw
    unfold applyExtended
    simp only [body, length_singleton, cons_append, getD_cons_zero,
      ne_eq, not_true_eq_false, if_false]
    rw [if_neg (by omega), if_neg (by omega)]
    rcases htype with rfl | rfl | rfl
    · rw [if_pos (.inl rfl)]
      rfl
    · rw [if_pos (.inr rfl)]
      rfl
    · rw [if_neg (by decide), if_pos rfl]
      rfl
  | deleteRedundant prevRec =>
    obtain ⟨⟨hzip, hno⟩, hprev⟩ := hw
    have hpos := varintSize_pos prevRec
    have hle := varintSize_le_three (i := prevRec) (by omega)
    unfold applyExtended
    simp only [body, length_cons, mlogEncodeVarint_length, cons_append,
      getD_cons_zero, drop_succ_cons, drop_zero, decodeVarintLength_encode,
      decodeVarint_encode (by omega : prevRec < 2 ^ 32), Nat.add_sub_cancel]
    rw [if_neg (by omega), if_neg (by omega), if_neg (by decide), if_neg (by decide),
      if_neg (by decide), if_neg (by decide), if_pos trivial, if_neg (by omega), if_neg (by simp)]
    rfl
  | deleteDynamic prevRec hdrSize dataSize =>
    obtain ⟨⟨hzip, hno⟩, hprev, hhdr, hdata⟩ := hw
    have hp3 := varintSize_le_three (i := prevRec) (by omega)
    have hd3 := varintSize_le_three (i := dataSize) (by omega)
    have hd0 := varintSize_pos dataSize
    unfold applyExtended
    simp only [body, length_cons, length_append, mlogEncodeVarint_length,
      cons_append, getD_cons_zero, drop_succ_cons, drop_zero,
      append_assoc, Nat.add_sub_cancel]
    rw [if_neg (by omega), if_neg (by omega), if_neg (by decide), if_neg (by decide),
      if_neg (by decide), if_neg (by decide), if_neg (by decide), if_pos trivial, if_neg (by omega),
      decodeField_encode (by omega) hp3 (by omega)]
    simp only
    rw [decodeField_encode (by omega) (hdrlen_le hhdr) (by omega)]
    simp only [decodeVarintLength_encode, decodeVarint_encode (by omega : dataSize < 2 ^ 32)]
    rw [if_neg (by omega)]
    rfl
  | undoAppend =>
    obtain ⟨⟨hzip, hno⟩, hlen, _⟩ := hw
    unfold applyExtended
    simp only [body, length_cons, cons_append, getD_cons_zero,
      drop_succ_cons, drop_zero, Nat.add_sub_cancel, take_left]
    rw [if_neg (by omega), if_neg (by omega), if_neg (by decide), if_neg (by decide),
      if_pos trivial, if_neg (by omega)]
    rfl

include hps in
/-- The `EXTENDED` records replay the page operation that they stand for. -/
lemma replayed_extended (hw : w.Legal env.srvPageSize b)
    (htype : w.type = .extended) (rest : List UInt8) :
    Replayed a (w.replay env.ops b a.frame) filPageType
      (env.applyExtended b a (w.body ++ rest) w.body.length) := by
  have hframe : w.replay env.ops b a.frame = (w.extendedResult env.ops b a.frame).2 := by
    cases w <;> first | rfl | simp at htype
  rw [applyExtended_eq hps hw htype, hframe]
  exact replayed_pageOp _

/-- The loop over a range of `n` whole copies. -/
lemma memsetLoop_mul {ofs len n fuel s : Nat} {str : List UInt8} (hstr : str ≠ [])
    (hfuel : n ≤ fuel) (hs : s + n * str.length = len) (f : Frame) :
    memsetLoop ofs len str fuel s f = (f.memcpy (ofs + s) (replicate n str).flatten, len) := by
  have hpos := length_pos_iff.mpr hstr
  induction n generalizing fuel s f with
  | zero =>
    obtain rfl : s = len := by omega
    cases fuel <;> simp [memsetLoop, Frame.memcpy_nil]
  | succ n ih =>
    obtain ⟨fuel, rfl⟩ : ∃ k, fuel = k + 1 := ⟨fuel - 1, by omega⟩
    rw [Nat.succ_mul] at hs
    rw [memsetLoop, if_pos (by omega), ih (by omega) (by omega), ← add_assoc,
      Frame.memcpy_append, replicate_succ, flatten_cons]

lemma memsetLoop_end {ofs len fuel s : Nat} {str : List UInt8} (hstr : str ≠ [])
    (hfuel : len ≤ s + fuel) (hs : str.length ∣ s) (f : Frame) :
    len ≤ (memsetLoop ofs len str fuel s f).2 ∧
      str.length ∣ (memsetLoop ofs len str fuel s f).2 := by
  have hpos := length_pos_iff.mpr hstr
  induction fuel generalizing s f with
  | zero => exact ⟨hfuel, hs⟩
  | succ fuel ih =>
    rw [memsetLoop]
    split_ifs with hlt
    · exact ih (by omega) ((Nat.dvd_add_right hs).mpr dvd_rfl) _
    · exact ⟨by simpa using hlt, hs⟩

lemma memset_eq_memcpy (f : Frame) (ofs len : Nat) (val : UInt8) : f.memset ofs len val =
      f.memcpy ofs ((range len).map fun i => [val].getD (i % [val].length) 0) := by
  refine Frame.ext fun i => ?_
  simp only [Frame.memset, Frame.memcpy, length_map, length_range]
  split_ifs with hi
  · simp [getD, show i - ofs < len by omega, Nat.mod_one]
  · rfl

lemma applyLengthAndSource_memset {ofs len : Nat} {str : List UInt8} (hstr : str ≠ [])
    (hlen : len < min4Byte) (hhigh : ofs + len ≤ b.physicalSize env.srvPageSize)
    (hofs : a.lastOffset = ofs) (rest : List UInt8) :
    env.applyLengthAndSource b .memset a (mlogEncodeVarint len ++ str ++ rest)
      (mlogEncodeVarint len ++ str).length =
      if str.length ∣ len then
        afterWrite a (a.frame.memcpy ofs ((range len).map fun i =>
          str.getD (i % str.length) 0)) len
      else .undefined := by
  have h4 := min4Byte_eq
  have h3 := varintSize_le_three hlen
  have hpos := length_pos_iff.mpr hstr
  unfold applyLengthAndSource
  simp only [append_assoc, length_append, mlogEncodeVarint_length,
    decodeVarintLength_encode, decodeVarint_encode (by omega : len < 2 ^ 32), drop_varintSize,
    Nat.add_sub_cancel_left, hofs, if_true]
  rw [if_neg (by omega), if_neg (by omega)]
  by_cases hone : str.length = 1
  · -- a single byte is filled by `memset()`
    obtain ⟨val, rfl⟩ := length_eq_one_iff.mp hone
    rw [if_neg (by simp), if_pos (by simp)]
    exact congrArg (afterWrite a · len) (memset_eq_memcpy ..)
  · rw [if_pos hone, take_left]
    by_cases hdvd : str.length ∣ len
    · obtain ⟨n, rfl⟩ := hdvd
      rw [memsetLoop_mul (n := n) hstr (by nlinarith) (by rw [mul_comm]; omega),
        if_neg (lt_irrefl _), if_pos (dvd_mul_right _ _)]
      simp [Frame.memcpy_nil, flatten_replicate_eq, mul_comm n]
    · obtain ⟨hle, hend⟩ := @memsetLoop_end ofs len len 0 str hstr
        (Nat.le_add_left len 0) (dvd_zero _) a.frame
      have hne : (memsetLoop ofs len str len 0 a.frame).2 ≠ len := fun h => hdvd (h ▸ hend)
      rw [if_pos (by omega), if_neg hdvd]

lemma replayed_afterWrite (st : ApplyState) (hst : st.recordCorrupted = a.recordCorrupted)
    (frame : Frame) (llen : Nat) :
    Replayed a frame ((st.lastOffset + llen) % 2 ^ 16) (afterWrite st frame llen) :=
  ⟨rfl, rfl, hst⟩

include hps in
lemma replayed_write (hsize : b.physicalSize env.srvPageSize ≤ env.srvPageSize)
    (hw : w.Legal env.srvPageSize b) (htype : w.type.haveOffset = true) (hstr : w.WholeCopies)
    {rel : Nat} (hbase : a.lastOffset ≠ 1) (hrel : a.lastOffset + rel = w.offset)
    (rest : List UInt8) :
    Replayed a (w.replay env.ops b a.frame) (w.endOffset % 2 ^ 16)
      (env.applyWrite b w.type a (mlogEncodeVarint rel ++ w.body ++ rest)
        (mlogEncodeVarint rel ++ w.body).length) := by
  have h4 := min4Byte_eq
  cases w with
  | memcpy ofs =>
    obtain ⟨hdata, hlow, hhigh⟩ := hw
    have hpos := length_pos_iff.mpr hdata
    simp only [type, body, offset] at hrel ⊢
    rw [applyWrite_offset .write hbase (by omega) hrel (by omega) hdata hlow (by omega), if_pos rfl,
      if_neg (by omega)]
    exact replayed_afterWrite _ rfl _ _
  | memset ofs len val =>
    obtain ⟨hpos, hlow, hhigh⟩ := hw
    simp only [type, body, offset] at hrel ⊢
    rw [applyWrite_offset .memset hbase (by omega) hrel (by omega) (by simp) hlow (by omega),
      if_neg (by decide), applyLengthAndSource_memset (by simp) (by omega) hhigh rfl,
      if_pos (show [val].length ∣ len from one_dvd len), ← memset_eq_memcpy]
    exact replayed_afterWrite _ rfl _ _
  | memsetString ofs len str =>
    obtain ⟨hne, hlt, hlow, hhigh⟩ := hw
    simp only [type, body, offset] at hrel ⊢
    rw [applyWrite_offset .memset hbase (by omega) hrel (by omega) (by simp [hne]) hlow (by omega),
      if_neg (by decide), applyLengthAndSource_memset hne (by omega) hhigh rfl]
    rw [if_pos (show str.length ∣ len from hstr)]
    exact replayed_afterWrite _ rfl _ _
  | memmove d s len =>
    have hw' := hw
    obtain ⟨hd, hs, hpos, hsd, hsrc, hdst⟩ := hw
    have hsrc16 := memmoveSource_lt (d := d) (s := s) (n := 2 ^ 16) (by omega) (by omega)
    have h3 := varintSize_le_three (i := len) (by omega)
    have h3' := varintSize_le_three (i := Mtr.memmoveSource d s) (by omega)
    have hbody := body_ne_nil hw'
    simp only [type, body, offset] at hbody hrel ⊢
    rw [applyWrite_offset .memmove hbase (by omega) hrel (by omega) hbody hd (by omega),
      if_neg (by decide)]
    unfold applyLengthAndSource
    simp only [append_assoc, length_append, mlogEncodeVarint_length,
      decodeVarintLength_encode, decodeVarint_encode (by omega : len < 2 ^ 32), drop_varintSize,
      decodeVarint_encode (by omega : Mtr.memmoveSource d s < 2 ^ 32), Nat.add_sub_cancel_left,
      RecvEnv.memmoveSourceOffset_memmoveSource (by omega : d < 2 ^ 16) (by omega : s < 2 ^ 16)
      hsd]
    rw [if_neg (by omega), if_neg (by omega), if_neg (by decide), if_neg (by omega),
      if_pos (by omega)]
    exact replayed_afterWrite _ rfl _ _
  | _ => simp at htype

include hps in
/-- A written record is applied with a cursor from which its offset is the one that the
writer meant. -/
lemma applyStep_record {op : MtrOp} (hop : op.Legal env.srvPageSize)
    (hcur : op.write.type.haveOffset = true → m.last = some op.block.id →
      a.lastOffset = m.lastOffset ∧ m.lastOffset ≠ 1) (rest : List UInt8) :
    ∃ n, (op.write.type.haveOffset = true → n ≠ 1 ∧ n + m.relOffset op = op.write.offset) ∧
      env.applyStep op.block a (m.record op ++ rest) =
        env.finish { a with lastOffset := n } rest (env.applyRecord op.block op.write.type
          { a with lastOffset := n } (m.pagePayload op ++ rest) (m.pagePayload op).length) := by
  cases hs : m.samePage op with
  | true =>
    refine ⟨a.lastOffset, fun ho => ?_, applyStep_samePage (Mtr.record_samePage hps hop hs) rest⟩
    obtain ⟨hcur, hne⟩ := hcur ho (Mtr.samePage_last hs)
    exact ⟨hcur ▸ hne, hcur ▸ Mtr.relOffset_samePage hs ho⟩
  | false =>
    refine ⟨0, fun ho => ?_, applyStep_newPage (Mtr.record_newPage hps hop hs) rest⟩
    rw [Mtr.relOffset, if_neg (by simp [hs])]
    simp

include hps in
lemma replayed_record {op : MtrOp} (hop : op.Legal env.srvPageSize) (hstr : op.write.WholeCopies)
    (hcur : m.last = some op.block.id → a.lastOffset = m.lastOffset ∧ m.lastOffset ≠ 1)
    (rest : List UInt8) :
    ∃ n verdict, env.applyStep op.block a (m.record op ++ rest) =
        env.finish { a with lastOffset := n } rest verdict ∧
      verdict = env.applyRecord op.block op.write.type { a with lastOffset := n }
        (m.pagePayload op ++ rest) (m.pagePayload op).length ∧
      Replayed a (op.write.replay env.ops op.block a.frame) (op.write.endOffset % 2 ^ 16)
        verdict := by
  obtain ⟨n, hofs, hstep⟩ := applyStep_record hps hop (fun _ => hcur) rest
  refine ⟨n, _, hstep, rfl, ?_⟩
  -- the cursor is not a part of what has to agree
  have hre : ∀ f k v, Replayed { a with lastOffset := n } f k v → Replayed a f k v := by
    intro f k v hv
    cases v <;> simp_all [Replayed]
  apply hre
  unfold Mtr.pagePayload
  cases ho : op.write.type.haveOffset with
  | true =>
    obtain ⟨hne, hrel⟩ := hofs ho
    have hr := replayed_write (a := { a with lastOffset := n }) hps hop.size_le hop.write ho hstr
      hne hrel rest
    cases ht : op.write.type <;> simp_all [applyRecord]
  | false =>
    have ht : op.write.type = .extended := by
      cases hw : op.write <;> simp_all
    have hend : op.write.endOffset % 2 ^ 16 = filPageType := by
      cases hw : op.write <;> simp_all [endOffset, filPageType]
    rw [ht, hend]
    exact replayed_extended hps hop.write ht rest

include hps in
/-- A repeating string that does not fit a whole number of times is copied beyond its range,
and what is left of the range is negative. -/
lemma applyStep_undefined (hop : MtrOp.Legal env.srvPageSize ⟨b, .memsetString ofs len str⟩)
    (hcur : m.last = some b.id → a.lastOffset = m.lastOffset ∧ m.lastOffset ≠ 1)
    (hdvd : ¬ str.length ∣ len) (rest : List UInt8) :
    env.applyStep b a (m.record ⟨b, .memsetString ofs len str⟩ ++ rest) = .undefined := by
  obtain ⟨n, hofs, hstep⟩ := applyStep_record hps hop (fun _ => hcur) rest
  obtain ⟨hne, hlt, hlow, hhigh⟩ := hop.write
  have hsize := hop.size_le
  have h4 := min4Byte_eq
  obtain ⟨hn, hrel⟩ := hofs rfl
  have hr : n + m.relOffset ⟨b, .memsetString ofs len str⟩ = ofs := hrel
  have hpay : m.pagePayload ⟨b, .memsetString ofs len str⟩ =
      mlogEncodeVarint (m.relOffset ⟨b, .memsetString ofs len str⟩) ++
        (mlogEncodeVarint len ++ str) := rfl
  rw [hstep, hpay]
  simp only [type, applyRecord] at hsize hhigh ⊢
  rw [applyWrite_offset .memset hn (by omega) hr (by omega) (by simp [hne]) hlow (by omega),
    if_neg (by decide), applyLengthAndSource_memset hne (by omega) hhigh rfl, if_neg hdvd]
  rfl

/-- The verdict is not that the page is corrupted, and does not set that status. -/
def PageIntact (a : ApplyState) : ApplyVerdict → Prop
  | .pageCorrupted _ => False
  | .applied a' => a.applied ≠ .corrupted → a'.applied ≠ .corrupted
  | _ => True

lemma pageIntact_ite [Decidable p] (hv : PageIntact a v) (hv' : PageIntact a v') :
    PageIntact a (if p then v else v') := by
  split_ifs
  · exact hv
  · exact hv'

lemma pageIntact_applyLengthAndSource (type : MrecType) (l : List UInt8) (rlen : Nat) :
    PageIntact a (env.applyLengthAndSource b type a l rlen) := by
  have hafter : ∀ f n, PageIntact a (afterWrite a f n) := fun f n => id
  unfold applyLengthAndSource
  refine pageIntact_ite trivial (pageIntact_ite trivial (pageIntact_ite ?_ ?_))
  · exact pageIntact_ite (pageIntact_ite trivial (hafter _ _)) (hafter _ _)
  · exact pageIntact_ite trivial (pageIntact_ite (hafter _ _) trivial)

lemma pageIntact_applyWrite (type : MrecType) (l : List UInt8) (rlen : Nat) :
    PageIntact a (env.applyWrite b type a l rlen) := by
  unfold applyWrite
  refine pageIntact_ite trivial (pageIntact_ite trivial (pageIntact_ite trivial
    (pageIntact_ite trivial (pageIntact_ite (pageIntact_ite trivial ?_) ?_))))
  · intro h
    simp only [writeStatus]
    split_ifs <;> simp [h]
  · have h := @pageIntact_applyLengthAndSource env b
      { a with lastOffset := (a.lastOffset + mlogDecodeVarint l) % 2 ^ 16 } type
      (l.drop (mlogDecodeVarintLength (l.getD 0 0))) (rlen - mlogDecodeVarintLength (l.getD 0 0))
    revert h
    generalize env.applyLengthAndSource _ _ _ _ _ = v
    cases v <;> exact id

end ApplyEnv

end MariaDB.Redo
