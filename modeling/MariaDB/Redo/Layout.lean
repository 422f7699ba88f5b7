import MariaDB.Redo.Apply

/-!
# The layout of the written records

Every page-level write appends one record: a first byte with the type and the
`same_page` flag, the length, and a payload that starts with the page identifier
unless the flag is set. `IsRecord` states what `parseLength` makes of such bytes,
whatever follows them, and `exec_eq` reduces the eight kinds of writes to one form.
-/
namespace MariaDB.Redo

open List

/-- `bytes` is one record: its first byte and its length decode to the given parts,
whatever follows. -/
structure IsRecord (type : MrecType) (samePage : Bool) (payload bytes : List UInt8) : Prop where
  first_gt : 1 < (bytes.getD 0 0).toNat
  type_eq : recType (bytes.getD 0 0) = type
  samePage_eq : recSamePage (bytes.getD 0 0) = samePage
  payload_lt : payload.length < bytes.length
  parse : ∀ rest, parseLength (bytes ++ rest) = (payload ++ rest, payload.length)

lemma IsRecord.first_ne (h : IsRecord type samePage payload bytes) : bytes.getD 0 0 ≠ 0 := by
  intro h0
  exact absurd (h0 ▸ h.first_gt) (by decide)

def firstByte (type : MrecType) (samePage : Bool) (n : Nat) : UInt8 :=
  type.code ||| (if samePage then 0x80 else 0) ||| toByte n

lemma firstByte_fields (type : MrecType) (samePage : Bool) (hn : n < 16) :
    recType (firstByte type samePage n) = type ∧
    recSamePage (firstByte type samePage n) = samePage ∧
    (firstByte type samePage n).toNat % 16 = n ∧
    (type ≠ .freePage → 1 < (firstByte type samePage n).toNat) := by
  revert n
  cases type <;> cases samePage <;> decide

def lengthBytes (n : Nat) : List UInt8 :=
  if n < 16 then [] else mlogEncodeVarint (extraLength (n - 14))

def mkRecord (type : MrecType) (samePage : Bool) (payload : List UInt8) : List UInt8 :=
  firstByte type samePage (if payload.length < 16 then payload.length else 0) ::
    (lengthBytes payload.length ++ payload)

lemma firstByte_zero (type : MrecType) (samePage : Bool) :
    firstByte type samePage 0 = type.code ||| (if samePage then 0x80 else 0) := by
  cases type <;> cases samePage <;> rfl

lemma extraLength_size (hn : 16 ≤ n) (hmax : n < 2 ^ 20) :
    extraLength (n - 14) + 15 - varintSize (extraLength (n - 14)) = n := by
  have h2 := min2Byte_eq
  have h3 := min3Byte_eq
  have h4 := min4Byte_eq
  have hcases : (n < 142 ∧ extraLength (n - 14) = n - 14) ∨
      (142 ≤ n ∧ n < 16525 ∧ extraLength (n - 14) = n - 13) ∨
      (16525 ≤ n ∧ extraLength (n - 14) = n - 12) := by
    unfold extraLength
    split_ifs <;> omega
  unfold varintSize
  rcases hcases with ⟨h, he⟩ | ⟨h, h', he⟩ | ⟨h, he⟩ <;> rw [he] <;> split_ifs <;> omega

lemma extraLength_lt (hmax : n < 2 ^ 20) : extraLength (n - 14) < 2 ^ 32 := by
  unfold extraLength
  split_ifs <;> omega

lemma parseLength_mkRecord (type : MrecType) (samePage : Bool) {payload : List UInt8}
    (hpos : 0 < payload.length) (hmax : payload.length < 2 ^ 20) (rest : List UInt8) :
    parseLength (mkRecord type samePage payload ++ rest) = (payload ++ rest, payload.length) := by
  have hn : (if payload.length < 16 then payload.length else 0) < 16 := by split_ifs <;> omega
  have hmod := (firstByte_fields type samePage hn).2.2.1
  by_cases hshort : payload.length < 16
  · simp only [mkRecord, lengthBytes, if_pos hshort] at hmod ⊢
    simp only [parseLength, cons_append, byteAt_cons_zero, hmod, drop_succ_cons,
      drop_zero, nil_append]
    rw [if_neg (by omega)]
  · simp only [mkRecord, lengthBytes, if_neg hshort] at hmod ⊢
    simp only [parseLength, cons_append, byteAt_cons_zero, hmod, drop_succ_cons,
      drop_zero, if_true, append_assoc]
    rw [decodeVarintLength_encode, decodeVarint_encode (extraLength_lt hmax),
      extraLength_size (by omega) hmax, ← mlogEncodeVarint_length, drop_left]

lemma mkRecord_isRecord (samePage : Bool) {payload : List UInt8} (htype : type ≠ .freePage)
    (hpos : 0 < payload.length) (hmax : payload.length < 2 ^ 20) :
    IsRecord type samePage payload (mkRecord type samePage payload) := by
  have hn : (if payload.length < 16 then payload.length else 0) < 16 := by split_ifs <;> omega
  obtain ⟨ht, hs, -, hgt⟩ := firstByte_fields type samePage hn
  exact ⟨hgt htype, ht, hs, by simp [mkRecord], parseLength_mkRecord type samePage hpos hmax⟩

lemma recordHeader_eq {tail body : List UInt8} (hlen : body.length = len)
    (hshort : short = decide (tail.length + len < 16)) :
    recordHeader type samePage tail len short ++ body = mkRecord type samePage (tail ++ body) := by
  subst hlen hshort
  unfold recordHeader mkRecord lengthBytes
  simp only [length_append, decide_eq_true_eq]
  by_cases h : tail.length + body.length < 16
  · simp [if_pos h, firstByte]
  · simp only [if_neg h, firstByte_zero, cons_append, append_assoc]
    rw [show body.length + (1 + tail.length) - 15 = tail.length + body.length - 14 by omega]

/-! ## One form for all page-level writes -/

namespace PageWrite

def type : PageWrite → MrecType
  | .memcpy .. => .write
  | .memset .. | .memsetString .. => .memset
  | .memmove .. => .memmove
  | _ => .extended

def offset : PageWrite → Nat
  | .memcpy ofs _ | .memset ofs .. | .memsetString ofs .. => ofs
  | .memmove d _ _ => d
  | _ => 0

def body : PageWrite → List UInt8
  | .memcpy _ data => data
  | .memset _ len val => mlogEncodeVarint len ++ [val]
  | .memsetString _ len str => mlogEncodeVarint len ++ str
  | .memmove d s len => mlogEncodeVarint len ++ mlogEncodeVarint (Mtr.memmoveSource d s)
  | .extended type => [type]
  | .deleteRedundant prevRec => deleteRowFormatRedundant :: mlogEncodeVarint prevRec
  | .deleteDynamic prevRec hdrSize dataSize => deleteRowFormatDynamic ::
      (mlogEncodeVarint prevRec ++ mlogEncodeVarint hdrSize ++ mlogEncodeVarint dataSize)
  | .undoAppend data => Redo.undoAppend :: data

/-- Where the operation ends: the new `m_last_offset`. -/
def endOffset : PageWrite → Nat
  | .memcpy ofs data => ofs + data.length
  | .memset ofs len _ | .memsetString ofs len _ => ofs + len
  | .memmove d _ len => d + len
  | _ => filPageType

def IndexOrUndoPage (b : Block) : Prop := b.ssize = 0 ∧ 3 ≤ b.id.pageNo

/-- The calls that the debug assertions of the writer and the page format allow.
The first 8 bytes of a page are never written through the log. -/
def Legal (srvPageSize : Nat) (b : Block) : PageWrite → Prop
  | .memcpy ofs data => data ≠ [] ∧ 8 ≤ ofs ∧ ofs + data.length ≤ b.physicalSize srvPageSize
  | .memset ofs len _ => 0 < len ∧ 8 ≤ ofs ∧ ofs + len ≤ b.physicalSize srvPageSize
  | .memsetString ofs len str => str ≠ [] ∧ str.length < len ∧ 8 ≤ ofs ∧
      ofs + len ≤ b.physicalSize srvPageSize
  | .memmove d s len => 8 ≤ d ∧ 8 ≤ s ∧ 0 < len ∧ s ≠ d ∧
      s + len ≤ b.physicalSize srvPageSize ∧ d + len ≤ b.physicalSize srvPageSize
  | .extended type => IndexOrUndoPage b ∧
      (type = initRowFormatRedundant ∨ type = initRowFormatDynamic ∨ type = undoInit)
  | .deleteRedundant prevRec => IndexOrUndoPage b ∧ prevRec < srvPageSize
  | .deleteDynamic prevRec hdrSize dataSize => IndexOrUndoPage b ∧ prevRec < srvPageSize ∧
      hdrSize < min3Byte ∧ dataSize < srvPageSize
  | .undoAppend data => IndexOrUndoPage b ∧ 2 < data.length ∧ 56 + data.length + 6 < srvPageSize - 8

end PageWrite

structure MtrOp.Legal (srvPageSize : Nat) (op : MtrOp) : Prop where
  space_lt : op.block.id.space < logBinlogId0
  pageNo_lt : op.block.id.pageNo < 2 ^ 32 - 1
  size_le : op.block.physicalSize srvPageSize ≤ srvPageSize
  write : op.write.Legal srvPageSize op.block

namespace Mtr

def samePage (m : Mtr) (op : MtrOp) : Bool :=
  m.last = some op.block.id ∧ (op.write.type.haveOffset → m.lastOffset ≤ op.write.offset)

/-- The offset as encoded: relative to `m_last_offset` in a same-page record. -/
def relOffset (m : Mtr) (op : MtrOp) : Nat :=
  if m.samePage op then op.write.offset - m.lastOffset else op.write.offset

def pagePayload (m : Mtr) (op : MtrOp) : List UInt8 :=
  (if op.write.type.haveOffset then mlogEncodeVarint (m.relOffset op) else []) ++ op.write.body

def payload (m : Mtr) (op : MtrOp) : List UInt8 :=
  (if m.samePage op then []
    else mlogEncodeVarint op.block.id.space ++ mlogEncodeVarint op.block.id.pageNo) ++
  m.pagePayload op

def record (m : Mtr) (op : MtrOp) : List UInt8 :=
  mkRecord op.write.type (m.samePage op) (m.payload op)

end Mtr

lemma PageWrite.haveLen_type (w : PageWrite) : w.type.haveLen = true := by cases w <;> rfl

lemma PageWrite.type_ne_freePage (w : PageWrite) : w.type ≠ .freePage := by cases w <;> simp [type]

variable {m : Mtr} {op : MtrOp}

lemma Mtr.samePage_last (h : m.samePage op = true) : m.last = some op.block.id := by
  simp only [samePage, decide_eq_true_eq] at h
  exact h.1

def Mtr.recordTail (m : Mtr) (op : MtrOp) : List UInt8 :=
  (if m.samePage op then []
    else mlogEncodeVarint op.block.id.space ++ mlogEncodeVarint op.block.id.pageNo) ++
  (if op.write.type.haveOffset then mlogEncodeVarint (m.relOffset op) else [])

lemma Mtr.payload_eq (m : Mtr) (op : MtrOp) : m.payload op = m.recordTail op ++ op.write.body := by
  simp [payload, pagePayload, recordTail]

lemma Mtr.recordTail_length_le (ho : op.write.type.haveOffset = false) :
    (m.recordTail op).length ≤ 10 := by
  have h1 := varintSize_le op.block.id.space
  have h2 := varintSize_le op.block.id.pageNo
  simp only [recordTail, ho, Bool.false_eq_true, if_false, append_nil]
  split_ifs
  · simp
  · simp only [length_append, mlogEncodeVarint_length]
    omega

lemma Mtr.logWrite_eq (m : Mtr) (op : MtrOp) (len : Nat) :
    m.logWrite op.write.type op.block.id (some op.block.id) len op.write.offset =
      (recordHeader op.write.type (m.samePage op) (m.recordTail op) len
        (if op.write.type.haveOffset then decide (1 + (m.recordTail op).length + len ≤ 16)
          else decide (¬ (3 ≤ len ∧ 1 + (m.recordTail op).length + len > 16))),
      { m with last := some op.block.id }) := by
  have hl := op.write.haveLen_type
  have hm : m.last = some op.block.id → { m with last := some op.block.id } = m := by
    intro h; rw [← h]
  grind [samePage, logWrite, recordTail, relOffset]

lemma Mtr.logWrite_record (m : Mtr) (op : MtrOp) :
    (m.logWrite op.write.type op.block.id (some op.block.id) op.write.body.length
      op.write.offset).1 ++ op.write.body = m.record op := by
  rw [logWrite_eq, record, payload_eq]
  refine recordHeader_eq rfl ?_
  cases ho : op.write.type.haveOffset with
  | false =>
    -- a record without an offset is short when it is only a subtype and a byte
    have htail := recordTail_length_le (m := m) ho
    simp only [Bool.false_eq_true, if_false, decide_eq_decide]
    omega
  | true =>
    simp only [if_true, decide_eq_decide]
    omega

lemma lenlen_eq (h : n < min4Byte) :
    (if n < min2Byte then 1 else if n < min3Byte then 2 else 3) = varintSize n := by
  unfold varintSize
  split_ifs <;> rfl

lemma lenlen_add_one_eq (h : n < min4Byte) :
    (if n < min2Byte then 2 else if n < min3Byte then 3 else 4) = varintSize n + 1 := by
  rw [← lenlen_eq h]
  split_ifs <;> rfl

lemma hdrlen_eq (h : n < min3Byte) : (if n < min2Byte then 1 else 2) = varintSize n := by
  unfold varintSize
  split_ifs <;> rfl

lemma hdrlen_le (h : n < min3Byte) : varintSize n ≤ 2 := by
  rw [← hdrlen_eq h]
  split_ifs <;> omega

lemma memmoveSource_lt (hd : d < n) (hs : s < n) : Mtr.memmoveSource d s < 2 * n := by
  unfold Mtr.memmoveSource
  split_ifs
  · rw [Nat.shiftLeft_eq]; omega
  · rw [shiftLeft_or (k := 1) _ (by decide)]; omega

attribute [local simp] PageWrite.type PageWrite.body PageWrite.offset PageWrite.endOffset in
lemma Mtr.exec_eq (hps : srvPageSize ≤ 2 ^ 16) (hm : m.isLogged = true)
    (hop : op.Legal srvPageSize) :
    m.exec op = ⟨m.log ++ m.record op, some op.block.id, op.write.endOffset % 2 ^ 16, true⟩ := by
  -- all writers call `logWrite` with the length of the body
  suffices h : m.exec op =
      let r := m.logWrite op.write.type op.block.id (some op.block.id) op.write.body.length
        op.write.offset
      r.2.close (r.1 ++ op.write.body) op.write.endOffset by
    dsimp only at h
    rw [h, logWrite_record, logWrite_eq]
    simp [close, hm]
  obtain ⟨block, w⟩ := op
  have hsize : block.physicalSize srvPageSize ≤ srvPageSize := hop.size_le
  have hw : w.Legal srvPageSize block := hop.write
  have h4 := min4Byte_eq
  cases w with
  | memcpy =>
    simp [exec, memcpyLow, hm]
  | memset ofs len =>
    obtain ⟨_, _, _⟩ := hw
    have hlen : len < min4Byte := by omega
    simp [exec, memset, hm, lenlen_add_one_eq hlen]
  | memsetString ofs len =>
    obtain ⟨_, _, _, _⟩ := hw
    have hlen : len < min4Byte := by omega
    simp [exec, memsetString, hm, lenlen_eq hlen]
  | memmove d s len =>
    obtain ⟨_, _, _, _, _, _⟩ := hw
    have hlen : len < min4Byte := by omega
    have hsrc := memmoveSource_lt (d := d) (s := s) (n := 2 ^ 16) (by omega) (by omega)
    have hs : memmoveSource d s < min4Byte := by omega
    simp [exec, memmove, hm, lenlen_eq hlen, lenlen_eq hs]
  | extended =>
    simp [exec, logWriteExtended, hm]
  | deleteRedundant prevRec =>
    obtain ⟨_, _⟩ := hw
    have hprev : prevRec < min4Byte := by omega
    simp [exec, pageDeleteRedundant, hm, lenlen_add_one_eq hprev]
  | deleteDynamic prevRec hdrSize dataSize =>
    obtain ⟨_, _, hhdr, _⟩ := hw
    have hprev : prevRec < min4Byte := by omega
    have hdata : dataSize < min4Byte := by omega
    have hsum : varintSize prevRec + 1 + varintSize hdrSize + varintSize dataSize =
        varintSize prevRec + (varintSize hdrSize + varintSize dataSize) + 1 := by omega
    simp [exec, pageDeleteDynamic, hm, lenlen_add_one_eq hprev, hdrlen_eq hhdr, lenlen_eq hdata,
      hsum]
  | undoAppend =>
    simp [exec, undoAppend, hm]

end MariaDB.Redo
