import MariaDB.Library.Frame
import MariaDB.Redo.Parse

/-!
# Applying the stored log records of a page

`log_phys_t::apply()` replays the records that were stored for one page on its frame.
It keeps a third copy of the byte offset where the last operation ended, in
`page_recv_t::last_offset`, across all snippets of the log for the page.

The operations on index and undo pages that the `EXTENDED` records stand for are the
structure `PageOps`.
-/
namespace MariaDB.Redo

open Library (Frame)

inductive ApplyStatus
  | no | yes | toEncryption | toFspHeader | corrupted
  deriving DecidableEq, Repr

/-- The page operations of `EXTENDED` and `OPTION` records. An operation that returns
`true` found an inconsistency on the page. -/
structure PageOps where
  pageCreateLow : Block → Bool → Frame → Frame
  trxUndoPageInit : Block → Frame → Frame
  undoAppend : Block → List UInt8 → Frame → Bool × Frame
  pageApplyInsertRedundant : Block → Bool → (prev header hdrC dataC : Nat) → List UInt8 →
    Frame → Bool × Frame
  pageApplyInsertDynamic : Block → Bool → (prev shift encHdrL hdrC dataC : Nat) → List UInt8 →
    Frame → Bool × Frame
  pageApplyDeleteRedundant : Block → (prev : Nat) → Frame → Bool × Frame
  pageApplyDeleteDynamic : Block → (prev hdrSize dataSize : Nat) → Frame → Bool × Frame
  pageChecksum : Block → List UInt8 → Frame → Bool
  initPage : Block → Frame → Frame

structure ApplyEnv where
  srvPageSize : Nat
  forceRecovery : Bool
  ops : PageOps
  /-- The offset of the encryption information in the first page of a tablespace. -/
  encryptionOffset : Block → Nat

structure ApplyState where
  frame : Frame
  lastOffset : Nat
  applied : ApplyStatus
  /-- Whether `record_corrupted` was reached. -/
  recordCorrupted : Bool

/-- How the `switch` over the record type ends. -/
inductive ApplyVerdict
  /-- `goto next_after_applying`. -/
  | applied (st : ApplyState)
  /-- `goto next_not_same_page`. -/
  | nextNotSamePage
  /-- `goto record_corrupted`. -/
  | recordCorrupted
  /-- `goto page_corrupted`. -/
  | pageCorrupted (st : ApplyState)
  /-- A copy with a negative length. -/
  | undefined

namespace ApplyEnv

variable (env : ApplyEnv)

def pageOp (st : ApplyState) (result : Bool × Frame) : ApplyVerdict :=
  let st := { st with frame := result.2 }
  if result.1 ∧ !env.forceRecovery then .pageCorrupted st
  else .applied { st with lastOffset := filPageType }

/-- Decode one integer of an `EXTENDED` record that must be followed by at least `more`
bytes, and occupy at most `maxLen` bytes. -/
def decodeField (maxLen more : Nat) (l : List UInt8) (rlen : Nat) :
    Option (Nat × List UInt8 × Nat) :=
  let ll := mlogDecodeVarintLength (l.getD 0 0)
  if ll > maxLen ∨ ll + more > rlen then none
  else some (mlogDecodeVarint l, l.drop ll, rlen - ll)

/-- Decode the `INSERT_*_REDUNDANT` records after `prev_rec`. -/
def applyInsertRedundant (block : Block) (st : ApplyState) (reuse : Bool)
    (prev : Nat) (l : List UInt8) (rlen : Nat) : ApplyVerdict :=
  match decodeField 2 1 l rlen with
  | none => .recordCorrupted
  | some (header, l, rlen) =>
  match decodeField 2 1 l rlen with
  | none => .recordCorrupted
  | some (hdrC, l, rlen) =>
  match decodeField 2 0 l rlen with
  | none => .recordCorrupted
  | some (dataC, l, rlen) =>
    env.pageOp st (env.ops.pageApplyInsertRedundant block reuse prev header hdrC dataC
      (l.take rlen) st.frame)

/-- Decode the `INSERT_*_DYNAMIC` records after `prev_rec`. -/
def applyInsertDynamic (block : Block) (st : ApplyState) (reuse : Bool)
    (prev : Nat) (l : List UInt8) (rlen : Nat) : ApplyVerdict :=
  match if reuse then decodeField 3 1 l rlen else some (0, l, rlen) with
  | none => .recordCorrupted
  | some (shift, l, rlen) =>
  match decodeField 3 1 l rlen with
  | none => .recordCorrupted
  | some (encHdrL, l, rlen) =>
  match decodeField 2 1 l rlen with
  | none => .recordCorrupted
  | some (hdrC, l, rlen) =>
  match decodeField 3 0 l rlen with
  | none => .recordCorrupted
  | some (dataC, l, rlen) =>
    env.pageOp st (env.ops.pageApplyInsertDynamic block reuse prev shift encHdrL hdrC dataC
      (l.take rlen) st.frame)

def applyExtended (block : Block) (st : ApplyState) (l : List UInt8)
    (rlen : Nat) : ApplyVerdict :=
  if block.id.pageNo < 3 ∨ block.ssize ≠ 0 then .recordCorrupted
  else if rlen = 0 then .recordCorrupted
  else
    let subtype := l.getD 0 0
    let l := l.drop 1
    if subtype = initRowFormatRedundant ∨ subtype = initRowFormatDynamic then
      if rlen ≠ 1 then .recordCorrupted
      else env.pageOp st
        (false, env.ops.pageCreateLow block (subtype != initRowFormatRedundant) st.frame)
    else if subtype = undoInit then
      if rlen ≠ 1 then .recordCorrupted
      else env.pageOp st (false, env.ops.trxUndoPageInit block st.frame)
    else if subtype = undoAppend then
      if rlen ≤ 3 then .recordCorrupted
      else env.pageOp st (env.ops.undoAppend block (l.take (rlen - 1)) st.frame)
    else if subtype = insertHeapRedundant ∨ subtype = insertReuseRedundant ∨
        subtype = insertHeapDynamic ∨ subtype = insertReuseDynamic then
      if rlen < 2 then .recordCorrupted
      else match decodeField 3 1 l (rlen - 1) with
        | none => .recordCorrupted
        | some (prev, l, rlen) =>
          let reuse : Bool := subtype = insertReuseRedundant ∨ subtype = insertReuseDynamic
          if subtype = insertHeapDynamic ∨ subtype = insertReuseDynamic then
            env.applyInsertDynamic block st reuse prev l rlen
          else env.applyInsertRedundant block st reuse prev l rlen
    else if subtype = deleteRowFormatRedundant then
      if rlen < 2 ∨ rlen > 4 then .recordCorrupted
      else if mlogDecodeVarintLength (l.getD 0 0) ≠ rlen - 1 then .recordCorrupted
      else env.pageOp st (env.ops.pageApplyDeleteRedundant block (mlogDecodeVarint l) st.frame)
    else if subtype = deleteRowFormatDynamic then
      if rlen < 2 then .recordCorrupted
      else match decodeField 3 1 l (rlen - 1) with
        | none => .recordCorrupted
        | some (prev, l, rlen) =>
        match decodeField 2 1 l rlen with
        | none => .recordCorrupted
        | some (hdrSize, l, rlen) =>
          let ll := mlogDecodeVarintLength (l.getD 0 0)
          if ll > 3 ∨ ll ≠ rlen then .recordCorrupted
          else env.pageOp st (env.ops.pageApplyDeleteDynamic block prev hdrSize
            (mlogDecodeVarint l) st.frame)
    else .recordCorrupted

/-- `next_after_applying_write:`. -/
def afterWrite (st : ApplyState) (frame : Frame) (llen : Nat) : ApplyVerdict :=
  .applied { st with frame := frame, lastOffset := (st.lastOffset + llen) % 2 ^ 16 }

def writeStatus (block : Block) (st : ApplyState) (llen : Nat) : ApplyStatus :=
  if block.id.pageNo ≠ 0 then st.applied
  else if llen = 11 + 16 ∧ st.lastOffset = 38 + 6 + env.encryptionOffset block then .toEncryption
  else if st.lastOffset < 38 + 24 + 0 + 4 ∧ st.lastOffset + llen ≥ 38 + 8 then .toFspHeader
  else st.applied

/-- The loop that copies a multi-byte string over and over: the frame and the final `s`. -/
def memsetLoop (ofs llen : Nat) (str : List UInt8) : Nat → Nat → Frame → Frame × Nat
  | 0, s, frame => (frame, s)
  | fuel + 1, s, frame =>
    if s < llen then memsetLoop ofs llen str fuel (s + str.length) (frame.memcpy (ofs + s) str)
    else (frame, s)

/-- The target length and the source of a `MEMSET` or `MEMMOVE`, after its offset. -/
def applyLengthAndSource (block : Block) (type : MrecType) (st : ApplyState)
    (l : List UInt8) (rlen : Nat) : ApplyVerdict :=
  let size := block.physicalSize env.srvPageSize
  let llen := mlogDecodeVarintLength (l.getD 0 0)
  if llen > rlen ∨ llen > 3 then .recordCorrupted else
  let len := mlogDecodeVarint l
  if len + st.lastOffset > size then .recordCorrupted else
  let l := l.drop llen
  let rlen := rlen - llen
  if type = .memset then
    if rlen ≠ 1 then
      let (frame, s) := memsetLoop st.lastOffset len (l.take rlen) len 0 st.frame
      if len < s then .undefined
      else afterWrite st (frame.memcpy (st.lastOffset + s) (l.take (len - s))) len
    else afterWrite st (st.frame.memset st.lastOffset len (l.getD 0 0)) len
  else
    let slen := mlogDecodeVarintLength (l.getD 0 0)
    if slen ≠ rlen ∨ slen > 3 then .recordCorrupted else
    let s := memmoveSourceOffset st.lastOffset (mlogDecodeVarint l)
    if s ≥ 8 ∧ (s + len) % 2 ^ 32 ≤ size then
      afterWrite st (st.frame.memmove st.lastOffset s len) len
    else .recordCorrupted

/-- The cases `WRITE`, `MEMSET` and `MEMMOVE`. -/
def applyWrite (block : Block) (type : MrecType) (st : ApplyState)
    (l : List UInt8) (rlen : Nat) : ApplyVerdict :=
  let size := block.physicalSize env.srvPageSize
  if st.lastOffset = 1 then .recordCorrupted else
  let olen := mlogDecodeVarintLength (l.getD 0 0)
  if olen ≥ rlen ∨ olen > 3 then .recordCorrupted else
  let offset := mlogDecodeVarint l
  if offset ≥ size then .recordCorrupted
  else if offset + st.lastOffset < 8 ∨ offset + st.lastOffset ≥ size then .recordCorrupted
  else
  let st := { st with lastOffset := (st.lastOffset + offset) % 2 ^ 16 }
  let l := l.drop olen
  let rlen := rlen - olen
  if type = .write then
    if rlen + st.lastOffset > size then .recordCorrupted
    else afterWrite { st with applied := env.writeStatus block st rlen }
      (st.frame.memcpy st.lastOffset (l.take rlen)) rlen
  else env.applyLengthAndSource block type st l rlen

def applyRecord (block : Block) (type : MrecType) (st : ApplyState)
    (l : List UInt8) (rlen : Nat) : ApplyVerdict :=
  match type with
  | .freePage => .nextNotSamePage
  | .initPage =>
    if rlen = 0 then
      .applied { st with frame := env.ops.initPage block st.frame, lastOffset := filPageType }
    else .recordCorrupted
  | .option =>
    if env.ops.pageChecksum block (l.drop 1) st.frame then .pageCorrupted st else .applied st
  | .extended => env.applyExtended block st l rlen
  | .write | .memset | .memmove => env.applyWrite block type st l rlen
  | .reserved => .recordCorrupted

inductive Step
  | next (st : ApplyState) (rest : List UInt8)
  | done (st : ApplyState)
  | undefined

def finish (st : ApplyState) (rest : List UInt8) : ApplyVerdict → Step
  | .applied st =>
    .next { st with applied := if st.applied = .no then .yes else st.applied } rest
  | .nextNotSamePage => .next { st with lastOffset := 1 } rest
  | .recordCorrupted =>
    if env.forceRecovery then .next { st with lastOffset := 1, recordCorrupted := true } rest
    else .done { st with recordCorrupted := true }
  | .pageCorrupted st => .done { st with applied := .corrupted }
  | .undefined => .undefined

/-- Skip the page identifier, which has been validated by the parser. -/
def skipPageId (l : List UInt8) (rlen : Nat) : List UInt8 × Nat :=
  let idlen := mlogDecodeVarintLength (l.getD 0 0)
  let l := l.drop idlen
  let rlen := rlen - idlen
  let idlen := mlogDecodeVarintLength (l.getD 0 0)
  (l.drop idlen, rlen - idlen)

/-- One iteration of the loop of `log_phys_t::apply()`. -/
def applyStep (block : Block) (st : ApplyState) (l : List UInt8) : Step :=
  let b := l.getD 0 0
  if b = 0 then .done st
  else
    let (l, rlen) := parseLength l
    let rest := l.drop rlen
    if recSamePage b then env.finish st rest (env.applyRecord block (recType b) st l rlen)
    else
      let (l, rlen) := skipPageId l rlen
      let st := { st with lastOffset := 0 }
      env.finish st rest (env.applyRecord block (recType b) st l rlen)

/-- The loop of `log_phys_t::apply()`; `none` is undefined behaviour. -/
def applyLoop (env : ApplyEnv) (block : Block) : Nat → ApplyState → List UInt8 → Option ApplyState
  | 0, st, _ => some st
  | fuel + 1, st, l =>
    match env.applyStep block st l with
    | .done st => some st
    | .next st rest => applyLoop env block fuel st rest
    | .undefined => none

/-- Apply one log snippet, which ends in a NUL byte, to a page frame. -/
def apply (block : Block) (st : ApplyState) (recs : List UInt8) :
    Option ApplyState :=
  env.applyLoop block (recs.length + 1) { st with applied := .no } (recs ++ [0])

end ApplyEnv

/-- The log snippet that `recv_sys_t::add()` collects for a page out of the records of one
mini-transaction. `FREE_PAGE` and `INIT_PAGE` discard what was stored before. -/
def pageLog (stored : List (PageId × List UInt8)) (id : PageId) : List UInt8 :=
  stored.foldl (fun log r =>
    if r.1 ≠ id then log
    else if recType (r.2.getD 0 0) = .freePage ∨ recType (r.2.getD 0 0) = .initPage then r.2
    else log ++ r.2) []

end MariaDB.Redo
