import MariaDB.Redo.MtrLog

/-!
# Parsing a mini-transaction in crash recovery

`recv_sys_t::parse_tail()` walks over the records of one mini-transaction, checks
them and, when it is storing, hands the page-level records to `parse_store()`.
It keeps its own `last_offset` to check the relative offsets of same-page records.

The legacy encrypted format `ENC_10_8` is not modelled: the server no longer writes
it. What the parser asks of the rest of recovery is the structure `RecvEnv`.
-/
namespace MariaDB.Redo

/-- Decode the length of a record: the payload after the encoded length, and its size. -/
def parseLength (l : List UInt8) : List UInt8 × Nat :=
  let s := byteAt l 0 % 16
  let l := l.drop 1
  if s = 0 then
    let s := mlogDecodeVarintLength (l.getD 0 0)
    let addlen := mlogDecodeVarint l
    (l.drop s, addlen + 15 - s)
  else (l, s)

/-- The record type in bits 6..4 of the first byte, `b & 0x70`. -/
def recType (b : UInt8) : MrecType :=
  match b.toNat / 16 % 8 with
  | 0 => .freePage
  | 1 => .initPage
  | 2 => .extended
  | 3 => .write
  | 4 => .memset
  | 5 => .memmove
  | 6 => .reserved
  | _ => .option

def recSamePage (b : UInt8) : Bool := 128 ≤ b.toNat

inductive ParseMtrResult
  | ok | prematureEof | gotEof | gotOom
  deriving DecidableEq, Repr

/-- Whether `parse_tail()` stores the records it parses. -/
inductive Store
  | no | backup | yes
  deriving DecidableEq, Repr

def logBinlogId0 : Nat := 0xFFFFFFF0

/-- The state of recovery that `parse_tail()` consults. -/
structure RecvEnv where
  srvPageSize : Nat
  forceRecovery : Bool
  storing : Store
  ifExists : Bool
  /-- `log_page_modify()`: whether the tablespace of a page is known. -/
  logPageModify : PageId → ParseMtrResult
  /-- `parse_store_if_exists()`. -/
  parseStoreIfExists : Nat → Bool
  /-- `mlog_init.will_avoid_read()`. -/
  willAvoidRead : PageId → Bool
  /-- `parse_store_binlog()`, which returns whether the record is corrupted. -/
  parseStoreBinlog : Nat → List UInt8 → Nat → Nat → Bool
  /-- `log_parse_file()`. -/
  logParseFile : PageId → UInt8 → List UInt8 → Nat → ParseMtrResult
  /-- Whether a `TRIM_PAGES` record is acceptable for the page. -/
  trimPagesOk : PageId → Bool

/-- The local variables of `parse_tail()`, the stored page records in the order in
which they were stored, and whether `record_corrupted` was reached. -/
structure ParseState where
  id : PageId
  lastOffset : Nat
  gotPageOp : Bool
  stored : List (PageId × List UInt8)
  corrupted : Bool

def ParseState.init : ParseState := ⟨⟨0, 0⟩, 0, false, [], false⟩

/-- How the `switch` over a page-level record ends. -/
inductive Verdict
  /-- `break`: the record is to be stored. -/
  | accept (lastOffset : Nat)
  /-- `continue`. -/
  | skip (lastOffset : Nat)
  /-- `goto record_corrupted`. -/
  | corrupted
  deriving DecidableEq, Repr

def memmoveSourceOffset (lastOffset s : Nat) : Nat :=
  if s % 2 = 1 then (lastOffset + 2 ^ 32 - s / 2 - 1) % 2 ^ 32
  else (lastOffset + s / 2 + 1) % 2 ^ 32

namespace RecvEnv

variable (env : RecvEnv)

/-- The target length and the source of a `MEMSET` or `MEMMOVE`, after its offset. -/
def parseLengthAndSource (type : MrecType) (lastOffset : Nat)
    (l : List UInt8) (rlen : Nat) : Verdict :=
  let llen := mlogDecodeVarintLength (l.getD 0 0)
  if llen > rlen ∨ llen > 3 then .corrupted else
  let len := mlogDecodeVarint l
  if lastOffset + len > env.srvPageSize then .corrupted else
  let l := l.drop llen
  let rlen := rlen - llen
  if type = .memset then
    if rlen > len then .corrupted else .accept (lastOffset + rlen)
  else
    let slen := mlogDecodeVarintLength (l.getD 0 0)
    if slen ≠ rlen ∨ slen > 3 then .corrupted else
    let s := memmoveSourceOffset lastOffset (mlogDecodeVarint l)
    if s < 8 ∨ (s + len) % 2 ^ 32 > env.srvPageSize then .corrupted
    else .accept (lastOffset + rlen)

/-- The cases `MEMMOVE`, `MEMSET` and `WRITE`. -/
def parseWrite (type : MrecType) (isBinlog : Bool) (pageNo lastOffset : Nat)
    (l : List UInt8) (rlen : Nat) : Verdict :=
  if type ≠ .write ∧ env.storing = .yes ∧ isBinlog then .corrupted
  else if env.storing = .backup then .skip lastOffset
  else if env.storing = .no ∧ (pageNo ≠ 0 ∨ isBinlog) then .skip lastOffset
  else if rlen = 0 ∨ lastOffset = 1 then .corrupted
  else if isBinlog then .accept (lastOffset + rlen)
  else
    let olen := mlogDecodeVarintLength (l.getD 0 0)
    if olen ≥ rlen ∨ olen > 3 then .corrupted else
    let offset := mlogDecodeVarint l
    if offset ≥ env.srvPageSize then .corrupted else
    let lastOffset := lastOffset + offset
    if lastOffset < 8 ∨ lastOffset ≥ env.srvPageSize then .corrupted else
    let l := l.drop olen
    let rlen := rlen - olen
    if type = .write then
      if rlen + lastOffset > env.srvPageSize then .corrupted else .accept (lastOffset + rlen)
    else env.parseLengthAndSource type lastOffset l rlen

/-- The `switch` at `same_page:`. `size` is the size of the whole record. -/
def parsePageRecord (type : MrecType) (isBinlog : Bool) (id : PageId)
    (lastOffset : Nat) (l : List UInt8) (rlen size : Nat) : Verdict :=
  if rlen ≠ 0 ∧ !isBinlog ∧ size > env.srvPageSize then .corrupted else
  match type with
  | .freePage | .initPage =>
    let lastOffset := if env.storing = .backup then lastOffset
      else if type = .freePage then 1 else filPageType
    if rlen ≠ 0 then .corrupted
    else if env.storing = .no then .skip lastOffset else .accept lastOffset
  | .extended =>
    if env.storing = .no then .skip lastOffset
    else if rlen = 0 then .corrupted
    else if rlen = 1 ∧ l.getD 0 0 = trimPages then
      if env.trimPagesOk id then .skip (if env.storing = .backup then lastOffset else 1)
      else .corrupted
    else .accept (if env.storing = .backup then lastOffset else filPageType)
  | .option =>
    if env.storing = .yes ∧ rlen = 5 ∧ l.getD 0 0 = 0 then .accept lastOffset else .skip lastOffset
  | .reserved => .skip lastOffset
  | .write | .memset | .memmove => env.parseWrite type isBinlog id.pageNo lastOffset l rlen

/-- What one iteration of the loop does: go on with the next record, or return. -/
inductive Step
  | next (st : ParseState) (rest : List UInt8)
  | stop (r : ParseMtrResult) (st : ParseState)

/-- `record_corrupted:`. The next record must not be `same_page`. -/
def recordCorrupted (st : ParseState) (rest : List UInt8) : Step :=
  if env.forceRecovery then .next { st with lastOffset := 1, corrupted := true } rest
  else .stop .gotEof { st with corrupted := true }

def finishRecord (st : ParseState) (isBinlog : Bool) (l : List UInt8)
    (rlen : Nat) (recs rest : List UInt8) : Verdict → Step
  | .corrupted => env.recordCorrupted st rest
  | .skip lastOffset => .next { st with lastOffset := lastOffset } rest
  | .accept lastOffset =>
    let st := { st with lastOffset := lastOffset }
    if env.storing ≠ .yes then .next st rest
    else if isBinlog then
      if env.parseStoreBinlog st.id.space l rlen st.id.pageNo then env.recordCorrupted st rest
      else .next st rest
    else if env.ifExists ∧ !env.parseStoreIfExists st.id.space then .next st rest
    else if env.willAvoidRead st.id then .next st rest
    else .next { st with stored := st.stored ++ [(st.id, recs)] } rest

def pageIdCorrupted (st : ParseState) (rest : List UInt8) : Step :=
  if env.forceRecovery then .next st rest else .stop .gotEof st

/-- The records that carry a page identifier. `l` and `rlen` are the payload and `size`
is the size of the whole record. -/
def parseNewPage (st : ParseState) (b : UInt8) (l : List UInt8)
    (rlen size : Nat) (recs rest : List UInt8) : Step :=
  let st := if env.storing = .backup then st else { st with lastOffset := 0 }
  let idlen := mlogDecodeVarintLength (l.getD 0 0)
  if idlen > 5 ∨ idlen ≥ rlen then
    if l.getD 0 0 = 0 ∧ b = 0xf1 then .next st rest else env.pageIdCorrupted st rest
  else
  let space := mlogDecodeVarint l
  let st := { st with id := ⟨space, st.id.pageNo⟩ }
  if space = mlogDecodeError then env.pageIdCorrupted st rest else
  let isBinlog : Bool := space ||| 1 = logBinlogId0 ||| 1
  let l := l.drop idlen
  let rlen := rlen - idlen
  let idlen := mlogDecodeVarintLength (l.getD 0 0)
  if idlen > 5 ∨ idlen > rlen then env.pageIdCorrupted st rest else
  let pageNo := mlogDecodeVarint l
  let st := { st with id := ⟨space, pageNo⟩ }
  if pageNo = mlogDecodeError then env.pageIdCorrupted st rest else
  let l := l.drop idlen
  let rlen := rlen - idlen
  let st := { st with gotPageOp := !recSamePage b }
  if recSamePage b then
    match env.logParseFile st.id b l rlen with
    | .ok => .next st rest
    | r => .stop r st
  else if env.storing = .backup then .next st rest
  else
    match if env.storing = .yes ∧ space ≠ 0 then env.logPageModify st.id else .ok with
    | .ok =>
      env.finishRecord st isBinlog l rlen recs rest
        (env.parsePageRecord (recType b) isBinlog st.id st.lastOffset l rlen size)
    | .prematureEof => .next st rest
    | r => .stop r st

/-- One iteration of the loop of `parse_tail()`. -/
def parseStep (st : ParseState) (l : List UInt8) : Step :=
  let b := l.getD 0 0
  if b.toNat ≤ 1 then .stop .ok st
  else if recType b = .reserved ∧ !env.forceRecovery then .stop .gotEof st
  else
    let begin := l
    let (l, rlen) := parseLength l
    let rest := l.drop rlen
    let size := begin.length - l.length + rlen
    let recs := begin.take size
    if recSamePage b ∧ st.gotPageOp then
      if env.storing = .backup then .next st rest
      else if recType b = .freePage ∨ recType b = .initPage then env.recordCorrupted st rest
      else
        env.finishRecord st false l rlen recs rest
          (env.parsePageRecord (recType b) false st.id st.lastOffset l rlen size)
    else env.parseNewPage st b l rlen size recs rest

/-- The loop of `parse_tail()`. Every iteration that goes on consumes at least one byte. -/
def parseLoop (env : RecvEnv) : Nat → ParseState → List UInt8 → ParseMtrResult × ParseState
  | 0, st, _ => (.prematureEof, st)
  | fuel + 1, st, l =>
    match env.parseStep st l with
    | .stop r st => (r, st)
    | .next st rest => parseLoop env fuel st rest

/-- The state after `n` records, with the bytes that are left. -/
def parseRecords (env : RecvEnv) : Nat → ParseState → List UInt8 → Option (ParseState × List UInt8)
  | 0, st, l => some (st, l)
  | n + 1, st, l =>
    match env.parseStep st l with
    | .stop _ _ => none
    | .next st rest => parseRecords env n st rest

def parseTail (begin : List UInt8) : ParseMtrResult × ParseState :=
  env.parseLoop begin.length .init begin

end RecvEnv

end MariaDB.Redo
