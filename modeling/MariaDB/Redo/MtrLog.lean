import MariaDB.Redo.Varint

/-!
# Writing page-level redo log records

The part of `mtr_t` that encodes the page-level records of one mini-transaction
(`mtr0log.h`). A record names its page unless the previous record was for the same
page, and the byte offset of a `WRITE`, `MEMSET` or `MEMMOVE` for the same page is
relative to `m_last_offset`, the offset where the previous operation ended.

The buffer `m_log` is the list of the bytes written so far. `m_log.open()` reserves
memory only, so the callers that let `logWrite` allocate their payload and those
that push it afterwards append the same bytes.
-/
namespace MariaDB.Redo

structure PageId where
  space : Nat
  pageNo : Nat
  deriving DecidableEq, Repr

/-- Redo log record types, bits 6..4 of the first byte of a record. -/
inductive MrecType
  | freePage | initPage | extended | write | memset | memmove | reserved | option
  deriving DecidableEq, Repr

def MrecType.code : MrecType → UInt8
  | .freePage => 0
  | .initPage => 0x10
  | .extended => 0x20
  | .write => 0x30
  | .memset => 0x40
  | .memmove => 0x50
  | .reserved => 0x60
  | .option => 0x70

def initRowFormatRedundant : UInt8 := 0
def initRowFormatDynamic : UInt8 := 1
def undoInit : UInt8 := 2
def undoAppend : UInt8 := 3
def insertHeapRedundant : UInt8 := 4
def insertReuseRedundant : UInt8 := 5
def insertHeapDynamic : UInt8 := 6
def insertReuseDynamic : UInt8 := 7
def deleteRowFormatRedundant : UInt8 := 8
def deleteRowFormatDynamic : UInt8 := 9
def trimPages : UInt8 := 10

def filPageType : Nat := 24

/-- A buffer page: its identifier and `zip.ssize`, which is 0 when the page is not
`ROW_FORMAT=COMPRESSED`. -/
structure Block where
  id : PageId
  ssize : Nat
  deriving DecidableEq, Repr

def Block.physicalSize (srvPageSize : Nat) (b : Block) : Nat :=
  if b.ssize = 0 then srvPageSize else 512 <<< b.ssize

/-- The fields of `mtr_t` that the log writer uses. -/
structure Mtr where
  log : List UInt8
  last : Option PageId
  lastOffset : Nat
  isLogged : Bool
  deriving DecidableEq, Repr

def Mtr.start : Mtr := ⟨[], none, 0, true⟩

def MrecType.haveLen (type : MrecType) : Bool := type != .initPage && type != .freePage
def MrecType.haveOffset (type : MrecType) : Bool :=
  type == .write || type == .memset || type == .memmove

def extraLength (len : Nat) : Nat :=
  if len ≥ min3Byte - 1 then len + 2 else if len ≥ min2Byte then len + 1 else len

/-- The first bytes of a record, up to `tail`, which follows the length.
A short record has its length in the first byte. -/
def recordHeader (type : MrecType) (samePage : Bool) (tail : List UInt8) (len : Nat)
    (short : Bool) : List UInt8 :=
  let flags := type.code ||| (if samePage then 0x80 else 0)
  if short then (flags ||| toByte (tail.length + len)) :: tail
  else flags :: mlogEncodeVarint (extraLength (len + (1 + tail.length) - 15)) ++ tail

namespace Mtr

variable (m : Mtr)

/-- Write a log record: the bytes before the `len` additional bytes of the caller. -/
def logWrite (type : MrecType) (id : PageId) (bpage : Option PageId)
    (len offset : Nat) : List UInt8 × Mtr :=
  let (maxLen, offset) :=
    if !type.haveLen then (1 + 5 + 5, offset)
    else if !type.haveOffset then
      (if bpage.isSome ∧ m.last = bpage then 1 + 3 else 1 + 3 + 5 + 5, offset)
    else if bpage.isSome ∧ m.last = bpage ∧ m.lastOffset ≤ offset then
      -- encode the offset relative from m_last_offset
      (1 + 3 + 3, offset - m.lastOffset)
    else (1 + 3 + 5 + 5 + 3, offset)
  let samePage : Bool := maxLen < 1 + 5 + 5
  let ids := if samePage then [] else mlogEncodeVarint id.space ++ mlogEncodeVarint id.pageNo
  let m := if samePage then m else { m with last := bpage }
  if type.haveOffset then
    let tail := ids ++ mlogEncodeVarint offset
    (recordHeader type samePage tail len (decide (1 + tail.length + len ≤ 16)), m)
  else
    (recordHeader type samePage ids len (decide (¬ (3 ≤ len ∧ 1 + ids.length + len > 16))), m)

/-- `m_log.close()` after the payload, and the new `m_last_offset`. -/
def close (bytes : List UInt8) (lastOffset : Nat) : Mtr :=
  { m with log := m.log ++ bytes, lastOffset := lastOffset % 2 ^ 16 }

def memcpyLow (b : Block) (offset : Nat) (data : List UInt8) : Mtr :=
  if !m.isLogged then m else
  let (header, m) := m.logWrite .write b.id (some b.id) data.length offset
  m.close (header ++ data) (offset + data.length)

def memset (m : Mtr) (b : Block) (ofs len : Nat) (val : UInt8) : Mtr :=
  if !m.isLogged then m else
  let lenlen := if len < min2Byte then 1 + 1 else if len < min3Byte then 2 + 1 else 3 + 1
  let (header, m) := m.logWrite .memset b.id (some b.id) lenlen ofs
  m.close (header ++ mlogEncodeVarint len ++ [val]) (ofs + len)

def memsetString (b : Block) (ofs len : Nat) (str : List UInt8) : Mtr :=
  if !m.isLogged then m else
  let lenlen := if len < min2Byte then 1 else if len < min3Byte then 2 else 3
  let (header, m) := m.logWrite .memset b.id (some b.id) (lenlen + str.length) ofs
  m.close (header ++ mlogEncodeVarint len ++ str) (ofs + len)

/-- The source offset of a `MEMMOVE`, relative to the destination, with the sign in
the least significant bit. The source offset 0 is not possible. -/
def memmoveSource (d s : Nat) : Nat :=
  (if s > d then (s - d) <<< 1 else (d - s) <<< 1 ||| 1) - 1 <<< 1

def memmove (m : Mtr) (b : Block) (d s len : Nat) : Mtr :=
  if !m.isLogged then m else
  let lenlen := if len < min2Byte then 1 else if len < min3Byte then 2 else 3
  let s := memmoveSource d s
  let slen := if s < min2Byte then 1 else if s < min3Byte then 2 else 3
  let (header, m) := m.logWrite .memmove b.id (some b.id) (lenlen + slen) d
  m.close (header ++ mlogEncodeVarint len ++ mlogEncodeVarint s) (d + len)

/-- Write an `EXTENDED` log record that is only a subtype: `page_create()`, `undo_create()`. -/
def logWriteExtended (b : Block) (type : UInt8) : Mtr :=
  if !m.isLogged then m else
  let (header, m) := m.logWrite .extended b.id (some b.id) 1 0
  m.close (header ++ [type]) filPageType

/-- Write log for deleting a `ROW_FORMAT=REDUNDANT` record. -/
def pageDeleteRedundant (b : Block) (prevRec : Nat) : Mtr :=
  if !m.isLogged then m else
  let len := if prevRec < min2Byte then 2 else if prevRec < min3Byte then 3 else 4
  let (header, m) := m.logWrite .extended b.id (some b.id) len 0
  m.close (header ++ deleteRowFormatRedundant :: mlogEncodeVarint prevRec) filPageType

def pageDeleteDynamic (b : Block) (prevRec hdrSize dataSize : Nat) : Mtr :=
  if !m.isLogged then m else
  let len := (if prevRec < min2Byte then 2 else if prevRec < min3Byte then 3 else 4)
    + (if hdrSize < min2Byte then 1 else 2)
    + (if dataSize < min2Byte then 1 else if dataSize < min3Byte then 2 else 3)
  let (header, m) := m.logWrite .extended b.id (some b.id) len 0
  m.close (header ++ deleteRowFormatDynamic :: (mlogEncodeVarint prevRec ++
    mlogEncodeVarint hdrSize ++ mlogEncodeVarint dataSize)) filPageType

def undoAppend (m : Mtr) (b : Block) (data : List UInt8) : Mtr :=
  if !m.isLogged then m else
  let (header, m) := m.logWrite .extended b.id (some b.id) (data.length + 1) 0
  m.close (header ++ Redo.undoAppend :: data) filPageType

end Mtr

inductive PageWrite
  | memcpy (offset : Nat) (data : List UInt8)
  | memset (ofs len : Nat) (val : UInt8)
  | memsetString (ofs len : Nat) (str : List UInt8)
  | memmove (d s len : Nat)
  | extended (type : UInt8)
  | deleteRedundant (prevRec : Nat)
  | deleteDynamic (prevRec hdrSize dataSize : Nat)
  | undoAppend (data : List UInt8)
  deriving DecidableEq, Repr

structure MtrOp where
  block : Block
  write : PageWrite
  deriving DecidableEq, Repr

def Mtr.exec (m : Mtr) (op : MtrOp) : Mtr :=
  match op.write with
  | .memcpy offset data => m.memcpyLow op.block offset data
  | .memset ofs len val => m.memset op.block ofs len val
  | .memsetString ofs len str => m.memsetString op.block ofs len str
  | .memmove d s len => m.memmove op.block d s len
  | .extended type => m.logWriteExtended op.block type
  | .deleteRedundant prevRec => m.pageDeleteRedundant op.block prevRec
  | .deleteDynamic prevRec hdrSize dataSize => m.pageDeleteDynamic op.block prevRec hdrSize dataSize
  | .undoAppend data => m.undoAppend op.block data

def Mtr.run (m : Mtr) (ops : List MtrOp) : Mtr := ops.foldl Mtr.exec m

end MariaDB.Redo
