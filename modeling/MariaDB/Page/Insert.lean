import MariaDB.Page.Record
import MariaDB.Redo.MtrLog

/-!
# Inserting a record on an index page

`page_cur_insert_rec_low()` on an uncompressed page, and the redo log record that
`mtr_t::page_insert()` writes for it. The log record omits the bytes that the new
record has in common with the bytes around its predecessor.
-/
namespace MariaDB.Page

open Library (Frame)
open Redo (min2Byte min3Byte mlogEncodeVarint)

/-- A record to insert: the variable-size part of its header, the fixed-size part, and
its data. -/
structure InsertRec (comp : Bool) where
  header : List UInt8
  fixed : List UInt8
  data : List UInt8
  fixed_length : fixed.length = recNExtraBytes comp

namespace InsertRec

variable {comp : Bool} (rec : InsertRec comp)

def bytes : List UInt8 := rec.header ++ rec.fixed ++ rec.data

def extraSize : Nat := rec.header.length + recNExtraBytes comp

/-- The frame that the record is in, with its origin at offset `extraSize`. -/
def frame : Frame := Frame.zeros.memcpy 0 rec.bytes

def infoBits : Nat := getBits (rec.frame (rec.extraSize - recNExtraBytes comp)).toNat 4 4 * 16

def status : Nat := getBits (rec.frame (rec.extraSize - 3)).toNat 0 3

def infoAndStatusBits : Nat := if comp then rec.infoBits + rec.status else rec.infoBits

end InsertRec

/-- The arguments of `mtr_t::page_insert()`. `shift` is only used in the `comp` format
and `nFieldsS` is only used in the other one. -/
structure InsertLog where
  reuse : Bool
  prevRec : Nat
  infoStatus : Nat
  shift : Int
  nFieldsS : Nat
  hdrC : Nat
  dataC : Nat
  hdr : List UInt8
  data : List UInt8
  deriving DecidableEq, Repr

structure Allocation where
  frame : Frame
  insertBuf : Nat
  heapNo : Nat
  reuse : Bool
  freeOffset : Int

namespace PageEnv

variable (env : PageEnv)

def pageDirCalcReservedSpace (nRecs : Nat) : Nat :=
  (pageDirSlotSize * nRecs + pageDirSlotMinNOwned - 1) / pageDirSlotMinNOwned

def pageGetFreeSpaceOfEmpty (comp : Bool) : Nat :=
  env.srvPageSize - pageSupremumEnd comp - pageDir - 2 * pageDirSlotSize

def pageGetMaxInsertSize (f : Frame) (nRecs : Nat) : Nat :=
  let comp := pageIsComp f
  let occupied := f.read2 pageHeapTop - pageSupremumEnd comp +
    pageDirCalcReservedSpace (nRecs + pageDirGetNHeap f - 2)
  let freeSpace := env.pageGetFreeSpaceOfEmpty comp
  if occupied > freeSpace then 0 else freeSpace - occupied

/-- Allocate space for inserting an index record at `PAGE_HEAP_TOP`. -/
def pageMemAllocHeap (f : Frame) (need : Nat) : Option Allocation :=
  let top := f.read2 pageHeapTop
  if need > env.pageGetMaxInsertSize f 1 then none
  else
    let h := f.read2 pageNHeap
    if getBits (h + 1) 13 2 ≠ 0 then none
    else some ⟨(f.write2 pageHeapTop (top + need)).write2 pageNHeap (h + 1), top, h % 0x8000,
      false, 0⟩

/-- Reuse the head of `PAGE_FREE` or allocate from `PAGE_HEAP_TOP`. -/
def allocate (f : Frame) (extraSize recSize : Nat) : Option Allocation :=
  let freeRec := f.read2 pageFree
  if freeRec = 0 then env.pageMemAllocHeap f recSize
  else
    let (fextraSize, fdataSize) := env.recGetOffsets f freeRec
    if fextraSize + fdataSize < recSize then env.pageMemAllocHeap f recSize
    else
      let comp := pageIsComp f
      let next := f.read2 (freeRec - recNext)
      let f₁ := f.write2 pageFree
        (if comp then if next ≠ 0 then (freeRec + next) % 65536 else 0 else next)
      let f₂ := f₁.write2 pageGarbage (f₁.read2 pageGarbage + 65536 - recSize)
      some ⟨f₂, freeRec - fextraSize, recGetHeapNo f comp freeRec, true, extraSize - fextraSize⟩

def findOwner (f : Frame) (comp : Bool) : Nat → Nat → Option Nat
  | 0, _ => none
  | fuel + 1, rec =>
    if recGetNOwned f comp rec ≠ 0 then some rec
    else findOwner f comp fuel (recGetNextOffs env.srvPageSize f comp rec)

/-- Link the inserted record after `cur` and initialize its fixed-size header. The status
bits and the number of fields are those of the record that was copied. -/
def linkInserted (f : Frame) (comp : Bool) (cur nextRec insertRec heapNo : Nat) : Frame :=
  let f := recSetHeapNo (recSetNOwned f comp insertRec 0) comp insertRec heapNo
  if comp then
    let f := f.write2 (insertRec - recNext) (nextRec + 65536 - insertRec)
    f.write2 (cur - recNext) (insertRec + 65536 - cur)
  else
    let f := f.memcpy (insertRec - recNext) (f.slice (cur - recNext) 2)
    f.write2 (cur - recNext) insertRec

/-- Count common header bytes with the preceding record, from the last one down. The
byte at `cStart` is never counted. -/
def hdrCommonLoop (f : Frame) (cStart : Nat) : List UInt8 → Nat → Nat
  | [], _ => 0
  | r :: rs, c => if r = f c ∧ c ≠ cStart then hdrCommonLoop f cStart rs (c - 1) + 1 else 0

def hdrCommon {comp : Bool} (f : Frame) (cur : Nat) (rec : InsertRec comp) : Nat :=
  let cStart := cur - rec.extraSize
  if (comp → recNExtraBytes comp < rec.extraSize) ∧
      pageSupremumEnd comp + recNExtraBytes comp ≤ cStart then
    hdrCommonLoop f cStart rec.header.reverse (cur - (recNExtraBytes comp + 1))
  else 0

def dataCommonEnd (comp : Bool) (cur dataSize insertBuf ownerRec nSlots : Nat) : Nat :=
  let cEnd := if pageRecIsInfimum cur ∧ dataSize > 8 then cur + 8 else cur + dataSize
  if cur ≤ insertBuf ∧ cEnd > insertBuf then insertBuf
  else if cEnd < ownerRec ∧ cEnd ≥ ownerRec - recNExtraBytes comp then
    ownerRec - recNExtraBytes comp
  else min cEnd (env.srvPageSize - pageDir - pageDirSlotSize * nSlots)

def dataCommonLoop (f : Frame) (cEnd : Nat) : List UInt8 → Nat → Nat
  | [], _ => 0
  | r :: rs, c => if c ≠ cEnd ∧ r = f c then dataCommonLoop f cEnd rs (c + 1) + 1 else 0

def insertLog {comp : Bool} (f : Frame) (cur : Nat) (rec : InsertRec comp) (a : Allocation)
    (ownerRec : Nat) : InsertLog :=
  let insertRec := a.insertBuf + rec.extraSize
  let hdrC := hdrCommon f cur rec
  let cEnd := env.dataCommonEnd comp cur rec.data.length a.insertBuf ownerRec
    (f.read2 pageNDirSlots)
  let dataC := dataCommonLoop f cEnd rec.data cur
  { reuse := a.reuse
    prevRec := cur - pageInfimum comp
    infoStatus := rec.infoAndStatusBits
    shift := a.freeOffset
    nFieldsS := 2 * recGetNFieldsOld f insertRec + (recGet1byteOffsFlag f insertRec).toNat
    hdrC := hdrC
    dataC := dataC
    hdr := f.slice a.insertBuf (rec.header.length - hdrC)
    data := rec.data.drop dataC }

/-- Insert a record next to the page cursor on an uncompressed page, and log it. The
result is `none` if there is not enough space or if the page is corrupted. -/
def pageCurInsertRecLow {comp : Bool} (f : Frame) (cur : Nat) (rec : InsertRec comp) :
    Option (Frame × InsertLog) :=
  -- 1. and 2. Find suitable space
  (env.allocate f rec.extraSize rec.bytes.length).bind fun a =>
  let insertRec := a.insertBuf + rec.extraSize
  let nextRec := recGetNextOffs env.srvPageSize a.frame comp cur
  -- update page header fields
  let lastInsert := a.frame.read2 pageLastInsert
  let f := a.frame.write2 pageLastInsert insertRec
  let f := pageUpdateDirection f cur nextRec lastInsert
  let f := f.write2 pageNRecs (f.read2 pageNRecs + 1)
  -- update the preceding record header, the owner record and prepare the record
  let f := f.memcpy a.insertBuf rec.bytes
  let f := linkInserted f comp cur nextRec insertRec a.heapNo
  (env.findOwner f comp env.srvPageSize nextRec).bind fun ownerRec =>
  let nOwned := recGetNOwned f comp ownerRec
  let f := recSetNOwned f comp ownerRec (nOwned + 1)
  let log := env.insertLog f cur rec a ownerRec
  -- split the directory slot if it owns too many records
  if nOwned = pageDirSlotMaxNOwned then
    (env.pageDirFindOwnerSlot f ownerRec).bind fun owner =>
    (env.pageDirSplitSlot f (env.pageDirGetNthSlot owner)).map (·, log)
  else some (f, log)

end PageEnv

end MariaDB.Page

namespace MariaDB.Redo

open Page (InsertLog)

def insertHeapOrReuse (comp reuse : Bool) : UInt8 :=
  if comp then if reuse then insertReuseDynamic else insertHeapDynamic
  else if reuse then insertReuseRedundant else insertHeapRedundant

/-- The number of bytes that `PAGE_FREE` is moving by, with the sign in the least
significant bit. -/
def encodeShift (shift : Int) : Nat :=
  if shift < 0 then (-shift).toNat <<< 1 ||| 1 else shift.toNat <<< 1

/-- Write log for inserting a `ROW_FORMAT=REDUNDANT` record. -/
def Mtr.pageInsertRedundant (m : Mtr) (b : Block) (i : InsertLog) : Mtr :=
  let nFieldsS := (i.nFieldsS - 2) <<< 2 ||| i.infoStatus >>> 4
  let len := (if i.prevRec < min2Byte then 2 else if i.prevRec < min3Byte then 3 else 4)
    + (if nFieldsS < min2Byte then 1 else 2)
    + (if i.hdrC < min2Byte then 1 else 2)
    + (if i.dataC < min2Byte then 1 else 2)
    + (i.hdr.length + i.data.length)
  let (header, m) := m.logWrite .extended b.id (some b.id) len 0
  m.close (header ++ insertHeapOrReuse false i.reuse :: (mlogEncodeVarint i.prevRec ++
    (mlogEncodeVarint nFieldsS ++ (mlogEncodeVarint i.hdrC ++ (mlogEncodeVarint i.dataC ++
    (i.hdr ++ i.data)))))) filPageType

def Mtr.pageInsertDynamic (m : Mtr) (b : Block) (i : InsertLog) : Mtr :=
  let encHdrL := i.hdr.length <<< 3 ||| (i.infoStatus &&& 4) ||| i.infoStatus >>> 4
  let shift := encodeShift i.shift
  let len := (if i.prevRec < min2Byte then 2 else if i.prevRec < min3Byte then 3 else 4)
    + (if i.reuse then if shift < min2Byte then 1 else if shift < min3Byte then 2 else 3 else 0)
    + (if i.hdrC < min2Byte then 1 else 2)
    + (if encHdrL < min2Byte then 1 else if encHdrL < min3Byte then 2 else 3)
    + (if i.dataC < min2Byte then 1 else if i.dataC < min3Byte then 2 else 3)
    + (i.hdr.length + i.data.length)
  let (header, m) := m.logWrite .extended b.id (some b.id) len 0
  m.close (header ++ insertHeapOrReuse true i.reuse :: (mlogEncodeVarint i.prevRec ++
    ((if i.reuse then mlogEncodeVarint shift else []) ++ (mlogEncodeVarint encHdrL ++
    (mlogEncodeVarint i.hdrC ++ (mlogEncodeVarint i.dataC ++ (i.hdr ++ i.data))))))) filPageType

end MariaDB.Redo
