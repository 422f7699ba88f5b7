import MariaDB.Page.ApplyInsert
import MariaDB.Redo.MtrLog

/-!
# Deleting a record from an index page

`page_cur_delete_rec()` on an uncompressed page, with the redo log record that
`mtr_t::page_delete()` writes for it, and `page_apply_delete_redundant()` and
`page_apply_delete_dynamic()`, which execute this log record in crash recovery. Both end
in `page_mem_free()` and `page_dir_balance_slot()`.
-/
namespace MariaDB.Page

open Library (Frame)

/-- The private part of the page header that `page_create_low()` resets. -/
def pageHeaderPrivEnd : Nat := 26
def pageMaxTrxId : Nat := pageHeader + 18
def filRtreeSplitSeqNum : Nat := 26

def infimumSupremum (comp : Bool) : List UInt8 :=
  if comp then
    [0x01, 0x00, 0x02, 0x00, 0x0d, 0x69, 0x6e, 0x66, 0x69, 0x6d, 0x75, 0x6d, 0,
      0x01, 0x00, 0x0b, 0x00, 0x00, 0x73, 0x75, 0x70, 0x72, 0x65, 0x6d, 0x75, 0x6d]
  else
    [0x08, 0x01, 0x00, 0x00, 0x03, 0x00, 0x74, 0x69, 0x6e, 0x66, 0x69, 0x6d, 0x75, 0x6d, 0,
      0x09, 0x01, 0x00, 0x08, 0x03, 0x00, 0x00, 0x73, 0x75, 0x70, 0x72, 0x65, 0x6d, 0x75, 0x6d, 0]

structure IndexInfo where
  isSpatial : Bool
  /-- Whether `PAGE_MAX_TRX_ID` or `PAGE_ROOT_AUTO_INC` is preserved when the page is
  emptied: the page is a leaf of a secondary index of a persistent table, or the root. -/
  keepsMaxTrxId : Bool

/-- `rec_is_alter_metadata()`: both the minimum record flag and the delete mark are set. -/
def recIsAlterMetadata (f : Frame) (comp : Bool) (rec : Nat) : Bool :=
  getBits (f (rec - recNExtraBytes comp)).toNat 4 2 = 3

/-- Prepend a record to the `PAGE_FREE` list, or shrink `PAGE_HEAP_TOP`. -/
def pageMemFree (f : Frame) (rec dataSize extraSize : Nat) : Frame :=
  let free := f.read2 pageFree
  let nHeap := (f.read2 pageNHeap + 65535) % 65536
  let comp : Bool := 0x8000 ≤ nHeap
  let deletingTop : Bool :=
    nHeap = recGetHeapNo f comp rec + if comp then 0x8000 else 0
  let f :=
    if deletingTop then
      let extraSavings := f.read2 pageHeapTop + 65536 - (rec + dataSize)
      let f := (f.write2 pageHeapTop (rec - extraSize)).write2 pageNHeap nHeap
      if extraSavings % 65536 ≠ 0 then
        f.write2 pageGarbage (f.read2 pageGarbage + 65536 - extraSavings % 65536)
      else f
    else
      let f := f.write2 pageFree rec
      f.write2 pageGarbage (f.read2 pageGarbage + extraSize + dataSize)
  let f := f.write2 pageLastInsert 0
  let f := f.write2 pageNRecs (f.read2 pageNRecs + 65535)
  if deletingTop then f.memset (rec - extraSize) (extraSize + dataSize) 0
  else
    let next := if free = 0 then 0 else if comp then free + 65536 - rec else free
    (f.write2 (rec - recNext) next).memset rec dataSize 0

namespace PageEnv

variable (env : PageEnv)

def pageCreateLow (f : Frame) (comp : Bool) : Frame :=
  let f := f.write2 filPageType filPageIndex
  let f := f.memset pageHeader pageHeaderPrivEnd 0
  let f := f.write1 (pageNDirSlots + 1) 2
  let f := f.write1 pageDirectionB pageNoDirection
  let f := if comp then f.write1 pageNHeap 0x80 else f
  let f := f.write1 (pageNHeap + 1) pageHeapNoUserLow
  let f := f.write1 (pageHeapTop + 1) (pageSupremumEnd comp)
  let f := f.memcpy pageData (infimumSupremum comp)
  let f := f.memset (pageSupremumEnd comp) (env.srvPageSize - pageDir - pageSupremumEnd comp) 0
  let f := f.write1 (env.srvPageSize - pageDir - pageDirSlotSize * 2 + 1) (pageSupremum comp)
  f.write1 (env.srvPageSize - pageDir - pageDirSlotSize + 1) (pageInfimum comp)

def pageCreateEmpty (index : IndexInfo) (f : Frame) : Frame :=
  let maxTrxId := if index.keepsMaxTrxId then f.slice pageMaxTrxId 8 else List.replicate 8 0
  let f := env.pageCreateLow f (pageIsComp f)
  let f :=
    if index.isSpatial then
      let f := f.write1 (filPageType + 1) filPageRtree
      if f.slice filRtreeSplitSeqNum 8 ≠ List.replicate 8 0 then f.memset filRtreeSplitSeqNum 8 0
      else f
    else f
  if maxTrxId ≠ List.replicate 8 0 then f.memcpy pageMaxTrxId maxTrxId else f

def pageDirBalanceSlot (f : Frame) (s : Nat) : Frame :=
  let comp := pageIsComp f
  let nSlots := f.read2 pageNDirSlots
  -- the last directory slot cannot be balanced
  if s + 1 = nSlots then f else
  let slot := env.pageDirGetNthSlot s
  let upRec := f.read2 (slot - pageDirSlotSize)
  let slotRec := f.read2 slot
  let upNOwned := recGetNOwned f comp upRec
  if upNOwned ≤ pageDirSlotMinNOwned then
    -- merge the slots
    let f := recSetNOwned f comp slotRec 0
    let f := recSetNOwned f comp upRec (upNOwned + (pageDirSlotMinNOwned - 1))
    let lastSlot := env.pageDirGetNthSlot (nSlots - 1)
    let f := f.memmove (lastSlot + pageDirSlotSize) lastSlot (slot - lastSlot)
    let f := f.memset lastSlot 2 0
    f.write2 pageNDirSlots (nSlots - 1)
  else
    -- transfer one record to the underfilled slot
    match env.pageRecGetNext f slotRec with
    | none => f
    | some newRec =>
      let f := recSetNOwned f comp slotRec 0
      let f := recSetNOwned f comp newRec pageDirSlotMinNOwned
      let f := recSetNOwned f comp upRec (upNOwned - 1)
      f.write2 slot newRec

/-- The loop that looks for the immediate predecessor of `cur`, from a record before it. -/
def findPrevRec (f : Frame) (cur : Nat) : Nat → Nat → Option Nat
  | 0, _ => none
  | fuel + 1, rec =>
    match env.pageRecGetNext f rec with
    | none => none
    | some next => if next = cur then some rec else findPrevRec f cur fuel next

/-- Remove a record from the list and from its directory slot, free it, and balance the
slot. `slot` is the directory slot number `s`, of the owner `slotRec`, which owns `nOwned`
records. -/
def unlinkRec (f : Frame) (comp : Bool) (rec prevRec nextRec slot s slotRec nOwned extraSize
    dataSize : Nat) : Frame :=
  let g := if rec = slotRec then f.write2 slot prevRec else f
  let slotRec := if rec = slotRec then prevRec else slotRec
  let g := if comp then g.write2 (prevRec - recNext) (nextRec + 65536 - prevRec)
    else g.memcpy (prevRec - recNext) (g.slice (rec - recNext) 2)
  let g := recSetNOwned g comp slotRec (nOwned - 1)
  let g := pageMemFree g rec dataSize extraSize
  if nOwned ≤ pageDirSlotMinNOwned then env.pageDirBalanceSlot g s else g

end PageEnv

/-- The arguments of `mtr_t::page_delete()`. The sizes are only used in the `comp` format. -/
structure DeleteLog where
  prevRec : Nat
  hdrSize : Nat
  dataSize : Nat
  deriving DecidableEq, Repr

/-- How `page_cur_delete_rec()` ends. -/
inductive DeleteResult
  /-- The only record was deleted, and the page was created again. -/
  | emptied (f : Frame)
  | deleted (f : Frame) (log : DeleteLog)
  /-- The page was left alone because it is corrupted. -/
  | corrupted

namespace PageEnv

variable (env : PageEnv)

def pageCurDeleteRec (index : IndexInfo) (f : Frame) (cur : Nat) : DeleteResult :=
  let comp := pageIsComp f
  if f.read2 pageNRecs = 1 ∧ !recIsAlterMetadata f comp cur then
    .emptied (env.pageCreateEmpty index f)
  else
  match env.pageDirFindOwnerSlot f cur with
  | none | some 0 => .corrupted
  | some (s + 1) =>
    let slot := env.pageDirGetNthSlot (s + 1)
    let nOwned := recGetNOwned f comp (f.read2 slot)
    -- the record of the previous directory slot
    let start := f.read2 (slot + pageDirSlotSize)
    if start = cur then .corrupted else
    match env.findPrevRec f cur env.srvPageSize start with
    | none => .corrupted
    | some prevRec =>
    match env.pageRecGetNext f cur with
    | none => .corrupted
    | some nextRec =>
      let (extraSize, dataSize) := env.recGetOffsets f cur
      .deleted (env.unlinkRec f comp cur prevRec nextRec slot (s + 1) (f.read2 slot) nOwned
        extraSize dataSize) ⟨prevRec - pageInfimum comp, extraSize - recNExtraBytes comp, dataSize⟩

/-! ## Crash recovery -/

def applyDeleteCorrupted (f : Frame) (comp : Bool) (pageNo : Nat) : Bool :=
  f.read2 pageNRecs = 0 ∨ f.read2 pageNDirSlots < 2 ∨ !filPageIndexPageCheck f ∨
    pageGetPageNo f ≠ pageNo ∨ f.read2 (pageSupremum comp - recNext) ≠ 0 ∨ pageIsComp f ≠ comp

/-- The loop that looks for the owner of a record, at most `i` links away. In the `comp`
format, a link must lead over the header of a record. -/
def applyDeleteOwner (f : Frame) (comp : Bool) (slot : Nat) : Nat → Nat → Option Nat
  | i, s =>
    if recGetNOwned f comp s ≠ 0 then some s
    else
      let next := f.read2 (s - recNext)
      if comp ∧ (next < recNExtraBytes comp ∨ next > 65536 - recNExtraBytes comp) then none
      else if !inHeap comp slot (applyNext f comp s) then none
      else match i with
        | 0 => none
        | i + 1 => applyDeleteOwner f comp slot i (applyNext f comp s)

/-- Execute the log record of a delete. `sizes` are the sizes of the header and of the data
of the record. -/
def applyDelete (comp : Bool) (pageNo prevRec : Nat) (sizes : Nat → Nat × Nat) (f : Frame) :
    Bool × Frame :=
  let corrupted := (true, f)
  if applyDeleteCorrupted f comp pageNo then corrupted else
  let nSlots := f.read2 pageNDirSlots
  let slot := env.pageDirGetNthSlot (nSlots - 1)
  if prevRec > slot then corrupted else
  let cur := applyNext f comp prevRec
  if cur < pageSupremumEnd comp + recNExtraBytes comp ∨ slot < cur then corrupted else
  let (extraSize, dataSize) := sizes cur
  if cur < pageSupremumEnd comp + extraSize ∨ slot < cur + dataSize then corrupted else
  let next := applyNext f comp cur
  if !inHeap comp slot next then corrupted else
  match applyDeleteOwner f comp slot (f.read2 pageNRecs) cur with
  | none => corrupted
  | some s =>
  match findSlot f s (nSlots - 1) slot with
  | none => corrupted
  | some slot =>
    (false, env.unlinkRec f comp cur prevRec next slot ((env.pageDirGetNthSlot 0 - slot) / 2) s
      (recGetNOwned f comp s) extraSize dataSize)

/-- Apply a `DELETE_ROW_FORMAT_REDUNDANT` record. -/
def pageApplyDeleteRedundant (pageNo prev : Nat) (f : Frame) : Bool × Frame :=
  env.applyDelete false pageNo (pageInfimum false + prev)
    (fun rec => (recExtraSizeOld f rec, recGetDataSizeOld f rec)) f

/-- Apply a `DELETE_ROW_FORMAT_DYNAMIC` record. -/
def pageApplyDeleteDynamic (pageNo prev hdrSize dataSize : Nat) (f : Frame) : Bool × Frame :=
  env.applyDelete true pageNo ((pageInfimum true + prev) % 65536)
    (fun _ => (recNExtraBytes true + hdrSize, dataSize)) f

end PageEnv

end MariaDB.Page

namespace MariaDB.Redo

open Page (DeleteLog)

def Mtr.pageDelete (m : Mtr) (comp : Bool) (b : Block) (i : DeleteLog) : Mtr :=
  if comp then m.pageDeleteDynamic b i.prevRec i.hdrSize i.dataSize
  else m.pageDeleteRedundant b i.prevRec

end MariaDB.Redo
