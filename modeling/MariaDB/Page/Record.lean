import MariaDB.Library.Frame

/-!
# Index pages and their records

The layout of an uncompressed B-tree or R-tree page: the page header, the record
headers of `ROW_FORMAT=REDUNDANT` and of `COMPACT` and `DYNAMIC` (`comp`), the linked
list of records and the sparse page directory at the end of the page. A record is
the byte offset of its origin; its header is in front of it and its data follows.
-/
namespace MariaDB.Page

open Library (Frame)

/-! ## The page header -/

def filPageOffset : Nat := 4
def filPageType : Nat := 24
def filPageIndex : Nat := 17855
def filPageRtree : Nat := 17854
def filPageTypeInstant : Nat := 18

def pageHeader : Nat := 38
def pageNDirSlots : Nat := pageHeader + 0
def pageHeapTop : Nat := pageHeader + 2
def pageNHeap : Nat := pageHeader + 4
def pageFree : Nat := pageHeader + 6
def pageGarbage : Nat := pageHeader + 8
def pageLastInsert : Nat := pageHeader + 10
def pageDirectionB : Nat := pageHeader + 13
def pageNDirection : Nat := pageHeader + 14
def pageNRecs : Nat := pageHeader + 16
def pageLevel : Nat := pageHeader + 26
def pageData : Nat := pageHeader + 36 + 2 * 10

def recNExtraBytes (comp : Bool) : Nat := if comp then 5 else 6
def pageInfimum (comp : Bool) : Nat := if comp then pageData + 5 else pageData + 1 + 6
def pageSupremum (comp : Bool) : Nat :=
  if comp then pageData + 2 * 5 + 8 else pageData + 2 + 2 * 6 + 8
def pageSupremumEnd (comp : Bool) : Nat := pageSupremum comp + if comp then 8 else 9

def pageHeapNoUserLow : Nat := 2
def recMaxNFields : Nat := 1023

def pageLeft : Nat := 1
def pageRight : Nat := 2
def pageNoDirection : Nat := 5

/-- The size of the page trailer, below which the directory starts. -/
def pageDir : Nat := 8
def pageDirSlotSize : Nat := 2
def pageDirSlotMaxNOwned : Nat := 8
def pageDirSlotMinNOwned : Nat := 4

variable (f : Frame)

def pageIsComp : Bool := 128 ≤ (f pageNHeap).toNat
def pageIsLeaf : Bool := f.read2 pageLevel = 0
def pageDirGetNHeap : Nat := f.read2 pageNHeap % 0x8000
def filPageIndexPageCheck : Bool :=
  f.read2 filPageType = filPageIndex ∨ f.read2 filPageType = filPageRtree ∨
    f.read2 filPageType = filPageTypeInstant
def pageGetPageNo : Nat := f.read2 filPageOffset * 65536 + f.read2 (filPageOffset + 2)
def pageRecIsInfimum (rec : Nat) : Bool := rec = pageInfimum true ∨ rec = pageInfimum false

/-! ## Record headers -/

def getBits (v shift width : Nat) : Nat := v / 2 ^ shift % 2 ^ width

def setBits (v shift width val : Nat) : Nat :=
  v - v / 2 ^ shift % 2 ^ width * 2 ^ shift + val * 2 ^ shift

def recSetBitField1 (rec val offs shift width : Nat) : Frame :=
  f.write1 (rec - offs) (setBits (f (rec - offs)).toNat shift width val)

def recGetBitField2 (rec offs shift width : Nat) : Nat :=
  getBits (f.read2 (rec - offs)) shift width

def recSetBitField2 (rec val offs shift width : Nat) : Frame :=
  f.write2 (rec - offs) (setBits (f.read2 (rec - offs)) shift width val)

def recNext : Nat := 2

def recGetNOwned (comp : Bool) (rec : Nat) : Nat :=
  getBits (f (rec - recNExtraBytes comp)).toNat 0 4

def recSetNOwned (comp : Bool) (rec nOwned : Nat) : Frame :=
  recSetBitField1 f rec nOwned (recNExtraBytes comp) 0 4

def recGetHeapNo (comp : Bool) (rec : Nat) : Nat :=
  recGetBitField2 f rec (if comp then 4 else 5) 3 13

def recSetHeapNo (comp : Bool) (rec heapNo : Nat) : Frame :=
  recSetBitField2 f rec heapNo (if comp then 4 else 5) 3 13

/-- The next record on the page, or 0. The link is relative in the `comp` format. -/
def recGetNextOffs (srvPageSize : Nat) (f : Frame) (comp : Bool) (rec : Nat) : Nat :=
  let fieldValue := f.read2 (rec - recNext)
  if comp then if fieldValue = 0 then 0 else (rec + fieldValue) % srvPageSize else fieldValue

def recGetNFieldsOld (rec : Nat) : Nat := recGetBitField2 f rec 4 1 10

def recGet1byteOffsFlag (rec : Nat) : Bool := getBits (f (rec - 3)).toNat 0 1 = 1

/-- The end of the last field of a `ROW_FORMAT=REDUNDANT` record. -/
def recGetDataSizeOld (rec : Nat) : Nat :=
  let n := recGetNFieldsOld f rec
  if n = 0 then 0
  else if recGet1byteOffsFlag f rec then (f (rec - (6 + n))).toNat % 0x80
  else f.read2 (rec - (6 + 2 * n)) % 0x4000

/-- The size of the header of a `ROW_FORMAT=REDUNDANT` record. -/
def recExtraSizeOld (rec : Nat) : Nat :=
  6 + if recGet1byteOffsFlag f rec then recGetNFieldsOld f rec else recGetNFieldsOld f rec * 2

/-- What the page operations need to know of the server. In the `comp` format the sizes
of the header and the data of a record depend on the data dictionary. -/
structure PageEnv where
  srvPageSize : Nat
  recOffsComp : Frame → Nat → Nat × Nat

def PageEnv.recGetOffsets (env : PageEnv) (f : Frame) (rec : Nat) : Nat × Nat :=
  if pageIsComp f then env.recOffsComp f rec else (recExtraSizeOld f rec, recGetDataSizeOld f rec)

/-! ## The page directory -/

namespace PageEnv

variable (env : PageEnv)

def pageDirGetNthSlot (n : Nat) : Nat := env.srvPageSize - (pageDir + 2) - n * 2

variable (f : Frame)

/-- `page_rec_get_next_const()`; `none` on corruption. -/
def pageRecGetNext (rec : Nat) : Option Nat :=
  let offs := recGetNextOffs env.srvPageSize f (pageIsComp f) rec
  if offs < pageSupremum (pageIsComp f) then none
  else if offs > f.read2 pageHeapTop then none
  else some offs

def pageRecGetNth (f : Frame) : Nat → Nat → Option Nat
  | 0, rec => some rec
  | n + 1, rec => (env.pageRecGetNext f rec).bind (pageRecGetNth f n)

/-- The record of a directory slot; `none` if it is not on the page. -/
def pageDirSlotGetRecValidate (slot : Nat) : Option Nat :=
  let s := f.read2 slot
  if pageInfimum true ≤ s ∧ s ≤ f.read2 pageHeapTop then some s else none

def findSlot (f : Frame) (rec : Nat) : Nat → Nat → Option Nat
  | 0, _ => none
  | n + 1, slot => if f.read2 slot = rec then some slot else findSlot f rec n (slot + 2)

/-- The owner of a record, when `page_dir_find_owner_slot()` looks for it. -/
def findOwnerBelow (f : Frame) (slot : Nat) : Nat → Nat → Option Nat
  | 0, _ => none
  | fuel + 1, r =>
    if recGetNOwned f (pageIsComp f) r ≠ 0 then some r
    else match env.pageRecGetNext f r with
      | none => none
      | some r => if r < pageSupremum (pageIsComp f) ∨ r ≥ slot then none
        else findOwnerBelow f slot fuel r

/-- The number of the directory slot that owns a record; `none` on corruption. -/
def pageDirFindOwnerSlot (rec : Nat) : Option Nat :=
  let firstSlot := env.pageDirGetNthSlot 0
  let nSlots := f.read2 pageNDirSlots
  let slot := env.pageDirGetNthSlot (nSlots - 1)
  (env.findOwnerBelow f slot env.srvPageSize rec).bind fun r =>
    (findSlot f r nSlots slot).map fun slot => (firstSlot - slot) / pageDirSlotSize

/-- Split a directory slot which owns too many records; `none` on corruption. -/
def pageDirSplitSlot (slot : Nat) : Option Frame :=
  let nOwned := pageDirSlotMaxNOwned + 1
  (pageDirSlotGetRecValidate f (slot + pageDirSlotSize)).bind fun rec =>
  (env.pageRecGetNth f (nOwned / 2) rec).bind fun rec =>
    let nSlots := f.read2 pageNDirSlots
    let lastSlot := env.srvPageSize - (pageDir + pageDirSlotSize) - nSlots * pageDirSlotSize
    if slot < lastSlot then none
    else
      let f := f.memmove lastSlot (lastSlot + pageDirSlotSize) (slot - lastSlot)
      let halfOwned := nOwned / 2
      let f := f.write2 pageNDirSlots (nSlots + 1)
      let f := f.write2 slot rec
      let comp := pageIsComp f
      let f := recSetNOwned f comp (f.read2 slot) halfOwned
      some (recSetNOwned f comp (f.read2 (slot - pageDirSlotSize)) (nOwned - halfOwned))

end PageEnv

/-- Update `PAGE_DIRECTION_B` and `PAGE_N_DIRECTION` for an insert between two records. -/
def pageUpdateDirection (prevRec nextRec lastInsert : Nat) : Frame :=
  let dir := (f pageDirectionB).toNat
  let noDirection := (f.write1 pageDirectionB (setBits dir 0 3 pageNoDirection)).write2
    pageNDirection 0
  let incDir (direction : Nat) := (f.write1 pageDirectionB (setBits dir 0 3 direction)).write2
    pageNDirection (f.read2 pageNDirection + 1)
  if f (filPageType + 1) = UInt8.ofNat filPageRtree then f
  else if lastInsert = 0 then noDirection
  else if lastInsert = prevRec ∧ getBits dir 0 3 ≠ pageLeft then incDir pageRight
  else if nextRec = lastInsert ∧ getBits dir 0 3 ≠ pageRight then incDir pageLeft
  else noDirection

end MariaDB.Page
