import MariaDB.Page.Record

/-!
# Applying an insert in crash recovery

`page_apply_insert_redundant()` and `page_apply_insert_dynamic()` execute the log
record of an insert on the before-image of the page. All consistency checks come
before the first change, except those of the directory split. A result `(true, f)`
reports corruption.
-/
namespace MariaDB.Page

open Library (Frame)

namespace PageEnv

variable (env : PageEnv)

variable (f : Frame)

def applyNext (comp : Bool) (rec : Nat) : Nat :=
  if comp then (rec + f.read2 (rec - recNext)) % 65536 else f.read2 (rec - recNext)

def inHeap (comp : Bool) (heapTop rec : Nat) : Bool :=
  rec = pageSupremum comp ∨ pageSupremumEnd comp + recNExtraBytes comp ≤ rec ∧ rec ≤ heapTop

/-- The loop that looks for the owner of a record, at most `ns` links away. -/
def applyFindOwner (f : Frame) (comp : Bool) (heapTop : Nat) : Nat → Nat → Option Nat
  | ns, rec =>
    if recGetNOwned f comp rec ≠ 0 then some rec
    else if !inHeap comp heapTop (applyNext f comp rec) then none
    else match ns with
      | 0 => none
      | ns + 1 => applyFindOwner f comp heapTop ns (applyNext f comp rec)

def applyOwnerSlot (comp : Bool) (heapTop lastSlot nSlots nextRec : Nat) :
    Option (Nat × Nat) :=
  (applyFindOwner f comp heapTop pageDirSlotMaxNOwned nextRec).bind fun ownerRec =>
    if recGetNOwned f comp ownerRec > pageDirSlotMaxNOwned then none
    else (findSlot f ownerRec (nSlots - 1) lastSlot).map (ownerRec, ·)

def applyFinish (comp : Bool) (prevRec nextRec ownerRec ownerSlot lastInsert : Nat) :
    Bool × Frame :=
  let nOwned := recGetNOwned f comp ownerRec
  let f := recSetNOwned f comp ownerRec (nOwned + 1)
  let f := pageUpdateDirection f prevRec nextRec lastInsert
  let f := f.write2 pageNRecs (f.read2 pageNRecs + 1)
  if nOwned = pageDirSlotMaxNOwned then
    match env.pageDirSplitSlot f ownerSlot with
    | none => (true, f)
    | some f => (false, f)
  else (false, f)

def applyHeaderCorrupted (comp : Bool) (pageNo : Nat) : Bool :=
  let nSlots := f.read2 pageNDirSlots
  let lastSlot := env.pageDirGetNthSlot (nSlots - 1)
  let heapTop := f.read2 pageHeapTop
  nSlots < 2 ∨ f.read2 pageNHeap < pageHeapNoUserLow + (if comp then 0x8000 else 0) ∨
    f.read2 pageNHeap - (if comp then 0x8000 else 0) ≥ env.srvPageSize / recNExtraBytes comp ∨
    f.read2 pageNHeap - (if comp then 0x8000 else 0) < nSlots ∨
    !filPageIndexPageCheck f ∨ pageGetPageNo f ≠ pageNo ∨
    f.read2 (pageSupremum comp - recNext) ≠ 0 ∨
    pageSupremumEnd comp > heapTop ∨ heapTop > lastSlot ∨
    f.read2 lastSlot ≠ pageSupremum comp ∨
    f.read2 (env.pageDirGetNthSlot 0) ≠ pageInfimum comp

/-- The checks of the predecessor of a `ROW_FORMAT=REDUNDANT` record. -/
def applyPrevCorruptedOld (prev hdrC heapTop : Nat) : Bool :=
  let heapBot := pageSupremumEnd false
  let prevRec := pageInfimum false + prev
  prev ≠ 0 ∧ (heapBot + (6 + 1) > prevRec ∨ prevRec > heapTop) ∨
    recGetNFieldsOld f prevRec = 0 ∨ recGetNFieldsOld f prevRec > recMaxNFields ∨
    prevRec ≠ pageInfimum false ∧ prevRec < heapBot + recExtraSizeOld f prevRec ∨
    hdrC ≠ 0 ∧ prevRec < heapBot + hdrC ∨
    prevRec + recGetDataSizeOld f prevRec > heapTop ∨
    !inHeap false heapTop (f.read2 (prevRec - recNext))

/-- Take the space of a `ROW_FORMAT=REDUNDANT` record: the page, the start of the space
and the heap number. -/
def applyAllocateOld (reuse : Bool) (heapTop lastSlot extraSize dataSize : Nat) :
    Option (Frame × Nat × Nat) :=
  let heapBot := pageSupremumEnd false
  if reuse then
    let freeRec := f.read2 pageFree
    let fextraSize := recExtraSizeOld f freeRec
    let fdataSize := recGetDataSizeOld f freeRec
    let garbage := f.read2 pageGarbage
    let nextFree := f.read2 (freeRec - recNext)
    if heapBot + 6 > freeRec ∨ freeRec > heapTop ∨ freeRec < heapBot + fextraSize ∨
        freeRec + fdataSize > heapTop ∨ extraSize + dataSize > fextraSize + fdataSize ∨
        garbage < fextraSize + fdataSize ∨
        nextFree ≠ 0 ∧ (nextFree < heapBot + (6 + 1) ∨ heapTop < nextFree) then none
    else
      let f₁ := f.write2 pageGarbage (garbage - extraSize - dataSize)
      some (f₁.memcpy pageFree (f₁.slice (freeRec - recNext) 2), freeRec - fextraSize,
        recGetHeapNo f₁ false freeRec)
  else if heapTop + extraSize + dataSize > lastSlot then none
  else
    let h := f.read2 pageNHeap
    let f := f.write2 pageNHeap (h + 1)
    some (f.write2 pageHeapTop (f.read2 pageHeapTop + extraSize + dataSize), heapTop, h)

def applyHeaderOld (prevRec hdrC extraSize nFields infoBits : Nat) (isShort : Bool)
    (data : List UInt8) : Frame :=
  let buf := Frame.zeros.memcpy 0 (data.take (extraSize - hdrC))
  let buf := buf.memcpy (extraSize - hdrC) (f.slice (prevRec - hdrC) hdrC)
  let buf := recSetBitField1 buf extraSize infoBits 6 4 4
  let buf := recSetBitField1 buf extraSize isShort.toNat 3 0 1
  let buf := recSetBitField2 buf extraSize nFields 4 1 10
  recSetNOwned buf false extraSize 0

def pageApplyInsertRedundant (pageNo : Nat) (reuse : Bool) (prev encHdr hdrC dataC : Nat)
    (data : List UInt8) (f : Frame) : Bool × Frame :=
  let corrupted := (true, f)
  if env.applyHeaderCorrupted f false pageNo then corrupted else
  let nSlots := f.read2 pageNDirSlots
  let lastSlot := env.pageDirGetNthSlot (nSlots - 1)
  let heapTop := f.read2 pageHeapTop
  let prevRec := pageInfimum false + prev
  if applyPrevCorruptedOld f prev hdrC heapTop then corrupted else
  let nextRec := f.read2 (prevRec - recNext)
  let isShort : Bool := getBits encHdr 2 1 = 1
  let nFields := encHdr / 8 + 1
  if nFields > recMaxNFields then corrupted else
  let extraSize := 6 + if isShort then nFields else nFields * 2
  let hdrC := hdrC + 6
  if hdrC > extraSize then corrupted else
  if extraSize - hdrC > data.length then corrupted else
  match applyOwnerSlot f false heapTop lastSlot nSlots nextRec with
  | none => corrupted
  | some (ownerRec, ownerSlot) =>
  let insertBuf := applyHeaderOld f prevRec hdrC extraSize nFields (getBits encHdr 0 2) isShort data
  let dataSize := recGetDataSizeOld insertBuf extraSize
  if dataC > dataSize then corrupted else
  if extraSize - hdrC + dataSize - dataC ≠ data.length then corrupted else
  match applyAllocateOld f reuse heapTop lastSlot extraSize dataSize with
  | none => corrupted
  | some (f, buf, heapNo) =>
  let insertBuf := recSetHeapNo insertBuf false extraSize heapNo
  let lastInsert := f.read2 pageLastInsert
  let f := f.memcpy buf (insertBuf.slice 0 extraSize)
  let buf := buf + extraSize
  let f := f.write2 pageLastInsert buf
  let f := f.memcpy (prevRec - recNext) (f.slice pageLastInsert 2)
  let f := f.memcpy buf (f.slice prevRec dataC)
  let f := f.memcpy (buf + dataC) (data.drop (extraSize - hdrC))
  env.applyFinish f false prevRec nextRec ownerRec ownerSlot lastInsert

def applyAllocateComp (reuse : Bool) (shift heapTop lastSlot extraSize dataSize : Nat) :
    Option (Frame × Nat × Nat) :=
  let heapBot := pageSupremumEnd true
  if reuse then
    let freeRec := f.read2 pageFree
    -- a pointer that is below the page fails the check against the heap
    let buf : Int := (freeRec : Int) - extraSize +
      (if shift % 2 = 1 then -((shift / 2 : Nat) : Int) else (shift / 2 : Nat))
    let garbage := f.read2 pageGarbage
    let next := f.read2 (freeRec - recNext)
    let n := if next ≠ 0 then (next + freeRec) % 65536 else 0
    if heapBot + 5 > freeRec ∨ freeRec > heapTop ∨ (heapBot : Int) > buf ∨
        buf + extraSize + dataSize > heapTop ∨ garbage < extraSize + dataSize ∨
        next ≠ 0 ∧ (n < heapBot + 5 ∨ heapTop < n) then none
    else
      let f₁ := (f.write2 pageFree n).write2 pageGarbage (garbage - (extraSize + dataSize))
      some (f₁, buf.toNat, recGetHeapNo f₁ true freeRec)
  else if heapTop + extraSize + dataSize > lastSlot then none
  else
    let h := f.read2 pageNHeap
    let f := f.write2 pageNHeap (h + 1)
    some (f.write2 pageHeapTop (f.read2 pageHeapTop + extraSize + dataSize), heapTop, h % 0x8000)

def applyHeaderComp (buf prevRec nextRec heapNo encHdrL hdrC : Nat)
    (data : List UInt8) : Frame :=
  let hdrL := encHdrL / 8
  let f := f.memcpy buf (data.take hdrL)
  let buf := buf + hdrL
  let f := f.memcpy buf (f.slice (prevRec - 5 - hdrC) hdrC)
  let buf := buf + hdrC
  let status := if pageIsLeaf f then getBits encHdrL 2 1 * 4 else 1
  let f := f.write1 buf (getBits encHdrL 0 2 * 16)
  let f := f.write1 (buf + 1) (heapNo / 32)
  let f := f.write1 (buf + 2) (heapNo % 32 * 8 + status)
  let buf := buf + 3 + recNext
  f.write2 (buf - recNext) (nextRec + 65536 - buf)

def pageApplyInsertDynamic (pageNo : Nat) (reuse : Bool) (prev shift encHdrL hdrC dataC : Nat)
    (data : List UInt8) (f : Frame) : Bool × Frame :=
  let corrupted := (true, f)
  let instant : Bool := getBits encHdrL 2 1 = 1
  let hdrL := encHdrL / 8
  if env.applyHeaderCorrupted f true pageNo ∨ instant ∧ !pageIsLeaf f ∨ hdrL > data.length then
    corrupted else
  let nSlots := f.read2 pageNDirSlots
  let lastSlot := env.pageDirGetNthSlot (nSlots - 1)
  let heapTop := f.read2 pageHeapTop
  let prevRec := (pageInfimum true + prev) % 65536
  let nextRec := applyNext f true prevRec
  if prev ≠ 0 ∧ (pageSupremumEnd true + 5 > prevRec ∨ prevRec > heapTop) then corrupted else
  if !inHeap true heapTop nextRec then corrupted else
  match applyOwnerSlot f true heapTop lastSlot nSlots nextRec with
  | none => corrupted
  | some (ownerRec, ownerSlot) =>
  let extraSize := 5 + hdrC + hdrL
  let dataSize := dataC + data.length - hdrL
  match applyAllocateComp f reuse shift heapTop lastSlot extraSize dataSize with
  | none => corrupted
  | some (f, buf, heapNo) =>
  let f := applyHeaderComp f buf prevRec nextRec heapNo encHdrL hdrC data
  let buf := buf + extraSize
  let lastInsert := f.read2 pageLastInsert
  let f := f.write2 pageLastInsert buf
  let f := f.write2 (prevRec - recNext) (buf + 65536 - prevRec)
  let f := f.memcpy buf (f.slice prevRec dataC)
  let f := f.memcpy (buf + dataC) (data.drop hdrL)
  env.applyFinish f true prevRec nextRec ownerRec ownerSlot lastInsert

end PageEnv

end MariaDB.Page
