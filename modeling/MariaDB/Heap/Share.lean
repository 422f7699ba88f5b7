import MariaDB.Heap.TreeSearch

/-!
# Operations on a HEAP table

The handles (`HP_INFO`) of a table share its rows and its BTREE indexes (`HP_SHARE`). A
handle remembers where its last read ended in an index: `parents`, `last_pos` and the
`key_version` of the table at that time. What the comparison functions and the packing of
keys compute is a parameter; so is what `malloc()` returns.
-/
namespace MariaDB.Heap

open Function

/-- The key definitions of a table: `κ` are the keys in the trees, `σ` the packed search keys
and `ρ` the records. -/
structure TableDef (κ σ ρ : Type) where
  keys : Nat
  /-- `HA_NOSAME`. -/
  unique : Nat → Bool
  /-- `hp_rb_make_key()` of a record at a position. -/
  makeKey : Nat → ρ → Nat → κ
  /-- `keys_compare()` of the key of an element and a new key in `hp_rb_write_key()`. -/
  insertCompare : Nat → κ → κ → Ordering
  /-- The same with `SEARCH_SAME`, as in `hp_rb_delete_key()`. -/
  deleteCompare : Nat → κ → κ → Ordering
  /-- The comparison with a search key of length `lastkey_len`. -/
  findCompare : Nat → σ → κ → Ordering
  /-- The comparison with a search key that `heap_rprev()` uses. -/
  prevCompare : Nat → σ → κ → Ordering
  /-- `lastkey_len` is zero. -/
  emptyKey : σ → Bool
  /-- `hp_rec_key_cmp()`: the two records differ in the key. -/
  keyCmp : Nat → ρ → ρ → Bool
  /-- The record as it is linked into the list of deleted records. -/
  withLink : Option Nat → ρ → ρ
  link : ρ → Option Nat

/-- The bits of `info->update`. -/
structure UpdateState where
  aktiv : Bool
  noKey : Bool
  deleted : Bool
  nextFound : Bool
  prevFound : Bool
  deriving DecidableEq, Repr

namespace UpdateState

def none : UpdateState := ⟨false, false, false, false, false⟩

/-- `HA_STATE_AKTIV | HA_STATE_NO_KEY | HA_STATE_DELETED`. -/
def positioned (u : UpdateState) : Bool := u.aktiv || u.noKey || u.deleted

/-- `HA_STATE_NEXT_FOUND` for reads that begin on the left, `HA_STATE_PREV_FOUND` for the
others. -/
def found (near : Side) (u : UpdateState) : Bool :=
  match near with
  | .left => u.nextFound
  | .right => u.prevFound

def setFound (near : Side) (u : UpdateState) : UpdateState :=
  match near with
  | .left => { u with nextFound := true }
  | .right => { u with prevFound := true }

end UpdateState

/-- `HP_INFO`. -/
structure Handle (σ : Type) where
  lastinx : Option Nat
  cursor : Cursor
  keyVersion : UInt32
  update : UpdateState
  currentPtr : Option Nat
  lastkey : σ
  /-- `READ_CHECK_USED`. -/
  checkUsed : Bool
  deriving DecidableEq

/-- `HP_SHARE`: the trees by the number of their index, the rows by their position, the first
deleted row. -/
structure Share (κ ρ : Type) where
  trees : Nat → Tree κ
  rows : Nat → ρ
  delLink : Option Nat
  keyVersion : UInt32

structure State (κ σ ρ ι : Type) where
  share : Share κ ρ
  handles : ι → Handle σ

inductive HaError
  | wrongIndex
  | keyNotFound
  | endOfFile
  | noActiveRecord
  | recordChanged
  | foundDuppKey
  | recordFileFull
  | errno (n : Nat)
  deriving DecidableEq, Repr

/-- What `malloc()` returns for the elements of a call: an address that no element has. The
first argument numbers the allocations of the call. -/
structure Allocator where
  addr : Nat → List Nat → Nat
  fresh : ∀ n used, addr n used ∉ used

variable {κ σ ρ ι : Type} [DecidableEq ρ] [DecidableEq ι]

namespace TableDef

variable (tbl : TableDef κ σ ρ)

def used (trees : Nat → Tree κ) : List Nat :=
  (List.range tbl.keys).flatMap fun i => (trees i).addrs

/-- `hp_rb_write_key()`; `none` is `HA_ERR_FOUND_DUPP_KEY`. -/
def writeKey (i : Nat) (record : ρ) (pos addr : Nat) (t : Tree κ) : Option (Tree κ) :=
  let key := tbl.makeKey i record pos
  treeInsert (tbl.unique i) (fun k => tbl.insertCompare i k key) ⟨addr, key, pos⟩ t

/-- `hp_rb_delete_key()` without what it does to the handle; `none` if there is no such
key. -/
def deleteKey (i : Nat) (record : ρ) (pos : Nat) (t : Tree κ) : Option (Tree κ) :=
  treeDelete (fun k => tbl.deleteCompare i k (tbl.makeKey i record pos)) t

/-- The keys of a new row, up to the index that refuses its key. -/
def writeKeys (record : ρ) (pos : Nat) (malloc : Allocator) :
    List Nat → (Nat → Tree κ) → (Nat → Tree κ) × Option Nat
  | [], trees => (trees, none)
  | i :: rest, trees =>
    match tbl.writeKey i record pos (malloc.addr i (tbl.used trees)) (trees i) with
    | none => (trees, some i)
    | some t => writeKeys record pos malloc rest (update trees i t)

def removeKeys (record : ρ) (pos : Nat) : Nat → (Nat → Tree κ) → (Nat → Tree κ)
  | 0, trees => trees
  | n + 1, trees =>
    match tbl.deleteKey n record pos (trees n) with
    | none => trees
    | some t => removeKeys record pos n (update trees n t)

/-- `last_pos` is reset when the key is deleted from the index of the last read. -/
def resetPos (lastinx : Option Nat) (i : Nat) (lastPos : Option Nat) : Option Nat :=
  if lastinx = some i then none else lastPos

/-- The keys of a row are deleted, up to the index that has none: the trees, `last_pos` and
whether all keys were deleted. -/
def deleteKeys (record : ρ) (pos : Nat) (lastinx : Option Nat) :
    List Nat → (Nat → Tree κ) → Option Nat → (Nat → Tree κ) × Option Nat × Bool
  | [], trees, lastPos => (trees, lastPos, true)
  | i :: rest, trees, lastPos =>
    match tbl.deleteKey i record pos (trees i) with
    | none => (trees, resetPos lastinx i lastPos, false)
    | some t =>
      deleteKeys record pos lastinx rest (update trees i t) (resetPos lastinx i lastPos)

/-- How the loop of `heap_update()` ends; the second argument of `failed` says that the key
was a duplicate, so that `my_errno` is set. -/
inductive Updated
  | all
  | failed (i : Nat) (dup : Bool)

/-- The loop of `heap_update()`. -/
def updateKeys (old new : ρ) (pos : Nat) (lastinx : Option Nat) (malloc : Allocator) :
    List Nat → (Nat → Tree κ) → Option Nat → (Nat → Tree κ) × Option Nat × Updated
  | [], trees, lastPos => (trees, lastPos, .all)
  | i :: rest, trees, lastPos =>
    if tbl.keyCmp i old new then
      match tbl.deleteKey i old pos (trees i) with
      | none => (trees, resetPos lastinx i lastPos, .failed i false)
      | some t =>
        let trees := update trees i t
        match tbl.writeKey i new pos (malloc.addr i (tbl.used trees)) t with
        | none => (trees, resetPos lastinx i lastPos, .failed i true)
        | some t' =>
          updateKeys old new pos lastinx malloc rest (update trees i t')
            (resetPos lastinx i lastPos)
    else updateKeys old new pos lastinx malloc rest trees lastPos

def restoreKeys (old new : ρ) (pos : Nat) (malloc : Allocator) :
    Nat → (Nat → Tree κ) → (Nat → Tree κ)
  | 0, trees => trees
  | n + 1, trees =>
    if tbl.keyCmp n old new then
      match tbl.deleteKey n new pos (trees n) with
      | none => trees
      | some t =>
        let trees := update trees n t
        match tbl.writeKey n old pos (malloc.addr (tbl.keys + n) (tbl.used trees)) t with
        | none => trees
        | some t' => restoreKeys old new pos malloc n (update trees n t')
    else restoreKeys old new pos malloc n trees

/-- What `heap_update()` does to the trees when index `i` fails. It only goes back when
`my_errno` is `HA_ERR_FOUND_DUPP_KEY`; `hp_rb_delete_key()` does not set `my_errno`. -/
def rollback (old new : ρ) (pos : Nat) (malloc : Allocator) (errno : HaError) (i : Nat)
    (trees : Nat → Tree κ) : Nat → Tree κ :=
  if errno = .foundDuppKey then
    match tbl.writeKey i old pos (malloc.addr (tbl.keys + i) (tbl.used trees)) (trees i) with
    | none => trees
    | some t => tbl.restoreKeys old new pos malloc i (update trees i t)
  else trees

end TableDef

namespace State

variable (tbl : TableDef κ σ ρ) (s : State κ σ ρ ι) (h : ι)

def setHandle (info : Handle σ) : State κ σ ρ ι :=
  { s with handles := update s.handles h info }

/-- `heap_write()`; `block` is the position that `next_free_record_pos()` finds when no
deleted row can be used. -/
def heapWrite (record : ρ) (block : Option Nat) (malloc : Allocator) :
    State κ σ ρ ι × Except HaError Unit :=
  let share := s.share
  match share.delLink.or block with
  | none => (s, .error .recordFileFull)
  | some pos =>
    let delLink := if share.delLink = none then none else tbl.link (share.rows pos)
    match tbl.writeKeys record pos malloc (List.range tbl.keys) share.trees with
    | (trees, none) =>
      let share := ⟨trees, update share.rows pos record, delLink, share.keyVersion + 1⟩
      let info := s.handles h
      (setHandle { s with share } h { info with update := { info.update with aktiv := true } },
        .ok ())
    | (trees, some j) =>
      let trees := tbl.removeKeys record pos j trees
      let rows := update share.rows pos (tbl.withLink delLink (share.rows pos))
      ({ s with share := ⟨trees, rows, some pos, share.keyVersion⟩ }, .error .foundDuppKey)

/-- The row that a handle may change: `test_active()` and the test of `hp_rectest()`. A handle
without a position has read nothing that could be changed. -/
def activeRow (old : ρ) : Except HaError Nat :=
  let info := s.handles h
  match info.update.aktiv, info.currentPtr with
  | true, some pos =>
    if info.checkUsed && decide (s.share.rows pos ≠ old) then .error .recordChanged
    else .ok pos
  | _, _ => .error .noActiveRecord

/-- `heap_update()`; `errno` is `my_errno` at the call. `key_changed` is initialised and never
set, so that the version of the keys stays. -/
def heapUpdate (old new : ρ) (malloc : Allocator) (errno : HaError) :
    State κ σ ρ ι × Except HaError Unit :=
  match s.activeRow h old with
  | .error err => (s, .error err)
  | .ok pos =>
    let info := s.handles h
    let keyChanged := false
    match tbl.updateKeys old new pos info.lastinx malloc (List.range tbl.keys) s.share.trees
        info.cursor.lastPos with
    | (trees, lastPos, .all) =>
      let share := { s.share with
        trees
        rows := update s.share.rows pos new
        keyVersion := if keyChanged then s.share.keyVersion + 1 else s.share.keyVersion }
      (setHandle { s with share } h { info with cursor := { info.cursor with lastPos } }, .ok ())
    | (trees, lastPos, .failed i dup) =>
      let errno := if dup then .foundDuppKey else errno
      let share := { s.share with trees := tbl.rollback old new pos malloc errno i trees }
      (setHandle { s with share } h { info with cursor := { info.cursor with lastPos } },
        .error errno)

def heapDelete (record : ρ) (errno : HaError) : State κ σ ρ ι × Except HaError Unit :=
  match s.activeRow h record with
  | .error err => (s, .error err)
  | .ok pos =>
    let info := s.handles h
    match tbl.deleteKeys record pos info.lastinx (List.range tbl.keys) s.share.trees
        info.cursor.lastPos with
    | (trees, lastPos, true) =>
      let rows := update s.share.rows pos (tbl.withLink s.share.delLink (s.share.rows pos))
      let share := ⟨trees, rows, some pos, s.share.keyVersion + 1⟩
      (setHandle { s with share } h { info with
        cursor := { info.cursor with lastPos }
        update := { UpdateState.none with deleted := true } }, .ok ())
    | (trees, lastPos, false) =>
      (setHandle { s with share := { s.share with trees } } h
        { info with cursor := { info.cursor with lastPos } }, .error errno)

/-- `heap_rkey()`: the position of the row, or an error. -/
def heapRkey (inx : Nat) (key : σ) (findFlag : RkeyFunction) :
    State κ σ ρ ι × Except HaError Nat :=
  if tbl.keys ≤ inx then (s, .error .wrongIndex)
  else
    let info := s.handles h
    let (elem, cursor) := treeSearchKey (s.share.trees inx) findFlag (tbl.findCompare inx key)
      info.cursor
    let info := { info with
      lastinx := some inx, keyVersion := s.share.keyVersion, lastkey := key, cursor }
    match elem with
    | none =>
      (s.setHandle h { info with update := { UpdateState.none with noKey := true } },
        .error .keyNotFound)
    | some e =>
      (s.setHandle h { info with
        currentPtr := some e.row, update := { UpdateState.none with aktiv := true } }, .ok e.row)

/-- The position from which a read goes on with `tree_search_next()`. -/
def cachedPos : Option Nat :=
  let info := s.handles h
  if info.keyVersion = s.share.keyVersion then info.cursor.lastPos else none

/-- The search of `heap_rnext()` and `heap_rprev()`: the element, the cursor and the version
that is saved. `near` is the side where the reads begin and `restart` the search when no
position is cached. -/
def searchOn (near : Side) (restart : Nat → Tree κ → Handle σ → Option (Element κ) × Cursor)
    (inx : Nat) : (Option (Element κ) × Cursor) × UInt32 :=
  let info := s.handles h
  let tree := s.share.trees inx
  if info.update.positioned = false then
    if info.update.found near then ((none, info.cursor), info.keyVersion)
    else (treeSearchEdge tree near info.cursor, info.keyVersion)
  else
    match s.cachedPos h with
    | some pos => (treeSearchNext tree near info.cursor pos, info.keyVersion)
    | none => (restart inx tree info, s.share.keyVersion)

/-- What `heap_rnext()` and `heap_rprev()` have in common. -/
def readOn (near : Side)
    (restart : Nat → Tree κ → Handle σ → Option (Element κ) × Cursor) :
    State κ σ ρ ι × Except HaError Nat :=
  match (s.handles h).lastinx with
  | none => (s, .error .wrongIndex)
  | some inx =>
    let ((elem, cursor), keyVersion) := s.searchOn h near restart inx
    let info := { s.handles h with cursor, keyVersion }
    match elem with
    | none =>
      (s.setHandle h { info with update := UpdateState.none.setFound near }, .error .endOfFile)
    | some e =>
      (s.setHandle h { info with
        currentPtr := some e.row
        update := { UpdateState.none.setFound near with aktiv := true } }, .ok e.row)

def heapRnext : State κ σ ρ ι × Except HaError Nat :=
  s.readOn h .left fun inx tree info =>
    if tbl.emptyKey info.lastkey then treeSearchEdge tree .left info.cursor
    else treeSearchKey tree .keyOrNext (tbl.findCompare inx info.lastkey) info.cursor

def heapRprev : State κ σ ρ ι × Except HaError Nat :=
  s.readOn h .right fun inx tree info =>
    treeSearchKey tree .keyOrPrev (tbl.prevCompare inx info.lastkey) info.cursor

end State

inductive Call (σ ρ : Type)
  | write (record : ρ) (block : Option Nat) (malloc : Allocator)
  | update (old new : ρ) (malloc : Allocator) (errno : HaError)
  | delete (record : ρ) (errno : HaError)
  | rkey (inx : Nat) (key : σ) (findFlag : RkeyFunction)
  | rnext
  | rprev

def State.step (tbl : TableDef κ σ ρ) (s : State κ σ ρ ι) (h : ι) : Call σ ρ → State κ σ ρ ι
  | .write record block malloc => (s.heapWrite tbl h record block malloc).1
  | .update old new malloc errno => (s.heapUpdate tbl h old new malloc errno).1
  | .delete record errno => (s.heapDelete tbl h record errno).1
  | .rkey inx key findFlag => (s.heapRkey tbl h inx key findFlag).1
  | .rnext => (s.heapRnext tbl h).1
  | .rprev => (s.heapRprev tbl h).1

def State.run (tbl : TableDef κ σ ρ) (s : State κ σ ρ ι) (calls : List (ι × Call σ ρ)) :
    State κ σ ρ ι :=
  calls.foldl (fun s call => s.step tbl call.1 call.2) s

end MariaDB.Heap
