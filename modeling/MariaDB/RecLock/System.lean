import MariaDB.RecLock.RecordQueue

/-!
# The record lock system

The state is the lists of lock objects by page and, for each transaction, what it waits for. The
steps are the functions that change the queues of a page: a transaction requests a lock on a
record, an object is removed with all its locks or a lock is released, and waiting requests are
granted when nothing is left to wait for; requests are moved between records, inherited as gap
locks, or follow the records of a reorganized page.
-/

namespace MariaDB.RecLock

open Function

/-- `trx->lock.wait_trx` and the page and heap number of `trx->lock.wait_lock`. -/
structure TrxLock where
  waitTrx : Option Nat
  waitLock : Option (Nat × Nat)
deriving DecidableEq

def TrxLock.none : TrxLock := ⟨Option.none, Option.none⟩

structure LockSys where
  queue : Locks
  trxLock : Nat → TrxLock

namespace LockSys

def init : LockSys := ⟨fun _ => [], fun _ => .none⟩

def setQueue (s : LockSys) (page : Nat) (queue : List Lock) : LockSys :=
  { s with queue := update s.queue page queue }

/-- What `lock_rec_lock` returns. -/
inductive Result where
  | success
  | successLockedRec
  | lockWait
  | lockWaitTimeout
deriving DecidableEq

/-- The arguments of `lock_rec_lock` and what it reads of the transaction. -/
structure LockArgs where
  /-- If no wait is necessary, the caller sets an implicit lock. -/
  impl : Bool
  typeMode : TypeMode
  page : Nat
  heapNo : Nat
  trx : Nat
  /-- `lock_table_has(trx, table, mode)` -/
  tableHas : Bool
  /-- `innodb_lock_wait_timeout=0` -/
  noWait : Bool

section

variable (alloc : Alloc) (ordering : Nat → Nat → Bool)

/-- `lock_rec_enqueue_waiting` after `c` was found. -/
def enqueueWaiting (c : Request) (tm : TypeMode) (page h trx : Nat) (s : LockSys) : LockSys where
  queue := update s.queue page (create alloc none { tm with wait := true } h trx (s.queue page))
  trxLock := update s.trxLock trx ⟨(s.trxLock trx).waitTrx.or (some c.trx), some (page, h)⟩

def reuseForNextKeyLock (held : Lock) (tm : TypeMode) (page h trx : Nat) (s : LockSys) : LockSys :=
  if !held.typeMode.recNotGap then s
  else
    let tm := { tm with gap := true }
    match hasExpl tm h trx (s.queue page) with
    | none => s.setQueue page (addToQueue alloc none tm h trx (s.queue page))
    | some _ => s

def isNextKeyLock (tm : TypeMode) : Bool := !tm.gap && !tm.recNotGap && !tm.insertIntention

/-- The mode that a granted lock has to have for `lock_rec_lock` to do without a new request on
the record. -/
def checkedMode (tm : TypeMode) (h : Nat) : TypeMode :=
  if h ≠ heapNoSupremum ∧ isNextKeyLock tm then { tm with recNotGap := true } else tm

/-- `lock_rec_lock` when the page has objects other than the one to reuse. -/
def lockSlow (x : LockArgs) (s : LockSys) : Result × LockSys :=
  let queue := s.queue x.page
  match hasExpl (checkedMode x.typeMode x.heapNo) x.heapNo x.trx queue with
  | none =>
    let info := findConflict ordering x.heapNo ⟨x.trx, x.typeMode⟩ queue
    match info.conflicting with
    | some c =>
      if x.noWait then (.lockWaitTimeout, s)
      else (.lockWait, s.enqueueWaiting alloc c x.typeMode x.page x.heapNo x.trx)
    | none =>
      if !x.impl || info.insertAfter.isSome then
        (.successLockedRec,
          s.setQueue x.page (addToQueue alloc info.insertAfter x.typeMode x.heapNo x.trx queue))
      else (.success, s)
  | some held =>
    if checkedMode x.typeMode x.heapNo ≠ x.typeMode then
      (.success, s.reuseForNextKeyLock alloc held x.typeMode x.page x.heapNo x.trx)
    else (.success, s)

def lockRecLock (x : LockArgs) (s : LockSys) : Result × LockSys :=
  if x.tableHas then (.success, s)
  else
    match s.queue x.page with
    | [] =>
      if x.impl then (.successLockedRec, s)
      else (.successLockedRec, s.setQueue x.page (create alloc none x.typeMode x.heapNo x.trx []))
    | [l] =>
      if l.trx = x.trx ∧ l.typeMode = x.typeMode ∧ x.heapNo < l.nBits then
        if x.impl || l.nthBit x.heapNo then (.success, s)
        else (.successLockedRec, s.setQueue x.page [l.setNthBit x.heapNo])
      else lockSlow alloc ordering x s
    | _ => lockSlow alloc ordering x s

/-- The part of `lock_rec_insert_check_and_lock` that waits for the gap before the next record. -/
def insertCheckAndLock (page h trx : Nat) (noWait : Bool) (s : LockSys) : LockSys :=
  let tm : TypeMode := ⟨.X, false, true, false, true⟩
  match (findConflict ordering h ⟨trx, tm⟩ (s.queue page)).conflicting with
  | some c => if noWait then s else s.enqueueWaiting alloc c tm page h trx
  | none => s

/-- The object is put after the one at index `insertAfter`, or where it was. -/
def putAfter (insertAfter : Option Nat) (l : Lock) (done : List Lock) : List Lock :=
  match insertAfter with
  | none => done ++ [l]
  | some i => done.take (i + 1) ++ l :: done.drop (i + 1)

/-- The loop of `lock_rec_dequeue_from_page` and `lock_rec_rebuild_waiting_queue`: `done` are the
objects ahead of the one at hand, and `only` those that the loop looks at. -/
def grantLoop (only : Lock → Bool) :
    List Lock → List Lock → (Nat → TrxLock) → List Lock × (Nat → TrxLock)
  | done, [], trxLock => (done, trxLock)
  | done, l :: rest, trxLock =>
    if l.typeMode.wait && only l then
      match l.findSetBit with
      | none => grantLoop only (done ++ [l]) rest trxLock
      | some h =>
        let info := findConflict ordering h l.request done
        match info.conflicting with
        | some c =>
          grantLoop only (done ++ [l]) rest
            (update trxLock l.trx { trxLock l.trx with waitTrx := some c.trx })
        | none =>
          grantLoop only (putAfter info.insertAfter l.clearWait done) rest
            (update trxLock l.trx .none)
    else grantLoop only (done ++ [l]) rest trxLock

def grantWaiting (only : Lock → Bool) (page : Nat) (s : LockSys) : LockSys :=
  let x := grantLoop ordering only [] (s.queue page) s.trxLock
  ⟨update s.queue page x.1, x.2⟩

/-- `lock_rec_dequeue_from_page` of the object at index `i`. The transaction of a waiting object
does not wait any more: the callers reset that. -/
def dequeueFromPage (page i : Nat) (s : LockSys) : LockSys :=
  match (s.queue page)[i]? with
  | none => s
  | some l =>
    grantWaiting ordering (fun _ => true) page
      ⟨update s.queue page ((s.queue page).eraseIdx i),
        if l.typeMode.wait then update s.trxLock l.trx .none else s.trxLock⟩

/-- `lock_rec_unlock` of the bit `h` of a granted object. -/
def unlockBit (page i h : Nat) (s : LockSys) : LockSys :=
  match (s.queue page)[i]? with
  | none => s
  | some l =>
    if l.nthBit h && !l.typeMode.wait then
      grantWaiting ordering (·.nthBit h) page
        (s.setQueue page ((s.queue page).set i (l.resetNthBit h)))
    else s

/-- `lock_rec_unlock` for a transaction: the first object on the record with the mode. -/
def unlock (trx page h : Nat) (mode : Mode) (s : LockSys) : LockSys :=
  match (s.queue page).findIdx? fun l =>
      l.nthBit h && decide (l.trx = trx) && decide (l.typeMode.mode = mode) with
  | none => s
  | some i => s.unlockBit ordering page i h

end

/-- `wait_lock` follows a waiting request to another record. -/
def relocate (page h : Nat) (trxLock : Nat → TrxLock) (r : Request) : Nat → TrxLock :=
  if r.typeMode.wait then
    update trxLock r.trx { trxLock r.trx with waitLock := some (page, h) }
  else trxLock

section

variable (alloc : Alloc)

/-- `lock_rec_move` -/
def move (receiver receiverNo donator donatorNo : Nat) (s : LockSys) : LockSys where
  queue := recMove alloc receiver receiverNo donator donatorNo s.queue
  trxLock := (requests (s.queue donator) donatorNo).foldl (relocate receiver receiverNo) s.trxLock

/-- `lock_rec_inherit_to_gap` -/
def inherit (trxs : Nat → Trx) (fromSplit : Bool) (heir heirNo donor donorNo : Nat)
    (s : LockSys) : LockSys :=
  { s with queue := inheritToGap alloc trxs fromSplit heir heirNo donor donorNo s.queue }

/-- `lock_move_granted_locks_to_front`: `front` are the objects before the first waiting one and
those moved to the front since, `waits` the waiting ones. -/
def frontLoop : List Lock → List Lock → List Lock → List Lock
  | front, waits, [] => front ++ waits
  | front, waits, l :: rest =>
    if l.typeMode.wait then frontLoop front (waits ++ [l]) rest
    else if waits.isEmpty then frontLoop (front ++ [l]) waits rest
    else frontLoop (l :: front) waits rest

def moveGrantedLocksToFront (locks : List Lock) : List Lock := frontLoop [] [] locks

/-- The object as `lock_move_reorganize_page` leaves it in the queue: without bits, not waiting. -/
def clearLock (l : Lock) : Lock := { l.clearWait with bitmap := List.replicate l.nBits false }

/-- The records of the page from infimum to supremum, for one of the copies of the objects: `moved`
are their heap numbers on the old page and now. -/
def reorganizeBits (l : Lock) : List (Nat × Nat) → List Lock → List Lock
  | [], queue => queue
  | (h, h') :: moved, queue =>
    reorganizeBits l moved
      (if l.nthBit h then addToQueue alloc none l.typeMode h' l.trx queue else queue)

def reorganizeLoop (moved : List (Nat × Nat)) : List Lock → List Lock → List Lock
  | [], queue => queue
  | l :: locks, queue => reorganizeLoop moved locks (reorganizeBits alloc l moved queue)

def reorganizePage (page : Nat) (moved : List (Nat × Nat)) (s : LockSys) : LockSys where
  queue := update s.queue page
    (reorganizeLoop alloc moved (moveGrantedLocksToFront (s.queue page))
      ((s.queue page).map clearLock))
  trxLock := moved.foldl
    (fun trxLock x => (requests (s.queue page) x.1).foldl (relocate page x.2) trxLock) s.trxLock

end

/-! ### Runs -/

inductive Call where
  | lock (alloc : Alloc) (x : LockArgs)
  | insertCheck (alloc : Alloc) (page h trx : Nat) (noWait : Bool)
  | dequeue (page i : Nat)
  | unlock (trx page h : Nat) (mode : Mode)
  | unlockBit (page i h : Nat)
  | move (alloc : Alloc) (receiver receiverNo donator donatorNo : Nat)
  | reorganize (alloc : Alloc) (page : Nat) (moved : List (Nat × Nat))
  | inherit (alloc : Alloc) (trxs : Nat → Trx) (fromSplit : Bool)
      (heir heirNo donor donorNo : Nat)

def step (ordering : Nat → Nat → Bool) (s : LockSys) : Call → LockSys
  | .lock alloc x => (s.lockRecLock alloc ordering x).2
  | .insertCheck alloc page h trx noWait => s.insertCheckAndLock alloc ordering page h trx noWait
  | .dequeue page i => s.dequeueFromPage ordering page i
  | .unlock trx page h mode => s.unlock ordering trx page h mode
  | .unlockBit page i h => s.unlockBit ordering page i h
  | .move alloc receiver receiverNo donator donatorNo =>
    s.move alloc receiver receiverNo donator donatorNo
  | .reorganize alloc page moved => s.reorganizePage alloc page moved
  | .inherit alloc trxs fromSplit heir heirNo donor donorNo =>
    s.inherit alloc trxs fromSplit heir heirNo donor donorNo

/-- When a step may be taken: a transaction that waits requests nothing, `lock_rec_lock` is called
with a mode that may be one on the gap or on the record only, requests are moved to a record
without requests, and the records of a reorganized page keep their order. -/
def Allowed (s : LockSys) : Call → Prop
  | .lock _ x => s.trxLock x.trx = .none ∧ x.typeMode.wait = false ∧
      x.typeMode.insertIntention = false
  | .insertCheck _ _ _ trx _ => s.trxLock trx = .none
  | .dequeue _ _ => True
  | .unlock _ _ _ _ => True
  | .unlockBit _ _ _ => True
  | .move _ receiver receiverNo donator donatorNo =>
      ¬(receiver = donator ∧ receiverNo = donatorNo) ∧ requests (s.queue receiver) receiverNo = [] ∧
        (receiverNo = heapNoSupremum ↔ donatorNo = heapNoSupremum)
  | .reorganize _ _ moved => (moved.map Prod.fst).Nodup ∧ (moved.map Prod.snd).Nodup ∧
      ∀ x ∈ moved, x.2 = heapNoSupremum ↔ x.1 = heapNoSupremum
  | .inherit _ _ _ heir heirNo donor donorNo => ¬(heir = donor ∧ heirNo = donorNo)

/-- The states that the steps lead to from a system without locks. -/
inductive Reachable (ordering : Nat → Nat → Bool) : LockSys → Prop where
  | init : Reachable ordering init
  | step {s : LockSys} {c : Call} : Reachable ordering s → s.Allowed c →
      Reachable ordering (s.step ordering c)

end LockSys

end MariaDB.RecLock
