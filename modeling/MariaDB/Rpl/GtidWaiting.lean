import MariaDB.Library.Transition
import MariaDB.Rpl.SlaveState

/-!
# `MASTER_GTID_WAIT()` on one domain

Any number of threads run `gtid_waiting::wait_for_gtid()` while the slave state is updated.
A step is what a thread does between two points where another thread may come in: it holds
`LOCK_gtid_waiting` from one such point to the next or not at all, and a section under
`LOCK_slave_state` is one step. Updates and threads that come back from the small wait run
between the steps of the thread that holds `LOCK_gtid_waiting`.

A thread in a wait for a condition variable is woken by a signal, at its timeout, or for no
reason. A kill is a signal as well.
-/
namespace MariaDB.Rpl

/-- Where a thread is in `wait_for_gtid()`. -/
inductive WaitPoint
  /-- Not in a call. -/
  | idle
  /-- Before it takes `LOCK_gtid_waiting` for the first time. -/
  | entry
  /-- At the top of the loop. -/
  | loop
  /-- No element for the domain could be allocated. -/
  | outOfMemory
  /-- In the wait for `COND_wait_gtid`. -/
  | smallWait
  /-- After the small wait, before it takes `LOCK_gtid_waiting` again. -/
  | relock (wakeupSeqNo : Nat)
  /-- At the call of `process_wait_hash()`. -/
  | process (wakeupSeqNo : Nat)
  /-- In the wait for `COND_wakeup_ready`. -/
  | largeWait
  /-- After both waits, at the end of the loop. -/
  | check
  deriving DecidableEq, Repr

namespace WaitPoint

/-- The thread holds `LOCK_gtid_waiting`. -/
def locked : WaitPoint → Bool
  | loop | outOfMemory | process _ | check => true
  | _ => false

def live : WaitPoint → Bool
  | idle | entry => false
  | _ => true

end WaitPoint

/-- The `queue_element` of a call and the other variables of `wait_for_gtid()`.
`signalled` is set when a signal reaches the thread in the large wait. -/
structure Waiter where
  point : WaitPoint
  waitSeqNo : Nat
  doSmallWait : Bool
  done : Bool
  timedOut : Bool
  killed : Bool
  /-- `wait_until` is not `NULL`. -/
  waitUntil : Bool
  signalled : Bool
  /-- What the last call returned. -/
  res : Option Int
  deriving DecidableEq, Repr

/-- `mysql_cond_signal(&thd->COND_wakeup_ready)`. -/
def Waiter.wakeupReady (w : Waiter) : Waiter :=
  if w.point = .largeWait then { w with signalled := true } else w

/-- The wait queue of the domain, its waiters and the slave state. -/
structure GtidWaiting (ρ τ : Type*) where
  slave : SlaveState ρ τ
  /-- The owner of `LOCK_gtid_waiting`. -/
  lock : Option τ
  /-- The hash has an entry for the domain. -/
  entry : Bool
  queue : List τ
  /-- The threads that wait for `COND_wait_gtid` and that no signal has reached. -/
  condWaitGtid : List τ
  waiter : τ → Waiter

/-- Why a thread comes back from the wait for a condition variable. -/
inductive Wakeup
  | signal
  | timeout
  | spurious
  deriving DecidableEq, Repr

inductive WaitAction (τ : Type*)
  /-- Call `wait_for_gtid()`. -/
  | call (t : τ) (seqNo : Nat) (waitUntil killed : Bool)
  /-- Take `LOCK_gtid_waiting` and register in the queue. -/
  | enter (t : τ) (mallocEntry mallocQueue : Bool)
  /-- The section under `LOCK_slave_state` before the small wait. `woken` is the thread that
  the signal reaches. -/
  | small (t : τ) (malloc : Bool) (woken : τ)
  /-- Begin the large wait. -/
  | large (t : τ)
  /-- Come back from a wait. -/
  | wake (t : τ) (why : Wakeup)
  /-- Take `LOCK_gtid_waiting` after the small wait. -/
  | relock (t : τ)
  /-- `process_wait_hash()`. -/
  | process (t : τ)
  /-- The end of the loop. `top` is the top of the queue, should it be promoted. -/
  | check (t : τ) (top : τ)
  /-- Leave because of an allocation that failed. -/
  | fail (t : τ) (top : τ)
  | kill (t : τ)
  /-- `rpl_slave_state::update_nolock()`. -/
  | update (malloc : Malloc) (l : ListElement) (duplicate : Option DuplicateState)

/-- The steps that a thread takes by itself. The others are calls, updates, kills, timeouts and
wakeups for no reason. -/
def WaitAction.own {τ : Type*} : WaitAction τ → Bool
  | enter .. | small .. | large _ | wake _ .signal => true
  | relock _ | process _ | check .. | fail .. => true
  | _ => false

variable {ρ τ : Type*} [DecidableEq τ]

namespace GtidWaiting

def init (batch : Nat) : GtidWaiting ρ τ where
  slave := .init batch
  lock := none
  entry := false
  queue := []
  condWaitGtid := []
  waiter _ :=
    { point := .idle, waitSeqNo := 0, doSmallWait := false, done := false, timedOut := false,
      killed := false, waitUntil := false, signalled := false, res := none }

def set (s : GtidWaiting ρ τ) (t : τ) (w : Waiter) : GtidWaiting ρ τ :=
  { s with waiter := Function.update s.waiter t w }

/-- An element with the smallest sequence number. The queue is a binary heap: which one of
several such elements is on its top depends on its history, and is left open here. -/
def IsTop (s : GtidWaiting ρ τ) (q : τ) : Prop :=
  q ∈ s.queue ∧ ∀ p ∈ s.queue, (s.waiter q).waitSeqNo ≤ (s.waiter p).waitSeqNo

instance (s : GtidWaiting ρ τ) (q : τ) : Decidable (s.IsTop q) :=
  inferInstanceAs (Decidable (_ ∧ _))

variable (s : GtidWaiting ρ τ)

def promoteNewWaiter (top : τ) : Option (GtidWaiting ρ τ) :=
  if s.queue = [] then
    some s
  else if s.IsTop top then
    some (s.set top { s.waiter top with doSmallWait := true }.wakeupReady)
  else
    none

/-- `process_wait_hash()`: take all elements up to the sequence number off the queue. -/
def processWaitHash (wakeupSeqNo : Nat) : GtidWaiting ρ τ :=
  { s with
    queue := s.queue.filter fun q => ¬ (s.waiter q).waitSeqNo ≤ wakeupSeqNo
    waiter := fun q =>
      if q ∈ s.queue ∧ (s.waiter q).waitSeqNo ≤ wakeupSeqNo then
        { s.waiter q with done := true }.wakeupReady
      else s.waiter q }

def removeFromWaitQueue (t : τ) : GtidWaiting ρ τ :=
  { s with queue := s.queue.filter (· ≠ t) }

/-- The thread does not wait for `COND_wait_gtid` any more. -/
def unblock (t : τ) : GtidWaiting ρ τ :=
  { s with condWaitGtid := s.condWaitGtid.filter (· ≠ t) }

/-- `mysql_cond_signal(&COND_wait_gtid)` reaches one of the threads that wait, if there is
one. -/
def condSignal (woken : τ) : Option (GtidWaiting ρ τ) :=
  if s.condWaitGtid = [] then
    some s
  else if woken ∈ s.condWaitGtid then
    some (s.unblock woken)
  else
    none

def leave (t : τ) (res : Int) : GtidWaiting ρ τ :=
  s.set t { s.waiter t with point := .idle, res := some res }

/-- Take `LOCK_gtid_waiting` and register in the queue. Without memory for the entry of the
hash or for the queue, release it again and return the error. -/
def enter (t : τ) (mallocEntry mallocQueue : Bool) : GtidWaiting ρ τ :=
  if ¬ s.entry ∧ ¬ mallocEntry then
    s.leave t 1
  else if ¬ mallocQueue then
    { s with entry := true }.leave t 1
  else
    let small := s.queue.all fun q => (s.waiter q).waitSeqNo > (s.waiter t).waitSeqNo
    { s with entry := true, lock := some t, queue := t :: s.queue }.set t
      { s.waiter t with point := .loop, doSmallWait := small }

/-- Register a thread as the small waiter, and release `LOCK_gtid_waiting`. -/
def register (t : τ) : GtidWaiting ρ τ :=
  { s with
    slave := { s.slave with
      elem := some { s.slave.element with
        gtidWaiter := some t
        minWaitSeqNo := (s.waiter t).waitSeqNo } }
    lock := none }

def unregister : GtidWaiting ρ τ :=
  { s with slave := { s.slave with elem := some { s.slave.element with gtidWaiter := none } } }

/-- The end of the small wait, still under `LOCK_slave_state`. -/
def endSmallWait (t : τ) (w : Waiter) : GtidWaiting ρ τ :=
  let w := { w with point := .relock s.slave.highestSeqNo }
  if s.slave.gtidWaiter = some t then
    (s.unblock t).unregister.set t w
  else if s.slave.gtidWaiter.isSome ∧ s.slave.minWaitSeqNo ≤ w.waitSeqNo then
    (s.unblock t).set t { w with doSmallWait := false }
  else
    (s.unblock t).set t w

/-- Begin the small wait, and signal the thread that was registered before. A thread that was
killed does not wait. -/
def beginSmallWait (t : τ) (woken : τ) : Option (GtidWaiting ρ τ) :=
  let w := s.waiter t
  (if s.slave.gtidWaiter.isSome then (s.register t).condSignal woken else some (s.register t)).map
    fun s =>
      if w.killed then s.endSmallWait t w
      else { s with condWaitGtid := t :: s.condWaitGtid }.set t { w with point := .smallWait }

/-- The section under `LOCK_slave_state` of a thread that has `do_small_wait`. -/
def small (t : τ) (malloc : Bool) (woken : τ) : Option (GtidWaiting ρ τ) :=
  let w := s.waiter t
  match s.slave.getElement malloc with
  | none => some (s.set t { w with point := .outOfMemory })
  | some e =>
    let s := { s with slave := { s.slave with elem := some e } }
    if e.highestSeqNo ≥ w.waitSeqNo then
      some (s.set t { w with point := .process e.highestSeqNo })
    else if e.gtidWaiter.isSome ∧ e.minWaitSeqNo ≤ w.waitSeqNo then
      some (s.set t { w with point := .process e.highestSeqNo, doSmallWait := false })
    else
      s.beginSmallWait t woken

/-- Come back from the small wait, and wait again unless there is a reason not to. -/
def wakeSmall (t : τ) (why : Wakeup) : GtidWaiting ρ τ :=
  let w := s.waiter t
  if why = .timeout then
    s.endSmallWait t { w with timedOut := true }
  else if s.slave.gtidWaiter = some t ∧ ¬ w.killed then
    if t ∈ s.condWaitGtid then s else { s with condWaitGtid := t :: s.condWaitGtid }
  else
    s.endSmallWait t w

/-- Come back from the large wait with `LOCK_gtid_waiting`, and wait again unless there is a
reason not to. -/
def wakeLarge (t : τ) (why : Wakeup) : GtidWaiting ρ τ :=
  let w := { s.waiter t with signalled := false }
  let w := if why = .timeout then { w with timedOut := true } else w
  if w.doSmallWait ∨ w.timedOut ∨ w.done ∨ w.killed then
    { s with lock := some t }.set t { w with point := .check }
  else
    s.set t w

/-- Begin the large wait, or go on to the end of the loop if the thread was killed. -/
def large (t : τ) : GtidWaiting ρ τ :=
  let w := s.waiter t
  if w.done ∨ w.killed then
    s.set t { w with point := .check }
  else
    { s with lock := none }.set t { w with point := .largeWait, signalled := false }

def check (t : τ) (top : τ) : Option (GtidWaiting ρ τ) :=
  let w := s.waiter t
  let aborted := (w.killed ∨ w.timedOut) ∧ ¬ w.done
  let s := if aborted then (s.removeFromWaitQueue t).set t { w with done := true } else s
  if (s.waiter t).done then
    let res := if w.timedOut then -1 else 0
    (if w.doSmallWait then s.promoteNewWaiter top else some s).map fun s =>
      { s with lock := none }.leave t res
  else
    some (s.set t { w with point := .loop })

def fail (t : τ) (top : τ) : Option (GtidWaiting ρ τ) :=
  ((s.removeFromWaitQueue t).promoteNewWaiter top).map fun s => { s with lock := none }.leave t 1

def mayWake (t : τ) : Wakeup → Bool
  | .signal =>
    if (s.waiter t).point = .smallWait then t ∉ s.condWaitGtid else (s.waiter t).signalled
  | .timeout => (s.waiter t).waitUntil
  | .spurious => true

def update (malloc : Malloc) (l : ListElement)
    (duplicate : Option DuplicateState) : GtidWaiting ρ τ :=
  let u := s.slave.updateNolock malloc l duplicate
  { s with
    slave := u.state
    condWaitGtid := if .waitGtid ∈ u.signals then [] else s.condWaitGtid }

def step : WaitAction τ → Option (GtidWaiting ρ τ)
  | .call t seqNo waitUntil killed =>
    if (s.waiter t).point = .idle then
      some (s.set t
        { point := .entry, waitSeqNo := seqNo, doSmallWait := false, done := false,
          timedOut := false, killed := killed, waitUntil := waitUntil, signalled := false,
          res := none })
    else none
  | .enter t mallocEntry mallocQueue =>
    if (s.waiter t).point = .entry ∧ s.lock = none then some (s.enter t mallocEntry mallocQueue)
    else none
  | .small t malloc woken =>
    if (s.waiter t).point = .loop ∧ (s.waiter t).doSmallWait then s.small t malloc woken else none
  | .large t =>
    if (s.waiter t).point = .loop ∧ ¬ (s.waiter t).doSmallWait then some (s.large t) else none
  | .wake t why =>
    if ¬ s.mayWake t why then none
    else match (s.waiter t).point with
      | .smallWait => some (s.wakeSmall t why)
      | .largeWait => if s.lock = none then some (s.wakeLarge t why) else none
      | _ => none
  | .relock t =>
    match (s.waiter t).point with
    | .relock n =>
      if s.lock = none then
        some ({ s with lock := some t }.set t { s.waiter t with point := .process n })
      else none
    | _ => none
  | .process t =>
    match (s.waiter t).point with
    | .process n =>
      let s := s.processWaitHash n
      some (s.set t { s.waiter t with point := .check })
    | _ => none
  | .check t top => if (s.waiter t).point = .check then s.check t top else none
  | .fail t top => if (s.waiter t).point = .outOfMemory then s.fail t top else none
  | .kill t =>
    some ((s.unblock t).set t { s.waiter t with killed := true }.wakeupReady)
  | .update malloc l duplicate => some (s.update malloc l duplicate)

def Quiescent : Prop :=
  ∀ a : WaitAction τ, a.own → s.step a = none

end GtidWaiting

end MariaDB.Rpl
