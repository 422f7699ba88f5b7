import MariaDB.Mdl.Strategy

/-!
# The queues of a metadata lock

A lock keeps a list of granted tickets and a list of waiting ones. Each list caches the
set of the types in it and counts its tickets by type. A request is granted when no
waiting type goes before it and no incompatible ticket of another context is granted,
and `rescheduleWaiters` goes once through the waiting list and grants what it can.

Counters are integers here: where an unsigned counter of the source wraps below zero,
this one is negative, and both are zero at the same time.
-/
namespace MariaDB.Mdl

variable {ι κ T : Type*}

/-- A request of the context `ctx` for a lock of type `type`; `id` is its address. -/
structure Ticket (ι κ T : Type*) where
  id : ι
  ctx : κ
  type : T
  deriving DecidableEq, Repr

instance [DecidableEq ι] [DecidableEq κ] [DecidableEq T] : LawfulBEq (Ticket ι κ T) :=
  instLawfulBEq

inductive WaitStatus
  | empty | granted | victim | timeout | killed
  deriving DecidableEq, Repr

/-- What an operation on the lock reads outside of it: the bound on successive strong
locks, and which sessions wsrep treats as brute force. `approved` are those that get
every lock of the backup namespace. -/
structure Env (κ : Type*) where
  maxWriteLockCount : Nat
  isBF : κ → Bool
  approved : κ → Bool

structure TicketList (ι κ T : Type*) where
  list : List (Ticket ι κ T)
  bitmap : Finset T
  typeCounters : T → Int

namespace TicketList

def empty : TicketList ι κ T := ⟨[], ∅, fun _ => 0⟩

variable [DecidableEq ι] [DecidableEq T]

variable (l : TicketList ι κ T)

def count (type : T) : TicketList ι κ T :=
  { l with
    bitmap := insert type l.bitmap
    typeCounters := Function.update l.typeCounters type (l.typeCounters type + 1) }

def uncount (type : T) : TicketList ι κ T :=
  { l with
    bitmap := if l.typeCounters type - 1 = 0 then l.bitmap.erase type else l.bitmap
    typeCounters := Function.update l.typeCounters type (l.typeCounters type - 1) }

def unlink (id : ι) : TicketList ι κ T :=
  { l with list := l.list.filter (·.id ≠ id) }

/-- `add_ticket`. A ticket of a brute force session goes before the first waiting
ticket that is not of such a session. -/
def addTicket (isBF : κ → Bool) (l : TicketList ι κ T) (t : Ticket ι κ T) : TicketList ι κ T :=
  let l : TicketList ι κ T :=
    { l with
      list :=
        if isBF t.ctx then
          l.list.takeWhile (isBF ·.ctx) ++ t :: l.list.dropWhile (isBF ·.ctx)
        else l.list ++ [t] }
  l.count t.type

/-- `add_ticket` for a list that is not `m_waiting`: always at the back. -/
def addGranted (t : Ticket ι κ T) : TicketList ι κ T :=
  l.addTicket (fun _ => false) t

def removeTicket (t : Ticket ι κ T) : TicketList ι κ T :=
  (l.unlink t.id).uncount t.type

end TicketList

/-- `MDL_lock`; `destroyed` says that `m_strategy` is null. -/
structure Lock (ι κ T : Type*) where
  granted : TicketList ι κ T
  waiting : TicketList ι κ T
  hogLockCount : Nat
  destroyed : Bool

namespace Lock

def init : Lock ι κ T := ⟨.empty, .empty, 0, false⟩

variable [DecidableEq ι] [DecidableEq κ] [DecidableEq T]

def isEmpty (l : Lock ι κ T) : Bool := l.granted.list.isEmpty && l.waiting.list.isEmpty

variable (st : Strategy T)

def conflicts (l : Lock ι κ T) (type : T) (ctx : κ) : Bool :=
  l.granted.list.any fun u => u.ctx ≠ ctx ∧ u.type ∈ st.grantedIncompatible type

def canGrantLock (env : Env κ) (l : Lock ι κ T) (type : T) (ctx : κ)
    (ignoreLockPriority : Bool) : Bool :=
  -- lock requests of brute force threads in the backup namespace are approved
  if st.backup && env.approved ctx then true
  else if !ignoreLockPriority && decide (l.waiting.bitmap ∩ st.waitingIncompatible type ≠ ∅) then
    false
  else if l.granted.bitmap ∩ st.grantedIncompatible type ≠ ∅ then
    !l.conflicts st type ctx
  else true

def grant (l : Lock ι κ T) (t : Ticket ι κ T) : Lock ι κ T :=
  { l with
    waiting := l.waiting.removeTicket t
    granted := l.granted.addGranted t
    hogLockCount := if t.type ∈ st.hogLockTypes then l.hogLockCount + 1 else l.hogLockCount }

/-- One turn of the loop of `reschedule_waiters`, on the lock and the wait slots. A
ticket is granted only if the slot of its context can still be set. -/
def rescheduleOne (env : Env κ) (skipHighPriority : Bool)
    (s : Lock ι κ T × (κ → WaitStatus)) (t : Ticket ι κ T) : Lock ι κ T × (κ → WaitStatus) :=
  if skipHighPriority && decide (t.type ∈ st.hogLockTypes) then s
  else if s.1.canGrantLock st env t.type t.ctx skipHighPriority && decide (s.2 t.ctx = .empty) then
    (s.1.grant st t, Function.update s.2 t.ctx .granted)
  else s

def skipHighPriority (env : Env κ) (l : Lock ι κ T) : Bool :=
  decide (env.maxWriteLockCount ≤ l.hogLockCount) &&
    decide (l.waiting.bitmap \ st.hogLockTypes ≠ ∅)

def rescheduleWaiters (env : Env κ) (l : Lock ι κ T) (slot : κ → WaitStatus) :
    Lock ι κ T × (κ → WaitStatus) :=
  let r := l.waiting.list.foldl (rescheduleOne st env (l.skipHighPriority st env)) (l, slot)
  if r.1.waiting.bitmap \ st.hogLockTypes = ∅ then ({ r.1 with hogLockCount := 0 }, r.2) else r

/-- Which of the two lists `remove_ticket` is told. -/
inductive Which
  | granted | waiting
  deriving DecidableEq, Repr

/-- The `Ticket_list::remove_ticket` of `remove_ticket`. The lists are intrusive: the
ticket leaves the list it is linked in, the counters are those of the list that is named. -/
def dequeue (l : Lock ι κ T) (which : Which) (t : Ticket ι κ T) : Lock ι κ T :=
  let l := { l with granted := l.granted.unlink t.id, waiting := l.waiting.unlink t.id }
  match which with
  | .granted => { l with granted := l.granted.uncount t.type }
  | .waiting => { l with waiting := l.waiting.uncount t.type }

/-- `remove_ticket`, but for the fast lanes. -/
def removeTicket (env : Env κ) (l : Lock ι κ T) (slot : κ → WaitStatus)
    (which : Which) (t : Ticket ι κ T) : Lock ι κ T × (κ → WaitStatus) :=
  let l := l.dequeue which t
  if l.isEmpty then ({ l with destroyed := !st.backup }, slot)
  else l.rescheduleWaiters st env slot

def changeType (l : Lock ι κ T) (t : Ticket ι κ T) (type : T) : Lock ι κ T :=
  { l with granted := (l.granted.removeTicket t).addGranted { t with type } }

/-- `downgrade`, but for the fast lanes. -/
def downgrade (env : Env κ) (l : Lock ι κ T) (slot : κ → WaitStatus)
    (t : Ticket ι κ T) (type : T) : Lock ι κ T × (κ → WaitStatus) :=
  (l.changeType t type).rescheduleWaiters st env slot

/-- `upgrade`, but for the fast lanes. -/
def upgrade (l : Lock ι κ T) (t : Ticket ι κ T) (type : T) (remove : Option (Ticket ι κ T)) :
    Lock ι κ T :=
  match remove with
  | some u => changeType { l with granted := l.granted.removeTicket u } t type
  | none => l.changeType t type

inductive TalStatus
  | acquired | wait | nowait | error
  deriving DecidableEq, Repr

/-- `try_acquire_lock`, but for the fast lanes. -/
def tryAcquireLock (env : Env κ) (l : Lock ι κ T) (t : Ticket ι κ T)
    (wait : Bool) : Lock ι κ T × TalStatus :=
  if l.destroyed then (l, .error)
  else if l.canGrantLock st env t.type t.ctx false then
    ({ l with granted := l.granted.addGranted t }, .acquired)
  else if wait then ({ l with waiting := l.waiting.addTicket env.isBF t }, .wait)
  else (l, .nowait)

/-- `add_cloned_ticket`, but for the fast lanes. -/
def addClonedTicket (l : Lock ι κ T) (t : Ticket ι κ T) : Lock ι κ T :=
  { l with granted := l.granted.addGranted t }

end Lock

end MariaDB.Mdl
