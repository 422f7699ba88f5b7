import MariaDB.Library.Transition
import MariaDB.Mdl.Lock

/-!
# Fast lanes of the backup lock

Lightweight lock types are served by lanes, each with its own mutex, as long as no lock
of another type is registered. A request of another type closes the lanes one after the
other, which moves their tickets to `m_granted`, and the lanes are reopened, again one by
one, when such a request goes away. A step here is one critical section of a lane, or
what a session does under `m_rwlock` between two of them; the loads of `m_fast_lane`
outside of the mutex are steps of their own.
-/
namespace MariaDB.Mdl

open Function Library

variable {n : Nat} {ι κ T : Type*}

/-- The lock types that `enable` makes the lanes serve, and the lane of a session. -/
structure Road (n : Nat) (κ T : Type*) where
  supportedTypes : Finset T
  laneOf : κ → Fin n

/-- `MDL_lock::Fast_road::Lane`. -/
structure Lane (ι κ T : Type*) where
  list : List (Ticket ι κ T)
  closeCount : Nat

namespace Lane

variable (l : Lane ι κ T)

def isOpen : Bool := l.closeCount = 0

def add (t : Ticket ι κ T) : Lane ι κ T := { l with list := l.list ++ [t] }

def release [DecidableEq ι] (l : Lane ι κ T) (t : Ticket ι κ T) : Lane ι κ T :=
  { l with list := l.list.filter (·.id ≠ t.id) }

def changeTicketType [DecidableEq ι] (l : Lane ι κ T) (t : Ticket ι κ T) (type : T) :
    Lane ι κ T :=
  { l with list := l.list.map fun u => if u.id = t.id then { u with type } else u }

def close : Lane ι κ T := ⟨[], l.closeCount + 1⟩

def reopen : Lane ι κ T := { l with closeCount := l.closeCount - 1 }

end Lane

/-- What a session is about to do, outside of `m_rwlock`. -/
inductive Pc (n : Nat) (ι κ T : Type*)
  | idle
  /-- The lanes did not serve the request. -/
  | acquire (t : Ticket ι κ T) (wait : Bool)
  /-- `try_release` has loaded `m_fast_lane`. -/
  | release (t : Ticket ι κ T) (lane : Fin n)
  | remove (t : Ticket ι κ T)
  /-- `try_change_ticket_type` has loaded `m_fast_lane`. -/
  | changeType (t : Ticket ι κ T) (type : T) (lane : Fin n) (downgrade : Bool)
  | downgrade (t : Ticket ι κ T) (type : T)
  | waits (t : Ticket ι κ T)
  /-- It has `m_rwlock`. -/
  | locked

/-- What the session that has `m_rwlock` does with the lanes; the lanes before `k` are
done. -/
inductive Phase (n : Nat) (ι κ T : Type*)
  | close (t : Ticket ι κ T) (wait : Bool) (k : Nat)
  /-- The request that had closed them is gone. -/
  | reopen (k : Nat)
  /-- `upgrade` reopens the lanes for the ticket that it is going to remove. -/
  | upgrade (t : Ticket ι κ T) (type : T) (remove : Ticket ι κ T) (k : Nat)
  /-- `upgrade` releases the other ticket through its lane. -/
  | upgradeLane (t : Ticket ι κ T) (type : T) (remove : Ticket ι κ T) (lane : Fin n)

/-- The backup lock and its sessions. `fastLane` is `m_fast_lane` of the ticket at an
address, `ctxAt` the context of the ticket object there, and `held` are the tickets in
the `m_tickets` of the sessions. -/
structure Backup (n : Nat) (ι κ T : Type*) where
  lanes : Fin n → Lane ι κ T
  lock : Lock ι κ T
  slot : κ → WaitStatus
  fastLane : ι → Option (Fin n)
  ctxAt : ι → Option κ
  held : List (Ticket ι κ T)
  pc : κ → Pc n ι κ T
  rwlock : Option (κ × Phase n ι κ T)

inductive BackupOp (ι κ T : Type*)
  | tryAcquireLock (t : Ticket ι κ T) (wait : Bool)
  | lockToAcquire (c : κ)
  | nextLane
  | release (t : Ticket ι κ T)
  | laneRelease (c : κ)
  | lockToRemove (c : κ)
  | abortWait (c : κ)
  | endWait (c : κ)
  | changeType (t : Ticket ι κ T) (type : T) (downgrade : Bool)
  | laneChangeType (c : κ)
  | lockToDowngrade (c : κ)
  | upgrade (t : Ticket ι κ T) (type : T) (remove : Option (Ticket ι κ T))
  | setStatus (c : κ) (status : WaitStatus)
  | elsewhere (c : κ) (status : WaitStatus)

structure BackupAction (ι κ T : Type*) where
  env : Env κ
  op : BackupOp ι κ T

namespace Backup

def init : Backup n ι κ T where
  lanes _ := ⟨[], 0⟩
  lock := .init
  slot _ := .empty
  fastLane _ := none
  ctxAt _ := none
  held := []
  pc _ := .idle
  rwlock := none

variable [DecidableEq ι] [DecidableEq κ] [DecidableEq T]

variable (s : Backup n ι κ T)

def setPc (c : κ) (p : Pc n ι κ T) : Backup n ι κ T :=
  { s with pc := update s.pc c p }

def delete (t : Ticket ι κ T) : Backup n ι κ T :=
  { s with
    ctxAt := update s.ctxAt t.id none
    held := s.held.filter (·.id ≠ t.id) }

/-- The session goes on under `m_rwlock`. -/
def enter (c : κ) (p : Phase n ι κ T) : Backup n ι κ T :=
  { s.setPc c .locked with rwlock := some (c, p) }

/-- The session unlocks `m_rwlock`. -/
def leave (c : κ) (p : Pc n ι κ T) : Backup n ι κ T :=
  { s.setPc c p with rwlock := none }

/-- `Lane::close`: the tickets of the lane go to `m_granted`. -/
def closeLane (i : Fin n) : Backup n ι κ T :=
  { s with
    lanes := update s.lanes i (s.lanes i).close
    lock := { s.lock with granted := (s.lanes i).list.foldl .addGranted s.lock.granted }
    fastLane := fun id => if id ∈ (s.lanes i).list.map (·.id) then none else s.fastLane id }

def reopenLane (i : Fin n) : Backup n ι κ T :=
  { s with lanes := update s.lanes i (s.lanes i).reopen }

def retype (t : Ticket ι κ T) (type : T) : Backup n ι κ T :=
  { s with held := s.held.map fun u => if u.id = t.id then { u with type } else u }

/-- The end of `try_acquire_lock`: the request is granted, waits or is given up. -/
def acquire (st : Strategy T) (env : Env κ) (road : Road n κ T) (s : Backup n ι κ T)
    (t : Ticket ι κ T) (wait : Bool) : Backup n ι κ T :=
  let r := s.lock.tryAcquireLock st env t wait
  match r.2 with
  | .acquired => { s with lock := r.1, held := s.held ++ [t] }.leave t.ctx .idle
  | .wait => { s with lock := r.1 }.leave t.ctx (.waits t)
  | .nowait | .error =>
    -- no error here: `m_strategy` of the backup lock is never null
    if t.type ∈ road.supportedTypes then (s.delete t).leave t.ctx .idle
    else (s.delete t).enter t.ctx (.reopen 0)

def removeTicket (st : Strategy T) (env : Env κ) (road : Road n κ T) (s : Backup n ι κ T)
    (which : Lock.Which) (t : Ticket ι κ T) : Backup n ι κ T :=
  let r := s.lock.removeTicket st env s.slot which t
  let s := { s.delete t with lock := r.1, slot := r.2 }
  if t.type ∈ road.supportedTypes then s.leave t.ctx .idle else s.enter t.ctx (.reopen 0)

/-- The end of `upgrade`, where `remove` is still in `m_granted`. -/
def finishUpgrade (t : Ticket ι κ T) (type : T)
    (remove : Option (Ticket ι κ T)) : Backup n ι κ T :=
  let s := { s with lock := s.lock.upgrade t type remove }
  match remove with
  | some u => ((s.delete u).retype t type).leave t.ctx .idle
  | none => (s.retype t type).leave t.ctx .idle

/-- The next lane for the session that has `m_rwlock`, or what comes after the last. -/
def nextLane (st : Strategy T) (env : Env κ) (road : Road n κ T) (s : Backup n ι κ T) (c : κ) :
    Phase n ι κ T → Backup n ι κ T
  | .close t wait k =>
    if h : k < n then (s.closeLane ⟨k, h⟩).enter c (.close t wait (k + 1))
    else s.acquire st env road t wait
  | .reopen k =>
    if h : k < n then (s.reopenLane ⟨k, h⟩).enter c (.reopen (k + 1))
    else s.leave c .idle
  | .upgrade t type u k =>
    if h : k < n then (s.reopenLane ⟨k, h⟩).enter c (.upgrade t type u (k + 1))
    else s.finishUpgrade t type (some u)
  | .upgradeLane t type u i =>
    let s := { s.delete u with lanes := update s.lanes i ((s.lanes i).release u) }
    s.finishUpgrade t type none

def step (st : Strategy T) (road : Road n κ T) (s : Backup n ι κ T) (a : BackupAction ι κ T) :
    Option (Backup n ι κ T) :=
  match a.op with
  | .tryAcquireLock t wait =>
    match s.pc t.ctx with
    | .idle =>
      if s.ctxAt t.id = none ∧ (wait = true → s.slot t.ctx = .empty) then
        let i := road.laneOf t.ctx
        let s := { s with ctxAt := update s.ctxAt t.id (some t.ctx) }
        if t.type ∈ road.supportedTypes ∧ (s.lanes i).isOpen = true then
          some { s with
            lanes := update s.lanes i ((s.lanes i).add t)
            fastLane := update s.fastLane t.id (some i)
            held := s.held ++ [t] }
        else
          some ({ s with fastLane := update s.fastLane t.id none }.setPc t.ctx (.acquire t wait))
      else none
    | _ => none
  | .lockToAcquire c =>
    match s.pc c, s.rwlock with
    | .acquire t wait, none =>
      if t.type ∈ road.supportedTypes then some (s.acquire st a.env road t wait)
      else some (s.enter c (.close t wait 0))
    | _, _ => none
  | .nextLane =>
    match s.rwlock with
    | some (c, p) => some (s.nextLane st a.env road c p)
    | none => none
  | .release t =>
    match s.pc t.ctx with
    | .idle =>
      if t ∈ s.held then
        match s.fastLane t.id with
        | some i => some (s.setPc t.ctx (.release t i))
        | none => some (s.setPc t.ctx (.remove t))
      else none
    | _ => none
  | .laneRelease c =>
    match s.pc c with
    | .release t i =>
      -- `m_fast_lane` is checked again under the mutex of the lane
      if (s.fastLane t.id).isSome then
        let s := { s.delete t with lanes := update s.lanes i ((s.lanes i).release t) }
        some (s.setPc c .idle)
      else some (s.setPc c (.remove t))
    | _ => none
  | .lockToRemove c =>
    match s.pc c, s.rwlock with
    | .remove t, none => some (s.removeTicket st a.env road .granted t)
    | _, _ => none
  | .abortWait c =>
    match s.pc c, s.rwlock with
    | .waits t, none => some (s.removeTicket st a.env road .waiting t)
    | _, _ => none
  | .endWait c =>
    match s.pc c with
    | .waits t =>
      if s.slot c = .granted then
        some ({ s with slot := update s.slot c .empty, held := s.held ++ [t] }.setPc c .idle)
      else none
    | _ => none
  | .changeType t type downgrade =>
    match s.pc t.ctx with
    | .idle =>
      if t ∈ s.held ∧ (t.type ∈ road.supportedTypes ↔ type ∈ road.supportedTypes) then
        match s.fastLane t.id with
        | some i => some (s.setPc t.ctx (.changeType t type i downgrade))
        | none => some (s.setPc t.ctx (if downgrade then .downgrade t type else .idle))
      else none
    | _ => none
  | .laneChangeType c =>
    match s.pc c with
    | .changeType t type i downgrade =>
      if (s.fastLane t.id).isSome then
        let s :=
          { s with lanes := update s.lanes i ((s.lanes i).changeTicketType t type) }
        some ((s.retype t type).setPc c .idle)
      else some (s.setPc c (if downgrade then .downgrade t type else .idle))
    | _ => none
  | .lockToDowngrade c =>
    match s.pc c, s.rwlock with
    | .downgrade t type, none =>
      let r := s.lock.downgrade st a.env s.slot t type
      some (({ s with lock := r.1, slot := r.2 }.retype t type).leave c .idle)
    | _, _ => none
  | .upgrade t type remove =>
    match s.pc t.ctx, s.rwlock with
    | .idle, none =>
      -- `try_fast_upgrade` has failed; `remove` is the ticket of the new type
      if t ∈ s.held ∧ s.fastLane t.id = none ∧
          (t.type ∈ road.supportedTypes ↔ type ∈ road.supportedTypes) ∧
          (∀ u ∈ remove, u ∈ s.held ∧ u.ctx = t.ctx ∧ u.id ≠ t.id ∧ u.type = type) then
        match remove with
        | none => some (s.finishUpgrade t type none)
        | some u =>
          match s.fastLane u.id with
          | some i => some (s.enter t.ctx (.upgradeLane t type u i))
          | none =>
            if u.type ∈ road.supportedTypes then some (s.finishUpgrade t type (some u))
            else some (s.enter t.ctx (.upgrade t type u 0))
      else none
    | _, _ => none
  | .setStatus c status =>
    match s.pc c with
    | .waits _ =>
      if s.slot c = .empty ∧ status ≠ .empty ∧ status ≠ .granted then
        some { s with slot := update s.slot c status }
      else none
    | _ => none
  | .elsewhere c status =>
    -- the session resets its slot, or waits for another lock
    match s.pc c with
    | .idle => some { s with slot := update s.slot c status }
    | _ => none

end Backup

end MariaDB.Mdl
