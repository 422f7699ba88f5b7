import MariaDB.Library.Transition
import MariaDB.Mdl.Lock

/-!
# Sessions on one metadata lock

The operations of the sessions on one lock outside of the backup namespace, each of them
under the write lock of `m_rwlock` and so one step. A session that waits has its ticket
in `waitingFor`; its slot is set by `reschedule_waiters`, by the deadlock detector, by a
timeout or a kill. It calls `abort_wait` after any of these but the first, and also when
it finds its client gone while the slot is empty: the ticket may then have been granted
in the meantime.
-/
namespace MariaDB.Mdl

open Library

variable {ι κ T : Type*}

structure Sessions (ι κ T : Type*) where
  lock : Lock ι κ T
  slot : κ → WaitStatus
  waitingFor : κ → Option ι

inductive Op (ι κ T : Type*)
  | tryAcquireLock (t : Ticket ι κ T) (wait : Bool)
  | addClonedTicket (t held : Ticket ι κ T)
  | release (t : Ticket ι κ T)
  | abortWait (t : Ticket ι κ T)
  | downgrade (t : Ticket ι κ T) (type : T)
  | upgrade (t : Ticket ι κ T) (type : T) (held : Ticket ι κ T) (isNewTicket : Bool)
  | setStatus (c : κ) (status : WaitStatus)
  | endWait (c : κ)
  | elsewhere (c : κ) (status : WaitStatus)

/-- The operations that end in `reschedule_waiters`. -/
def Op.reschedules : Op ι κ T → Bool
  | release _ | abortWait _ | downgrade _ _ => true
  | _ => false

structure SessionAction (ι κ T : Type*) where
  env : Env κ
  op : Op ι κ T

namespace Sessions

def init : Sessions ι κ T := ⟨.init, fun _ => .empty, fun _ => none⟩

variable [DecidableEq ι] [DecidableEq κ] [DecidableEq T]

def fresh (s : Sessions ι κ T) (id : ι) : Prop :=
  ∀ u ∈ s.lock.granted.list ++ s.lock.waiting.list, u.id ≠ id

instance (s : Sessions ι κ T) (id : ι) : Decidable (s.fresh id) :=
  inferInstanceAs (Decidable (∀ u ∈ s.lock.granted.list ++ s.lock.waiting.list, u.id ≠ id))

def holds (s : Sessions ι κ T) (t : Ticket ι κ T) : Prop :=
  t ∈ s.lock.granted.list ∧ s.waitingFor t.ctx = none

instance (s : Sessions ι κ T) (t : Ticket ι κ T) : Decidable (s.holds t) :=
  inferInstanceAs (Decidable (_ ∧ _))

def step (st : Strategy T) (s : Sessions ι κ T) (a : SessionAction ι κ T) :
    Option (Sessions ι κ T) :=
  match a.op with
  | .tryAcquireLock t wait =>
    if s.waitingFor t.ctx = none ∧ s.fresh t.id ∧ (wait = true → s.slot t.ctx = .empty) then
      let r := s.lock.tryAcquireLock st a.env t wait
      some { s with
        lock := r.1
        waitingFor :=
          if r.2 = .wait then Function.update s.waitingFor t.ctx (some t.id) else s.waitingFor }
    else none
  | .addClonedTicket t held =>
    -- the request was found to be covered by a ticket of the same context
    if s.holds held ∧ s.fresh t.id ∧ t.ctx = held.ctx ∧
        st.HasStrongerOrEqualType held.type t.type then
      some { s with lock := s.lock.addClonedTicket t }
    else none
  | .release t =>
    if s.holds t then
      let r := s.lock.removeTicket st a.env s.slot .granted t
      some { s with lock := r.1, slot := r.2 }
    else none
  | .abortWait t =>
    if s.waitingFor t.ctx = some t.id ∧ t ∈ s.lock.waiting.list ++ s.lock.granted.list then
      let r := s.lock.removeTicket st a.env s.slot .waiting t
      some { s with
        lock := r.1, slot := r.2, waitingFor := Function.update s.waitingFor t.ctx none }
    else none
  | .downgrade t type =>
    if s.holds t ∧ t.type ≠ type ∧ st.HasStrongerOrEqualType t.type type then
      let r := s.lock.downgrade st a.env s.slot t type
      some { s with lock := r.1, slot := r.2 }
    else none
  | .upgrade t type held isNewTicket =>
    -- `upgrade_shared_lock` has acquired the stronger type, with `held` for a ticket
    if s.holds t ∧ s.holds held ∧ held.ctx = t.ctx ∧ held.id ≠ t.id ∧
        ¬ st.HasStrongerOrEqualType t.type type ∧ st.HasStrongerOrEqualType held.type type then
      some { s with lock := s.lock.upgrade t type (if isNewTicket then some held else none) }
    else none
  | .setStatus c status =>
    if s.waitingFor c ≠ none ∧ s.slot c = .empty ∧ status ≠ .empty ∧ status ≠ .granted then
      some { s with slot := Function.update s.slot c status }
    else none
  | .endWait c =>
    if s.waitingFor c ≠ none ∧ s.slot c = .granted then
      some { s with
        slot := Function.update s.slot c .empty
        waitingFor := Function.update s.waitingFor c none }
    else none
  | .elsewhere c status =>
    -- the session resets its slot, or waits for another lock
    if s.waitingFor c = none then some { s with slot := Function.update s.slot c status }
    else none

end Sessions

end MariaDB.Mdl
