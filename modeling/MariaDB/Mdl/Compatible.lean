import MariaDB.Mdl.Reschedule
import MariaDB.Mdl.Sessions

/-!
# Granted locks are compatible, and no wake-up is lost

Every operation of the sessions keeps the granted list consistent, and those that end in
`reschedule_waiters` leave nobody waiting who could have the lock.
-/
namespace MariaDB.Mdl

open Library Lock

variable {ι κ T : Type*} [DecidableEq ι] [DecidableEq T]

namespace Lock

variable {st : Strategy T} {env : Env κ} {l : Lock ι κ T}
variable {slot : κ → WaitStatus} {t : Ticket ι κ T} {type : T} {which : Which} {held : Ticket ι κ T}

lemma dequeue_consistent (h : l.granted.Consistent st)
    (ht : which = .granted → t ∈ l.granted.list) :
    (l.dequeue which t).granted.Consistent st := by
  cases which with
  | granted => exact h.removeTicket (ht rfl)
  | waiting => exact h.unlink t.id

lemma dequeue_hogLockCount (l : Lock ι κ T) (which : Which) (t : Ticket ι κ T) :
    (l.dequeue which t).hogLockCount = l.hogLockCount := by
  cases which <;> rfl

lemma changeType_consistent (hst : st.Symmetric) (h : l.granted.Consistent st)
    (ht : t ∈ l.granted.list)
    (htype : ∀ u ∈ l.granted.list, u.ctx ≠ t.ctx → u.type ∉ st.grantedIncompatible type) :
    (l.changeType t type).granted.Consistent st := by
  refine (h.removeTicket ht).addGranted hst fun u hu => ?_
  exact htype u (TicketList.mem_removeTicket.mp hu).1

omit [DecidableEq ι] in
/-- What is compatible with a ticket is compatible with every weaker type. -/
lemma compatible_of_stronger (h : l.granted.Consistent st)
    (hheld : held ∈ l.granted.list) (hstr : st.HasStrongerOrEqualType held.type type) :
    ∀ u ∈ l.granted.list, u.ctx ≠ held.ctx → u.type ∉ st.grantedIncompatible type :=
  fun u hu hne hmem => h.compatible u hu held hheld hne (hstr hmem)

lemma upgrade_consistent (hst : st.Symmetric) (h : l.granted.Consistent st)
    (ht : t ∈ l.granted.list) (hheld : held ∈ l.granted.list)
    (hctx : held.ctx = t.ctx) (hid : held.id ≠ t.id)
    (hstr : st.HasStrongerOrEqualType held.type type) (isNewTicket : Bool) :
    (l.upgrade t type (if isNewTicket then some held else none)).granted.Consistent st := by
  have hcomp : ∀ u ∈ l.granted.list, u.ctx ≠ t.ctx → u.type ∉ st.grantedIncompatible type :=
    hctx ▸ compatible_of_stronger h hheld hstr
  cases isNewTicket with
  | false => exact changeType_consistent hst h ht hcomp
  | true =>
    refine changeType_consistent hst (h.removeTicket hheld) ?_ fun u hu => ?_
    · exact TicketList.mem_removeTicket.mpr ⟨ht, hid.symm⟩
    · exact hcomp u (TicketList.mem_removeTicket.mp hu).1

variable [DecidableEq κ]

lemma removeTicket_consistent (hst : st.Symmetric) (hb : st.backup = false)
    (h : l.granted.Consistent st) (ht : which = .granted → t ∈ l.granted.list) :
    (l.removeTicket st env slot which t).1.granted.Consistent st := by
  have hdeq := dequeue_consistent h ht
  unfold removeTicket
  dsimp only
  split_ifs
  · exact hdeq
  · exact rescheduleWaiters_consistent hst hb hdeq slot

lemma removeTicket_woken (hb : st.backup = false) (hle : st.WaitingLeGranted)
    (hhog : l.hogLockCount < env.maxWriteLockCount) (which : Which) :
    Woken st env (l.removeTicket st env slot which t) := by
  unfold removeTicket
  dsimp only
  split_ifs with hempty
  · intro u hu
    simp only [isEmpty, Bool.and_eq_true, List.isEmpty_iff] at hempty
    simp [hempty.2] at hu
  · exact rescheduleWaiters_woken hb hle (by rwa [dequeue_hogLockCount]) slot

lemma downgrade_woken (hb : st.backup = false) (hle : st.WaitingLeGranted)
    (hhog : l.hogLockCount < env.maxWriteLockCount) (t : Ticket ι κ T) (type : T) :
    Woken st env (l.downgrade st env slot t type) :=
  rescheduleWaiters_woken hb hle (l := l.changeType t type) hhog slot

omit [DecidableEq ι] in
lemma tryAcquireLock_consistent (hst : st.Symmetric) (hb : st.backup = false)
    (h : l.granted.Consistent st) (wait : Bool) :
    (l.tryAcquireLock st env t wait).1.granted.Consistent st := by
  unfold tryAcquireLock
  split_ifs with hdestroyed hgrant hwait
  · exact h
  · exact grant_consistent hst hb h hgrant
  · exact h
  · exact h

end Lock

namespace Sessions

variable [DecidableEq κ] {st : Strategy T} {s s' : Sessions ι κ T} {a : SessionAction ι κ T}

lemma step_consistent (hst : st.Symmetric) (hb : st.backup = false)
    (h : s.lock.granted.Consistent st) (hstep : s.step st a = some s') :
    s'.lock.granted.Consistent st := by
  revert hstep
  fun_cases step <;> intro hstep <;> cases hstep
  -- `tryAcquireLock`, `addClonedTicket`, `release` and `abortWait`
  next => exact tryAcquireLock_consistent hst hb h _
  next hheld =>
    obtain ⟨hheld, -, hctx, hstr⟩ := hheld
    exact h.addGranted hst (hctx ▸ compatible_of_stronger h hheld.1 hstr)
  next ht _ => exact removeTicket_consistent hst hb h fun _ => ht.1
  next => exact removeTicket_consistent hst hb h nofun
  -- `downgrade` and `upgrade`
  next ht _ =>
    have hcomp := compatible_of_stronger h ht.1.1 ht.2.2
    exact rescheduleWaiters_consistent hst hb (changeType_consistent hst h ht.1.1 hcomp) s.slot
  next ht =>
    obtain ⟨ht, hheld, hctx, hid, -, hstr⟩ := ht
    exact upgrade_consistent hst h ht.1 hheld.1 hctx hid hstr _
  all_goals exact h

lemma step_woken (hb : st.backup = false) (hle : st.WaitingLeGranted)
    (hhog : s.lock.hogLockCount < a.env.maxWriteLockCount) (ha : a.op.reschedules = true)
    (hstep : s.step st a = some s') : Lock.Woken st a.env (s'.lock, s'.slot) := by
  revert hstep
  fun_cases step <;> intro hstep <;> cases hstep
  case case5 => exact removeTicket_woken hb hle hhog .granted
  case case7 => exact removeTicket_woken hb hle hhog .waiting
  case case9 => exact downgrade_woken hb hle hhog _ _
  all_goals simp [*, Op.reschedules] at ha

lemma consistent_of_run (hst : st.Symmetric) (hb : st.backup = false)
    (hrun : run (step st) init as = some s) : s.lock.granted.Consistent st :=
  run_induction (fun _ _ _ h hstep => step_consistent hst hb h hstep)
    (TicketList.Consistent.empty) hrun

/-- Whatever the sessions did on an object or a scoped lock, granted tickets of different
contexts are compatible. After a ticket was removed or downgraded while fewer strong locks
than the bound were granted in a row, every ticket that waits with an empty slot has to. -/
theorem compatible_and_woken_of_run {st : Strategy MdlType}
    (hst : st = objectLock ∨ st = scopedLock) {s : Sessions ι κ MdlType}
    {as : List (SessionAction ι κ MdlType)} (hrun : run (step st) init as = some s) :
    (∀ t ∈ s.lock.granted.list, ∀ u ∈ s.lock.granted.list, t.ctx ≠ u.ctx →
      t.type ∉ st.grantedIncompatible u.type) ∧
    ∀ (a : SessionAction ι κ MdlType) (s' : Sessions ι κ MdlType),
      s.step st a = some s' → a.op.reschedules = true →
      s.lock.hogLockCount < a.env.maxWriteLockCount →
      ∀ t ∈ s'.lock.waiting.list, s'.slot t.ctx = .empty →
        s'.lock.canGrantLock st a.env t.type t.ctx false = false := by
  have hsym : st.Symmetric := by
    rcases hst with rfl | rfl
    · exact objectLock_symmetric
    · exact scopedLock_symmetric
  have hle : st.WaitingLeGranted := by
    rcases hst with rfl | rfl
    · exact objectLock_waitingLeGranted
    · exact scopedLock_waitingLeGranted
  have hb : st.backup = false := by
    rcases hst with rfl | rfl <;> rfl
  exact ⟨(consistent_of_run hsym hb hrun).compatible,
    fun a s' hstep ha hhog => step_woken hb hle hhog ha hstep⟩

/-- Three sessions on a table: the first has an exclusive lock, the others wait behind
it, one to keep readers and writers out and one to read. -/
def threeSessions : List (SessionAction Nat Nat MdlType) :=
  [⟨⟨10, fun _ => false, fun _ => false⟩, .tryAcquireLock ⟨0, 0, .exclusive⟩ true⟩,
   ⟨⟨10, fun _ => false, fun _ => false⟩, .tryAcquireLock ⟨1, 1, .sharedNoReadWrite⟩ true⟩,
   ⟨⟨10, fun _ => false, fun _ => false⟩, .tryAcquireLock ⟨2, 2, .sharedRead⟩ true⟩]

theorem compatible_and_woken_of_threeSessions : ∃ s s' : Sessions Nat Nat MdlType,
      run (step objectLock) init threeSessions = some s ∧
      s.step objectLock ⟨⟨10, fun _ => false, fun _ => false⟩, .release ⟨0, 0, .exclusive⟩⟩ =
        some s' ∧
      s'.lock.granted.list = [⟨1, 1, .sharedNoReadWrite⟩] ∧
      s'.lock.waiting.list = [⟨2, 2, .sharedRead⟩] ∧
      s'.lock.canGrantLock objectLock ⟨10, fun _ => false, fun _ => false⟩ .sharedRead 2 false =
        false := by
  refine ⟨_, _, rfl, rfl, rfl, rfl, ?_⟩
  have hrun := @compatible_and_woken_of_run Nat Nat _ _ objectLock (.inl rfl) _ threeSessions rfl
  exact hrun.2 ⟨⟨10, fun _ => false, fun _ => false⟩, .release ⟨0, 0, .exclusive⟩⟩ _ rfl rfl
    (by decide) ⟨2, 2, .sharedRead⟩ (List.mem_singleton.mpr rfl) rfl

end Sessions

end MariaDB.Mdl
