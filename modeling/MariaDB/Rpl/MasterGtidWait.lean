import MariaDB.Rpl.SmallWaiter

/-!
# No wait is forgotten

The invariant holds in every run of `MASTER_GTID_WAIT()` and updates. In a state where every
thread sleeps, the thread that is registered waits for the earliest sequence number of the
queue, and the update that reaches a sequence number of the queue wakes it.
-/
namespace MariaDB.Rpl.GtidWaiting

open Library

variable {ρ τ : Type*} [DecidableEq τ] {s s' : GtidWaiting ρ τ}

lemma Inv.step (hs : s.Inv) (h : s.step a = some s') : s'.Inv := by
  revert h
  fun_cases GtidWaiting.step <;> intro h
  all_goals try cases h
  -- `call` and `enter`
  next hidle => exact hs.idle (by simp [hidle, WaitPoint.live]) (.inr ⟨rfl, rfl⟩)
  next hpoint => exact hs.enter hpoint.1 hpoint.2
  -- `small` and `large`
  next hpoint => exact hs.small hpoint.1 hpoint.2 h
  next hpoint => exact hs.large hpoint.1 (by simpa using hpoint.2)
  -- `wake`
  next hpoint => exact hs.wakeSmall hpoint
  next hpoint hlock => exact hs.wakeLarge hpoint hlock
  -- `relock` and `process`
  next hpoint hlock => exact hs.relock hpoint hlock
  next hpoint _ => exact hs.process hpoint
  -- `check` and `fail`
  next hpoint => exact hs.check hpoint h
  next hpoint => exact hs.fail hpoint h
  -- `kill` and `update`
  next => exact hs.kill
  next malloc l duplicate => exact hs.update malloc l duplicate

lemma exists_isTop (h : s.queue ≠ []) : ∃ q, s.IsTop q := by
  obtain ⟨q, hq, hmin⟩ := s.queue.toFinset.exists_min_image (fun q => (s.waiter q).waitSeqNo)
    (List.toFinset_nonempty_iff s.queue |>.mpr h)
  exact ⟨q, by simpa using hq, fun p hp => hmin p (by simpa using hp)⟩

section

variable (s) (t : τ)
include t

lemma promoteNewWaiter_isSome : ∃ top, (s.promoteNewWaiter top).isSome := by
  by_cases h : s.queue = []
  · exact ⟨t, by simp [promoteNewWaiter, h]⟩
  · obtain ⟨top, htop⟩ := exists_isTop h
    exact ⟨top, by simp [promoteNewWaiter, h, htop]⟩

lemma condSignal_isSome : ∃ woken, (s.condSignal woken).isSome := by
  cases h : s.condWaitGtid with
  | nil => exact ⟨t, by simp [condSignal, h]⟩
  | cons woken ts => exact ⟨woken, by simp [condSignal, h]⟩

lemma beginSmallWait_isSome : ∃ woken, (s.beginSmallWait t woken).isSome := by
  obtain ⟨woken, h⟩ := (s.register t).condSignal_isSome t
  refine ⟨woken, ?_⟩
  unfold beginSmallWait
  rw [Option.isSome_map]
  split
  · exact h
  · rfl

lemma small_isSome : ∃ woken, (s.small t true woken).isSome := by
  cases he : s.slave.getElement true with
  | none => exact ⟨t, by simp [small, he]⟩
  | some e =>
    obtain ⟨woken, h⟩ := beginSmallWait_isSome { s with slave := { s.slave with elem := some e } } t
    refine ⟨woken, ?_⟩
    simp only [small, he]
    split
    · rfl
    split
    · rfl
    · exact h

lemma check_isSome : ∃ top, (s.check t top).isSome := by
  set s₁ := if ((s.waiter t).killed ∨ (s.waiter t).timedOut) ∧ ¬ (s.waiter t).done then
    (s.removeFromWaitQueue t).set t { s.waiter t with done := true } else s with hs₁
  obtain ⟨top, h⟩ := s₁.promoteNewWaiter_isSome t
  refine ⟨top, ?_⟩
  simp only [check, ← hs₁]
  split
  · rw [Option.isSome_map]
    split
    · exact h
    · rfl
  · rfl

end

/-- The thread with `LOCK_gtid_waiting` can go on. -/
lemma Quiescent.lock_eq_none (hq : s.Quiescent) (hs : s.Inv) : s.lock = none := by
  by_contra hlock
  obtain ⟨t, ht⟩ := Option.ne_none_iff_exists'.mp hlock
  have hlocked := (hs.waiter t).lock.mp ht
  cases hpoint : (s.waiter t).point with
  | loop =>
    by_cases hsmall : (s.waiter t).doSmallWait
    · obtain ⟨woken, h⟩ := s.small_isSome t
      have hnone := hq (.small t true woken) rfl
      simp only [step, hpoint, hsmall, and_self, if_true] at hnone
      simp [hnone] at h
    · have hnone := hq (.large t) rfl
      simp [step, hpoint, hsmall] at hnone
  | outOfMemory =>
    obtain ⟨top, h⟩ := (s.removeFromWaitQueue t).promoteNewWaiter_isSome t
    have hnone := hq (.fail t top) rfl
    simp only [step, hpoint, if_true, fail, Option.map_eq_none_iff] at hnone
    simp [hnone] at h
  | process n =>
    have hnone := hq (.process t) rfl
    simp [step, hpoint] at hnone
  | check =>
    obtain ⟨top, h⟩ := s.check_isSome t
    have hnone := hq (.check t top) rfl
    simp only [step, hpoint, if_true] at hnone
    simp [hnone] at h
  | _ => simp [hpoint, WaitPoint.locked] at hlocked

/-- A thread with `do_small_wait` that cannot go on is in the small wait and registered. -/
lemma Quiescent.registered (hq : s.Quiescent) (hs : s.Inv) {t : τ}
    (hlive : (s.waiter t).point.live) (hsmall : (s.waiter t).doSmallWait) :
    t ∈ s.condWaitGtid ∧ s.slave.gtidWaiter = some t := by
  have hlock := hq.lock_eq_none hs
  have hunlocked : (s.waiter t).point.locked = false := by
    rw [← Bool.not_eq_true, ← (hs.waiter t).lock, hlock]
    simp
  cases hpoint : (s.waiter t).point with
  | smallWait =>
    by_contra hnot
    have hblocked : t ∉ s.condWaitGtid := fun h => hnot ⟨h, hs.blocked t h⟩
    have hnone := hq (.wake t .signal) rfl
    simp [step, hpoint, mayWake, hblocked] at hnone
  | relock n =>
    have hnone := hq (.relock t) rfl
    simp [step, hpoint, hlock] at hnone
  | largeWait =>
    have hsignalled : (s.waiter t).signalled := by
      simpa [hsmall] using (hs.waiter t).largeWait hpoint
    have hnone := hq (.wake t .signal) rfl
    simp [step, hpoint, mayWake, hsignalled, hlock] at hnone
  | idle | entry => simp [hpoint, WaitPoint.live] at hlive
  | _ => simp [hpoint, WaitPoint.locked] at hunlocked

lemma inv_of_run (hs : s.Inv) (hrun : run step s as = some s') : s'.Inv :=
  run_induction (fun _ _ _ hs h => hs.step h) hs hrun

/-- In every state that is reached, a thread in the call has `do_small_wait` unless the queue is
empty. In a state where no thread can go on by itself, what is waited for is not reached yet,
and a thread is registered for the earliest of it. Any update that reaches a sequence
number of the queue wakes a thread. -/
theorem masterGtidWait_of_run (batch : Nat) {as : List (WaitAction τ)}
    (hrun : run step (init batch) as = some s) :
    (s.queue ≠ [] → ∃ t, (s.waiter t).point.live ∧ (s.waiter t).doSmallWait) ∧
    (s.Quiescent → ∀ q ∈ s.queue, s.slave.highestSeqNo < (s.waiter q).waitSeqNo ∧
      s.slave.gtidWaiter.isSome ∧ s.slave.minWaitSeqNo ≤ (s.waiter q).waitSeqNo ∧
      ∀ malloc l duplicate s', (s.waiter q).waitSeqNo ≤ l.seqNo →
        s.step (.update malloc l duplicate) = some s' →
          ∃ t, (s'.step (.wake t .signal)).isSome) := by
  have hs := inv_of_run (Inv.init batch) hrun
  constructor
  · intro hqueue
    obtain ⟨q, hq⟩ := List.exists_mem_of_ne_nil _ hqueue
    obtain ⟨t, hlive, hsmall, -⟩ := hs.responsible q hq
    exact ⟨t, hlive, hsmall⟩
  · intro hquiet q hq
    obtain ⟨t, hlive, hsmall, hle⟩ := hs.responsible q hq
    obtain ⟨hblocked, ht⟩ := hquiet.registered hs hlive hsmall
    have hreg := hs.registered t ht
    refine ⟨hreg.highest.trans_le hle, by simp [ht], hreg.min ▸ hle, ?_⟩
    intro malloc l duplicate s' hreach hstep
    cases hstep
    have helem := ((hs.waiter t).smallWait hreg.point).2
    obtain ⟨e, he⟩ := Option.isSome_iff_exists.mp helem
    have hget : s.slave.getElement malloc.elem = some e := by simp [SlaveState.getElement, he]
    obtain ⟨-, -, -, hwake⟩ := SlaveState.updateNolock_waiter (l := l) (d := duplicate) hget
    refine ⟨t, ?_⟩
    rcases hwake with ⟨hsignal, -⟩ | ⟨-, -, hlt⟩
    · simp [step, update, mayWake, hsignal, hreg.point]
    · have := hlt (by simp [ht])
      rw [hreg.min] at this
      omega

def twoWaiters : List (WaitAction Bool) :=
  [.call false 5 false false, .enter false true true, .small false true false,
    .call true 7 false false, .enter true true true, .large true]

/-- The thread that waits for 5 is registered and the other one is in the large wait. -/
theorem masterGtidWait_of_twoWaiters :
    ∃ s : GtidWaiting Unit Bool, run step (init 64) twoWaiters = some s ∧ s.Quiescent ∧
      s.slave.minWaitSeqNo = 5 ∧
      (∃ t, (s.waiter t).point.live ∧ (s.waiter t).doSmallWait) ∧
      s.slave.highestSeqNo < (s.waiter true).waitSeqNo ∧
      s.slave.minWaitSeqNo ≤ (s.waiter true).waitSeqNo := by
  have hrun : ∃ s : GtidWaiting Unit Bool, run step (init 64) twoWaiters = some s ∧
      s.Quiescent ∧ s.slave.minWaitSeqNo = 5 ∧ s.queue = [true, false] := by
    refine ⟨_, rfl, fun a ha => ?_, rfl, rfl⟩
    cases a with
    | wake t why => cases t <;> cases why <;> first | rfl | simp [WaitAction.own] at ha
    | call | kill | update => simp [WaitAction.own] at ha
    | enter t | small t | large t | relock t | process t | check t | fail t => cases t <;> rfl
  obtain ⟨s, hrun, hquiet, hmin, hqueue⟩ := hrun
  obtain ⟨hsmall, hwait⟩ := masterGtidWait_of_run 64 hrun
  obtain ⟨hhigh, -, hle, -⟩ := hwait hquiet true (by simp [hqueue])
  exact ⟨s, hrun, hquiet, hmin, hsmall (by simp [hqueue]), hhigh, hle⟩

end MariaDB.Rpl.GtidWaiting
