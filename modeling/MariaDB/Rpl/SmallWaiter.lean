import MariaDB.Rpl.GtidWaiting

/-!
# The responsibility for the small wait

For every element of the queue there is a thread with `do_small_wait` that waits for the same
or an earlier sequence number. It is handed on before it is dropped: to the thread that is
registered in the slave state, which has `do_small_wait` as long as it is registered, or to
the top of the queue.
-/
namespace MariaDB.Rpl

open List Option

variable {ρ τ : Type*} {slave : SlaveState ρ τ}

attribute [local simp] WaitPoint.live WaitPoint.locked

namespace Waiter

variable (w : Waiter)

@[simp]
lemma wakeupReady_point : w.wakeupReady.point = w.point := by
  unfold wakeupReady
  split <;> rfl

@[simp]
lemma wakeupReady_done : w.wakeupReady.done = w.done := by
  unfold wakeupReady
  split <;> rfl

@[simp]
lemma wakeupReady_doSmallWait : w.wakeupReady.doSmallWait = w.doSmallWait := by
  unfold wakeupReady
  split <;> rfl

@[simp]
lemma wakeupReady_waitSeqNo : w.wakeupReady.waitSeqNo = w.waitSeqNo := by
  unfold wakeupReady
  split <;> rfl

lemma wakeupReady_signalled (h : w.point = .largeWait) : w.wakeupReady.signalled = true := by
  simp [wakeupReady, h]

end Waiter

/-- What holds of one thread. `queued` and `locked` are whether it is in the queue and has
`LOCK_gtid_waiting`. -/
structure Waiter.Ok (w : Waiter) (slave : SlaveState ρ τ) (queued locked : Prop) : Prop where
  queue : queued ↔ w.point.live ∧ w.done = false
  lock : locked ↔ w.point.locked
  undone : w.point = .entry ∨ w.point = .loop ∨ w.point = .outOfMemory → w.done = false
  smallWait : w.point = .smallWait → w.doSmallWait ∧ slave.elem.isSome
  wakeup : ∀ n, w.point = .relock n ∨ w.point = .process n → n ≤ slave.highestSeqNo
  largeWait : w.point = .largeWait → w.signalled ∨ w.done = false ∧ w.doSmallWait = false

lemma Waiter.Ok.frame {w : Waiter} {slave slave' : SlaveState ρ τ}
    {queued locked queued' locked' : Prop} (h : w.Ok slave queued locked)
    (hqueue : queued' ↔ queued) (hlock : locked' ↔ locked)
    (helem : slave.elem.isSome → slave'.elem.isSome)
    (hhigh : slave.highestSeqNo ≤ slave'.highestSeqNo) : w.Ok slave' queued' locked' where
  __ := h
  queue := hqueue.trans h.queue
  lock := hlock.trans h.lock
  smallWait hw := ⟨(h.smallWait hw).1, helem (h.smallWait hw).2⟩
  wakeup n hn := (h.wakeup n hn).trans hhigh

/-- A signal does not change what holds of a thread, nor does what it is sent for. -/
lemma Waiter.Ok.wakeupReady {w v : Waiter} {queued locked : Prop}
    (h : w.Ok slave queued locked) (hpoint : v.point = w.point) (hdone : v.done = w.done)
    (hsmall : w.doSmallWait → v.doSmallWait) : v.wakeupReady.Ok slave queued locked where
  queue := by simpa [hpoint, hdone] using h.queue
  lock := by simpa [hpoint] using h.lock
  undone := by simpa [hpoint, hdone] using h.undone
  smallWait hw := by
    obtain ⟨hw, helem⟩ := h.smallWait (by simpa [hpoint] using hw)
    exact ⟨by simpa using hsmall hw, helem⟩
  wakeup := by simpa [hpoint] using h.wakeup
  largeWait hw := .inl (v.wakeupReady_signalled (by simpa using hw))

/-- What holds of the thread that is registered in the slave state. -/
structure Waiter.Registered (w : Waiter) (slave : SlaveState ρ τ) : Prop where
  point : w.point = .smallWait
  done : w.done = false
  min : slave.minWaitSeqNo = w.waitSeqNo
  highest : slave.highestSeqNo < w.waitSeqNo

lemma Waiter.Registered.wakeupReady {w v : Waiter}
    (h : w.Registered slave) (hpoint : v.point = w.point) (hdone : v.done = w.done)
    (hwait : v.waitSeqNo = w.waitSeqNo) : v.wakeupReady.Registered slave := by
  constructor <;> simp [hpoint, hdone, hwait, h.point, h.done, h.min, h.highest]

/-- The slave state is the same, but for an element that may be new. -/
structure SlaveState.Same (slave slave' : SlaveState ρ τ) : Prop where
  elem : slave.elem.isSome → slave'.elem.isSome
  waiter : slave'.gtidWaiter = slave.gtidWaiter
  min : slave'.minWaitSeqNo = slave.minWaitSeqNo
  highest : slave'.highestSeqNo = slave.highestSeqNo

lemma SlaveState.Same.refl (slave : SlaveState ρ τ) : slave.Same slave := ⟨id, rfl, rfl, rfl⟩

lemma SlaveState.same_element (slave : SlaveState ρ τ) :
    slave.Same { slave with elem := some slave.element } := ⟨fun _ => rfl, rfl, rfl, rfl⟩

namespace GtidWaiting

/-- A thread with `do_small_wait` waits for this sequence number or an earlier one. -/
def Responsible (s : GtidWaiting ρ τ) (seqNo : Nat) : Prop :=
  ∃ t, (s.waiter t).point.live ∧ (s.waiter t).doSmallWait ∧ (s.waiter t).waitSeqNo ≤ seqNo

structure Inv (s : GtidWaiting ρ τ) : Prop where
  waiter : ∀ t, (s.waiter t).Ok s.slave (t ∈ s.queue) (s.lock = some t)
  blocked : ∀ t ∈ s.condWaitGtid, s.slave.gtidWaiter = some t
  registered : ∀ t, s.slave.gtidWaiter = some t → (s.waiter t).Registered s.slave
  responsible : ∀ q ∈ s.queue, s.Responsible (s.waiter q).waitSeqNo

structure Moves (s s' : GtidWaiting ρ τ) (t : τ) : Prop where
  other : ∀ t' ≠ t, s'.waiter t' = s.waiter t'
  queue : ∀ t' ≠ t, t' ∈ s'.queue ↔ t' ∈ s.queue
  lock : ∀ t' ≠ t, s'.lock = some t' ↔ s.lock = some t'
  elem : s.slave.elem.isSome → s'.slave.elem.isSome
  highest : s.slave.highestSeqNo ≤ s'.slave.highestSeqNo

variable {s s' : GtidWaiting ρ τ} {t : τ}

lemma Moves.responsible (h : Moves s s' t)
    (hkeep : (s.waiter t).point.live → (s.waiter t).doSmallWait →
      s'.Responsible (s.waiter t).waitSeqNo)
    {n : Nat} (hn : s.Responsible n) : s'.Responsible n := by
  obtain ⟨x, hlive, hsmall, hle⟩ := hn
  by_cases hx : x = t
  · subst hx
    obtain ⟨r, hlive', hsmall', hle'⟩ := hkeep hlive hsmall
    exact ⟨r, hlive', hsmall', hle'.trans hle⟩
  · refine ⟨x, ?_⟩
    rw [h.other x hx]
    exact ⟨hlive, hsmall, hle⟩

/-- A step of one thread keeps the responsibility if it has none. -/
lemma Moves.responsible_of_not (h : Moves s s' t)
    (hnot : (s.waiter t).point.live → (s.waiter t).doSmallWait = false) {n : Nat}
    (hn : s.Responsible n) : s'.Responsible n :=
  h.responsible (fun hlive hsmall => by simp [hnot hlive] at hsmall) hn

/-- The responsibility passes from a thread to the one that is registered. -/
lemma Moves.responsible_of_registered (h : Moves s s' t) {r : τ} (hne : r ≠ t)
    (hpoint : (s.waiter r).point = .smallWait) (hsmall : (s.waiter r).doSmallWait)
    (hle : (s.waiter r).waitSeqNo ≤ (s.waiter t).waitSeqNo) {n : Nat} (hn : s.Responsible n) :
    s'.Responsible n := by
  refine h.responsible (fun _ _ => ⟨r, ?_⟩) hn
  rw [h.other r hne, hpoint]
  exact ⟨rfl, hsmall, hle⟩

lemma Moves.waiter (h : Moves s s' t) (hs : s.Inv)
    (ht : (s'.waiter t).Ok s'.slave (t ∈ s'.queue) (s'.lock = some t)) (t' : τ) :
    (s'.waiter t').Ok s'.slave (t' ∈ s'.queue) (s'.lock = some t') := by
  by_cases ht' : t' = t
  · subst ht'
    exact ht
  · rw [h.other t' ht']
    exact (hs.waiter t').frame (h.queue t' ht') (h.lock t' ht') h.elem h.highest

/-- A step of a thread that is not registered, and does not touch the slave state. -/
lemma Moves.inv (h : Moves s s' t) (hs : s.Inv) (hslave : s.slave.Same s'.slave)
    (hcond : ∀ t' ∈ s'.condWaitGtid, t' ∈ s.condWaitGtid) (hfree : s.slave.gtidWaiter ≠ some t)
    (ht : (s'.waiter t).Ok s'.slave (t ∈ s'.queue) (s'.lock = some t))
    (hresp : ∀ q ∈ s'.queue, s'.Responsible (s'.waiter q).waitSeqNo) : s'.Inv := by
  refine ⟨h.waiter hs ht, fun t' ht' => ?_, fun t' ht' => ?_, hresp⟩
  · rw [hslave.waiter]
    exact hs.blocked t' (hcond t' ht')
  · rw [hslave.waiter] at ht'
    have hreg := hs.registered t' ht'
    rw [h.other t' fun heq => hfree (heq ▸ ht')]
    exact ⟨hreg.point, hreg.done, hslave.min.trans hreg.min, hslave.highest.trans_lt hreg.highest⟩

lemma Inv.not_registered (hs : s.Inv) (hpoint : (s.waiter t).point ≠ .smallWait) :
    s.slave.gtidWaiter ≠ some t :=
  fun h => hpoint (hs.registered t h).point

lemma Inv.of_same (hs : s.Inv) (h : s.slave.Same slave) : Inv { s with slave := slave } := by
  refine ⟨fun t => (hs.waiter t).frame Iff.rfl Iff.rfl h.elem h.highest.ge, fun t ht => ?_,
    fun t ht => ?_, hs.responsible⟩
  · exact h.waiter.trans (hs.blocked t ht)
  · have hreg := hs.registered t (h.waiter.symm.trans ht)
    exact ⟨hreg.point, hreg.done, h.min.trans hreg.min, h.highest.trans_lt hreg.highest⟩

lemma lock_iff_of_ne {l l' : Option τ} {t' : τ} (hne : t' ≠ t) (hl : l = none ∨ l = some t)
    (hl' : l' = none ∨ l' = some t) : l' = some t' ↔ l = some t' := by
  rcases hl with rfl | rfl <;> rcases hl' with rfl | rfl <;> simp [hne.symm]

/-- After a step of one thread nobody is registered. -/
lemma Inv.unregister (hs : s.Inv) (hm : Moves s s' t) (hwaiter : s'.slave.gtidWaiter = none)
    (hcond : s'.condWaitGtid = [])
    (ht : (s'.waiter t).Ok s'.slave (t ∈ s'.queue) (s'.lock = some t))
    (hresp : ∀ q ∈ s'.queue, s'.Responsible (s'.waiter q).waitSeqNo) : s'.Inv :=
  ⟨hm.waiter hs ht, by simp [hcond], by simp [hwaiter], hresp⟩

/-- After a step of one thread that thread is registered. -/
lemma Inv.register (hs : s.Inv) (hm : Moves s s' t) (hwaiter : s'.slave.gtidWaiter = some t)
    (hcond : s'.condWaitGtid = [t]) (hreg : (s'.waiter t).Registered s'.slave)
    (ht : (s'.waiter t).Ok s'.slave (t ∈ s'.queue) (s'.lock = some t))
    (hresp : ∀ q ∈ s'.queue, s'.Responsible (s'.waiter q).waitSeqNo) : s'.Inv := by
  refine ⟨hm.waiter hs ht, by simp [hcond, hwaiter], fun t' ht' => ?_, hresp⟩
  obtain rfl : t = t' := by simpa [hwaiter] using ht'
  exact hreg

/-- Only the thread that is registered waits for a signal. -/
lemma Inv.condWaitGtid_eq_nil (hs : s.Inv) (h : s.slave.gtidWaiter = none) : s.condWaitGtid = [] :=
  eq_nil_iff_forall_not_mem.mpr fun t ht => by simpa [h] using hs.blocked t ht

variable [DecidableEq τ]

section Set

variable (s : GtidWaiting ρ τ) (t : τ) (w : Waiter)

@[simp] lemma set_slave : (s.set t w).slave = s.slave := rfl
@[simp] lemma set_lock : (s.set t w).lock = s.lock := rfl
@[simp] lemma set_queue : (s.set t w).queue = s.queue := rfl
@[simp] lemma set_condWaitGtid : (s.set t w).condWaitGtid = s.condWaitGtid := rfl

@[simp]
lemma set_waiter_self : (s.set t w).waiter t = w := by simp [set]

lemma set_waiter_of_ne {s : GtidWaiting ρ τ} {t t' : τ} {w : Waiter} (h : t' ≠ t) :
    (s.set t w).waiter t' = s.waiter t' := by
  simp [set, h]

end Set

lemma endSmallWait_of_registered (h : s.slave.gtidWaiter = some t) :
    s.endSmallWait t w = (s.unblock t).unregister.set t
        { w with point := .relock s.slave.highestSeqNo } :=
  if_pos h

lemma Moves.of_set (s₀ : GtidWaiting ρ τ) (w : Waiter) (hwaiter : s₀.waiter = s.waiter)
    (hqueue : s₀.queue = s.queue) (hlock : s.lock = none ∨ s.lock = some t)
    (hlock₀ : s₀.lock = none ∨ s₀.lock = some t)
    (helem : s.slave.elem.isSome → s₀.slave.elem.isSome)
    (hhigh : s.slave.highestSeqNo ≤ s₀.slave.highestSeqNo) : Moves s (s₀.set t w) t := by
  refine ⟨fun t' h => ?_, fun t' _ => ?_, fun t' h => ?_, helem, hhigh⟩
  · rw [set_waiter_of_ne h, hwaiter]
  · rw [set_queue, hqueue]
  · exact lock_iff_of_ne h hlock hlock₀

lemma Moves.responsible_queue (h : Moves s s' t) (hs : s.Inv) (hqueue : ∀ q ∈ s'.queue, q ∈ s.queue)
    (hwait : (s'.waiter t).waitSeqNo = (s.waiter t).waitSeqNo)
    (hresp : ∀ n, s.Responsible n → s'.Responsible n) :
    ∀ q ∈ s'.queue, s'.Responsible (s'.waiter q).waitSeqNo := by
  intro q hq
  have hsame : (s'.waiter q).waitSeqNo = (s.waiter q).waitSeqNo := by
    by_cases hne : q = t
    · rw [hne, hwait]
    · rw [h.other q hne]
  rw [hsame]
  exact hresp _ (hs.responsible q (hqueue q hq))

section

variable (hs : s.Inv)
include hs

/-- A step of a thread that is not in the small wait, and that changes neither the queue nor
the slave state. -/
lemma Inv.move {s₀ : GtidWaiting ρ τ} (hwaiter : s₀.waiter = s.waiter)
    (hqueue : s₀.queue = s.queue) (hcond : s₀.condWaitGtid = s.condWaitGtid)
    (hslave : s.slave.Same s₀.slave) (hlock : s.lock = none ∨ s.lock = some t)
    (hlock₀ : s₀.lock = none ∨ s₀.lock = some t) (hpoint : (s.waiter t).point ≠ .smallWait)
    (hwait : w.waitSeqNo = (s.waiter t).waitSeqNo)
    (hok : w.Ok s₀.slave (t ∈ s.queue) (s₀.lock = some t))
    (hresp : ((s.waiter t).doSmallWait → w.point.live ∧ w.doSmallWait) ∨
      ∃ r, s.slave.gtidWaiter = some r ∧ s.slave.minWaitSeqNo ≤ (s.waiter t).waitSeqNo) :
    (s₀.set t w).Inv := by
  have hm := Moves.of_set s₀ w hwaiter hqueue hlock hlock₀ hslave.elem hslave.highest.ge
  refine hm.inv hs { hslave with } (fun t' ht' => hcond ▸ ht') (hs.not_registered hpoint) ?_ ?_
  · simpa [hqueue] using hok
  · refine hm.responsible_queue hs (fun q hq => hqueue ▸ hq) (by simpa using hwait) fun n => ?_
    rcases hresp with hkeep | ⟨r, hr, hle⟩
    · exact hm.responsible fun _ hsmall => ⟨t, by simpa [hwait] using hkeep hsmall⟩
    · have hreg := hs.registered r hr
      have hne : r ≠ t := fun heq => hpoint (heq ▸ hreg.point)
      exact hm.responsible_of_registered hne hreg.point ((hs.waiter r).smallWait hreg.point).1
        (hreg.min ▸ hle)

/-- A thread that is not in the call may change all that is its own. -/
lemma Inv.idle (hlive : (s.waiter t).point.live = false)
    (hw : w.point = .idle ∨ w.point = .entry ∧ w.done = false) : (s.set t w).Inv := by
  have hok := hs.waiter t
  have hqueue : t ∉ s.queue := by simp [hok.queue, hlive, -WaitPoint.live]
  have hlock : s.lock ≠ some t := by
    rw [Ne, hok.lock]
    cases h : (s.waiter t).point <;> simp_all
  have hm : Moves s (s.set t w) t :=
    ⟨fun _ h => set_waiter_of_ne h, fun _ _ => Iff.rfl, fun _ _ => Iff.rfl, id, le_rfl⟩
  have hpoint : (s.waiter t).point ≠ .smallWait := fun h => by simp [h] at hlive
  refine hm.inv hs (.refl _) (fun _ => id) (hs.not_registered hpoint) ?_ fun q hq => ?_
  · rw [set_waiter_self]
    rcases hw with hw | ⟨hw, hdone⟩ <;> constructor <;>
      simp_all
  · have hne : q ≠ t := fun h => hqueue (h ▸ hq)
    rw [set_waiter_of_ne hne]
    exact hm.responsible_of_not (fun h => absurd h (by rw [hlive]; simp)) (hs.responsible q hq)

lemma Inv.enter {mallocEntry mallocQueue : Bool} (hpoint : (s.waiter t).point = .entry)
    (hlock : s.lock = none) : (s.enter t mallocEntry mallocQueue).Inv := by
  have hlive : (s.waiter t).point.live = false := by simp [hpoint]
  have hs' : Inv { s with entry := true } := { hs with }
  unfold GtidWaiting.enter
  split
  · exact hs.idle hlive (.inl rfl)
  split
  · exact hs'.idle hlive (.inl rfl)
  set s₁ := ({ s with entry := true, lock := some t, queue := t :: s.queue } :
    GtidWaiting ρ τ).set t { s.waiter t with
      point := .loop
      doSmallWait := s.queue.all fun q => (s.waiter q).waitSeqNo > (s.waiter t).waitSeqNo } with hs₁
  have hm : Moves s s₁ t := by
    refine ⟨fun _ h => set_waiter_of_ne h, fun t' h => ?_, fun t' h => ?_, id, le_rfl⟩
    · simp [hs₁, h]
    · exact lock_iff_of_ne h (.inl hlock) (.inr rfl)
  have hresp : ∀ n, s.Responsible n → s₁.Responsible n := fun n =>
    hm.responsible_of_not fun h => absurd h (by rw [hlive]; simp)
  have hdone := (hs.waiter t).undone (.inl hpoint)
  refine hm.inv hs (.refl _) (fun _ => id) (hs.not_registered (by simp [hpoint])) ?_ fun q hq => ?_
  · constructor <;> simp [hs₁, hdone]
  · rcases mem_cons.mp hq with rfl | hold
    · -- the new element is responsible itself unless an element before it is
      by_cases hsmall : ∀ p ∈ s.queue, (s.waiter q).waitSeqNo < (s.waiter p).waitSeqNo
      · exact ⟨q, by simp [hs₁], by simpa [hs₁] using hsmall, le_rfl⟩
      · push Not at hsmall
        obtain ⟨p, hp, hle⟩ := hsmall
        obtain ⟨x, hx, hx', hx''⟩ := hresp _ (hs.responsible p hp)
        exact ⟨x, hx, hx', hx''.trans (by simpa [hs₁] using hle)⟩
    · have hne : q ≠ t := by
        rintro rfl
        exact absurd ((hs.waiter q).queue.mp hold).1 (by simp [hpoint])
      rw [hm.other q hne]
      exact hresp _ (hs.responsible q hold)

lemma Inv.condWaitGtid_filter (h : s.slave.gtidWaiter = some t) :
    s.condWaitGtid.filter (· ≠ t) = [] := by
  refine filter_eq_nil_iff.mpr fun t' ht' => ?_
  have := hs.blocked t' ht'
  simp_all

/-- The signal reaches the thread that was registered, and nobody waits any more. -/
lemma Inv.condSignal {s₀ s₁ : GtidWaiting ρ τ}
    (h : (if s.slave.gtidWaiter.isSome then s₀.condSignal woken else some s₀) = some s₁)
    (h₀ : s₀.condWaitGtid = s.condWaitGtid) : s₁ = { s₀ with condWaitGtid := [] } := by
  split at h
  next hsome =>
    obtain ⟨r, hr⟩ := isSome_iff_exists.mp hsome
    unfold GtidWaiting.condSignal at h
    split at h
    next hnil =>
      obtain rfl := some.inj h
      rw [← hnil]
    next hnil =>
      obtain ⟨hwoken, heq⟩ := ite_none_right_eq_some.mp h
      obtain rfl := some.inj heq
      obtain rfl : r = woken := some.inj (hr.symm.trans (hs.blocked woken (h₀ ▸ hwoken)))
      rw [unblock, h₀, hs.condWaitGtid_filter hr]
  next hnone =>
    obtain rfl := some.inj h
    have hnil := hs.condWaitGtid_eq_nil (not_isSome_iff_eq_none.mp hnone)
    rw [← hnil, ← h₀]

omit [DecidableEq τ] in
lemma Inv.at_loop (hpoint : (s.waiter t).point = .loop) :
    s.lock = some t ∧ (s.waiter t).done = false ∧ t ∈ s.queue := by
  have hok := hs.waiter t
  have hdone : (s.waiter t).done = false := hok.undone (by simp [hpoint])
  exact ⟨hok.lock.mpr (by simp [hpoint]), hdone, hok.queue.mpr ⟨by simp [hpoint], hdone⟩⟩

lemma Inv.beginSmallWait (hpoint : (s.waiter t).point = .loop)
    (hsmall : (s.waiter t).doSmallWait) (hlt : s.slave.highestSeqNo < (s.waiter t).waitSeqNo)
    (h : s.beginSmallWait t woken = some s') : s'.Inv := by
  obtain ⟨hlock, hdone, hqueue⟩ := hs.at_loop hpoint
  unfold GtidWaiting.beginSmallWait at h
  obtain ⟨s₁, h₁, rfl⟩ := map_eq_some_iff.mp h
  obtain rfl := hs.condSignal h₁ rfl
  split
  · -- the thread was killed: it is registered and leaves at once
    rw [endSmallWait_of_registered (s := { s.register t with condWaitGtid := [] }) rfl]
    have hm : Moves s _ t := .of_set { s.register t with condWaitGtid := [] }.unregister
      { s.waiter t with point := .relock s.slave.highestSeqNo } rfl rfl (.inr hlock) (.inl rfl)
      (fun _ => rfl) le_rfl
    refine hs.unregister hm rfl rfl ?_ (hm.responsible_queue hs (fun _ => id) (by simp) ?_)
    · rw [set_waiter_self]
      change Waiter.Ok _ _ (t ∈ s.queue) (none = some t)
      constructor <;> simp [hdone, hqueue]
      exact le_rfl
    · exact fun n => hm.responsible fun _ _ => ⟨t, by simp [hsmall]⟩
  · have hm : Moves s _ t := .of_set { s.register t with condWaitGtid := [t] }
      { s.waiter t with point := .smallWait } rfl rfl (.inr hlock) (.inl rfl) (fun _ => rfl) le_rfl
    refine hs.register hm rfl rfl ?_ ?_ (hm.responsible_queue hs (fun _ => id) (by simp) ?_)
    · rw [set_waiter_self]
      exact ⟨rfl, hdone, rfl, hlt⟩
    · rw [set_waiter_self]
      change Waiter.Ok _ _ (t ∈ s.queue) (none = some t)
      constructor <;> simp [hdone, hqueue, hsmall]
      rfl
    · exact fun n => hm.responsible fun _ _ => ⟨t, by simp [hsmall]⟩

lemma Inv.small {malloc : Bool} (hpoint : (s.waiter t).point = .loop)
    (hsmall : (s.waiter t).doSmallWait) (h : s.small t malloc woken = some s') : s'.Inv := by
  obtain ⟨hlock, hdone, hqueue⟩ := hs.at_loop hpoint
  unfold GtidWaiting.small at h
  cases he : s.slave.getElement malloc with
  | none =>
    simp only [he] at h
    obtain rfl := some.inj h
    refine hs.move rfl rfl rfl (.refl _) (.inr hlock) (.inr hlock) (by simp [hpoint]) rfl ?_
      (.inl (by simp [hsmall]))
    constructor <;> simp [hqueue, hlock, hdone]
  | some e =>
    obtain rfl := SlaveState.getElement_eq_some he
    simp only [he] at h
    split at h
    next hge =>
      obtain rfl := some.inj h
      refine hs.move rfl rfl rfl s.slave.same_element (.inr hlock) (.inr hlock) (by simp [hpoint])
        rfl ?_ (.inl (by simp [hsmall]))
      constructor <;> simp [hqueue, hlock, hdone, SlaveState.highestSeqNo]
    next hlt =>
    split at h
    next hother =>
      obtain rfl := some.inj h
      obtain ⟨r, hr⟩ := isSome_iff_exists.mp hother.1
      refine hs.move rfl rfl rfl s.slave.same_element (.inr hlock) (.inr hlock) (by simp [hpoint])
        rfl ?_ (.inr ⟨r, hr, hother.2⟩)
      constructor <;> simp [hqueue, hlock, hdone, SlaveState.highestSeqNo]
    next =>
      exact (hs.of_same s.slave.same_element).beginSmallWait hpoint hsmall (not_le.mp hlt) h

lemma Inv.large (hpoint : (s.waiter t).point = .loop)
    (hsmall : (s.waiter t).doSmallWait = false) : (s.large t).Inv := by
  obtain ⟨hlock, hdone, hqueue⟩ := hs.at_loop hpoint
  simp only [GtidWaiting.large]
  split
  · refine hs.move rfl rfl rfl (.refl _) (.inr hlock) (.inr hlock) (by simp [hpoint]) rfl ?_
      (.inl (by simp [hsmall]))
    constructor <;> simp [hqueue, hlock, hdone]
  · refine hs.move rfl rfl rfl (.refl _) (.inr hlock) (.inl rfl) (by simp [hpoint]) rfl ?_
      (.inl (by simp [hsmall]))
    constructor <;> simp [hqueue, hdone, hsmall]

lemma Inv.unblock (hreg : s.slave.gtidWaiter ≠ some t)
    (hwait : w.waitSeqNo = (s.waiter t).waitSeqNo)
    (hok : w.Ok s.slave (t ∈ s.queue) (s.lock = some t))
    (hresp : ∀ n, Moves s ((s.unblock t).set t w) t → s.Responsible n →
      ((s.unblock t).set t w).Responsible n) : ((s.unblock t).set t w).Inv := by
  have hm : Moves s ((s.unblock t).set t w) t :=
    ⟨fun _ h => set_waiter_of_ne h, fun _ _ => Iff.rfl, fun _ _ => Iff.rfl, id, le_rfl⟩
  refine hm.inv hs (.refl _) (fun t' ht' => mem_of_mem_filter ht') hreg ?_ ?_
  · rw [set_waiter_self]
    exact hok
  · exact hm.responsible_queue hs (fun _ => id) (by simpa using hwait) (hresp · hm)

/-- The end of the small wait. The thread drops the responsibility only if another one is
registered that waits for a sequence number no later than its own. -/
lemma Inv.endSmallWait (hpoint : (s.waiter t).point = .smallWait)
    (hwait : w.waitSeqNo = (s.waiter t).waitSeqNo) (hdone : w.done = (s.waiter t).done)
    (hsmall : w.doSmallWait) : (s.endSmallWait t w).Inv := by
  have hok := hs.waiter t
  have hlock : s.lock ≠ some t := by simp [hok.lock, hpoint]
  have hqueue : t ∈ s.queue ↔ w.done = false := by simp [hok.queue, hpoint, hdone]
  have hokw : ∀ small, Waiter.Ok
      { w with point := .relock s.slave.highestSeqNo, doSmallWait := small }
      s.slave (t ∈ s.queue) (s.lock = some t) := by
    intro small
    constructor <;> simp [hqueue, hlock]
  unfold GtidWaiting.endSmallWait
  dsimp only
  split_ifs with hreg hother
  · have hm : Moves s ((s.unblock t).unregister.set t
        { w with point := .relock s.slave.highestSeqNo }) t :=
      ⟨fun _ h => set_waiter_of_ne h, fun _ _ => Iff.rfl, fun _ _ => Iff.rfl, fun _ => rfl, le_rfl⟩
    refine hs.unregister hm rfl (hs.condWaitGtid_filter hreg) ?_ ?_
    · rw [set_waiter_self]
      exact (hokw w.doSmallWait).frame Iff.rfl Iff.rfl (fun _ => rfl) le_rfl
    · refine hm.responsible_queue hs (fun _ => id) (by simpa using hwait) fun n => ?_
      exact hm.responsible fun _ _ => ⟨t, by simp [hsmall, hwait]⟩
  · obtain ⟨r, hr⟩ := isSome_iff_exists.mp hother.1
    have hrr := hs.registered r hr
    refine hs.unblock hreg hwait (hokw false) fun n hm => ?_
    have hne : r ≠ t := fun heq => hreg (heq ▸ hr)
    refine hm.responsible_of_registered hne hrr.point ((hs.waiter r).smallWait hrr.point).1 ?_
    rw [← hrr.min, ← hwait]
    exact hother.2
  · refine hs.unblock hreg hwait (hokw w.doSmallWait) fun n hm => ?_
    exact hm.responsible fun _ _ => ⟨t, by simp [hsmall, hwait]⟩

lemma Inv.wakeSmall (hpoint : (s.waiter t).point = .smallWait) : (s.wakeSmall t why).Inv := by
  have hsmall := ((hs.waiter t).smallWait hpoint).1
  simp only [GtidWaiting.wakeSmall]
  split
  · exact hs.endSmallWait hpoint rfl rfl hsmall
  split
  next hstay =>
    split
    · exact hs
    · refine ⟨hs.waiter, fun t' ht' => ?_, hs.registered, hs.responsible⟩
      rcases mem_cons.mp ht' with rfl | ht'
      · exact hstay.1
      · exact hs.blocked t' ht'
  · exact hs.endSmallWait hpoint rfl rfl hsmall

lemma Inv.wakeLarge (hpoint : (s.waiter t).point = .largeWait)
    (hlock : s.lock = none) : (s.wakeLarge t why).Inv := by
  have hok := hs.waiter t
  have hqueue : t ∈ s.queue ↔ (s.waiter t).done = false := by simp [hok.queue, hpoint]
  simp only [GtidWaiting.wakeLarge]
  set w := (if why = .timeout then
    ({ s.waiter t with signalled := false, timedOut := true } : Waiter)
    else { s.waiter t with signalled := false }) with hw
  have hsame : w.waitSeqNo = (s.waiter t).waitSeqNo ∧ w.doSmallWait = (s.waiter t).doSmallWait ∧
      w.done = (s.waiter t).done ∧ w.point = .largeWait := by
    rw [hw]
    split <;> simp [hpoint]
  obtain ⟨hwait, hsmall, hdone, hpointw⟩ := hsame
  split
  next =>
    refine hs.move rfl rfl rfl (.refl _) (.inl hlock) (.inr rfl) (by simp [hpoint]) hwait ?_
      (.inl fun h => by simp [hsmall, h])
    constructor <;> simp [hqueue, hdone]
  next hstay =>
    refine hs.move rfl rfl rfl (.refl _) (.inl hlock) (.inl hlock) (by simp [hpoint]) hwait ?_
      (.inl fun h => by simp [hsmall, h, hpointw])
    constructor <;> simp_all

lemma Inv.relock (hpoint : (s.waiter t).point = .relock n) (hlock : s.lock = none) :
    ({ s with lock := some t }.set t { s.waiter t with point := .process n }).Inv := by
  have hok := hs.waiter t
  refine hs.move rfl rfl rfl (.refl _) (.inl hlock) (.inr rfl) (by simp [hpoint]) rfl ?_
    (.inl (by simp))
  have hn := hok.wakeup n (.inl hpoint)
  constructor <;> simp [hok.queue, hpoint, hn]

lemma Inv.processWaitHash (hn : n ≤ s.slave.highestSeqNo)
    (hpoint : (s.waiter t).point = .process n) : (s.processWaitHash n).Inv := by
  have hlock : s.lock = some t := (hs.waiter t).lock.mpr (by simp [hpoint])
  -- a thread is taken off the queue or is left as it is
  have hcases : ∀ t', (t' ∈ s.queue ∧ (s.waiter t').waitSeqNo ≤ n ∧
        (s.processWaitHash n).waiter t' = ({ s.waiter t' with done := true } : Waiter).wakeupReady ∧
        t' ∉ (s.processWaitHash n).queue) ∨
      ((s.processWaitHash n).waiter t' = s.waiter t' ∧
        (t' ∈ (s.processWaitHash n).queue ↔ t' ∈ s.queue)) := by
    intro t'
    by_cases h : t' ∈ s.queue ∧ (s.waiter t').waitSeqNo ≤ n
    · exact .inl ⟨h.1, h.2, if_pos h, by simp [GtidWaiting.processWaitHash, h.2]⟩
    · refine .inr ⟨if_neg h, ?_⟩
      simp only [GtidWaiting.processWaitHash, mem_filter, decide_eq_true_eq]
      exact ⟨And.left, fun h' => ⟨h', fun hle => h ⟨h', hle⟩⟩⟩
  have hsame : ∀ t', ((s.processWaitHash n).waiter t').point = (s.waiter t').point ∧
      ((s.processWaitHash n).waiter t').doSmallWait = (s.waiter t').doSmallWait ∧
      ((s.processWaitHash n).waiter t').waitSeqNo = (s.waiter t').waitSeqNo := by
    intro t'
    rcases hcases t' with ⟨-, -, h, -⟩ | ⟨h, -⟩ <;> simp [h]
  refine ⟨fun t' => ?_, hs.blocked, fun t' ht' => ?_, fun q hq => ?_⟩
  · have hok := hs.waiter t'
    rcases hcases t' with ⟨hmem, -, h, hnot⟩ | ⟨h, hqueue⟩
    · obtain ⟨hlive, hdone⟩ := hok.queue.mp hmem
      rw [h]
      change Waiter.Ok _ s.slave _ (s.lock = some t')
      refine ⟨by simp [hnot], by simpa using hok.lock, fun hpt => ?_, by simpa using hok.smallWait,
        by simpa using hok.wakeup, fun hlarge => .inl (Waiter.wakeupReady_signalled _ ?_)⟩
      · -- only the owner of the lock could be at such a point, and it is at another one
        obtain rfl | hne := eq_or_ne t' t
        · simp [hpoint] at hpt
        · have hunlocked : (s.waiter t').point.locked = false := by
            rw [← Bool.not_eq_true, ← hok.lock, hlock]
            simpa using hne.symm
          rcases hpt with hpt | hpt | hpt <;>
            simp_all
      · simpa using hlarge
    · rw [h]
      exact hok.frame hqueue Iff.rfl id le_rfl
  · have hreg := hs.registered t' ht'
    rcases hcases t' with ⟨-, hle, -⟩ | ⟨h, -⟩
    · have := hreg.highest
      omega
    · rw [h]
      exact hreg
  · obtain ⟨x, hlive, hsmall, hle⟩ := hs.responsible q (mem_of_mem_filter hq)
    refine ⟨x, ?_⟩
    rw [(hsame x).1, (hsame x).2.1, (hsame x).2.2, (hsame q).2.2]
    exact ⟨hlive, hsmall, hle⟩

lemma Inv.process (hpoint : (s.waiter t).point = .process n) : ((s.processWaitHash n).set t
      { (s.processWaitHash n).waiter t with point := .check }).Inv := by
  have hs₁ := hs.processWaitHash ((hs.waiter t).wakeup n (.inr hpoint)) hpoint
  have hpoint₁ : ((s.processWaitHash n).waiter t).point = .process n := by
    simp only [GtidWaiting.processWaitHash]
    split <;> simp [hpoint]
  have hok := hs₁.waiter t
  have hlock := hok.lock.mpr (by simp [hpoint₁])
  refine hs₁.move rfl rfl rfl (.refl _) (.inr hlock) (.inr hlock) (by simp [hpoint₁]) rfl ?_
    (.inl (by simp))
  constructor <;> simp [hok.queue, hpoint₁, hlock]

end

/-- A thread with `LOCK_gtid_waiting` is about to return. Nothing is said about its own
variables. -/
structure Leaving (s : GtidWaiting ρ τ) (t : τ) : Prop where
  other : ∀ t' ≠ t, (s.waiter t').Ok s.slave (t' ∈ s.queue) (s.lock = some t')
  queue : t ∉ s.queue
  lock : s.lock = some t
  blocked : ∀ t' ∈ s.condWaitGtid, s.slave.gtidWaiter = some t'
  free : s.slave.gtidWaiter ≠ some t
  registered : ∀ t', s.slave.gtidWaiter = some t' → (s.waiter t').Registered s.slave

def Responsible.Passed (s : GtidWaiting ρ τ) (t : τ) : Prop :=
  ∀ q ∈ s.queue, ∃ x ≠ t, (s.waiter x).point.live ∧ (s.waiter x).doSmallWait ∧
    (s.waiter x).waitSeqNo ≤ (s.waiter q).waitSeqNo

omit [DecidableEq τ] in
lemma Inv.leaving (hs : s.Inv) (hlocked : (s.waiter t).point.locked) {queue : List τ}
    (hqueue : t ∉ queue) (hother : ∀ t' ≠ t, t' ∈ queue ↔ t' ∈ s.queue) :
    Leaving { s with queue := queue } t where
  __ := hs
  other t' h := (hs.waiter t').frame (hother t' h) Iff.rfl id le_rfl
  queue := hqueue
  lock := (hs.waiter t).lock.mpr hlocked
  free := hs.not_registered fun h => by simp [h] at hlocked

lemma Leaving.set (h : Leaving s t) (w : Waiter) : Leaving (s.set t w) t where
  __ := h
  other t' ht' := by
    rw [set_waiter_of_ne ht']
    exact h.other t' ht'
  registered t' ht' := by
    have hne : t' ≠ t := fun heq => h.free (heq ▸ ht')
    rw [set_waiter_of_ne hne]
    exact h.registered t' ht'

lemma Leaving.promoteNewWaiter (h : Leaving s t)
    (hp : s.promoteNewWaiter top = some s') : Leaving s' t ∧ Responsible.Passed s' t := by
  unfold GtidWaiting.promoteNewWaiter at hp
  split at hp
  next hnil =>
    obtain rfl := some.inj hp
    exact ⟨h, by simp [Responsible.Passed, hnil]⟩
  next =>
    obtain ⟨htop, heq⟩ := ite_none_right_eq_some.mp hp
    obtain rfl := some.inj heq
    set w := ({ s.waiter top with doSmallWait := true } : Waiter).wakeupReady with hw
    have hne : top ≠ t := fun heq => h.queue (heq ▸ htop.1)
    have hok := h.other top hne
    refine ⟨⟨fun t' ht' => ?_, h.queue, h.lock, h.blocked, h.free, fun t' ht' => ?_⟩,
      fun q hq => ?_⟩
    · by_cases heq : t' = top
      · subst heq
        rw [set_waiter_self]
        exact hok.wakeupReady rfl rfl fun _ => rfl
      · rw [set_waiter_of_ne heq]
        exact h.other t' ht'
    · have hreg := h.registered t' ht'
      by_cases heq : t' = top
      · subst heq
        rw [set_waiter_self]
        exact hreg.wakeupReady rfl rfl rfl
      · rw [set_waiter_of_ne heq]
        exact hreg
    · refine ⟨top, hne, ?_⟩
      have hwait : ((s.set top w).waiter q).waitSeqNo = (s.waiter q).waitSeqNo := by
        by_cases heq : q = top
        · subst heq
          simp [hw]
        · rw [set_waiter_of_ne heq]
      rw [set_waiter_self, hwait]
      exact ⟨by simpa [hw] using (hok.queue.mp htop.1).1, by simp [hw],
        by simpa [hw] using htop.2 q hq⟩

lemma Leaving.leave (h : Leaving s t) (hp : Responsible.Passed s t) (res : Int) :
    Inv ({ s with lock := none }.leave t res) := by
  unfold GtidWaiting.leave
  refine ⟨fun t' => ?_, h.blocked, fun t' ht' => ?_, fun q hq => ?_⟩
  · by_cases heq : t' = t
    · subst heq
      rw [set_waiter_self]
      change Waiter.Ok _ s.slave (t' ∈ s.queue) (none = some t')
      constructor <;> simp [h.queue]
    · rw [set_waiter_of_ne heq]
      refine (h.other t' heq).frame Iff.rfl ?_ id le_rfl
      exact lock_iff_of_ne heq (.inr h.lock) (.inl rfl)
  · have hne : t' ≠ t := fun heq => h.free (heq ▸ ht')
    rw [set_waiter_of_ne hne]
    exact h.registered t' ht'
  · obtain ⟨x, hne, hx⟩ := hp q hq
    have hqt : q ≠ t := fun heq => h.queue (heq ▸ hq)
    refine ⟨x, ?_⟩
    rw [set_waiter_of_ne hne, set_waiter_of_ne hqt]
    exact hx

lemma Inv.fail (hs : s.Inv) (hpoint : (s.waiter t).point = .outOfMemory)
    (h : s.fail t top = some s') : s'.Inv := by
  obtain ⟨s₁, h₁, rfl⟩ := map_eq_some_iff.mp h
  have hl : Leaving (s.removeFromWaitQueue t) t :=
    hs.leaving (by simp [hpoint]) (by simp) (by simp +contextual)
  obtain ⟨hl₁, hp⟩ := hl.promoteNewWaiter h₁
  exact hl₁.leave hp 1

omit [DecidableEq τ] in
/-- A thread without `do_small_wait` has nothing to pass on. -/
lemma Inv.passed (hs : s.Inv) (h : (s.waiter t).doSmallWait = false) : Responsible.Passed s t := by
  intro q hq
  obtain ⟨x, hlive, hsmall, hle⟩ := hs.responsible q hq
  exact ⟨x, fun heq => by simp [heq, h] at hsmall, hlive, hsmall, hle⟩

lemma Inv.check (hs : s.Inv) (hpoint : (s.waiter t).point = .check)
    (h : s.check t top = some s') : s'.Inv := by
  have hok := hs.waiter t
  have hlocked : (s.waiter t).point.locked := by simp [hpoint]
  have hlock : s.lock = some t := hok.lock.mpr hlocked
  have hexit : ∀ (s₁ : GtidWaiting ρ τ) res, Leaving s₁ t →
      ((s.waiter t).doSmallWait = false → Responsible.Passed s₁ t) →
      ((if (s.waiter t).doSmallWait then s₁.promoteNewWaiter top else some s₁).map fun s =>
        { s with lock := none }.leave t res) = some s' → s'.Inv := by
    intro s₁ res hl hpassed h
    obtain ⟨s₂, h₂, rfl⟩ := map_eq_some_iff.mp h
    split at h₂
    next =>
      obtain ⟨hl₂, hp⟩ := hl.promoteNewWaiter h₂
      exact hl₂.leave hp res
    next hsmall =>
      obtain rfl := some.inj h₂
      exact hl.leave (hpassed (by simpa using hsmall)) res
  unfold GtidWaiting.check at h
  by_cases habort : ((s.waiter t).killed ∨ (s.waiter t).timedOut) ∧ ¬ (s.waiter t).done
  · simp only [if_pos habort, set_waiter_self, if_true] at h
    refine hexit _ _ ((hs.leaving hlocked (by simp) (by simp +contextual)).set _)
      (fun hsmall => ?_) h
    intro q hq
    obtain ⟨x, hne, hx⟩ := hs.passed hsmall q (mem_of_mem_filter hq)
    refine ⟨x, hne, ?_⟩
    have hqt : q ≠ t := by simpa using (mem_filter.mp hq).2
    rw [set_waiter_of_ne hne, set_waiter_of_ne hqt]
    exact hx
  · simp only [if_neg habort] at h
    split at h
    next hdone =>
      refine hexit s _ (hs.leaving hlocked ?_ fun _ _ => Iff.rfl) hs.passed h
      simp [hok.queue, hdone]
    next hdone =>
      obtain rfl := some.inj h
      refine hs.move rfl rfl rfl (.refl _) (.inr hlock) (.inr hlock) (by simp [hpoint]) rfl ?_
        (.inl (by simp))
      constructor <;> simp_all [hok.queue]

lemma Inv.kill (hs : s.Inv) : ((s.unblock t).set t
    ({ s.waiter t with killed := true } : Waiter).wakeupReady).Inv := by
  set w := ({ s.waiter t with killed := true } : Waiter).wakeupReady with hw
  have hm : Moves s ((s.unblock t).set t w) t :=
    ⟨fun _ h => set_waiter_of_ne h, fun _ _ => Iff.rfl, fun _ _ => Iff.rfl, id, le_rfl⟩
  refine ⟨hm.waiter hs ?_, fun t' ht' => hs.blocked t' (mem_of_mem_filter ht'),
    fun t' ht' => ?_, ?_⟩
  · rw [set_waiter_self]
    exact (hs.waiter t).wakeupReady rfl rfl id
  · have hreg := hs.registered t' ht'
    by_cases heq : t' = t
    · subst heq
      rw [set_waiter_self]
      exact hreg.wakeupReady rfl rfl rfl
    · rw [set_waiter_of_ne heq]
      exact hreg
  · refine hm.responsible_queue hs (fun _ => id) (by simp [hw]) fun n => ?_
    exact hm.responsible fun hlive hsmall => ⟨t, by simp [hw, hlive, hsmall, -WaitPoint.live]⟩

omit [DecidableEq τ] in
lemma Inv.update (hs : s.Inv) (malloc : Malloc) (l : ListElement)
    (duplicate : Option DuplicateState) : (s.update malloc l duplicate).Inv := by
  unfold GtidWaiting.update
  cases he : s.slave.getElement malloc.elem with
  | none =>
    simp only [SlaveState.updateNolock_of_getElement_none he]
    exact hs
  | some e =>
    obtain ⟨helem, hhigh, hmin, hwaiter⟩ :=
      SlaveState.updateNolock_waiter (l := l) (d := duplicate) he
    set u := s.slave.updateNolock malloc l duplicate
    refine ⟨fun t => (hs.waiter t).frame Iff.rfl Iff.rfl (fun _ => helem) (by simp [hhigh]), ?_, ?_,
      hs.responsible⟩
    · rcases hwaiter with ⟨hsignal, -⟩ | ⟨hsignal, hsame, -⟩
      · simp [hsignal]
      · simp only [if_neg hsignal, hsame]
        exact hs.blocked
    · intro t ht
      rcases hwaiter with ⟨-, hnone⟩ | ⟨-, hsame, hlt⟩
      · simp [hnone] at ht
      · have ht' : s.slave.gtidWaiter = some t := hsame ▸ ht
        have hreg := hs.registered t ht'
        refine ⟨hreg.point, hreg.done, hmin.trans hreg.min, ?_⟩
        have hlt' := hlt (by simp [ht'])
        rw [hreg.min] at hlt'
        rw [hhigh]
        exact max_lt hreg.highest hlt'

omit [DecidableEq τ] in
lemma Inv.init (batch : Nat) : (GtidWaiting.init batch : GtidWaiting ρ τ).Inv := by
  refine ⟨fun t => ?_, by simp [GtidWaiting.init], fun t ht => ?_, by simp [GtidWaiting.init]⟩
  · constructor <;> simp [GtidWaiting.init]
  · simp [GtidWaiting.init, SlaveState.init, SlaveState.gtidWaiter, SlaveState.element,
      Element.init] at ht

end GtidWaiting

end MariaDB.Rpl
