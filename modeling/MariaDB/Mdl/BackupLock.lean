import MariaDB.Mdl.QueueSteps

/-!
# Fast lanes and the conventional lock agree

The invariant holds in every state that the sessions reach, whatever the interleaving of
their sections.
-/
namespace MariaDB.Mdl

open Function Library List Lock

variable {n : Nat} {ι κ T : Type*} [DecidableEq T]

namespace Backup.Inv

variable {st : Strategy T} {env : Env κ} {road : Road n κ T} {s : Backup n ι κ T}
  {t u : Ticket ι κ T} {d : κ} {i : Fin n}

lemma two_le_closers (ht : t ∈ s.lock.queued) (hu : u ∈ s.lock.queued) (hid : u.id ≠ t.id)
    (htclass : t.type ∉ road.supportedTypes) (huclass : u.type ∉ road.supportedTypes) :
    2 ≤ s.closers road := by
  obtain ⟨l₁, l₂, heq⟩ := append_of_mem ht
  have hu' : u ∈ l₁ ++ l₂ := by
    rw [heq, mem_append, mem_cons] at hu
    rcases hu with hu | rfl | hu
    · exact mem_append_left _ hu
    · exact absurd rfl hid
    · exact mem_append_right _ hu
  have hperm : s.lock.queued.Perm (t :: (l₁ ++ l₂)) := heq ▸ perm_middle
  have hpos : 0 < (l₁ ++ l₂).countP (·.type ∉ road.supportedTypes) :=
    countP_pos_iff.mpr ⟨u, hu', by simpa using huclass⟩
  rw [closers, hperm.countP_eq, countP_cons, if_pos (by simpa using htclass)]
  omega

/-- A registered request that closes the lanes keeps all of them closed. Only `upgrade`
reopens a lane too early, and then two tickets keep it closed. -/
lemma closeCount_pos (h : s.Inv road) (ht : t ∈ s.lock.queued)
    (hclass : t.type ∉ road.supportedTypes) (i : Fin n) : 0 < (s.lanes i).closeCount := by
  have hcount := h.count i
  have hpos : 0 < s.closers road := countP_pos_iff.mpr ⟨t, ht, by simpa using hclass⟩
  unfold pending at hcount
  split at hcount
  · omega
  · split_ifs at hcount <;> omega
  · split_ifs at hcount <;> omega
  · next c v type w k hrw =>
    obtain ⟨-, ⟨hv, hvl⟩, ⟨hw, hwl⟩, hid, hvc, hwc, -⟩ := h.rwlock c _ hrw
    have htwo : 2 ≤ s.closers road :=
      two_le_closers (mem_queued.mpr (.inl (h.mem_granted hv.1 hvl)))
        (mem_queued.mpr (.inl (h.mem_granted hw.1 hwl))) hid hvc hwc
    split_ifs at hcount <;> omega
  · omega

lemma pcOk (h : s.Inv road) (hpc : s.pc d = p) : s.PcOk road d p := hpc ▸ h.pc d

variable [DecidableEq ι] [DecidableEq κ]

attribute [local simp] pending

/-- The end of `try_acquire_lock`. -/
lemma acquire (h : s.Inv road) (hd : ∀ v, s.pc t.ctx ≠ .waits v) (hnew : s.New t)
    (hslot : wait = true → s.slot t.ctx = .empty) (hrw : ∀ c p, s.rwlock = some (c, p) → c = t.ctx)
    (hpending : ∀ i, s.pending i = if t.type ∈ road.supportedTypes then 0 else 1) :
    (s.acquire st env road t wait).Inv road := by
  have hgiveUp : Inv road (if t.type ∈ road.supportedTypes then (s.delete t).leave t.ctx .idle
      else (s.delete t).enter t.ctx (.reopen 0)) := by
    split_ifs with hclass
    · refine h.discard (.inl ⟨rfl, rfl⟩) hd hnew fun i => ?_
      rw [hpending, if_pos hclass]
      rfl
    · refine h.discard (.inr ⟨rfl, rfl⟩) hd hnew fun i => ?_
      rw [hpending, if_neg hclass]
      simp
  unfold Backup.acquire
  rcases tryAcquireLock_cases st env s.lock t wait with
    ⟨l, heq, hg, hw⟩ | ⟨l, heq, hwait, hg, hw⟩ | heq | heq
  · simp only [heq]
    have hqueued : l.queued.Perm (t :: s.lock.queued) := by
      rw [Lock.queued, hg, hw, append_assoc]
      exact perm_middle
    have hmem : t ∈ l.granted.list := by simp [hg]
    refine h.enqueue hd hnew hrw hpending hqueued ?_ ?_ (.inl ⟨rfl, hmem⟩) ?_ trivial
    · exact fun u hu => hg ▸ mem_append_left _ hu
    · exact fun u hu => hw ▸ hu
    · exact fun u hu => .inl (hw ▸ hu)
  · simp only [heq]
    have hqueued : l.queued.Perm (t :: s.lock.queued) := by
      rw [Lock.queued, hg]
      exact (hw.append_left _).trans perm_middle
    refine h.enqueue hd hnew hrw hpending hqueued ?_ ?_ (.inr rfl) ?_ ⟨rfl, .inr ⟨?_, ?_⟩⟩
    · exact fun u hu => hg ▸ hu
    · exact fun u hu => hw.mem_iff.mpr (mem_cons_of_mem _ hu)
    · intro u hu
      rcases mem_cons.mp (hw.mem_iff.mp hu) with rfl | hu
      · exact .inr ⟨rfl, rfl⟩
      · exact .inl hu
    · show s.slot t.ctx ≠ _
      simp [hslot hwait]
    · exact hw.mem_iff.mpr mem_cons_self
  · simp only [heq]
    exact hgiveUp
  · simp only [heq]
    exact hgiveUp

/-- `remove_ticket` up to the lanes. -/
lemma removeTicket (h : s.Inv road) (hrw : s.rwlock = none) (ht : t ∈ s.lock.queued)
    (hd : ∀ v, s.pc t.ctx = .waits v → v = t) (which : Lock.Which) :
    (s.removeTicket st env road which t).Inv road := by
  have hperm : (t :: (s.lock.dequeue which t).queued).Perm s.lock.queued := by
    rw [queued_dequeue]
    exact perm_cons_filter_id h.nodup_queued ht
  have hgranted (u) : u ∈ (s.lock.dequeue which t).granted.list ↔
      u ∈ s.lock.granted.list ∧ u.id ≠ t.id := mem_dequeue_granted
  have hwaiting (u) : u ∈ (s.lock.dequeue which t).waiting.list ↔
      u ∈ s.lock.waiting.list ∧ u.id ≠ t.id := mem_dequeue_waiting
  have hr : Lock.Rescheduled (s.lock.dequeue which t, s.slot)
      (s.lock.removeTicket st env s.slot which t) :=
    removeTicket_rescheduled h.nodup_queued which
  unfold Backup.removeTicket
  dsimp only
  split_ifs with hclass
  · refine (h.takeOut (.inl ⟨rfl, rfl⟩) ht hperm hgranted hwaiting hd fun i => ?_).reschedule hr
    simp [hrw, hclass]
  · refine (h.takeOut (.inr ⟨rfl, rfl⟩) ht hperm hgranted hwaiting hd fun i => ?_).reschedule hr
    simp [hrw, hclass]

/-- The end of `upgrade`, when no other ticket is left to remove. -/
lemma finishUpgrade_none (h : s.Inv road) (hd : ∀ v, s.pc t.ctx ≠ .waits v)
    (hpending : ∀ i, s.pending i = 0) (ht : t ∈ s.held) (hlane : s.fastLane t.id = none)
    (hclass : SameClass road t.type type) : (s.finishUpgrade t type none).Inv road := by
  have hidle : Inv road { s with pc := update s.pc t.ctx .idle, rwlock := none } :=
    h.control (h.waiting_ctx_ne hd) (fun i => (hpending i).symm) trivial nofun nofun
  exact hidle.changeType (d := t.ctx) (update_self _ _ _) ⟨ht, rfl⟩ hlane hclass

/-- The end of `upgrade`, when the other ticket is still in `m_granted`. -/
lemma finishUpgrade_some (h : s.Inv road) (hd : ∀ v, s.pc t.ctx ≠ .waits v)
    (hpending : ∀ i, s.pending i = if u.type ∈ road.supportedTypes then 0 else -1) (ht : t ∈ s.held)
    (hlane : s.fastLane t.id = none) (hu : u ∈ s.held) (hulane : s.fastLane u.id = none)
    (hctx : u.ctx = t.ctx) (hid : u.id ≠ t.id) (hclass : SameClass road t.type type) :
    (s.finishUpgrade t type (some u)).Inv road := by
  have hug := h.mem_granted hu hulane
  have hnodup := h.nodup_queued
  rw [Lock.queued, map_append, nodup_append] at hnodup
  have hout : Inv road { s.delete u with
      lock := { s.lock with granted := s.lock.granted.removeTicket u }
      pc := update s.pc u.ctx .idle
      rwlock := none } := by
    refine h.takeOut (.inl ⟨rfl, rfl⟩) (mem_queued.mpr (.inl hug)) ?_
      (fun v => TicketList.mem_removeTicket) (fun v => ?_) (fun v hv => ?_) fun i => ?_
    · exact (perm_cons_filter_id hnodup.1 hug).append_right _
    · refine ⟨fun hv => ⟨hv, fun hidv => ?_⟩, fun hv => hv.1⟩
      exact hnodup.2.2 _ (mem_map.mpr ⟨u, hug, rfl⟩) _ (mem_map.mpr ⟨v, hv, rfl⟩) hidv.symm
    · exact absurd (hctx ▸ hv) (hd v)
    · rw [hpending i]
      split_ifs <;> rfl
  rw [hctx] at hout
  refine hout.changeType (d := t.ctx) (update_self _ _ _) ⟨?_, rfl⟩ hlane hclass
  exact mem_filter.mpr ⟨ht, by simpa using hid.symm⟩

lemma nextLane (h : s.Inv road) (hrw : s.rwlock = some (d, p)) :
    (s.nextLane st env road d p).Inv road := by
  obtain ⟨hpc, hphase⟩ := h.rwlock d p hrw
  have hd (v) : s.pc d ≠ .waits v := by simp [hpc]
  cases p with
  | close =>
    obtain ⟨rfl, hnew, hclass, hslot⟩ := hphase
    simp only [Backup.nextLane]
    split_ifs with hk
    · exact h.closeLane hrw hk
    · refine h.acquire hd hnew hslot (fun c q hq => ?_) fun i => ?_
      · rw [hrw] at hq
        exact (Prod.mk.inj (Option.some.inj hq)).1.symm
      · rw [if_neg hclass]
        simp only [pending, hrw]
        exact if_pos (by omega)
  | reopen k =>
    simp only [Backup.nextLane]
    split_ifs with hk
    · have hcount := h.count ⟨k, hk⟩
      simp only [pending, hrw, le_refl, if_true] at hcount
      refine h.reopenLane hk hrw (by omega) trivial ?_ fun j hj => ?_
      · simp [hrw]
      · have hne : (j : Nat) ≠ k := fun he => hj (Fin.ext he)
        simp only [pending, hrw]
        split_ifs <;> omega
    · refine h.control (h.waiting_ctx_ne hd) (fun j => ?_) trivial (by simp) (by simp)
      simp only [pending, hrw]
      rw [if_neg (by omega)]
  | upgrade t type u k =>
    obtain ⟨⟨ht, htl⟩, ⟨hu, hul⟩, hid, htclass, huclass, hclass⟩ := hphase
    obtain rfl := ht.2
    simp only [Backup.nextLane]
    split_ifs with hk
    · have htq := mem_queued.mpr (.inl (h.mem_granted ht.1 htl))
      have hpos := h.closeCount_pos htq htclass ⟨k, hk⟩
      refine h.reopenLane hk hrw hpos
        ⟨⟨ht, htl⟩, ⟨hu, hul⟩, hid, htclass, huclass, hclass⟩ ?_ fun j hj => ?_
      · simp [hrw]
      · have hne : (j : Nat) ≠ k := fun he => hj (Fin.ext he)
        simp only [pending, hrw]
        split_ifs <;> omega
    · refine h.finishUpgrade_some hd (fun j => ?_) ht.1 htl hu.1 hul hu.2 hid hclass
      rw [if_neg huclass]
      simp only [pending, hrw]
      exact if_pos (by omega)
  | upgradeLane t =>
    obtain ⟨⟨ht, htl⟩, ⟨hu, hul⟩, hid, hclass⟩ := hphase
    obtain rfl := ht.2
    have hidle : Inv road { s with pc := update s.pc t.ctx .idle, rwlock := none } :=
      h.control (h.waiting_ctx_ne hd) (fun i => by simp [hrw]) trivial (by simp) (by simp)
    have hout := hidle.laneRelease (d := t.ctx) (update_self _ _ _) hu hul
    refine hout.changeType (d := t.ctx) (update_self _ _ _) ⟨?_, rfl⟩ htl hclass
    exact mem_filter.mpr ⟨ht.1, by simpa using hid.symm⟩

omit [DecidableEq ι] in
/-- A session locks `m_rwlock`. -/
lemma enter (h : s.Inv road) (hd : ∀ v, s.pc d ≠ .waits v) (hrw : s.rwlock = none)
    (hpending : ∀ i, pending { s with rwlock := some (d, p) } i = 0) (hp : s.PhaseOk road d p) :
    (s.enter d p).Inv road := by
  refine h.control (h.waiting_ctx_ne hd) (fun i => ?_) trivial (fun q hq => ?_) fun c q hc hq => ?_
  · rw [hpending]
    simp [hrw]
  · obtain rfl := (Prod.mk.inj (Option.some.inj hq)).2
    exact ⟨rfl, hp⟩
  · exact absurd (Prod.mk.inj (Option.some.inj hq)).1.symm hc

lemma step (h : s.Inv road) (hstep : s.step st road a = some s') : s'.Inv road := by
  revert hstep
  fun_cases Backup.step <;> intro hstep <;> cases hstep
  -- `tryAcquireLock`
  next hidle hfree _ _ hopen =>
    exact h.laneAdd hidle hfree.1 hopen.1 (by simpa [Lane.isOpen] using hopen.2)
  next hidle hfree _ _ _ => exact h.newTicket hidle hfree.1 hfree.2
  -- `lockToAcquire`
  next hrw hpc hclass =>
    obtain ⟨rfl, hnew, hslot⟩ := h.pcOk hpc
    refine h.acquire (by simp [hpc]) hnew hslot (fun c p hp => by simp [hrw] at hp) fun i => ?_
    simp [hrw, hclass]
  next hrw hpc hclass =>
    obtain ⟨rfl, hnew, hslot⟩ := h.pcOk hpc
    exact h.enter (by simp [hpc]) hrw (by simp) ⟨rfl, hnew, hclass, hslot⟩
  -- `nextLane`
  next hrw => exact h.nextLane hrw
  -- `release`
  next hidle ht _ hlane => exact h.setPc (by simp [hidle]) ⟨⟨ht, rfl⟩, .inl hlane⟩
  next hidle ht hlane => exact h.setPc (by simp [hidle]) ⟨⟨ht, rfl⟩, hlane⟩
  -- `laneRelease`
  next c _ _ _ hpc hsome _ =>
    have hok := h.pcOk hpc
    have hidle : (s.setPc c .idle).Inv road := h.setPc (by simp [hpc]) trivial
    exact hidle.laneRelease (d := c) (update_self _ _ _) hok.1
      (hok.2.resolve_right fun hlane => by simp [hlane] at hsome)
  next hpc hsome =>
    exact h.setPc (by simp [hpc]) ⟨(h.pcOk hpc).1, by simpa using hsome⟩
  -- `lockToRemove`
  next hrw hpc =>
    obtain ⟨⟨ht, rfl⟩, hlane⟩ := h.pcOk hpc
    exact h.removeTicket hrw (mem_queued.mpr (.inl (h.mem_granted ht hlane)))
      (by simp [hpc]) .granted
  -- `abortWait`
  next hrw hpc =>
    obtain ⟨rfl, hwaits⟩ := h.pcOk hpc
    refine h.removeTicket hrw (mem_queued.mpr (hwaits.imp (·.2) (·.2))) (fun v hv => ?_) .waiting
    rw [hpc] at hv
    exact (Pc.waits.inj hv).symm
  -- `endWait`
  next hpc hs => exact h.endWait hpc hs
  -- `changeType`
  next hidle ht _ hlane =>
    exact h.setPc (by simp [hidle]) ⟨⟨ht.1, rfl⟩, .inl hlane, ht.2⟩
  next downgrade _ hidle ht hlane =>
    refine h.setPc (by simp [hidle]) ?_
    cases downgrade with
    | false => trivial
    | true => exact ⟨⟨ht.1, rfl⟩, hlane, ht.2⟩
  -- `laneChangeType`
  next c _ _ _ _ _ hpc hsome _ =>
    have hok := h.pcOk hpc
    have hidle : (s.setPc c .idle).Inv road := h.setPc (by simp [hpc]) trivial
    exact hidle.laneChangeType (d := c) (update_self _ _ _) hok.1
      (hok.2.1.resolve_right fun hlane => by simp [hlane] at hsome) hok.2.2
  next downgrade hpc hsome =>
    have hok := h.pcOk hpc
    refine h.setPc (by simp [hpc]) ?_
    cases downgrade with
    | false => trivial
    | true => exact ⟨hok.1, by simpa using hsome, hok.2.2⟩
  -- `lockToDowngrade`
  next c _ _ _ hrw hpc _ =>
    obtain ⟨hown, hlane, hclass⟩ := h.pcOk hpc
    have hidle : Inv road { s with pc := update s.pc c .idle, rwlock := none } :=
      h.control (h.waiting_ctx_ne (by simp [hpc])) (fun i => by simp [hrw]) trivial nofun nofun
    have htype := hidle.changeType (d := c) (update_self _ _ _) hown hlane hclass
    exact htype.reschedule (rescheduleWaiters_rescheduled s.slot htype.nodup_queued)
  -- `upgrade`
  next hrw hidle _ hall =>
    obtain ⟨ht, hlane, hclass, -⟩ := hall
    exact h.finishUpgrade_none (by simp [hidle]) (fun i => by simp [hrw]) ht hlane hclass
  next hrw hidle u _ hulane _ hall =>
    obtain ⟨ht, hlane, hclass, hremove⟩ := hall
    obtain ⟨hu, huctx, huid, rfl⟩ := hremove u rfl
    exact h.enter (by simp [hidle]) hrw (by simp)
      ⟨⟨⟨ht, rfl⟩, hlane⟩, ⟨⟨hu, huctx⟩, hulane⟩, huid, hclass⟩
  next hrw hidle u hulane huclass _ hall =>
    obtain ⟨ht, hlane, hclass, hremove⟩ := hall
    obtain ⟨hu, huctx, huid, rfl⟩ := hremove u rfl
    refine h.finishUpgrade_some (by simp [hidle]) (fun i => ?_) ht hlane hu hulane huctx huid hclass
    simp [hrw, huclass]
  next hrw hidle u hulane huclass _ hall =>
    obtain ⟨ht, hlane, hclass, hremove⟩ := hall
    obtain ⟨hu, huctx, huid, rfl⟩ := hremove u rfl
    exact h.enter (by simp [hidle]) hrw (by simp) ⟨⟨⟨ht, rfl⟩, hlane⟩, ⟨⟨hu, huctx⟩, hulane⟩, huid,
      fun hc => huclass (hclass.mp hc), huclass, hclass⟩
  -- `setStatus` and `elsewhere`
  next t hpc hs => exact h.setSlot (.inr ⟨t, hpc, by simp [hs.1], hs.2.2⟩)
  next hidle => exact h.setSlot (.inl hidle)

end Backup.Inv

/-! ### The backup lock -/

def fastTypes : Finset BackupType :=
  {.dml, .transDml, .sysDml, .ddl, .alterCopy, .commit}

/-- The lanes of the backup lock; a session uses the lane that its thread id tells. -/
def backupRoad (laneOf : κ → Fin n) : Road n κ BackupType := ⟨fastTypes, laneOf⟩

lemma fastTypes_compatible :
    ∀ a ∈ fastTypes, ∀ b ∈ fastTypes, b ∉ backupLock.grantedIncompatible a := by
  decide

namespace Backup

def Granted (s : Backup n ι κ T) (t : Ticket ι κ T) : Prop :=
  t ∈ s.held ∨ s.pc t.ctx = .waits t ∧ s.slot t.ctx = .granted

namespace Inv

variable {road : Road n κ T} {s : Backup n ι κ T} {t : Ticket ι κ T} {i : Fin n}

lemma supported_of_mem_lane (h : s.Inv road) (ht : t ∈ (s.lanes i).list) :
    ∀ u ∈ s.lock.granted.list, u.type ∈ road.supportedTypes := by
  intro u hu
  by_contra hclass
  have hempty := (h.lane i).closed (h.closeCount_pos (mem_queued.mpr (.inl hu)) hclass i)
  simp [hempty] at ht

lemma granted_place (h : s.Inv road) (ht : s.Granted t) :
    (t ∈ s.lock.granted.list ∧ ∀ i, t ∉ (s.lanes i).list) ∨
    (t ∉ s.lock.granted.list ∧ ∃! i, t ∈ (s.lanes i).list) := by
  have hnone (hg : t ∈ s.lock.granted.list) (i) : t ∉ (s.lanes i).list := by
    intro hi
    have hq := (h.queued t (mem_queued.mpr (.inl hg))).1
    simp [((h.lane i).ticket t hi).2.1] at hq
  rcases ht with ht | ⟨hpc, hs⟩
  · cases hl : s.fastLane t.id with
    | none =>
      have hg := h.mem_granted ht hl
      exact .inl ⟨hg, hnone hg⟩
    | some i =>
      have hi := h.mem_lane ht hl
      refine .inr ⟨fun hg => hnone hg i hi, i, hi, fun j hj => ?_⟩
      exact Option.some.inj (((h.lane j).ticket t hj).2.1.symm.trans hl)
  · have hok := h.pc t.ctx
    rw [hpc] at hok
    rcases hok.2 with ⟨-, hg⟩ | ⟨hne, -⟩
    · exact .inl ⟨hg, hnone hg⟩
    · exact absurd hs hne

end Inv

variable [DecidableEq ι] [DecidableEq κ]

/-- Whatever the sessions did, a lane is closed as often as requests that close it are
registered, up to what the session that has `m_rwlock` is in the middle of, and a closed
lane is empty. A granted ticket is in one lane or in `m_granted`, and a ticket in a lane
is compatible with every granted ticket of another session. -/
theorem fastLanes_of_run {laneOf : κ → Fin n} {s : Backup n ι κ BackupType}
    {as : List (BackupAction ι κ BackupType)}
    (hrun : run (step backupLock (backupRoad laneOf)) init as = some s) :
    (∀ i, ((s.lanes i).closeCount : Int) = s.closers (backupRoad laneOf) + s.pending i) ∧
    (s.rwlock = none → ∀ i, (s.lanes i).closeCount = s.closers (backupRoad laneOf)) ∧
    (∀ i, 0 < (s.lanes i).closeCount → (s.lanes i).list = []) ∧
    (∀ t, s.Granted t → (t ∈ s.lock.granted.list ∧ ∀ i, t ∉ (s.lanes i).list) ∨
      (t ∉ s.lock.granted.list ∧ ∃! i, t ∈ (s.lanes i).list)) ∧
    ∀ i, ∀ t ∈ (s.lanes i).list, ∀ u, (u ∈ s.lock.granted.list ∨ ∃ j, u ∈ (s.lanes j).list) →
      u.ctx ≠ t.ctx → u.type ∉ backupLock.grantedIncompatible t.type ∧
        t.type ∉ backupLock.grantedIncompatible u.type := by
  have h : s.Inv (backupRoad laneOf) :=
    run_induction (fun _ _ _ h hstep => h.step hstep) Inv.init hrun
  refine ⟨h.count, fun hrw i => ?_, fun i => (h.lane i).closed, fun t => h.granted_place,
    fun i t ht u hu _ => ?_⟩
  · have hcount := h.count i
    simp only [pending, hrw] at hcount
    omega
  · have htf : t.type ∈ fastTypes := ((h.lane i).ticket t ht).1
    have huf : u.type ∈ fastTypes := by
      rcases hu with hu | ⟨j, hu⟩
      · exact h.supported_of_mem_lane ht u hu
      · exact ((h.lane j).ticket u hu).1
    exact ⟨fastTypes_compatible _ htf _ huf, fastTypes_compatible _ huf _ htf⟩

/-- The only session takes the lock for `FLUSH TABLES WITH READ LOCK`, closing two lanes,
and starts to release it: the ticket is out of `m_granted`, the lanes are not reopened. -/
def releaseFtwrl : List (BackupAction Nat Unit BackupType) :=
  ([.tryAcquireLock ⟨0, (), .ftwrl1⟩ true, .lockToAcquire (), .nextLane, .nextLane, .nextLane,
    .release ⟨0, (), .ftwrl1⟩, .lockToRemove ()] : List (BackupOp Nat Unit BackupType)).map
    fun op => ⟨⟨10, fun _ => false, fun _ => false⟩, op⟩

/-- While `remove_ticket` is about to reopen the lanes, they are closed once, though no
request is registered or being acquired. -/
theorem closeCount_of_releaseFtwrl :
    ∃ s : Backup 2 Nat Unit BackupType,
      run (step backupLock (backupRoad fun _ => 0)) init releaseFtwrl = some s ∧
      s.rwlock = some ((), .reopen 0) ∧ s.lock.granted.list = [] ∧ s.lock.waiting.list = [] ∧
      ∀ i, (s.lanes i).closeCount = 1 := by
  refine ⟨_, rfl, rfl, rfl, rfl, fun i => ?_⟩
  fin_cases i <;> rfl

/-- Two sessions have tickets in two lanes, and a third one closes the first lane. -/
def closeFirstLane : List (BackupAction Nat (Fin 3) BackupType) :=
  ([.tryAcquireLock ⟨0, 0, .dml⟩ true, .tryAcquireLock ⟨1, 1, .transDml⟩ true,
    .tryAcquireLock ⟨2, 2, .ftwrl1⟩ true, .lockToAcquire 2, .nextLane] :
    List (BackupOp Nat (Fin 3) BackupType)).map fun op => ⟨⟨10, fun _ => false, fun _ => false⟩, op⟩

/-- The ticket that is still in a lane is compatible with the one that was moved. -/
theorem fastLanes_of_closeFirstLane :
    ∃ s : Backup 2 Nat (Fin 3) BackupType,
      run (step backupLock (backupRoad fun c => if c = 0 then 0 else 1)) init closeFirstLane =
        some s ∧
      (s.lanes 1).list = [⟨1, 1, .transDml⟩] ∧ s.lock.granted.list = [⟨0, 0, .dml⟩] ∧
      ((s.lanes 0).closeCount : Int) =
        s.closers (backupRoad fun c => if c = 0 then 0 else 1) + s.pending 0 ∧
      .dml ∉ backupLock.grantedIncompatible .transDml := by
  have hrun : (run (step backupLock (backupRoad fun c => if c = 0 then 0 else 1)) init
      closeFirstLane).map (fun s : Backup 2 Nat (Fin 3) BackupType =>
        ((s.lanes 1).list, s.lock.granted.list)) =
      some ([⟨1, 1, .transDml⟩], [⟨0, 0, .dml⟩]) := rfl
  obtain ⟨s, hs, heq⟩ := Option.map_eq_some_iff.mp hrun
  obtain ⟨hlane, hgranted⟩ := Prod.mk.inj heq
  obtain ⟨hcount, -, -, -, hcompatible⟩ := fastLanes_of_run hs
  exact ⟨s, hs, hlane, hgranted, hcount 0, (hcompatible 1 ⟨1, 1, .transDml⟩ (by simp [hlane])
    ⟨0, 0, .dml⟩ (.inl (by simp [hgranted])) (by decide)).1⟩

end Backup

end MariaDB.Mdl
