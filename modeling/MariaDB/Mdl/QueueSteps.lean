import MariaDB.Mdl.LaneSteps

/-!
# The sections under `m_rwlock` keep the invariant

A request that is granted or queued, a ticket that is taken out of the queues or changes
its type there, and the waiters that are granted their locks.
-/
namespace MariaDB.Mdl

open Function List Lock

variable {n : Nat} {ι κ T : Type*} [DecidableEq ι] [DecidableEq κ] [DecidableEq T]

namespace Backup.Inv

variable {road : Road n κ T} {s : Backup n ι κ T} {t u : Ticket ι κ T} {d : κ} {i : Fin n}

/-- A ticket object is made, and the lanes do not serve it. -/
lemma newTicket (h : s.Inv road) (hidle : s.pc t.ctx = .idle) (hfree : s.ctxAt t.id = none)
    (hslot : wait = true → s.slot t.ctx = .empty) :
    (Backup.setPc { s with
      ctxAt := update s.ctxAt t.id (some t.ctx)
      fastLane := update s.fastLane t.id none } t.ctx (.acquire t wait)).Inv road := by
  have hupdate {id : ι} {c : κ} (hid : s.ctxAt id = some c) :
      update s.ctxAt t.id (some t.ctx) id = some c ∧
      update s.fastLane t.id none id = s.fastLane id := by
    have hne := id_ne_of_free hfree hid
    exact ⟨(update_of_ne hne _ _).trans hid, update_of_ne hne _ _⟩
  refine h.of_keeps (d := t.ctx) ?_ ?_ ?_ ?_ ?_ ?_
  · exact {
      pc := fun c hc => update_of_ne hc _ _
      held := fun u hu _ => hu
      ctxAt := fun id c _ hid => (hupdate hid).1
      fastLane := fun id c _ hid => .inl (hupdate hid).2
      queued := fun u hu => .inl hu
      slot := fun _ _ _ => rfl
      waits := fun _ _ _ hw => hw }
  · refine ⟨h.count, fun j => ⟨(h.lane j).closed, fun u hu => ?_, (h.lane j).nodup⟩,
      fun u hu => ?_, h.nodup_queued, fun u hu => ?_⟩
    · have hu' := (h.lane j).ticket u hu
      exact ⟨hu'.1, (hupdate hu'.2.2).2.trans hu'.2.1, (hupdate hu'.2.2).1⟩
    · have hu' := h.queued u hu
      exact ⟨(hupdate hu'.2).2.trans hu'.1, (hupdate hu'.2).1⟩
    · exact (h.held u hu).of_mem (hupdate (h.held_ctxAt hu)).2 (fun _ _ hj => hj) fun hg => hg
  · exact fun u hu => .inl ⟨h.waiting_ctx_ne (by simp [hidle]) u hu, hu⟩
  · show PcOk road _ t.ctx (update s.pc t.ctx (.acquire t wait) t.ctx)
    rw [update_self]
    refine ⟨rfl, ⟨update_self _ _ _, update_self _ _ _, fun u hu => ?_⟩, hslot⟩
    exact id_ne_of_free hfree (h.queued u hu).2
  · exact fun p hp => absurd hp (h.rwlock_ne (by simp [hidle]) p)
  · exact fun _ _ _ hp => hp

omit [DecidableEq ι] in
/-- A new ticket is put into one of the queues, at the end of `try_acquire_lock`. -/
lemma enqueue (h : s.Inv road) (hd : ∀ v, s.pc t.ctx ≠ .waits v) (hnew : s.New t)
    (hrw : ∀ c p, s.rwlock = some (c, p) → c = t.ctx)
    (hpending : ∀ i, s.pending i = if t.type ∈ road.supportedTypes then 0 else 1) {l : Lock ι κ T}
    (hqueued : l.queued.Perm (t :: s.lock.queued))
    (hgranted : ∀ u ∈ s.lock.granted.list, u ∈ l.granted.list)
    (hwaiting : ∀ u ∈ s.lock.waiting.list, u ∈ l.waiting.list) {held : List (Ticket ι κ T)}
    {p : Pc n ι κ T} (hheld : held = s.held ++ [t] ∧ t ∈ l.granted.list ∨ held = s.held)
    (hown : ∀ u ∈ l.waiting.list, u ∈ s.lock.waiting.list ∨ u = t ∧ p = .waits t)
    (hpc : PcOk road { s with lock := l, held := held } t.ctx p) :
    (leave { s with lock := l, held := held } t.ctx p).Inv road := by
  have hmem {u} : u ∈ l.queued ↔ u = t ∨ u ∈ s.lock.queued := by rw [hqueued.mem_iff, mem_cons]
  have hsub (u) (hu : u ∈ s.held) : u ∈ held := by
    rcases hheld with ⟨rfl, -⟩ | rfl
    · exact mem_append_left _ hu
    · exact hu
  refine h.of_keeps (d := t.ctx) ?_ ?_ ?_ ?_ ?_ ?_
  · exact {
      pc := fun c hc => update_of_ne hc _ _
      held := fun u hu _ => hsub u hu
      ctxAt := fun id c _ hid => hid
      fastLane := fun id c _ hid => .inl rfl
      queued := fun u hu => by
        rcases hmem.mp hu with rfl | hu
        · exact .inr (.inl rfl)
        · exact .inl hu
      slot := fun _ _ _ => rfl
      waits := fun u _ _ hw => hw.imp (And.imp_right (hgranted u)) (And.imp_right (hwaiting u)) }
  · refine ⟨fun j => ?_, h.lane, fun u hu => ?_, ?_, fun u hu => ?_⟩
    · have hcount := h.count j
      have hclosers : (leave { s with lock := l, held := held } t.ctx p).closers road =
          s.closers road + if t.type ∈ road.supportedTypes then 0 else 1 := by
        show l.queued.countP _ = s.lock.queued.countP _ + _
        rw [hqueued.countP_eq, countP_cons]
        by_cases hc : t.type ∈ road.supportedTypes <;> simp [hc]
      rw [hclosers]
      rw [hpending j] at hcount
      show ((s.lanes j).closeCount : Int) = _ + 0
      rw [hcount]
      split_ifs <;> simp
    · rcases hmem.mp hu with rfl | hu
      · exact ⟨hnew.2.1, hnew.1⟩
      · exact h.queued u hu
    · show (l.queued.map (·.id)).Nodup
      rw [(hqueued.map _).nodup_iff, map_cons, nodup_cons]
      refine ⟨fun hid => ?_, h.nodup_queued⟩
      obtain ⟨u, hu, hid⟩ := mem_map.mp hid
      exact hnew.2.2 u hu hid
    · have hold (v) (hv : v ∈ s.held) : At (leave { s with lock := l, held := held } t.ctx p) v :=
        (h.held v hv).of_mem rfl (fun _ _ hj => hj) (hgranted v)
      rcases hheld with ⟨rfl, hg⟩ | rfl
      · rcases mem_append.mp hu with hu | hu
        · exact hold u hu
        · obtain rfl := mem_singleton.mp hu
          show At _ _
          unfold At
          dsimp only [leave, Backup.setPc]
          rwa [hnew.2.1]
      · exact hold u hu
  · intro u hu
    rcases hown u hu with hu | ⟨rfl, rfl⟩
    · exact .inl ⟨h.waiting_ctx_ne hd u hu, hu⟩
    · exact .inr ⟨rfl, update_self _ _ _⟩
  · show PcOk road _ t.ctx (update s.pc t.ctx p t.ctx)
    rwa [update_self]
  · intro q hq
    simp [leave] at hq
  · intro c q _ hq
    simp [leave] at hq

omit [DecidableEq ι] [DecidableEq κ] in
lemma of_keeps_done (h : s.Inv road) (hk : Keeps d s s') (hreg : s'.Registered road)
    (hwait : ∀ t ∈ s'.lock.waiting.list, (t.ctx ≠ d ∧ t ∈ s.lock.waiting.list) ∨
      t.ctx = d ∧ s'.pc d = .waits t) (hw : s'.pc d = .idle ∧ s'.rwlock = none ∨
      s'.pc d = .locked ∧ s'.rwlock = some (d, .reopen 0)) : s'.Inv road := by
  refine h.of_keeps hk hreg hwait ?_ (fun q hq => ?_) fun c q hc hq => ?_
  · rcases hw with ⟨hpc, -⟩ | ⟨hpc, -⟩ <;> rw [hpc] <;> trivial
  · rcases hw with ⟨-, hw⟩ | ⟨hpc, hw⟩ <;> rw [hw] at hq
    · cases hq
    · obtain rfl := (Prod.mk.inj (Option.some.inj hq)).2
      exact ⟨hpc, trivial⟩
  · rcases hw with ⟨-, hw⟩ | ⟨-, hw⟩ <;> rw [hw] at hq <;> cases hq
    exact absurd rfl hc

variable {p : Pc n ι κ T} {w : Option (κ × Phase n ι κ T)}
  (hw : p = .idle ∧ w = none ∨ p = .locked ∧ w = some (t.ctx, .reopen 0))

include hw in
/-- A ticket is taken out of its queue. The session is done with it, or goes on to reopen
the lanes. -/
lemma takeOut (h : s.Inv road) (ht : t ∈ s.lock.queued) {l : Lock ι κ T}
    (hqueued : (t :: l.queued).Perm s.lock.queued)
    (hgranted : ∀ u, u ∈ l.granted.list ↔ u ∈ s.lock.granted.list ∧ u.id ≠ t.id)
    (hwaiting : ∀ u, u ∈ l.waiting.list ↔ u ∈ s.lock.waiting.list ∧ u.id ≠ t.id)
    (hd : ∀ v, s.pc t.ctx = .waits v → v = t)
    (hpending : ∀ i, pending { s with rwlock := w } i =
      s.pending i + if t.type ∈ road.supportedTypes then 0 else 1) :
    Inv road { s.delete t with
      lock := l, pc := update s.pc t.ctx p, rwlock := w } := by
  have hctx := (h.queued t ht).2
  have hmem {u} (hu : u ∈ l.queued) : u ∈ s.lock.queued := hqueued.mem_iff.mp (mem_cons_of_mem _ hu)
  have hnodup : ((t :: l.queued).map (·.id)).Nodup := (hqueued.map _).nodup_iff.mpr h.nodup_queued
  rw [map_cons, nodup_cons] at hnodup
  have hid_lane (j) (u) (hu : u ∈ (s.lanes j).list) : u.id ≠ t.id :=
    id_ne_of_fastLane (s := s) (by simp [((h.lane j).ticket u hu).2.1, (h.queued t ht).1])
  have hid_queued (u) (hu : u ∈ l.queued) : u.id ≠ t.id :=
    fun hid => hnodup.1 (mem_map.mpr ⟨u, hu, hid⟩)
  refine h.of_keeps_done (d := t.ctx) ?_ ?_ ?_ ?_
  · exact {
      pc := fun c hc => update_of_ne hc _ _
      held := h.held_delete hctx
      ctxAt := ctxAt_delete hctx
      fastLane := fun _ _ _ _ => .inl rfl
      queued := fun u hu => .inl (hmem hu)
      slot := fun _ _ _ => rfl
      waits := fun u hne _ hu => by
        have hid (hq : u ∈ s.lock.queued) : u.id ≠ t.id := id_ne_of_ctx (h.queued u hq).2 hctx hne
        rcases hu with ⟨hs, hu⟩ | ⟨hs, hu⟩
        · exact .inl ⟨hs, (hgranted u).mpr ⟨hu, hid (mem_queued.mpr (.inl hu))⟩⟩
        · exact .inr ⟨hs, (hwaiting u).mpr ⟨hu, hid (mem_queued.mpr (.inr hu))⟩⟩ }
  · refine ⟨fun j => ?_, fun j => ⟨(h.lane j).closed, fun u hu => ?_, (h.lane j).nodup⟩,
      fun u hu => ?_, hnodup.2, fun u hu => ?_⟩
    · have hcount := h.count j
      have hpend := hpending j
      have hclosers : s.closers road =
          l.queued.countP (·.type ∉ road.supportedTypes) +
            if t.type ∈ road.supportedTypes then 0 else 1 := by
        unfold closers
        rw [← hqueued.countP_eq, countP_cons]
        by_cases hc : t.type ∈ road.supportedTypes <;> simp [hc]
      show ((s.lanes j).closeCount : Int) =
        (l.queued.countP (·.type ∉ road.supportedTypes) : Nat) + pending { s with rwlock := w } j
      rw [hcount, hpend, hclosers]
      split_ifs <;> push_cast <;> omega
    · have hu' := (h.lane j).ticket u hu
      exact ⟨hu'.1, hu'.2.1, (update_of_ne (hid_lane j u hu) _ _).trans hu'.2.2⟩
    · have hu' := h.queued u (hmem hu)
      exact ⟨hu'.1, (update_of_ne (hid_queued u hu) _ _).trans hu'.2⟩
    · obtain ⟨hu, hid⟩ := mem_filter.mp hu
      refine (h.held u hu).of_mem rfl (fun _ _ hj => hj) fun hg => ?_
      exact (hgranted u).mpr ⟨hg, by simpa using hid⟩
  · intro u hu
    obtain ⟨hu, hid⟩ := (hwaiting u).mp hu
    refine .inl ⟨fun hc => hid ?_, hu⟩
    rw [hd u (hc ▸ h.waiting u hu)]
  · simpa using hw

include hw in
/-- A ticket that was not registered is given up. -/
lemma discard (h : s.Inv road) (hd : ∀ v, s.pc t.ctx ≠ .waits v) (hnew : s.New t)
    (hpending : ∀ i, pending { s with rwlock := w } i = s.pending i) :
    Inv road { s.delete t with pc := update s.pc t.ctx p, rwlock := w } := by
  have hlane_id (j) (u) (hu : u ∈ (s.lanes j).list) : u.id ≠ t.id :=
    id_ne_of_fastLane (s := s) (by simp [((h.lane j).ticket u hu).2.1, hnew.2.1])
  refine h.of_keeps_done (d := t.ctx) ?_ ?_ ?_ ?_
  · exact .of_lock rfl (fun _ _ => rfl) (fun c hc => update_of_ne hc _ _) (h.held_delete hnew.1)
      (ctxAt_delete hnew.1) fun _ _ _ => rfl
  · refine ⟨fun j => ?_, fun j => ⟨(h.lane j).closed, fun u hu => ?_, (h.lane j).nodup⟩,
      fun u hu => ?_, h.nodup_queued, fun u hu => ?_⟩
    · exact (h.count j).trans (congrArg _ (hpending j).symm)
    · have hu' := (h.lane j).ticket u hu
      exact ⟨hu'.1, hu'.2.1, (update_of_ne (hlane_id j u hu) _ _).trans hu'.2.2⟩
    · have hu' := h.queued u hu
      exact ⟨hu'.1, (update_of_ne (hnew.2.2 u hu) _ _).trans hu'.2⟩
    · exact (h.held u (mem_of_mem_filter hu)).of_mem rfl (fun _ _ hj => hj) fun hg => hg
  · exact fun u hu => .inl ⟨h.waiting_ctx_ne hd u hu, hu⟩
  · simpa using hw

omit [DecidableEq κ] in
lemma changeType (h : s.Inv road) (hidle : s.pc d = .idle) (ht : s.Owns d t)
    (hlane : s.fastLane t.id = none) (hclass : SameClass road t.type type) :
    Inv road (retype { s with lock := s.lock.changeType t type } t type) := by
  have hctx : s.ctxAt t.id = some d := ht.2 ▸ h.held_ctxAt ht.1
  have htg := h.mem_granted ht.1 hlane
  obtain ⟨ts, hts, hts'⟩ := queued_changeType h.nodup_queued htg type
  have hmem {u} (hu : u ∈ (s.lock.changeType t type).queued) :
      u = { t with type } ∨ u ∈ s.lock.queued := by
    rcases mem_cons.mp (hts'.mem_iff.mp hu) with rfl | hu
    · exact .inl rfl
    · exact .inr (hts.mem_iff.mpr (mem_cons_of_mem _ hu))
  have hgranted (u) (hu : u ∈ s.lock.granted.list) (hid : u.id ≠ t.id) :
      u ∈ (s.lock.changeType t type).granted.list :=
    mem_changeType_granted.mpr (.inl ⟨hu, hid⟩)
  refine h.of_idle hidle ?_ ?_ rfl rfl rfl
  · exact {
      pc := fun _ _ => rfl
      held := fun u hu hne => mem_map.mpr ⟨u, hu, if_neg (id_ne_of_ctx (h.held_ctxAt hu) hctx hne)⟩
      ctxAt := fun id c hne hid => hid
      fastLane := fun _ _ _ _ => .inl rfl
      queued := fun u hu => by
        rcases hmem hu with rfl | hu
        · exact .inr (.inl ht.2)
        · exact .inl hu
      slot := fun _ _ _ => rfl
      waits := fun u hne _ hu => by
        rcases hu with ⟨hs, hu⟩ | hu
        · have hu' := (h.queued u (mem_queued.mpr (.inl hu))).2
          exact .inl ⟨hs, hgranted u hu (id_ne_of_ctx hu' hctx hne)⟩
        · exact .inr hu }
  · refine ⟨fun j => ?_, h.lane, fun u hu => ?_, ?_, fun u hu => ?_⟩
    · have hclosers : (s.lock.changeType t type).queued.countP (·.type ∉ road.supportedTypes) =
          s.lock.queued.countP (·.type ∉ road.supportedTypes) := by
        rw [hts.countP_eq, hts'.countP_eq, countP_cons, countP_cons]
        simp only [hclass.eq]
      show ((s.lanes j).closeCount : Int) =
        ((s.lock.changeType t type).queued.countP (·.type ∉ road.supportedTypes) : Nat) +
          s.pending j
      rw [hclosers]
      exact h.count j
    · rcases hmem hu with rfl | hu
      · exact h.queued t (mem_queued.mpr (.inl htg))
      · exact h.queued u hu
    · show ((s.lock.changeType t type).queued.map (·.id)).Nodup
      have hperm : ((s.lock.changeType t type).queued.map (·.id)).Perm
          (s.lock.queued.map (·.id)) := (hts'.map _).trans (hts.map (·.id)).symm
      exact hperm.nodup_iff.mpr h.nodup_queued
    · obtain ⟨v, hv, rfl⟩ := mem_map.mp hu
      split_ifs with hid
      · obtain rfl := h.held_eq_of_id hv ht.1 hid
        unfold At
        simp only [retype, hlane]
        exact mem_changeType_granted.mpr (.inr rfl)
      · exact (h.held v hv).of_mem rfl (fun _ _ hj => hj) fun hg => hgranted v hg hid

omit [DecidableEq ι] [DecidableEq κ] in
lemma reschedule (h : s.Inv road) (hr : Lock.Rescheduled (s.lock, s.slot) r) :
    Inv road { s with lock := r.1, slot := r.2 } := by
  have hmem {u} : u ∈ r.1.queued ↔ u ∈ s.lock.queued := hr.perm.mem_iff
  -- only the slot of a session that waits for its ticket is set
  have hslot (c) (hc : ∀ v, s.pc c ≠ .waits v) : r.2 c = s.slot c := by
    rcases hr.slot c with heq | ⟨-, -, v, hv, rfl, -⟩
    · exact heq
    · exact absurd (h.waiting v hv) (hc v)
  have hnew {u : Ticket ι κ T} (hu : s.New u) : New { s with lock := r.1, slot := r.2 } u :=
    ⟨hu.1, hu.2.1, fun v hv => hu.2.2 v (hmem.mp hv)⟩
  refine ⟨⟨fun j => ?_, h.lane, fun u hu => h.queued u (hmem.mp hu), ?_, fun u hu => ?_⟩,
    fun u hu => h.waiting u (hr.waiting_sub u hu), fun c => ?_, fun c p hp => ?_⟩
  · show ((s.lanes j).closeCount : Int) = (r.1.queued.countP _ : Nat) + s.pending j
    rw [hr.perm.countP_eq]
    exact h.count j
  · exact (hr.perm.map _).nodup_iff.mpr h.nodup_queued
  · exact (h.held u hu).of_mem rfl (fun _ _ hj => hj) (hr.granted u)
  · have hpc := h.pc c
    show PcOk road _ c (s.pc c)
    cases hcase : s.pc c with
    | acquire =>
      rw [hcase] at hpc
      refine ⟨hpc.1, hnew hpc.2.1, fun hwait => ?_⟩
      show r.2 c = _
      rw [hslot c (by simp [hcase])]
      exact hpc.2.2 hwait
    | waits t =>
      rw [hcase] at hpc
      obtain ⟨rfl, hwaits⟩ := hpc
      refine ⟨rfl, ?_⟩
      rcases hwaits with ⟨hs, ht⟩ | ⟨hs, ht⟩
      · refine .inl ⟨?_, hr.granted t ht⟩
        rcases hr.slot t.ctx with heq | ⟨hempty, -⟩
        · exact heq.trans hs
        · exact absurd (hempty.symm.trans hs) (by decide)
      · rcases hr.slot t.ctx with heq | ⟨-, hset, v, hv, hctx, hvg⟩
        · refine .inr ⟨fun hset => hs (heq.symm.trans hset), ?_⟩
          rcases hr.waiting t ht with ht' | ⟨-, hset⟩
          · exact ht'
          · exact absurd (heq.symm.trans hset) hs
        · have hvt : s.pc t.ctx = .waits v := hctx ▸ h.waiting v hv
          rw [hcase] at hvt
          obtain rfl := Pc.waits.inj hvt
          exact .inl ⟨hset, hvg⟩
    | _ =>
      rw [hcase] at hpc
      exact hpc
  · obtain ⟨hpc, hphase⟩ := h.rwlock c p hp
    refine ⟨hpc, ?_⟩
    cases p with
    | close =>
      obtain ⟨hctx, hn, hclass, hs⟩ := hphase
      refine ⟨hctx, hnew hn, hclass, fun hwait => ?_⟩
      show r.2 c = _
      rw [hslot c (by simp [hpc])]
      exact hs hwait
    | _ => exact hphase

/-! ### The wait slots -/

omit [DecidableEq ι] in
lemma endWait (h : s.Inv road) (hpc : s.pc d = .waits t) (hs : s.slot d = .granted) :
    (Backup.setPc { s with
      slot := update s.slot d .empty
      held := s.held ++ [t] } d .idle).Inv road := by
  have hok := h.pc d
  rw [hpc] at hok
  obtain ⟨rfl, hwaits⟩ := hok
  have htg : t ∈ s.lock.granted.list := by
    rcases hwaits with ⟨-, ht⟩ | ⟨hne, -⟩
    · exact ht
    · exact absurd hs hne
  have hlane := (h.queued t (mem_queued.mpr (.inl htg))).1
  refine h.of_keeps (d := t.ctx) ?_ ?_ ?_ ?_ ?_ ?_
  · exact .of_lock rfl (fun c hc => update_of_ne hc _ _) (fun c hc => update_of_ne hc _ _)
      (fun u hu _ => mem_append_left _ hu) (fun _ _ _ hid => hid) fun _ _ _ => rfl
  · refine ⟨h.count, h.lane, h.queued, h.nodup_queued, fun u hu => ?_⟩
    rcases mem_append.mp hu with hu | hu
    · exact (h.held u hu).of_mem rfl (fun _ _ hj => hj) fun hg => hg
    · obtain rfl := mem_singleton.mp hu
      unfold At
      dsimp only [Backup.setPc]
      rwa [hlane]
  · intro u hu
    refine .inl ⟨fun hc => ?_, hu⟩
    -- the ticket would be in both lists
    have hut := h.waiting u hu
    rw [hc, hpc] at hut
    obtain rfl := Pc.waits.inj hut
    have hnodup := h.nodup_queued
    rw [Lock.queued, map_append, nodup_append] at hnodup
    exact hnodup.2.2 _ (mem_map.mpr ⟨t, htg, rfl⟩) _ (mem_map.mpr ⟨t, hu, rfl⟩) rfl
  · show PcOk road _ t.ctx (update s.pc t.ctx .idle t.ctx)
    rw [update_self]
    trivial
  · exact fun p hp => absurd hp (h.rwlock_ne (by simp [hpc]) p)
  · exact fun _ _ _ hp => hp

omit [DecidableEq ι] in
/-- The slot of a session is set, but not to `GRANTED`, and not while it is needed. -/
lemma setSlot (h : s.Inv road)
    (hd : s.pc d = .idle ∨ ∃ t, s.pc d = .waits t ∧ s.slot d ≠ .granted ∧ status ≠ .granted) :
    Inv road { s with slot := update s.slot d status } := by
  refine h.of_keeps (d := d) ?_ ?_ ?_ ?_ ?_ ?_
  · exact .of_lock rfl (fun c hc => update_of_ne hc _ _) (fun _ _ => rfl) (fun _ hu _ => hu)
      (fun _ _ _ hid => hid) fun _ _ _ => rfl
  · exact { h with }
  · intro u hu
    by_cases hc : u.ctx = d
    · exact .inr ⟨hc, hc ▸ h.waiting u hu⟩
    · exact .inl ⟨hc, hu⟩
  · show PcOk road _ d (s.pc d)
    rcases hd with hidle | ⟨t, hpc, hs, hstatus⟩
    · rw [hidle]
      trivial
    · have hok := h.pc d
      rw [hpc] at hok ⊢
      obtain ⟨rfl, hwaits⟩ := hok
      refine ⟨rfl, .inr ⟨by simpa using hstatus, ?_⟩⟩
      rcases hwaits with ⟨hset, -⟩ | ⟨-, ht⟩
      · exact absurd hset hs
      · exact ht
  · intro p hp
    have hl := (h.rwlock d p hp).1
    rcases hd with hidle | ⟨t, hpc, -⟩
    · simp [hidle] at hl
    · simp [hpc] at hl
  · exact fun _ _ _ hp => hp

end Backup.Inv

end MariaDB.Mdl
