import MariaDB.Mdl.FastLanes

/-!
# The critical sections of the lanes keep the invariant

A ticket that is added to its lane, released or given another type there, a lane that is
closed and one that is reopened.
-/
namespace MariaDB.Mdl

open Function List

variable {n : Nat} {ι κ T : Type*}

namespace Backup

variable {s : Backup n ι κ T} {t u : Ticket ι κ T} {d : κ} {i : Fin n} {l : Lane ι κ T}
  {s' : Backup n ι κ T}

lemma id_ne_of_free {id free : ι} {c : κ} (hfree : s.ctxAt free = none)
    (hid : s.ctxAt id = some c) : id ≠ free := by
  rintro rfl
  simp [hfree] at hid

/-- Tickets of different sessions are at different addresses. -/
lemma id_ne_of_ctx (ha : s.ctxAt a = some c) (hb : s.ctxAt b = some d) (hne : c ≠ d) : a ≠ b := by
  rintro rfl
  exact hne (Option.some.inj (ha.symm.trans hb))

/-- A ticket with an address that is elsewhere is another ticket. -/
lemma id_ne_of_fastLane (hne : s.fastLane a ≠ s.fastLane b) : a ≠ b := by
  rintro rfl
  exact hne rfl

lemma At.of_mem (h : s.At t) (hlane : s'.fastLane t.id = s.fastLane t.id)
    (hmem : ∀ j, s.fastLane t.id = some j → t ∈ (s.lanes j).list → t ∈ (s'.lanes j).list)
    (hgranted : t ∈ s.lock.granted.list → t ∈ s'.lock.granted.list) : s'.At t := by
  grind [At]

lemma WaitsOk.congr (h : s.WaitsOk t)
    (hslot : s'.slot t.ctx = s.slot t.ctx) (hlock : s'.lock = s.lock) : s'.WaitsOk t := by
  unfold WaitsOk at h ⊢
  rwa [hslot, hlock]

/-- The same, when only the lane `i` has changed. -/
lemma At.of_update (h : s.At t)
    (hlane : s'.fastLane t.id = s.fastLane t.id) (hlanes : s'.lanes = update s.lanes i l)
    (hl : t ∈ (s.lanes i).list → t ∈ l.list)
    (hgranted : t ∈ s.lock.granted.list → t ∈ s'.lock.granted.list) : s'.At t := by
  refine h.of_mem hlane (fun j _ hj => ?_) hgranted
  rw [hlanes]
  by_cases hji : j = i
  · subst hji
    rw [update_self]
    exact hl hj
  · rwa [update_of_ne hji]

lemma Keeps.of_lock (hlock : s'.lock = s.lock)
    (hslot : ∀ c, c ≠ d → s'.slot c = s.slot c) (hpc : ∀ c, c ≠ d → s'.pc c = s.pc c)
    (hheld : ∀ u ∈ s.held, u.ctx ≠ d → u ∈ s'.held)
    (hctx : ∀ id c, c ≠ d → s.ctxAt id = some c → s'.ctxAt id = some c)
    (hlane : ∀ id c, s.ctxAt id = some c → s'.fastLane id = s.fastLane id) : Keeps d s s' where
  pc := hpc
  held := hheld
  ctxAt := hctx
  fastLane id c _ hid := .inl (hlane id c hid)
  queued _ hu := .inl (hlock ▸ hu)
  slot c hc _ := hslot c hc
  waits _ hne _ hu := hu.congr (hslot _ hne) hlock

namespace Inv

lemma ctxAt_delete [DecidableEq ι] (hctx : s.ctxAt t.id = some d) (id : ι) (c) (hne : c ≠ d)
    (hid : s.ctxAt id = some c) : (s.delete t).ctxAt id = some c :=
  (update_of_ne (id_ne_of_ctx hid hctx hne) _ _).trans hid

variable [DecidableEq T]

lemma count_update (h : s.Inv road) (hl : l.closeCount = (s.lanes i).closeCount) :
    ∀ j, ((update s.lanes i l j).closeCount : Int) = s.closers road + s.pending j :=
  (forall_update_iff s.lanes
    (p := fun j l => (l.closeCount : Int) = s.closers road + s.pending j)).mpr
    ⟨hl ▸ h.count i, fun j _ => h.count j⟩

/-- What a section of the session leaves to be shown, if the session does nothing else. -/
lemma of_idle (h : s.Inv road) (hidle : s.pc d = .idle)
    (hk : Keeps d s s') (hreg : s'.Registered road) (hpc : s'.pc = s.pc)
    (hrw : s'.rwlock = s.rwlock) (hwaiting : s'.lock.waiting = s.lock.waiting) :
    s'.Inv road := by
  refine h.of_keeps hk hreg ?_ ?_ ?_ ?_
  · intro u hu
    rw [hwaiting] at hu
    exact .inl ⟨h.waiting_ctx_ne (by simp [hidle]) u hu, hu⟩
  · rw [hpc, hidle]
    trivial
  · intro p hp
    rw [hrw] at hp
    exact absurd hp (h.rwlock_ne (by simp [hidle]) p)
  · intro c p _ hp
    rwa [hrw] at hp

variable [DecidableEq ι]

lemma held_delete (h : s.Inv road) (hctx : s.ctxAt t.id = some d) (u) (hu : u ∈ s.held)
    (hne : u.ctx ≠ d) : u ∈ (s.delete t).held :=
  mem_filter.mpr ⟨hu, by simpa using id_ne_of_ctx (h.held_ctxAt hu) hctx hne⟩

/-- `Lane::try_acquire_lock`, for an open lane. -/
lemma laneAdd (h : s.Inv road) (hidle : s.pc t.ctx = .idle) (hfree : s.ctxAt t.id = none)
    (hclass : t.type ∈ road.supportedTypes) (hopen : (s.lanes i).closeCount = 0) :
    Inv road { s with
      ctxAt := update s.ctxAt t.id (some t.ctx)
      lanes := update s.lanes i ((s.lanes i).add t)
      fastLane := update s.fastLane t.id (some i)
      held := s.held ++ [t] } := by
  have hlane_id (j) (u) (hu : u ∈ (s.lanes j).list) : u.id ≠ t.id :=
    id_ne_of_free hfree ((h.lane j).ticket u hu).2.2
  have hticket (j) (u) (hu : u ∈ (s.lanes j).list) :
      u.type ∈ road.supportedTypes ∧
      update s.fastLane t.id (some i) u.id = some j ∧
      update s.ctxAt t.id (some t.ctx) u.id = some u.ctx := by
    rw [update_of_ne (hlane_id j u hu), update_of_ne (hlane_id j u hu)]
    exact (h.lane j).ticket u hu
  refine h.of_idle (d := t.ctx) hidle ?_ ?_ rfl rfl rfl
  · exact .of_lock rfl (fun _ _ => rfl) (fun _ _ => rfl)
      (fun u hu _ => mem_append_left _ hu)
      (fun id c _ hid => (update_of_ne (id_ne_of_free hfree hid) _ _).trans hid)
      fun id c hid => update_of_ne (id_ne_of_free hfree hid) _ _
  · refine ⟨h.count_update rfl, ?_, ?_, h.nodup_queued, ?_⟩
    · refine (forall_update_iff s.lanes (p := LaneOk road _ _)).mpr
        ⟨⟨?_, fun u hu => ?_, ?_⟩, fun j _ => ⟨(h.lane j).closed, hticket j, (h.lane j).nodup⟩⟩
      · intro hpos
        simp [Lane.add, hopen] at hpos
      · rcases mem_append.mp hu with hu | hu
        · exact hticket i u hu
        · obtain rfl := mem_singleton.mp hu
          exact ⟨hclass, update_self _ _ _, update_self _ _ _⟩
      · rw [Lane.add, map_append, nodup_append]
        refine ⟨(h.lane i).nodup, by simp, fun a ha b hb => ?_⟩
        obtain ⟨u, hu, rfl⟩ := mem_map.mp ha
        obtain rfl : b = t.id := by simpa using hb
        exact hlane_id i u hu
    · intro u hu
      have hid := id_ne_of_free hfree (h.queued u hu).2
      dsimp only
      rw [update_of_ne hid, update_of_ne hid]
      exact h.queued u hu
    · intro u hu
      rcases mem_append.mp hu with hu | hu
      · exact (h.held u hu).of_update
          (update_of_ne (id_ne_of_free hfree (h.held_ctxAt hu)) _ _) rfl
          (mem_append_left _) id
      · obtain rfl := mem_singleton.mp hu
        simp [At, Lane.add]

lemma laneRelease (h : s.Inv road) (hidle : s.pc d = .idle) (ht : s.Owns d t)
    (hlane : s.fastLane t.id = some i) :
    Inv road { s.delete t with lanes := update s.lanes i ((s.lanes i).release t) } := by
  have hctx : s.ctxAt t.id = some d := ht.2 ▸ h.held_ctxAt ht.1
  have hkeep (j) (u) (hu : u ∈ (s.lanes j).list) (hid : u.id ≠ t.id) :
      u.type ∈ road.supportedTypes ∧ s.fastLane u.id = some j ∧
      update s.ctxAt t.id none u.id = some u.ctx := by
    rw [update_of_ne hid]
    exact (h.lane j).ticket u hu
  refine h.of_idle hidle ?_ ?_ rfl rfl rfl
  · exact .of_lock rfl (fun _ _ => rfl) (fun _ _ => rfl) (h.held_delete hctx)
      (ctxAt_delete hctx) fun _ _ _ => rfl
  · refine ⟨h.count_update rfl, ?_, ?_, h.nodup_queued, ?_⟩
    · refine (forall_update_iff s.lanes (p := LaneOk road _ _)).mpr
        ⟨⟨?_, fun u hu => ?_, ?_⟩,
          fun j hji => ⟨(h.lane j).closed, fun u hu => ?_, (h.lane j).nodup⟩⟩
      · intro hpos
        simp [Lane.release, (h.lane i).closed hpos]
      · obtain ⟨hu, hid⟩ := mem_filter.mp hu
        exact hkeep i u hu (by simpa using hid)
      · exact (h.lane i).nodup.sublist (filter_sublist.map _)
      · -- a ticket of another lane is at another address
        refine hkeep j u hu (id_ne_of_fastLane (s := s) ?_)
        simp [((h.lane j).ticket u hu).2.1, hlane, hji]
    · intro u hu
      have hid : u.id ≠ t.id := id_ne_of_fastLane (s := s) (by simp [(h.queued u hu).1, hlane])
      exact ⟨(h.queued u hu).1, (update_of_ne hid _ _).trans (h.queued u hu).2⟩
    · intro u hu
      obtain ⟨hu, hid⟩ := mem_filter.mp hu
      exact (h.held u hu).of_update rfl rfl (fun hj => mem_filter.mpr ⟨hj, hid⟩) id

lemma laneChangeType (h : s.Inv road) (hidle : s.pc d = .idle) (ht : s.Owns d t)
    (hlane : s.fastLane t.id = some i) (hclass : SameClass road t.type type) :
    Inv road (retype { s with
      lanes := update s.lanes i ((s.lanes i).changeTicketType t type) } t type) := by
  have hctx : s.ctxAt t.id = some d := ht.2 ▸ h.held_ctxAt ht.1
  have htmem := h.mem_lane ht.1 hlane
  refine h.of_idle hidle ?_ ?_ rfl rfl rfl
  · exact .of_lock rfl (fun _ _ => rfl) (fun _ _ => rfl)
      (fun u hu hne => mem_map.mpr ⟨u, hu, if_neg (id_ne_of_ctx (h.held_ctxAt hu) hctx hne)⟩)
      (fun _ _ _ hid => hid) fun _ _ _ => rfl
  · refine ⟨h.count_update rfl, ?_, h.queued, h.nodup_queued, ?_⟩
    · refine (forall_update_iff s.lanes (p := LaneOk road _ _)).mpr
        ⟨⟨?_, fun u hu => ?_, ?_⟩, fun j _ => h.lane j⟩
      · intro hpos
        simp [Lane.changeTicketType, (h.lane i).closed hpos]
      · obtain ⟨v, hv, rfl⟩ := mem_map.mp hu
        have hv' := (h.lane i).ticket v hv
        split_ifs with hid
        · obtain rfl := eq_of_id_eq (h.lane i).nodup hv htmem hid
          exact ⟨hclass.mp hv'.1, hv'.2⟩
        · exact hv'
      · have hids : ((s.lanes i).changeTicketType t type).list.map (·.id) =
            (s.lanes i).list.map (·.id) := by
          simp only [Lane.changeTicketType, map_map, comp_def]
          refine map_congr_left fun u _ => ?_
          split_ifs <;> rfl
        rw [hids]
        exact (h.lane i).nodup
    · intro u hu
      obtain ⟨v, hv, rfl⟩ := mem_map.mp hu
      split_ifs with hid
      · obtain rfl := h.held_eq_of_id hv ht.1 hid
        unfold At
        simp only [retype, hlane, update_self]
        exact mem_map.mpr ⟨v, htmem, if_pos rfl⟩
      · exact (h.held v hv).of_update rfl rfl
          (fun hj => mem_map.mpr ⟨v, hj, if_neg hid⟩) id

end Inv

/-! ### Lanes that are closed and reopened under `m_rwlock` -/

section Closing

variable [DecidableEq T]

lemma foldl_addGranted_list (ts : List (Ticket ι κ T)) (l : TicketList ι κ T) :
    (ts.foldl .addGranted l).list = l.list ++ ts := by
  induction ts generalizing l with
  | nil => simp
  | cons t ts ih => simp [ih, TicketList.addGranted, TicketList.addTicket, TicketList.count]

variable [DecidableEq ι]

lemma closeLane_granted (s : Backup n ι κ T) (i : Fin n) :
    (s.closeLane i).lock.granted.list = s.lock.granted.list ++ (s.lanes i).list :=
  foldl_addGranted_list _ _

lemma closeLane_queued (s : Backup n ι κ T) (i : Fin n) :
    (s.closeLane i).lock.queued.Perm (s.lock.queued ++ (s.lanes i).list) := by
  rw [Lock.queued, closeLane_granted, Lock.queued, append_assoc, append_assoc]
  exact perm_append_comm.append_left _

lemma mem_closeLane_queued : u ∈ (s.closeLane i).lock.queued ↔
    u ∈ s.lock.queued ∨ u ∈ (s.lanes i).list := by
  rw [(closeLane_queued s i).mem_iff, mem_append]

namespace Inv

lemma closeLane_fastLane (h : s.Inv road) (i : Fin n) (id : ι) :
    (s.closeLane i).fastLane id = s.fastLane id ∧ id ∉ (s.lanes i).list.map (·.id) ∨
    (s.closeLane i).fastLane id = none ∧ s.fastLane id = some i := by
  by_cases hid : id ∈ (s.lanes i).list.map (·.id)
  · obtain ⟨u, hu, rfl⟩ := mem_map.mp hid
    exact .inr ⟨if_pos hid, ((h.lane i).ticket u hu).2.1⟩
  · exact .inl ⟨if_neg hid, hid⟩

lemma closeLane_closers (h : s.Inv road) : (s.closeLane i).closers road = s.closers road := by
  unfold closers
  rw [(closeLane_queued s i).countP_eq, countP_append, Nat.add_eq_left, countP_eq_zero]
  intro u hu
  simp [((h.lane i).ticket u hu).1]

lemma closeLane_nodup (h : s.Inv road) : ((s.closeLane i).lock.queued.map (·.id)).Nodup := by
  rw [((closeLane_queued s i).map _).nodup_iff, map_append, nodup_append]
  refine ⟨h.nodup_queued, (h.lane i).nodup, fun a ha b hb => ?_⟩
  obtain ⟨u, hu, rfl⟩ := mem_map.mp ha
  obtain ⟨v, hv, rfl⟩ := mem_map.mp hb
  exact id_ne_of_fastLane (s := s) (by simp [(h.queued u hu).1, ((h.lane i).ticket v hv).2.1])

variable [DecidableEq κ]

lemma closeLane (h : s.Inv road) (hrw : s.rwlock = some (d, .close t wait k)) (hk : k < n) :
    ((s.closeLane ⟨k, hk⟩).enter d (.close t wait (k + 1))).Inv road := by
  obtain ⟨hpc, hctx, hnew, hclass, hslot⟩ := h.rwlock d _ hrw
  have hlock := hnew.2.2
  refine h.of_keeps (d := d) ?_ ?_ ?_ ?_ ?_ ?_
  · exact {
      pc := fun c hc => update_of_ne hc _ _
      held := fun u hu _ => hu
      ctxAt := fun _ _ _ hid => hid
      fastLane := fun id c _ _ => by
        rcases h.closeLane_fastLane ⟨k, hk⟩ id with heq | heq
        · exact .inl heq.1
        · refine .inr ⟨heq.1, fun e p he => ?_⟩
          rw [hrw] at he
          exact (Prod.mk.inj (Option.some.inj he)).1.symm
      queued := fun u hu => by
        rcases mem_closeLane_queued.mp hu with hu | hu
        · exact .inl hu
        · exact .inr (.inr ⟨_, hu⟩)
      slot := fun _ _ _ => rfl
      waits := fun u _ _ hw => by
        rcases hw with ⟨hs, hu⟩ | hw
        · refine .inl ⟨hs, ?_⟩
          show u ∈ (s.closeLane ⟨k, hk⟩).lock.granted.list
          rw [closeLane_granted]
          exact mem_append_left _ hu
        · exact .inr hw }
  · refine ⟨fun j => ?_, ?_, fun u hu => ?_, h.closeLane_nodup, fun u hu => ?_⟩
    · have hcount := h.count j
      have hpend : s.pending j = if j < k then 1 else 0 := by simp only [pending, hrw]
      have hclosers : ((s.closeLane ⟨k, hk⟩).enter d (.close t wait (k + 1))).closers road =
        s.closers road := h.closeLane_closers
      rw [hpend] at hcount
      rw [hclosers]
      show ((update s.lanes ⟨k, hk⟩ _ j).closeCount : Int) =
        s.closers road + if j < k + 1 then 1 else 0
      by_cases hjk : j = ⟨k, hk⟩
      · subst hjk
        rw [update_self, Lane.close]
        simp only [lt_irrefl, if_false, Nat.lt_succ_self, if_true] at hcount ⊢
        omega
      · have hne : (j : Nat) ≠ k := fun he => hjk (Fin.ext he)
        rw [update_of_ne hjk]
        split_ifs at hcount ⊢ <;> omega
    · refine (forall_update_iff s.lanes (p := LaneOk road _ _)).mpr
        ⟨⟨fun _ => rfl, fun u hu => by simp [Lane.close] at hu, by simp [Lane.close]⟩,
          fun j hjk => ⟨(h.lane j).closed, fun u hu => ?_, (h.lane j).nodup⟩⟩
      have hu' := (h.lane j).ticket u hu
      refine ⟨hu'.1, ?_, hu'.2.2⟩
      rcases h.closeLane_fastLane ⟨k, hk⟩ u.id with heq | heq
      · exact heq.1.trans hu'.2.1
      · exact absurd (Option.some.inj (hu'.2.1.symm.trans heq.2)) hjk
    · rcases mem_closeLane_queued.mp hu with hu | hu
      · refine ⟨?_, (h.queued u hu).2⟩
        rcases h.closeLane_fastLane ⟨k, hk⟩ u.id with heq | heq
        · exact heq.1.trans (h.queued u hu).1
        · exact heq.1
      · exact ⟨if_pos (mem_map.mpr ⟨u, hu, rfl⟩), ((h.lane _).ticket u hu).2.2⟩
    · rcases h.closeLane_fastLane ⟨k, hk⟩ u.id with heq | heq
      · refine (h.held u hu).of_update heq.1 rfl
          (fun hj => absurd (mem_map.mpr ⟨u, hj, rfl⟩) heq.2) fun hg => ?_
        show u ∈ (s.closeLane ⟨k, hk⟩).lock.granted.list
        rw [closeLane_granted]
        exact mem_append_left _ hg
      · show At (s.closeLane ⟨k, hk⟩) u
        unfold At
        rw [heq.1, closeLane_granted]
        exact mem_append_right _ (h.mem_lane hu heq.2)
  · exact fun u hu => .inl ⟨h.waiting_ctx_ne (by simp [hpc]) u hu, hu⟩
  · show PcOk road _ d (update s.pc d .locked d)
    rw [update_self]
    trivial
  · intro p hp
    obtain rfl := (Prod.mk.inj (Option.some.inj hp)).2
    refine ⟨update_self _ _ _, hctx, ⟨hnew.1, ?_, fun u hu => ?_⟩, hclass, hslot⟩
    · rcases h.closeLane_fastLane ⟨k, hk⟩ t.id with heq | heq
      · exact heq.1.trans hnew.2.1
      · exact heq.1
    · rcases mem_closeLane_queued.mp hu with hu | hu
      · exact hlock u hu
      · exact id_ne_of_fastLane (s := s)
          (by simp [((h.lane _).ticket u hu).2.1, hnew.2.1])
  · intro c p hc hp
    exact absurd (Prod.mk.inj (Option.some.inj hp)).1.symm hc

omit [DecidableEq ι] in
/-- `Lane::reopen` for the lane `k`; the phase says what is still to be reopened. -/
lemma reopenLane (h : s.Inv road) (hk : k < n) (hrw : s.rwlock = some (d, p))
    (hpos : 0 < (s.lanes ⟨k, hk⟩).closeCount) (hq : s.PhaseOk road d q)
    (hself : pending { s with rwlock := some (d, q) } ⟨k, hk⟩ = s.pending ⟨k, hk⟩ - 1)
    (hother : ∀ j, j ≠ ⟨k, hk⟩ → pending { s with rwlock := some (d, q) } j = s.pending j) :
    ((s.reopenLane ⟨k, hk⟩).enter d q).Inv road := by
  have hpc := (h.rwlock d p hrw).1
  refine h.of_keeps (d := d) ?_ ?_ ?_ ?_ ?_ ?_
  · exact .of_lock rfl (fun _ _ => rfl) (fun c hc => update_of_ne hc _ _) (fun _ hu _ => hu)
      (fun _ _ _ hid => hid) fun _ _ _ => rfl
  · refine ⟨fun j => ?_, ?_, h.queued, h.nodup_queued, fun u hu => ?_⟩
    · have hcount := h.count j
      have hpend : ((s.reopenLane ⟨k, hk⟩).enter d q).pending j =
        pending { s with rwlock := some (d, q) } j := rfl
      rw [hpend]
      by_cases hjk : j = ⟨k, hk⟩
      · subst hjk
        rw [hself]
        show ((update s.lanes _ _ _ : Lane ι κ T).closeCount : Int) = s.closers road + _
        rw [update_self]
        simp only [Lane.reopen]
        omega
      · rw [hother j hjk]
        show ((update s.lanes _ _ _ : Lane ι κ T).closeCount : Int) = s.closers road + _
        rwa [update_of_ne hjk]
    · have hlane := h.lane ⟨k, hk⟩
      exact (forall_update_iff s.lanes (p := LaneOk road _ _)).mpr
        ⟨⟨fun _ => hlane.closed hpos, hlane.ticket, hlane.nodup⟩, fun j _ => h.lane j⟩
    · exact (h.held u hu).of_update rfl rfl id id
  · exact fun u hu => .inl ⟨h.waiting_ctx_ne (by simp [hpc]) u hu, hu⟩
  · show PcOk road _ d (update s.pc d .locked d)
    rw [update_self]
    trivial
  · intro p hp
    obtain rfl := (Prod.mk.inj (Option.some.inj hp)).2
    exact ⟨update_self _ _ _, hq⟩
  · intro c p hc hp
    exact absurd (Prod.mk.inj (Option.some.inj hp)).1.symm hc

end Inv

end Closing

end Backup

end MariaDB.Mdl
