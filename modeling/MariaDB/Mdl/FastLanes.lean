import MariaDB.Mdl.FastRoad
import MariaDB.Mdl.Queued

/-!
# The invariant of the fast lanes

What holds of the backup lock between any two critical sections. `pending` is what the
session that has `m_rwlock` owes to a lane: one more than the registered requests while
it has closed the lane and not yet registered its own, or has taken its request out and
not yet reopened the lane; one less while `upgrade` has reopened it for a ticket that is
still in `m_granted`.
-/
namespace MariaDB.Mdl

open Library

variable {n : Nat} {ι κ T : Type*}

namespace Backup

def pending (s : Backup n ι κ T) (i : Fin n) : Int :=
  match s.rwlock with
  | none => 0
  | some (_, .close _ _ k) => if i < k then 1 else 0
  | some (_, .reopen k) => if k ≤ i then 1 else 0
  | some (_, .upgrade _ _ _ k) => if i < k then -1 else 0
  | some (_, .upgradeLane _ _ _ _) => 0

/-- The ticket is where its `m_fast_lane` says. -/
def At (s : Backup n ι κ T) (t : Ticket ι κ T) : Prop :=
  match s.fastLane t.id with
  | some i => t ∈ (s.lanes i).list
  | none => t ∈ s.lock.granted.list

def New (s : Backup n ι κ T) (t : Ticket ι κ T) : Prop :=
  s.ctxAt t.id = some t.ctx ∧ s.fastLane t.id = none ∧ ∀ u ∈ s.lock.queued, u.id ≠ t.id

def WaitsOk (s : Backup n ι κ T) (t : Ticket ι κ T) : Prop :=
  s.slot t.ctx = .granted ∧ t ∈ s.lock.granted.list ∨
  s.slot t.ctx ≠ .granted ∧ t ∈ s.lock.waiting.list

def Owns (s : Backup n ι κ T) (c : κ) (t : Ticket ι κ T) : Prop := t ∈ s.held ∧ t.ctx = c

/-- Fast lane types change into fast lane types and others into others. -/
def SameClass (road : Road n κ T) (a b : T) : Prop :=
  a ∈ road.supportedTypes ↔ b ∈ road.supportedTypes

def PcOk (road : Road n κ T) (s : Backup n ι κ T) (c : κ) : Pc n ι κ T → Prop
  | .idle | .locked => True
  | .acquire t wait => t.ctx = c ∧ s.New t ∧ (wait = true → s.slot c = .empty)
  | .release t i => s.Owns c t ∧ (s.fastLane t.id = some i ∨ s.fastLane t.id = none)
  | .remove t => s.Owns c t ∧ s.fastLane t.id = none
  | .changeType t type i _ =>
    s.Owns c t ∧ (s.fastLane t.id = some i ∨ s.fastLane t.id = none) ∧ SameClass road t.type type
  | .downgrade t type => s.Owns c t ∧ s.fastLane t.id = none ∧ SameClass road t.type type
  | .waits t => t.ctx = c ∧ s.WaitsOk t

def PhaseOk (road : Road n κ T) (s : Backup n ι κ T) (c : κ) : Phase n ι κ T → Prop
  | .close t wait _ =>
    t.ctx = c ∧ s.New t ∧ t.type ∉ road.supportedTypes ∧ (wait = true → s.slot c = .empty)
  | .reopen _ => True
  | .upgrade t type u _ =>
    (s.Owns c t ∧ s.fastLane t.id = none) ∧ (s.Owns c u ∧ s.fastLane u.id = none) ∧
      u.id ≠ t.id ∧ t.type ∉ road.supportedTypes ∧ u.type ∉ road.supportedTypes ∧
      SameClass road t.type type
  | .upgradeLane t type u i =>
    (s.Owns c t ∧ s.fastLane t.id = none) ∧ (s.Owns c u ∧ s.fastLane u.id = some i) ∧
      u.id ≠ t.id ∧ SameClass road t.type type

structure LaneOk (road : Road n κ T) (fastLane : ι → Option (Fin n)) (ctxAt : ι → Option κ)
    (i : Fin n) (l : Lane ι κ T) : Prop where
  closed : 0 < l.closeCount → l.list = []
  ticket : ∀ t ∈ l.list,
    t.type ∈ road.supportedTypes ∧ fastLane t.id = some i ∧ ctxAt t.id = some t.ctx
  nodup : (l.list.map (·.id)).Nodup

variable [DecidableEq T]

def closers (road : Road n κ T) (s : Backup n ι κ T) : Nat :=
  s.lock.queued.countP (·.type ∉ road.supportedTypes)

structure Registered (road : Road n κ T) (s : Backup n ι κ T) : Prop where
  count : ∀ i, ((s.lanes i).closeCount : Int) = s.closers road + s.pending i
  lane : ∀ i, LaneOk road s.fastLane s.ctxAt i (s.lanes i)
  queued : ∀ t ∈ s.lock.queued, s.fastLane t.id = none ∧ s.ctxAt t.id = some t.ctx
  nodup_queued : (s.lock.queued.map (·.id)).Nodup
  held : ∀ t ∈ s.held, s.At t

structure Inv (road : Road n κ T) (s : Backup n ι κ T) : Prop extends Registered road s where
  waiting : ∀ t ∈ s.lock.waiting.list, s.pc t.ctx = .waits t
  pc : ∀ c, s.PcOk road c (s.pc c)
  rwlock : ∀ c p, s.rwlock = some (c, p) → s.pc c = .locked ∧ s.PhaseOk road c p

variable {road : Road n κ T} {s s' : Backup n ι κ T}

attribute [local simp] Backup.init TicketList.empty Lock.init Lock.queued

lemma Inv.init : (init : Backup n ι κ T).Inv road where
  count i := by simp [closers, pending]
  lane i := ⟨fun _ => rfl, fun t h => by simp at h, by simp⟩
  queued t h := by simp at h
  nodup_queued := by simp
  held t h := by simp at h
  waiting t h := by simp at h
  pc c := trivial
  rwlock c p h := by simp at h

namespace Inv

variable (h : s.Inv road) {t : Ticket ι κ T} (ht : t ∈ s.held)
include h ht

lemma held_ctxAt : s.ctxAt t.id = some t.ctx := by
  have hat := h.held t ht
  unfold At at hat
  split at hat
  · exact ((h.lane _).ticket t hat).2.2
  · exact (h.queued t (Lock.mem_queued.mpr (.inl hat))).2

lemma mem_granted (hlane : s.fastLane t.id = none) : t ∈ s.lock.granted.list := by
  have hat := h.held t ht
  unfold At at hat
  rwa [hlane] at hat

lemma mem_lane (hlane : s.fastLane t.id = some i) : t ∈ (s.lanes i).list := by
  have hat := h.held t ht
  unfold At at hat
  rwa [hlane] at hat

lemma held_eq_of_id (hu : u ∈ s.held) (hid : t.id = u.id) : t = u := by
  have hat := h.held t ht
  have hau := h.held u hu
  unfold At at hat hau
  rw [← hid] at hau
  split at hat
  · next i heq =>
    rw [heq] at hau
    exact eq_of_id_eq (h.lane i).nodup hat hau hid
  · next heq =>
    rw [heq] at hau
    exact eq_of_id_eq h.nodup_queued (Lock.mem_queued.mpr (.inl hat))
      (Lock.mem_queued.mpr (.inl hau)) hid

end Inv

/-- What a step of the session `d` leaves to the others. -/
structure Keeps (d : κ) (s s' : Backup n ι κ T) : Prop where
  pc : ∀ c, c ≠ d → s'.pc c = s.pc c
  held : ∀ t ∈ s.held, t.ctx ≠ d → t ∈ s'.held
  ctxAt : ∀ id c, c ≠ d → s.ctxAt id = some c → s'.ctxAt id = some c
  fastLane : ∀ id c, c ≠ d → s.ctxAt id = some c →
    s'.fastLane id = s.fastLane id ∨ s'.fastLane id = none ∧ ∀ e p, s.rwlock = some (e, p) → e = d
  queued : ∀ t ∈ s'.lock.queued, t ∈ s.lock.queued ∨ t.ctx = d ∨ ∃ i, t ∈ (s.lanes i).list
  slot : ∀ c, c ≠ d → (∀ t, s.pc c ≠ .waits t) → s'.slot c = s.slot c
  waits : ∀ t : Ticket ι κ T, t.ctx ≠ d → s.pc t.ctx = .waits t → s.WaitsOk t → s'.WaitsOk t

namespace Keeps

variable {d c : κ}

omit [DecidableEq T] in
lemma owns (hk : Keeps d s s') (hc : c ≠ d) (h : s.Owns c t) : s'.Owns c t :=
  ⟨hk.held t h.1 (h.2 ▸ hc), h.2⟩

omit [DecidableEq T] in
lemma fastLane_none (hk : Keeps d s s') (hc : c ≠ d) {id : ι} (hctx : s.ctxAt id = some c)
    (h : s.fastLane id = none) : s'.fastLane id = none := by
  rcases hk.fastLane id c hc hctx with heq | ⟨heq, -⟩
  · rw [heq, h]
  · exact heq

omit [DecidableEq T] in
lemma fastLane_or (hk : Keeps d s s') (hc : c ≠ d) {id : ι} (hctx : s.ctxAt id = some c)
    {i : Fin n} (h : s.fastLane id = some i ∨ s.fastLane id = none) :
    s'.fastLane id = some i ∨ s'.fastLane id = none := by
  rcases hk.fastLane id c hc hctx with heq | ⟨heq, -⟩
  · rwa [heq]
  · exact .inr heq

section

variable (hk : Keeps d s s') (h : s.Inv road)
  (hq : ∀ t ∈ s'.lock.queued, s'.ctxAt t.id = some t.ctx)
include hk h hq

lemma new {t : Ticket ι κ T} (hc : t.ctx ≠ d) (hnew : s.New t) : s'.New t := by
  obtain ⟨hctx, hlane, hnot⟩ := hnew
  refine ⟨hk.ctxAt _ _ hc hctx, hk.fastLane_none hc hctx hlane, fun u hu hid => ?_⟩
  rcases hk.queued u hu with hu' | hu' | ⟨i, hu'⟩
  · exact hnot u hu' hid
  · have := hq u hu
    rw [hid, hk.ctxAt _ _ hc hctx] at this
    exact hc ((Option.some.inj this).trans hu')
  · have := ((h.lane i).ticket u hu').2.1
    rw [hid, hlane] at this
    simp at this

/-- The facts about another session at its point of control are kept. -/
lemma pcOk (hc : c ≠ d) : s'.PcOk road c (s'.pc c) := by
  have hpc := h.pc c
  rw [hk.pc c hc]
  have hown {t : Ticket ι κ T} (ht : s.Owns c t) : s.ctxAt t.id = some c := ht.2 ▸ h.held_ctxAt ht.1
  generalize hcase : s.pc c = p at hpc
  cases p with
  | idle | locked => trivial
  | acquire =>
    refine ⟨hpc.1, hk.new h hq (hpc.1 ▸ hc) hpc.2.1, fun hwait => ?_⟩
    rw [hk.slot c hc (by simp [hcase])]
    exact hpc.2.2 hwait
  | release =>
    exact ⟨hk.owns hc hpc.1, hk.fastLane_or hc (hown hpc.1) hpc.2⟩
  | remove =>
    exact ⟨hk.owns hc hpc.1, hk.fastLane_none hc (hown hpc.1) hpc.2⟩
  | changeType =>
    exact ⟨hk.owns hc hpc.1, hk.fastLane_or hc (hown hpc.1) hpc.2.1, hpc.2.2⟩
  | downgrade =>
    exact ⟨hk.owns hc hpc.1, hk.fastLane_none hc (hown hpc.1) hpc.2.1, hpc.2.2⟩
  | waits t =>
    obtain ⟨rfl, hwaits⟩ := hpc
    exact ⟨rfl, hk.waits t hc hcase hwaits⟩

/-- So are the facts about another session that has `m_rwlock`. -/
lemma phaseOk (hc : c ≠ d) (hp : s.rwlock = some (c, p)) : s'.PhaseOk road c p := by
  have hphase := (h.rwlock c p hp).2
  have hown {t : Ticket ι κ T} (ht : s.Owns c t) : s.ctxAt t.id = some c := ht.2 ▸ h.held_ctxAt ht.1
  have hlane {t : Ticket ι κ T} (ht : s.Owns c t) : s'.fastLane t.id = s.fastLane t.id := by
    rcases hk.fastLane t.id c hc (hown ht) with heq | ⟨-, heq⟩
    · exact heq
    · exact absurd (heq c p hp) hc
  cases p with
  | close =>
    obtain ⟨hctx, hnew, hclass, hslot⟩ := hphase
    refine ⟨hctx, hk.new h hq (hctx ▸ hc) hnew, hclass, fun hwait => ?_⟩
    rw [hk.slot c hc (by simp [(h.rwlock c _ hp).1])]
    exact hslot hwait
  | reopen => trivial
  | upgrade | upgradeLane =>
    obtain ⟨⟨ht, htl⟩, ⟨hu, hul⟩, hrest⟩ := hphase
    exact ⟨⟨hk.owns hc ht, (hlane ht).trans htl⟩, ⟨hk.owns hc hu, (hlane hu).trans hul⟩, hrest⟩

end

end Keeps

/-- A step of one session, from what it does to the tickets and to its own control. -/
lemma Inv.of_keeps (h : s.Inv road) (hk : Keeps d s s') (hreg : s'.Registered road)
    (hwaiting : ∀ t ∈ s'.lock.waiting.list,
      t.ctx ≠ d ∧ t ∈ s.lock.waiting.list ∨ t.ctx = d ∧ s'.pc d = .waits t)
    (hpc : s'.PcOk road d (s'.pc d))
    (hrw : ∀ p, s'.rwlock = some (d, p) → s'.pc d = .locked ∧ s'.PhaseOk road d p)
    (hrw' : ∀ c p, c ≠ d → s'.rwlock = some (c, p) → s.rwlock = some (c, p)) :
    s'.Inv road where
  toRegistered := hreg
  waiting t ht := by
    rcases hwaiting t ht with ⟨hc, ht'⟩ | ⟨hc, hpc'⟩
    · rw [hk.pc _ hc]
      exact h.waiting t ht'
    · rwa [hc]
  pc c := by
    by_cases hc : c = d
    · rwa [hc]
    · exact hk.pcOk h (fun t ht => (hreg.queued t ht).2) hc
  rwlock c p hp := by
    by_cases hc : c = d
    · subst hc
      exact hrw p hp
    · have hp' := hrw' c p hc hp
      exact ⟨(hk.pc c hc).trans (h.rwlock c p hp').1,
        hk.phaseOk h (fun t ht => (hreg.queued t ht).2) hc hp'⟩

namespace Inv

lemma waiting_ctx_ne (h : s.Inv road) (hd : ∀ t, s.pc d ≠ .waits t) :
    ∀ t ∈ s.lock.waiting.list, t.ctx ≠ d := by
  rintro t ht rfl
  exact hd t (h.waiting t ht)

lemma rwlock_ne (h : s.Inv road) (hd : s.pc d ≠ .locked) (p : Phase n ι κ T) :
    s.rwlock ≠ some (d, p) := fun hp => hd (h.rwlock d p hp).1

variable [DecidableEq κ]

lemma control (h : s.Inv road) (hd : ∀ t ∈ s.lock.waiting.list, t.ctx ≠ d)
    (hpending : ∀ i, pending { s with rwlock := w } i = s.pending i) (hpc : s.PcOk road d p)
    (hrw : ∀ q, w = some (d, q) → p = .locked ∧ s.PhaseOk road d q)
    (hrw' : ∀ c q, c ≠ d → w = some (c, q) → s.rwlock = some (c, q)) :
    Inv road { s with pc := Function.update s.pc d p, rwlock := w } := by
  refine h.of_keeps (d := d) ?_ ?_ ?_ ?_ ?_ hrw'
  · exact {
      pc := fun c hc => Function.update_of_ne hc _ _
      held := fun t ht _ => ht
      ctxAt := fun _ _ _ hid => hid
      fastLane := fun _ _ _ _ => .inl rfl
      queued := fun t ht => .inl ht
      slot := fun _ _ _ => rfl
      waits := fun t _ _ ht => ht }
  · exact { h.toRegistered with
      count := fun i => (h.count i).trans (congrArg _ (hpending i).symm) }
  · exact fun t ht => .inl ⟨hd t ht, ht⟩
  · dsimp only
    rwa [Function.update_self]
  · dsimp only
    rwa [Function.update_self]

lemma setPc (h : s.Inv road) (hd : (∀ t, s.pc d ≠ .waits t) ∧ s.pc d ≠ .locked)
    (hpc : s.PcOk road d p) : (s.setPc d p).Inv road :=
  h.control (h.waiting_ctx_ne hd.1) (fun _ => rfl) hpc
    (fun q hq => absurd hq (h.rwlock_ne hd.2 q)) (fun _ _ _ hq => hq)

end Inv

end Backup

end MariaDB.Mdl
