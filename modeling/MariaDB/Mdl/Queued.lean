import MariaDB.Mdl.Reschedule

/-!
# The tickets in the queues of a lock

Which tickets are in the two lists of a lock, whatever their order: what one operation
adds, takes away or moves from the waiting to the granted list.
-/
namespace MariaDB.Mdl

open List TicketList

variable {ι κ T : Type*}

/-- Addresses in the list are distinct: taking one out takes out one ticket. -/
lemma perm_cons_filter_id [DecidableEq ι] {l : List (Ticket ι κ T)} (hl : (l.map (·.id)).Nodup)
    (ht : t ∈ l) : (t :: l.filter (·.id ≠ t.id)).Perm l := by
  obtain ⟨l₁, l₂, rfl⟩ := append_of_mem ht
  rw [map_append, map_cons, nodup_middle, nodup_cons] at hl
  have hfilter : (l₁ ++ l₂).filter (·.id ≠ t.id) = l₁ ++ l₂ := by
    rw [filter_eq_self]
    intro u hu
    simp only [ne_eq, decide_eq_true_eq]
    intro hid
    apply hl.1
    rw [← map_append]
    exact mem_map.mpr ⟨u, hu, hid⟩
  have heq : (l₁ ++ t :: l₂).filter (·.id ≠ t.id) = l₁ ++ l₂ := by
    rw [← hfilter]
    simp
  rw [heq]
  exact perm_middle.symm

/-- With distinct addresses the address tells which ticket it is. -/
lemma eq_of_id_eq {l : List (Ticket ι κ T)} (hl : (l.map (·.id)).Nodup) (ht : t ∈ l) (hu : u ∈ l)
    (hid : t.id = u.id) : t = u :=
  inj_on_of_nodup_map hl ht hu hid

namespace Lock

def queued (l : Lock ι κ T) : List (Ticket ι κ T) := l.granted.list ++ l.waiting.list

lemma mem_queued {l : Lock ι κ T} : t ∈ l.queued ↔ t ∈ l.granted.list ∨ t ∈ l.waiting.list :=
  mem_append

/-- What `reschedule_waiters` may do: tickets move from the waiting to the granted list,
and the slots of their contexts are set. -/
structure Rescheduled (r r' : Lock ι κ T × (κ → WaitStatus)) : Prop where
  perm : r'.1.queued.Perm r.1.queued
  granted : ∀ t ∈ r.1.granted.list, t ∈ r'.1.granted.list
  waiting_sub : ∀ t ∈ r'.1.waiting.list, t ∈ r.1.waiting.list
  waiting : ∀ t ∈ r.1.waiting.list, t ∈ r'.1.waiting.list ∨
    t ∈ r'.1.granted.list ∧ r'.2 t.ctx = .granted
  slot : ∀ c, r'.2 c = r.2 c ∨ r.2 c = .empty ∧ r'.2 c = .granted ∧
    ∃ t ∈ r.1.waiting.list, t.ctx = c ∧ t ∈ r'.1.granted.list

namespace Rescheduled

lemma refl (r : Lock ι κ T × (κ → WaitStatus)) : Rescheduled r r where
  perm := .refl _
  granted _ h := h
  waiting_sub _ h := h
  waiting _ h := .inl h
  slot _ := .inl rfl

lemma trans (h₁ : Rescheduled r₁ r₂) (h₂ : Rescheduled r₂ r₃) : Rescheduled r₁ r₃ where
  perm := h₂.perm.trans h₁.perm
  granted t h := h₂.granted t (h₁.granted t h)
  waiting_sub t h := h₁.waiting_sub t (h₂.waiting_sub t h)
  waiting t h := by
    rcases h₁.waiting t h with hw | ⟨hg, hslot⟩
    · exact h₂.waiting t hw
    · refine .inr ⟨h₂.granted t hg, ?_⟩
      rcases h₂.slot t.ctx with heq | ⟨hempty, -⟩
      · rw [heq, hslot]
      · simp [hslot] at hempty
  slot c := by
    rcases h₁.slot c with heq₁ | ⟨hempty, hset, t, ht, hctx, htg⟩
    · rcases h₂.slot c with heq₂ | ⟨hempty, hset, t, ht, hctx, htg⟩
      · exact .inl (heq₂.trans heq₁)
      · exact .inr ⟨heq₁ ▸ hempty, hset, t, h₁.waiting_sub t ht, hctx, htg⟩
    · rcases h₂.slot c with heq₂ | ⟨hempty₂, -⟩
      · exact .inr ⟨hempty, heq₂ ▸ hset, t, ht, hctx, h₂.granted t htg⟩
      · simp [hset] at hempty₂

lemma nodup_waiting {r r' : Lock ι κ T × (κ → WaitStatus)} (h : Rescheduled r r')
    (hnodup : (r.1.queued.map (·.id)).Nodup) : (r'.1.waiting.list.map (·.id)).Nodup := by
  have := (h.perm.map (·.id)).nodup_iff.mpr hnodup
  rw [queued, map_append] at this
  exact this.of_append_right

end Rescheduled

variable [DecidableEq T] [DecidableEq ι] {l : Lock ι κ T} {slot : κ → WaitStatus} {t : Ticket ι κ T}
  {u : Ticket ι κ T} {which : Which}

attribute [local simp] TicketList.uncount TicketList.unlink dequeue queued

lemma queued_dequeue (l : Lock ι κ T) (which : Which) (t : Ticket ι κ T) :
    (l.dequeue which t).queued = l.queued.filter (·.id ≠ t.id) := by
  cases which <;>
    simp

lemma mem_dequeue_granted :
    u ∈ (l.dequeue which t).granted.list ↔ u ∈ l.granted.list ∧ u.id ≠ t.id := by
  cases which <;> simp

lemma mem_dequeue_waiting :
    u ∈ (l.dequeue which t).waiting.list ↔ u ∈ l.waiting.list ∧ u.id ≠ t.id := by
  cases which <;> simp

lemma queued_changeType (hnodup : (l.queued.map (·.id)).Nodup) (ht : t ∈ l.granted.list)
    (type : T) :
    ∃ ts, l.queued.Perm (t :: ts) ∧ (l.changeType t type).queued.Perm ({ t with type } :: ts) := by
  rw [queued, map_append] at hnodup
  have hperm := perm_cons_filter_id hnodup.of_append_left ht
  refine ⟨l.granted.list.filter (·.id ≠ t.id) ++ l.waiting.list, ?_, ?_⟩
  · exact (hperm.symm.append_right _)
  · have : (l.changeType t type).queued =
        l.granted.list.filter (·.id ≠ t.id) ++ ({ t with type } :: l.waiting.list) := by
      simp [changeType, TicketList.addGranted, TicketList.addTicket, TicketList.count,
        TicketList.removeTicket]
    rw [this]
    exact perm_middle

lemma mem_changeType_granted : u ∈ (l.changeType t type).granted.list ↔
      u ∈ l.granted.list ∧ u.id ≠ t.id ∨ u = { t with type } := by
  simp [changeType]

variable [DecidableEq κ] {st : Strategy T} {env : Env κ}

lemma grant_rescheduled (hnodup : (l.waiting.list.map (·.id)).Nodup) (ht : t ∈ l.waiting.list)
    (hslot : slot t.ctx = .empty) :
    Rescheduled (l, slot) (l.grant st t, Function.update slot t.ctx .granted) where
  perm := by
    have hw := perm_cons_filter_id hnodup ht
    have : (l.grant st t).queued =
        l.granted.list ++ (t :: l.waiting.list.filter (·.id ≠ t.id)) := by
      simp [grant, TicketList.addGranted, TicketList.addTicket, TicketList.count,
        TicketList.removeTicket]
    rw [this]
    exact hw.append_left _
  granted u hu := mem_addGranted.mpr (.inl hu)
  waiting_sub u hu := (mem_removeTicket.mp hu).1
  waiting u hu := by
    by_cases hid : u.id = t.id
    · obtain rfl := eq_of_id_eq hnodup hu ht hid
      exact .inr ⟨mem_addGranted.mpr (.inr rfl), Function.update_self _ _ _⟩
    · exact .inl (mem_removeTicket.mpr ⟨hu, hid⟩)
  slot c := by
    by_cases hc : c = t.ctx
    · subst hc
      exact .inr ⟨hslot, Function.update_self _ _ _, t, ht, rfl, mem_addGranted.mpr (.inr rfl)⟩
    · exact .inl (Function.update_of_ne hc _ _)

lemma foldl_rescheduled {skip : Bool} (ts : List (Ticket ι κ T))
    {r : Lock ι κ T × (κ → WaitStatus)} (hnodup : (r.1.queued.map (·.id)).Nodup)
    (hts : ∀ t ∈ ts, t ∈ r.1.waiting.list) (hts' : (ts.map (·.id)).Nodup) :
    Rescheduled r (ts.foldl (rescheduleOne st env skip) r) := by
  induction ts generalizing r with
  | nil => exact .refl r
  | cons t ts ih =>
    have ht : t ∈ r.1.waiting.list := hts t mem_cons_self
    rw [map_cons, nodup_cons] at hts'
    have hone : Rescheduled r (rescheduleOne st env skip r t) ∧
        ∀ u ∈ ts, u ∈ (rescheduleOne st env skip r t).1.waiting.list := by
      unfold rescheduleOne
      split_ifs with hskip hgrant
      · exact ⟨.refl r, fun u hu => hts u (mem_cons_of_mem _ hu)⟩
      · rw [Bool.and_eq_true, decide_eq_true_eq] at hgrant
        refine ⟨grant_rescheduled ((Rescheduled.refl r).nodup_waiting hnodup) ht hgrant.2,
          fun u hu => mem_removeTicket.mpr ⟨hts u (mem_cons_of_mem _ hu), fun hid => hts'.1 ?_⟩⟩
        exact mem_map.mpr ⟨u, hu, hid⟩
      · exact ⟨.refl r, fun u hu => hts u (mem_cons_of_mem _ hu)⟩
    have hnodup' := (hone.1.perm.map (·.id)).nodup_iff.mpr hnodup
    exact hone.1.trans (ih hnodup' hone.2 hts'.2)

lemma rescheduleWaiters_rescheduled (slot : κ → WaitStatus) (hnodup : (l.queued.map (·.id)).Nodup) :
    Rescheduled (l, slot) (l.rescheduleWaiters st env slot) := by
  have hfold : Rescheduled (l, slot)
      (l.waiting.list.foldl (rescheduleOne st env (l.skipHighPriority st env)) (l, slot)) :=
    foldl_rescheduled l.waiting.list hnodup (fun _ h => h)
      ((Rescheduled.refl (l, slot)).nodup_waiting hnodup)
  unfold rescheduleWaiters
  dsimp only
  split_ifs
  · exact { hfold with }
  · exact hfold

/-! ### The operations -/

/-- `remove_ticket` takes the ticket out of the queues and reschedules the others. -/
lemma removeTicket_rescheduled (hnodup : (l.queued.map (·.id)).Nodup) (which : Which) :
    Rescheduled (l.dequeue which t, slot) (l.removeTicket st env slot which t) := by
  have hnodup' : ((l.dequeue which t).queued.map (·.id)).Nodup := by
    rw [queued_dequeue]
    exact hnodup.sublist (filter_sublist.map _)
  unfold removeTicket
  dsimp only
  split_ifs
  · exact ⟨.refl _, fun _ h => h, fun _ h => h, fun _ h => .inl h, fun _ => .inl rfl⟩
  · exact rescheduleWaiters_rescheduled slot hnodup'

omit [DecidableEq ι] in
lemma tryAcquireLock_cases (st : Strategy T) (env : Env κ) (l : Lock ι κ T) (t : Ticket ι κ T)
    (wait : Bool) :
    (∃ l', l.tryAcquireLock st env t wait = (l', .acquired) ∧
      l'.granted.list = l.granted.list ++ [t] ∧ l'.waiting.list = l.waiting.list) ∨
    (∃ l', l.tryAcquireLock st env t wait = (l', .wait) ∧ wait = true ∧
      l'.granted.list = l.granted.list ∧ l'.waiting.list.Perm (t :: l.waiting.list)) ∨
    l.tryAcquireLock st env t wait = (l, .nowait) ∨
    l.tryAcquireLock st env t wait = (l, .error) := by
  unfold tryAcquireLock
  split_ifs with hd hgrant hwait
  · exact .inr (.inr (.inr rfl))
  · exact .inl ⟨_, rfl, rfl, rfl⟩
  · refine .inr (.inl ⟨_, rfl, hwait, rfl, ?_⟩)
    simp only [TicketList.addTicket, TicketList.count]
    split_ifs
    · have hsplit : l.waiting.list.takeWhile (fun u => env.isBF u.ctx) ++
          l.waiting.list.dropWhile (fun u => env.isBF u.ctx) = l.waiting.list :=
        takeWhile_append_dropWhile
      exact perm_middle.trans (by rw [hsplit])
    · exact perm_append_singleton _ _
  · exact .inr (.inr (.inl rfl))

end Lock

end MariaDB.Mdl
