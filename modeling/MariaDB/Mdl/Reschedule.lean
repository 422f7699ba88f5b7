import MariaDB.Mdl.Lock

/-!
# What one pass over the waiting list does

The granted list stays consistent: its counters never undercount, its bitmap holds every
type in it, and tickets of different contexts are compatible. One pass of
`reschedule_waiters` is enough: a ticket it passed by stays blocked, because what is
granted after it either leaves the obstacle where it was or becomes one itself.
-/
namespace MariaDB.Mdl

open List Function

variable {ι κ T : Type*}

namespace TicketList

section Consistent

variable [DecidableEq T]

/-- What the granted list of a lock satisfies. A counter may exceed the number of
tickets: a ticket that is taken out by `abort_wait` stays counted. -/
structure Consistent (st : Strategy T) (l : TicketList ι κ T) : Prop where
  countP_le : ∀ a, (l.list.countP (·.type = a) : Int) ≤ l.typeCounters a
  mem_bitmap : ∀ a, 0 < l.typeCounters a → a ∈ l.bitmap
  compatible : ∀ t ∈ l.list, ∀ u ∈ l.list, t.ctx ≠ u.ctx → t.type ∉ st.grantedIncompatible u.type

attribute [local simp] TicketList.addGranted addTicket TicketList.empty count uncount

@[simp]
lemma mem_addGranted {l : TicketList ι κ T} : u ∈ (l.addGranted t).list ↔ u ∈ l.list ∨ u = t := by
  simp [addGranted]

lemma mem_uncount_bitmap {l : TicketList ι κ T} (ha : a ∈ l.bitmap) (hne : a ≠ type) :
    a ∈ (l.uncount type).bitmap := by
  unfold uncount
  dsimp only
  split_ifs
  · exact Finset.mem_erase.mpr ⟨hne, ha⟩
  · exact ha

namespace Consistent

variable {st : Strategy T} {l : TicketList ι κ T}

protected theorem empty : (TicketList.empty : TicketList ι κ T).Consistent st where
  countP_le a := by simp
  mem_bitmap a h := by simp at h
  compatible t h := by simp at h

lemma type_mem_bitmap (h : l.Consistent st) (ht : t ∈ l.list) : t.type ∈ l.bitmap := by
  apply h.mem_bitmap
  have hpos : 0 < l.list.countP (·.type = t.type) := countP_pos_iff.mpr ⟨t, ht, by simp⟩
  have := h.countP_le t.type
  omega

lemma addGranted (h : l.Consistent st) (hst : st.Symmetric) {t : Ticket ι κ T}
    (ht : ∀ u ∈ l.list, u.ctx ≠ t.ctx → u.type ∉ st.grantedIncompatible t.type) :
    (l.addGranted t).Consistent st where
  countP_le a := by
    have ha := h.countP_le a
    by_cases hta : t.type = a
    · subst hta
      simpa using ha
    · simpa [hta, update_of_ne (Ne.symm hta)]
        using ha
  mem_bitmap a ha := by
    by_cases hta : a = t.type
    · simp [hta]
    · have : 0 < l.typeCounters a := by simpa [hta] using ha
      simp [h.mem_bitmap a this]
  compatible u hu v hv hne := by
    rw [mem_addGranted] at hu hv
    rcases hu with hu | rfl <;> rcases hv with hv | rfl
    · exact h.compatible u hu v hv hne
    · exact ht u hu hne
    · exact fun hmem => ht v hv (Ne.symm hne) (hst _ _ hmem)
    · exact absurd rfl hne

end Consistent

variable [DecidableEq ι]

@[simp]
lemma mem_removeTicket {l : TicketList ι κ T} :
    u ∈ (l.removeTicket t).list ↔ u ∈ l.list ∧ u.id ≠ t.id := by
  simp [removeTicket, unlink]

omit [DecidableEq T] in
@[simp]
lemma mem_unlink {l : TicketList ι κ T} {id : ι} {u : Ticket ι κ T} :
    u ∈ (l.unlink id).list ↔ u ∈ l.list ∧ u.id ≠ id := by
  simp [unlink]

omit [DecidableEq T] in
@[simp]
lemma unlink_typeCounters (l : TicketList ι κ T) (id : ι) :
    (l.unlink id).typeCounters = l.typeCounters := rfl

namespace Consistent

variable {st : Strategy T} {l : TicketList ι κ T}

lemma unlink (h : l.Consistent st) (id : ι) : (l.unlink id).Consistent st where
  countP_le a := by
    have hle : (l.list.filter (·.id ≠ id)).countP (·.type = a) ≤ l.list.countP (·.type = a) :=
      filter_sublist.countP_le
    have ha := h.countP_le a
    simp only [TicketList.unlink]
    omega
  mem_bitmap := h.mem_bitmap
  compatible t ht u hu := h.compatible t (mem_unlink.mp ht).1 u (mem_unlink.mp hu).1

lemma countP_unlink_lt (ht : t ∈ l.list) :
    (l.unlink t.id).list.countP (·.type = t.type) < l.list.countP (·.type = t.type) := by
  obtain ⟨l₁, l₂, heq⟩ := append_of_mem ht
  have hle (l' : List (Ticket ι κ T)) :
      (l'.filter (·.id ≠ t.id)).countP (·.type = t.type) ≤ l'.countP (·.type = t.type) :=
    filter_sublist.countP_le
  have h₁ := hle l₁
  have h₂ := hle l₂
  simp only [TicketList.unlink, heq, filter_append, filter_cons, countP_append, countP_cons]
  simp
  simp at h₁ h₂
  omega

lemma removeTicket (h : l.Consistent st) (ht : t ∈ l.list) : (l.removeTicket t).Consistent st where
  countP_le a := by
    by_cases hta : t.type = a
    · subst hta
      have hlt := countP_unlink_lt ht
      have := h.countP_le t.type
      simp only [TicketList.removeTicket, uncount, update_self, unlink_typeCounters]
      omega
    · have := (h.unlink t.id).countP_le a
      simpa [TicketList.removeTicket, update_of_ne (Ne.symm hta)] using this
  mem_bitmap a ha := by
    by_cases hta : a = t.type
    · subst hta
      simp only [TicketList.removeTicket, uncount, update_self] at ha ⊢
      rw [if_neg (by omega)]
      exact h.mem_bitmap _ (by rw [unlink_typeCounters] at ha; omega)
    · apply mem_uncount_bitmap _ hta
      apply h.mem_bitmap
      simpa [TicketList.removeTicket, update_of_ne hta] using ha
  compatible u hu v hv := h.compatible u (mem_removeTicket.mp hu).1 v (mem_removeTicket.mp hv).1

end Consistent

end Consistent

end TicketList

namespace Lock

variable [DecidableEq κ] [DecidableEq T]
variable {st : Strategy T} {env : Env κ} {l : Lock ι κ T} {ignore : Bool} {type : T} {ctx : κ}

lemma conflicts_iff : l.conflicts st type ctx = true ↔
      ∃ u ∈ l.granted.list, u.ctx ≠ ctx ∧ u.type ∈ st.grantedIncompatible type := by
  simp [conflicts]

lemma compatible_of_canGrantLock (hb : st.backup = false) (h : l.granted.Consistent st)
    (hgrant : l.canGrantLock st env type ctx ignore = true) :
    ∀ u ∈ l.granted.list, u.ctx ≠ ctx → u.type ∉ st.grantedIncompatible type := by
  intro u hu hne hmem
  have hbit : l.granted.bitmap ∩ st.grantedIncompatible type ≠ ∅ :=
    Finset.nonempty_iff_ne_empty.mp ⟨u.type, Finset.mem_inter.mpr ⟨h.type_mem_bitmap hu, hmem⟩⟩
  have hconf : l.conflicts st type ctx = true := conflicts_iff.mpr ⟨u, hu, hne, hmem⟩
  simp [canGrantLock, hb, hbit, hconf] at hgrant

variable (hst : st.Symmetric) (hb : st.backup = false)

include hst hb in
lemma grant_consistent (h : l.granted.Consistent st) {t : Ticket ι κ T}
    (hgrant : l.canGrantLock st env t.type t.ctx ignore = true) :
    (l.granted.addGranted t).Consistent st :=
  h.addGranted hst (compatible_of_canGrantLock hb h hgrant)

lemma canGrantLock_eq_false_iff (hb : st.backup = false) :
    l.canGrantLock st env type ctx false = false ↔
      l.waiting.bitmap ∩ st.waitingIncompatible type ≠ ∅ ∨
      l.granted.bitmap ∩ st.grantedIncompatible type ≠ ∅ ∧ l.conflicts st type ctx = true := by
  grind [canGrantLock]

variable [DecidableEq ι] (ts : List (Ticket ι κ T))

include hst hb in
lemma rescheduleOne_consistent {s : Lock ι κ T × (κ → WaitStatus)} (h : s.1.granted.Consistent st)
    (t : Ticket ι κ T) : (rescheduleOne st env skip s t).1.granted.Consistent st := by
  unfold rescheduleOne
  split_ifs with hskip hgrant
  · exact h
  · rw [Bool.and_eq_true] at hgrant
    exact grant_consistent hst hb h hgrant.1
  · exact h

include hst hb in
lemma foldl_rescheduleOne_consistent {s : Lock ι κ T × (κ → WaitStatus)}
    (h : s.1.granted.Consistent st) :
    (ts.foldl (rescheduleOne st env skip) s).1.granted.Consistent st := by
  induction ts generalizing s with
  | nil => exact h
  | cons t ts ih => exact ih (rescheduleOne_consistent hst hb h t)

include hst hb in
lemma rescheduleWaiters_consistent (h : l.granted.Consistent st) (slot : κ → WaitStatus) :
    (l.rescheduleWaiters st env slot).1.granted.Consistent st := by
  have hfold : (l.waiting.list.foldl (rescheduleOne st env (l.skipHighPriority st env))
      (l, slot)).1.granted.Consistent st := foldl_rescheduleOne_consistent hst hb _ h
  unfold rescheduleWaiters
  dsimp only
  split_ifs
  · exact hfold
  · exact hfold

/-! ### One pass over the waiting list -/

lemma grant_blocked (hb : st.backup = false) (hle : st.WaitingLeGranted) {t u : Ticket ι κ T}
    (hne : u.ctx ≠ t.ctx) (h : l.canGrantLock st env t.type t.ctx false = false) :
    (l.grant st u).canGrantLock st env t.type t.ctx false = false := by
  rw [canGrantLock_eq_false_iff hb] at h ⊢
  have hsub : l.granted.bitmap ⊆ (l.grant st u).granted.bitmap := Finset.subset_insert _ _
  rcases h with hwait | ⟨hbit, hconf⟩
  · obtain ⟨w, hw⟩ := Finset.nonempty_iff_ne_empty.mpr hwait
    obtain ⟨hwb, hwi⟩ := Finset.mem_inter.mp hw
    by_cases hwu : w = u.type
    · -- the type that stood in the way is granted now
      subst hwu
      have hwg := hle _ hwi
      refine .inr ⟨Finset.nonempty_iff_ne_empty.mp ⟨u.type, Finset.mem_inter.mpr ⟨?_, hwg⟩⟩,
        conflicts_iff.mpr ⟨u, ?_, hne, hwg⟩⟩
      · exact Finset.mem_insert_self _ _
      · exact TicketList.mem_addGranted.mpr (.inr rfl)
    · exact .inl (Finset.nonempty_iff_ne_empty.mp
        ⟨w, Finset.mem_inter.mpr ⟨TicketList.mem_uncount_bitmap hwb hwu, hwi⟩⟩)
  · obtain ⟨v, hv, hvne, hvi⟩ := conflicts_iff.mp hconf
    refine .inr ⟨?_, conflicts_iff.mpr ⟨v, TicketList.mem_addGranted.mpr (.inl hv), hvne, hvi⟩⟩
    intro hempty
    apply hbit
    exact Finset.subset_empty.mp (hempty ▸ Finset.inter_subset_inter_right hsub)

section Pass

variable {skip : Bool} {s : Lock ι κ T × (κ → WaitStatus)} {t u : Ticket ι κ T}

lemma rescheduleOne_cases (st : Strategy T) (env : Env κ) (skip : Bool)
    (s : Lock ι κ T × (κ → WaitStatus)) (u : Ticket ι κ T) :
    rescheduleOne st env skip s u = s ∨
    rescheduleOne st env skip s u = (s.1.grant st u, Function.update s.2 u.ctx .granted) := by
  unfold rescheduleOne
  split_ifs
  · exact .inl rfl
  · exact .inr rfl
  · exact .inl rfl

lemma rescheduleOne_blocked (hb : st.backup = false) (hle : st.WaitingLeGranted)
    (h : s.1.canGrantLock st env t.type t.ctx false = false)
    (hslot : (rescheduleOne st env skip s u).2 t.ctx = .empty) :
    (rescheduleOne st env skip s u).1.canGrantLock st env t.type t.ctx false = false := by
  rcases rescheduleOne_cases st env skip s u with heq | heq
  · rwa [heq]
  · rw [heq] at hslot ⊢
    have hne : u.ctx ≠ t.ctx := by
      intro hctx
      simp [hctx] at hslot
    exact grant_blocked hb hle hne h

lemma rescheduleOne_slot (h : (rescheduleOne st env skip s u).2 c = .empty) : s.2 c = .empty := by
  rcases rescheduleOne_cases st env skip s u with heq | heq
  · rwa [heq] at h
  · rw [heq] at h
    by_cases hc : c = u.ctx
    · simp [hc] at h
    · simpa [update_of_ne hc] using h

lemma foldl_rescheduleOne_slot (h : (ts.foldl (rescheduleOne st env skip) s).2 c = .empty) :
    s.2 c = .empty := by
  induction ts generalizing s with
  | nil => exact h
  | cons u ts ih => exact rescheduleOne_slot (ih h)

lemma foldl_rescheduleOne_blocked (hb : st.backup = false) (hle : st.WaitingLeGranted)
    (ts : List (Ticket ι κ T)) (h : s.1.canGrantLock st env t.type t.ctx false = false)
    (hslot : (ts.foldl (rescheduleOne st env skip) s).2 t.ctx = .empty) :
    (ts.foldl (rescheduleOne st env skip) s).1.canGrantLock st env t.type t.ctx false = false := by
  induction ts generalizing s with
  | nil => exact h
  | cons u ts ih =>
    exact ih (rescheduleOne_blocked hb hle h (foldl_rescheduleOne_slot ts hslot)) hslot

lemma rescheduleOne_passed (hslot : (rescheduleOne st env false s t).2 t.ctx = .empty) :
    (rescheduleOne st env false s t).1.canGrantLock st env t.type t.ctx false = false := by
  have hempty := rescheduleOne_slot hslot
  rcases hcan : s.1.canGrantLock st env t.type t.ctx false with _ | _
  · simp [rescheduleOne, hcan]
  · simp [rescheduleOne, hcan, hempty] at hslot

lemma foldl_rescheduleOne_passed (hb : st.backup = false) (hle : st.WaitingLeGranted)
    (ts : List (Ticket ι κ T)) (ht : t ∈ ts)
    (hslot : (ts.foldl (rescheduleOne st env false) s).2 t.ctx = .empty) :
    (ts.foldl (rescheduleOne st env false) s).1.canGrantLock st env t.type t.ctx false = false := by
  induction ts generalizing s with
  | nil => simp at ht
  | cons u ts ih =>
    rcases mem_cons.mp ht with rfl | ht
    · exact foldl_rescheduleOne_blocked hb hle ts
        (rescheduleOne_passed (foldl_rescheduleOne_slot ts hslot)) hslot
    · exact ih ht hslot

lemma mem_waiting_of_foldl (h : t ∈ (ts.foldl (rescheduleOne st env skip) s).1.waiting.list) :
    t ∈ s.1.waiting.list := by
  induction ts generalizing s with
  | nil => exact h
  | cons u ts ih =>
    have hmem := ih h
    rcases rescheduleOne_cases st env skip s u with heq | heq
    · rwa [heq] at hmem
    · rw [heq] at hmem
      exact (TicketList.mem_removeTicket.mp hmem).1

end Pass

/-- No ticket that is left waiting with an empty slot could be granted. -/
def Woken (st : Strategy T) (env : Env κ) (r : Lock ι κ T × (κ → WaitStatus)) : Prop :=
  ∀ t ∈ r.1.waiting.list, r.2 t.ctx = .empty → r.1.canGrantLock st env t.type t.ctx false = false

lemma rescheduleWaiters_woken (hb : st.backup = false) (hle : st.WaitingLeGranted)
    (hhog : l.hogLockCount < env.maxWriteLockCount) (slot : κ → WaitStatus) :
    Woken st env (l.rescheduleWaiters st env slot) := by
  have hskip : l.skipHighPriority st env = false := by simp [skipHighPriority, hhog]
  intro t ht hslot
  unfold rescheduleWaiters at ht hslot ⊢
  rw [hskip] at ht hslot ⊢
  dsimp only at ht hslot ⊢
  split_ifs at ht hslot ⊢
  · exact foldl_rescheduleOne_passed hb hle _ (mem_waiting_of_foldl _ ht) hslot
  · exact foldl_rescheduleOne_passed hb hle _ (mem_waiting_of_foldl _ ht) hslot

end Lock

end MariaDB.Mdl
