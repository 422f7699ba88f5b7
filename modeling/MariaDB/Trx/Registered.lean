import MariaDB.Trx.TrxSys

/-!
# What the slots hold

Every slot holds what its transaction has stored there, and `m_rw_trx_hash_version`
stays behind `m_max_trx_id` by the numbers that were fetched and are not announced yet.
-/
namespace MariaDB.Trx

open List

namespace RwTrx

def slot (t : RwTrx) : RwTrxId :=
  match t.phase with
  | .gotId | .deregistered => {}
  | .storedId | .active | .gotNo => { id := t.id }
  | .storedNo | .numbered => { id := t.id, no := t.no.getD trxIdMax }
  | .clearedId => { no := t.no.getD trxIdMax }

/-- The transaction has a serialisation number if and only if one was assigned. -/
def NoFits (t : RwTrx) : Prop :=
  match t.phase with
  | .gotId | .storedId | .active => t.no = none
  | .gotNo | .storedNo | .numbered => t.no.isSome
  | .clearedId | .deregistered => True

/-- The next access of a transaction while the counter is `m`, with what it adds to the
counter and to the version. -/
inductive Next (m : Nat) : RwTrx → RwTrx → Nat → Nat → Prop
  | storeId (o id no) : Next m ⟨o, id, no, .gotId⟩ ⟨o, id, no, .storedId⟩ 0 0
  | refreshId (o id no) : Next m ⟨o, id, no, .storedId⟩ ⟨o, id, no, .active⟩ 0 1
  | fetchNo (o id no) : Next m ⟨o, id, no, .active⟩ ⟨o, id, some m, .gotNo⟩ 1 0
  | storeNo (o id no) : Next m ⟨o, id, no, .gotNo⟩ ⟨o, id, no, .storedNo⟩ 0 0
  | refreshNo (o id no) : Next m ⟨o, id, no, .storedNo⟩ ⟨o, id, no, .numbered⟩ 0 1
  | clearId (o id no) (phase : Phase) (h : phase = .active ∨ phase = .numbered) :
    Next m ⟨o, id, no, phase⟩ ⟨o, id, no, .clearedId⟩ 0 0
  | clearNo (o id no) : Next m ⟨o, id, no, .clearedId⟩ ⟨o, id, no, .deregistered⟩ 0 0

section Next

variable {m i j : Nat} {t t' : RwTrx}

section

variable (h : Next m t t' i j)
include h

lemma Next.id_eq : t'.id = t.id := by
  cases h <;> rfl

lemma Next.trx_eq : t'.trx = t.trx := by
  cases h <;> rfl

lemma Next.ne_deregistered : t.phase ≠ .deregistered := by
  cases h with
  | clearId _ _ _ _ h => rcases h with rfl | rfl <;> simp
  | _ => simp

lemma Next.no_eq : t'.no = t.no ∨ t'.no = some m ∧ i = 1 := by
  cases h <;> simp

lemma Next.dead (hdead : t.phase.dead) : t'.phase.dead := by
  cases h <;> simp_all [Phase.dead]

lemma Next.alive (halive : t'.phase.alive) : t.phase.alive ∨ t.phase = .gotId := by
  cases h <;> simp_all [Phase.alive]

lemma Next.pending (hpending : t'.phase.pending) :
    t.phase.pending ∧ t'.no = t.no ∨ t'.no = some m := by
  cases h <;> simp_all [Phase.pending]

lemma Next.noFits (hfits : t.NoFits) : t'.NoFits := by
  cases h <;> simp_all [NoFits]

/-- A fetch begins the time in which the version is behind, and a refresh ends it. -/
lemma Next.pending_add :
    (if t'.phase.pending then 1 else 0) + j = (if t.phase.pending then 1 else 0) + i := by
  cases h with
  | clearId _ _ _ _ h => rcases h with rfl | rfl <;> simp [Phase.pending]
  | _ => simp [Phase.pending]

end

end Next

end RwTrx

namespace TrxSys

open Function RwTrx

variable {n : Nat} {s s' : TrxSys n} {a : Action n}

structure Registered (s : TrxSys n) (t : RwTrx) : Prop where
  id_lt : t.id < s.maxTrxId
  no_lt : ∀ no, t.no = some no → t.id < no ∧ no < s.maxTrxId
  noFits : t.NoFits
  slot : t.phase ≠ .deregistered → s.ids t.trx = t.slot ∧ t.trx ∈ s.trxs

structure Core (s : TrxSys n) : Prop where
  version : s.rwTrxHashVersion + s.trx.countP (·.phase.pending) + s.refreshing = s.maxTrxId
  maxTrxId_lt : s.maxTrxId < trxIdMax
  nodup_trxs : s.trxs.Nodup
  nodup_id : (s.trx.map (·.id)).Nodup
  registered : ∀ t ∈ s.trx, s.Registered t
  owner : ∀ t ∈ s.trx, ∀ u ∈ s.trx, t.trx = u.trx →
    t.phase ≠ .deregistered → u.phase ≠ .deregistered → t.id = u.id
  free : ∀ o, s.Idle o → s.ids o = {}

lemma Core.init (hvalue : value < trxIdMax) : (TrxSys.init n value).Core where
  version := by simp [TrxSys.init]
  maxTrxId_lt := hvalue
  nodup_trxs := nodup_nil
  nodup_id := nodup_nil
  registered := by simp [TrxSys.init]
  owner := by simp [TrxSys.init]
  free _ _ := rfl

variable {t t' : RwTrx} {o : Nat}

/-- The counter does not fall, and the slot keeps what the transaction has stored. -/
lemma Registered.mono (h : s.Registered t) (hle : s.maxTrxId ≤ s'.maxTrxId)
    (hslot : t.phase ≠ .deregistered → s'.ids t.trx = t.slot ∧ t.trx ∈ s'.trxs) :
    s'.Registered t :=
  ⟨h.id_lt.trans_le hle,
    fun no hno => ⟨(h.no_lt no hno).1, (h.no_lt no hno).2.trans_le hle⟩, h.noFits, hslot⟩

lemma Core.eq_of_id (h : s.Core) (ht : t ∈ s.trx) (hu : u ∈ s.trx) (hid : t.id = u.id) : t = u :=
  inj_on_of_nodup_map h.nodup_id ht hu hid

/-- The transactions after one of them has moved on. -/
lemma Core.mem_set (h : s.Core) (ht : s.trx[k]? = some t) (u : RwTrx) :
    u ∈ s.trx.set k t' ↔ u = t' ∨ u ∈ s.trx ∧ u.id ≠ t.id := by
  obtain ⟨hk, hget⟩ := List.getElem?_eq_some_iff.mp ht
  constructor
  · intro hu
    obtain ⟨i, hi⟩ := List.mem_iff_getElem?.mp hu
    rw [getElem?_set] at hi
    split at hi
    · left
      grind
    · rename_i hne
      refine .inr ⟨List.mem_of_getElem? hi, fun hid => hne ?_⟩
      have hnd := nodup_iff_injective_get.mp h.nodup_id
      obtain ⟨hi', hgeti⟩ := List.getElem?_eq_some_iff.mp hi
      have := @hnd ⟨k, by simpa using hk⟩ ⟨i, by simpa using hi'⟩ (by simp [hget, hgeti, hid])
      exact Fin.mk.inj this
  · rintro (rfl | ⟨hu, hne⟩)
    · exact mem_set hk _
    · obtain ⟨i, hi⟩ := List.mem_iff_getElem?.mp hu
      refine mem_iff_getElem?.mpr ⟨i, ?_⟩
      rw [getElem?_set_ne, hi]
      rintro rfl
      rw [ht] at hi
      exact hne (congrArg RwTrx.id (Option.some.inj hi)).symm

/-- A slot with an identifier belongs to a transaction that has stored it. -/
lemma Core.exists_alive (h : s.Core) (hid : (s.ids o).id < s.maxTrxId) :
    ∃ t ∈ s.trx, t.trx = o ∧ t.phase.alive ∧ (s.ids o).id = t.id := by
  have hmax := h.maxTrxId_lt
  by_cases hidle : s.Idle o
  · rw [h.free o hidle] at hid
    simp only at hid
    omega
  · simp only [Idle, not_forall] at hidle
    obtain ⟨t, ht, rfl, hphase⟩ := hidle
    refine ⟨t, ht, rfl, ?_⟩
    rw [((h.registered t ht).slot hphase).1] at hid ⊢
    cases hp : t.phase <;> simp_all [RwTrx.slot, Phase.alive] <;> omega

lemma swapRemove_perm {trxs : List Nat} (ho : o ∈ trxs) :
    (swapRemove trxs o).Perm (trxs.erase o) := by
  obtain ⟨l, x, rfl⟩ : ∃ l x, trxs = l ++ [x] :=
    ⟨_, _, (dropLast_append_getLast (ne_nil_of_mem ho)).symm⟩
  by_cases hl : o ∈ l
  · have hlt := idxOf_lt_length_of_mem hl
    simp only [swapRemove, idxOf_append_of_mem hl, length_append, length_singleton,
      Nat.add_lt_add_iff_right, if_pos hlt, getLastD_concat, set_append_left _ _ hlt,
      dropLast_concat, erase_append_left _ hl]
    calc l.set (l.idxOf o) x
      _ |>.Perm (x :: l.eraseIdx (l.idxOf o)) := set_perm_cons_eraseIdx hlt x
      _ = x :: l.erase o := by rw [erase_eq_eraseIdx_of_idxOf rfl]
      _ |>.Perm (l.erase o ++ [x]) := (perm_append_singleton x _).symm
  · obtain rfl : o = x := by simpa [hl] using ho
    simp [swapRemove, idxOf_append_of_notMem hl, erase_append_right _ hl]

inductive Step (s : TrxSys n) : Action n → TrxSys n → Prop
  | registerTrx (o : Nat) (ho : o ∉ s.trxs) (hfree : s.LatchFree) :
    Step s (.registerTrx o) { s with trxs := s.trxs ++ [o], ids := update s.ids o {} }
  | deregisterTrx (o : Nat) (ho : o ∈ s.trxs) (hfree : s.LatchFree) (hidle : s.Idle o) :
    Step s (.deregisterTrx o) { s with trxs := swapRemove s.trxs o }
  | registerRw (o : Nat) (ho : o ∈ s.trxs) (hidle : s.Idle o) (hmax : s.maxTrxId + 1 < trxIdMax) :
    Step s (.registerRw o)
      { s with maxTrxId := s.maxTrxId + 1, trx := s.trx ++ [⟨o, s.maxTrxId, none, .gotId⟩] }
  | trx {a : Action n} (k : Nat) (t t' : RwTrx) (i j : Nat) (ht : s.trx[k]? = some t)
    (hnext : Next s.maxTrxId t t' i j) (hmax : s.maxTrxId + i < trxIdMax)
    (hclearId : t'.phase = .clearedId → a = .deregisterRw k)
    (hclearNo : t'.phase = .deregistered → a = .advance k) :
    Step s a
      { s with
        maxTrxId := s.maxTrxId + i
        rwTrxHashVersion := s.rwTrxHashVersion + j
        trx := s.trx.set k t'
        ids := update s.ids t.trx t'.slot }
  | getNewTrxId (hmax : s.maxTrxId + 1 < trxIdMax) :
    Step s .getNewTrxId { s with maxTrxId := s.maxTrxId + 1, refreshing := s.refreshing + 1 }
  | refreshRwTrxHashVersion (h : 0 < s.refreshing) :
    Step s .refreshRwTrxHashVersion
      { s with rwTrxHashVersion := s.rwTrxHashVersion + 1, refreshing := s.refreshing - 1 }
  | snapshot (r : Fin n) (hr : s.readers r = .idle) :
    Step s (.snapshot r) { s with readers := update s.readers r (.start s.deadIds) }
  | read (r : Fin n) (reader : Reader) (view : Option TakenView)
    (h : s.readStep (s.readers r) = some (reader, view)) :
    Step s (.read r)
      { s with
        readers := update s.readers r reader
        views := s.views ++ view.toList }

lemma advanceTrx_spec {slot : RwTrxId} (h : advanceTrx t t.slot = some (t', slot, j)) (m : Nat) :
    Next m t t' 0 j ∧ slot = t'.slot ∧ t'.phase ≠ .clearedId := by
  obtain ⟨o, id, no, phase⟩ := t
  cases phase <;> simp only [advanceTrx, Option.some.injEq, Prod.mk.injEq, reduceCtorEq] at h <;>
    obtain ⟨rfl, rfl, rfl⟩ := h
  · exact ⟨.storeId .., rfl, by simp⟩
  · exact ⟨.refreshId .., rfl, by simp⟩
  · exact ⟨.storeNo .., rfl, by simp⟩
  · exact ⟨.refreshNo .., rfl, by simp⟩
  · exact ⟨.clearNo .., rfl, by simp⟩

lemma step_spec (hc : s.Core) (h : s.step a = some s') : s.Step a s' := by
  cases a with
  | registerTrx o =>
    obtain ⟨⟨ho, hfree⟩, rfl⟩ := by simpa [step] using h
    exact .registerTrx o ho hfree
  | deregisterTrx o =>
    obtain ⟨⟨ho, hfree, hidle⟩, rfl⟩ := by simpa [step] using h
    exact .deregisterTrx o ho hfree hidle
  | registerRw o =>
    obtain ⟨⟨ho, hidle, hmax⟩, rfl⟩ := by simpa [step] using h
    exact .registerRw o ho hidle hmax
  | assignNewTrxNo k =>
    obtain ⟨t, ht, h⟩ := Option.bind_eq_some_iff.mp h
    obtain ⟨⟨hphase, hmax⟩, rfl⟩ := by simpa using h
    have hslot := ((hc.registered t (List.mem_of_getElem? ht)).slot (by simp [hphase])).1
    obtain ⟨o, id, no, phase⟩ := t
    obtain rfl : phase = .active := hphase
    have hupdate : s.ids = update s.ids o (RwTrx.slot ⟨o, id, some s.maxTrxId, .gotNo⟩) := by
      rw [eq_comm, update_eq_self_iff, hslot]
      rfl
    have := Step.trx (a := .assignNewTrxNo k) k _ _ 1 0 ht (.fetchNo ..) hmax (by simp) (by simp)
    rwa [← hupdate] at this
  | deregisterRw k =>
    obtain ⟨t, ht, h⟩ := Option.bind_eq_some_iff.mp h
    obtain ⟨hphase, rfl⟩ := by simpa using h
    have hslot := ((hc.registered t (List.mem_of_getElem? ht)).slot (by grind)).1
    have hfits := (hc.registered t (List.mem_of_getElem? ht)).noFits
    obtain ⟨o, id, no, phase⟩ := t
    have hclear : RwTrx.slot ⟨o, id, no, .clearedId⟩ = { s.ids o with id := trxIdMax } := by
      rw [hslot]
      rcases hphase with hphase | hphase <;> obtain rfl := hphase <;>
        simp_all [RwTrx.slot, NoFits]
    have := Step.trx (a := .deregisterRw k) k _ _ 0 0 ht (.clearId _ _ _ _ hphase) hc.maxTrxId_lt
      (by simp) (by simp)
    rwa [hclear] at this
  | advance k =>
    obtain ⟨t, ht, h⟩ := Option.bind_eq_some_iff.mp h
    obtain ⟨⟨t', slot, j⟩, hadvance, rfl⟩ := Option.map_eq_some_iff.mp h
    have hphase : t.phase ≠ .deregistered := by
      intro hphase
      simp [advanceTrx, hphase] at hadvance
    rw [((hc.registered t (List.mem_of_getElem? ht)).slot hphase).1] at hadvance
    obtain ⟨hnext, rfl, hne⟩ := advanceTrx_spec hadvance s.maxTrxId
    exact .trx k t t' 0 j ht hnext hc.maxTrxId_lt (fun h => absurd h hne) (fun _ => rfl)
  | getNewTrxId =>
    obtain ⟨hmax, rfl⟩ := by simpa [step] using h
    exact .getNewTrxId hmax
  | refreshRwTrxHashVersion =>
    obtain ⟨hlt, rfl⟩ := by simpa [step] using h
    exact .refreshRwTrxHashVersion hlt
  | snapshot r =>
    obtain ⟨hr, rfl⟩ := by simpa [step] using h
    exact .snapshot r hr
  | read r =>
    obtain ⟨⟨reader, view⟩, hread, rfl⟩ := Option.map_eq_some_iff.mp h
    exact .read r reader view hread

lemma Core.trx (hc : s.Core) (ht : s.trx[k]? = some t) (hnext : Next s.maxTrxId t t' i j)
    (hmax : s.maxTrxId + i < trxIdMax) :
    Core { s with
      maxTrxId := s.maxTrxId + i
      rwTrxHashVersion := s.rwTrxHashVersion + j
      trx := s.trx.set k t'
      ids := update s.ids t.trx t'.slot } := by
  obtain ⟨hk, hget⟩ := List.getElem?_eq_some_iff.mp ht
  have hmem : t ∈ s.trx := List.mem_of_getElem? ht
  have hreg := hc.registered t hmem
  have hne := hnext.ne_deregistered
  have hother : ∀ u ∈ s.trx, u.id ≠ t.id → u.phase ≠ .deregistered → u.trx ≠ t.trx :=
    fun u hu hid hphase heq => hid (hc.owner u hu t hmem heq hphase hne)
  refine ⟨?_, hmax, hc.nodup_trxs, ?_, ?_, ?_, ?_⟩
  · have hadd := hnext.pending_add
    have hcount := countP_set (p := fun t => t.phase.pending) (l := s.trx) (a := t') hk
    have hversion := hc.version
    have hle : (if t.phase.pending then 1 else 0) ≤ s.trx.countP (·.phase.pending) := by
      split
      · exact countP_pos_iff.mpr ⟨t, hmem, by assumption⟩
      · exact Nat.zero_le _
    rw [hget] at hcount
    simp only [hcount]
    omega
  · have hmap : (s.trx.set k t').map (·.id) = (s.trx.set k t).map (·.id) := by
      rw [map_set, map_set, hnext.id_eq]
    rw [← hget, set_getElem_self] at hmap
    simpa only [hmap] using hc.nodup_id
  · intro u hu
    rcases (hc.mem_set ht u).mp hu with rfl | ⟨hu, hid⟩
    · refine ⟨?_, ?_, hnext.noFits hreg.noFits, ?_⟩
      · have := hreg.id_lt
        have := hnext.id_eq
        simp only
        omega
      · intro no hno
        have hlt := hreg.id_lt
        rw [hnext.id_eq]
        rcases hnext.no_eq with heq | ⟨heq, rfl⟩
        · have := hreg.no_lt no (heq ▸ hno)
          simp only
          omega
        · obtain rfl := Option.some.inj (heq.symm.trans hno)
          simp only
          omega
      · intro _
        rw [hnext.trx_eq]
        exact ⟨update_self .., (hreg.slot hne).2⟩
    · have hold := hc.registered u hu
      refine hold.mono (Nat.le_add_right _ i) fun hphase => ⟨?_, (hold.slot hphase).2⟩
      rw [← (hold.slot hphase).1]
      exact update_of_ne (hother u hu hid hphase) ..
  · intro u hu v hv htrx hpu hpv
    rcases (hc.mem_set ht u).mp hu with rfl | ⟨hmemu, hidu⟩ <;>
      rcases (hc.mem_set ht v).mp hv with rfl | ⟨hmemv, hidv⟩
    · rfl
    · exact absurd (htrx.symm.trans hnext.trx_eq) (hother v hmemv hidv hpv)
    · exact absurd (htrx.trans hnext.trx_eq) (hother u hmemu hidu hpu)
    · exact hc.owner u hmemu v hmemv htrx hpu hpv
  · intro o hidle
    by_cases ho : o = t.trx
    · subst ho
      have hphase : t'.phase = .deregistered :=
        hidle t' ((hc.mem_set ht t').mpr (.inl rfl)) hnext.trx_eq
      simp [RwTrx.slot, hphase]
    · refine (update_of_ne ho ..).trans (hc.free o fun u hu huo => ?_)
      refine hidle u ((hc.mem_set ht u).mpr (.inr ⟨hu, fun hid => ho ?_⟩)) huo
      rw [← huo, hc.eq_of_id hu hmem hid]

lemma Core.registerRw (hc : s.Core) (ho : o ∈ s.trxs) (hidle : s.Idle o)
    (hmax : s.maxTrxId + 1 < trxIdMax) :
    Core { s with
      maxTrxId := s.maxTrxId + 1
      trx := s.trx ++ [⟨o, s.maxTrxId, none, .gotId⟩] } := by
  refine ⟨?_, hmax, hc.nodup_trxs, ?_, ?_, ?_, ?_⟩
  · have := hc.version
    have hpending : Phase.pending .gotId = true := rfl
    simp only [countP_append, countP_singleton, hpending, if_true]
    omega
  · simp only [map_append, map_cons, map_nil, nodup_append', hc.nodup_id,
      nodup_singleton, disjoint_singleton, true_and, mem_map, not_exists, not_and]
    intro t ht hid
    have := (hc.registered t ht).id_lt
    omega
  · intro t ht
    rcases mem_append.mp ht with ht | ht
    · exact (hc.registered t ht).mono (Nat.le_succ _) (hc.registered t ht).slot
    · obtain rfl := mem_singleton.mp ht
      exact ⟨Nat.lt_succ_self _, by simp, rfl, fun _ => ⟨hc.free o hidle, ho⟩⟩
  · intro t ht u hu htrx hpt hpu
    rcases mem_append.mp ht with ht | ht <;> rcases mem_append.mp hu with hu | hu
    · exact hc.owner t ht u hu htrx hpt hpu
    · obtain rfl := mem_singleton.mp hu
      exact absurd (hidle t ht htrx) hpt
    · obtain rfl := mem_singleton.mp ht
      exact absurd (hidle u hu htrx.symm) hpu
    · rw [mem_singleton.mp ht, mem_singleton.mp hu]
  · intro o' hidle'
    exact hc.free o' fun t ht => hidle' t (mem_append_left _ ht)

lemma Core.step (hc : s.Core) (h : s.Step a s') : s'.Core := by
  cases h with
  | registerTrx o ho _ =>
    refine { hc with nodup_trxs := ?_, registered := ?_, free := ?_ }
    · exact nodup_append'.mpr
        ⟨hc.nodup_trxs, nodup_singleton o, disjoint_singleton.mpr ho⟩
    · intro t ht
      refine (hc.registered t ht).mono (le_refl _) fun hphase => ?_
      obtain ⟨hslot, hmem⟩ := (hc.registered t ht).slot hphase
      have hne : t.trx ≠ o := fun heq => ho (heq ▸ hmem)
      exact ⟨(update_of_ne hne ..).trans hslot, mem_append_left _ hmem⟩
    · intro o' hidle
      by_cases heq : o' = o
      · subst heq
        exact update_self ..
      · exact (update_of_ne heq ..).trans (hc.free o' hidle)
  | deregisterTrx o ho _ hidle =>
    have hperm := swapRemove_perm ho
    refine { hc with nodup_trxs := ?_, registered := ?_ }
    · exact hperm.nodup_iff.mpr (hc.nodup_trxs.erase o)
    · intro t ht
      refine (hc.registered t ht).mono (le_refl _) fun hphase => ?_
      obtain ⟨hslot, hmem⟩ := (hc.registered t ht).slot hphase
      refine ⟨hslot, hperm.mem_iff.mpr ?_⟩
      exact (mem_erase_of_ne fun heq => hphase (hidle t ht heq)).mpr hmem
  | registerRw o ho hidle hmax => exact hc.registerRw ho hidle hmax
  | trx k t t' i j ht hnext hmax _ _ => exact hc.trx ht hnext hmax
  | getNewTrxId hmax =>
    refine { hc with version := ?_, maxTrxId_lt := hmax, registered := fun t ht => ?_ }
    · have := hc.version
      simp only
      omega
    · exact (hc.registered t ht).mono (Nat.le_succ _) (hc.registered t ht).slot
  | refreshRwTrxHashVersion hlt =>
    refine { hc with version := ?_, registered := fun t ht => ?_ }
    · have := hc.version
      simp only
      omega
    · exact (hc.registered t ht).mono (le_refl _) (hc.registered t ht).slot
  | snapshot | read =>
    exact { hc with registered := fun t ht =>
      (hc.registered t ht).mono (le_refl _) (hc.registered t ht).slot }

end TrxSys

end MariaDB.Trx
