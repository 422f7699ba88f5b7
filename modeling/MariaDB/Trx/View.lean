import MariaDB.Library.Transition
import MariaDB.Trx.Snapshot

/-!
# What a view sees, and the limit for purge

In every run a view sees the transactions that were deregistered before its snapshot
began and no transaction that was not deregistered when the snapshot ended. Two orders
of accesses decide the rest. A transaction that is deregistered after the snapshot began
and before the scan has come to its slot is seen. A transaction whose `deregister_rw()`
removes the serialisation number between the two reads of its slot is not seen, and its
number is not in the limit for purge either.
-/
namespace MariaDB.Trx

open List

namespace Reader

def before : Reader → List Nat
  | idle => []
  | start before | loaded before _ | scanId before _ | scanNo before _ => before

/-- The view will not see the transaction, whatever happens to it. -/
def Settled (x : Nat) : Reader → Prop
  | idle => True
  | start _ | loaded .. => False
  | scanId _ scan | scanNo _ scan => scan.maxTrxId ≤ x ∨ x ∈ scan.ids

instance (x : Nat) : DecidablePred (Settled x)
  | idle => .isTrue trivial
  | start _ | loaded .. => .isFalse id
  | scanId _ scan | scanNo _ scan => inferInstanceAs (Decidable (scan.maxTrxId ≤ x ∨ x ∈ scan.ids))

def ReadingNo (trxs : List Nat) (o : Nat) : Reader → Prop
  | scanNo _ scan => trxs[scan.pos]? = some o
  | _ => False

instance (trxs : List Nat) (o : Nat) : DecidablePred (ReadingNo trxs o)
  | scanNo _ scan => inferInstanceAs (Decidable (trxs[scan.pos]? = some o))
  | idle | start _ | loaded .. | scanId .. => .isFalse id

end Reader

namespace TrxSys

open RwTrx Library

variable {n : Nat} {s s' : TrxSys n} {a : Action n}

/-- `deregister_rw()` removes the identifier only when the scan of every snapshot that has
begun is past the slot. -/
def ClearIdAfterScan (s : TrxSys n) : Action n → Prop
  | .deregisterRw k => ∀ t ∈ s.trx[k]?, ∀ r, (s.readers r).Settled t.id
  | _ => True

instance (s : TrxSys n) : DecidablePred s.ClearIdAfterScan
  | a => by
    unfold ClearIdAfterScan
    split <;> infer_instance

/-- `deregister_rw()` removes a serialisation number only when no snapshot is between the
two reads of the slot. -/
def ClearNoBetweenScans (s : TrxSys n) : Action n → Prop
  | .advance k => ∀ t ∈ s.trx[k]?, t.phase = .clearedId → t.no ≠ none →
    ∀ r, ¬(s.readers r).ReadingNo s.trxs t.trx
  | _ => True

instance (s : TrxSys n) : DecidablePred s.ClearNoBetweenScans
  | a => by
    unfold ClearNoBetweenScans
    split <;> infer_instance

def SeesBefore (s : TrxSys n) (v : TakenView) : Prop :=
  ∀ t ∈ s.trx, v.view.changesVisible t.id = true ↔ t.id ∈ v.before

/-- The limit for purge is below the number of every transaction that the view does not
see. -/
def PurgeSafe (s : TrxSys n) (v : TakenView) : Prop :=
  ∀ t ∈ s.trx, v.view.changesVisible t.id = false → ∀ no, t.no = some no → v.view.lowLimitNo ≤ no

section ClearId

/-- The transactions that were deregistered since the snapshot began are settled. -/
def SettledInv (s : TrxSys n) (reader : Reader) : Prop :=
  ∀ t ∈ s.trx, t.phase.dead → t.id ∉ reader.before → reader.Settled t.id

def HiddenInv (s : TrxSys n) (v : TakenView) : Prop :=
  ∀ t ∈ s.trx, t.id ∉ v.before → v.view.changesVisible t.id = false

lemma Step.dead (hc : s.Core) (h : s.Step a s') (hcond : s.ClearIdAfterScan a) (ht' : t' ∈ s'.trx)
    (hdead : t'.phase.dead) :
    (∃ t ∈ s.trx, t.phase.dead ∧ t.id = t'.id) ∨ ∀ r, (s.readers r).Settled t'.id := by
  cases h with
  | registerRw =>
    rcases mem_append.mp ht' with ht | ht
    · exact .inl ⟨t', ht, hdead, rfl⟩
    · rw [mem_singleton.mp ht] at hdead
      simp [Phase.dead] at hdead
  | trx k t u i j ht hnext hmax hclearId =>
    rcases (hc.mem_set ht t').mp ht' with rfl | ⟨hmem, -⟩
    · have hmem := mem_of_getElem? ht
      cases hnext with
      | clearId =>
        obtain rfl := hclearId rfl
        have hsettled := hcond _ ht
        exact .inr hsettled
      | clearNo => exact .inl ⟨_, hmem, rfl, rfl⟩
      | _ => simp [Phase.dead] at hdead
    · exact .inl ⟨t', hmem, hdead, rfl⟩
  | _ => exact .inl ⟨t', ht', hdead, rfl⟩

lemma SettledInv.read (h : s.SettledInv reader) (hr : s.ReaderInv reader) (hc : s.Core)
    (hread : s.readStep reader = some (reader', view)) :
    s.SettledInv reader' ∧ ∀ v ∈ view.toList, s.HiddenInv v := by
  revert hread
  fun_cases readStep with
  | case1 | case8 => rintro ⟨⟩
  | case3 =>
    rintro ⟨⟩
    exact ⟨fun t ht hdead hbefore => (h t ht hdead hbefore).elim, by simp⟩
  | case5 before scan hend =>
    rintro ⟨⟩
    refine ⟨fun _ _ _ _ => trivial, fun v hv t ht hbefore => ?_⟩
    obtain rfl := mem_singleton.mp hv
    have hids : ∀ id ∈ scan.ids, id < scan.maxTrxId := fun id hid => (hr.2.ids id hid).1
    by_cases hdead : t.phase.dead
    · rw [← Bool.not_eq_true, ReadViewBase.changesVisible_snapshot hr.2.nodup hids]
      rintro ⟨hlt, hmem⟩
      rcases h t ht hdead hbefore with hle | hmem'
      · omega
      · exact hmem hmem'
    · refine (hr.2.viewInv hc hend).after t ht fun hmem => ?_
      obtain ⟨u, hu, hudead, hid⟩ := mem_deadIds.mp hmem
      exact hdead (hc.eq_of_id hu ht hid ▸ hudead)
  | case6 =>
    rintro ⟨⟩
    refine ⟨fun t ht hdead hbefore => ?_, by simp⟩
    exact (h t ht hdead hbefore).imp_right (mem_append_left _)
  | _ =>
    rintro ⟨⟩
    exact ⟨h, by simp⟩

/-- What holds in every state of a run that meets `ClearIdAfterScan`. -/
structure SeenInv (s : TrxSys n) : Prop extends Inv s where
  settled : ∀ r, s.SettledInv (s.readers r)
  hidden : ∀ v ∈ s.views, s.HiddenInv v

lemma HiddenInv.evolves (h : s.HiddenInv v) (hv : s.ViewInv v) (hev : Evolves s s') :
    s'.HiddenInv v := by
  intro t' ht' hbefore
  rcases hev.new t' ht' with ⟨t, ht, hlater⟩ | ⟨o, rfl⟩
  · rw [hlater.id_eq] at hbefore ⊢
    exact h t ht hbefore
  · rw [← Bool.not_eq_true]
    exact fun hvisible => absurd (hv.visible_lt _ hvisible) (lt_irrefl _)

lemma SeenInv.step (h : s.SeenInv) (hcond : s.ClearIdAfterScan a) (hstep : s.Step a s') :
    s'.SeenInv := by
  have hc := h.core
  have hev := hstep.evolves hc
  have hreaders : ∀ r, s'.SettledInv (s.readers r) := by
    intro r t' ht' hdead hbefore
    rcases hstep.dead hc hcond ht' hdead with ⟨t, ht, hdead, hid⟩ | hsettled
    · rw [← hid] at hbefore ⊢
      exact h.settled r t ht hdead hbefore
    · exact hsettled r
  have hviews : ∀ v ∈ s.views, s'.HiddenInv v :=
    fun v hv => (h.hidden v hv).evolves (h.views v hv) hev
  obtain ⟨hsettled, hhidden⟩ := hstep.readers_views hreaders hviews
    (by rintro r rfl t ht hdead hbefore
        exact absurd (mem_deadIds.mpr ⟨t, ht, hdead, rfl⟩) hbefore)
    (by rintro r reader view hread rfl
        exact (h.settled r).read (h.readers r) hc hread)
  exact ⟨h.toInv.step hstep, hsettled, hhidden⟩

end ClearId

section ClearNo

/-- The limit is below the numbers of the collected transactions, apart from the one whose
slot is being read. -/
def LimitInv (s : TrxSys n) : Reader → Prop
  | .scanId _ scan => ∀ t ∈ s.trx, t.id ∈ scan.ids → ∀ no, t.no = some no → scan.minTrxNo ≤ no
  | .scanNo _ scan => ∀ t ∈ s.trx, t.id ∈ scan.ids → ∀ no, t.no = some no → scan.minTrxNo ≤ no ∨
    s.trxs[scan.pos]? = some t.trx ∧ t.phase ≠ .deregistered
  | _ => True

lemma Step.deregistered (hc : s.Core) (h : s.Step a s') (hcond : s.ClearNoBetweenScans a)
    (ht' : t' ∈ s'.trx) :
    (∃ t ∈ s.trx, Later s.maxTrxId t t' ∧ (t'.phase = .deregistered → t'.no ≠ none →
      t.phase = .deregistered ∨ ∀ r, ¬(s.readers r).ReadingNo s.trxs t.trx)) ∨
    t'.no = none := by
  cases h with
  | registerRw =>
    rcases mem_append.mp ht' with ht | ht
    · exact .inl ⟨t', ht, .inl rfl, fun h _ => .inl h⟩
    · exact .inr (congrArg RwTrx.no (mem_singleton.mp ht))
  | trx k t u i j ht hnext hmax hclearId hclearNo =>
    rcases (hc.mem_set ht t').mp ht' with rfl | ⟨hmem, -⟩
    · refine .inl ⟨t, mem_of_getElem? ht, .inr ⟨i, j, hnext⟩, fun hphase hno => .inr ?_⟩
      cases hnext with
      | clearNo =>
        obtain rfl := hclearNo rfl
        exact hcond _ ht rfl hno
      | _ => cases hphase
    · exact .inl ⟨t', hmem, .inl rfl, fun h _ => .inl h⟩
  | _ => exact .inl ⟨t', ht', .inl rfl, fun h _ => .inl h⟩

lemma LimitInv.step (h : s.Inv) (hlimit : s.LimitInv (s.readers r))
    (hcond : s.ClearNoBetweenScans a) (hstep : s.Step a s')
    (htrxs : (s.readers r).latched → s'.trxs = s.trxs) : s'.LimitInv (s.readers r) := by
  have hnew := fun t' (ht' : t' ∈ s'.trx) => hstep.deregistered h.core hcond ht'
  have hinv := h.readers r
  generalize hreader : s.readers r = reader at *
  cases reader with
  | scanId =>
    intro t' ht' hmem no hno
    rcases hnew t' ht' with ⟨t, ht, hlater, -⟩ | hnone
    · rw [hlater.id_eq] at hmem
      rcases hlater.no_eq with heq | heq
      · exact hlimit t ht hmem no (heq ▸ hno)
      · obtain rfl := Option.some.inj (heq.symm.trans hno)
        exact hinv.2.minTrxNo_le.trans hinv.2.maxTrxId_le
    · rw [hnone] at hno
      cases hno
  | scanNo =>
    intro t' ht' hmem no hno
    rw [htrxs rfl]
    rcases hnew t' ht' with ⟨t, ht, hlater, hdereg⟩ | hnone
    · rw [hlater.id_eq] at hmem
      rcases hlater.no_eq with heq | heq
      · rcases hlimit t ht hmem no (heq ▸ hno) with hle | ⟨hpos, hphase⟩
        · exact .inl hle
        · refine .inr ⟨hlater.trx_eq ▸ hpos, fun hphase' => ?_⟩
          rcases hdereg hphase' (by simp [hno]) with hphase'' | hreading
          · exact hphase hphase''
          · exact hreading r (hreader ▸ hpos)
      · obtain rfl := Option.some.inj (heq.symm.trans hno)
        exact .inl (hinv.2.minTrxNo_le.trans hinv.2.maxTrxId_le)
    · rw [hnone] at hno
      cases hno
  | _ => trivial

lemma LimitInv.readNo (h : s.LimitInv (.scanNo before scan))
    (hr : s.ReaderInv (.scanNo before scan)) (hc : s.Core) {o : Nat}
    (ho : s.trxs[scan.pos]? = some o) (ht : t ∈ s.trx) (hmem : t.id ∈ scan.ids) {no : Nat}
    (hno : t.no = some no) : min (s.ids o).no scan.minTrxNo ≤ no := by
  rcases h t ht hmem no hno with hle | ⟨hpos, hphase⟩
  · exact (min_le_right _ _).trans hle
  · obtain rfl := Option.some.inj (ho.symm.trans hpos)
    have hreg := hc.registered t ht
    rw [(hreg.slot hphase).1]
    have hfits := hreg.noFits
    have hpending := hr.2.pending t ht
    have hle := hr.2.minTrxNo_le
    cases hp : t.phase with
    | gotNo =>
      -- the number was fetched after the limit
      have := hpending (by rw [hp]; rfl)
      rw [hno] at this
      exact (min_le_right _ _).trans (hle.trans this)
    | storedNo | numbered | clearedId => simp [RwTrx.slot, hp, hno]
    | deregistered => exact absurd hp hphase
    | _ => simp [NoFits, hp, hno] at hfits

lemma LimitInv.read {reader reader' : Reader} {view : Option TakenView} (h : s.LimitInv reader)
    (hr : s.ReaderInv reader) (hc : s.Core) (hread : s.readStep reader = some (reader', view)) :
    s.LimitInv reader' ∧ ∀ v ∈ view.toList, s.PurgeSafe v := by
  revert hread
  fun_cases readStep with
  | case1 | case8 => rintro ⟨⟩
  | case3 =>
    rintro ⟨⟩
    exact ⟨by simp [LimitInv], by simp⟩
  | case5 before scan hend =>
    rintro ⟨⟩
    refine ⟨trivial, fun v hv t ht hhidden no hno => ?_⟩
    obtain rfl := mem_singleton.mp hv
    have hids : ∀ id ∈ scan.ids, id < scan.maxTrxId := fun id hid => (hr.2.ids id hid).1
    refine ReadViewBase.lowLimitNo_snapshot_le.trans ?_
    rw [← Bool.not_eq_true, ReadViewBase.changesVisible_snapshot hr.2.nodup hids] at hhidden
    by_cases hlt : t.id < scan.maxTrxId
    · exact h t ht (by simpa [hlt] using hhidden) no hno
    · have := (hc.registered t ht).no_lt no hno
      have := hr.2.minTrxNo_le
      omega
  | case6 before scan o ho id hid =>
    rintro ⟨⟩
    refine ⟨fun t ht hmem no hno => ?_, by simp⟩
    rcases mem_append.mp hmem with hmem | hmem
    · exact .inl (h t ht hmem no hno)
    · obtain ⟨u, hu, rfl, halive, heq⟩ := hc.exists_alive (hid.trans_le hr.2.maxTrxId_le)
      obtain rfl := hc.eq_of_id ht hu ((mem_singleton.mp hmem).trans heq)
      refine .inr ⟨ho, fun hphase => ?_⟩
      simp [hphase, Phase.alive] at halive
  | case7 =>
    rintro ⟨⟩
    exact ⟨h, by simp⟩
  | case9 before scan o ho =>
    rintro ⟨⟩
    refine ⟨fun t ht hmem no hno => ?_, by simp⟩
    have := h.readNo hr hc ho ht hmem hno
    simp only
    split <;> omega
  | _ =>
    rintro ⟨⟩
    exact ⟨trivial, by simp⟩

lemma PurgeSafe.evolves (h : s.PurgeSafe v) (hv : s.ViewInv v) (hev : Evolves s s') :
    s'.PurgeSafe v := by
  intro t' ht' hhidden no hno
  rcases hev.new t' ht' with ⟨t, ht, hlater⟩ | ⟨o, rfl⟩
  · rw [hlater.id_eq] at hhidden
    rcases hlater.no_eq with heq | heq
    · exact h t ht hhidden no (heq ▸ hno)
    · obtain rfl := Option.some.inj (heq.symm.trans hno)
      exact hv.lowLimitNo_le
  · cases hno

/-- What holds in every state of a run that meets `ClearNoBetweenScans`. -/
structure PurgeInv (s : TrxSys n) : Prop extends Inv s where
  limits : ∀ r, s.LimitInv (s.readers r)
  safe : ∀ v ∈ s.views, s.PurgeSafe v

lemma PurgeInv.step (h : s.PurgeInv) (hcond : s.ClearNoBetweenScans a) (hstep : s.Step a s') :
    s'.PurgeInv := by
  have hc := h.core
  have hev := hstep.evolves hc
  obtain ⟨hlimits, hsafe⟩ := hstep.readers_views
    (fun r => (h.limits r).step h.toInv hcond hstep hstep.trxs_eq)
    (fun v hv => (h.safe v hv).evolves (h.views v hv) hev)
    (fun _ _ => trivial)
    (by rintro r reader view hread rfl
        obtain ⟨hlimit, hview⟩ := (h.limits r).read (h.readers r) hc hread
        exact ⟨by cases reader <;> exact hlimit, hview⟩)
  exact ⟨h.toInv.step hstep, hlimits, hsafe⟩

end ClearNo

section Runs

variable {value : Nat} {as : List (Action n)}

lemma inv_of_run (hvalue : value < trxIdMax) (hrun : run step
    (init n value) as = some s) : s.Inv :=
  run_invariant (fun _ _ _ h _ hstep => h.step (step_spec h.core hstep)) (.init hvalue)
    (always_true _ as) hrun

lemma seenInv_of_run (hvalue : value < trxIdMax)
    (halways : Always step ClearIdAfterScan (init n value) as)
    (hrun : run step (init n value) as = some s) : s.SeenInv :=
  run_invariant (fun _ _ _ h hcond hstep => h.step hcond (step_spec h.core hstep))
    ⟨.init hvalue, fun _ _ _ _ _ => trivial, by simp [init]⟩ halways hrun

lemma purgeInv_of_run (hvalue : value < trxIdMax)
    (halways : Always step ClearNoBetweenScans (init n value) as)
    (hrun : run step (init n value) as = some s) : s.PurgeInv :=
  run_invariant (fun _ _ _ h hcond hstep => h.step hcond (step_spec h.core hstep))
    ⟨.init hvalue, fun _ => trivial, by simp [init]⟩ halways hrun

/-- In every run a view sees what was deregistered before its snapshot began and nothing
that was not deregistered when it ended. It sees exactly the former if no identifier is
removed ahead of a scan, and its limit is safe for purge if no number is removed between
the two reads of a slot. -/
theorem view_spec (hvalue : value < trxIdMax) (hrun : run step (init n value) as = some s)
    {v : TakenView} (hv : v ∈ s.views) :
    (∀ t ∈ s.trx, (t.id ∈ v.before → v.view.changesVisible t.id = true) ∧
      (t.id ∉ v.after → v.view.changesVisible t.id = false)) ∧
    (Always step ClearIdAfterScan (init n value) as → s.SeesBefore v) ∧
    (Always step ClearNoBetweenScans (init n value) as → s.PurgeSafe v) := by
  have hview := (inv_of_run hvalue hrun).views v hv
  refine ⟨fun t ht => ⟨hview.before t.id, hview.after t ht⟩, fun halways t ht => ?_, ?_⟩
  · have hhidden := (seenInv_of_run hvalue halways hrun).hidden v hv t ht
    refine ⟨fun hvisible => ?_, hview.before t.id⟩
    by_contra hbefore
    simp [hhidden hbefore] at hvisible
  · intro halways
    exact (purgeInv_of_run hvalue halways hrun).safe v hv

def orderedRun : List (Action 1) :=
  [.registerTrx 0, .registerRw 0, .advance 0, .advance 0, .assignNewTrxNo 0, .advance 0,
    .advance 0, .registerTrx 1, .registerRw 1, .advance 1, .advance 1, .deregisterRw 0,
    .advance 0, .assignNewTrxNo 1, .advance 1, .advance 1, .snapshot 0, .read 0, .read 0,
    .read 0, .read 0, .read 0, .read 0, .deregisterRw 1, .advance 1]

theorem view_spec_orderedRun : ∃ s, run step (init 1 1) orderedRun = some s ∧
    s.views.map (fun v => (v.view, v.before, v.after)) = [(⟨5, 3, [3], 4⟩, [1], [1])] ∧
    ∀ v ∈ s.views, s.SeesBefore v ∧ s.PurgeSafe v := by
  have hvalue : 1 < trxIdMax := by decide
  obtain ⟨s, hrun, hviews⟩ : ∃ s, run step (init 1 1) orderedRun = some s ∧
    s.views.map (fun v => (v.view, v.before, v.after)) = [(⟨5, 3, [3], 4⟩, [1], [1])] :=
    ⟨_, rfl, rfl⟩
  refine ⟨s, hrun, hviews, fun v hv => ?_⟩
  obtain ⟨-, hsees, hsafe⟩ := view_spec hvalue hrun hv
  exact ⟨hsees (by decide), hsafe (by decide)⟩

/-- `deregister_rw()` comes between the two reads of the slot, and between the begin of the
snapshot and the scan. -/
theorem view_not_safe_of_deregisterRw :
    (∃ s, run step (init 1 1)
      [.registerTrx 0, .registerRw 0, .advance 0, .advance 0, .assignNewTrxNo 0, .advance 0,
        .advance 0, .snapshot 0, .read 0, .read 0, .read 0, .deregisterRw 0, .advance 0, .read 0,
        .read 0] = some s ∧
      s.trx = [⟨0, 1, some 2, .deregistered⟩] ∧ s.views.map (·.view) = [⟨3, 1, [1], 3⟩] ∧
      ∃ v ∈ s.views, ¬s.PurgeSafe v) ∧
    ∃ s, run step (init 1 1)
      [.registerTrx 0, .registerRw 0, .advance 0, .advance 0, .snapshot 0, .deregisterRw 0,
        .advance 0, .read 0, .read 0, .read 0, .read 0] = some s ∧
      ∃ v ∈ s.views, ¬s.SeesBefore v := by
  refine ⟨⟨_, rfl, rfl, rfl, _, mem_singleton_self _, fun h => ?_⟩,
    _, rfl, _, mem_singleton_self _, fun h => ?_⟩
  · exact absurd (h _ (mem_singleton_self _) (by decide) 2 rfl) (by decide)
  · exact absurd ((h _ (mem_singleton_self _)).mp (by decide)) (by decide)

end Runs

end TrxSys

end MariaDB.Trx
