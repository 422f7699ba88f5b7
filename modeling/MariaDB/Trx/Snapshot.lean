import MariaDB.Trx.Registered

/-!
# Snapshots during other calls

What a thread in `ReadViewBase::snapshot()` knows at each of its accesses, whatever the
other threads do in between. When the version that it read equals `m_max_trx_id`, no
number below it is on its way to a slot, so that the scan finds every transaction that
is below the limit and not deregistered when it comes to its slot.
-/
namespace MariaDB.Trx.TrxSys

open Function RwTrx List

variable {n : Nat} {s s' : TrxSys n}

def Later (m : Nat) (t t' : RwTrx) : Prop := t = t' ∨ ∃ i j, Next m t t' i j

section Later

variable {m : Nat} {t t' : RwTrx} (h : Later m t t')
include h

lemma Later.id_eq : t'.id = t.id := by
  rcases h with rfl | ⟨i, j, h⟩
  · rfl
  · exact h.id_eq

lemma Later.trx_eq : t'.trx = t.trx := by
  rcases h with rfl | ⟨i, j, h⟩
  · rfl
  · exact h.trx_eq

lemma Later.no_eq : t'.no = t.no ∨ t'.no = some m := by
  rcases h with rfl | ⟨i, j, h⟩
  · exact .inl rfl
  · exact h.no_eq.imp_right And.left

lemma Later.dead (hdead : t.phase.dead) : t'.phase.dead := by
  rcases h with rfl | ⟨i, j, h⟩
  · exact hdead
  · exact h.dead hdead

lemma Later.alive (halive : t'.phase.alive) : t.phase.alive ∨ t.phase = .gotId := by
  rcases h with rfl | ⟨i, j, h⟩
  · exact .inl halive
  · exact h.alive halive

lemma Later.pending (hpending : t'.phase.pending) :
    t.phase.pending ∧ t'.no = t.no ∨ t'.no = some m := by
  rcases h with rfl | ⟨i, j, h⟩
  · exact .inl ⟨hpending, rfl⟩
  · exact h.pending hpending

end Later

/-- What a step of any thread can do to the counters and the transactions. -/
structure Evolves (s s' : TrxSys n) : Prop where
  maxTrxId_le : s.maxTrxId ≤ s'.maxTrxId
  version_le : s.rwTrxHashVersion ≤ s'.rwTrxHashVersion
  old : ∀ t ∈ s.trx, ∃ t' ∈ s'.trx, Later s.maxTrxId t t'
  new : ∀ t' ∈ s'.trx, (∃ t ∈ s.trx, Later s.maxTrxId t t') ∨
    ∃ o, t' = ⟨o, s.maxTrxId, none, .gotId⟩

lemma evolves_of_trx_eq (hmax : s.maxTrxId ≤ s'.maxTrxId)
    (hversion : s.rwTrxHashVersion ≤ s'.rwTrxHashVersion) (htrx : s'.trx = s.trx) :
    Evolves s s' :=
  ⟨hmax, hversion, fun t ht => ⟨t, htrx ▸ ht, .inl rfl⟩, fun t ht => .inl ⟨t, htrx ▸ ht, .inl rfl⟩⟩

lemma Step.evolves (hc : s.Core) (h : s.Step a s') : Evolves s s' := by
  cases h with
  | registerRw o =>
    refine ⟨Nat.le_succ _, le_rfl, ?_, ?_⟩
    · intro t ht
      exact ⟨t, mem_append_left _ ht, .inl rfl⟩
    · intro t ht
      rcases mem_append.mp ht with ht | ht
      · exact .inl ⟨t, ht, .inl rfl⟩
      · exact .inr ⟨o, mem_singleton.mp ht⟩
  | trx k t t' i j ht hnext =>
    refine ⟨Nat.le_add_right _ _, Nat.le_add_right _ _, ?_, ?_⟩
    · intro u hu
      by_cases hid : u.id = t.id
      · obtain rfl := hc.eq_of_id hu (mem_of_getElem? ht) hid
        exact ⟨t', (hc.mem_set ht t').mpr (.inl rfl), .inr ⟨i, j, hnext⟩⟩
      · exact ⟨u, (hc.mem_set ht u).mpr (.inr ⟨hu, hid⟩), .inl rfl⟩
    · intro u hu
      rcases (hc.mem_set ht u).mp hu with rfl | ⟨hu, -⟩
      · exact .inl ⟨t, mem_of_getElem? ht, .inr ⟨i, j, hnext⟩⟩
      · exact .inl ⟨u, hu, .inl rfl⟩
  | getNewTrxId => exact evolves_of_trx_eq (Nat.le_succ _) le_rfl rfl
  | refreshRwTrxHashVersion => exact evolves_of_trx_eq le_rfl (Nat.le_succ _) rfl
  | _ => exact evolves_of_trx_eq le_rfl le_rfl rfl

def AllDead (s : TrxSys n) (ids : List Nat) : Prop := ∀ x ∈ ids, x ∈ s.deadIds

lemma mem_deadIds : x ∈ s.deadIds ↔ ∃ t ∈ s.trx, t.phase.dead ∧ t.id = x := by
  simp [deadIds, and_assoc]

lemma AllDead.evolves {ids : List Nat} (h : s.AllDead ids) (hev : Evolves s s') :
    s'.AllDead ids := by
  intro x hx
  obtain ⟨t, ht, hdead, rfl⟩ := mem_deadIds.mp (h x hx)
  obtain ⟨t', ht', hlater⟩ := hev.old t ht
  exact mem_deadIds.mpr ⟨t', ht', hlater.dead hdead, hlater.id_eq⟩

/-- What holds of a scan that has collected the first `i` slots. -/
structure ScanInv (s : TrxSys n) (before : List Nat) (scan : Scan) (i : Nat) : Prop where
  maxTrxId_le : scan.maxTrxId ≤ s.maxTrxId
  minTrxNo_le : scan.minTrxNo ≤ scan.maxTrxId
  pending : ∀ t ∈ s.trx, t.phase.pending → scan.maxTrxId ≤ t.no.getD t.id
  before_lt : ∀ x ∈ before, x < scan.maxTrxId
  nodup : scan.ids.Nodup
  ids : ∀ x ∈ scan.ids, x < scan.maxTrxId ∧ x ∉ before
  collected : ∀ t ∈ s.trx, t.phase.alive → t.id < scan.maxTrxId →
    ∀ p < i, s.trxs[p]? = some t.trx → t.id ∈ scan.ids
  position : ∀ t ∈ s.trx, t.phase.alive → t.id ∈ scan.ids → ∃ p < i, s.trxs[p]? = some t.trx

/-- What holds of a thread in `ReadViewBase::snapshot()`. -/
def ReaderInv (s : TrxSys n) : Reader → Prop
  | .idle => True
  | .start before => s.AllDead before
  | .loaded before version => s.AllDead before ∧ version ≤ s.rwTrxHashVersion
  | .scanId before scan => s.AllDead before ∧ s.ScanInv before scan scan.pos
  | .scanNo before scan => s.AllDead before ∧ s.ScanInv before scan (scan.pos + 1)

variable {before : List Nat}

lemma ScanInv.le_of_gotId (h : s.ScanInv before scan i) (hc : s.Core) (ht : t ∈ s.trx)
    (hphase : t.phase = .gotId) : scan.maxTrxId ≤ t.id := by
  have hno : t.no = none := by
    have := (hc.registered t ht).noFits
    simpa [NoFits, hphase] using this
  have := h.pending t ht (by simp [hphase, Phase.pending])
  simpa [hno] using this

attribute [local simp] Phase.alive

lemma ScanInv.evolves
    (h : s.ScanInv before scan i) (hc : s.Core) (hev : Evolves s s') (htrxs : s'.trxs = s.trxs) :
    s'.ScanInv before scan i where
  __ := h
  maxTrxId_le := h.maxTrxId_le.trans hev.maxTrxId_le
  pending := by
    intro t' ht' hpending
    rcases hev.new t' ht' with ⟨t, ht, hlater⟩ | ⟨o, rfl⟩
    · rcases hlater.pending hpending with ⟨hp, hno⟩ | hno
      · rw [hno, hlater.id_eq]
        exact h.pending t ht hp
      · rw [hno]
        exact h.maxTrxId_le
    · exact h.maxTrxId_le
  collected := by
    intro t' ht' halive hlt p hp hget
    rcases hev.new t' ht' with ⟨t, ht, hlater⟩ | ⟨o, rfl⟩
    · rw [hlater.id_eq] at hlt ⊢
      rw [htrxs, hlater.trx_eq] at hget
      rcases hlater.alive halive with hold | hphase
      · exact h.collected t ht hold hlt p hp hget
      · have := h.le_of_gotId hc ht hphase
        omega
    · simp at halive
  position := by
    intro t' ht' halive hmem
    rcases hev.new t' ht' with ⟨t, ht, hlater⟩ | ⟨o, rfl⟩
    · rw [hlater.id_eq] at hmem
      rw [htrxs, hlater.trx_eq]
      rcases hlater.alive halive with hold | hphase
      · exact h.position t ht hold hmem
      · have := h.le_of_gotId hc ht hphase
        have := (h.ids _ hmem).1
        omega
    · simp at halive

lemma ReaderInv.evolves {reader : Reader} (h : s.ReaderInv reader) (hc : s.Core)
    (hev : Evolves s s') (htrxs : reader.latched → s'.trxs = s.trxs) : s'.ReaderInv reader := by
  cases reader with
  | idle => trivial
  | start => exact AllDead.evolves h hev
  | loaded => exact ⟨h.1.evolves hev, h.2.trans hev.version_le⟩
  | scanId | scanNo => exact ⟨h.1.evolves hev, h.2.evolves hc hev (htrxs rfl)⟩

/-- When the version has caught up, all fetched numbers are in the slots. -/
lemma Core.scanInv (hc : s.Core) (hdead : s.AllDead before)
    (hversion : s.maxTrxId ≤ s.rwTrxHashVersion) :
    s.ScanInv before ⟨s.maxTrxId, 0, [], s.maxTrxId⟩ 0 where
  maxTrxId_le := le_rfl
  minTrxNo_le := le_rfl
  pending := by
    intro t ht hpending
    have hpos : 0 < s.trx.countP (·.phase.pending) := countP_pos_iff.mpr ⟨t, ht, hpending⟩
    have := hc.version
    omega
  before_lt := by
    intro x hx
    obtain ⟨t, ht, -, rfl⟩ := mem_deadIds.mp (hdead x hx)
    exact (hc.registered t ht).id_lt
  nodup := nodup_nil
  ids := by simp
  collected := by simp
  position := by simp

lemma ScanInv.skip (h : s.ScanInv before scan scan.pos) (hc : s.Core)
    (ho : s.trxs[scan.pos]? = some o) (hid : scan.maxTrxId ≤ (s.ids o).id) :
    s.ScanInv before { scan with pos := scan.pos + 1 } (scan.pos + 1) := by
  refine { h with collected := ?_, position := ?_ }
  · intro t ht halive hlt p hp hget
    rcases Nat.lt_succ_iff_lt_or_eq.mp hp with hp | rfl
    · exact h.collected t ht halive hlt p hp hget
    · obtain rfl := Option.some.inj (ho.symm.trans hget)
      have hslot := ((hc.registered t ht).slot (by intro h; simp [h] at halive)).1
      rw [hslot] at hid
      cases hphase : t.phase <;> simp_all [RwTrx.slot] <;> omega
  · intro t ht halive hmem
    obtain ⟨p, hp, hget⟩ := h.position t ht halive hmem
    exact ⟨p, Nat.lt_succ_of_lt hp, hget⟩

lemma ScanInv.collect (h : s.ScanInv before scan scan.pos) (hc : s.Core) (hdead : s.AllDead before)
    (ho : s.trxs[scan.pos]? = some o) (hid : (s.ids o).id < scan.maxTrxId) :
    s.ScanInv before { scan with ids := scan.ids ++ [(s.ids o).id] } (scan.pos + 1) := by
  obtain ⟨t, ht, rfl, halive, heq⟩ := hc.exists_alive (hid.trans_le h.maxTrxId_le)
  rw [heq] at hid ⊢
  obtain ⟨hpos, hget⟩ := List.getElem?_eq_some_iff.mp ho
  have hposition : ∀ p, s.trxs[p]? = some t.trx → p = scan.pos := by
    intro p hp
    obtain ⟨hlt, hgetp⟩ := List.getElem?_eq_some_iff.mp hp
    exact (hc.nodup_trxs.getElem_inj_iff).mp (hgetp.trans hget.symm)
  have hnew : t.id ∉ scan.ids := by
    intro hmem
    obtain ⟨p, hp, hgetp⟩ := h.position t ht halive hmem
    have := hposition p hgetp
    omega
  have hbefore : t.id ∉ before := by
    intro hmem
    obtain ⟨u, hu, hdead, hid⟩ := mem_deadIds.mp (hdead _ hmem)
    obtain rfl := hc.eq_of_id hu ht hid
    cases hphase : u.phase <;> simp_all [Phase.dead]
  refine { h with nodup := ?_, ids := ?_, collected := ?_, position := ?_ }
  · exact nodup_append'.mpr
      ⟨h.nodup, nodup_singleton _, disjoint_singleton.mpr hnew⟩
  · intro x hx
    rcases mem_append.mp hx with hx | hx
    · exact h.ids x hx
    · obtain rfl := mem_singleton.mp hx
      exact ⟨hid, hbefore⟩
  · intro u hu hualive hlt p hp hgetp
    rcases Nat.lt_succ_iff_lt_or_eq.mp hp with hp | rfl
    · exact mem_append_left _ (h.collected u hu hualive hlt p hp hgetp)
    · have htrx : u.trx = t.trx := Option.some.inj (hgetp.symm.trans ho)
      have hne : ∀ v : RwTrx, v.phase.alive → v.phase ≠ .deregistered := by
        rintro v hv h
        simp [h] at hv
      have hueq := hc.owner u hu t ht htrx (hne u hualive) (hne t halive)
      exact mem_append_right _ (mem_singleton.mpr hueq)
  · intro u hu hualive hmem
    rcases mem_append.mp hmem with hmem | hmem
    · obtain ⟨p, hp, hgetp⟩ := h.position u hu hualive hmem
      exact ⟨p, Nat.lt_succ_of_lt hp, hgetp⟩
    · obtain rfl := hc.eq_of_id hu ht (mem_singleton.mp hmem)
      exact ⟨scan.pos, Nat.lt_succ_self _, ho⟩

lemma ScanInv.readNo (h : s.ScanInv before scan i) (pos no : Nat) :
    s.ScanInv before
      { scan with
        pos := pos
        minTrxNo := if no < scan.minTrxNo then no else scan.minTrxNo } i := by
  refine { h with minTrxNo_le := ?_ }
  have := h.minTrxNo_le
  simp only
  split <;> omega

structure ViewInv (s : TrxSys n) (v : TakenView) : Prop where
  before : ∀ x ∈ v.before, v.view.changesVisible x = true
  after : ∀ t ∈ s.trx, t.id ∉ v.after → v.view.changesVisible t.id = false
  visible_lt : ∀ x, v.view.changesVisible x = true → x < s.maxTrxId
  lowLimitNo_le : v.view.lowLimitNo ≤ s.maxTrxId

lemma ViewInv.evolves (h : s.ViewInv v) (hev : Evolves s s') : s'.ViewInv v where
  before := h.before
  after := by
    intro t' ht' hafter
    rcases hev.new t' ht' with ⟨t, ht, hlater⟩ | ⟨o, rfl⟩
    · rw [hlater.id_eq] at hafter ⊢
      exact h.after t ht hafter
    · -- a later identifier is at the limit
      rw [← Bool.not_eq_true]
      exact fun hvisible => absurd (h.visible_lt _ hvisible) (lt_irrefl _)
  visible_lt x hx := (h.visible_lt x hx).trans_le hev.maxTrxId_le
  lowLimitNo_le := h.lowLimitNo_le.trans hev.maxTrxId_le

lemma ScanInv.viewInv (h : s.ScanInv before scan scan.pos)
    (hc : s.Core) (hend : s.trxs[scan.pos]? = none) :
    s.ViewInv ⟨.snapshot scan.maxTrxId scan.ids scan.minTrxNo, before, s.deadIds⟩ := by
  have hids : ∀ id ∈ scan.ids, id < scan.maxTrxId := fun id hid => (h.ids id hid).1
  have hvisible := ReadViewBase.changesVisible_snapshot h.nodup hids scan.minTrxNo
  refine ⟨?_, ?_, ?_, ?_⟩
  · intro x hx
    exact (hvisible x).mpr ⟨h.before_lt x hx, fun hmem => (h.ids x hmem).2 hx⟩
  · intro t ht hafter
    rw [← Bool.not_eq_true, hvisible]
    rintro ⟨hlt, hmem⟩
    have hdead : t.phase.dead = false := by
      rw [← Bool.not_eq_true]
      exact fun hdead => hafter (mem_deadIds.mpr ⟨t, ht, hdead, rfl⟩)
    by_cases hgot : t.phase = .gotId
    · have := h.le_of_gotId hc ht hgot
      omega
    · have halive : t.phase.alive := by
        cases hphase : t.phase <;> simp_all [Phase.dead]
      have htrxs := ((hc.registered t ht).slot (by intro h; simp [h] at halive)).2
      obtain ⟨p, hp⟩ := mem_iff_getElem?.mp htrxs
      have hpos : p < scan.pos := by
        have := (List.getElem?_eq_some_iff.mp hp).1
        have := List.getElem?_eq_none_iff.mp hend
        omega
      exact hmem (h.collected t ht halive hlt p hpos hp)
  · intro x hx
    exact ((hvisible x).mp hx).1.trans_le h.maxTrxId_le
  · calc (ReadViewBase.snapshot scan.maxTrxId scan.ids scan.minTrxNo).lowLimitNo
      _ ≤ scan.minTrxNo := ReadViewBase.lowLimitNo_snapshot_le
      _ ≤ scan.maxTrxId := h.minTrxNo_le
      _ ≤ s.maxTrxId := h.maxTrxId_le

lemma ReaderInv.read (h : s.ReaderInv reader) (hc : s.Core)
    (hread : s.readStep reader = some (reader', view)) :
    s.ReaderInv reader' ∧ ∀ v ∈ view.toList, s.ViewInv v := by
  revert hread
  fun_cases readStep with
  | case1 | case8 => rintro ⟨⟩
  | case2 =>
    rintro ⟨⟩
    exact ⟨⟨h, le_rfl⟩, by simp⟩
  | case3 =>
    rintro ⟨⟩
    exact ⟨⟨h.1, hc.scanInv h.1 h.2⟩, by simp⟩
  | case4 =>
    rintro ⟨⟩
    exact ⟨h.1, by simp⟩
  | case5 before scan hend =>
    rintro ⟨⟩
    refine ⟨trivial, fun v hv => ?_⟩
    obtain rfl := mem_singleton.mp hv
    exact h.2.viewInv hc hend
  | case6 before scan o ho id hid =>
    rintro ⟨⟩
    exact ⟨⟨h.1, h.2.collect hc h.1 ho hid⟩, by simp⟩
  | case7 before scan o ho id hid =>
    rintro ⟨⟩
    exact ⟨⟨h.1, h.2.skip hc ho (Nat.le_of_not_lt hid)⟩, by simp⟩
  | case9 =>
    rintro ⟨⟩
    exact ⟨⟨h.1, h.2.readNo _ _⟩, by simp⟩

structure Inv (s : TrxSys n) : Prop where
  core : s.Core
  readers : ∀ r, s.ReaderInv (s.readers r)
  views : ∀ v ∈ s.views, s.ViewInv v

lemma Inv.init (hvalue : value < trxIdMax) : (TrxSys.init n value).Inv where
  core := .init hvalue
  readers _ := trivial
  views := by simp [TrxSys.init]

lemma LatchFree.readers (h : s.LatchFree) (r : Fin n) : (s.readers r).latched = true → False := by
  simp [h.2 r]

lemma Step.trxs_eq (hstep : s.Step a s') (hlatched : (s.readers r).latched = true) :
    s'.trxs = s.trxs := by
  cases hstep with
  | registerTrx o ho hfree | deregisterTrx o ho hfree => exact (hfree.readers r hlatched).elim
  | _ => rfl

/-- What holds of the readers and views that there are, of a snapshot that begins and of one that
goes on holds after a step. -/
lemma Step.readers_views (hstep : s.Step a s') {P : Reader → Prop} {Q : TakenView → Prop}
    (hreaders : ∀ r, P (s.readers r)) (hviews : ∀ v ∈ s.views, Q v)
    (hstart : ∀ r, s' = { s with readers := update s.readers r (.start s.deadIds) } →
      P (.start s.deadIds))
    (hread : ∀ r reader view, s.readStep (s.readers r) = some (reader, view) →
      s' = { s with readers := update s.readers r reader, views := s.views ++ view.toList } →
      P reader ∧ ∀ v ∈ view.toList, Q v) :
    (∀ r, P (s'.readers r)) ∧ ∀ v ∈ s'.views, Q v := by
  cases hstep with
  | snapshot r =>
    exact ⟨(forall_update_iff _ fun _ => P).mpr ⟨hstart r rfl, fun r' _ => hreaders r'⟩, hviews⟩
  | read r reader view h =>
    obtain ⟨hreader, hview⟩ := hread r reader view h rfl
    exact ⟨(forall_update_iff _ fun _ => P).mpr ⟨hreader, fun r' _ => hreaders r'⟩,
      forall_mem_append.mpr ⟨hviews, hview⟩⟩
  | _ => exact ⟨hreaders, hviews⟩

lemma Inv.step (h : s.Inv) (hstep : s.Step a s') : s'.Inv := by
  have hc := h.core
  have hev := hstep.evolves hc
  obtain ⟨hreaders, hviews⟩ := hstep.readers_views
    (fun r => (h.readers r).evolves hc hev hstep.trxs_eq)
    (fun v hv => (h.views v hv).evolves hev)
    (by rintro r rfl; exact fun x hx => hx)
    (fun r reader view hread hs' => by
      obtain ⟨hreader, hview⟩ := (h.readers r).read hc hread
      exact ⟨hreader.evolves hc hev fun _ => hs' ▸ rfl, fun v hv => (hview v hv).evolves hev⟩)
  exact ⟨hc.step hstep, hreaders, hviews⟩

end MariaDB.Trx.TrxSys
