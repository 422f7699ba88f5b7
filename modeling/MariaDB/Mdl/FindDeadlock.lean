import MariaDB.Mdl.Deadlock

/-!
# The search ends, and leaves no deadlock behind

A visit comes back before it is `MAX_SEARCH_DEPTH` nodes deep, and if it finds a deadlock
its victim is a context with an empty slot, so that every turn of `find_deadlock` leaves
fewer of them. A visit that finds nothing has refuted every walk from the start to itself.
-/
namespace MariaDB.Mdl.WaitGraph

open Option Finset

variable {ι κ T L : Type*}
variable {g : WaitGraph ι κ T L} {s : Search κ} {v v' : Visitor κ} {c start : κ}
  {r : Bool × Visitor κ}

structure Visits (s : Search κ) (v : Visitor κ) (r : Bool × Visitor κ) : Prop where
  startNode : r.2.startNode = v.startNode
  notFound : r.1 = false → r.2.currentSearchDepth = v.currentSearchDepth ∧
    r.2.victim = v.victim ∧ r.2.foundDeadlock = false
  found : r.1 = true → r.2.foundDeadlock = true ∧ ∃ w, r.2.victim = some w ∧ s.slot w = .empty

/-- The victim, if there is one, is a context that could still be told. -/
def VictimOk (s : Search κ) (v : Visitor κ) : Prop := ∀ w, v.victim = some w → s.slot w = .empty

lemma optChangeVictimTo_spec (hv : VictimOk s v) (hc : s.slot c = .empty) :
    (g.optChangeVictimTo s v c).startNode = v.startNode ∧
    (g.optChangeVictimTo s v c).foundDeadlock = v.foundDeadlock ∧
    ∃ w, (g.optChangeVictimTo s v c).victim = some w ∧ s.slot w = .empty := by
  grind [optChangeVictimTo, VictimOk]

lemma leaveNode_found (hfound : v.foundDeadlock = true) (hv : VictimOk s v)
    (hc : s.slot c = .empty) :
    (g.leaveNode s v c).startNode = v.startNode ∧ (g.leaveNode s v c).foundDeadlock = true ∧
    ∃ w, (g.leaveNode s v c).victim = some w ∧ s.slot w = .empty := by
  unfold leaveNode
  dsimp only
  rw [if_pos hfound]
  obtain ⟨hstart, hf, hw⟩ :=
    optChangeVictimTo_spec (g := g) (v := { v with currentSearchDepth := v.currentSearchDepth - 1 })
      hv hc
  exact ⟨hstart, hf.trans hfound, hw⟩

/-! ### A visit comes back -/

lemma visitNodes_spec
    (hvisit : ∀ c v, v.currentSearchDepth = k → v.victim = none → v.foundDeadlock = false →
      ∃ r, visit c v = some r ∧ Visits s v r) (cs : List κ) (v : Visitor κ)
    (hk : v.currentSearchDepth = k) (hvictim : v.victim = none) (hfound : v.foundDeadlock = false) :
    ∃ r, visitNodes visit cs v = some r ∧ Visits s v r := by
  induction cs generalizing v with
  | nil => exact ⟨_, rfl, rfl, fun _ => ⟨rfl, rfl, hfound⟩, by simp⟩
  | cons c cs ih =>
    obtain ⟨r, hr, hvisits⟩ := hvisit c v hk hvictim hfound
    simp only [visitNodes, hr, bind_some]
    cases hr1 : r.1 with
    | true => exact ⟨r, by simp, hvisits⟩
    | false =>
      obtain ⟨hdepth, hvic, hf⟩ := hvisits.notFound hr1
      obtain ⟨r', hr', hvisits'⟩ := ih r.2 (hdepth.trans hk) (hvic.trans hvictim) hf
      refine ⟨r', by simpa using hr', hvisits'.startNode.trans hvisits.startNode, fun h => ?_,
        hvisits'.found⟩
      obtain ⟨hd', hv', hf'⟩ := hvisits'.notFound h
      exact ⟨hd'.trans hdepth, hv'.trans hvic, hf'⟩

lemma enterNode_of_le (h : maxSearchDepth ≤ v.currentSearchDepth + 1) :
    g.enterNode s v c = (true, g.optChangeVictimTo s
      { v with currentSearchDepth := v.currentSearchDepth + 1, foundDeadlock := true } c) := by
  simp [enterNode, h]

lemma enterNode_of_lt (h : v.currentSearchDepth + 1 < maxSearchDepth) : g.enterNode s v c = (false,
      { v with currentSearchDepth := v.currentSearchDepth + 1, foundDeadlock := false }) := by
  simp [enterNode, not_le.mpr h]

lemma leaveNode_notFound (h : v.foundDeadlock = false) :
    g.leaveNode s v c = { v with currentSearchDepth := v.currentSearchDepth - 1 } := by
  simp [leaveNode, h]

lemma leaveNode_startNode (s : Search κ) (v : Visitor κ) (c : κ) :
    (g.leaveNode s v c).startNode = v.startNode := by
  unfold leaveNode optChangeVictimTo
  dsimp only
  split_ifs
  · split
    · rfl
    · split_ifs <;> rfl
  · rfl

lemma visitNodes_false
    (hstart : ∀ c v r, visit c v = some r → r.1 = false → r.2.startNode = v.startNode)
    (cs : List κ) (v : Visitor κ) (hr : visitNodes visit cs v = some r)
    (hfalse : r.1 = false) :
    r.2.startNode = v.startNode ∧ ∀ c ∈ cs, ∃ v₁ r₁, v₁.startNode = v.startNode ∧
      visit c v₁ = some r₁ ∧ r₁.1 = false := by
  induction cs generalizing v with
  | nil =>
    cases hr
    simp
  | cons c cs ih =>
    obtain ⟨r₁, hr₁, heq⟩ := bind_eq_some_iff.mp hr
    split_ifs at heq with h1
    · cases heq
      simp [h1] at hfalse
    · have hf₁ : r₁.1 = false := by simpa using h1
      have hs₁ := hstart c v r₁ hr₁ hf₁
      obtain ⟨hs, hall⟩ := ih r₁.2 heq
      refine ⟨hs.trans hs₁, fun d hd => ?_⟩
      rcases List.mem_cons.mp hd with rfl | hd
      · exact ⟨v, r₁, rfl, hr₁, hf₁⟩
      · obtain ⟨v₂, r₂, hv₂, hr₂⟩ := hall d hd
        exact ⟨v₂, r₂, hv₂.trans hs₁, hr₂⟩

variable [DecidableEq κ] (cs : List κ)

lemma inspectEdges_spec (v : Visitor κ) :
    (inspectEdges cs v).2 = { v with foundDeadlock := (inspectEdges cs v).2.foundDeadlock } ∧
    ((inspectEdges cs v).1 = true → (inspectEdges cs v).2.foundDeadlock = true) ∧
    ((inspectEdges cs v).1 = false → ∀ c ∈ cs, c ≠ v.startNode) ∧
    ((inspectEdges cs v).1 = false → v.foundDeadlock = false →
      (inspectEdges cs v).2.foundDeadlock = false) := by
  induction cs generalizing v with
  | nil => simp [inspectEdges]
  | cons c cs ih =>
    unfold inspectEdges inspectEdge
    dsimp only
    split_ifs with hc
    · have hc' : c = v.startNode := by simpa using hc
      simp [hc']
    · have hc' : c ≠ v.startNode := by simpa using hc
      obtain ⟨heq, htrue, hfalse, hkeep⟩ := ih { v with foundDeadlock := c = v.startNode }
      refine ⟨heq, htrue, fun h d hd => ?_, fun h _ => hkeep h (by simpa using hc')⟩
      rcases List.mem_cons.mp hd with rfl | hd
      · exact hc'
      · exact hfalse h d hd

lemma inspectEdges_startNode (v : Visitor κ) : (inspectEdges cs v).2.startNode = v.startNode := by
  rw [(inspectEdges_spec cs v).1]

lemma card_makeVictim_lt [Fintype κ] (hc : s.slot c = .empty) :
    (univ.filter fun d => (s.makeVictim c).slot d = .empty).card <
      (univ.filter fun d => s.slot d = .empty).card := by
  refine card_lt_card ⟨fun d hd => ?_, fun hsub => ?_⟩
  · simp only [Search.makeVictim, hc, if_true, mem_filter, mem_univ, true_and]
      at hd ⊢
    by_cases hdc : d = c
    · rwa [hdc]
    · rwa [Function.update_of_ne hdc] at hd
  · have := hsub (mem_filter.mpr ⟨mem_univ c, hc⟩)
    simp [Search.makeVictim, hc] at this

variable [DecidableEq T]

/-- The walk is cut at `MAX_SEARCH_DEPTH`, so that this much fuel is enough. -/
lemma visitSubgraph_spec (g : WaitGraph ι κ T L) (s : Search κ) (fuel : Nat) (c : κ)
    (v : Visitor κ) (hpos : 0 < fuel) (hfuel : maxSearchDepth ≤ fuel + v.currentSearchDepth)
    (hvictim : v.victim = none) (hfound : v.foundDeadlock = false) :
    ∃ r, g.visitSubgraph s fuel c v = some r ∧ Visits s v r := by
  induction fuel generalizing c v with
  | zero => omega
  | succ fuel ih =>
    unfold visitSubgraph
    split_ifs with hskip
    · exact ⟨_, rfl, rfl, fun _ => ⟨rfl, rfl, hfound⟩, by simp⟩
    have hslot : s.slot c = .empty := by
      by_contra hne
      exact hskip (.inr hne)
    by_cases hdepth : maxSearchDepth ≤ v.currentSearchDepth + 1
    · rw [enterNode_of_le hdepth]
      have hv : VictimOk s
          { v with currentSearchDepth := v.currentSearchDepth + 1, foundDeadlock := true } := by
        simp [VictimOk, hvictim]
      obtain ⟨hstart, hf, hw⟩ := optChangeVictimTo_spec (g := g) hv hslot
      exact ⟨_, rfl, hstart, by simp, fun _ => ⟨hf, hw⟩⟩
    · rw [enterNode_of_lt (by omega)]
      obtain ⟨heq, htrue, -, hkeep⟩ := inspectEdges_spec (g.edges c)
        { v with currentSearchDepth := v.currentSearchDepth + 1, foundDeadlock := false }
      dsimp only
      generalize inspectEdges (g.edges c) _ = r at heq htrue hkeep ⊢
      have hr : r.2.startNode = v.startNode ∧ r.2.victim = none ∧
          r.2.currentSearchDepth = v.currentSearchDepth + 1 := by
        rw [heq]
        exact ⟨rfl, hvictim, rfl⟩
      cases hr1 : r.1 with
      | true =>
        obtain ⟨hstart, hf, hw⟩ := leaveNode_found (g := g) (htrue hr1)
          (by simp [VictimOk, hr.2.1]) hslot
        exact ⟨(true, g.leaveNode s r.2 c), rfl, hstart.trans hr.1, by simp, fun _ => ⟨hf, hw⟩⟩
      | false =>
        have hvisit : ∀ c u, u.currentSearchDepth = v.currentSearchDepth + 1 → u.victim = none →
            u.foundDeadlock = false → ∃ r, g.visitSubgraph s fuel c u = some r ∧ Visits s u r :=
          fun c u hk hu hf => ih c u (by omega) (by omega) hu hf
        obtain ⟨r', hr', hvisits⟩ :=
          visitNodes_spec hvisit (g.edges c) r.2 hr.2.2 hr.2.1 (hkeep hr1 rfl)
        refine ⟨(r'.1, g.leaveNode s r'.2 c), by simp [hr'], ?_⟩
        cases hr'1 : r'.1 with
        | true =>
          obtain ⟨hf, w, hw, hws⟩ := hvisits.found hr'1
          have hv : VictimOk s r'.2 := fun x hx => by
            rw [hw] at hx
            exact some.inj hx ▸ hws
          obtain ⟨hstart, hf', hw'⟩ := leaveNode_found (g := g) hf hv hslot
          exact ⟨(hstart.trans hvisits.startNode).trans hr.1, by simp, fun _ => ⟨hf', hw'⟩⟩
        | false =>
          obtain ⟨hd, hvic, hf⟩ := hvisits.notFound hr'1
          rw [leaveNode_notFound hf]
          refine ⟨hvisits.startNode.trans hr.1, fun _ => ⟨?_, ?_, hf⟩, by simp⟩
          · simp [hd, hr.2.2]
          · simp [hvic, hr.2.1, hvictim]

/-! ### A visit that finds nothing -/

/-- A visit from the context has found nothing. -/
def Refuted (g : WaitGraph ι κ T L) (s : Search κ) (start c : κ) : Prop :=
  ∃ fuel v r, v.startNode = start ∧ g.visitSubgraph s fuel c v = some r ∧ r.1 = false

lemma visitSubgraph_false (fuel : Nat) (c : κ) (v : Visitor κ)
    (hr : g.visitSubgraph s fuel c v = some r) (hfalse : r.1 = false) :
    r.2.startNode = v.startNode ∧ (s.slot c = .empty → ∀ d ∈ g.edges c,
      d ≠ v.startNode ∧ g.Refuted s v.startNode d) := by
  induction fuel generalizing c v r with
  | zero => simp [visitSubgraph] at hr
  | succ fuel ih =>
    simp only [visitSubgraph] at hr
    split_ifs at hr with hskip hstop hfound
    · cases hr
      refine ⟨rfl, fun hslot d hd => ?_⟩
      rcases hskip with hnone | hne
      · simp [edges, hnone] at hd
      · exact absurd hslot hne
    · cases hr
      simp [hstop] at hfalse
    · cases hr
      simp at hfalse
    · have hlt : v.currentSearchDepth + 1 < maxSearchDepth := by
        by_contra hge
        rw [enterNode_of_le (by omega)] at hstop
        simp at hstop
      rw [enterNode_of_lt hlt] at hr hfound
      obtain ⟨r', hr', rfl⟩ := map_eq_some_iff.mp hr
      have hstart : ∀ c v r, g.visitSubgraph s fuel c v = some r → r.1 = false →
          r.2.startNode = v.startNode := fun c v r h hf => (ih c v h hf).1
      obtain ⟨hs', hall⟩ := visitNodes_false hstart _ _ hr' hfalse
      rw [inspectEdges_startNode] at hs' hall
      refine ⟨?_, fun _ d hd => ⟨?_, ?_⟩⟩
      · exact (leaveNode_startNode s r'.2 c).trans hs'
      · exact (inspectEdges_spec (g.edges c) { v with
          currentSearchDepth := v.currentSearchDepth + 1, foundDeadlock := false }).2.2.1
          (by simpa using hfound) d hd
      · obtain ⟨v₁, r₁, hv₁, hr₁, hf₁⟩ := hall d hd
        exact ⟨fuel, v₁, r₁, hv₁, hr₁, hf₁⟩

/-! ### The whole search -/

/-- One context waits for another, and both can still be told that they are victims. -/
def Waits (g : WaitGraph ι κ T L) (s : Search κ) (a b : κ) : Prop :=
  s.slot a = .empty ∧ s.slot b = .empty ∧ b ∈ g.edges a

lemma no_cycle_of_refuted (h : g.Refuted s start start) :
    ¬ Relation.TransGen (g.Waits s) start start := by
  have hstep {a b : κ} (ha : g.Refuted s start a) (hab : g.Waits s a b) :
      b ≠ start ∧ g.Refuted s start b := by
    obtain ⟨fuel, v, r, rfl, hr, hfalse⟩ := ha
    exact (visitSubgraph_false fuel a v hr hfalse).2 hab.1 b hab.2.2
  intro hcycle
  have hall : ∀ b, Relation.TransGen (g.Waits s) start b → b ≠ start ∧ g.Refuted s start b := by
    intro b hb
    induction hb with
    | single hab => exact hstep h hab
    | tail _ hbc ih => exact hstep ih.2 hbc
  exact (hall start hcycle).1 rfl

lemma findDeadlock_spec [Fintype κ] (g : WaitGraph ι κ T L) (start : κ) (fuel : Nat) (s : Search κ)
    (hfuel : (univ.filter fun d => s.slot d = .empty).card + maxSearchDepth < fuel) :
    ∃ s', g.findDeadlock start fuel s = some s' ∧
      (s'.slot start = .victim ∨ ¬ Relation.TransGen (g.Waits s') start start) := by
  induction fuel generalizing s with
  | zero => omega
  | succ fuel ih =>
    obtain ⟨r, hr, hvisits⟩ := g.visitSubgraph_spec s fuel start ⟨start, none, 0, false⟩
      (by unfold maxSearchDepth at hfuel; omega) (by dsimp only; omega) rfl rfl
    simp only [findDeadlock, hr, bind_some]
    cases hr1 : r.1 with
    | false => exact ⟨s, by simp, .inr (no_cycle_of_refuted ⟨fuel, _, r, rfl, hr, hr1⟩)⟩
    | true =>
      obtain ⟨-, w, hw, hslot⟩ := hvisits.found hr1
      simp only [hw, bind_some, if_true]
      split_ifs with hwstart
      · subst hwstart
        refine ⟨_, rfl, .inl ?_⟩
        simp [Search.makeVictim, hslot]
      · have hlt := card_makeVictim_lt hslot
        exact ih _ (by omega)

/-- `find_deadlock` comes back, whatever cycles the graph has. Then the context that
searches is a victim, or is on no cycle of contexts whose slots are empty. -/
theorem findDeadlock_terminates [Finite κ] (g : WaitGraph ι κ T L) (start : κ) (s : Search κ) :
    ∃ enough, ∀ fuel, enough ≤ fuel → ∃ s', g.findDeadlock start fuel s = some s' ∧
      (s'.slot start = .victim ∨ ¬ Relation.TransGen (g.Waits s') start start) := by
  cases nonempty_fintype κ
  refine ⟨Fintype.card κ + maxSearchDepth + 1, fun fuel hfuel => ?_⟩
  refine g.findDeadlock_spec start fuel s ?_
  have := (univ.filter fun d => s.slot d = .empty).card_le_univ
  omega

def twoTables : WaitGraph Nat Bool MdlType Bool where
  lock l :=
    { granted := TicketList.empty.addGranted ⟨0, l, .exclusive⟩
      waiting := TicketList.empty.addGranted ⟨1, !l, .exclusive⟩
      hogLockCount := 0
      destroyed := false }
  strategy _ := objectLock
  deadlockWeight _ := MdlType.deadlockWeight
  waitingFor c := some (!c, .exclusive)

example : (twoTables.findDeadlock true 40 ⟨fun _ => .empty, fun _ => 0⟩).map (·.slot true) =
    some .victim := by decide

theorem findDeadlock_terminates_twoTables : ∃ enough, ∀ fuel, enough ≤ fuel →
      ∃ s', twoTables.findDeadlock true fuel ⟨fun _ => .empty, fun _ => 0⟩ = some s' ∧
        (s'.slot true = .victim ∨ ¬ Relation.TransGen (twoTables.Waits s') true true) :=
  findDeadlock_terminates twoTables true ⟨fun _ => .empty, fun _ => 0⟩

end MariaDB.Mdl.WaitGraph
