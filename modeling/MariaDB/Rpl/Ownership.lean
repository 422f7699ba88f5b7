import MariaDB.Rpl.IgnoreDuplicates

/-!
# The owner of a domain

A step of the workers keeps the owner of the domain, lets one more event group of one
connection through or takes one away. The reference count is the number of event groups
in state `GTID_DUPLICATE_OWNER` in every state that is reached, and what was committed is
not let through again.
-/
namespace MariaDB.Rpl

open Option SlaveState

variable {ρ τ γ : Type*}

/-- One event group fewer: what `dropOwner` leaves of the owner and of the count. -/
def dropped (owner : Option ρ) (count : Nat) : Option ρ × Nat :=
  (if count - 1 = 0 then none else owner, count - 1)

lemma Element.release_owner (e : Element ρ τ) (d : DuplicateState) :
    ((e.release d).1.ownerRli, (e.release d).1.ownerCount) =
      if d = .owner then dropped e.ownerRli e.ownerCount else (e.ownerRli, e.ownerCount) := by
  unfold release dropOwner dropped
  split_ifs <;> rfl

namespace SlaveState

variable {e : Element ρ τ}

attribute [local simp] ownerCount ownerRli

lemma updateNolock_spec {s : SlaveState ρ τ} {malloc : Malloc} {l : ListElement}
    {d : Option DuplicateState} (h : s.getElement malloc.elem = some e) :
    let r := s.updateNolock malloc l d
    r.duplicate = d.map (fun _ => .null) ∧ r.state.highestSeqNo = max s.highestSeqNo l.seqNo ∧
    (r.state.ownerRli, r.state.ownerCount) =
      if d = some .owner then dropped s.ownerRli s.ownerCount
      else (s.ownerRli, s.ownerCount) := by
  obtain rfl := getElement_eq_some h
  have howner := ((s.element.raise l.seqNo).wakeWaiter l.seqNo).1.release_owner
  unfold updateNolock
  rw [h]
  cases d with
  | none =>
    simp only [map_none, reduceCtorEq, if_false]
    split <;> simp [highestSeqNo]
  | some d =>
    simp only [map_some, some.injEq]
    split <;> refine ⟨rfl, by simp [highestSeqNo], ?_⟩ <;>
      simpa using howner d

lemma releaseDomainOwner_spec {s : SlaveState ρ τ} (rgi : GroupInfo ρ)
    (h : s.getElement malloc = some e) : let r := s.releaseDomainOwner malloc rgi
    r.2.1 = { rgi with duplicate := .null } ∧ r.1.highestSeqNo = s.highestSeqNo ∧
    (r.1.ownerRli, r.1.ownerCount) =
      if rgi.duplicate = .owner then dropped s.ownerRli s.ownerCount
      else (s.ownerRli, s.ownerCount) := by
  obtain rfl := getElement_eq_some h
  have howner := s.element.release_owner rgi.duplicate
  unfold releaseDomainOwner
  rw [h]
  refine ⟨rfl, by simp [highestSeqNo], ?_⟩
  simpa using howner

/-- A pass of `check_duplicate_gtid()` either returns 1, and the event group is now active in
a domain that was free or owned by its connection, or changes neither the owner nor the
state of an event group that is active. -/
lemma checkDuplicateGtid_cases [DecidableEq ρ] (s : SlaveState ρ τ) (malloc killed : Bool)
    (rgi : GroupInfo ρ) :
    let r := s.checkDuplicateGtid malloc killed rgi
    (r.2.2 = .returns 1 ∧ s.highestSeqNo < rgi.seqNo ∧ r.2.1 = { rgi with duplicate := .owner } ∧
      r.1.highestSeqNo = s.highestSeqNo ∧ r.1.ownerRli = some rgi.rli ∧
      (s.ownerRli = none ∧ r.1.ownerCount = 1 ∨
        s.ownerRli = some rgi.rli ∧ r.1.ownerCount = s.ownerCount + 1)) ∨
    (r.2.2 ≠ .returns 1 ∧ (r.2.1 = rgi ∨ r.2.1 = { rgi with duplicate := .ignore }) ∧
      r.1.highestSeqNo = s.highestSeqNo ∧ r.1.ownerRli = s.ownerRli ∧
      r.1.ownerCount = s.ownerCount) := by
  unfold checkDuplicateGtid
  cases h : s.getElement malloc with
  | none => simp
  | some =>
    obtain rfl := getElement_eq_some h
    simp only
    split
    · simp [highestSeqNo]
    next hlt =>
    cases howner : s.element.ownerRli with
    | none => simp [highestSeqNo, not_le.mp hlt, howner]
    | some =>
      simp only
      split
      next heq => simp [highestSeqNo, not_le.mp hlt, heq, howner]
      next hne =>
      split <;> simp [highestSeqNo, howner]

end SlaveState

namespace Slave

open Library

/-- The event group was let through and is neither committed nor released. -/
def Owns (s : Slave γ ρ τ) (g : γ) : Prop := (s.rgi g).duplicate = .owner

/-- What a step does to the event groups that are active in the domain. -/
inductive Effect (s s' : Slave γ ρ τ) : Prop
  | keep (owner : s'.state.ownerRli = s.state.ownerRli)
      (count : s'.state.ownerCount = s.state.ownerCount)
      (highest : s.state.highestSeqNo ≤ s'.state.highestSeqNo)
      (owns : ∀ g, s'.Owns g ↔ s.Owns g) (same : ∀ g, s.Owns g → s'.rgi g = s.rgi g)
  | grab (g : γ) (idle : ¬ s.Owns g) (fresh : s.state.highestSeqNo < (s.rgi g).seqNo)
      (highest : s'.state.highestSeqNo = s.state.highestSeqNo)
      (owner : s'.state.ownerRli = some (s.rgi g).rli)
      (count : s.state.ownerRli = none ∧ s'.state.ownerCount = 1 ∨
        s.state.ownerRli = some (s.rgi g).rli ∧ s'.state.ownerCount = s.state.ownerCount + 1)
      (owns : ∀ g', s'.Owns g' ↔ g' = g ∨ s.Owns g')
      (same : ∀ g', g' = g ∨ s.Owns g' →
        (s'.rgi g').rli = (s.rgi g').rli ∧ (s'.rgi g').seqNo = (s.rgi g').seqNo)
  | drop (g : γ) (active : s.Owns g) (highest : s.state.highestSeqNo ≤ s'.state.highestSeqNo)
      (owner : (s'.state.ownerRli, s'.state.ownerCount) =
        dropped s.state.ownerRli s.state.ownerCount)
      (owns : ∀ g', s'.Owns g' ↔ g' ≠ g ∧ s.Owns g')
      (same : ∀ g', g' ≠ g → s'.rgi g' = s.rgi g')

variable [DecidableEq γ]

variable {s s' : Slave γ ρ τ} {state : SlaveState ρ τ} {g g' : γ} {rgi : GroupInfo ρ}
  {as : List (SlaveAction γ ρ)} {a : SlaveAction γ ρ}

lemma owns_setRgi : (s.setRgi state g rgi).Owns g' ↔
      g' = g ∧ rgi.duplicate = .owner ∨ g' ≠ g ∧ s.Owns g' := by
  by_cases h : g' = g
  · subst h
    simp [Owns, setRgi]
  · simp [Owns, setRgi, h]

lemma setRgi_rgi_of_ne (h : g' ≠ g) : (s.setRgi state g rgi).rgi g' = s.rgi g' := by
  simp [setRgi, h]

lemma Effect.of_idle (hidle : ¬ s.Owns g) (hrgi : rgi.duplicate ≠ .owner)
    (howner : state.ownerRli = s.state.ownerRli) (hcount : state.ownerCount = s.state.ownerCount)
    (hhigh : s.state.highestSeqNo ≤ state.highestSeqNo) : Effect s (s.setRgi state g rgi) := by
  refine .keep howner hcount hhigh (fun g' => ?_) (fun g' hg' => ?_)
  · rw [owns_setRgi]
    by_cases h : g' = g
    · subst h
      simp [hrgi, hidle]
    · simp [h]
  · exact setRgi_rgi_of_ne fun h => hidle (h ▸ hg')

/-- An event group is not active any more; if it was, it leaves the owner. -/
lemma Effect.of_release (hrgi : rgi.duplicate ≠ .owner)
    (howner : (state.ownerRli, state.ownerCount) = if (s.rgi g).duplicate = .owner then
      dropped s.state.ownerRli s.state.ownerCount else (s.state.ownerRli, s.state.ownerCount))
    (hhigh : s.state.highestSeqNo ≤ state.highestSeqNo) : Effect s (s.setRgi state g rgi) := by
  split_ifs at howner with hg
  · refine .drop g hg hhigh howner (fun g' => ?_) (fun g' h => setRgi_rgi_of_ne h)
    rw [owns_setRgi]
    simp [hrgi]
  · exact .of_idle hg hrgi (congrArg Prod.fst howner) (congrArg Prod.snd howner) hhigh

/-- The event groups that are active belong to the owner of the domain, and the reference
count is their number. -/
structure Inv (s : Slave γ ρ τ) : Prop where
  owner : ∀ g, s.Owns g → s.state.ownerRli = some (s.rgi g).rli
  finite : {g | s.Owns g}.Finite
  count : s.state.ownerCount = {g | s.Owns g}.ncard
  free : s.state.ownerRli = none ↔ s.state.ownerCount = 0

omit [DecidableEq γ] in
lemma Inv.idle_of_none {s : Slave γ ρ τ} (h : s.Inv) (g : γ) (hnone : s.state.getElement m = none) :
    ¬ s.Owns g := by
  intro hg
  have howner := h.owner g hg
  cases helem : s.state.elem with
  | none => simp [SlaveState.ownerRli, SlaveState.element, Element.init, helem] at howner
  | some e => simp [SlaveState.getElement, helem] at hnone

lemma Inv.effect [DecidableEq ρ] (h : s.Inv) (hstep : s.step a = some s') : Effect s s' := by
  cases a with
  | reinit | eventGroupNewGtid =>
    obtain ⟨hidle, heq⟩ := ite_none_left_eq_some.mp hstep
    cases heq
    exact .of_idle hidle (by simp_all) rfl rfl le_rfl
  | skipped =>
    obtain ⟨hignore, heq⟩ := ite_none_right_eq_some.mp hstep
    cases heq
    exact .of_idle (by simp [Owns, hignore]) (by simp) rfl rfl le_rfl
  | checkDuplicateGtid g malloc killed =>
    obtain ⟨hidle, heq⟩ := ite_none_left_eq_some.mp hstep
    cases heq
    rcases s.state.checkDuplicateGtid_cases malloc killed (s.rgi g) with
      ⟨-, hfresh, hrgi, hhigh, howner, hcount⟩ | ⟨-, hrgi, hhigh, howner, hcount⟩
    · refine .grab g hidle hfresh hhigh howner hcount (fun g' => ?_) (fun g' hg' => ?_)
      · rw [owns_setRgi, hrgi]
        by_cases hne : g' = g <;> simp [hne]
      · by_cases hne : g' = g
        · subst hne
          simp [setRgi, hrgi]
        · simp [setRgi_rgi_of_ne hne]
    · refine .of_idle hidle ?_ howner hcount hhigh.ge
      rcases hrgi with hrgi | hrgi
      · rw [hrgi]
        exact hidle
      · simp [hrgi]
  | commit g malloc subId serverId hton =>
    cases hstep
    cases he : s.state.getElement malloc.elem with
    | none =>
      have hidle := h.idle_of_none g he
      rw [updateNolock_of_getElement_none he]
      exact .of_idle hidle hidle rfl rfl le_rfl
    | some =>
      obtain ⟨hdup, hhigh, howner⟩ := updateNolock_spec
        (l := s.row g subId serverId hton) (d := some (s.rgi g).duplicate) he
      exact .of_release (by simp [hdup]) (by simpa using howner) (by simp [hhigh])
  | update malloc l =>
    cases hstep
    cases he : s.state.getElement malloc.elem with
    | none =>
      rw [updateNolock_of_getElement_none he]
      exact .keep rfl rfl le_rfl (fun _ => Iff.rfl) fun _ _ => rfl
    | some =>
      obtain ⟨-, hhigh, howner⟩ := updateNolock_spec (l := l) (d := none) he
      rw [if_neg (by simp)] at howner
      exact .keep (congrArg Prod.fst howner) (congrArg Prod.snd howner) (by simp [hhigh])
        (fun _ => Iff.rfl) fun _ _ => rfl
  | releaseDomainOwner g malloc =>
    cases hstep
    cases he : s.state.getElement malloc with
    | none =>
      have hidle := h.idle_of_none g he
      have heq : s.state.releaseDomainOwner malloc (s.rgi g) = (s.state, s.rgi g, []) := by
        unfold SlaveState.releaseDomainOwner
        rw [he]
      rw [heq]
      exact .of_idle hidle hidle rfl rfl le_rfl
    | some =>
      obtain ⟨hdup, hhigh, howner⟩ := releaseDomainOwner_spec (s.rgi g) he
      exact .of_release (by simp [hdup]) howner hhigh.ge

omit [DecidableEq γ] in
lemma Inv.of_effect {s s' : Slave γ ρ τ} (h : s.Inv) (heffect : Effect s s') : s'.Inv := by
  cases heffect with
  | keep owner count highest owns same =>
    have hset : {g | s'.Owns g} = {g | s.Owns g} := Set.ext owns
    refine ⟨fun g hg => ?_, hset ▸ h.finite, by rw [count, hset, h.count], ?_⟩
    · rw [owner, same g ((owns g).mp hg)]
      exact h.owner g ((owns g).mp hg)
    · rw [owner, count]
      exact h.free
  | grab g idle fresh highest owner count owns same =>
    have hset : {g' | s'.Owns g'} = insert g {g' | s.Owns g'} := Set.ext owns
    have hcard : {g' | s'.Owns g'}.ncard = {g' | s.Owns g'}.ncard + 1 := by
      rw [hset]
      exact Set.ncard_insert_of_notMem (s := {g' | s.Owns g'}) idle h.finite
    have hcount : s'.state.ownerCount = s.state.ownerCount + 1 := by
      rcases count with ⟨hfree, hone⟩ | ⟨-, hsucc⟩
      · rw [hone, h.free.mp hfree]
      · exact hsucc
    refine ⟨fun g' hg' => ?_, hset ▸ h.finite.insert g, by rw [hcount, hcard, h.count], ?_⟩
    · have hold := (owns g').mp hg'
      rw [owner, (same g' hold).1]
      rcases hold with rfl | hold
      · rfl
      · rcases count with ⟨hfree, -⟩ | ⟨hrli, -⟩
        · simp [h.owner g' hold] at hfree
        · rw [← hrli, h.owner g' hold]
    · simp [owner, hcount]
  | drop g active highest owner owns same =>
    obtain ⟨howner, hcount⟩ := Prod.mk.inj owner
    have hset : {g' | s'.Owns g'} = {g' | s.Owns g'} \ {g} := by
      ext g'
      simp [owns g', and_comm]
    have hcard : {g' | s'.Owns g'}.ncard = {g' | s.Owns g'}.ncard - 1 := by
      rw [hset]
      exact Set.ncard_sdiff_singleton_of_mem (s := {g' | s.Owns g'}) active
    have hfinite : {g' | s'.Owns g'}.Finite := hset ▸ h.finite.sdiff
    have hcount' : s'.state.ownerCount = {g' | s'.Owns g'}.ncard := by rw [hcount, hcard, h.count]
    refine ⟨fun g' hg' => ?_, hfinite, hcount', ?_⟩
    · have hpos : s'.state.ownerCount ≠ 0 := by
        rw [hcount', Ne, Set.ncard_eq_zero hfinite]
        exact Set.nonempty_iff_ne_empty.mp ⟨g', hg'⟩
      obtain ⟨hne, hold⟩ := (owns g').mp hg'
      rw [howner, if_neg (hcount ▸ hpos), same g' hne]
      exact h.owner g' hold
    · rw [howner, hcount]
      split
      next hzero => simp [hzero]
      next hpos => simp [hpos, h.owner g active]

omit [DecidableEq γ] in
lemma Effect.highest (h : Effect s s') : s.state.highestSeqNo ≤ s'.state.highestSeqNo := by
  cases h with
  | keep owner count highest | drop g active highest => exact highest
  | grab g idle fresh highest => exact highest.ge

omit [DecidableEq γ] in
/-- An event group that is active after a step was active before it, or its sequence number is
above all that is committed. -/
lemma Effect.owns (h : Effect s s') (hg : s'.Owns g) :
    (s.Owns g ∧ (s'.rgi g).rli = (s.rgi g).rli ∧ (s'.rgi g).seqNo = (s.rgi g).seqNo) ∨
      s.state.highestSeqNo < (s'.rgi g).seqNo := by
  cases h with
  | keep owner count highest owns same =>
    have hold := (owns g).mp hg
    exact .inl ⟨hold, by rw [same g hold], by rw [same g hold]⟩
  | grab g' idle fresh highest owner count owns same =>
    have hold := (owns g).mp hg
    have hsame := same g hold
    rcases hold with rfl | hold
    · exact .inr (hsame.2 ▸ fresh)
    · exact .inl ⟨hold, hsame⟩
  | drop g' active highest owner owns same =>
    obtain ⟨hne, hold⟩ := (owns g).mp hg
    exact .inl ⟨hold, by rw [same g hne], by rw [same g hne]⟩

omit [DecidableEq γ] in
lemma Inv.init (batch : Nat) (rli : γ → ρ) : (Slave.init batch rli : Slave γ ρ τ).Inv := by
  have hset : {g | (Slave.init batch rli : Slave γ ρ τ).Owns g} = ∅ := by
    ext g
    simp [Owns, Slave.init]
  refine ⟨fun g hg => by simp [Owns, Slave.init] at hg, hset ▸ Set.finite_empty, ?_, ?_⟩
  · rw [hset, Set.ncard_empty]
    rfl
  · exact iff_of_true rfl rfl

variable [DecidableEq ρ]

lemma inv_of_run (h : s.Inv) (hrun : run step s as = some s') : s'.Inv :=
  run_induction (fun _ _ _ hs hstep => hs.of_effect (hs.effect hstep)) h hrun

lemma highest_of_run (h : s.Inv)
    (hrun : run step s as = some s') : s.state.highestSeqNo ≤ s'.state.highestSeqNo := by
  refine (run_induction (I := fun t => t.Inv ∧ s.state.highestSeqNo ≤ t.state.highestSeqNo)
    ?_ ⟨h, le_rfl⟩ hrun).2
  rintro t a t' ⟨ht, hle⟩ hstep
  have heffect := ht.effect hstep
  exact ⟨ht.of_effect heffect, hle.trans heffect.highest⟩

/-- An event group that is active with a sequence number that was committed at the beginning of
a run is active since then. -/
lemma owns_of_run (h : s.Inv) (hrun : run step s as = some s') (hg : s'.Owns g)
    (hle : (s'.rgi g).seqNo ≤ s.state.highestSeqNo) :
    s.Owns g ∧ (s'.rgi g).rli = (s.rgi g).rli ∧ (s'.rgi g).seqNo = (s.rgi g).seqNo := by
  refine (run_induction (I := fun t => t.Inv ∧ s.state.highestSeqNo ≤ t.state.highestSeqNo ∧
      ∀ g, t.Owns g → (t.rgi g).seqNo ≤ s.state.highestSeqNo →
        s.Owns g ∧ (t.rgi g).rli = (s.rgi g).rli ∧ (t.rgi g).seqNo = (s.rgi g).seqNo)
    ?_ ⟨h, le_rfl, fun g hg _ => ⟨hg, rfl, rfl⟩⟩ hrun).2.2 g hg hle
  rintro t a t' ⟨ht, hhigh, howns⟩ hstep
  have heffect := ht.effect hstep
  refine ⟨ht.of_effect heffect, hhigh.trans heffect.highest, fun g hg hle => ?_⟩
  rcases heffect.owns hg with ⟨hold, hrli, hseq⟩ | hlt
  · rw [hrli, hseq]
    exact howns g hold (hseq ▸ hle)
  · omega

lemma highest_of_commits (hstep : s.step a = some s') (h : s.commits a = some n) :
    n ≤ s'.state.highestSeqNo := by
  cases a with
  | commit g malloc subId serverId hton =>
    obtain ⟨e, he, rfl⟩ := map_eq_some_iff.mp h
    cases hstep
    have hhigh := (updateNolock_spec (l := s.row g subId serverId hton)
      (d := some (s.rgi g).duplicate) he).2.1
    exact (le_max_right _ _).trans hhigh.ge
  | update malloc l =>
    obtain ⟨e, he, rfl⟩ := map_eq_some_iff.mp h
    cases hstep
    exact (le_max_right _ _).trans (updateNolock_spec (l := l) (d := none) he).2.1.ge
  | _ => simp [commits] at h

lemma not_owns_of_commit (h : s.Inv) (hg : s.Owns g)
    (hstep : s.step (.commit g malloc subId serverId hton) = some s') (hg' : s'.Owns g') :
    g' ≠ g ∧ s.Owns g' ∧ s'.rgi g' = s.rgi g' := by
  obtain ⟨e, he⟩ := ne_none_iff_exists'.mp fun he => h.idle_of_none (m := malloc.elem) g he hg
  obtain ⟨hdup, -⟩ := updateNolock_spec (l := s.row g subId serverId hton)
    (d := some (s.rgi g).duplicate) he
  cases hstep
  rcases owns_setRgi.mp hg' with ⟨-, hnull⟩ | ⟨hne, howns⟩
  · simp [hdup] at hnull
  · exact ⟨hne, howns, setRgi_rgi_of_ne hne⟩

/-- In every state that is reached, the event groups that are active belong to one connection
and are counted. Once a sequence number was committed, no call for it or for one below
returns 1. In particular neither the event group that was committed nor one of another
connection is active with such a number again. -/
theorem ownership_of_run (batch : Nat) (rli : γ → ρ) {as : List (SlaveAction γ ρ)}
    {s : Slave γ ρ τ} (hrun : run step (init batch rli) as = some s) :
    (∀ g g', s.Owns g → s.Owns g' → (s.rgi g).rli = (s.rgi g').rli) ∧
    {g | s.Owns g}.Finite ∧ s.state.ownerCount = {g | s.Owns g}.ncard ∧
    (s.state.ownerRli = none ↔ s.state.ownerCount = 0) ∧
    ∀ as₁ a as₂ (s₁ : Slave γ ρ τ) n, as = as₁ ++ a :: as₂ →
      run step (init batch rli) as₁ = some s₁ → s₁.commits a = some n →
      (∀ malloc killed rgi, rgi.seqNo ≤ n →
        (s.state.checkDuplicateGtid malloc killed rgi).2.2 ≠ .returns 1) ∧
      ∀ g malloc subId serverId hton, s₁.Owns g → a = .commit g malloc subId serverId hton →
        ∀ g', s.Owns g' → (s.rgi g').seqNo ≤ n → g' ≠ g ∧ (s.rgi g').rli = (s₁.rgi g).rli := by
  have hinv := inv_of_run (Inv.init batch rli) hrun
  refine ⟨fun g g' hg hg' => ?_, hinv.finite, hinv.count, hinv.free, ?_⟩
  · exact some.inj ((hinv.owner g hg).symm.trans (hinv.owner g' hg'))
  rintro as₁ a as₂ s₁ n rfl hrun₁ hcommits
  have hinv₁ := inv_of_run (Inv.init batch rli) hrun₁
  obtain ⟨s₂, hstep, hrun₂⟩ := run_append_cons hrun₁ hrun
  have hinv₂ := hinv₁.of_effect (hinv₁.effect hstep)
  have hn := highest_of_commits hstep hcommits
  constructor
  · intro malloc killed rgi hle hone
    rcases s.state.checkDuplicateGtid_cases malloc killed rgi with ⟨-, hlt, -⟩ | ⟨hne, -⟩
    · have := highest_of_run hinv₂ hrun₂
      omega
    · exact hne hone
  · rintro g malloc subId serverId hton hg rfl g' hg' hle
    obtain ⟨howns, hrli, -⟩ := owns_of_run hinv₂ hrun₂ hg' (hle.trans hn)
    obtain ⟨hne, howns₁, heq⟩ := not_owns_of_commit hinv₁ hg hstep howns
    refine ⟨hne, ?_⟩
    rw [hrli, heq]
    exact some.inj ((hinv₁.owner g' howns₁).symm.trans (hinv₁.owner g hg))

/-- Two connections receive the event groups 1 and 2. The second one waits while the first one
applies group 1, skips it once it is committed and then applies group 2. -/
def twoConnections : List (SlaveAction (Bool × Nat) Bool) :=
  [.eventGroupNewGtid (false, 1) 1, .checkDuplicateGtid (false, 1) true false,
    .eventGroupNewGtid (true, 1) 1, .checkDuplicateGtid (true, 1) true false,
    .commit (false, 1) ⟨true, true⟩ 1 1 none, .checkDuplicateGtid (true, 1) true false,
    .skipped (true, 1), .eventGroupNewGtid (true, 2) 2, .checkDuplicateGtid (true, 2) true false]

/-- Group 2 is the only one that is active after the run, and a call for group 1 does not
return 1. -/
theorem ownership_of_twoConnections :
    ∃ s : Slave (Bool × Nat) Bool Unit, run step (init 64 Prod.fst) twoConnections = some s ∧
      s.Owns (true, 2) ∧ s.state.ownerCount = {g | s.Owns g}.ncard ∧
      (s.state.checkDuplicateGtid true false ⟨false, 1, .null⟩).2.2 ≠ .returns 1 := by
  have hrun : ∃ s : Slave (Bool × Nat) Bool Unit,
      run step (init 64 Prod.fst) twoConnections = some s ∧ s.Owns (true, 2) := ⟨_, rfl, rfl⟩
  obtain ⟨s, hrun, howns⟩ := hrun
  obtain ⟨-, -, hcount, -, hcommitted⟩ := ownership_of_run 64 Prod.fst hrun
  refine ⟨s, hrun, howns, hcount, ?_⟩
  exact (hcommitted (twoConnections.take 4) (.commit (false, 1) ⟨true, true⟩ 1 1 none)
    (twoConnections.drop 5) _ 1 rfl rfl rfl).1 true false _ le_rfl

end Slave

end MariaDB.Rpl
