import Mathlib

/-!
# Deadlock victims

A transaction waits for at most one other. `Deadlock::find_cycle()` follows these pointers with
Brent's algorithm, and `Deadlock::report()` chooses a victim among the transactions of the cycle.
-/
namespace MariaDB.RecLock.Deadlock

open Function Fintype

/-- What is read of a `trx_t`; a transaction without a session has edited no tables. -/
structure Waits (ι : Type) where
  waitTrx : ι → Option ι
  weight : ι → Nat
  editedNontransTables : ι → Bool
  /-- `thd_deadlock_victim_preference()` -/
  victimPreference : ι → ι → Int

variable {ι : Type} (w : Waits ι)

def follow (trx : ι) (n : Nat) : Option ι := (·.bind w.waitTrx)^[n] (some trx)

variable {w} {trx c : ι} {n : Nat}

lemma follow_add (h : follow w trx n = some t) (k : Nat) : follow w trx (n + k) = follow w t k := by
  rw [follow, Nat.add_comm, iterate_add_apply]
  exact congrArg _ h

lemma follow_succ (h : follow w trx n = some t) : follow w trx (n + 1) = w.waitTrx t :=
  follow_add h 1

lemma follow_none (h : follow w trx n = none) (k : Nat) : follow w trx (n + k) = none := by
  rw [follow] at h
  rw [follow, Nat.add_comm, iterate_add_apply, h]
  exact iterate_fixed rfl k

lemma exists_not_waiting (h : follow w trx n = none) :
    ∃ m t, follow w trx m = some t ∧ w.waitTrx t = none := by
  induction n with
  | zero => cases h
  | succ n ih =>
    cases hn : follow w trx n with
    | none => exact ih hn
    | some t => exact ⟨n, t, hn, (follow_succ hn).symm.trans h⟩

lemma follow_ne_none (hk : 0 < k) (hback : follow w c k = some c) : follow w c n ≠ none := by
  intro hnone
  have hend := follow_none hnone (k * n - n)
  rw [Nat.add_sub_cancel' (Nat.le_mul_of_pos_left n hk)] at hend
  have hround : follow w c (k * n) = some c := IsPeriodicPt.mul_const hback n
  cases hround.symm.trans hend

/-- From the number of transactions on, the path repeats itself. -/
lemma exists_period [Fintype ι] (trx : ι) : ∃ k, 0 < k ∧ k ≤ card (Option ι) ∧
    ∀ m ≥ card (Option ι), follow w trx (m + k) = follow w trx m := by
  obtain ⟨i, j, hne, heq⟩ := exists_ne_map_eq_of_card_lt
    (fun i : Fin (card (Option ι) + 1) => follow w trx i) (by simp)
  wlog hlt : i < j generalizing i j
  · exact this j i hne.symm heq.symm (by omega)
  refine ⟨j - i, by omega, by omega, fun m hm => ?_⟩
  rw [show m + (j - i) = m - i + j by omega, ← Nat.sub_add_cancel (show i.val ≤ m by omega),
    follow, follow, iterate_add_apply, iterate_add_apply, Nat.sub_add_cancel (by omega)]
  exact congrArg _ heq.symm

variable (w) [DecidableEq ι]

/-- The loop of `find_cycle()`. There are at most 524,288 transactions, so that `power` and `l` do
not overflow. -/
def findCycleLoop : Nat → ι → ι → Nat → Nat → Option (Option ι)
  | 0, _, _, _, _ => none
  | fuel + 1, tortoise, hare, power, l =>
    match w.waitTrx hare with
    | none => some none
    | some hare =>
      if tortoise = hare then some (some hare)
      else if l = power then findCycleLoop fuel hare hare (power * 2) 1
      else findCycleLoop fuel tortoise hare power (l + 1)

def findCycle (fuel : Nat) (trx : ι) : Option (Option ι) := findCycleLoop w fuel trx trx 1 1

def calcVictimWeight (trx origTrx : ι) : Nat :=
  (decide (trx ≠ origTrx)).toNat ||| (w.weight trx <<< 1) % 2 ^ 64 |||
    if w.editedNontransTables trx then 1 <<< 62 else 0

/-- The choice of the victim in `report()`; `next` is the transaction that was looked at last. -/
def victimLoop (trx cycle : ι) : Nat → ι → Option ι → Nat → Option ι
  | 0, _, _, _ => none
  | fuel + 1, next, victim, victimWeight =>
    match w.waitTrx next with
    | none => none
    | some next =>
      let nextWeight := calcVictimWeight w next trx
      let pref := victim.elim 0 (w.victimPreference · next)
      let victimNotPref := if 0 < pref then 2 ^ 63 else 0
      let nextNotPref := if pref < 0 then 2 ^ 63 else 0
      let choice := if victim = none ∨ nextWeight ||| nextNotPref < victimWeight ||| victimNotPref
        then (some next, nextWeight) else (victim, victimWeight)
      if next = cycle then choice.1 else victimLoop trx cycle fuel next choice.1 choice.2

def report (fuel : Nat) (trx : ι) : Option ι :=
  match findCycle w fuel trx with
  | some (some cycle) => victimLoop w trx cycle fuel cycle none 0
  | _ => none

/-- The state of the loop: the tortoise is at `m`, the hare is `l - 1` steps further, and none of
these steps has led back to the tortoise. -/
lemma findCycleLoop_spec [Fintype ι] (ht : follow w trx m = some t)
    (hh : follow w trx (m + l) = w.waitTrx h) (hl : 0 < l) (hle : l ≤ m + 1)
    (hm : m ≤ 2 * card (Option ι)) (hno : ∀ i, 0 < i → i < l → follow w trx (m + i) ≠ some t)
    (hfuel : 4 * card (Option ι) + 2 ≤ fuel + m + l) :
    ∃ r, findCycleLoop w fuel t h (m + 1) l = some r ∧ (r = none → ∃ n, follow w trx n = none) ∧
      ∀ c, r = some c → ∃ n k, 0 < k ∧ follow w trx n = some c ∧ follow w trx (n + k) = some c := by
  induction fuel generalizing t h m l with
  | zero => omega
  | succ fuel ih =>
    rw [findCycleLoop]
    cases hnext : w.waitTrx h with
    | none => exact ⟨none, rfl, fun _ => ⟨_, hh.trans hnext⟩, by simp⟩
    | some hare =>
      rw [hnext] at hh
      by_cases heq : t = hare
      · subst heq
        exact ⟨some t, if_pos rfl, by simp, by rintro c ⟨⟩; exact ⟨m, l, hl, ht, hh⟩⟩
      have hno : ∀ i, 0 < i → i ≤ l → follow w trx (m + i) ≠ some t := by
        intro i hi hil
        rcases hil.lt_or_eq with hil | rfl
        · exact hno i hi hil
        · rw [hh]
          exact fun h => heq (Option.some.inj h).symm
      dsimp only
      rw [if_neg heq]
      split_ifs with hpower
      · -- the tortoise was not yet in the cycle, or was too near to the start for its length
        have hsmall : m < card (Option ι) := by
          obtain ⟨k, hk, hcard, hperiod⟩ := exists_period (w := w) trx
          by_contra hge
          exact hno k hk (by omega) ((hperiod m (by omega)).trans ht)
        rw [show (m + 1) * 2 = m + l + 1 by omega]
        exact ih hh (follow_succ hh) one_pos (by omega) (by omega) (by omega) (by omega)
      · exact ih ht (follow_succ hh) l.succ_pos (by omega) hm
          (fun i hi hil => hno i hi (Nat.le_of_lt_succ hil)) (by omega)

variable {w}

def Best (w : Waits ι) (trx c : ι) (n : Nat) (victim : Option ι) (weight : Nat) : Prop :=
  (n ≠ 0 → ∃ i ≤ n, i ≠ 0 ∧ follow w c i = victim) ∧ (n = 0 → victim = none) ∧
    (∀ v ∈ victim, weight = calcVictimWeight w v trx) ∧
    ∀ i ≤ n, i ≠ 0 → ∀ u, follow w c i = some u → weight ≤ calcVictimWeight w u trx

lemma victimLoop_spec (hpref : ∀ a b, w.victimPreference a b = 0) (hp : follow w c p = some c)
    (hmin : ∀ i, i ≠ 0 → i < p → follow w c i ≠ some c) (hnext : follow w c n = some next)
    (hnp : n < p) (hfuel : p ≤ n + fuel) (hbest : Best w trx c n victim weight) :
    ∃ x, Best w trx c p (victimLoop w trx c fuel next victim weight) x := by
  have hnever (i) : follow w c i ≠ none := follow_ne_none (by omega) hp
  induction fuel generalizing n next victim weight with
  | zero => omega
  | succ fuel ih =>
    have hstep := follow_succ hnext
    cases hwait : w.waitTrx next with
    | none => exact absurd (hstep.trans hwait) (hnever _)
    | some next' =>
      rw [hwait] at hstep
      have hzero : victim.elim 0 (w.victimPreference · next') = 0 := by
        cases victim <;> simp [hpref]
      simp only [victimLoop, hwait, hzero, lt_irrefl, if_false, Nat.or_zero]
      generalize hchoice : (if victim = none ∨ calcVictimWeight w next' trx < weight then
        (some next', calcVictimWeight w next' trx) else (victim, weight)) = choice
      have hbest : Best w trx c (n + 1) choice.1 choice.2 := by
        obtain ⟨hvisited, hnone, hweight, hless⟩ := hbest
        have hsplit : ∀ i, i ≤ n + 1 ↔ i ≤ n ∨ i = n + 1 := by omega
        simp only [Best, hsplit]
        grind
      split_ifs with hend
      · obtain rfl : n + 1 = p := by
          by_contra hne
          exact hmin _ n.succ_ne_zero (by omega) (hend ▸ hstep)
        exact ⟨_, hbest⟩
      · have hne : n + 1 ≠ p := by
          rintro rfl
          exact hend (Option.some.inj (hstep.symm.trans hp))
        exact ih hstep (by omega) (by omega) hbest

/-- Victims are compared by the edited tables first, then by weight and by who is the requester. -/
def victimKey (w : Waits ι) (trx t : ι) : Bool ×ₗ Nat ×ₗ Bool :=
  toLex (w.editedNontransTables t, toLex (w.weight t, decide (t ≠ trx)))

lemma calcVictimWeight_eq (hw : w.weight t < 2 ^ 61) : calcVictimWeight w t trx =
    (w.editedNontransTables t).toNat * 2 ^ 62 + w.weight t * 2 + (decide (t ≠ trx)).toNat := by
  have hbit := Bool.toNat_lt (decide (t ≠ trx))
  have hlow : (decide (t ≠ trx)).toNat ||| w.weight t <<< 1 =
      w.weight t * 2 + (decide (t ≠ trx)).toNat := by
    rw [Nat.or_comm, ← Nat.shiftLeft_add_eq_or_of_lt (by simpa using hbit), Nat.shiftLeft_eq,
      pow_one]
  have hsmall : w.weight t <<< 1 < 2 ^ 64 := by
    rw [Nat.shiftLeft_eq]
    omega
  rw [calcVictimWeight, Nat.mod_eq_of_lt hsmall, hlow]
  cases w.editedNontransTables t with
  | false => simp
  | true =>
    rw [if_pos rfl, Nat.or_comm, ← Nat.shiftLeft_add_eq_or_of_lt (by omega)]
    simp
    omega

lemma victimKey_le (hw : ∀ t, w.weight t < 2 ^ 61)
    (h : calcVictimWeight w v trx ≤ calcVictimWeight w u trx) :
    victimKey w trx v ≤ victimKey w trx u := by
  rw [calcVictimWeight_eq (hw v), calcVictimWeight_eq (hw u)] at h
  have hv := hw v
  have hu := hw u
  simp only [victimKey, Prod.Lex.toLex_le_toLex]
  generalize decide (v ≠ trx) = a, decide (u ≠ trx) = b, w.editedNontransTables v = e,
    w.editedNontransTables u = f at h ⊢
  cases e <;> cases f <;> cases a <;> cases b <;> simp at h ⊢ <;> omega

/-- `find_cycle()` ends, and finds a transaction of the cycle that `trx` leads to if its path does
not end. The victim is the best one of the cycle. -/
def FindsVictim (w : Waits ι) (trx : ι) (fuel : Nat) : Prop :=
  ∃ r, findCycle w fuel trx = some r ∧
    (r = none ↔ ∃ n t, follow w trx n = some t ∧ w.waitTrx t = none) ∧
    ∀ c, r = some c → (∃ n, follow w trx n = some c) ∧ (∃ k > 0, follow w c k = some c) ∧
      ((∀ a b, w.victimPreference a b = 0) → (∀ t, w.weight t < 2 ^ 61) →
        ∃ v, report w fuel trx = some v ∧ (∃ n, follow w c n = some v) ∧
          ∀ n u, follow w c n = some u → victimKey w trx v ≤ victimKey w trx u)

theorem deadlock_spec [Fintype ι] (w : Waits ι) (trx : ι) {fuel : Nat}
    (hfuel : 4 * card ι + 6 ≤ fuel) : FindsVictim w trx fuel := by
  have hcard : card (Option ι) = card ι + 1 := card_option
  obtain ⟨r, hr, hnone, hsome⟩ := findCycleLoop_spec w (show follow w trx 0 = some trx from rfl)
    (l := 1) rfl one_pos le_rfl (by omega) (by omega)
    (show 4 * card (Option ι) + 2 ≤ fuel + 0 + 1 by omega)
  refine ⟨r, hr, ⟨fun h => exists_not_waiting (hnone h).choose_spec, ?_⟩, fun c hc => ?_⟩
  · rintro ⟨n, t, ht, hend⟩
    rcases r with _ | c
    · rfl
    · obtain ⟨i, k, hk, hi, hback⟩ := hsome c rfl
      rw [follow_add hi] at hback
      have hnever := follow_ne_none (n := n + 1) hk hback
      rw [← follow_add hi, Nat.add_comm] at hnever
      exact absurd (follow_none ((follow_succ ht).trans hend) i) hnever
  · obtain ⟨n, k, hk, hn, hback⟩ := hsome c hc
    rw [follow_add hn] at hback
    refine ⟨⟨n, hn⟩, ⟨k, hk, hback⟩, fun hpref hw => ?_⟩
    -- the victim is chosen in one round of the cycle
    let f : Option ι → Option ι := (·.bind w.waitTrx)
    have hround : IsPeriodicPt f k (some c) := hback
    have hpos := hround.minimalPeriod_pos hk
    have hle : minimalPeriod f (some c) ≤ _ := minimalPeriod_le_card
    have hstart : Best w trx c 0 none 0 := ⟨by simp, by simp, by simp, by omega⟩
    obtain ⟨x, hvisited, -, hweight, hless⟩ := victimLoop_spec hpref
      (iterate_minimalPeriod (f := f)) (fun i => not_isPeriodicPt_of_pos_of_lt_minimalPeriod) rfl
      hpos (show _ ≤ 0 + fuel by omega) hstart
    obtain ⟨i, -, -, hi⟩ := hvisited hpos.ne'
    obtain ⟨v, hv⟩ := Option.ne_none_iff_exists'.mp (follow_ne_none (n := i) hk hback)
    refine ⟨v, by rw [report, findCycle, hr, hc]; exact hi.symm.trans hv, ⟨i, hv⟩, ?_⟩
    intro n u hu
    refine victimKey_le hw (hweight v (hi.symm.trans hv) ▸ ?_)
    rw [follow, ← iterate_mod_minimalPeriod_eq] at hu
    have hmod := Nat.mod_lt n hpos
    by_cases hzero : n % minimalPeriod f (some c) = 0
    · rw [hzero] at hu
      exact hless _ le_rfl hpos.ne' u (iterate_minimalPeriod.trans hu)
    · exact hless _ hmod.le hzero u hu

/-- Two transactions wait for each other, and the requester is heavier. -/
theorem deadlock_spec_pair :
    FindsVictim ⟨fun t => some !t, Bool.toNat, fun _ => false, fun _ _ => 0⟩ true 14 :=
  deadlock_spec _ true (by decide)

end MariaDB.RecLock.Deadlock
