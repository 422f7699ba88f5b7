import Mathlib

/-!
# Binary searches

`firstAbove` halves a half-open interval of indices whose lower part satisfies a predicate;
`lastStep` does the same with a closed interval and leaves the last comparison to its caller.
`bisect` and `bisectOpen` compare an element with the middle one of a closed or a half-open
interval and end with the index of an equal element, or with the index where the element
would have to be inserted.
-/
namespace MariaDB.Library.Bisect

open Nat

section FirstAbove

variable (below : Nat → Bool)

/-- The first index from `lo` on that is not `below`, or `hi`; `fuel` is at least `hi - lo`. -/
def firstAbove : Nat → Nat → Nat → Nat
  | 0, _, hi => hi
  | fuel + 1, lo, hi =>
    if lo < hi then
      let mid := (hi + lo) / 2
      if below mid then firstAbove fuel (mid + 1) hi else firstAbove fuel lo mid
    else hi

/-- The first index that is not `below`, or `n`. -/
def first (n : Nat) : Nat := firstAbove below n 0 n

variable {below}

lemma firstAbove_le : ∀ lo hi : Nat, firstAbove below fuel lo hi ≤ hi := by
  induction fuel <;> grind [firstAbove]

/-- What lies before the result is `below`, and the result itself is not. -/
lemma firstAbove_spec (hmono : ∀ i j, i ≤ j → j < n → below j = true → below i = true) :
    ∀ {lo hi : Nat}, hi - lo ≤ fuel → lo ≤ hi → hi ≤ n → (∀ i < lo, below i = true) →
      (hi < n → below hi = false) →
      (∀ i < firstAbove below fuel lo hi, below i = true) ∧
        (firstAbove below fuel lo hi < n → below (firstAbove below fuel lo hi) = false) := by
  induction fuel with
  | zero =>
    intro lo hi hfuel hle hn hlow hhigh
    obtain rfl : lo = hi := by omega
    exact ⟨hlow, hhigh⟩
  | succ fuel ih =>
    intro lo hi hfuel hle hn hlow hhigh
    unfold firstAbove
    split_ifs with hlt
    · dsimp only
      split_ifs with hmid
      · refine ih (by omega) (by omega) hn (fun i hi' => ?_) hhigh
        exact hmono i _ (Nat.lt_succ_iff.mp hi') (by omega) hmid
      · exact ih (by omega) (by omega) (by omega) hlow fun _ => by simpa using hmid
    · obtain rfl : lo = hi := by omega
      exact ⟨hlow, hhigh⟩

variable (below)

lemma first_spec (n : Nat) (hmono : ∀ i j, i ≤ j → j < n → below j = true → below i = true) :
    first below n ≤ n ∧ (∀ i < first below n, below i = true) ∧
      (first below n < n → below (first below n) = false) :=
  ⟨firstAbove_le 0 n, firstAbove_spec hmono (le_refl _) (zero_le n) (le_refl n)
    (fun i hi => absurd hi (not_lt_zero i)) fun hn => absurd hn (lt_irrefl n)⟩

/-- The upper end that is left when `lo` and `hi` meet: what the loop knows about it is that
the next index is not `below`. -/
def lastStep : Nat → Nat → Nat → Nat
  | 0, _, hi => hi
  | fuel + 1, lo, hi =>
    if lo < hi then
      let mid := (hi + lo + 1) / 2
      if below mid then lastStep fuel (mid + 1) hi else lastStep fuel lo (mid - 1)
    else hi

variable {below}

lemma lastStep_spec (hmono : ∀ i j, i ≤ j → j < n → below j = true → below i = true) :
    ∀ {lo hi : Nat}, hi - lo ≤ fuel → lo ≤ hi + 1 → hi < n → (∀ i < lo, below i = true) →
      (hi + 1 < n → below (hi + 1) = false) →
      lastStep below fuel lo hi < n ∧ (∀ i < lastStep below fuel lo hi, below i = true) ∧
        (lastStep below fuel lo hi + 1 < n → below (lastStep below fuel lo hi + 1) = false) := by
  induction fuel with
  | zero =>
    intro lo hi hfuel hle hn hlow hhigh
    exact ⟨hn, fun i hi' => hlow i (by simp only [lastStep] at hi'; omega), hhigh⟩
  | succ fuel ih =>
    intro lo hi hfuel hle hn hlow hhigh
    unfold lastStep
    split_ifs with hlt
    · dsimp only
      split_ifs with hmid
      · refine ih (by omega) (by omega) hn (fun i hi' => ?_) hhigh
        exact hmono i _ (Nat.lt_succ_iff.mp hi') (by omega) hmid
      · refine ih (by omega) (by omega) (by omega) hlow fun _ => ?_
        rw [show (hi + lo + 1) / 2 - 1 + 1 = (hi + lo + 1) / 2 by omega]
        simpa using hmid
    · exact ⟨hn, fun i hi' => hlow i (by omega), hhigh⟩

/-- `r` is the least index below `n` with the property `q`, if there is one. -/
def IsFirst (n : Nat) (q : Nat → Prop) (r : Option Nat) : Prop :=
  (∀ k, r = some k ↔ IsLeast {i | i < n ∧ q i} k) ∧ (r = none ↔ ∀ i < n, ¬ q i)

lemma isFirst_some (hk : k < n) (hq : q k) (hbefore : ∀ i < k, ¬ q i) : IsFirst n q (some k) := by
  have hleast : IsLeast {i | i < n ∧ q i} k :=
    ⟨⟨hk, hq⟩, fun i hi => not_lt.mp fun hlt => hbefore i hlt hi.2⟩
  refine ⟨fun j => ⟨?_, fun hj => congrArg some (hleast.unique hj)⟩, by simpa using ⟨k, hk, hq⟩⟩
  rintro ⟨⟩
  exact hleast

lemma isFirst_none (h : ∀ i < n, ¬ q i) : IsFirst n q none :=
  ⟨fun k => by simpa using fun hk => absurd hk.1.2 (h k hk.1.1), by simpa using h⟩

lemma IsFirst.congr (h : IsFirst n q r) (hq : ∀ i < n, (q i ↔ q' i)) : IsFirst n q' r := by
  grind [IsFirst]

lemma IsFirst.some_spec (h : IsFirst n q (some k)) : k < n ∧ q k ∧ ∀ i < k, ¬ q i := by
  obtain ⟨⟨hk, hq⟩, hleast⟩ := (h.1 k).mp rfl
  exact ⟨hk, hq, fun i hi hqi => absurd (hleast ⟨hi.trans hk, hqi⟩) (not_le.mpr hi)⟩

end FirstAbove

section Compared

variable (cmp : Nat → Ordering)

/-- `cmp i` compares the element at `i` with the one that is looked for: the index of an
equal element, or else the index where it belongs. The interval is not empty, and `fuel` is
at least its length. -/
def bisect : Nat → Nat → Nat → Except Nat Nat
  | 0, lo, _ => .error lo
  | fuel + 1, lo, hi =>
    let mid := (hi + lo) / 2
    match cmp mid with
    | .lt => if mid + 1 ≤ hi then bisect fuel (mid + 1) hi else .error (mid + 1)
    | .gt => if mid = 0 then .error mid
      else if lo ≤ mid - 1 then bisect fuel lo (mid - 1) else .error mid
    | .eq => .ok mid

/-- The elements below index `n` ascend. -/
structure Ascending (n : Nat) : Prop where
  lt : ∀ i j, i < j → j < n → cmp j ≠ .gt → cmp i = .lt
  gt : ∀ i j, i < j → j < n → cmp i ≠ .lt → cmp j = .gt

/-- A result of the search among `n` elements. -/
def Located (n : Nat) : Except Nat Nat → Prop
  | .ok i => i < n ∧ cmp i = .eq
  | .error i => i ≤ n ∧ (∀ j < i, cmp j = .lt) ∧ ∀ j, i ≤ j → j < n → cmp j = .gt

variable {cmp}

lemma Ascending.below (hasc : Ascending cmp n) (hmid : mid < n) (hcmp : cmp mid = .lt) :
    ∀ i < mid + 1, cmp i = .lt := by
  intro i hi
  rcases lt_or_ge i mid with h | h
  · exact hasc.lt i mid h hmid (by simp [hcmp])
  · rwa [show i = mid by omega]

lemma Ascending.above (hasc : Ascending cmp n) (hcmp : cmp mid = .gt) :
    ∀ i, mid ≤ i → i < n → cmp i = .gt := by
  intro i hi hin
  rcases lt_or_ge mid i with h | h
  · exact hasc.gt mid i h hin (by simp [hcmp])
  · rwa [show i = mid by omega]

lemma Ascending.unique (hasc : Ascending cmp n) (hi : i < n) (hj : j < n) (hei : cmp i = .eq)
    (hej : cmp j = .eq) : i = j := by
  grind [Ascending]

lemma Located.ok_or (h : Located cmp n r) :
    (∃ i < n, cmp i = .eq ∧ r = .ok i) ∨ ((∀ i < n, cmp i ≠ .eq) ∧ ∃ i, r = .error i) := by
  cases r <;> grind [Located]

lemma bisect_spec (hasc : Ascending cmp n) :
    ∀ {lo hi : Nat}, hi - lo < fuel → lo ≤ hi → hi < n → (∀ i < lo, cmp i = .lt) →
      (∀ i, hi < i → i < n → cmp i = .gt) → Located cmp n (bisect cmp fuel lo hi) := by
  induction fuel with
  | zero => intro lo hi hfuel; omega
  | succ fuel ih =>
    intro lo hi hfuel hle hn hlow hhigh
    unfold bisect
    set mid := (hi + lo) / 2 with hmid
    cases hcmp : cmp mid with
    | lt =>
      have hbelow := hasc.below (by omega) hcmp
      simp only [hcmp]
      split_ifs with hmore
      · exact ih (by omega) hmore hn hbelow hhigh
      · exact ⟨by omega, hbelow, fun j hj => hhigh j (by omega)⟩
    | gt =>
      have habove := hasc.above hcmp
      simp only [hcmp]
      split_ifs with hzero hmore
      · exact ⟨by omega, fun j hj => by omega, habove⟩
      · exact ih (by omega) hmore (by omega) hlow fun i hi' => habove i (by omega)
      · exact ⟨by omega, fun j hj => hlow j (by omega), habove⟩
    | eq =>
      simp only [hcmp]
      exact ⟨by omega, hcmp⟩

variable (cmp) in
def bisectOpen : Nat → Nat → Nat → Except Nat Nat
  | 0, _, hi => .error hi
  | fuel + 1, lo, hi =>
    let mid := (hi + lo) / 2
    match cmp mid with
    | .lt => if mid + 1 < hi then bisectOpen fuel (mid + 1) hi else .error hi
    | .gt => if lo < mid then bisectOpen fuel lo mid else .error mid
    | .eq => .ok mid

lemma bisectOpen_spec (hasc : Ascending cmp n) :
    ∀ {lo hi : Nat}, hi - lo ≤ fuel → lo < hi → hi ≤ n → (∀ i < lo, cmp i = .lt) →
      (∀ i, hi ≤ i → i < n → cmp i = .gt) → Located cmp n (bisectOpen cmp fuel lo hi) := by
  induction fuel with
  | zero => intro lo hi hfuel; omega
  | succ fuel ih =>
    intro lo hi hfuel hlt hn hlow hhigh
    unfold bisectOpen
    set mid := (hi + lo) / 2 with hmid
    cases hcmp : cmp mid with
    | lt =>
      have hbelow := hasc.below (by omega) hcmp
      simp only [hcmp]
      split_ifs with hmore
      · exact ih (by omega) hmore hn hbelow hhigh
      · exact ⟨hn, fun j hj => hbelow j (by omega), hhigh⟩
    | gt =>
      have habove := hasc.above hcmp
      simp only [hcmp]
      split_ifs with hmore
      · exact ih (by omega) hmore (by omega) hlow habove
      · exact ⟨by omega, fun j hj => hlow j (by omega), habove⟩
    | eq =>
      simp only [hcmp]
      exact ⟨by omega, hcmp⟩

variable (cmp)

def find (n : Nat) : Except Nat Nat := bisect cmp n 0 (n - 1)

lemma find_spec (hn : 0 < n) (hasc : Ascending cmp n) : Located cmp n (find cmp n) :=
  bisect_spec hasc (by omega) (zero_le _) (by omega)
    (fun i hi => absurd hi (not_lt_zero i)) fun i hi hin => by omega

end Compared

end MariaDB.Library.Bisect
