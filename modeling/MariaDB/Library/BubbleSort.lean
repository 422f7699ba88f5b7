import Mathlib

/-!
# Bubble sort with an arbitrary comparison

A pass goes through a range with a running element: the next one is moved before it, or takes
its place. The range gets shorter by one with every pass, and the sort ends with a pass
without a swap. The comparison need not be transitive, and it may change a state. Still every
two neighbours of the result are in order: what has passed the one of them cannot pass the
other. Nothing is said about elements that are not neighbours.
-/
namespace MariaDB.Library.BubbleSort

open List

variable {α σ : Type}

/-- A pass with the running element `m`: the range without its last element, the last
element, whether there was a swap, the state. -/
def pass (cmp : σ → α → α → Bool × σ) : σ → α → List α → List α × α × Bool × σ
  | st, m, [] => ([], m, false, st)
  | st, m, x :: xs =>
    match cmp st m x with
    | (true, st) =>
      let (front, last, _, st) := pass cmp st m xs
      (x :: front, last, true, st)
    | (false, st) =>
      let (front, last, swapped, st) := pass cmp st x xs
      (m :: front, last, swapped, st)

/-- The passes over `range`; what is behind the range stays. -/
def loop (cmp : σ → α → α → Bool × σ) : Nat → σ → List α → List α → List α × σ
  | 0, st, range, done => (range ++ done, st)
  | _ + 1, st, [], done => (done, st)
  | fuel + 1, st, m :: xs, done =>
    match pass cmp st m xs with
    | (front, last, true, st) => loop cmp fuel st front (last :: done)
    | (front, last, false, st) => (front ++ last :: done, st)

def sort (cmp : σ → α → α → Bool × σ) (st : σ) (l : List α) : List α × σ :=
  loop cmp l.length st l []

/-- What the comparison has to do with a relation on the elements that satisfy `A`, as long as
the state satisfies `inv`. If `n` passes `m` although they are in order, then `n` is as good as
`m`. -/
structure Consistent (cmp : σ → α → α → Bool × σ) (inv : σ → Prop) (A : α → Prop)
    (le : α → α → Prop) : Prop where
  keeps : ∀ {st a b}, inv st → A a → A b → inv (cmp st a b).2
  swap : ∀ {st a b}, inv st → A a → A b → (cmp st a b).1 = true → le b a
  stay : ∀ {st a b}, inv st → A a → A b → (cmp st a b).1 = false → le a b
  tie : ∀ {st n m x}, inv st → A n → A m → A x → (cmp st n m).1 = true → le n m → le m x → le n x

section Pass

variable {cmp : σ → α → α → Bool × σ}

lemma pass_swap (h : (cmp st m x).1 = true) (xs : List α) :
    pass cmp st m (x :: xs) =
      (x :: (pass cmp (cmp st m x).2 m xs).1, (pass cmp (cmp st m x).2 m xs).2.1, true,
        (pass cmp (cmp st m x).2 m xs).2.2.2) := by
  rw [pass]
  generalize cmp st m x = r at h
  obtain ⟨b, st'⟩ := r
  obtain rfl : b = true := h
  rfl

lemma pass_stay (h : (cmp st m x).1 = false) (xs : List α) :
    pass cmp st m (x :: xs) =
      (m :: (pass cmp (cmp st m x).2 x xs).1, (pass cmp (cmp st m x).2 x xs).2.1,
        (pass cmp (cmp st m x).2 x xs).2.2.1, (pass cmp (cmp st m x).2 x xs).2.2.2) := by
  rw [pass]
  generalize cmp st m x = r at h
  obtain ⟨b, st'⟩ := r
  obtain rfl : b = false := h
  rfl

variable (cmp) in
lemma pass_perm : ∀ (xs : List α) (st : σ) (m : α),
    ((pass cmp st m xs).1 ++ [(pass cmp st m xs).2.1]).Perm (m :: xs) := by
  intro xs
  induction xs with
  | nil => exact fun st m => .refl _
  | cons x xs ih =>
    intro st m
    cases h : (cmp st m x).1 with
    | true =>
      rw [pass_swap h]
      exact ((ih _ m).cons x).trans (.swap m x xs)
    | false =>
      rw [pass_stay h]
      exact (ih _ x).cons m

variable (cmp) in
lemma length_pass (xs : List α) (st : σ) (m : α) : (pass cmp st m xs).1.length = xs.length := by
  have h := (pass_perm cmp xs st m).length_eq
  simpa using h

end Pass

namespace Consistent

variable {cmp : σ → α → α → Bool × σ} {inv : σ → Prop} {A : α → Prop} {le : α → α → Prop}
  (hc : Consistent cmp inv A le)

include hc

lemma inv_pass : ∀ (xs : List α) {st : σ} {m : α}, inv st → A m → (∀ x ∈ xs, A x) →
    inv (pass cmp st m xs).2.2.2 := by
  intro xs
  induction xs with
  | nil => exact fun h _ _ => h
  | cons x xs ih =>
    intro st m hst hm hxs
    obtain ⟨hx, hxs⟩ := forall_mem_cons.mp hxs
    have hst' := hc.keeps hst hm hx
    cases h : (cmp st m x).1 with
    | true =>
      rw [pass_swap h]
      exact ih hst' hm hxs
    | false =>
      rw [pass_stay h]
      exact ih hst' hx hxs

lemma pass_noSwap : ∀ (xs : List α) {st : σ} {m : α}, inv st → A m → (∀ x ∈ xs, A x) →
    (pass cmp st m xs).2.2.1 = false →
    (pass cmp st m xs).1 ++ [(pass cmp st m xs).2.1] = m :: xs ∧ List.IsChain le (m :: xs) := by
  intro xs
  induction xs with
  | nil => exact fun _ _ _ _ => ⟨rfl, .singleton _⟩
  | cons x xs ih =>
    intro st m hst hm hxs hswap
    obtain ⟨hx, hxs⟩ := forall_mem_cons.mp hxs
    cases h : (cmp st m x).1 with
    | true => rw [pass_swap h] at hswap; cases hswap
    | false =>
      rw [pass_stay h] at hswap ⊢
      obtain ⟨heq, hchain⟩ := ih (hc.keeps hst hm hx) hx hxs hswap
      dsimp only
      rw [cons_append, heq]
      exact ⟨rfl, .cons_cons (hc.stay hst hm hx h) hchain⟩

/-- The next pass, when it has come with `n` to where the first one had `m`: what it ends with
is in order with what the first one ended with. -/
lemma next_pass : ∀ (xs : List α) {st st' : σ} {m n : α}, inv st → inv st' → A m → A n →
    (∀ x ∈ xs, A x) → le n m →
    le (pass cmp st' n (pass cmp st m xs).1).2.1 (pass cmp st m xs).2.1 := by
  intro xs
  induction xs with
  | nil => exact fun _ _ _ _ _ h => h
  | cons x xs ih =>
    intro st st' m n hst hst' hm hn hxs hnm
    obtain ⟨hx, hxs⟩ := forall_mem_cons.mp hxs
    have hnext := hc.keeps hst hm hx
    cases h : (cmp st m x).1 with
    | true =>
      rw [pass_swap h]
      dsimp only
      have hnext' := hc.keeps hst' hn hx
      cases h' : (cmp st' n x).1 with
      | true =>
        rw [pass_swap h']
        exact ih hnext hnext' hm hn hxs hnm
      | false =>
        rw [pass_stay h']
        exact ih hnext hnext' hm hx hxs (hc.swap hst hm hx h)
    | false =>
      rw [pass_stay h]
      dsimp only
      have hmx := hc.stay hst hm hx h
      have hnext' := hc.keeps hst' hn hm
      cases h' : (cmp st' n m).1 with
      | true =>
        rw [pass_swap h']
        exact ih hnext hnext' hx hn hxs (hc.tie hst' hn hm hx h' hnm hmx)
      | false =>
        rw [pass_stay h']
        exact ih hnext hnext' hx hm hxs hmx

lemma next_pass_last {xs : List α} {st st' : σ} {m f : α} {fs : List α} (hst : inv st)
    (hst' : inv st') (hm : A m) (hxs : ∀ x ∈ xs, A x) (hfront : (pass cmp st m xs).1 = f :: fs) :
    le (pass cmp st' f fs).2.1 (pass cmp st m xs).2.1 := by
  cases xs with
  | nil => cases hfront
  | cons x xs =>
    obtain ⟨hx, hxs⟩ := forall_mem_cons.mp hxs
    have hnext := hc.keeps hst hm hx
    cases h : (cmp st m x).1 with
    | true =>
      rw [pass_swap h] at hfront ⊢
      obtain ⟨rfl, rfl⟩ := cons.inj hfront
      exact hc.next_pass xs hnext hst' hm hx hxs (hc.swap hst hm hx h)
    | false =>
      rw [pass_stay h] at hfront ⊢
      obtain ⟨rfl, rfl⟩ := cons.inj hfront
      exact hc.next_pass xs hnext hst' hx hm hxs (hc.stay hst hm hx h)

lemma loop_spec : ∀ (fuel : Nat) {st : σ} {range done : List α}, range.length ≤ fuel →
    inv st → (∀ x ∈ range, A x) → List.IsChain le done →
    (∀ m xs d ds, range = m :: xs → done = d :: ds → le (pass cmp st m xs).2.1 d) →
    inv (loop cmp fuel st range done).2 ∧ List.IsChain le (loop cmp fuel st range done).1 ∧
      (loop cmp fuel st range done).1.Perm (range ++ done) := by
  intro fuel
  induction fuel with
  | zero =>
    intro st range done hlen hst _ hdone _
    obtain rfl := length_eq_zero_iff.mp (Nat.le_zero.mp hlen)
    exact ⟨hst, hdone, .refl _⟩
  | succ fuel ih =>
    intro st range done hlen hst hrange hdone hbound
    cases range with
    | nil => exact ⟨hst, hdone, .refl _⟩
    | cons m xs =>
      obtain ⟨hm, hxs⟩ := forall_mem_cons.mp hrange
      have hperm := pass_perm cmp xs st m
      have hst' := hc.inv_pass xs hst hm hxs
      have hnoSwap := hc.pass_noSwap xs hst hm hxs
      have hlength := length_pass cmp xs st m
      have hlast := fun f fs => @next_pass_last _ _ _ _ _ _ hc xs st _ m f fs hst hst' hm hxs
      have hlastDone : List.IsChain le ((pass cmp st m xs).2.1 :: done) := by
        cases done with
        | nil => exact .singleton _
        | cons d ds => exact .cons_cons (hbound m xs d ds rfl rfl) hdone
      rw [loop]
      generalize pass cmp st m xs = r at *
      obtain ⟨front, last, swapped, st'⟩ := r
      have hmem : ∀ x ∈ front, A x := by
        intro x hx
        exact hrange x (hperm.mem_iff.mp (mem_append_left _ hx))
      have hwhole : (front ++ last :: done).Perm (m :: xs ++ done) := by
        rw [append_cons]
        exact hperm.append_right done
      cases swapped with
      | true =>
        have hrest := ih (by simp only [length_cons] at hlen; dsimp only at hlength; omega)
          hst' hmem hlastDone (by
            rintro f fs d ds hf ⟨⟩
            exact hlast f fs hf)
        exact ⟨hrest.1, hrest.2.1, hrest.2.2.trans hwhole⟩
      | false =>
        obtain ⟨heq, hchain⟩ := hnoSwap rfl
        have hfront : List.IsChain le (front ++ [last]) := heq.symm ▸ hchain
        exact ⟨hst', isChain_split.mpr ⟨hfront, hlastDone⟩, hwhole⟩

lemma sort_spec (hst : inv st) (hl : ∀ x ∈ l, A x) :
    inv (sort cmp st l).2 ∧ List.IsChain le (sort cmp st l).1 ∧ (sort cmp st l).1.Perm l := by
  have h := hc.loop_spec l.length (le_refl _) hst hl .nil fun _ _ _ _ _ h => nomatch h
  rwa [append_nil] at h

end Consistent

end MariaDB.Library.BubbleSort
