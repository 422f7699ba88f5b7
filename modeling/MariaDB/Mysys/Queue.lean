import Mathlib

/-!
# The priority queues of `mysys/queues.c`

A QUEUE is a binary heap of pointers in an array whose place 0 is not used. `max_at_top` is a
factor of every result of the compare function. An operation takes an element out of its
place, moves others into the hole, and puts the element where the hole ends.
-/
namespace MariaDB.Mysys

open Function Set

/-- A QUEUE, and of the elements the keys and the positions stored in them. -/
structure Queue (α κ : Type) where
  root : ℕ → α
  elements : ℕ
  maxElements : ℕ
  maxAtTop : ℤ
  compare : κ → κ → ℤ
  offsetToQueuePos : Bool
  key : α → κ
  pos : α → ℕ

namespace Queue

variable {α κ : Type} (q : Queue α κ) {idx : ℕ}

/-- The result of `compare` times `max_at_top`, in an int. -/
def cmp (a b : α) : ℤ := (q.compare (q.key a) (q.key b) * q.maxAtTop).bmod (2 ^ 32)

def nextIndex (idx : ℕ) : ℕ :=
  if idx + idx < q.elements ∧ q.cmp (q.root (idx + idx)) (q.root (idx + idx + 1)) > 0 then
    idx + idx + 1
  else idx + idx

lemma nextIndex_half (idx : ℕ) : q.nextIndex idx / 2 = idx := by
  unfold nextIndex
  split_ifs <;> omega

lemma nextIndex_le (h : idx ≤ q.elements / 2) : q.nextIndex idx ≤ q.elements := by
  unfold nextIndex
  split_ifs <;> omega

section Code

variable [DecidableEq α]

def put (idx : ℕ) (element : α) : Queue α κ :=
  { q with
    root := update q.root idx element
    pos := if q.offsetToQueuePos then update q.pos element idx else q.pos }

def insertAt (q : Queue α κ) (element : α) (idx : ℕ) : Queue α κ :=
  if 0 < idx / 2 ∧ q.cmp element (q.root (idx / 2)) < 0 then
    insertAt (q.put idx (q.root (idx / 2))) element (idx / 2)
  else q.put idx element
termination_by idx

def queueInsert (element : α) : Queue α κ :=
  insertAt { q with elements := q.elements + 1 } element (q.elements + 1)

-- the loops are never at place 0
def downheapLoop (q : Queue α κ) (element : α) (idx : ℕ) : Queue α κ :=
  if 0 < idx ∧ idx ≤ q.elements / 2 then
    if q.cmp (q.root (q.nextIndex idx)) element ≥ 0 then q.put idx element
    else downheapLoop (q.put idx (q.root (q.nextIndex idx))) element (q.nextIndex idx)
  else q.put idx element
termination_by q.elements - idx
decreasing_by
  have := q.nextIndex_half idx
  simp only [put]
  omega

def downheap (idx : ℕ) : Queue α κ := q.downheapLoop (q.root idx) idx

def fixLoop (q : Queue α κ) : ℕ → Queue α κ
  | 0 => q
  | i + 1 => fixLoop (q.downheap (i + 1)) i

def queueFix : Queue α κ := q.fixLoop (q.elements / 2)

def replaceLoop (q : Queue α κ) (element : α) (idx : ℕ) (first : Bool) : Queue α κ × ℕ :=
  if 0 < idx ∧ idx ≤ q.elements / 2 then
    if first ∧ q.cmp (q.root (q.nextIndex idx)) element ≥ 0 then (q.put idx element, idx)
    else replaceLoop (q.put idx (q.root (q.nextIndex idx))) element (q.nextIndex idx) false
  else (q, idx)
termination_by q.elements - idx
decreasing_by
  have := q.nextIndex_half idx
  simp only [put]
  omega

def queueReplace (idx : ℕ) : Queue α κ :=
  let element := q.root idx
  let (q, idx) := q.replaceLoop element idx true
  q.insertAt element idx

def queueRemove (idx : ℕ) : Queue α κ :=
  queueReplace
    { q with
      root := update q.root idx (q.root q.elements)
      elements := q.elements - 1 }
    idx

end Code

/-- The compare function is one of a total preorder with ints as results, which have an opposite
where it is needed. -/
structure Sound (compare : κ → κ → ℤ) (maxAtTop : ℤ) : Prop where
  flip : ∀ a b, compare a b < 0 ↔ 0 < compare b a
  trans : ∀ a b c, compare a b ≤ 0 → compare b c ≤ 0 → compare a c ≤ 0
  int : ∀ a b, compare a b ∈ Ico (-2 ^ 31) (2 ^ 31)
  sign : maxAtTop = 1 ∨ maxAtTop = -1 ∧ ∀ a b, compare a b ≠ -2 ^ 31

/-- The element `a` may be above `b`. -/
def Le (a b : α) : Prop := 0 ≤ q.compare (q.key b) (q.key a) * q.maxAtTop

variable {q}

section Order

variable (h : Sound q.compare q.maxAtTop)
include h

lemma cmp_eq : q.cmp a b = q.compare (q.key a) (q.key b) * q.maxAtTop := by
  have hs := mem_Ico.mp (h.int (q.key a) (q.key b))
  unfold cmp
  rcases h.sign with hm | ⟨hm, hne⟩
  · rw [hm]
    exact Int.bmod_eq_of_le (by omega) (by omega)
  · have := hne (q.key a) (q.key b)
    rw [hm]
    exact Int.bmod_eq_of_le (by omega) (by omega)

lemma Sound.flip_le (a b : κ) : q.compare a b ≤ 0 ↔ 0 ≤ q.compare b a := by
  have := h.flip b a
  omega

lemma Le.trans (hab : q.Le a b) (hbc : q.Le b c) : q.Le a c := by
  have hup := h.trans (q.key a) (q.key b) (q.key c)
  have hdown := h.trans (q.key c) (q.key b) (q.key a)
  simp only [h.flip_le (q.key a)] at hup
  rcases h.sign with hm | ⟨hm, -⟩
  · simp only [Le, hm, mul_one] at hab hbc ⊢
    exact hup hab ((h.flip_le _ _).mpr hbc)
  · simp only [Le, hm, mul_neg_one, Int.neg_nonneg] at hab hbc ⊢
    exact hdown hbc hab

lemma cmp_nonneg : 0 ≤ q.cmp a b ↔ q.Le b a := by
  rw [cmp_eq h, Le]

lemma cmp_pos : 0 < q.cmp a b ↔ ¬ q.Le a b := by
  have hab := h.flip (q.key a) (q.key b)
  have hba := h.flip (q.key b) (q.key a)
  rw [cmp_eq h, Le]
  rcases h.sign with hm | ⟨hm, -⟩ <;> rw [hm] <;> omega

lemma le_of_cmp_neg (hc : q.cmp a b < 0) : q.Le a b := by
  by_contra hn
  have := (cmp_pos h).mpr hn
  omega

lemma nextIndex_first (hj : j ≤ q.elements) (hij : j / 2 = i) :
    q.Le (q.root (q.nextIndex i)) (q.root j) := by
  have hself : ∀ a, q.Le a a := fun a => by
    by_contra hn
    exact hn ((cmp_nonneg h).mp ((cmp_pos h).mpr hn).le)
  have hcmp := cmp_nonneg h (a := q.root (i + i)) (b := q.root (i + i + 1))
  have hpos := cmp_pos h (a := q.root (i + i)) (b := q.root (i + i + 1))
  obtain rfl | rfl : j = i + i ∨ j = i + i + 1 := by omega
  all_goals
    unfold nextIndex
    split_ifs with hc
    all_goals grind

end Order

/-- What `init_queue()` sets for good. -/
def order (q : Queue α κ) : (κ → κ → ℤ) × ℤ × Bool :=
  (q.compare, q.maxAtTop, q.offsetToQueuePos)

variable {o : (κ → κ → ℤ) × ℤ × Bool}

/-- A queue of the elements of `s`, where the parents from `k` on are in order. -/
structure OkFrom (o : (κ → κ → ℤ) × ℤ × Bool) (k : ℕ) (q : Queue α κ) (s : Set α) : Prop where
  order : q.order = o
  sound : Sound q.compare q.maxAtTop
  bij : BijOn q.root (Icc 1 q.elements) s
  pos : q.offsetToQueuePos → ∀ i ∈ Icc 1 q.elements, q.pos (q.root i) = i
  heap : ∀ j ≤ q.elements, k ≤ j / 2 → q.Le (q.root (j / 2)) (q.root j)

/-- The place `hole` is to be filled, with `e` if nothing else changes. -/
structure HoleAt (o : (κ → κ → ℤ) × ℤ × Bool) (k : ℕ) (q : Queue α κ) (e : α) (hole : ℕ)
    (s : Set α) : Prop where
  order : q.order = o
  sound : Sound q.compare q.maxAtTop
  base : 1 ≤ k
  mem : hole ∈ Icc 1 q.elements
  bij : BijOn (update q.root hole e) (Icc 1 q.elements) s
  pos : q.offsetToQueuePos → ∀ i ∈ Icc 1 q.elements, i ≠ hole → q.pos (q.root i) = i
  pairs : ∀ j ≤ q.elements, k ≤ j / 2 → j ≠ hole → j / 2 ≠ hole → q.Le (q.root (j / 2)) (q.root j)
  grand : k ≤ hole / 2 → ∀ j ≤ q.elements, j / 2 = hole → q.Le (q.root (hole / 2)) (q.root j)

section Holes

variable {e : α} {k hole next : ℕ} {s : Set α}

lemma update_swap (root : ℕ → α) (hne : next ≠ hole) :
    update (update root hole (root next)) next e = update root hole e ∘ Equiv.swap hole next := by
  funext i
  by_cases hi : i = next
  · subst hi
    simp
  · by_cases hh : i = hole
    · subst hh
      simp [hi, hne]
    · simp [hi, hh, Equiv.swap_apply_of_ne_of_ne hh hi]

lemma HoleAt.root_ne (h : HoleAt o k q e hole s) (hi : i ∈ Icc 1 q.elements)
    (hne : i ≠ hole) : q.root i ≠ e := by
  intro heq
  refine hne (h.bij.injOn hi h.mem ?_)
  rw [update_of_ne hne, update_self, heq]

lemma OkFrom.le_grandchild (h : OkFrom o 1 q s) (hj : j ≤ q.elements) (hi : 1 ≤ i / 2)
    (hij : j / 2 = i) : q.Le (q.root (i / 2)) (q.root j) := by
  subst hij
  exact Le.trans h.sound (h.heap (j / 2) (by omega) hi) (h.heap j hj (by omega))

lemma OkFrom.bijOn_remove (h : OkFrom o 1 q s) (hidx : idx ∈ Icc 1 q.elements) :
    BijOn (update q.root idx (q.root q.elements)) (Icc 1 (q.elements - 1)) (s \ {q.root idx}) := by
  have hlast : q.elements ∈ Icc 1 q.elements := ⟨hidx.1.trans hidx.2, le_rfl⟩
  have hswap := h.bij.comp (Equiv.swap_bijOn_self (iff_of_true hidx hlast))
  have hdiff := hswap.sdiff_singleton hlast
  rw [comp_apply, Equiv.swap_apply_right] at hdiff
  have hIcc : Icc 1 q.elements \ {q.elements} = Icc 1 (q.elements - 1) := by
    ext i
    simp only [mem_Icc, mem_sdiff, mem_singleton_iff]
    omega
  rw [hIcc] at hdiff
  refine hdiff.congr fun i hi => ?_
  grind

variable [DecidableEq α]

section

variable (h : HoleAt o k q e hole s)
include h

/-- The element of the place `next` is moved into the hole. -/
lemma HoleAt.move (hnext : next ∈ Icc 1 q.elements) (hne : next ≠ hole)
    (hpairs : ∀ j ≤ q.elements, k ≤ j / 2 → j ≠ next → j / 2 ≠ next →
      q.Le ((q.put hole (q.root next)).root (j / 2)) ((q.put hole (q.root next)).root j))
    (hgrand : k ≤ next / 2 → ∀ j ≤ q.elements, j / 2 = next →
      q.Le ((q.put hole (q.root next)).root (next / 2)) ((q.put hole (q.root next)).root j)) :
    HoleAt o k (q.put hole (q.root next)) e next s where
  __ := h
  mem := hnext
  bij := by
    have hroot : (q.put hole (q.root next)).root = update q.root hole (q.root next) := rfl
    rw [hroot, update_swap q.root hne]
    exact h.bij.comp (Equiv.swap_bijOn_self (iff_of_true h.mem hnext))
  pos := by
    intro hpos i hi hin
    have hinj : ∀ i ∈ Icc 1 q.elements, i ≠ hole → i ≠ next → q.root i ≠ q.root next := by
      intro i hi hih hin heq
      refine hin (h.bij.injOn hi hnext ?_)
      rwa [update_of_ne hih, update_of_ne hne]
    replace hpos : q.offsetToQueuePos = true := hpos
    have := h.pos hpos i hi
    have := hinj i hi
    simp only [put, hpos, if_true]
    grind
  pairs := hpairs
  grand := hgrand

lemma HoleAt.pos_put (hpos : q.offsetToQueuePos)
    (hi : i ∈ Icc 1 q.elements) : (q.put hole e).pos ((q.put hole e).root i) = i := by
  have := h.pos hpos i hi
  have := h.root_ne hi
  simp only [put, hpos, if_true]
  grind

lemma HoleAt.fill (hbelow : ∀ j ≤ q.elements, j / 2 = hole → q.Le e (q.root j))
    (habove : k ≤ hole / 2 → q.Le (q.root (hole / 2)) e) : OkFrom o k (q.put hole e) s where
  __ := h
  pos := fun hpos _ hi => h.pos_put hpos hi
  heap := by
    intro j hj hk
    show q.Le (update q.root hole e (j / 2)) (update q.root hole e j)
    have := h.pairs j hj hk
    have := hbelow j hj
    have := h.base
    grind

lemma HoleAt.down (hk : k ≤ hole) (hn : hole ≤ q.elements / 2) :
    HoleAt o k (q.put hole (q.root (q.nextIndex hole))) e (q.nextIndex hole) s := by
  have hhalf := q.nextIndex_half hole
  have hle := q.nextIndex_le hn
  have hbase := h.base
  have hfirst : ∀ j ≤ q.elements, j / 2 = hole → q.Le (q.root (q.nextIndex hole)) (q.root j) :=
    fun j hj => nextIndex_first h.sound hj
  refine h.move ⟨by omega, hle⟩ (by omega) ?_ ?_
  · intro j hj hkj hjn hjn'
    have := h.pairs j hj hkj
    have := h.grand
    simp only [put]
    grind
  · intro _ j hj hjn
    have := h.pairs j hj
    simp only [put]
    grind

lemma HoleAt.up (hk : k ≤ hole / 2) :
    HoleAt o k (q.put hole (q.root (hole / 2))) e (hole / 2) s := by
  have hbase := h.base
  have hmem := h.mem
  have htop : k ≤ hole / 2 / 2 → q.Le (q.root (hole / 2 / 2)) (q.root (hole / 2)) := fun hk' =>
    h.pairs (hole / 2) (by grind) hk' (by grind) (by grind)
  refine h.move (by grind) (by grind) ?_ ?_
  · intro j hj hkj hjn hjn'
    have := h.pairs j hj hkj
    have := h.grand hk j hj
    simp only [put]
    grind
  · intro hk' j hj hjn
    have := h.pairs j hj (by omega)
    have := Le.trans h.sound (htop hk') (c := q.root j)
    simp only [put]
    grind

end

lemma HoleAt.ok_insertAt (h : HoleAt o 1 q e hole s)
    (hbelow : ∀ j ≤ q.elements, j / 2 = hole → q.Le e (q.root j)) :
    OkFrom o 1 (q.insertAt e hole) s := by
  fun_induction insertAt q e hole
  next q hole hup ih =>
    refine ih (h.up hup.1) fun j hj hj2 => ?_
    have he : q.Le e (q.root (hole / 2)) := le_of_cmp_neg h.sound hup.2
    show q.Le e (update q.root hole (q.root (hole / 2)) j)
    by_cases hjh : j = hole
    · rw [hjh, update_self]
      exact he
    · rw [update_of_ne hjh]
      refine Le.trans h.sound he ?_
      rw [← hj2]
      exact h.pairs j hj (by omega) hjh (by grind)
  next q hole hup =>
    refine h.fill hbelow fun hk => (cmp_nonneg h.sound).mp ?_
    grind

lemma HoleAt.ok_downheapLoop (h : HoleAt o k q e hole s) (hk : k ≤ hole)
    (habove : k ≤ hole / 2 → q.Le (q.root (hole / 2)) e) :
    OkFrom o k (q.downheapLoop e hole) s := by
  fun_induction downheapLoop q e hole
  next q hole hn hge =>
    refine h.fill (fun j hj hj2 => ?_) habove
    exact Le.trans h.sound ((cmp_nonneg h.sound).mp hge) (nextIndex_first h.sound hj hj2)
  next q hole hn hlt ih =>
    have hhalf := q.nextIndex_half hole
    refine ih (h.down hk hn.2) (by omega) fun _ => ?_
    show q.Le (update q.root hole (q.root (q.nextIndex hole)) (q.nextIndex hole / 2)) e
    rw [hhalf, update_self]
    exact le_of_cmp_neg h.sound (not_le.mp hlt)
  next q hole hn =>
    exact h.fill (fun j hj hj2 => absurd ⟨h.mem.1, by omega⟩ hn) habove

/-- The early exit of `queue_replace()` fills the hole with the element itself. -/
lemma HoleAt.put_self (h : HoleAt o k q e hole s) : HoleAt o k (q.put hole e) e hole s where
  __ := h
  bij := by
    show BijOn (update (update q.root hole e) hole e) _ s
    rw [update_idem]
    exact h.bij
  pos := fun hpos _ hi _ => h.pos_put hpos hi
  pairs := by
    intro j hj hk hne hne'
    show q.Le (update q.root hole e (j / 2)) (update q.root hole e j)
    rw [update_of_ne hne, update_of_ne hne']
    exact h.pairs j hj hk hne hne'
  grand := by
    intro hk j hj hj2
    have hmem := h.mem.1
    show q.Le (update q.root hole e (hole / 2)) (update q.root hole e j)
    rw [update_of_ne (by omega), update_of_ne (by omega)]
    exact h.grand hk j hj hj2

lemma HoleAt.ok_replace (h : HoleAt o 1 q e hole s) :
    OkFrom o 1 ((q.replaceLoop e hole first).1.insertAt e (q.replaceLoop e hole first).2) s := by
  fun_induction replaceLoop q e hole first
  next q hole first hn hge =>
    refine h.put_self.ok_insertAt fun j hj hj2 => ?_
    have hj' : j ≠ hole := by omega
    show q.Le e (update q.root hole e j)
    rw [update_of_ne hj']
    exact Le.trans h.sound ((cmp_nonneg h.sound).mp hge.2) (nextIndex_first h.sound hj hj2)
  next q hole first hn hlt ih => exact ih (h.down h.mem.1 hn.2)
  next q hole first hn =>
    exact h.ok_insertAt fun j hj hj2 => absurd ⟨h.mem.1, by omega⟩ hn

lemma elements_downheapLoop : (q.downheapLoop e hole).elements = q.elements := by
  fun_induction downheapLoop <;> simp_all [put]

lemma OkFrom.fixLoop (h : OkFrom o (i + 1) q s) (hi : i ≤ q.elements) :
    OkFrom o 1 (q.fixLoop i) s := by
  induction i generalizing q with
  | zero => exact h
  | succ i ih =>
    have hole : HoleAt o (i + 1) q (q.root (i + 1)) (i + 1) s :=
      { order := h.order
        sound := h.sound
        base := by omega
        mem := ⟨by omega, hi⟩
        bij := by simpa using h.bij
        pos := fun hpos j hj _ => h.pos hpos j hj
        pairs := fun j hj hk _ hne => h.heap j hj (by omega)
        grand := fun hk => by omega }
    refine ih (hole.ok_downheapLoop le_rfl fun hk => by omega) ?_
    rw [downheap, elements_downheapLoop]
    omega

lemma OkFrom.hole_replace (h : OkFrom o 1 q s) (hidx : idx ∈ Icc 1 q.elements) (key : κ) :
    HoleAt o 1 { q with key := update q.key (q.root idx) key } (q.root idx) idx s := by
  have hkey : ∀ i ∈ Icc 1 q.elements, i ≠ idx →
      update q.key (q.root idx) key (q.root i) = q.key (q.root i) := fun i hi hne =>
    update_of_ne (fun heq => hne (h.bij.injOn hi hidx heq)) _ _
  have hle : ∀ i ∈ Icc 1 q.elements, ∀ j ∈ Icc 1 q.elements, i ≠ idx → j ≠ idx →
      q.Le (q.root i) (q.root j) →
      Le { q with key := update q.key (q.root idx) key } (q.root i) (q.root j) := by
    intro i hi j hj hne hne' hij
    rw [Le]
    simp only [hkey i hi hne, hkey j hj hne']
    exact hij
  refine ⟨h.order, h.sound, le_rfl, hidx, by simpa using h.bij,
    fun hpos i hi _ => h.pos hpos i hi, ?_, ?_⟩
  · intro j hj hk hne hne'
    exact hle _ (by grind) _ (by grind) hne' hne (h.heap j hj hk)
  · intro hk j hj hj2
    exact hle _ (by grind) _ (by grind) (by grind) (by grind) (h.le_grandchild hj hk hj2)

lemma OkFrom.queueInsert (h : OkFrom o 1 q s) (he : e ∉ s) :
    OkFrom o 1 (q.queueInsert e) (insert e s) := by
  refine HoleAt.ok_insertAt ⟨h.order, h.sound, le_rfl, ⟨by omega, le_rfl⟩, ?_, ?_, ?_, ?_⟩ ?_
  · have hroot : EqOn q.root (update q.root (q.elements + 1) e)
        (Icc 1 q.elements) := fun i hi => by grind
    have := (h.bij.congr hroot).insert (a := q.elements + 1) (by simpa using he)
    rw [show Icc 1 (q.elements + 1) = _ from Order.Icc_succ_right (by simp)]
    simpa using this
  · intro hpos i hi hne
    exact h.pos hpos i ⟨hi.1, by grind⟩
  · intro j hj hk hne hne'
    exact h.heap j (by grind) hk
  all_goals
    intros
    dsimp only at *
    omega

lemma OkFrom.queueRemove_last (h : OkFrom o 1 q s) (hn : 1 ≤ q.elements) :
    q.queueRemove q.elements =
      put { q with elements := q.elements - 1 } q.elements (q.root q.elements) := by
  have hstay : ¬ (0 < q.elements / 2 ∧
      q.cmp (q.root q.elements) (q.root (q.elements / 2)) < 0) := fun ⟨hpos, hneg⟩ =>
    not_le.mpr hneg ((cmp_nonneg h.sound).mpr (h.heap _ le_rfl hpos))
  rw [Queue.queueRemove, queueReplace, update_eq_self]
  dsimp only
  rw [replaceLoop, if_neg (by dsimp only; omega)]
  rw [insertAt]
  exact if_neg hstay

lemma OkFrom.queueRemove (h : OkFrom o 1 q s) (hidx : idx ∈ Icc 1 q.elements) :
    OkFrom o 1 (q.queueRemove idx) (s \ {q.root idx}) := by
  have hbij := h.bijOn_remove hidx
  obtain rfl | hlt := eq_or_lt_of_le hidx.2
  · rw [h.queueRemove_last hidx.1]
    refine ⟨h.order, h.sound, hbij, ?_, ?_⟩
    · intro hpos i hi
      replace hpos : q.offsetToQueuePos = true := hpos
      have hi' : i ∈ Icc 1 q.elements := ⟨hi.1, hi.2.trans (Nat.sub_le _ _)⟩
      have hne : q.root i ≠ q.root q.elements := fun heq => by
        have := h.bij.injOn hi' hidx heq
        grind [put]
      simp only [put, hpos, if_true, update_eq_self, update_of_ne hne]
      exact h.pos hpos i hi'
    · intro j hj hk
      show q.Le (update q.root _ _ _) (update q.root _ _ _)
      rw [update_eq_self]
      exact h.heap j (hj.trans (Nat.sub_le _ _)) hk
  · have hsub : ∀ i ≤ q.elements - 1, i ≤ q.elements := fun i hi => hi.trans (Nat.sub_le _ _)
    refine HoleAt.ok_replace ⟨h.order, h.sound, le_rfl, ⟨hidx.1, by grind⟩, ?_, ?_, ?_, ?_⟩
    · simpa using hbij
    · intro hpos i hi hne
      dsimp only
      rw [update_of_ne hne]
      exact h.pos hpos i ⟨hi.1, hsub i hi.2⟩
    · intro j hj hk hne hne'
      dsimp only
      rw [update_of_ne hne, update_of_ne hne']
      exact h.heap j (hsub j hj) hk
    · intro hk j hj hj2
      dsimp only
      rw [update_of_ne (by omega), update_of_ne (by omega)]
      exact h.le_grandchild (hsub j hj) hk hj2

end Holes

section Runs

variable [DecidableEq α]

def initQueue (maxElements : ℕ) (maxAtTop : Bool) (compare : κ → κ → ℤ) (offsetToQueuePos : Bool)
    (root : ℕ → α) (key : α → κ) (pos : α → ℕ) : Queue α κ :=
  ⟨root, 0, maxElements, if maxAtTop then -1 else 1, compare, offsetToQueuePos, key, pos⟩

/-- The queues after calls, with the elements that were inserted and not removed. The keys of
elements outside of the queue can change at any time. -/
inductive Reached (q₀ : Queue α κ) : Queue α κ → Set α → Prop
  | init : Reached q₀ q₀ ∅
  | insert {q s} (e : α) : Reached q₀ q s → e ∉ s → q.elements < q.maxElements →
      Reached q₀ (q.queueInsert e) (insert e s)
  | remove {q s} (idx : ℕ) : Reached q₀ q s → idx ∈ Icc 1 q.elements →
      Reached q₀ (q.queueRemove idx) (s \ {q.root idx})
  | replace {q s} (idx : ℕ) (key : κ) : Reached q₀ q s → idx ∈ Icc 1 q.elements →
      Reached q₀ (queueReplace { q with key := update q.key (q.root idx) key } idx) s
  | fix {q s} (key : α → κ) : Reached q₀ q s → Reached q₀ (queueFix { q with key }) s
  | outside {q s} (key : α → κ) : Reached q₀ q s → (∀ a ∈ s, key a = q.key a) →
      Reached q₀ { q with key } s

variable {q₀ : Queue α κ} {s : Set α}

lemma Reached.ok (h : Reached q₀ q s) (hs : Sound q₀.compare q₀.maxAtTop)
    (h₀ : q₀.elements = 0) : OkFrom q₀.order 1 q s := by
  induction h with
  | init =>
    refine ⟨rfl, hs, ?_, ?_, ?_⟩
    · simp [h₀]
    · simp [h₀]
    · intro j hj hk
      omega
  | insert e _ he _ ih => exact ih.queueInsert he
  | remove idx _ hidx ih => exact ih.queueRemove hidx
  | replace idx key _ hidx ih => exact (ih.hole_replace hidx key).ok_replace
  | @fix q s key _ ih =>
    refine OkFrom.fixLoop ⟨ih.order, ih.sound, ih.bij, ih.pos, ?_⟩ (Nat.div_le_self _ _)
    intro j hj hk
    omega
  | @outside q s key _ hkey ih =>
    refine ⟨ih.order, ih.sound, ih.bij, ih.pos, fun j hj hk => ?_⟩
    have hj' := hkey _ (ih.bij.mapsTo (show j ∈ Icc 1 q.elements from ⟨by omega, hj⟩))
    have hj2 := hkey _ (ih.bij.mapsTo (show j / 2 ∈ Icc 1 q.elements from
      ⟨hk, (Nat.div_le_self _ _).trans hj⟩))
    rw [Le]
    simp only [hj', hj2]
    exact ih.heap j hj hk

attribute [local simp] initQueue queueInsert insertAt

/-- The product of the least int with -1 is the least int again: `a` is moved above `b`. -/
lemma queueInsert_least {compare : κ → κ → ℤ} {a b : κ} [DecidableEq κ] (hne : a ≠ b)
    (hleast : compare a b = -2 ^ 31) :
    let q₀ := initQueue 2 true compare true (fun _ => a) id fun _ => 0
    let q := (q₀.queueInsert b).queueInsert a
    Reached q₀ q {a, b} ∧ q.elements = 2 ∧ q.key = id ∧ q.root 1 = a ∧ q.root 2 = b := by
  have hinit : Reached (initQueue 2 true compare true (fun _ => a) id fun _ => 0) _ ∅ := .init
  have hreached := Reached.insert a (.insert b hinit (by simp) (by simp)) (by simp [hne])
    (by simp [put])
  rw [insert_empty_eq] at hreached
  exact ⟨hreached, by simp [put, cmp, hleast]⟩

/-- Every sequence of calls leaves a heap in the chosen direction, of exactly the elements
inserted and not removed, and each stores its index, if and only if no result of the compare
function of a queue with the biggest element at the top is the least int. -/
theorem heap_of_reached {compare : κ → κ → ℤ} (maxAtTop : Bool)
    (hflip : ∀ a b, compare a b < 0 ↔ 0 < compare b a)
    (htrans : ∀ a b c, compare a b ≤ 0 → compare b c ≤ 0 → compare a c ≤ 0)
    (hint : ∀ a b, compare a b ∈ Ico (-2 ^ 31) (2 ^ 31)) :
    (maxAtTop → ∀ a b, compare a b ≠ -2 ^ 31) ↔
      ∀ (α : Type) (_ : DecidableEq α) (maxElements : ℕ) (offsetToQueuePos : Bool) (root : ℕ → α)
        (key : α → κ) (pos : α → ℕ) (q : Queue α κ) (s : Set α),
        Reached (initQueue maxElements maxAtTop compare offsetToQueuePos root key pos) q s →
          (∀ j ∈ Icc 2 q.elements,
            if maxAtTop then compare (q.key (q.root j)) (q.key (q.root (j / 2))) ≤ 0
            else 0 ≤ compare (q.key (q.root j)) (q.key (q.root (j / 2)))) ∧
            BijOn q.root (Icc 1 q.elements) s ∧
            (offsetToQueuePos → ∀ i ∈ Icc 1 q.elements, q.pos (q.root i) = i) := by
  constructor
  · intro hmax α _ maxElements offsetToQueuePos root key pos q s h
    have hok := h.ok ⟨hflip, htrans, hint, by cases maxAtTop <;> simp_all⟩ rfl
    have horder := hok.order
    simp only [order, initQueue, Prod.mk.injEq] at horder
    obtain ⟨hcompare, hmaxAtTop, hoffset⟩ := horder
    refine ⟨fun j hj => ?_, hok.bij, fun hpos => hok.pos (hoffset.trans hpos)⟩
    have hle := hok.heap j hj.2 (by grind)
    rw [Le, hcompare, hmaxAtTop] at hle
    cases maxAtTop <;> simpa using hle
  · rintro h rfl a b hleast
    classical
    have hpos := (hflip a b).mp (by omega)
    have hne : a ≠ b := by
      rintro rfl
      omega
    obtain ⟨q, hreached, helements, hkey, htop, hlast⟩ :
        ∃ q : Queue κ κ,
          Reached (initQueue 2 true compare true (fun _ => a) id fun _ => 0) q {a, b} ∧
          q.elements = 2 ∧ q.key = id ∧ q.root 1 = a ∧ q.root 2 = b :=
      ⟨_, queueInsert_least hne hleast⟩
    have hheap := (h _ _ _ _ _ _ _ _ _ hreached).1 2 (by simp [helements])
    simp only [if_true, hlast, htop, hkey, Nat.reduceDiv, id_eq] at hheap
    omega

theorem heap_of_two_inserted :
    let q := ((initQueue 2 true (fun a b : Fin 4 => (a - b : ℤ)) true (fun _ => 0) id
      fun _ => 0).queueInsert 1).queueInsert 2
    (∀ j ∈ Icc 2 q.elements, (q.key (q.root j) - q.key (q.root (j / 2)) : ℤ) ≤ 0) ∧
      BijOn q.root (Icc 1 q.elements) (insert 2 (insert 1 ∅)) ∧
      ∀ i ∈ Icc 1 q.elements, q.pos (q.root i) = i := by
  intro q
  have hq : Reached _ q _ :=
    .insert 2 (.insert 1 .init (by simp) (by decide)) (by simp) (by simp [put])
  obtain ⟨hheap, hbij, hpos⟩ := (heap_of_reached true (by decide) (by decide) (by decide)).mp
    (by decide) _ _ _ _ _ _ _ _ _ hq
  exact ⟨fun j hj => hheap j hj, hbij, hpos rfl⟩

/-- After every sequence of calls, `queue_top()` may be above every element. -/
theorem top_le_of_reached (h : Reached q₀ q s) (hs : Sound q₀.compare q₀.maxAtTop)
    (h₀ : q₀.elements = 0) (ha : a ∈ s) : q.Le (q.root 1) a := by
  have hok := h.ok hs h₀
  obtain ⟨i, hi, rfl⟩ := hok.bij.surjOn ha
  clear ha
  -- up the path from place `i`
  induction i using Nat.strong_induction_on with
  | _ i ih =>
    obtain rfl | hlt := hi.1.eq_or_lt
    · have := hok.sound.flip (q.key (q.root 1)) (q.key (q.root 1))
      rw [Le, show q.compare _ _ = 0 by omega, zero_mul]
    · have hparent : i / 2 ∈ Icc 1 q.elements := ⟨by omega, by grind⟩
      exact .trans hok.sound (ih _ (by omega) hparent) (hok.heap i hi.2 hparent.1)

theorem top_le_of_inserted :
    let q := ((initQueue 2 true (fun a b : Fin 4 => (a - b : ℤ)) true (fun _ => 0) id
      fun _ => 0).queueInsert 1).queueInsert 2
    q.root 1 = 2 ∧ q.root 2 = 1 ∧ q.Le (q.root 1) 1 :=
  ⟨by simp [put, cmp], by simp [put, cmp],
    top_le_of_reached (.insert 2 (.insert 1 .init (by simp) (by decide)) (by simp) (by simp [put]))
      ⟨by decide, by decide, by decide, .inr ⟨rfl, by decide⟩⟩ rfl (by simp)⟩

def lowest (a b : ℕ) : ℤ := if a < b then -2 ^ 31 else if b < a then 1 else 0

/-- Of 5 and 7 in a queue with the biggest element at the top, 5 is at the top. -/
theorem not_heap_of_lowest : (∀ a b, lowest a b < 0 ↔ 0 < lowest b a) ∧
      (∀ a b c, lowest a b ≤ 0 → lowest b c ≤ 0 → lowest a c ≤ 0) ∧
      let q₀ := initQueue 2 true lowest true (fun _ => 5) id fun _ => 0
      let q := (q₀.queueInsert 7).queueInsert 5
      (Reached q₀ q {5, 7} ∧ q.elements = 2 ∧ q.key = id ∧ q.root 1 = 5 ∧ q.root 2 = 7) ∧
        0 < lowest 7 5 := by
  refine ⟨?_, ?_, queueInsert_least (by decide) rfl, by decide⟩
  · intro a b
    unfold lowest
    split_ifs <;> omega
  · intro a b c
    unfold lowest
    split_ifs <;> omega

end Runs

end Queue

end MariaDB.Mysys
