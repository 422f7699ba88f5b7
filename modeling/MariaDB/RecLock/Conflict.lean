import MariaDB.RecLock.Page

/-!
# Conflicting requests on a record

`lock_rec_has_to_wait` says which request has to wait for which; the relation is not symmetric.
A request for an exclusive lock on the record itself may pass waiting requests of other
transactions when its own transaction already has a lock on the record: `conflictScan` is the loop
that finds either a request to wait for, or the object after which the new one is put.
-/

namespace MariaDB.RecLock

open List

/-- `lock_mode_compatible` on the modes of record locks -/
def Mode.compatible : Mode → Mode → Bool
  | .S, .S => true
  | _, _ => false

/-- `lock_mode_stronger_or_eq` on the modes of record locks -/
def Mode.strongerOrEq : Mode → Mode → Bool
  | .S, .X => false
  | _, _ => true

def Request.canBeBypassing (trx : Nat) (r : Request) : Bool :=
  decide (r.trx = trx) && !r.typeMode.wait && !r.typeMode.gap

lemma Lock.canBeBypassing_eq (trx : Nat) (l : Lock) :
    l.canBeBypassing trx = l.request.canBeBypassing trx := rfl

/-- `bypass_mode`: an exclusive request on the record itself. -/
def TypeMode.bypassMode (tm : TypeMode) (h : Nat) : Bool :=
  decide (h ≠ heapNoSupremum) && tm.isRecExclusiveNotGap

section

variable (ordering : Nat → Nat → Bool)

/-- `lock_rec_has_to_wait`; `ordering` is `thd_need_ordering_with` for the connections of the two
transactions. -/
def hasToWait (h : Nat) (r other : Request) : Bool :=
  if r.trx = other.trx || r.typeMode.mode.compatible other.typeMode.mode then false
  else if (decide (h = heapNoSupremum) || r.typeMode.gap) && !r.typeMode.insertIntention then false
  else if !r.typeMode.insertIntention && other.typeMode.gap then false
  else if r.typeMode.gap && other.typeMode.recNotGap then false
  else if other.typeMode.insertIntention then false
  else if (r.typeMode.gap || other.typeMode.gap) && !ordering r.trx other.trx then false
  else true

/-- `conflicting_lock_info`: `insertAfter` is an index into the objects of the page. -/
structure ConflictInfo where
  conflicting : Option Request
  insertAfter : Option Nat

/-- The loop of `lock_rec_other_has_conflicting` and `lock_rec_has_to_wait_in_queue` over the
objects from index `i`. -/
def conflictScan (h : Nat) (r : Request) :
    List Lock → Nat → Bool → Option Nat → Option Nat → ConflictInfo
  | [], _, _, _, insertAfter => ⟨none, insertAfter⟩
  | l :: queue, i, hasS, prev, insertAfter =>
    if !l.nthBit h then conflictScan h r queue (i + 1) hasS prev insertAfter
    else if r.typeMode.bypassMode h && l.canBeBypassing r.trx then
      conflictScan h r queue (i + 1) true (some i) insertAfter
    else if hasToWait ordering h r l.request then
      if !r.typeMode.bypassMode h || !(hasS && l.typeMode.wait && !l.typeMode.gap) then
        ⟨some l.request, none⟩
      else conflictScan h r queue (i + 1) hasS prev (insertAfter.or prev)
    else conflictScan h r queue (i + 1) hasS (some i) insertAfter

/-- `lock_rec_other_has_conflicting`, and `lock_rec_has_to_wait_in_queue` on the objects ahead of
the waiting one. -/
def findConflict (h : Nat) (r : Request) (queue : List Lock) : ConflictInfo :=
  conflictScan ordering h r queue 0 false none none

end

/-- `lock_rec_has_expl` -/
def hasExpl (tm : TypeMode) (h trx : Nat) (queue : List Lock) : Option Lock :=
  queue.find? fun l =>
    l.nthBit h && decide (l.trx = trx) && !l.typeMode.wait && !l.typeMode.insertIntention &&
      ((!l.typeMode.recNotGap && !l.typeMode.gap) || decide (h = heapNoSupremum) ||
        (tm.recNotGap && l.typeMode.recNotGap) || (tm.gap && l.typeMode.gap)) &&
      l.typeMode.mode.strongerOrEq tm.mode

/-! ### What the relation says -/

section

lemma trx_ne_of_hasToWait (hw : hasToWait ordering h r other = true) : r.trx ≠ other.trx := by
  intro heq
  simp [hasToWait, heq] at hw

lemma hasToWait_shared (hw : hasToWait ordering h r other = true) (hm : r.typeMode.mode = .S)
    (hii : r.typeMode.insertIntention = false) :
    other.typeMode.mode = .X ∧ other.typeMode.gap = false := by
  unfold hasToWait at hw
  constructor
  · cases hmo : other.typeMode.mode with
    | S => simp [hm, hmo, Mode.compatible] at hw
    | X => rfl
  · by_contra hgap
    rw [Bool.not_eq_false] at hgap
    simp [hii, hgap] at hw

/-- Two requests on the record itself of which one is exclusive. -/
def Conflict (x y : Request) : Prop :=
  x.trx ≠ y.trx ∧ x.typeMode.gap = false ∧ y.typeMode.gap = false ∧
    (x.typeMode.mode = .X ∨ y.typeMode.mode = .X)

lemma Conflict.symm (hc : Conflict x y) : Conflict y x :=
  ⟨hc.1.symm, hc.2.2.1, hc.2.1, hc.2.2.2.symm⟩

lemma Conflict.hasToWait (hc : Conflict r other) (hh : h ≠ heapNoSupremum)
    (hii : other.typeMode.insertIntention = false) : hasToWait ordering h r other = true := by
  obtain ⟨ht, hg, hgo, hm⟩ := hc
  have hcomp : r.typeMode.mode.compatible other.typeMode.mode = false := by
    rcases hm with hm | hm
    · rw [hm]; rfl
    · rw [hm]; cases r.typeMode.mode <;> rfl
  unfold RecLock.hasToWait
  simp [ht, hcomp, hh, hg, hgo, hii]

lemma hasToWait_gap (hg : r.typeMode.gap = true) (hii : r.typeMode.insertIntention = false) :
    hasToWait ordering h r other = false := by
  unfold hasToWait
  simp [hg, hii]

lemma hasToWait_congr {r' other' : Request} (ht : r'.trx = r.trx)
    (htm : r'.typeMode = { r.typeMode with wait := r'.typeMode.wait })
    (hto : other'.trx = other.trx)
    (htmo : other'.typeMode = { other.typeMode with wait := other'.typeMode.wait }) :
    hasToWait ordering h r' other' = hasToWait ordering h r other := by
  unfold hasToWait
  rw [ht, hto]
  rw [htm, htmo]

end

/-! ### What the scan finds -/

/-- A request that has to wait for `c` may pass it: `c` waits and is not on a gap, and the
transaction has a lock on the record ahead of it. -/
def Bypassed (h : Nat) (r : Request) (ahead : List Request) (c : Request) : Prop :=
  r.typeMode.bypassMode h = true ∧ c.typeMode.wait = true ∧ c.typeMode.gap = false ∧
    ∃ x ∈ ahead, x.canBeBypassing r.trx = true

section

variable (ordering : Nat → Nat → Bool) (h : Nat) (r : Request)

def Free (q : List Request) : Prop := ∀ x ∈ q, hasToWait ordering h r x = false

def FreeOrPassed (q : List Request) : Prop :=
  ∀ x ∈ q, hasToWait ordering h r x = true → x.typeMode.wait = true ∧ x.typeMode.gap = false

end

section

variable {ordering : Nat → Nat → Bool} {h : Nat} {r : Request}

lemma Free.append (ha : Free ordering h r a) (hb : Free ordering h r b) :
    Free ordering h r (a ++ b) := by
  intro x hx
  rcases mem_append.mp hx with hx | hx
  · exact ha x hx
  · exact hb x hx

lemma Free.freeOrPassed (hq : Free ordering h r q) : FreeOrPassed ordering h r q := by
  intro x hx hw
  rw [hq x hx] at hw
  cases hw

/-- What the loop knows when it has passed the objects `done`. -/
structure ScanInv (ordering : Nat → Nat → Bool) (h : Nat) (r : Request) (done : List Lock)
    (hasS : Bool) (prev insertAfter : Option Nat) : Prop where
  hasS_iff : hasS = true ↔ r.typeMode.bypassMode h = true ∧
    ∃ x ∈ requests done h, x.canBeBypassing r.trx = true
  prev_lt : ∀ j ∈ prev, j < done.length
  prev_some : hasS = true → prev.isSome
  free : insertAfter = none → Free ordering h r (requests done h)
  after : ∀ j ∈ insertAfter, j < done.length ∧ Free ordering h r (requests (done.take (j + 1)) h) ∧
    FreeOrPassed ordering h r (requests done h) ∧
    ∃ x ∈ requests done h, x.typeMode.wait = true ∧ x.typeMode.gap = false

/-- What the scan of the objects `queue` says. -/
inductive ScanResult (ordering : Nat → Nat → Bool) (h : Nat) (r : Request) (queue : List Lock) :
    ConflictInfo → Prop where
  /-- There is a request to wait for that may not be passed. -/
  | conflict (a : List Request) (c : Request) (b : List Request) :
      requests queue h = a ++ c :: b → hasToWait ordering h r c = true → ¬Bypassed h r a c →
      ScanResult ordering h r queue ⟨some c, none⟩
  /-- There is nothing to wait for. -/
  | free : Free ordering h r (requests queue h) → ScanResult ordering h r queue ⟨none, none⟩
  /-- What there is to wait for may be passed, and comes after `insertAfter`. -/
  | pass (i : Nat) : Free ordering h r (requests (queue.take (i + 1)) h) →
      FreeOrPassed ordering h r (requests queue h) →
      (∃ x ∈ requests queue h, x.typeMode.wait = true ∧ x.typeMode.gap = false) →
      ScanResult ordering h r queue ⟨none, some i⟩

variable {done : List Lock} {hasS : Bool} {prev ins : Option Nat}

lemma take_append_singleton (hj : j < done.length) (l : Lock) :
    (done ++ [l]).take (j + 1) = done.take (j + 1) :=
  take_append_of_le_length hj

section

variable (inv : ScanInv ordering h r done hasS prev ins)
include inv

/-- An object without the bit, or one that may be passed over, changes nothing but `prev`. -/
lemma ScanInv.skip (hl : l.nthBit h = false) :
    ScanInv ordering h r (done ++ [l]) hasS prev ins := by
  have hreq : requests (done ++ [l]) h = requests done h := by
    rw [requests_append, requests_cons_of_not_bit hl, requests_nil, append_nil]
  refine ⟨hreq ▸ inv.hasS_iff, ?_, inv.prev_some, fun hi => hreq ▸ inv.free hi, ?_⟩
  · intro j hj
    rw [length_append]
    exact Nat.lt_add_right _ (inv.prev_lt j hj)
  · intro j hj
    obtain ⟨hlt, hfree, hpassed, hex⟩ := inv.after j hj
    rw [take_append_singleton hlt, hreq, length_append]
    exact ⟨Nat.lt_add_right _ hlt, hfree, hpassed, hex⟩

/-- An object that `r` does not wait for becomes `prev`. -/
lemma ScanInv.next (hl : l.nthBit h = true) (hw : hasToWait ordering h r l.request = false)
    (hS : hasS' = true ↔ hasS = true ∨
      (r.typeMode.bypassMode h = true ∧ l.request.canBeBypassing r.trx = true)) :
    ScanInv ordering h r (done ++ [l]) hasS' (some done.length) ins := by
  have hreq : requests (done ++ [l]) h = requests done h ++ [l.request] := by
    rw [requests_append, requests_cons_of_bit hl, requests_nil]
  have hlfree : Free ordering h r [l.request] := fun x hx => mem_singleton.mp hx ▸ hw
  refine ⟨?_, ?_, fun _ => rfl, ?_, ?_⟩
  · rw [hS, inv.hasS_iff, hreq]
    simp only [mem_append, mem_singleton]
    grind
  · intro j hj
    cases hj
    simp
  · intro hi
    rw [hreq]
    exact (inv.free hi).append hlfree
  · intro j hj
    obtain ⟨hlt, hfree, hpassed, x, hx, hxw⟩ := inv.after j hj
    rw [take_append_singleton hlt, hreq, length_append]
    refine ⟨Nat.lt_add_right _ hlt, hfree, ?_, x, mem_append_left _ hx, hxw⟩
    intro y hy
    rcases mem_append.mp hy with hy | hy
    · exact hpassed y hy
    · exact hlfree.freeOrPassed y hy

/-- A request that may be passed is put behind `insertAfter`. -/
lemma ScanInv.pass (hl : l.nthBit h = true) (hS : hasS = true)
    (hbypass : l.request.canBeBypassing r.trx = false) (hwait : l.typeMode.wait = true)
    (hgap : l.typeMode.gap = false) :
    ScanInv ordering h r (done ++ [l]) hasS prev (ins.or prev) := by
  have hreq : requests (done ++ [l]) h = requests done h ++ [l.request] := by
    rw [requests_append, requests_cons_of_bit hl, requests_nil]
  have hpassed : FreeOrPassed ordering h r (requests done h) →
      FreeOrPassed ordering h r (requests (done ++ [l]) h) := by
    intro hd y hy hyw
    rw [hreq] at hy
    rcases mem_append.mp hy with hy | hy
    · exact hd y hy hyw
    · rw [mem_singleton.mp hy]
      exact ⟨hwait, hgap⟩
  have hex : ∃ x ∈ requests (done ++ [l]) h, x.typeMode.wait = true ∧ x.typeMode.gap = false :=
    ⟨l.request, by rw [hreq]; simp, hwait, hgap⟩
  obtain ⟨p, hp⟩ := Option.isSome_iff_exists.mp (inv.prev_some hS)
  refine ⟨?_, ?_, inv.prev_some, ?_, ?_⟩
  · rw [inv.hasS_iff, hreq]
    simp [hbypass]
  · intro j hj
    rw [length_append]
    exact Nat.lt_add_right _ (inv.prev_lt j hj)
  · intro hi
    rw [hp] at hi
    cases ins <;> cases hi
  · intro j hj
    cases ins with
    | none =>
      have hj' : j ∈ prev := hj
      have hjlt := inv.prev_lt j hj'
      rw [take_append_singleton hjlt, length_append]
      refine ⟨Nat.lt_add_right _ hjlt, ?_, hpassed (inv.free rfl).freeOrPassed, hex⟩
      intro x hx
      have hsub : requests (done.take (j + 1)) h ++ requests (done.drop (j + 1)) h
          = requests done h := by
        rw [← requests_append, take_append_drop]
      exact inv.free rfl x (hsub ▸ mem_append_left _ hx)
    | some i =>
      have hj' : j ∈ some i := hj
      obtain ⟨hlt, hfree, hd, -⟩ := inv.after j hj'
      rw [take_append_singleton hlt, length_append]
      exact ⟨Nat.lt_add_right _ hlt, hfree, hpassed hd, hex⟩

lemma conflictScan_result :
    ScanResult ordering h r (done ++ rest)
      (conflictScan ordering h r rest done.length hasS prev ins) := by
  induction rest generalizing done hasS prev ins with
  | nil =>
    rw [append_nil, conflictScan]
    cases ins with
    | none => exact .free (inv.free rfl)
    | some i =>
      obtain ⟨-, hfree, hpassed, hex⟩ := inv.after i rfl
      exact .pass i hfree hpassed hex
  | cons l rest ih =>
    have hlen : done.length + 1 = (done ++ [l]).length := by simp
    have happ : done ++ l :: rest = (done ++ [l]) ++ rest := by simp
    rw [conflictScan, hlen, happ]
    by_cases hl : l.nthBit h = true
    · rw [if_neg (by simp [hl])]
      by_cases hb : (r.typeMode.bypassMode h && l.canBeBypassing r.trx) = true
      · rw [if_pos hb]
        rw [Bool.and_eq_true] at hb
        have hsame : l.request.trx = r.trx := by
          have h2 := hb.2
          rw [Lock.canBeBypassing_eq, Request.canBeBypassing] at h2
          simp only [Bool.and_eq_true, decide_eq_true_eq] at h2
          exact h2.1.1
        refine ih (inv.next hl ?_ ?_)
        · by_contra hw
          exact trx_ne_of_hasToWait (by simpa using hw) hsame.symm
        · simp [hb.1, ← Lock.canBeBypassing_eq, hb.2]
      · rw [if_neg hb]
        by_cases hw : hasToWait ordering h r l.request = true
        · rw [if_pos hw]
          split_ifs with hstop
          · -- the request is one to wait for
            refine .conflict (requests done h) l.request (requests rest h) ?_ hw ?_
            · rw [← happ, requests_append, requests_cons_of_bit hl]
            · rintro ⟨hmode, hwait, hgap, hx⟩
              have hS := inv.hasS_iff.mpr ⟨hmode, hx⟩
              have hwait' : l.typeMode.wait = true := hwait
              have hgap' : l.typeMode.gap = false := hgap
              simp [hmode, hS, hwait', hgap'] at hstop
          · simp only [Bool.or_eq_true, Bool.not_eq_true', not_or, Bool.not_eq_false,
              Bool.and_eq_true] at hstop
            obtain ⟨hmode, ⟨hS, hwait⟩, hgap⟩ := hstop
            refine ih (inv.pass hl hS ?_ hwait hgap)
            simpa [hmode, Lock.canBeBypassing_eq] using hb
        · rw [if_neg hw]
          refine ih (inv.next hl (by simpa using hw) ?_)
          rw [Bool.and_eq_true, Lock.canBeBypassing_eq] at hb
          simp [hb]
    · rw [if_pos (by simpa using hl)]
      exact ih (inv.skip (by simpa using hl))

end

/-- `lock_rec_other_has_conflicting` and `lock_rec_has_to_wait_in_queue` -/
lemma findConflict_result (ordering : Nat → Nat → Bool) (h : Nat) (r : Request)
    (queue : List Lock) :
    ScanResult ordering h r queue (findConflict ordering h r queue) := by
  have inv : ScanInv ordering h r [] false none none :=
    ⟨by simp, by simp, by simp, fun _ => by simp [Free], by simp⟩
  exact conflictScan_result inv

end

end MariaDB.RecLock
