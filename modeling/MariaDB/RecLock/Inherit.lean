import MariaDB.RecLock.Page

/-!
# Moving, inheriting and resetting record locks

The functions of the lock system that carry requests from one record to another: a record inherits
the requests of another as gap locks, the requests of one record are moved to another, those of
the records of a list are moved with them to another page, and those of a record are reset.

`CoversGap` is what the callers are after: a transaction has a request on a record that covers the
gap before it.
-/

namespace MariaDB.RecLock

open Function Lock List

inductive IsolationLevel where
  | readUncommitted
  | readCommitted
  | repeatableRead
  | serializable
deriving DecidableEq, Repr

def IsolationLevel.aboveReadCommitted : IsolationLevel → Bool
  | .readUncommitted | .readCommitted => false
  | .repeatableRead | .serializable => true

structure Trx where
  isolationLevel : IsolationLevel
  /-- `is_not_inheriting_locks()` -/
  notInheritingLocks : Bool
  /-- `duplicates`: `REPLACE`, `INSERT .. ON DUPLICATE KEY UPDATE` or `LOAD DATA .. REPLACE` -/
  duplicates : Bool
  /-- `lock_table_has(trx, table, LOCK_X)` -/
  tableX : Bool

abbrev Locks := Nat → List Lock

section

variable (alloc : Alloc) (trxs : Nat → Trx)

/-- The condition under which `lock_rec_inherit_to_gap` lets the heir inherit from `l`. -/
def inherits (fromSplit : Bool) (l : Lock) : Bool :=
  let trx := trxs l.trx
  !trx.notInheritingLocks && !l.typeMode.insertIntention &&
    (trx.isolationLevel.aboveReadCommitted ||
      ((!fromSplit || !l.typeMode.recNotGap) &&
        decide (l.typeMode.mode ≠ if trx.duplicates then .S else .X)))

/-- The condition of `lock_rec_inherit_to_gap_if_gap_lock`. -/
def inheritsGap (h : Nat) (l : Lock) : Bool :=
  let trx := trxs l.trx
  !trx.notInheritingLocks && !l.typeMode.insertIntention &&
    (decide (h = heapNoSupremum) || !l.typeMode.recNotGap) && !trx.tableX

/-- The loop of both: `donors` are the objects with the donor's bit; what the loop adds to the
heir's page does not have it. -/
def inheritLoop (cond : Lock → Bool) (heirNo : Nat) : List Lock → List Lock → List Lock
  | [], heir => heir
  | l :: donors, heir =>
    inheritLoop cond heirNo donors
      (if cond l then addToQueue alloc none (.gapOf l.typeMode.mode) heirNo l.trx heir else heir)

def inheritToGap (fromSplit : Bool) (heir heirNo donor donorNo : Nat) (s : Locks) : Locks :=
  update s heir (inheritLoop alloc (inherits trxs fromSplit) heirNo
    ((s donor).filter (·.nthBit donorNo)) (s heir))

def inheritToGapIfGapLock (page heirNo donorNo : Nat) (s : Locks) : Locks :=
  update s page (inheritLoop alloc (inheritsGap trxs donorNo) heirNo
    ((s page).filter (·.nthBit donorNo)) (s page))

/-- `lock_rec_cancel`: the bit reset is the first one set. -/
def Lock.cancel (l : Lock) : Lock :=
  (match l.findSetBit with
    | some i => l.resetNthBit i
    | none => l).clearWait

/-- `lock_rec_reset_and_release_wait` on one object -/
def Lock.release (h : Nat) (l : Lock) : Lock :=
  if l.nthBit h then (if l.typeMode.wait then l.cancel else l.resetNthBit h) else l

def resetAndReleaseWait (page h : Nat) (s : Locks) : Locks :=
  update s page ((s page).map (release h))

/-- The first object of the page whose bit `h` is set, and the objects around it. -/
def firstOn (h : Nat) : List Lock → Option (List Lock × Lock × List Lock)
  | [] => none
  | l :: queue =>
    if l.nthBit h then some ([], l, queue)
    else (firstOn h queue).map fun x => (l :: x.1, x.2)

/-- The loop of `lock_rec_move`, which is left after `n` rounds. The bit is reset before the
request is added, so the object at hand is always the first whose bit is set. -/
def recMoveLoop (receiver receiverNo donator donatorNo : Nat) : Nat → Locks → Locks
  | 0, s => s
  | n + 1, s =>
    match firstOn donatorNo (s donator) with
    | none => s
    | some (a, l, b) =>
      let s := update s donator (a ++ l.clearWait.resetNthBit donatorNo :: b)
      recMoveLoop receiver receiverNo donator donatorNo n
        (update s receiver (addToQueue alloc none l.typeMode receiverNo l.trx (s receiver)))

def recMove (receiver receiverNo donator donatorNo : Nat) (s : Locks) : Locks :=
  recMoveLoop alloc receiver receiverNo donator donatorNo (requests (s donator) donatorNo).length s

/-- The inner loop of `lock_move_rec_list_end` and `lock_move_rec_list_start` for one object: over
the moved records, old and new heap number. -/
def moveBits (tm : TypeMode) (trx : Nat) : List (Nat × Nat) → Lock → List Lock → Lock × List Lock
  | [], l, new => (l, new)
  | (h, h') :: moved, l, new =>
    if l.nthBit h then
      moveBits tm trx moved (l.clearWait.resetNthBit h) (addToQueue alloc none tm h' trx new)
    else moveBits tm trx moved l new

def moveLists (moved : List (Nat × Nat)) : List Lock → List Lock → List Lock × List Lock
  | [], new => ([], new)
  | l :: old, new =>
    let x := moveBits alloc l.typeMode l.trx moved l new
    let y := moveLists moved old x.2
    (x.1 :: y.1, y.2)

/-- `lock_move_rec_list_end` and `lock_move_rec_list_start`: they differ in the records that the
page change has moved. -/
def moveRecList (newPage page : Nat) (moved : List (Nat × Nat)) (s : Locks) : Locks :=
  let x := moveLists alloc moved (s page) (s newPage)
  update (update s page x.1) newPage x.2

def freeAllFromDiscardPage (page : Nat) (s : Locks) : Locks := update s page []

end

/-! ### Requests that cover a gap -/

def Request.Covers (trx : Nat) (mode : Mode) (r : Request) : Prop :=
  r.trx = trx ∧ r.typeMode.mode = mode ∧ r.typeMode.recNotGap = false ∧
    r.typeMode.insertIntention = false

def CoversGap (queue : List Lock) (h trx : Nat) (mode : Mode) : Prop :=
  ∃ r ∈ requests queue h, r.Covers trx mode

section

variable {alloc : Alloc} {trxs : Nat → Trx} {trx : Nat} {mode : Mode}

variable {queue a b : List Lock} {h p j : Nat} {l : Lock} {s : Locks} {rs : List Request}
  {q q' : List Request} {x : Request}
  {tm : TypeMode}
  {P : Lock → Prop}
  {heir heirNo donor donorNo : Nat} {fromSplit : Bool}

lemma coversGap_iff : CoversGap queue h trx mode ↔
      ∃ l ∈ queue, l.nthBit h = true ∧ l.request.Covers trx mode := by
  constructor
  · rintro ⟨r, hr, hc⟩
    obtain ⟨l, hl, hbit, rfl⟩ := mem_requests.mp hr
    exact ⟨l, hl, hbit, hc⟩
  · rintro ⟨l, hl, hbit, hc⟩
    exact ⟨l.request, mem_requests.mpr ⟨l, hl, hbit, rfl⟩, hc⟩

lemma CoversGap.addToQueue (hc : CoversGap queue h trx mode)
    (ins : Option Nat) (tm : TypeMode) (h' trx' : Nat) :
    CoversGap (addToQueue alloc ins tm h' trx' queue) h trx mode := by
  obtain ⟨r, hr, hcov⟩ := hc
  refine ⟨r, ?_, hcov⟩
  by_cases hh : h = h'
  · subst hh
    exact (added_addToQueue alloc ins tm h trx' queue).mem_of_mem hr
  · rwa [requests_addToQueue_of_ne alloc ins tm hh]

lemma CoversGap.update (hc : CoversGap (s p) h trx mode)
    (hq : p = page → CoversGap queue h trx mode) :
    CoversGap (update s page queue p) h trx mode := by
  rw [update_apply]
  split_ifs with hp
  · exact hq hp
  · exact hc

lemma Request.Covers.onRecord (hc : Request.Covers trx mode ⟨trx, tm⟩)
    (h : Nat) : Request.Covers trx mode ⟨trx, tm.onRecord h⟩ := by
  obtain ⟨-, hm, hng, hii⟩ := hc
  exact ⟨rfl, by rwa [TypeMode.mode_onRecord], TypeMode.recNotGap_onRecord hng h,
    by rwa [TypeMode.insertIntention_onRecord]⟩

lemma coversGap_addToQueue (hc : Request.Covers trx mode ⟨trx, tm⟩)
    (ins : Option Nat) (h : Nat) (queue : List Lock) :
    CoversGap (addToQueue alloc ins tm h trx queue) h trx mode :=
  ⟨_, (added_addToQueue alloc ins tm h trx queue).mem, hc.onRecord h⟩

lemma covers_gapOf (trx : Nat) (mode : Mode) :
    Request.Covers trx mode ⟨trx, .gapOf mode⟩ := ⟨rfl, rfl, rfl, rfl⟩

/-! ### Inheriting -/

lemma CoversGap.inheritLoop (hc : CoversGap queue h trx mode)
    (cond : Lock → Bool) (heirNo : Nat) (donors : List Lock) :
    CoversGap (inheritLoop alloc cond heirNo donors queue) h trx mode := by
  induction donors generalizing queue with
  | nil => exact hc
  | cons l donors ih =>
    rw [RecLock.inheritLoop]
    apply ih
    split_ifs
    · exact hc.addToQueue ..
    · exact hc

lemma coversGap_inheritLoop {cond : Lock → Bool} {donors : List Lock} (hl : l ∈ donors)
    (hcond : cond l = true) (hcov : l.request.Covers trx mode) (heirNo : Nat) (queue : List Lock) :
    CoversGap (inheritLoop alloc cond heirNo donors queue) heirNo trx mode := by
  obtain ⟨ht, hm, -⟩ := hcov
  induction donors generalizing queue with
  | nil => cases hl
  | cons x donors ih =>
    rw [inheritLoop]
    rcases mem_cons.mp hl with rfl | hl
    · rw [if_pos hcond]
      obtain rfl : l.trx = trx := ht
      obtain rfl : l.typeMode.mode = mode := hm
      exact (coversGap_addToQueue (covers_gapOf _ _) none heirNo queue).inheritLoop ..
    · exact ih hl _

/-- The transaction is above READ COMMITTED, inherits locks and does not have the table locked
in mode X. -/
def Trx.Inheriting (x : Trx) : Prop :=
  x.isolationLevel.aboveReadCommitted = true ∧ x.notInheritingLocks = false ∧ x.tableX = false

lemma inherits_of_covers (hx : (trxs trx).Inheriting) (fromSplit : Bool)
    (hcov : l.request.Covers trx mode) : inherits trxs fromSplit l = true := by
  obtain ⟨ht, -, -, hii⟩ := hcov
  have ht' : l.trx = trx := ht
  have hii' : l.typeMode.insertIntention = false := hii
  unfold inherits
  simp [ht', hii', hx.1, hx.2.1]

lemma inheritsGap_of_covers (hx : (trxs trx).Inheriting) (h : Nat)
    (hcov : l.request.Covers trx mode) : inheritsGap trxs h l = true := by
  obtain ⟨ht, -, hng, hii⟩ := hcov
  have ht' : l.trx = trx := ht
  have hii' : l.typeMode.insertIntention = false := hii
  have hng' : l.typeMode.recNotGap = false := hng
  unfold inheritsGap
  simp [ht', hii', hng', hx.2.1, hx.2.2]

lemma CoversGap.inheritToGap (hc : CoversGap (s p) h trx mode) :
    CoversGap (inheritToGap alloc trxs fromSplit heir heirNo donor donorNo s p) h trx mode :=
  hc.update fun hp => (hp ▸ hc).inheritLoop ..

lemma mem_donors (hl : l ∈ queue) (hbit : l.nthBit h = true) : l ∈ queue.filter (·.nthBit h) :=
  mem_filter.mpr ⟨hl, hbit⟩

lemma coversGap_inheritToGap (hx : (trxs trx).Inheriting)
    (hc : CoversGap (s donor) donorNo trx mode) :
    CoversGap (inheritToGap alloc trxs fromSplit heir heirNo donor donorNo s heir) heirNo
      trx mode := by
  obtain ⟨l, hl, hbit, hcov⟩ := coversGap_iff.mp hc
  unfold inheritToGap
  rw [update_self]
  exact coversGap_inheritLoop (mem_donors hl hbit) (inherits_of_covers hx fromSplit hcov) hcov _ _

lemma CoversGap.inheritToGapIfGapLock
    (hc : CoversGap (s p) h trx mode) (page heirNo donorNo : Nat) :
    CoversGap (inheritToGapIfGapLock alloc trxs page heirNo donorNo s p) h trx mode :=
  hc.update fun hp => (hp ▸ hc).inheritLoop ..

lemma coversGap_inheritToGapIfGapLock (hx : (trxs trx).Inheriting)
    (hc : CoversGap (s page) donorNo trx mode) (heirNo : Nat) :
    CoversGap (inheritToGapIfGapLock alloc trxs page heirNo donorNo s page) heirNo trx mode := by
  obtain ⟨l, hl, hbit, hcov⟩ := coversGap_iff.mp hc
  unfold inheritToGapIfGapLock
  rw [update_self]
  exact coversGap_inheritLoop (mem_donors hl hbit) (inheritsGap_of_covers hx donorNo hcov) hcov _ _

lemma WaitProp.inheritLoop (hP : WaitProp P) (cond : Lock → Bool)
    (heirNo : Nat) (donors : List Lock) (hq : ∀ l ∈ queue, P l) :
    ∀ l ∈ inheritLoop alloc cond heirNo donors queue, P l := by
  induction donors generalizing queue with
  | nil => exact hq
  | cons x donors ih =>
    rw [RecLock.inheritLoop]
    apply ih
    split_ifs
    · exact hP.addToQueue alloc none _ heirNo x.trx hq
    · exact hq

/-- Waiting objects have one bit, on every page. -/
def Locks.SingleBits (s : Locks) : Prop := ∀ p, ∀ l ∈ s p, SingleBit l

lemma forall_update (hs : ∀ p, ∀ l ∈ s p, P l) (p : Nat)
    (hq : ∀ l ∈ queue, P l) : ∀ p', ∀ l ∈ update s p queue p', P l :=
  (forall_update_iff s fun _ q => ∀ l ∈ q, P l).mpr ⟨hq, fun p' _ => hs p'⟩

lemma Locks.SingleBits.update (hs : s.SingleBits) (p : Nat)
    (hq : ∀ l ∈ queue, SingleBit l) : Locks.SingleBits (update s p queue) :=
  forall_update hs p hq

lemma Locks.SingleBits.inheritToGap (hs : s.SingleBits) :
    Locks.SingleBits (inheritToGap alloc trxs fromSplit heir heirNo donor donorNo s) :=
  hs.update heir (waitProp_singleBit.inheritLoop _ _ _ (hs heir))

/-! ### Resetting -/

lemma nthBit_release (hs : SingleBit l) (j : Nat) :
    (l.release h).nthBit j = (!decide (j = h) && l.nthBit j) := by
  unfold release
  by_cases hl : l.nthBit h = true
  · rw [if_pos hl]
    split_ifs with hw
    · rw [cancel, findSetBit_of_single hs hw hl, nthBit_clearWait, nthBit_resetNthBit]
    · rw [nthBit_resetNthBit]
  · rw [if_neg hl]
    by_cases hj : j = h
    · subst hj
      simpa using hl
    · simp [hj]

lemma request_release (hs : SingleBit l)
    (hj : (l.release h).nthBit j = true) : (l.release h).request = l.request := by
  rw [nthBit_release hs] at hj
  simp only [Bool.and_eq_true, Bool.not_eq_true', decide_eq_false_iff_not] at hj
  unfold release
  split_ifs with hl hw
  · exact absurd (hs hw j h hj.2 hl) hj.1
  · rfl
  · rfl

lemma requests_release_of_ne (hq : ∀ l ∈ queue, SingleBit l)
    (hj : j ≠ h) : requests (queue.map (release h)) j = requests queue j := by
  induction queue <;> grind [nthBit_release, requests_cons, request_release]

lemma CoversGap.resetAndReleaseWait (hs : s.SingleBits) (hc : CoversGap (s p) h trx mode)
    (hne : ¬(p = page ∧ h = h')) : CoversGap (resetAndReleaseWait page h' s p) h trx mode := by
  refine hc.update ?_
  rintro rfl
  unfold CoversGap at hc ⊢
  rwa [requests_release_of_ne (hs p) fun hh => hne ⟨rfl, hh⟩]

lemma singleBit_release (hs : SingleBit l) : SingleBit (l.release h) := by
  intro hw i j hi hj
  have hreq := congrArg (fun r : Request => r.typeMode.wait) (request_release hs hi)
  rw [nthBit_release hs, Bool.and_eq_true] at hi hj
  exact hs (hreq ▸ hw) i j hi.2 hj.2

lemma Locks.SingleBits.resetAndReleaseWait (hs : s.SingleBits) (page h : Nat) :
    Locks.SingleBits (resetAndReleaseWait page h s) := by
  refine hs.update page fun l hl => ?_
  obtain ⟨x, hx, rfl⟩ := mem_map.mp hl
  exact singleBit_release (hs page x hx)

/-! ### Moving one record -/

lemma firstOn_of_requests_cons (hr : requests queue h = r :: rs) :
    ∃ a l b, firstOn h queue = some (a, l, b) ∧ queue = a ++ l :: b ∧ l.nthBit h = true ∧
      l.request = r ∧ requests a h = [] ∧ requests b h = rs := by
  induction queue <;> grind [firstOn, requests]

lemma firstOn_eq_some (hfirst : firstOn h queue = some (a, l, b)) : queue = a ++ l :: b := by
  fun_induction firstOn h queue generalizing a <;> grind [Option.map_eq_some_iff]

/-- The object that gave its bit away says nothing new about the other records: if it waited,
the bit was its only one. -/
lemma requests_moved_of_ne (hs : SingleBit l) (hl : l.nthBit h = true) (hj : j ≠ h) :
    requests (a ++ l.clearWait.resetNthBit h :: b) j = requests (a ++ l :: b) j := by
  have hbit : (l.clearWait.resetNthBit h).nthBit j = l.nthBit j := by
    rw [nthBit_resetNthBit, nthBit_clearWait]
    simp [hj]
  have hreq : l.typeMode.wait = false → (l.clearWait.resetNthBit h).request = l.request :=
    fun hwait => by simp [clearWait, resetNthBit, request, ← hwait]
  have hsingle := fun hw hlj => hs hw j h hlj hl
  grind [requests_append, requests_cons]

lemma requests_moved (ha : requests a h = []) :
    requests (a ++ l.clearWait.resetNthBit h :: b) h = requests b h := by
  rw [requests_append, ha, nil_append, requests_cons_of_not_bit]
  simp

lemma singleBit_moved (hq : ∀ x ∈ a ++ l :: b, SingleBit x) :
    ∀ x ∈ a ++ l.clearWait.resetNthBit h :: b, SingleBit x := by
  have hl : SingleBit (l.clearWait.resetNthBit h) := fun hw => by cases hw
  grind

inductive EnqueuedAll : List Request → List Request → List Request → Prop where
  | nil (q : List Request) : EnqueuedAll [] q q
  | cons {r : Request} {rs q q₁ q₂ : List Request} :
      Enqueued r q q₁ → EnqueuedAll rs q₁ q₂ → EnqueuedAll (r :: rs) q q₂

lemma EnqueuedAll.mem_of_mem (h : EnqueuedAll rs q q') (hx : x ∈ q) : x ∈ q' := by
  induction h with
  | nil => exact hx
  | cons hr _ ih => exact ih (hr.1.mem_of_mem hx)

lemma EnqueuedAll.mem (h : EnqueuedAll rs q q') (hx : x ∈ rs) : x ∈ q' := by
  induction h with
  | nil => cases hx
  | cons hr hrest ih =>
    rcases mem_cons.mp hx with rfl | hx
    · exact hrest.mem_of_mem hr.1.mem
    · exact ih hx

def Request.onRecord (r : Request) (h : Nat) : Request := ⟨r.trx, r.typeMode.onRecord h⟩

section Move

variable {receiver receiverNo donator donatorNo : Nat}

lemma WaitProp.recMoveLoop (hP : WaitProp P) (n : Nat) (hs : ∀ p, ∀ l ∈ s p, P l) :
    ∀ p, ∀ l ∈ recMoveLoop alloc receiver receiverNo donator donatorNo n s p, P l := by
  induction n generalizing s with
  | zero => exact hs
  | succ n ih =>
    rw [RecLock.recMoveLoop]
    cases hfirst : firstOn donatorNo (s donator) with
    | none => exact hs
    | some x =>
      obtain ⟨a, l, b⟩ := x
      have hsplit := firstOn_eq_some hfirst
      have hl := hP.granted (l.clearWait.resetNthBit donatorNo) rfl
      have hs₁ := @forall_update (a ++ l.clearWait.resetNthBit donatorNo :: b) s P hs donator
        (by grind)
      exact ih (forall_update hs₁ _ (hP.addToQueue alloc none _ _ _ (hs₁ receiver)))

variable (hs : s.SingleBits) (hne : ¬(receiver = donator ∧ receiverNo = donatorNo))
include hs hne

variable (alloc) in
lemma recMove_round (hq : s donator = a ++ l :: b) (hl : l.nthBit donatorNo = true)
    (ha : requests a donatorNo = []) :
    let s₁ : Locks := update s donator (a ++ l.clearWait.resetNthBit donatorNo :: b)
    let s₂ : Locks := update s₁ receiver
      (addToQueue alloc none l.typeMode receiverNo l.trx (s₁ receiver))
    s₂.SingleBits ∧ requests (s₂ donator) donatorNo = requests b donatorNo ∧
      Enqueued (l.request.onRecord receiverNo) (requests (s receiver) receiverNo)
        (requests (s₂ receiver) receiverNo) ∧
      ∀ p h, ¬(p = donator ∧ h = donatorNo) → ¬(p = receiver ∧ h = receiverNo) →
        requests (s₂ p) h = requests (s p) h := by
  intro s₁ s₂
  have hsingle : ∀ x ∈ a ++ l :: b, SingleBit x := hq ▸ hs donator
  have hs₁ : Locks.SingleBits s₁ := hs.update donator (singleBit_moved hsingle)
  have hreq₁ : ∀ p h, ¬(p = donator ∧ h = donatorNo) → requests (s₁ p) h = requests (s p) h := by
    intro p h hp
    by_cases hpd : p = donator
    · subst hpd
      have hh : h ≠ donatorNo := fun hh => hp ⟨rfl, hh⟩
      simp only [s₁, update_self]
      rw [requests_moved_of_ne (hsingle l (by simp)) hl hh, hq]
    · simp only [s₁, update_of_ne hpd]
  have hreq₂ : ∀ p h, ¬(p = receiver ∧ h = receiverNo) → requests (s₂ p) h = requests (s₁ p) h := by
    intro p h hp
    by_cases hpr : p = receiver
    · subst hpr
      simp only [s₂, update_self]
      exact requests_addToQueue_of_ne alloc none _ (fun hh => hp ⟨rfl, hh⟩) _ _
    · simp only [s₂, update_of_ne hpr]
  refine ⟨hs₁.update receiver (singleBit_addToQueue alloc none _ _ _ (hs₁ receiver)), ?_, ?_, ?_⟩
  · rw [hreq₂ donator donatorNo fun h => hne ⟨h.1.symm, h.2.symm⟩]
    simp only [s₁, update_self]
    exact requests_moved ha
  · rw [← hreq₁ receiver receiverNo hne]
    simp only [s₂, update_self]
    exact enqueued_addToQueue alloc l.typeMode receiverNo l.trx (s₁ receiver)
  · intro p h hd hr
    rw [hreq₂ p h hr, hreq₁ p h hd]

variable (alloc) in
/-- `lock_rec_move` takes the requests of the donator away and adds them, in their order, to the
receiver's; other records are not touched. -/
lemma recMove_spec : let s' := recMove alloc receiver receiverNo donator donatorNo s
    s'.SingleBits ∧ requests (s' donator) donatorNo = [] ∧
      EnqueuedAll ((requests (s donator) donatorNo).map (·.onRecord receiverNo))
        (requests (s receiver) receiverNo) (requests (s' receiver) receiverNo) ∧
      ∀ p h, ¬(p = donator ∧ h = donatorNo) → ¬(p = receiver ∧ h = receiverNo) →
        requests (s' p) h = requests (s p) h := by
  unfold recMove
  generalize hrs : requests (s donator) donatorNo = rs
  induction rs generalizing s with
  | nil => exact ⟨hs, hrs, .nil _, fun _ _ _ _ => rfl⟩
  | cons r rs ih =>
    obtain ⟨a, l, b, hfirst, hq, hl, rfl, ha, hb⟩ := firstOn_of_requests_cons hrs
    obtain ⟨hs₂, hdon, hrec, hother⟩ := recMove_round alloc hs hne hq hl ha
    rw [length_cons, recMoveLoop, hfirst]
    obtain ⟨hs', hdon', hrec', hother'⟩ := ih hs₂ (hdon.trans hb)
    exact ⟨hs', hdon', .cons hrec hrec',
      fun p h hd hr => (hother' p h hd hr).trans (hother p h hd hr)⟩

lemma CoversGap.recMove (hc : CoversGap (s p) h trx mode) (hp : ¬(p = donator ∧ h = donatorNo)) :
    CoversGap (recMove alloc receiver receiverNo donator donatorNo s p) h trx mode := by
  obtain ⟨-, -, hrec, hother⟩ := recMove_spec alloc hs hne
  obtain ⟨r, hr, hcov⟩ := hc
  refine ⟨r, ?_, hcov⟩
  by_cases hpr : p = receiver ∧ h = receiverNo
  · obtain ⟨rfl, rfl⟩ := hpr
    exact hrec.mem_of_mem hr
  · rwa [hother p h hp hpr]

lemma coversGap_recMove (hc : CoversGap (s donator) donatorNo trx mode) :
    CoversGap (recMove alloc receiver receiverNo donator donatorNo s receiver) receiverNo
      trx mode := by
  obtain ⟨-, -, hrec, -⟩ := recMove_spec alloc hs hne
  obtain ⟨⟨t, tm⟩, hr, hcov⟩ := hc
  obtain rfl : t = trx := hcov.1
  exact ⟨_, hrec.mem (mem_map_of_mem hr), hcov.onRecord receiverNo⟩

end Move

/-! ### Moving a list of records -/

variable {new : List Lock} {h : Nat} {moved : List (Nat × Nat)} {old : List Lock}

/-- What the inner loop leaves of an object. -/
lemma moveBits_old (tm : TypeMode) (t : Nat) (moved : List (Nat × Nat)) {l : Lock}
    (hh : h ∉ moved.map Prod.fst) (hbit : l.nthBit h = true) (hcov : l.request.Covers trx mode) :
    (moveBits alloc tm t moved l new).1.nthBit h = true ∧
      (moveBits alloc tm t moved l new).1.request.Covers trx mode := by
  induction moved generalizing l new with
  | nil => exact ⟨hbit, hcov⟩
  | cons x moved ih =>
    rw [map_cons, mem_cons, not_or] at hh
    rw [moveBits]
    split_ifs
    · refine ih hh.2 ?_ hcov
      rw [nthBit_resetNthBit, nthBit_clearWait, hbit]
      simpa using hh.1
    · exact ih hh.2 hbit hcov

lemma CoversGap.moveBits (tm : TypeMode) (t : Nat) (moved : List (Nat × Nat)) (l : Lock)
    (hc : CoversGap new h trx mode) :
    CoversGap (moveBits alloc tm t moved l new).2 h trx mode := by
  induction moved generalizing l new with
  | nil => exact hc
  | cons x moved ih =>
    rw [RecLock.moveBits]
    split_ifs
    · exact ih _ (hc.addToQueue ..)
    · exact ih _ hc

lemma coversGap_moveBits {l : Lock} (hcov : Request.Covers trx mode ⟨trx, tm⟩)
    (hmem : (h, h') ∈ moved) (hnodup : (moved.map Prod.fst).Nodup) (hbit : l.nthBit h = true)
    (new : List Lock) : CoversGap (moveBits alloc tm trx moved l new).2 h' trx mode := by
  induction moved generalizing l new with
  | nil => cases hmem
  | cons x moved ih =>
    rw [map_cons, nodup_cons] at hnodup
    rw [moveBits]
    rcases mem_cons.mp hmem with rfl | hmem
    · rw [if_pos hbit]
      exact (coversGap_addToQueue hcov none h' new).moveBits ..
    · have hne : h ≠ x.1 := fun he => hnodup.1 (mem_map.mpr ⟨_, hmem, he⟩)
      split_ifs
      · refine ih hmem hnodup.2 ?_ _
        rw [nthBit_resetNthBit, nthBit_clearWait, hbit]
        simpa using hne
      · exact ih hmem hnodup.2 hbit _

variable (alloc) in
lemma singleBit_moveBits (tm : TypeMode) (t : Nat) (moved : List (Nat × Nat)) (hl : SingleBit l)
    (hnew : ∀ x ∈ new, SingleBit x) :
    SingleBit (moveBits alloc tm t moved l new).1 ∧
      ∀ x ∈ (moveBits alloc tm t moved l new).2, SingleBit x := by
  induction moved generalizing l new with
  | nil => exact ⟨hl, hnew⟩
  | cons x moved ih =>
    rw [moveBits]
    split_ifs
    · exact ih (fun hw => by cases hw) (singleBit_addToQueue alloc none _ _ _ hnew)
    · exact ih hl hnew

lemma moveLists_old (hh : h ∉ moved.map Prod.fst) (hc : CoversGap old h trx mode)
    (new : List Lock) :
    CoversGap (moveLists alloc moved old new).1 h trx mode := by
  rw [coversGap_iff] at hc ⊢
  induction old generalizing new with
  | nil => simp at hc
  | cons x old ih =>
    obtain ⟨l, hl, hbit, hcov⟩ := hc
    rw [moveLists]
    rcases mem_cons.mp hl with rfl | hl
    · exact ⟨_, mem_cons_self, moveBits_old _ _ moved hh hbit hcov⟩
    · obtain ⟨y, hy, hrest⟩ := ih ⟨l, hl, hbit, hcov⟩ (moveBits alloc _ _ moved x new).2
      exact ⟨y, mem_cons_of_mem _ hy, hrest⟩

lemma CoversGap.moveLists (moved : List (Nat × Nat)) (old : List Lock)
    (hc : CoversGap new h trx mode) :
    CoversGap (moveLists alloc moved old new).2 h trx mode := by
  induction old generalizing new with
  | nil => exact hc
  | cons x old ih =>
    rw [RecLock.moveLists]
    exact ih (hc.moveBits ..)

lemma coversGap_moveLists (hmem : (h, h') ∈ moved) (hnodup : (moved.map Prod.fst).Nodup)
    (hc : CoversGap old h trx mode) (new : List Lock) :
    CoversGap (moveLists alloc moved old new).2 h' trx mode := by
  obtain ⟨l, hl, hbit, hcov⟩ := coversGap_iff.mp hc
  obtain rfl : l.trx = trx := hcov.1
  clear hc
  induction old generalizing new with
  | nil => cases hl
  | cons x old ih =>
    rw [moveLists]
    rcases mem_cons.mp hl with rfl | hl
    · exact (coversGap_moveBits hcov hmem hnodup hbit new).moveLists ..
    · exact ih _ hl

variable (alloc) in
lemma singleBit_moveLists (moved : List (Nat × Nat)) (hold : ∀ l ∈ old, SingleBit l)
    (hnew : ∀ l ∈ new, SingleBit l) :
    (∀ l ∈ (moveLists alloc moved old new).1, SingleBit l) ∧
      ∀ l ∈ (moveLists alloc moved old new).2, SingleBit l := by
  induction old generalizing new with
  | nil => exact ⟨hold, hnew⟩
  | cons x old ih =>
    obtain ⟨hx, hnew'⟩ := singleBit_moveBits alloc x.typeMode x.trx moved
      (hold x mem_cons_self) hnew
    obtain ⟨h₁, h₂⟩ := ih (fun l hl => hold l (mem_cons_of_mem _ hl)) hnew'
    rw [moveLists]
    refine ⟨?_, h₂⟩
    grind

section MoveList

variable {newPage page : Nat} {moved : List (Nat × Nat)} {s : Locks}

lemma CoversGap.moveRecList (hc : CoversGap (s p) h trx mode) (hne : newPage ≠ page)
    (hp : p = page → h ∉ moved.map Prod.fst) :
    CoversGap (moveRecList alloc newPage page moved s p) h trx mode := by
  refine CoversGap.update (hc.update ?_) fun hpn => (hpn ▸ hc).moveLists ..
  rintro rfl
  exact moveLists_old (hp rfl) hc _

lemma coversGap_moveRecList (hmem : (h, h') ∈ moved) (hnodup : (moved.map Prod.fst).Nodup)
    (hc : CoversGap (s page) h trx mode) :
    CoversGap (moveRecList alloc newPage page moved s newPage) h' trx mode := by
  unfold moveRecList
  rw [update_self]
  exact coversGap_moveLists hmem hnodup hc _

lemma Locks.SingleBits.moveRecList (hs : s.SingleBits) :
    Locks.SingleBits (moveRecList alloc newPage page moved s) := by
  obtain ⟨hold, hnew⟩ := singleBit_moveLists alloc moved (hs page) (hs newPage)
  exact (hs.update page hold).update newPage hnew

end MoveList

end

end MariaDB.RecLock
