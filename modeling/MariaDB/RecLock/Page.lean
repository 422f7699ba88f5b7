import Mathlib

/-!
# Record locks of a page

A `lock_t` on records is one object for one transaction, one `type_mode` and a bitmap over the
heap numbers of a page; the objects of a page stand in one list, and the queue of a record is the
list of those whose bit for it is set. `lock_rec_add_to_queue` either sets a bit in an object
that is there or creates one, so that one request may land before requests made earlier on the
same record. What the rest of the development needs of it is said about the record's queue
(`requests`): the request is added at one place, other records are not touched.
-/

namespace MariaDB.RecLock

open List

/-- `LOCK_S` and `LOCK_X`, the modes of record locks. -/
inductive Mode where
  | S
  | X
deriving DecidableEq, Repr

/-- `type_mode` of a record lock. -/
structure TypeMode where
  mode : Mode
  /-- `LOCK_WAIT` -/
  wait : Bool
  /-- `LOCK_GAP` -/
  gap : Bool
  /-- `LOCK_REC_NOT_GAP` -/
  recNotGap : Bool
  /-- `LOCK_INSERT_INTENTION` -/
  insertIntention : Bool
deriving DecidableEq, Repr

def heapNoInfimum : Nat := 0

def heapNoSupremum : Nat := 1

namespace TypeMode

/-- `LOCK_GAP | mode` -/
def gapOf (mode : Mode) : TypeMode := ⟨mode, false, true, false, false⟩

variable (tm : TypeMode)

/-- Locks on the supremum are all of the gap type: both flags are reset there. -/
def onRecord (heapNo : Nat) : TypeMode :=
  if heapNo = heapNoSupremum then { tm with gap := false, recNotGap := false } else tm

def isRecExclusiveNotGap : Bool := decide (tm.mode = .X) && !tm.gap

@[simp] lemma wait_onRecord (h : Nat) : (tm.onRecord h).wait = tm.wait := by
  unfold onRecord; split_ifs <;> rfl

@[simp] lemma mode_onRecord (h : Nat) : (tm.onRecord h).mode = tm.mode := by
  unfold onRecord; split_ifs <;> rfl

@[simp] lemma insertIntention_onRecord (h : Nat) :
    (tm.onRecord h).insertIntention = tm.insertIntention := by
  unfold onRecord; split_ifs <;> rfl

lemma onRecord_of_ne (hh : h ≠ heapNoSupremum) : tm.onRecord h = tm := if_neg hh

@[simp] lemma onRecord_onRecord (h : Nat) :
    (tm.onRecord h).onRecord h = tm.onRecord h := by
  unfold onRecord; split_ifs <;> rfl

lemma recNotGap_onRecord {tm : TypeMode} (htm : tm.recNotGap = false) (h : Nat) :
    (tm.onRecord h).recNotGap = false := by
  unfold onRecord; split_ifs
  · rfl
  · exact htm

end TypeMode

/-- `lock_t` on records: `bitmap` has `n_bits` entries. -/
structure Lock where
  trx : Nat
  typeMode : TypeMode
  bitmap : List Bool
deriving DecidableEq, Repr

structure Request where
  trx : Nat
  typeMode : TypeMode
deriving DecidableEq, Repr

namespace Lock

variable (l : Lock)

def nBits : Nat := l.bitmap.length

/-- `lock_rec_get_nth_bit` -/
def nthBit (i : Nat) : Bool := l.bitmap.getD i false

def setNthBit (i : Nat) : Lock := { l with bitmap := l.bitmap.set i true }

def resetNthBit (i : Nat) : Lock := { l with bitmap := l.bitmap.set i false }

def findSetBit : Option Nat := l.bitmap.findIdx? id

/-- `lock->type_mode &= ~LOCK_WAIT` -/
def clearWait : Lock := { l with typeMode := { l.typeMode with wait := false } }

def request : Request := ⟨l.trx, l.typeMode⟩

def canBeBypassing (trx : Nat) (l : Lock) : Bool :=
  decide (l.trx = trx) && !l.typeMode.wait && !l.typeMode.gap

@[simp] lemma request_setNthBit (i : Nat) : (l.setNthBit i).request = l.request := rfl

@[simp] lemma request_resetNthBit (i : Nat) :
    (l.resetNthBit i).request = l.request := rfl

@[simp] lemma nthBit_clearWait (i : Nat) : l.clearWait.nthBit i = l.nthBit i := rfl

lemma nthBit_eq_true {l : Lock} : l.nthBit i = true ↔ l.bitmap[i]? = some true := by
  unfold nthBit
  rw [getD_eq_getElem?_getD]
  cases l.bitmap[i]? <;> simp

lemma nthBit_setNthBit {l : Lock} (hi : i < l.nBits) (j : Nat) :
    (l.setNthBit i).nthBit j = (decide (j = i) || l.nthBit j) := by
  unfold nthBit setNthBit
  unfold nBits at hi
  by_cases hji : i = j
  · subst hji
    simp [hi]
  · simp [hji, Ne.symm hji]

lemma nthBit_setNthBit_of_ne (hj : j ≠ i) : (l.setNthBit i).nthBit j = l.nthBit j := by
  unfold nthBit setNthBit
  simp only [getD_eq_getElem?_getD, getElem?_set, if_neg (Ne.symm hj)]

@[simp] lemma nthBit_resetNthBit (i j : Nat) :
    (l.resetNthBit i).nthBit j = (!decide (j = i) && l.nthBit j) := by
  unfold nthBit resetNthBit
  simp only [getD_eq_getElem?_getD, getElem?_set]
  by_cases hji : i = j
  · subst hji
    rw [if_pos rfl]
    split_ifs <;> simp
  · simp [hji, Ne.symm hji]

end Lock

variable {l : Lock} {h j trx : Nat} {r : Request} {queue : List Lock} {q q' : List Request}
  {tm : TypeMode}

lemma Lock.nthBit_of_findSetBit (h : l.findSetBit = some i) : l.nthBit i = true := by
  rw [Lock.findSetBit, List.findIdx?_eq_some_iff_getElem] at h
  obtain ⟨hlt, hbit, -⟩ := h
  rw [Lock.nthBit_eq_true, List.getElem?_eq_some_iff]
  exact ⟨hlt, by simpa using hbit⟩

def SingleBit (l : Lock) : Prop :=
  l.typeMode.wait = true → ∀ i j, l.nthBit i = true → l.nthBit j = true → i = j

lemma Lock.findSetBit_of_single (hs : SingleBit l) (hw : l.typeMode.wait = true)
    (hi : l.nthBit i = true) : l.findSetBit = some i := by
  obtain ⟨hlt, hget⟩ := List.getElem?_eq_some_iff.mp (Lock.nthBit_eq_true.mp hi)
  rw [Lock.findSetBit, List.findIdx?_eq_some_iff_getElem]
  refine ⟨hlt, by simpa using hget, ?_⟩
  intro j hj hbit
  have hj' : l.nthBit j = true := by
    rw [Lock.nthBit_eq_true, List.getElem?_eq_some_iff]
    exact ⟨Nat.lt_trans hj hlt, by simpa using hbit⟩
  have := hs hw j i hj' hi
  omega

/-- How many bits `lock_rec_create` gives a new object: it depends on the heap of the page and on
how many objects of the transaction's pool are used, and covers the record. -/
structure Alloc where
  bits : List Lock → Nat → Nat → Nat
  lt_bits : ∀ queue trx heapNo, heapNo < bits queue trx heapNo

def requests (queue : List Lock) (h : Nat) : List Request :=
  (queue.filter (·.nthBit h)).map Lock.request

@[simp] lemma requests_nil (h : Nat) : requests [] h = [] := rfl

@[simp] lemma requests_append (a b : List Lock) (h : Nat) :
    requests (a ++ b) h = requests a h ++ requests b h := by
  unfold requests
  rw [filter_append, map_append]

lemma requests_cons (l : Lock) (q : List Lock) (h : Nat) :
    requests (l :: q) h = if l.nthBit h then l.request :: requests q h else requests q h := by
  unfold requests
  rw [filter_cons]
  split_ifs <;> rfl

lemma requests_cons_of_bit (hl : l.nthBit h = true) (q : List Lock) :
    requests (l :: q) h = l.request :: requests q h := by
  rw [requests_cons, if_pos hl]

lemma requests_cons_of_not_bit (hl : l.nthBit h = false) (q : List Lock) :
    requests (l :: q) h = requests q h := by
  rw [requests_cons, hl]
  rfl

lemma mem_requests : r ∈ requests queue h ↔ ∃ l ∈ queue, l.nthBit h = true ∧ l.request = r := by
  unfold requests
  simp only [mem_map, mem_filter, and_assoc]

/-- The object `lock_rec_create` makes. -/
def newLock (alloc : Alloc) (tm : TypeMode) (h trx : Nat) (queue : List Lock) : Lock :=
  ⟨trx, tm.onRecord h, (List.replicate (alloc.bits queue trx h) false).set h true⟩

/-- `lock_rec_create`: the object is the last of the page, or comes after the object at index
`insertAfter`. -/
def create (alloc : Alloc) (insertAfter : Option Nat) (tm : TypeMode) (h trx : Nat)
    (queue : List Lock) : List Lock :=
  match insertAfter with
  | none => queue ++ [newLock alloc tm h trx queue]
  | some i => queue.take (i + 1) ++ newLock alloc tm h trx queue :: queue.drop (i + 1)

/-- `lock_rec_find_similar_on_page`, and the bit set in the object it finds. -/
def setSimilar (tm : TypeMode) (h trx : Nat) : List Lock → Option (List Lock)
  | [] => none
  | l :: queue =>
    if l.trx = trx ∧ l.typeMode = tm ∧ h < l.nBits then some (l.setNthBit h :: queue)
    else (setSimilar tm h trx queue).map (l :: ·)

/-- The loop of `lock_rec_add_to_queue` over the objects of the page: whether it goes to `create`.
The condition on the last flag is the source's own. -/
def mustCreate (bypassMode : Bool) (h trx : Nat) : List Lock → Bool → Bool
  | [], _ => false
  | l :: queue, hasS =>
    if !l.nthBit h then mustCreate bypassMode h trx queue hasS
    else if bypassMode && l.canBeBypassing trx then mustCreate bypassMode h trx queue true
    else if l.typeMode.wait && (!bypassMode || !hasS || !l.typeMode.gap) then true
    else mustCreate bypassMode h trx queue hasS

/-- `lock_rec_get_next` from the object at index `i`, as an index. -/
def getNext (h : Nat) (queue : List Lock) (i : Nat) : Option Nat :=
  ((queue.drop (i + 1)).findIdx? (·.nthBit h)).map (· + (i + 1))

/-- `lock_rec_add_to_queue`; `insertAfter` is the index of `c_lock_info.insert_after`. -/
def addToQueue (alloc : Alloc) (insertAfter : Option Nat) (tm : TypeMode) (h trx : Nat)
    (queue : List Lock) : List Lock :=
  let tm := tm.onRecord h
  let bypassMode := decide (h ≠ heapNoSupremum) && tm.isRecExclusiveNotGap
  if tm.wait then create alloc insertAfter tm h trx queue
  else if mustCreate bypassMode h trx queue false then create alloc insertAfter tm h trx queue
  else
    let last := ((insertAfter.bind (getNext h queue)).getD queue.length)
    match setSimilar tm h trx (queue.take last) with
    | some q => q ++ queue.drop last
    | none => create alloc insertAfter tm h trx queue

/-! ### What is added -/

/-- `r` is among the requests, or was put in at one place. -/
def Added (r : Request) (q q' : List Request) : Prop :=
  (r ∈ q ∧ q' = q) ∨ ∃ a b, q = a ++ b ∧ q' = a ++ r :: b

lemma Added.mem (h : Added r q q') : r ∈ q' := by
  rcases h with ⟨hmem, rfl⟩ | ⟨a, b, rfl, rfl⟩
  · exact hmem
  · simp

lemma Added.mem_of_mem (h : Added r q q') (hx : x ∈ q) : x ∈ q' := by
  rcases h with ⟨-, rfl⟩ | ⟨a, b, rfl, rfl⟩
  · exact hx
  · simp only [mem_append, mem_cons] at hx ⊢
    tauto

lemma Added.append_left (h : Added r q q') (c : List Request) : Added r (c ++ q) (c ++ q') := by
  grind [Added]

lemma Added.append_right (h : Added r q q') (c : List Request) : Added r (q ++ c) (q' ++ c) := by
  grind [Added]

section

variable (alloc : Alloc) (ins : Option Nat)

variable (tm : TypeMode)

lemma nthBit_newLock (h trx : Nat) (queue : List Lock)
    (j : Nat) : (newLock alloc tm h trx queue).nthBit j = decide (j = h) := by
  have hlt := alloc.lt_bits queue trx h
  unfold newLock Lock.nthBit
  grind

lemma requests_newLock (h trx : Nat) (queue : List Lock) (q : List Lock) :
    requests (newLock alloc tm h trx queue :: q) h = ⟨trx, tm.onRecord h⟩ :: requests q h :=
  requests_cons_of_bit (by rw [nthBit_newLock]; simp) q

lemma requests_newLock_of_ne (hj : j ≠ h)
    (trx : Nat) (queue : List Lock) (q : List Lock) :
    requests (newLock alloc tm h trx queue :: q) j = requests q j :=
  requests_cons_of_not_bit (by rw [nthBit_newLock]; simp [hj]) q

lemma requests_create_none (h trx : Nat) (queue : List Lock) :
    requests (create alloc none tm h trx queue) h = requests queue h ++ [⟨trx, tm.onRecord h⟩] := by
  rw [create, requests_append, requests_newLock, requests_nil]

lemma requests_create_some (i : Nat) (tm : TypeMode) (h trx : Nat) (queue : List Lock) :
    requests (create alloc (some i) tm h trx queue) h
      = requests (queue.take (i + 1)) h ++ ⟨trx, tm.onRecord h⟩
        :: requests (queue.drop (i + 1)) h := by
  rw [create, requests_append, requests_newLock]

lemma requests_create_of_ne (hj : j ≠ h) (trx : Nat) (queue : List Lock) :
    requests (create alloc ins tm h trx queue) j = requests queue j := by
  cases ins with
  | none => rw [create, requests_append, requests_newLock_of_ne _ _ hj, requests_nil, append_nil]
  | some i => rw [create, requests_append, requests_newLock_of_ne _ _ hj, ← requests_append,
      take_append_drop]

lemma added_create (h trx : Nat) (queue : List Lock) :
    Added ⟨trx, tm.onRecord h⟩ (requests queue h)
      (requests (create alloc ins tm h trx queue) h) := by
  refine .inr ?_
  cases ins with
  | none => exact ⟨requests queue h, [], by simp, requests_create_none alloc tm h trx queue⟩
  | some i =>
    refine ⟨requests (queue.take (i + 1)) h, requests (queue.drop (i + 1)) h, ?_,
      requests_create_some alloc i tm h trx queue⟩
    rw [← requests_append, take_append_drop]

end

/-- The object found is one of the page, of the transaction and of the same `type_mode`. -/
lemma setSimilar_eq_some {q : List Lock} (hq : setSimilar tm h trx queue = some q) :
    ∃ a l b, queue = a ++ l :: b ∧ q = a ++ l.setNthBit h :: b ∧ l.trx = trx ∧ l.typeMode = tm ∧
      h < l.nBits := by
  induction queue generalizing q with
  | nil => simp [setSimilar] at hq
  | cons l queue ih =>
    rw [setSimilar] at hq
    split_ifs at hq with hl
    · cases hq
      exact ⟨[], l, queue, rfl, rfl, hl⟩
    · obtain ⟨q', hq', rfl⟩ := Option.map_eq_some_iff.mp hq
      obtain ⟨a, l', b, rfl, rfl, hl'⟩ := ih hq'
      exact ⟨l :: a, l', b, rfl, rfl, hl'⟩

lemma requests_setSimilar_of_ne (hj : j ≠ h)
    {q : List Lock} (hq : setSimilar tm h trx queue = some q) :
    requests q j = requests queue j := by
  obtain ⟨a, l, b, rfl, rfl, -⟩ := setSimilar_eq_some hq
  simp only [requests_append, requests_cons, Lock.nthBit_setNthBit_of_ne l hj,
    Lock.request_setNthBit]

lemma added_setSimilar {q : List Lock} (hq : setSimilar tm h trx queue = some q) :
    Added ⟨trx, tm⟩ (requests queue h) (requests q h) := by
  obtain ⟨a, l, b, rfl, rfl, ht, htm, hlt⟩ := setSimilar_eq_some hq
  have hr : l.request = ⟨trx, tm⟩ := by rw [← ht, ← htm]; rfl
  have hset : (l.setNthBit h).nthBit h = true := by rw [Lock.nthBit_setNthBit hlt]; simp
  rw [requests_append, requests_append, requests_cons_of_bit hset, Lock.request_setNthBit, hr]
  refine Added.append_left ?_ _
  by_cases hl : l.nthBit h = true
  · rw [requests_cons_of_bit hl, hr]
    exact .inl ⟨mem_cons_self, rfl⟩
  · rw [requests_cons_of_not_bit (Bool.eq_false_iff.mpr hl)]
    exact .inr ⟨[], _, rfl, rfl⟩

/-- Either an object is created or a bit is set in one before `last`. -/
lemma addToQueue_cases (alloc : Alloc) (ins : Option Nat) (tm : TypeMode) (h trx : Nat)
    (queue : List Lock) :
    addToQueue alloc ins tm h trx queue = create alloc ins (tm.onRecord h) h trx queue ∨
      (tm.wait = false ∧ ∃ last q, setSimilar (tm.onRecord h) h trx (queue.take last) = some q ∧
        addToQueue alloc ins tm h trx queue = q ++ queue.drop last) := by
  unfold addToQueue
  dsimp only
  by_cases hw : (tm.onRecord h).wait = true
  · rw [if_pos hw]
    exact .inl rfl
  · rw [if_neg hw]
    split_ifs
    · exact .inl rfl
    · generalize ((ins.bind (getNext h queue)).getD queue.length) = last
      cases hs : setSimilar (tm.onRecord h) h trx (queue.take last) with
      | none => exact .inl rfl
      | some q => exact .inr ⟨by simpa using hw, last, q, hs, rfl⟩

lemma requests_addToQueue_of_ne (alloc : Alloc) (ins : Option Nat) (tm : TypeMode)
    (hj : j ≠ h) (trx : Nat) (queue : List Lock) :
    requests (addToQueue alloc ins tm h trx queue) j = requests queue j := by
  rcases addToQueue_cases alloc ins tm h trx queue with heq | ⟨-, last, q, hq, heq⟩
  · rw [heq, requests_create_of_ne alloc ins _ hj]
  · rw [heq, requests_append, requests_setSimilar_of_ne hj hq, ← requests_append, take_append_drop]

lemma added_addToQueue (alloc : Alloc) (ins : Option Nat) (tm : TypeMode) (h trx : Nat)
    (queue : List Lock) :
    Added ⟨trx, tm.onRecord h⟩ (requests queue h)
      (requests (addToQueue alloc ins tm h trx queue) h) := by
  rcases addToQueue_cases alloc ins tm h trx queue with heq | ⟨-, last, q, hq, heq⟩
  · rw [heq]
    have := added_create alloc ins (tm.onRecord h) h trx queue
    rwa [TypeMode.onRecord_onRecord] at this
  · rw [heq, requests_append]
    have hsplit : requests queue h
        = requests (queue.take last) h ++ requests (queue.drop last) h := by
      rw [← requests_append, take_append_drop]
    rw [hsplit]
    exact (added_setSimilar hq).append_right _

/-! ### Requests that go to the end -/

/-- A waiting request that is not on a gap makes the loop go to `create`, whoever asks. -/
lemma mustCreate_of_waiting (hw : w ∈ requests queue h) (hwait : w.typeMode.wait = true)
    (hgap : w.typeMode.gap = false) (bypassMode : Bool) (trx : Nat) (hasS : Bool) :
    mustCreate bypassMode h trx queue hasS = true := by
  induction queue generalizing hasS with
  | nil => cases hw
  | cons l queue ih =>
    rw [mustCreate]
    by_cases hl : l.nthBit h = true
    · rw [requests_cons_of_bit hl, mem_cons] at hw
      rw [hl, Bool.not_true, if_neg Bool.false_ne_true]
      rcases hw with rfl | hw
      · have hlw : l.typeMode.wait = true := hwait
        have hlg : l.typeMode.gap = false := hgap
        rw [if_neg (by simp [Lock.canBeBypassing, hlw]), if_pos (by simp [hlw, hlg])]
      · split_ifs
        · exact ih hw true
        · rfl
        · exact ih hw hasS
    · rw [requests_cons_of_not_bit (Bool.eq_false_iff.mpr hl)] at hw
      rw [if_pos (by simpa using hl)]
      exact ih hw hasS

/-- `r` is added, and at the end if it waits or if a request that is not on a gap does. -/
def Enqueued (r : Request) (q q' : List Request) : Prop :=
  Added r q q' ∧
    ((r.typeMode.wait = true ∨ ∃ w ∈ q, w.typeMode.wait = true ∧ w.typeMode.gap = false) →
      q' = q ++ [r])

lemma enqueued_addToQueue (alloc : Alloc) (tm : TypeMode) (h trx : Nat) (queue : List Lock) :
    Enqueued ⟨trx, tm.onRecord h⟩ (requests queue h)
      (requests (addToQueue alloc none tm h trx queue) h) := by
  refine ⟨added_addToQueue alloc none tm h trx queue, ?_⟩
  intro hlast
  have hcreate : addToQueue alloc none tm h trx queue
      = create alloc none (tm.onRecord h) h trx queue := by
    unfold addToQueue
    dsimp only
    rcases hlast with hw | ⟨w, hw, hwait, hgap⟩
    · rw [if_pos hw]
    · rw [mustCreate_of_waiting hw hwait hgap, if_pos rfl, ite_self]
  rw [hcreate, requests_create_none, TypeMode.onRecord_onRecord]

lemma singleBit_newLock (alloc : Alloc) (tm : TypeMode) (h trx : Nat) (queue : List Lock) :
    SingleBit (newLock alloc tm h trx queue) := by
  intro _ i j hi hj
  rw [nthBit_newLock] at hi hj
  exact (of_decide_eq_true hi).trans (of_decide_eq_true hj).symm

structure WaitProp (P : Lock → Prop) : Prop where
  granted : ∀ l : Lock, l.typeMode.wait = false → P l
  newLock : ∀ (alloc : Alloc) (tm : TypeMode) (h trx : Nat) (queue : List Lock),
    P (newLock alloc tm h trx queue)

lemma waitProp_singleBit : WaitProp SingleBit where
  granted l hl hw := by
    rw [hl] at hw
    cases hw
  newLock := singleBit_newLock

def HasBit (l : Lock) : Prop := l.typeMode.wait = true → ∃ h, l.nthBit h = true

lemma waitProp_hasBit : WaitProp HasBit where
  granted l hl hw := by
    rw [hl] at hw
    cases hw
  newLock alloc tm h trx queue _ := ⟨h, by rw [nthBit_newLock]; simp⟩

/-- A bit is set in a granted object only: waiting objects are as they were, or new. -/
lemma WaitProp.addToQueue {P : Lock → Prop} (hP : WaitProp P) (alloc : Alloc) (ins : Option Nat)
    (tm : TypeMode) (h trx : Nat) (hq : ∀ l ∈ queue, P l) :
    ∀ l ∈ addToQueue alloc ins tm h trx queue, P l := by
  intro l hl
  rcases addToQueue_cases alloc ins tm h trx queue with heq | ⟨hw, last, q, hset, heq⟩
  · rw [heq] at hl
    have hmem : l ∈ queue ∨ l = RecLock.newLock alloc (tm.onRecord h) h trx queue := by
      cases ins with
      | none => simpa [create] using hl
      | some i =>
        rw [create, mem_append, mem_cons] at hl
        rcases hl with hl | hl | hl
        · exact .inl (mem_of_mem_take hl)
        · exact .inr hl
        · exact .inl (mem_of_mem_drop hl)
    rcases hmem with hmem | rfl
    · exact hq l hmem
    · exact hP.newLock alloc _ h trx queue
  · rw [heq, mem_append] at hl
    rcases hl with hl | hl
    · obtain ⟨a, l', b, htake, rfl, -, htm, -⟩ := setSimilar_eq_some hset
      have hmem : ∀ x ∈ a ++ l' :: b, P x := fun x hx => hq x (mem_of_mem_take (htake ▸ hx))
      rw [mem_append, mem_cons] at hl
      rcases hl with hl | rfl | hl
      · exact hmem l (by simp [hl])
      · refine hP.granted _ ?_
        rw [show (l'.setNthBit h).typeMode = l'.typeMode from rfl, htm, TypeMode.wait_onRecord, hw]
      · exact hmem l (by simp [hl])
    · exact hq l (mem_of_mem_drop hl)

lemma singleBit_addToQueue (alloc : Alloc) (ins : Option Nat) (tm : TypeMode) (h trx : Nat)
    (hq : ∀ l ∈ queue, SingleBit l) :
    ∀ l ∈ addToQueue alloc ins tm h trx queue, SingleBit l :=
  waitProp_singleBit.addToQueue alloc ins tm h trx hq

end MariaDB.RecLock
