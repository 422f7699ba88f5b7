import MariaDB.RecLock.Granting

/-!
# Record lock queues over whole runs

In every state that the steps of the lock system lead to, the requests on a record other than the
supremum are in order: no two transactions have conflicting locks on it, and a request waits only
behind one that it has to wait for and may not pass, whose transaction is its `wait_trx`.
-/

namespace MariaDB.RecLock

open Function TypeMode List Lock

section

variable {ordering : Nat → Nat → Bool} {page : Nat} {trxLock trxLock' : Nat → TrxLock}
variable {queue queue' : List Lock} {h : Nat} {r : Request}

/-- What `QueueOk` says of one record. -/
structure RecordOk (ordering : Nat → Nat → Bool) (page : Nat) (trxLock : Nat → TrxLock) (h : Nat)
    (q : List Request) : Prop where
  waits : ∀ w ∈ q, w.typeMode.wait = true → (trxLock w.trx).waitLock = some (page, h)
  once : Once q
  ok : h ≠ heapNoSupremum → InOrder q ∧ AllBlocked ordering h (waitTrxOf trxLock) q

variable (hq : QueueOk ordering page trxLock queue) {tm : TypeMode}

include hq in
lemma QueueOk.record (h : Nat) : RecordOk ordering page trxLock h (requests queue h) :=
  ⟨hq.waits h, hq.once h, fun hh => ⟨hq.inOrder h hh, hq.blocked h hh⟩⟩

lemma QueueOk.of_record (hsingle : ∀ l ∈ queue, SingleBit l) (hbit : ∀ l ∈ queue, HasBit l)
    (hrec : ∀ h, RecordOk ordering page trxLock h (requests queue h)) :
    QueueOk ordering page trxLock queue :=
  ⟨⟨hsingle, hbit, fun h => (hrec h).waits, fun h => (hrec h).once, fun h hh => ((hrec h).ok hh).1⟩,
    fun h hh => ((hrec h).ok hh).2⟩

lemma RecordOk.nil : RecordOk ordering page trxLock h [] :=
  ⟨forall_mem_nil _, .nil, fun _ =>
    ⟨⟨.nil, forall_mem_nil _, .nil, forall_mem_nil _⟩, .nil⟩⟩

lemma RecordOk.congr (hq : RecordOk ordering page trxLock h q)
    (htl : ∀ w ∈ q, w.typeMode.wait = true → trxLock' w.trx = trxLock w.trx) :
    RecordOk ordering page trxLock' h q :=
  ⟨fun w hw hww => by rw [htl w hw hww, hq.waits w hw hww], hq.once, fun hh => ⟨(hq.ok hh).1,
    (hq.ok hh).2.congr fun w hw hww => by rw [waitTrxOf, htl w hw hww, waitTrxOf]⟩⟩

include hq in
lemma QueueOk.congr
    (htl : ∀ h, ∀ w ∈ requests queue h, w.typeMode.wait = true → trxLock' w.trx = trxLock w.trx) :
    QueueOk ordering page trxLock' queue :=
  .of_record hq.single hq.hasBit fun h => (hq.record h).congr (htl h)

/-! ### A granted request -/

/-- `r` is among the requests, or was put in where it waits for nothing ahead of it. -/
def PutIn (ordering : Nat → Nat → Bool) (h : Nat) (r : Request) (q q' : List Request) : Prop :=
  (r ∈ q ∧ q' = q) ∨ ∃ a b, q = a ++ b ∧ q' = a ++ r :: b ∧ Free ordering h r a ∧
    FreeOrPassed ordering h r b

lemma Added.putIn (ha : Added r q q') (hfree : Free ordering h r q) : PutIn ordering h r q q' := by
  rcases ha with hsame | ⟨a, b, rfl, hq'⟩
  · exact .inl hsame
  · refine .inr ⟨a, b, rfl, hq', fun x hx => hfree x (by simp [hx]), ?_⟩
    exact Free.freeOrPassed fun x hx => hfree x (by simp [hx])

include hq in
/-- The queues of the page stay as they should be when a granted request is put in, if it is one
on the gap or its transaction does not wait. -/
lemma QueueOk.putIn
    (hprop : ∀ {P : Lock → Prop}, WaitProp P → (∀ l ∈ queue, P l) → ∀ l ∈ queue', P l)
    (hother : ∀ j, j ≠ h → requests queue' j = requests queue j)
    (hput : PutIn ordering h r (requests queue h) (requests queue' h))
    (hwait : r.typeMode.wait = false) (hii : r.typeMode.insertIntention = false)
    (htrx : h ≠ heapNoSupremum → r.typeMode.gap = true ∨
      ∀ w ∈ requests queue h, w.typeMode.wait = true → w.trx ≠ r.trx) :
    QueueOk ordering page trxLock queue' := by
  refine .of_record (hprop waitProp_singleBit hq.single) (hprop waitProp_hasBit hq.hasBit)
    fun j => ?_
  by_cases hjh : j = h
  swap
  · rw [hother j hjh]
    exact hq.record j
  subst hjh
  have hold := hq.record j
  rcases hput with ⟨-, hsame⟩ | ⟨a, b, hab, hab', hfree, hpass⟩
  · rwa [hsame]
  rw [hab] at hold htrx
  rw [hab']
  refine ⟨fun w hw hww => hold.waits w (mem_of_waiting hwait hw hww) hww, hold.once.insert hwait,
    fun hj => ⟨?_, ?_⟩⟩
  · have hnoii : ∀ x ∈ a ++ b, x.typeMode.gap = false → x.typeMode.insertIntention = false := by
      grind [(hold.ok hj).1.gap]
    refine (hold.ok hj).1.insert hwait (by grind) (fun x hx hc => ?_) (fun y hy hc => ?_) ?_
    · have hw : hasToWait ordering j r x = true :=
        hc.symm.hasToWait hj (hnoii x (mem_append_left _ hx) hc.2.1)
      grind [hfree x hx]
    · exact (hpass y hy (hc.hasToWait hj (hnoii y (mem_append_right _ hy) hc.2.2.1))).1
    · grind [isRecExclusiveNotGap]
  · exact (hold.ok hj).2.insert hwait (.inl (by grind [Request.canBeBypassing]))

include hq in
/-- `lock_rec_add_to_queue` of a request that waits for nothing in the queue. -/
lemma QueueOk.addToQueue_free (alloc : Alloc) (tm : TypeMode) (trx : Nat)
    (hfree : Free ordering h ⟨trx, tm.onRecord h⟩ (requests queue h)) (hwait : tm.wait = false)
    (hii : tm.insertIntention = false)
    (htrx : h ≠ heapNoSupremum → tm.gap = true ∨
      ∀ w ∈ requests queue h, w.typeMode.wait = true → w.trx ≠ trx) :
    QueueOk ordering page trxLock (addToQueue alloc none tm h trx queue) :=
  hq.putIn (fun hP hl => hP.addToQueue alloc none tm h trx hl)
    (fun _ hj => requests_addToQueue_of_ne alloc none tm hj trx queue)
    ((added_addToQueue alloc none tm h trx queue).putIn hfree)
    (by rwa [wait_onRecord]) (by rwa [insertIntention_onRecord])
    fun hh => (onRecord_of_ne tm hh).symm ▸ htrx hh

/-- On the supremum nothing but an insert intention waits. -/
lemma hasToWait_supremum (hii : r.typeMode.insertIntention = false) (x : Request) :
    hasToWait ordering heapNoSupremum r x = false := by
  unfold hasToWait
  simp [hii]

lemma hasToWait_onRecord (hii : tm.insertIntention = false) (trx : Nat) (x : Request) :
    hasToWait ordering h ⟨trx, tm.onRecord h⟩ x = hasToWait ordering h ⟨trx, tm⟩ x := by
  by_cases hh : h = heapNoSupremum
  · subst hh
    unfold hasToWait
    simp [hii]
  · rw [onRecord_of_ne tm hh]

include hq in
lemma QueueOk.addToQueue_gap (alloc : Alloc) (tm : TypeMode) (hgap : tm.gap = true)
    (hwait : tm.wait = false) (hii : tm.insertIntention = false) (h trx : Nat) :
    QueueOk ordering page trxLock (addToQueue alloc none tm h trx queue) := by
  refine hq.addToQueue_free alloc tm trx (fun x _ => ?_) hwait hii fun _ => .inl hgap
  rw [hasToWait_onRecord hii]
  exact hasToWait_gap hgap hii

/-! ### A waiting request -/

include hq in
lemma QueueOk.enqueue (alloc : Alloc) {trx : Nat} (htrx : trxLock trx = .none)
    (hii : tm.insertIntention = true → tm.gap = true)
    (hX : tm.isRecExclusiveNotGap = true → ∀ g ∈ requests queue h,
      g.typeMode.wait = false → g.typeMode.isRecExclusiveNotGap = true → g.trx ≠ trx)
    (hsplit : requests queue h = a ++ c :: b) (hc : hasToWait ordering h ⟨trx, tm⟩ c = true)
    (hb : ¬Bypassed h ⟨trx, tm⟩ a c) :
    QueueOk ordering page (update trxLock trx ⟨some c.trx, some (page, h)⟩)
      (create alloc none { tm with wait := true } h trx queue) := by
  have hne : ∀ {j : Nat} {w : Request}, w ∈ requests queue j → w.typeMode.wait = true →
      w.trx ≠ trx := by
    intro j w hw hww heq
    grind [hq.waits j w hw hww, TrxLock.none]
  have hprop : ∀ {P : Lock → Prop}, WaitProp P → (∀ l ∈ queue, P l) →
      ∀ l ∈ create alloc none { tm with wait := true } h trx queue, P l := by
    intro P hP hold l hl
    grind [create, hP.newLock]
  have hkeep : ∀ j, RecordOk ordering page
      (update trxLock trx ⟨some c.trx, some (page, h)⟩) j (requests queue j) := fun j =>
    (hq.record j).congr fun w hw hww => update_of_ne (hne hw hww) _ _
  refine .of_record (hprop waitProp_singleBit hq.single) (hprop waitProp_hasBit hq.hasBit)
    fun j => ?_
  by_cases hjh : j = h
  swap
  · rw [requests_create_of_ne alloc none _ hjh]
    exact hkeep j
  subst hjh
  have hold := hkeep j
  rw [requests_create_none]
  refine ⟨by grind [hold.waits], by grind [hold.once], fun hj => ⟨?_, ?_⟩⟩
  · rw [onRecord_of_ne _ hj]
    exact (hold.ok hj).1.concat rfl hii hX fun x hx hxw => hne hx hxw
  · rw [onRecord_of_ne _ hj]
    refine (hold.ok hj).2.concat fun _ => ⟨a, c, b, hsplit, ?_, hb, ?_⟩
    · rw [← hc]
      exact hasToWait_congr rfl rfl rfl rfl
    · rw [waitTrxOf, update_self]

end

/-! ### The steps -/

namespace LockSys

variable {ordering : Nat → Nat → Bool} {s : LockSys}

def Ok (ordering : Nat → Nat → Bool) (s : LockSys) : Prop :=
  ∀ page, QueueOk ordering page s.trxLock (s.queue page)

variable {page trx h : Nat} {queue : List Lock} {trxLock : Nat → TrxLock}

lemma Ok.setPage (ok : s.Ok ordering) (hq : QueueOk ordering page trxLock queue)
    (htl : ∀ p, p ≠ page → ∀ h, ∀ w ∈ requests (s.queue p) h, w.typeMode.wait = true →
      trxLock w.trx = s.trxLock w.trx) :
    Ok ordering ⟨update s.queue page queue, trxLock⟩ := by
  intro p
  by_cases hp : p = page
  · subst hp
    simpa using hq
  · simp only [update_of_ne hp]
    exact (ok p).congr (htl p hp)

lemma Ok.setQueue (ok : s.Ok ordering)
    (hq : QueueOk ordering page s.trxLock queue) : (s.setQueue page queue).Ok ordering :=
  ok.setPage hq fun _ _ _ _ _ _ => rfl

lemma Ok.trx_ne_of_none (ok : s.Ok ordering) (ht : s.trxLock trx = .none)
    (hw : w ∈ requests (s.queue p) h) (hww : w.typeMode.wait = true) : w.trx ≠ trx := by
  grind [(ok p).waits h w hw hww, TrxLock.none]

lemma not_exclusive_of_hasExpl (hnone : hasExpl (checkedMode tm h) h trx queue = none)
    (hh : h ≠ heapNoSupremum) (hX : tm.isRecExclusiveNotGap = true)
    (hii : tm.insertIntention = false)
    (hgap : ∀ r ∈ requests queue h, r.typeMode.insertIntention = true → r.typeMode.gap = true) :
    ∀ g ∈ requests queue h, g.typeMode.wait = false → g.typeMode.isRecExclusiveNotGap = true →
      g.trx ≠ trx := by
  intro g hg hgw hgX heq
  obtain ⟨l, hl, hbit, rfl⟩ := mem_requests.mp hg
  have hno := find?_eq_none.mp hnone l hl
  simp only [isRecExclusiveNotGap, Bool.and_eq_true, decide_eq_true_eq, Bool.not_eq_true'] at hgX hX
  have hlt : l.trx = trx := heq
  have hlw : l.typeMode.wait = false := hgw
  have hlm : l.typeMode.mode = .X := hgX.1
  have hlg : l.typeMode.gap = false := hgX.2
  have hlii : l.typeMode.insertIntention = false := by grind [hgap l.request hg, Lock.request]
  have hchecked : (checkedMode tm h).recNotGap = true := by
    unfold checkedMode isNextKeyLock
    cases hng : tm.recNotGap with
    | true => split_ifs <;> simp [hng]
    | false => simp [hh, hX.2, hii]
  refine hno ?_
  cases hng : l.typeMode.recNotGap <;>
    simp [hbit, hlt, hlw, hlm, hlg, hlii, hchecked, Mode.strongerOrEq]

section

variable (ok : s.Ok ordering) (alloc : Alloc) {x : LockArgs}
include ok alloc

lemma Ok.enqueueWaiting {tm : TypeMode} (ht : s.trxLock trx = .none)
    (hii : tm.insertIntention = true → tm.gap = true)
    (hX : tm.isRecExclusiveNotGap = true → ∀ g ∈ requests (s.queue page) h,
      g.typeMode.wait = false → g.typeMode.isRecExclusiveNotGap = true → g.trx ≠ trx)
    (hsplit : requests (s.queue page) h = a ++ c :: b)
    (hc : hasToWait ordering h ⟨trx, tm⟩ c = true) (hb : ¬Bypassed h ⟨trx, tm⟩ a c) :
    (s.enqueueWaiting alloc c tm page h trx).Ok ordering := by
  have hwt : (s.trxLock trx).waitTrx.or (some c.trx) = some c.trx := by rw [ht]; rfl
  unfold LockSys.enqueueWaiting
  rw [hwt]
  refine ok.setPage ((ok page).enqueue alloc ht hii hX hsplit hc hb) fun p _ h w hw hww => ?_
  rw [update_of_ne (ok.trx_ne_of_none ht hw hww)]

lemma Ok.lockSlow (ht : s.trxLock x.trx = .none) (hw : x.typeMode.wait = false)
    (hii : x.typeMode.insertIntention = false) : (s.lockSlow alloc ordering x).2.Ok ordering := by
  have hnone : ∀ w ∈ requests (s.queue x.page) x.heapNo, w.typeMode.wait = true →
      w.trx ≠ x.trx := fun w hw hww => ok.trx_ne_of_none ht hw hww
  unfold LockSys.lockSlow
  dsimp only
  cases hexpl : hasExpl (checkedMode x.typeMode x.heapNo) x.heapNo x.trx (s.queue x.page) with
  | none =>
    dsimp only
    generalize hinfo : findConflict _ _ _ _ = info
    have hres := findConflict_result ordering x.heapNo ⟨x.trx, x.typeMode⟩ (s.queue x.page)
    rw [hinfo] at hres
    cases hres with
    | conflict a c b hsplit hc hb =>
      dsimp only
      split_ifs
      · exact ok
      · refine ok.enqueueWaiting alloc ht (fun hi => ?_) (fun hX => ?_) hsplit hc hb
        · rw [hii] at hi
          cases hi
        · by_cases hh : x.heapNo = heapNoSupremum
          · -- such a request does not wait on the supremum
            rw [hh, hasToWait_supremum hii] at hc
            cases hc
          · exact not_exclusive_of_hasExpl hexpl hh hX hii ((ok x.page).inOrder _ hh).gap
    | free hfree =>
      dsimp only
      split_ifs
      · refine ok.setQueue ((ok x.page).addToQueue_free alloc _ _ (fun y hy => ?_) hw hii
          fun _ => .inr hnone)
        rw [hasToWait_onRecord hii, hfree y hy]
      · exact ok
    | pass i hfree hpass hex =>
      rw [if_pos (by simp)]
      obtain ⟨y, hy, hyw, hyg⟩ := hex
      have hcreate : addToQueue alloc (some i) x.typeMode x.heapNo x.trx (s.queue x.page)
          = create alloc (some i) (x.typeMode.onRecord x.heapNo) x.heapNo x.trx
            (s.queue x.page) := by
        unfold addToQueue
        dsimp only
        rw [mustCreate_of_waiting hy hyw hyg, if_pos rfl, ite_self]
      refine ok.setQueue ((ok x.page).putIn
        (fun hP hl => hP.addToQueue alloc (some i) x.typeMode x.heapNo x.trx hl)
        (fun j hj => requests_addToQueue_of_ne alloc (some i) x.typeMode hj x.trx _)
        (r := ⟨x.trx, x.typeMode.onRecord x.heapNo⟩) (.inr ?_)
        (by rwa [wait_onRecord]) (by rwa [insertIntention_onRecord])
        fun _ => .inr hnone)
      have hsplit : requests (s.queue x.page) x.heapNo
          = requests ((s.queue x.page).take (i + 1)) x.heapNo
            ++ requests ((s.queue x.page).drop (i + 1)) x.heapNo := by
        rw [← requests_append, List.take_append_drop]
      refine ⟨_, _, hsplit, ?_, fun y hy => ?_, fun y hy hyw => ?_⟩
      · rw [hcreate, requests_create_some, onRecord_onRecord]
      · rw [hasToWait_onRecord hii, hfree y hy]
      · rw [hasToWait_onRecord hii] at hyw
        exact hpass y (hsplit ▸ mem_append_right _ hy) hyw
  | some held =>
    dsimp only
    split_ifs
    · unfold reuseForNextKeyLock
      dsimp only
      split_ifs
      · exact ok
      · split
        · exact ok.setQueue ((ok x.page).addToQueue_gap alloc
            { x.typeMode with gap := true } rfl hw hii _ _)
        · exact ok
    · exact ok

lemma Ok.lockRecLock (ht : s.trxLock x.trx = .none) (hw : x.typeMode.wait = false)
    (hii : x.typeMode.insertIntention = false) :
    (s.lockRecLock alloc ordering x).2.Ok ordering := by
  unfold LockSys.lockRecLock
  by_cases htable : x.tableHas = true
  · rw [if_pos htable]
    exact ok
  rw [if_neg htable]
  split
  · -- the first lock of the page
    rename_i hnil
    split_ifs
    · exact ok
    · have hq := ok x.page
      rw [hnil] at hq
      refine ok.setQueue (hq.putIn (r := ⟨x.trx, x.typeMode.onRecord x.heapNo⟩)
        (fun {P} hP _ l hl => ?_) (fun j hj => requests_create_of_ne alloc none _ hj _ _)
        (.inr ⟨[], [], rfl, requests_create_none alloc _ _ _ _, ?_, ?_⟩)
        (by rwa [wait_onRecord]) (by rwa [insertIntention_onRecord])
        fun _ => .inr ?_)
      · rw [mem_singleton.mp hl]
        exact hP.newLock ..
      · exact forall_mem_nil _
      · exact forall_mem_nil _
      · exact forall_mem_nil _
  · -- the only object of the page is of the transaction and of the mode
    rename_i l hone
    split_ifs with hsame hset
    · exact ok
    · obtain ⟨htrx, htm, hlt⟩ := hsame
      rw [Bool.or_eq_true, not_or, Bool.not_eq_true] at hset
      have hq := ok x.page
      rw [hone] at hq
      have hold : requests [l] x.heapNo = [] := by
        rw [requests_cons_of_not_bit (by simpa using hset.2), requests_nil]
      have hnew : requests [l.setNthBit x.heapNo] x.heapNo = [⟨x.trx, x.typeMode⟩] := by
        have hbit : (l.setNthBit x.heapNo).nthBit x.heapNo = true := by
          rw [nthBit_setNthBit hlt]
          simp
        rw [requests_cons_of_bit hbit, requests_nil, request_setNthBit, ← htrx, ← htm]
        rfl
      refine ok.setQueue (hq.putIn (r := ⟨x.trx, x.typeMode⟩) (fun {P} hP _ y hy => ?_)
        (fun j hj => ?_) (.inr ⟨[], [], hold, hnew, ?_, ?_⟩) hw hii fun _ => .inr ?_)
      · rw [mem_singleton.mp hy]
        exact hP.granted _ (by rw [show (l.setNthBit x.heapNo).typeMode = l.typeMode from rfl,
          htm, hw])
      · rw [requests_cons, requests_cons, nthBit_setNthBit_of_ne l hj, request_setNthBit]
      · exact forall_mem_nil _
      · exact forall_mem_nil _
      · rw [hold]
        exact forall_mem_nil _
    · exact ok.lockSlow alloc ht hw hii
  · exact ok.lockSlow alloc ht hw hii

lemma Ok.insertCheckAndLock (ht : s.trxLock trx = .none) (noWait : Bool) :
    (s.insertCheckAndLock alloc ordering page h trx noWait).Ok ordering := by
  unfold LockSys.insertCheckAndLock
  dsimp only
  generalize hinfo : findConflict _ _ _ _ = info
  have hres := findConflict_result ordering h ⟨trx, ⟨.X, false, true, false, true⟩⟩ (s.queue page)
  rw [hinfo] at hres
  cases hres with
  | conflict a c b hsplit hc hb =>
    dsimp only
    split_ifs
    · exact ok
    · exact ok.enqueueWaiting alloc ht (fun _ => rfl) (fun hX => by cases hX) hsplit hc hb
  | free | pass => exact ok

lemma Ok.inherit (trxs : Nat → Trx) (fromSplit : Bool) (heir heirNo donor donorNo : Nat) :
    (s.inherit alloc trxs fromSplit heir heirNo donor donorNo).Ok ordering := by
  have hloop : ∀ (donors queue : List Lock), QueueOk ordering heir s.trxLock queue →
      QueueOk ordering heir s.trxLock
        (inheritLoop alloc (inherits trxs fromSplit) heirNo donors queue) := by
    intro donors
    induction donors with
    | nil => exact fun queue hq => hq
    | cons l donors ih =>
      intro queue hq
      rw [inheritLoop]
      apply ih
      split_ifs
      · exact hq.addToQueue_gap alloc _ rfl rfl rfl _ _
      · exact hq
  exact ok.setQueue (hloop _ _ (ok heir))

end

/-! ### Locks that go away -/

lemma LoopInv.queueOk (inv : LoopInv ordering page sel queue [] trxLock) :
    QueueOk ordering page trxLock queue := by
  grind [LoopInv, QueueOk]

/-- The waiting requests of the records in `sel` are looked at. -/
lemma Ok.grantWaiting (ok : s.Ok ordering) (sel : Nat → Prop) (hbase : QueueBase page trxLock queue)
    (hother : ∀ h, h ≠ heapNoSupremum → ¬sel h →
      AllBlocked ordering h (waitTrxOf trxLock) (requests queue h))
    (htl : SameElsewhere page s.trxLock trxLock)
    (honly : ∀ l ∈ queue, l.typeMode.wait = true → ∀ h, l.nthBit h = true →
      (only l = true ↔ sel h)) :
    (LockSys.grantWaiting ordering only page ⟨update s.queue page queue, trxLock⟩).Ok ordering := by
  have inv : LoopInv ordering page sel [] queue trxLock :=
    ⟨hbase, fun h _ _ => AllBlocked.nil, hother⟩
  obtain ⟨inv', hsame⟩ := grantLoop_inv honly inv htl
  unfold LockSys.grantWaiting
  simp only [update_self, update_idem]
  refine ok.setPage (LoopInv.queueOk inv') fun p hp h w hw hww => hsame _ fun h' hwait => ?_
  rw [(ok p).waits h w hw hww] at hwait
  exact hp (Prod.mk.inj (Option.some.inj hwait)).1

lemma requests_remove (a b : List Lock) (l : Lock) (h : Nat) :
    (requests (a ++ b) h).Sublist (requests (a ++ l :: b) h) := by
  rw [requests_append, requests_append, requests_cons]
  split_ifs
  · exact (sublist_cons_self _ _).append_left _
  · exact Sublist.refl _

lemma getElem?_split (hl : queue[i]? = some l) :
    queue = queue.take i ++ l :: queue.drop (i + 1) := by
  obtain ⟨hlt, rfl⟩ := List.getElem?_eq_some_iff.mp hl
  rw [List.getElem_cons_drop, List.take_append_drop]

lemma Ok.dequeueFromPage (ok : s.Ok ordering) (page i : Nat) :
    (s.dequeueFromPage ordering page i).Ok ordering := by
  unfold LockSys.dequeueFromPage
  cases hl : (s.queue page)[i]? with
  | none => exact ok
  | some l =>
    dsimp only
    have hsplit := getElem?_split hl
    have hbase := (ok page).toQueueBase
    rw [hsplit] at hbase
    rw [eraseIdx_eq_take_drop_succ]
    have hsub := requests_remove ((s.queue page).take i) ((s.queue page).drop (i + 1)) l
    have hmem : ∀ x ∈ (s.queue page).take i ++ (s.queue page).drop (i + 1),
        x ∈ (s.queue page).take i ++ l :: (s.queue page).drop (i + 1) := by
      intro x hx
      simp only [mem_append, mem_cons] at hx ⊢
      tauto
    have hmeml : ∀ h₀, l.nthBit h₀ = true → l.request ∈
        requests ((s.queue page).take i ++ l :: (s.queue page).drop (i + 1)) h₀ := by
      intro h₀ hbit
      rw [requests_at hbit]
      simp
    have hbase' := hbase.of_sublist (fun x hx => hbase.single x (hmem x hx))
      (fun x hx => hbase.hasBit x (hmem x hx)) hsub
    refine ok.grantWaiting (fun _ => True) ?_ (fun _ _ h => absurd trivial h) ?_
      fun _ _ _ _ _ => by simp
    · split_ifs with hw
      · -- the transaction waited for this object only
        obtain ⟨h₀, hbit⟩ := hbase.hasBit l (by simp) hw
        refine hbase'.congr fun h w hwm hww => ?_
        have hne : w.trx ≠ l.trx := by
          by_cases hh : h = h₀
          · subst hh
            rw [requests_append] at hwm
            exact hbase.trx_ne (requests_at hbit) hw hwm hww
          · exact hbase.trx_ne_of_ne hh (hmeml h₀ hbit) hw ((hsub h).subset hwm) hww
        rw [update_of_ne hne]
      · exact hbase'
    · split_ifs with hw
      · obtain ⟨h₀, hbit⟩ := hbase.hasBit l (by simp) hw
        exact (SameElsewhere.refl _ _).update (hbase.waits h₀ l.request (hmeml h₀ hbit) hw) _
      · exact SameElsewhere.refl _ _

lemma Ok.unlockBit (ok : s.Ok ordering) (page i h : Nat) :
    (s.unlockBit ordering page i h).Ok ordering := by
  unfold LockSys.unlockBit
  cases hl : (s.queue page)[i]? with
  | none => exact ok
  | some l =>
    dsimp only
    split_ifs with hbit
    · rw [Bool.and_eq_true, Bool.not_eq_true'] at hbit
      have hsplit := getElem?_split hl
      have hq := ok page
      rw [hsplit] at hq
      have hset : (s.queue page).set i (l.resetNthBit h)
          = (s.queue page).take i ++ l.resetNthBit h :: (s.queue page).drop (i + 1) :=
        List.set_eq_take_cons_drop _ (List.getElem?_eq_some_iff.mp hl).1
      generalize (s.queue page).take i = a, (s.queue page).drop (i + 1) = b at hq hset
      have hother : ∀ j, j ≠ h →
          requests (a ++ l.resetNthBit h :: b) j = requests (a ++ l :: b) j := by
        intro j hj
        have hb : (l.resetNthBit h).nthBit j = l.nthBit j := by
          rw [nthBit_resetNthBit]
          simp [hj]
        rw [requests_append, requests_append, requests_cons, requests_cons, hb, request_resetNthBit]
      have hprop : ∀ {P : Lock → Prop}, WaitProp P → (∀ x ∈ a ++ l :: b, P x) →
          ∀ x ∈ a ++ l.resetNthBit h :: b, P x := by
        intro P hP hold x hx
        simp only [mem_append, mem_cons] at hx hold
        rcases hx with hx | rfl | hx
        · exact hold x (.inl hx)
        · exact hP.granted _ hbit.2
        · exact hold x (.inr (.inr hx))
      have hsingle := hprop waitProp_singleBit hq.single
      have hbase : QueueBase page s.trxLock (a ++ l.resetNthBit h :: b) := by
        refine hq.toQueueBase.of_sublist hsingle (hprop waitProp_hasBit hq.hasBit) fun j => ?_
        by_cases hj : j = h
        · subst hj
          have hb : (l.resetNthBit j).nthBit j = false := by simp
          rw [requests_append, requests_cons_of_not_bit hb, ← requests_append]
          exact requests_remove _ _ _ _
        · rw [hother j hj]
      unfold LockSys.setQueue
      rw [hset]
      refine ok.grantWaiting (fun j => j = h) hbase (fun j hj hjh => ?_)
        (SameElsewhere.refl _ _) fun x hx hxw j hj => ?_
      · rw [hother j hjh]
        exact hq.blocked j hj
      · constructor
        · exact fun hxh => hsingle x hx hxw j h hj hxh
        · rintro rfl
          exact hj
    · exact ok

lemma Ok.unlock (ok : s.Ok ordering) (trx page h : Nat) (mode : Mode) :
    (s.unlock ordering trx page h mode).Ok ordering := by
  unfold LockSys.unlock
  split
  · exact ok
  · exact ok.unlockBit page _ h

end LockSys

end MariaDB.RecLock
