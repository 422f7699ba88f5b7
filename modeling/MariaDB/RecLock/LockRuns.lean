import MariaDB.RecLock.Queues

/-!
# Requests that follow a record

`lock_rec_move` and `lock_move_reorganize_page` carry the requests on a record to another heap
number. The waiting ones keep their order among themselves and with the granted ones that are not
on the gap, so that what blocked them still does.
-/

namespace MariaDB.RecLock

open List Function

namespace LockSys

/-! ### `wait_lock` -/

section

variable (page h : Nat)

@[simp] lemma waitTrx_relocate (trxLock : Nat → TrxLock) (r : Request) (t : Nat) :
    (relocate page h trxLock r t).waitTrx = (trxLock t).waitTrx := by
  unfold relocate
  split_ifs
  · by_cases ht : t = r.trx
    · subst ht
      rw [update_self]
    · rw [update_of_ne ht]
  · rfl

lemma waitTrx_foldl_relocate (rs : List Request) (trxLock : Nat → TrxLock) (t : Nat) :
    (rs.foldl (relocate page h) trxLock t).waitTrx = (trxLock t).waitTrx := by
  induction rs generalizing trxLock with
  | nil => rfl
  | cons r rs ih => rw [foldl_cons, ih, waitTrx_relocate]

lemma relocate_of_ne {r : Request} (hne : r.typeMode.wait = true → r.trx ≠ t)
    (trxLock : Nat → TrxLock) : relocate page h trxLock r t = trxLock t := by
  unfold relocate
  split_ifs with hw
  · rw [update_of_ne (hne hw).symm]
  · rfl

lemma foldl_relocate_of_ne {rs : List Request} (hne : ∀ r ∈ rs, r.typeMode.wait = true → r.trx ≠ t)
    (trxLock : Nat → TrxLock) : rs.foldl (relocate page h) trxLock t = trxLock t := by
  induction rs generalizing trxLock with
  | nil => rfl
  | cons r rs ih =>
    obtain ⟨hr, hrs⟩ := forall_mem_cons.mp hne
    rw [foldl_cons, ih hrs, relocate_of_ne page h hr]

lemma waitLock_foldl_relocate {rs : List Request} {w : Request} (hw : w ∈ rs)
    (hww : w.typeMode.wait = true) (trxLock : Nat → TrxLock) :
    (rs.foldl (relocate page h) trxLock w.trx).waitLock = some (page, h) := by
  have hkeep : ∀ (rs : List Request) (trxLock : Nat → TrxLock),
      (trxLock w.trx).waitLock = some (page, h) →
      (rs.foldl (relocate page h) trxLock w.trx).waitLock = some (page, h) := by
    intro rs
    induction rs with
    | nil => exact fun _ ht => ht
    | cons r rs ih =>
      intro trxLock ht
      rw [foldl_cons]
      apply ih
      by_cases hr : r.typeMode.wait = true → r.trx ≠ w.trx
      · rwa [relocate_of_ne page h hr]
      · rw [Classical.not_imp, not_not] at hr
        unfold relocate
        rw [if_pos hr.1, ← hr.2, update_self]
  induction rs generalizing trxLock with
  | nil => cases hw
  | cons r rs ih =>
    rw [foldl_cons]
    rcases mem_cons.mp hw with rfl | hw
    · apply hkeep
      unfold relocate
      rw [if_pos hww, update_self]
    · exact ih hw _

end

end LockSys

section

lemma EnqueuedAll.mem_iff (hadd : EnqueuedAll rs q q') (x : Request) : x ∈ q' ↔ x ∈ q ∨ x ∈ rs := by
  induction hadd with
  | nil => simp
  | cons hr _ ih =>
    rw [ih]
    rcases hr.1 with ⟨hmem, rfl⟩ | ⟨a, b, rfl, rfl⟩ <;> grind

/-- Waiting requests of different transactions stay such when they are moved. -/
lemma EnqueuedAll.once (hadd : EnqueuedAll rs q q') (honce : Once (q ++ rs)) : Once q' := by
  induction hadd with
  | nil => simpa using honce
  | @cons r rs q q₁ q₂ hr hrest ih =>
    apply ih
    cases hw : r.typeMode.wait with
    | true => rw [hr.2 (.inl hw), append_assoc]; exact honce
    | false =>
      have hold : Once (q ++ rs) := honce.sublist ((sublist_cons_self _ _).append_left _)
      rcases hr.1 with ⟨-, rfl⟩ | ⟨a, b, rfl, rfl⟩
      · exact hold
      · rw [append_assoc, cons_append]
        rw [append_assoc] at hold
        exact hold.insert hw

lemma AllBlocked.heapNo (hh : h ≠ heapNoSupremum) (hh' : h' ≠ heapNoSupremum)
    (hq : AllBlocked ordering h waitTrx q) : AllBlocked ordering h' waitTrx q := by
  have hmode : ∀ tm : TypeMode, tm.bypassMode h' = tm.bypassMode h := by
    intro tm
    simp [TypeMode.bypassMode, hh, hh']
  have hwait : ∀ r x : Request, hasToWait ordering h' r x = hasToWait ordering h r x := by
    intro r x
    simp [hasToWait, hh, hh']
  intro a w b hsplit hw
  obtain ⟨x, c, y, hsp, hc, hb, ht⟩ := hq a w b hsplit hw
  refine ⟨x, c, y, hsp, (hwait w c).trans hc, fun hby => hb ?_, ht⟩
  exact ⟨(hmode _).symm.trans hby.1, hby.2⟩

lemma map_onRecord_of_ne (hh : h ≠ heapNoSupremum) (rs : List Request) :
    rs.map (·.onRecord h) = rs := by
  have : (fun r : Request => r.onRecord h) = id := by
    funext r
    simp [Request.onRecord, TypeMode.onRecord_of_ne _ hh]
  rw [this, map_id]

lemma once_map_onRecord (hrs : Once rs) (h : Nat) : Once (rs.map (·.onRecord h)) := by
  refine pairwise_map.mpr (hrs.imp fun {x y} hxy => ?_)
  simpa [Request.onRecord] using hxy

lemma EnqueuedAll.queue (hadd : EnqueuedAll (rs.map (·.onRecord h')) [] q')
    (hh : h' = heapNoSupremum ↔ h = heapNoSupremum)
    (hrs : h ≠ heapNoSupremum → InOrder rs ∧ AllBlocked ordering h waitTrx rs)
    (hh' : h' ≠ heapNoSupremum) : InOrder q' ∧ AllBlocked ordering h' waitTrx q' := by
  have hne : h ≠ heapNoSupremum := fun he => hh' (hh.mpr he)
  rw [map_onRecord_of_ne hh'] at hadd
  have inv := hadd.inOrder (hrs hne).1 ((hrs hne).2.heapNo hne hh')
  exact ⟨inv.inOrder, inv.blocked⟩

end

namespace LockSys

variable {ordering : Nat → Nat → Bool} {s : LockSys}

/-! ### `lock_rec_move` -/

lemma Ok.move (ok : s.Ok ordering) (alloc : Alloc) {receiver receiverNo donator donatorNo : Nat}
    (hne : ¬(receiver = donator ∧ receiverNo = donatorNo))
    (hempty : requests (s.queue receiver) receiverNo = [])
    (hsup : receiverNo = heapNoSupremum ↔ donatorNo = heapNoSupremum) :
    (s.move alloc receiver receiverNo donator donatorNo).Ok ordering := by
  have hs : s.queue.SingleBits := fun p => (ok p).single
  obtain ⟨hsingle, hdon, hrec, hother⟩ := recMove_spec alloc hs hne
  have hbit : ∀ p, ∀ l ∈ recMove alloc receiver receiverNo donator donatorNo s.queue p, HasBit l :=
    waitProp_hasBit.recMoveLoop _ fun p => (ok p).hasBit
  rw [hempty] at hrec
  have hwt : waitTrxOf (s.move alloc receiver receiverNo donator donatorNo).trxLock
      = waitTrxOf s.trxLock := funext fun t => waitTrx_foldl_relocate _ _ _ _ _
  have hfrom := (ok donator).record donatorNo
  refine fun p => .of_record (hsingle p) (hbit p) fun h => ?_
  by_cases hd : p = donator ∧ h = donatorNo
  · obtain ⟨rfl, rfl⟩ := hd
    exact hdon.symm ▸ .nil
  by_cases hr : p = receiver ∧ h = receiverNo
  · obtain ⟨rfl, rfl⟩ := hr
    refine ⟨fun w hw hww => ?_, hrec.once (once_map_onRecord hfrom.once h), fun hh => ?_⟩
    · rcases (hrec.mem_iff w).mp hw with hnil | hmem
      · cases hnil
      · obtain ⟨r, hr, rfl⟩ := mem_map.mp hmem
        refine waitLock_foldl_relocate p h hr ?_ _
        simpa [Request.onRecord] using hww
    · rw [hwt]
      exact hrec.queue hsup hfrom.ok hh
  -- a transaction that waits on another record keeps its `wait_lock`
  refine (hother p h hd hr).symm ▸ ((ok p).record h).congr fun w hw hww => ?_
  refine foldl_relocate_of_ne _ _ (fun r hr hrw heq => hd ?_) _
  have h₁ := hfrom.waits r hr hrw
  rw [heq, (ok p).waits h w hw hww] at h₁
  exact Prod.mk.inj (Option.some.inj h₁)

/-! ### `lock_move_reorganize_page` -/

lemma frontLoop_eq (front waits rest : List Lock) :
    ∃ f, frontLoop front waits rest = f ++ (waits ++ rest.filter (·.typeMode.wait)) ∧
      ∀ x, x ∈ f ↔ x ∈ front ∨ (x ∈ rest ∧ x.typeMode.wait = false) := by
  induction rest generalizing front waits with
  | nil => exact ⟨front, by simp [frontLoop], fun x => by simp⟩
  | cons l rest ih =>
    rw [frontLoop]
    split_ifs with hw
    · obtain ⟨f, hf, hmem⟩ := ih front (waits ++ [l])
      exact ⟨f, by simp [hf, hw], by grind⟩
    · obtain ⟨f, hf, hmem⟩ := ih (front ++ [l]) waits
      exact ⟨f, by simp [hf, hw], by grind⟩
    · obtain ⟨f, hf, hmem⟩ := ih (l :: front) waits
      exact ⟨f, by simp [hf, hw], by grind⟩

lemma requests_filter_wait (queue : List Lock) (h : Nat) :
    requests (queue.filter (·.typeMode.wait)) h = (requests queue h).filter (·.typeMode.wait) := by
  induction queue with
  | nil => rfl
  | cons l queue ih =>
    have hreq : l.request.typeMode.wait = l.typeMode.wait := rfl
    by_cases hw : l.typeMode.wait = true <;> by_cases hb : l.nthBit h = true <;>
      simp [requests_cons, hw, hb, ih, hreq]

lemma requests_moveGrantedLocksToFront (queue : List Lock) (h : Nat) :
    ∃ granted, requests (moveGrantedLocksToFront queue) h
        = granted ++ (requests queue h).filter (·.typeMode.wait) ∧
      ∀ x, x ∈ granted ↔ x ∈ requests queue h ∧ x.typeMode.wait = false := by
  obtain ⟨f, hf, hmem⟩ := frontLoop_eq [] [] queue
  refine ⟨requests f h, ?_, fun x => ?_⟩
  · rw [moveGrantedLocksToFront, hf, requests_append, nil_append, requests_filter_wait]
  · rw [mem_requests, mem_requests]
    constructor
    · rintro ⟨l, hl, hbit, rfl⟩
      rcases (hmem l).mp hl with hnil | ⟨hl, hw⟩
      · cases hnil
      · exact ⟨⟨l, hl, hbit, rfl⟩, hw⟩
    · rintro ⟨⟨l, hl, hbit, rfl⟩, hw⟩
      exact ⟨l, (hmem l).mpr (.inr ⟨hl, hw⟩), hbit, rfl⟩

lemma requests_clearLock (queue : List Lock) (h : Nat) : requests (queue.map clearLock) h = [] := by
  have hbit : ∀ l : Lock, (clearLock l).nthBit h = false := by
    intro l
    unfold clearLock Lock.nthBit
    simp only [getD_eq_getElem?_getD, getElem?_replicate]
    split_ifs <;> rfl
  induction queue with
  | nil => rfl
  | cons l queue ih => rw [map_cons, requests_cons_of_not_bit (hbit l), ih]

section Reorganize

variable (alloc : Alloc)

lemma requests_reorganizeBits_of_not_mem (l : Lock) (hj : j ∉ moved.map Prod.snd)
    (queue : List Lock) : requests (reorganizeBits alloc l moved queue) j = requests queue j := by
  induction moved generalizing queue with
  | nil => rfl
  | cons x moved ih =>
    rw [map_cons, mem_cons, not_or] at hj
    rw [reorganizeBits, ih hj.2]
    split_ifs
    · exact requests_addToQueue_of_ne alloc none _ hj.1 _ _
    · rfl

lemma requests_reorganizeBits (l : Lock) {h h' : Nat}
    (hmem : (h, h') ∈ moved) (hnodup : (moved.map Prod.snd).Nodup) (queue : List Lock) :
    if l.nthBit h then
      Enqueued (l.request.onRecord h') (requests queue h')
        (requests (reorganizeBits alloc l moved queue) h')
    else requests (reorganizeBits alloc l moved queue) h' = requests queue h' := by
  induction moved generalizing queue with
  | nil => cases hmem
  | cons x moved ih =>
    rw [map_cons, nodup_cons] at hnodup
    rcases mem_cons.mp hmem with rfl | hmem
    · rw [reorganizeBits, requests_reorganizeBits_of_not_mem alloc l hnodup.1]
      split_ifs
      · exact enqueued_addToQueue alloc l.typeMode h' l.trx queue
      · rfl
    · have hne : h' ≠ x.2 := fun he => hnodup.1 (mem_map.mpr ⟨_, hmem, he⟩)
      have hx : requests (if l.nthBit x.1 then
          addToQueue alloc none l.typeMode x.2 l.trx queue else queue) h' = requests queue h' := by
        split_ifs
        · exact requests_addToQueue_of_ne alloc none _ hne _ _
        · rfl
      rw [reorganizeBits]
      have hrec := ih hmem hnodup.2 (if l.nthBit x.1 then
        addToQueue alloc none l.typeMode x.2 l.trx queue else queue)
      rwa [hx] at hrec

lemma requests_reorganizeLoop_of_not_mem (hj : j ∉ moved.map Prod.snd) (locks queue : List Lock) :
    requests (reorganizeLoop alloc moved locks queue) j = requests queue j := by
  induction locks generalizing queue with
  | nil => rfl
  | cons l locks ih => rw [reorganizeLoop, ih, requests_reorganizeBits_of_not_mem alloc l hj]

lemma enqueuedAll_reorganizeLoop {h h' : Nat}
    (hmem : (h, h') ∈ moved) (hnodup : (moved.map Prod.snd).Nodup) (locks queue : List Lock) :
    EnqueuedAll ((requests locks h).map (·.onRecord h')) (requests queue h')
      (requests (reorganizeLoop alloc moved locks queue) h') := by
  induction locks generalizing queue with
  | nil => exact .nil _
  | cons l locks ih =>
    have hbits := requests_reorganizeBits alloc l hmem hnodup queue
    have hrest := ih (reorganizeBits alloc l moved queue)
    rw [reorganizeLoop, requests_cons]
    split_ifs at hbits ⊢
    · exact .cons hbits hrest
    · rwa [hbits] at hrest

variable {alloc} in
lemma WaitProp.reorganizeBits {P : Lock → Prop} (hP : WaitProp P) (l : Lock)
    (moved : List (Nat × Nat)) {queue : List Lock} (hq : ∀ x ∈ queue, P x) :
    ∀ x ∈ reorganizeBits alloc l moved queue, P x := by
  induction moved generalizing queue with
  | nil => exact hq
  | cons x moved ih =>
    rw [LockSys.reorganizeBits]
    apply ih
    split_ifs
    · exact hP.addToQueue alloc none _ _ _ hq
    · exact hq

variable {alloc} in
lemma WaitProp.reorganizeLoop {P : Lock → Prop} (hP : WaitProp P) (moved : List (Nat × Nat))
    (locks : List Lock) {queue : List Lock} (hq : ∀ x ∈ queue, P x) :
    ∀ x ∈ reorganizeLoop alloc moved locks queue, P x := by
  induction locks generalizing queue with
  | nil => exact hq
  | cons l locks ih => exact ih (WaitProp.reorganizeBits hP l moved hq)

end Reorganize

section RelocateAll

variable (page : Nat) (queue : List Lock)

/-- The `wait_lock` fields after `lock_move_reorganize_page`. -/
def relocateAll (moved : List (Nat × Nat)) (trxLock : Nat → TrxLock) : Nat → TrxLock :=
  moved.foldl (fun trxLock x => (requests queue x.1).foldl (relocate page x.2) trxLock) trxLock

lemma waitTrx_relocateAll (moved : List (Nat × Nat)) (trxLock : Nat → TrxLock) (t : Nat) :
    (relocateAll page queue moved trxLock t).waitTrx = (trxLock t).waitTrx := by
  unfold relocateAll
  induction moved generalizing trxLock with
  | nil => rfl
  | cons x moved ih => rw [foldl_cons, ih, waitTrx_foldl_relocate]

lemma relocateAll_of_ne {moved : List (Nat × Nat)}
    (hne : ∀ x ∈ moved, ∀ r ∈ requests queue x.1, r.typeMode.wait = true → r.trx ≠ t)
    (trxLock : Nat → TrxLock) : relocateAll page queue moved trxLock t = trxLock t := by
  unfold relocateAll
  induction moved generalizing trxLock with
  | nil => rfl
  | cons x moved ih =>
    obtain ⟨hx, hrest⟩ := forall_mem_cons.mp hne
    rw [foldl_cons, ih hrest, foldl_relocate_of_ne page x.2 hx]

lemma waitLock_relocateAll {h h' : Nat} (hmem : (h, h') ∈ moved)
    (hnodup : (moved.map Prod.fst).Nodup) (hw : w ∈ requests queue h) (hww : w.typeMode.wait = true)
    (honly : ∀ j, j ≠ h → ∀ r ∈ requests queue j, r.typeMode.wait = true → r.trx ≠ w.trx)
    (trxLock : Nat → TrxLock) :
    (relocateAll page queue moved trxLock w.trx).waitLock = some (page, h') := by
  induction moved generalizing trxLock with
  | nil => cases hmem
  | cons x moved ih =>
    rw [map_cons, nodup_cons] at hnodup
    rcases mem_cons.mp hmem with rfl | hmem
    · have hrest := relocateAll_of_ne page queue
        (fun y hy => honly y.1 fun he => hnodup.1 (mem_map.mpr ⟨y, hy, he⟩))
        ((requests queue h).foldl (relocate page h') trxLock)
      unfold relocateAll at hrest ⊢
      rw [foldl_cons, hrest]
      exact waitLock_foldl_relocate page h' hw hww trxLock
    · exact ih hmem hnodup.2 _

end RelocateAll

lemma Ok.reorganizePage (ok : s.Ok ordering) (alloc : Alloc) (page : Nat) {moved : List (Nat × Nat)}
    (hfst : (moved.map Prod.fst).Nodup) (hsnd : (moved.map Prod.snd).Nodup)
    (hsup : ∀ x ∈ moved, x.2 = heapNoSupremum ↔ x.1 = heapNoSupremum) :
    (s.reorganizePage alloc page moved).Ok ordering := by
  have hq := ok page
  have hwt : waitTrxOf (relocateAll page (s.queue page) moved s.trxLock) = waitTrxOf s.trxLock :=
    funext fun t => waitTrx_relocateAll page _ moved s.trxLock t
  have hcleared : ∀ {P : Lock → Prop}, WaitProp P → ∀ x ∈ (s.queue page).map clearLock, P x := by
    intro P hP x hx
    obtain ⟨l, -, rfl⟩ := mem_map.mp hx
    exact hP.granted _ rfl
  refine ok.setPage (.of_record
    (WaitProp.reorganizeLoop waitProp_singleBit moved _ (hcleared waitProp_singleBit))
    (WaitProp.reorganizeLoop waitProp_hasBit moved _ (hcleared waitProp_hasBit)) fun h' => ?_)
    fun p hp h w hw hww => relocateAll_of_ne page _ (fun x _ r hr hrw heq => ?_) _
  · by_cases hsecond : h' ∈ moved.map Prod.snd
    · -- the queue of a record, brought to its new heap number
      obtain ⟨⟨h, h'⟩, hmem, rfl⟩ := mem_map.mp hsecond
      have hadd := enqueuedAll_reorganizeLoop alloc hmem hsnd
        (moveGrantedLocksToFront (s.queue page)) ((s.queue page).map clearLock)
      rw [requests_clearLock] at hadd
      obtain ⟨granted, heq, hgranted⟩ := requests_moveGrantedLocksToFront (s.queue page) h
      rw [heq] at hadd
      refine ⟨fun w hw hww => ?_, hadd.once (once_map_onRecord ?_ h'), fun hh' => ?_⟩
      · rcases (hadd.mem_iff w).mp hw with hnil | hw
        · cases hnil
        · obtain ⟨r, hr, rfl⟩ := mem_map.mp hw
          have hrw : r.typeMode.wait = true := by simpa [Request.onRecord] using hww
          have hr' : r ∈ requests (s.queue page) h := by grind
          exact waitLock_relocateAll page (s.queue page) hmem hfst hr' hrw
            (fun j hj x hx hxw => hq.trx_ne_of_ne hj hr' hrw hx hxw) s.trxLock
      · refine pairwise_append.mpr
          ⟨pairwise_of_forall_mem_list (by grind), (hq.once h).sublist filter_sublist, ?_⟩
        grind
      · show InOrder _ ∧ AllBlocked ordering h' (waitTrxOf (relocateAll page _ moved s.trxLock)) _
        rw [hwt]
        exact hadd.queue (hsup _ hmem)
          (fun hh => (hq.inOrder h hh).grantedFirst (hq.blocked h hh) hgranted) hh'
    · rw [requests_reorganizeLoop_of_not_mem alloc hsecond, requests_clearLock]
      exact .nil
  · have h₁ := hq.waits x.1 r hr hrw
    rw [heq, (ok p).waits h w hw hww] at h₁
    exact hp (Prod.mk.inj (Option.some.inj h₁)).1

/-! ### Every run -/

lemma Ok.init : (init : LockSys).Ok ordering := by
  exact fun page => .of_record (forall_mem_nil _) (forall_mem_nil _) fun h => .nil

lemma Ok.step (ok : s.Ok ordering) (hc : s.Allowed c) : (s.step ordering c).Ok ordering := by
  cases c with
  | lock alloc => exact ok.lockRecLock alloc hc.1 hc.2.1 hc.2.2
  | insertCheck alloc page h trx noWait => exact ok.insertCheckAndLock alloc hc noWait
  | dequeue page i => exact ok.dequeueFromPage page i
  | unlock trx page h mode => exact ok.unlock trx page h mode
  | unlockBit page i h => exact ok.unlockBit page i h
  | move alloc => exact ok.move alloc hc.1 hc.2.1 hc.2.2
  | reorganize alloc page => exact ok.reorganizePage alloc page hc.1 hc.2.1 hc.2.2
  | inherit alloc trxs fromSplit heir heirNo donor donorNo =>
    exact ok.inherit alloc trxs fromSplit heir heirNo donor donorNo

lemma Reachable.ok (hs : Reachable ordering s) : s.Ok ordering := by
  induction hs with
  | init => exact Ok.init
  | step _ hc ih => exact ih.step hc

/-- On every record but the supremum, in every state reached: two transactions do not both have a
granted lock that is not on the gap, one of them exclusive; and a waiting request has a request of
another transaction ahead of it that it has to wait for and may not pass, and `wait_trx` owns such
a one. -/
theorem queue_of_reachable (hs : Reachable ordering s) (page : Nat) {h : Nat}
    (hh : h ≠ heapNoSupremum) :
    (∀ x ∈ requests (s.queue page) h, ∀ y ∈ requests (s.queue page) h, x.trx ≠ y.trx →
        x.typeMode.wait = false → y.typeMode.wait = false → x.typeMode.gap = false →
        y.typeMode.gap = false → x.typeMode.mode = .S ∧ y.typeMode.mode = .S) ∧
      ∀ a w b, requests (s.queue page) h = a ++ w :: b → w.typeMode.wait = true →
        ∃ a₁ c a₂, a = a₁ ++ c :: a₂ ∧ c.trx ≠ w.trx ∧ hasToWait ordering h w c = true ∧
          ¬Bypassed h w a₁ c ∧ (s.trxLock w.trx).waitTrx = some c.trx := by
  have hq := hs.ok page
  constructor
  · intro x hx y hy hne hxw hyw hxg hyg
    have hno := (hq.inOrder h hh).not_conflict hx hy hxw hyw
    cases hxm : x.typeMode.mode with
    | X => exact absurd ⟨hne, hxg, hyg, .inl hxm⟩ hno
    | S =>
      cases hym : y.typeMode.mode with
      | X => exact absurd ⟨hne, hxg, hyg, .inr hym⟩ hno
      | S => exact ⟨rfl, rfl⟩
  · intro a w b hsplit hw
    obtain ⟨a₁, c, a₂, ha, hc, hb, ht⟩ := hq.blocked h hh a w b hsplit hw
    exact ⟨a₁, c, a₂, ha, (trx_ne_of_hasToWait hc).symm, hc, hb, ht⟩

/-- Transaction 1 locks a record for reading, 2 waits to write it, and 1, which may pass the waiting
request, gets the exclusive lock ahead of it. -/
theorem queue_of_upgrade :
    let ask (trx : Nat) (mode : Mode) : Call :=
      .lock ⟨fun _ _ h => h + 1, fun _ _ h => h.lt_succ_self⟩
        ⟨false, ⟨mode, false, false, true, false⟩, 0, 2, trx, false, false⟩
    let s := [ask 1 .S, ask 2 .X, ask 1 .X].foldl (step fun _ _ => false) init
    Reachable (fun _ _ => false) s ∧
      requests (s.queue 0) 2 = [⟨1, ⟨.S, false, false, true, false⟩⟩,
        ⟨1, ⟨.X, false, false, true, false⟩⟩, ⟨2, ⟨.X, true, false, true, false⟩⟩] ∧
      ∃ c : Request, c.trx ≠ 2 ∧ (s.trxLock 2).waitTrx = some c.trx := by
  intro ask s
  have h₁ : Reachable (fun _ _ => false) (init.step (fun _ _ => false) (ask 1 .S)) :=
    .step .init ⟨rfl, rfl, rfl⟩
  have h₂ := Reachable.step (c := ask 2 .X) h₁ ⟨rfl, rfl, rfl⟩
  have hs : Reachable (fun _ _ => false) s := .step (c := ask 1 .X) h₂ ⟨rfl, rfl, rfl⟩
  have hreq : requests (s.queue 0) 2 = [⟨1, ⟨.S, false, false, true, false⟩⟩,
      ⟨1, ⟨.X, false, false, true, false⟩⟩] ++ [⟨2, ⟨.X, true, false, true, false⟩⟩] := by decide
  obtain ⟨-, c, -, -, hne, -, -, hw⟩ :=
    (queue_of_reachable hs 0 (by decide)).2 _ _ [] hreq rfl
  exact ⟨hs, hreq, c, hne, hw⟩

end LockSys

end MariaDB.RecLock
