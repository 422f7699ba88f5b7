import MariaDB.RecLock.System

/-!
# Granting waiting requests

When a lock goes away, the waiting requests of the page, or of the record, are looked at in the
order of the queue. What the loop keeps is that the queues are in order, and that every waiting
request it has looked at is blocked by one ahead of it.
-/

namespace MariaDB.RecLock

open Function List

/-- What holds of the objects of a page whatever its waiting requests wait for. -/
structure QueueBase (page : Nat) (trxLock : Nat → TrxLock) (queue : List Lock) : Prop where
  single : ∀ l ∈ queue, SingleBit l
  hasBit : ∀ l ∈ queue, HasBit l
  waits : ∀ h, ∀ w ∈ requests queue h, w.typeMode.wait = true →
    (trxLock w.trx).waitLock = some (page, h)
  once : ∀ h, Once (requests queue h)
  inOrder : ∀ h, h ≠ heapNoSupremum → InOrder (requests queue h)

def waitTrxOf (trxLock : Nat → TrxLock) (t : Nat) : Option Nat := (trxLock t).waitTrx

/-- The queues of a page are in order and their waiting requests are blocked. -/
structure QueueOk (ordering : Nat → Nat → Bool) (page : Nat) (trxLock : Nat → TrxLock)
    (queue : List Lock) : Prop extends QueueBase page trxLock queue where
  blocked : ∀ h, h ≠ heapNoSupremum → AllBlocked ordering h (waitTrxOf trxLock) (requests queue h)

section

variable {ordering : Nat → Nat → Bool} {page : Nat} {trxLock trxLock' : Nat → TrxLock}
variable {queue done rest : List Lock} {l : Lock}

section

variable (hq : QueueBase page trxLock queue)
include hq

lemma QueueBase.trx_ne (hsplit : requests queue h = a ++ w :: b) (hw : w.typeMode.wait = true)
    (hx : x ∈ a ++ b) (hxw : x.typeMode.wait = true) : x.trx ≠ w.trx := by
  have honce := hq.once h
  rw [hsplit] at honce
  grind [pairwise_cons]

lemma QueueBase.trx_ne_of_ne (hne : h' ≠ h) (hwm : w ∈ requests queue h)
    (hw : w.typeMode.wait = true) (hx : x ∈ requests queue h') (hxw : x.typeMode.wait = true) :
    x.trx ≠ w.trx := by
  have h₁ := hq.waits h w hwm hw
  have h₂ := hq.waits h' x hx hxw
  grind

lemma QueueBase.congr (htl : ∀ h, ∀ w ∈ requests queue h, w.typeMode.wait = true →
      (trxLock' w.trx).waitLock = (trxLock w.trx).waitLock) :
    QueueBase page trxLock' queue :=
  ⟨hq.single, hq.hasBit, fun h w hw hww => (htl h w hw hww).trans (hq.waits h w hw hww), hq.once,
    hq.inOrder⟩

lemma QueueBase.of_sublist (hs : ∀ l ∈ queue', SingleBit l) (hb : ∀ l ∈ queue', HasBit l)
    (hsub : ∀ h, (requests queue' h).Sublist (requests queue h)) :
    QueueBase page trxLock queue' where
  single := hs
  hasBit := hb
  waits h w hw := hq.waits h w ((hsub h).subset hw)
  once h := (hq.once h).sublist (hsub h)
  inOrder h hh := (hq.inOrder h hh).sublist (hsub h)

end

/-! ### The loop -/

/-- What the loop keeps; `sel` are the records it looks at. -/
structure LoopInv (ordering : Nat → Nat → Bool) (page : Nat) (sel : Nat → Prop)
    (done rest : List Lock) (trxLock : Nat → TrxLock) : Prop where
  base : QueueBase page trxLock (done ++ rest)
  looked : ∀ h, h ≠ heapNoSupremum → sel h →
    AllBlocked ordering h (waitTrxOf trxLock) (requests done h)
  other : ∀ h, h ≠ heapNoSupremum → ¬sel h →
    AllBlocked ordering h (waitTrxOf trxLock) (requests (done ++ rest) h)

variable {sel : Nat → Prop}

lemma LoopInv.stay (inv : LoopInv ordering page sel done (l :: rest) trxLock)
    (hl : ∀ h, h ≠ heapNoSupremum → sel h → l.nthBit h = true → l.typeMode.wait = true →
      Blocked ordering h (waitTrxOf trxLock) l.request (requests done h)) :
    LoopInv ordering page sel (done ++ [l]) rest trxLock := by
  have happ : done ++ [l] ++ rest = done ++ l :: rest := by simp
  refine ⟨happ ▸ inv.base, ?_, fun h hh hsel => happ ▸ inv.other h hh hsel⟩
  intro h hh hsel
  rw [requests_append]
  by_cases hbit : l.nthBit h = true
  · rw [requests_cons_of_bit hbit, requests_nil]
    exact (inv.looked h hh hsel).concat (hl h hh hsel hbit)
  · rw [requests_cons_of_not_bit (by simpa using hbit), requests_nil, append_nil]
    exact inv.looked h hh hsel

section Waiting

variable {h₀ : Nat}

/-- The queue of the record the object waits on. -/
lemma requests_at (hbit : l.nthBit h₀ = true) : requests (done ++ l :: rest) h₀
      = requests done h₀ ++ l.request :: requests rest h₀ := by
  rw [requests_append, requests_cons_of_bit hbit]

lemma nthBit_of_ne (hs : SingleBit l) (hw : l.typeMode.wait = true) (hbit : l.nthBit h₀ = true)
    (hh : h ≠ h₀) : l.nthBit h = false := by
  by_contra hb
  exact hh (hs hw h h₀ (by simpa using hb) hbit)

section

variable (inv : LoopInv ordering page sel done (l :: rest) trxLock) (hw : l.typeMode.wait = true)
  (hbit : l.nthBit h₀ = true)
include inv hw hbit

lemma LoopInv.trx_ne (hx : x ∈ requests done h ++ requests rest h) (hxw : x.typeMode.wait = true) :
    x.trx ≠ l.trx := by
  by_cases hh : h = h₀
  · subst hh
    exact inv.base.trx_ne (requests_at hbit) hw hx hxw
  · have hl : l.request ∈ requests (done ++ l :: rest) h₀ := by
      rw [requests_at hbit]
      simp
    refine inv.base.trx_ne_of_ne hh hl hw ?_ hxw
    grind [requests_append, requests_cons]

lemma LoopInv.allBlocked_update (x : TrxLock) (hq : ∀ w ∈ q, w ∈ requests done h ++ requests rest h)
    (hblocked : AllBlocked ordering h (waitTrxOf trxLock) q) :
    AllBlocked ordering h (waitTrxOf (update trxLock l.trx x)) q := by
  refine hblocked.congr fun w hwm hww => ?_
  unfold waitTrxOf
  rw [update_of_ne (inv.trx_ne hw hbit (hq w hwm) hww)]

lemma LoopInv.wait (hsel : sel h₀) (hsplit : requests done h₀ = a ++ c :: b)
    (hc : hasToWait ordering h₀ l.request c = true) (hb : ¬Bypassed h₀ l.request a c) :
    LoopInv ordering page sel (done ++ [l]) rest
      (update trxLock l.trx { trxLock l.trx with waitTrx := some c.trx }) := by
  have hs : SingleBit l := inv.base.single l (by simp)
  have inv' : LoopInv ordering page sel done (l :: rest)
      (update trxLock l.trx { trxLock l.trx with waitTrx := some c.trx }) := by
    refine ⟨inv.base.congr fun h w _ _ => ?_, fun h hh hs' => ?_, fun h hh hs' => ?_⟩
    · by_cases ht : w.trx = l.trx
      · rw [ht, update_self]
      · rw [update_of_ne ht]
    · exact inv.allBlocked_update hw hbit _ (fun w hwm => mem_append_left _ hwm)
        (inv.looked h hh hs')
    · have hne : h ≠ h₀ := fun he => hs' (he ▸ hsel)
      refine inv.allBlocked_update hw hbit _ (fun w hwm => ?_) (inv.other h hh hs')
      rwa [requests_append, requests_cons_of_not_bit (nthBit_of_ne hs hw hbit hne)] at hwm
  refine inv'.stay fun h hh _ hbit' _ => ?_
  obtain rfl : h = h₀ := hs hw h h₀ hbit' hbit
  refine ⟨a, c, b, hsplit, hc, hb, ?_⟩
  unfold waitTrxOf
  rw [show l.request.trx = l.trx from rfl, update_self]

lemma LoopInv.grant (hsel : sel h₀) (hdone : done = da ++ db)
    (hfree : Free ordering h₀ l.request (requests da h₀))
    (hpass : FreeOrPassed ordering h₀ l.request (requests db h₀)) :
    LoopInv ordering page sel (da ++ l.clearWait :: db) rest (update trxLock l.trx .none) := by
  subst hdone
  have hs : SingleBit l := inv.base.single l (by simp)
  have hat : ∀ q, requests (da ++ l.clearWait :: q) h₀
      = requests da h₀ ++ l.clearWait.request :: requests q h₀ := by
    intro q
    rw [requests_append, requests_cons_of_bit (show l.clearWait.nthBit h₀ = true from hbit)]
  have hoff : ∀ h, h ≠ h₀ → ∀ q, requests (da ++ l.clearWait :: q) h = requests (da ++ q) h ∧
      requests (da ++ db ++ l :: rest) h = requests (da ++ (db ++ rest)) h := by
    intro h hh q
    have hbit₁ : l.nthBit h = false := nthBit_of_ne hs hw hbit hh
    have hbit₂ : l.clearWait.nthBit h = false := hbit₁
    simp [requests_append, requests_cons_of_not_bit, hbit₁, hbit₂]
  have happ : da ++ l.clearWait :: db ++ rest = da ++ l.clearWait :: (db ++ rest) := by simp
  have hsame : ∀ h, h ≠ h₀ → requests (da ++ l.clearWait :: db ++ rest) h
      = requests (da ++ db ++ l :: rest) h :=
    fun h hh => by rw [happ, (hoff h hh _).1, (hoff h hh []).2]
  have hother : ∀ h, ∀ x ∈ requests (da ++ (db ++ rest)) h, x.typeMode.wait = true →
      x.trx ≠ l.trx := by
    intro h x hx
    rw [← append_assoc, requests_append] at hx
    exact inv.trx_ne hw hbit hx
  have hprop : ∀ {P : Lock → Prop}, WaitProp P → (∀ x ∈ da ++ db ++ l :: rest, P x) →
      ∀ x ∈ da ++ l.clearWait :: db ++ rest, P x := by
    intro P hP hold x hx
    have hl := hP.granted l.clearWait rfl
    grind
  have hold : requests (da ++ db ++ l :: rest) h₀
      = requests (da ++ db) h₀ ++ l.request :: requests rest h₀ := requests_at hbit
  refine ⟨⟨hprop waitProp_singleBit inv.base.single, hprop waitProp_hasBit inv.base.hasBit,
    fun h w hwm hww => ?_, fun h => ?_, fun h hh => ?_⟩, fun h hh hselh => ?_, fun h hh hselh => ?_⟩
  · have hwaits := inv.base.waits h w
    have hne := hother h w
    have hwait : l.clearWait.request.typeMode.wait = false := rfl
    by_cases hh₀ : h = h₀
    · subst hh₀
      grind [requests_append]
    · rw [hsame h hh₀] at hwm
      rw [update_of_ne (hne ((hoff h hh₀ []).2 ▸ hwm) hww)]
      exact hwaits hwm hww
  · have honce := inv.base.once h
    by_cases hh₀ : h = h₀
    · subst hh₀
      have hwait : l.clearWait.request.typeMode.wait = false := rfl
      grind [requests_append, pairwise_cons]
    · rwa [hsame h hh₀]
  · have hbase := inv.base.inOrder h hh
    by_cases hh₀ : h = h₀
    · subst hh₀
      rw [hold, requests_append] at hbase
      have hrest : InOrder (requests da h ++ requests (db ++ rest) h) :=
        hbase.sublist (by simp [requests_append])
      have hii : ∀ x ∈ requests da h ++ requests (db ++ rest) h,
          Conflict l.request x → hasToWait ordering h l.request x = true := fun x hx hc =>
        hc.hasToWait hh (by grind [hrest.gap x hx, Conflict])
      rw [happ, hat]
      refine hrest.insert rfl (hbase.gap l.request (by simp)) (fun x hx hc => ?_)
        (fun y hy hc => ?_) fun _ w hwm hww _ => (hother h w ?_ hww).symm
      · have hwait := hii x (by simp [hx]) (show Conflict l.request x from hc.symm)
        grind [Free]
      · have hwait := hii y (mem_append_right _ hy) hc
        have hlater := hbase.later
        have hc' : Conflict l.request y := hc
        grind [requests_append, FreeOrPassed, pairwise_cons]
      · rwa [requests_append]
    · rwa [hsame h hh₀]
  · have hlooked := inv.allBlocked_update hw hbit .none
      (fun w hwm => mem_append_left (requests rest h) hwm) (inv.looked h hh hselh)
    by_cases hh₀ : h = h₀
    · subst hh₀
      rw [requests_append] at hlooked
      rw [hat]
      refine hlooked.insert rfl (.inl fun w hwm hww => ?_)
      have hne := hother h w
      grind [requests_append, Request.canBeBypassing, Lock.clearWait, Lock.request]
    · rwa [(hoff h hh₀ db).1]
  · have hh₀ : h ≠ h₀ := fun he => hselh (he ▸ hsel)
    rw [hsame h hh₀]
    refine inv.allBlocked_update hw hbit .none (fun w hwm => ?_) (inv.other h hh hselh)
    rwa [(hoff h hh₀ []).2, ← append_assoc, requests_append] at hwm

end

end Waiting

/-- `trxLock'` differs from `trxLock` for transactions that wait on the page only. -/
def SameElsewhere (page : Nat) (trxLock trxLock' : Nat → TrxLock) : Prop :=
  ∀ t, (∀ h, (trxLock t).waitLock ≠ some (page, h)) → trxLock' t = trxLock t

lemma SameElsewhere.refl (page : Nat) (trxLock : Nat → TrxLock) :
    SameElsewhere page trxLock trxLock := fun _ _ => rfl

lemma SameElsewhere.update (hsame : SameElsewhere page trxLock₀ trxLock)
    (hwait : (trxLock t).waitLock = some (page, h)) (x : TrxLock) :
    SameElsewhere page trxLock₀ (update trxLock t x) := by
  intro t' ht'
  have heq := hsame t' ht'
  grind

lemma grantLoop_inv
    (honly : ∀ l ∈ rest, l.typeMode.wait = true → ∀ h, l.nthBit h = true → (only l = true ↔ sel h))
    (inv : LoopInv ordering page sel done rest trxLock)
    (hsame : SameElsewhere page trxLock₀ trxLock) :
    LoopInv ordering page sel (LockSys.grantLoop ordering only done rest trxLock).1 []
        (LockSys.grantLoop ordering only done rest trxLock).2 ∧
      SameElsewhere page trxLock₀ (LockSys.grantLoop ordering only done rest trxLock).2 := by
  induction rest generalizing done trxLock with
  | nil => exact ⟨inv, hsame⟩
  | cons l rest ih =>
    have honly' := fun x hx => honly x (mem_cons_of_mem _ hx)
    rw [LockSys.grantLoop]
    by_cases hlook : (l.typeMode.wait && only l) = true
    · rw [if_pos hlook]
      rw [Bool.and_eq_true] at hlook
      obtain ⟨hw, hl⟩ := hlook
      cases hset : l.findSetBit with
      | none =>
        refine ih honly' (inv.stay fun h _ _ hbit _ => ?_) hsame
        rw [Lock.findSetBit_of_single (inv.base.single l (by simp)) hw hbit] at hset
        cases hset
      | some h =>
        have hbit := Lock.nthBit_of_findSetBit hset
        have hsel := (honly l mem_cons_self hw h hbit).mp hl
        have hwaits := inv.base.waits h l.request (by rw [requests_at hbit]; simp) hw
        dsimp only
        generalize hinfo : findConflict ordering h l.request done = info
        have hres := findConflict_result ordering h l.request done
        rw [hinfo] at hres
        cases hres with
        | conflict a c b hsplit hc hb =>
          exact ih honly' (inv.wait hw hbit hsel hsplit hc hb) (hsame.update hwaits _)
        | free hfree =>
          refine ih honly' ?_ (hsame.update hwaits _)
          exact inv.grant hw hbit hsel (append_nil _).symm hfree (fun x hx => by cases hx)
        | pass i hfree hpass =>
          refine ih honly' ?_ (hsame.update hwaits _)
          refine inv.grant hw hbit hsel (take_append_drop _ _).symm hfree fun x hx => ?_
          refine hpass x ?_
          rw [← take_append_drop (i + 1) done, requests_append]
          exact mem_append_right _ hx
    · rw [if_neg hlook]
      refine ih honly' (inv.stay fun h _ hsel hbit hw => ?_) hsame
      have hl := (honly l mem_cons_self hw h hbit).mpr hsel
      exact absurd (by rw [hw, hl]; rfl) hlook

end

end MariaDB.RecLock
