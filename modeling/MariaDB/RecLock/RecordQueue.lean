import MariaDB.RecLock.Conflict
import MariaDB.RecLock.Inherit

/-!
# The queue of one record

What holds of the requests on a record, in the order of the queue, and what the elementary changes
of a queue do to it: a granted request is put in, a waiting one is added at the end, the requests
of another record are moved here, or the granted ones are brought to the front.
-/

namespace MariaDB.RecLock

open List

/-- `a ++ w :: b` with one element put in or taken out. -/
lemma append_cons_eq_append_cons {α : Type} {a a' b b' : List α} {r w : α}
    (h : a' ++ w :: b' = a ++ r :: b) :
    (∃ m, a = a' ++ w :: m ∧ b' = m ++ r :: b) ∨ (a' = a ∧ w = r ∧ b' = b) ∨
      ∃ m, b = m ++ w :: b' ∧ a' = a ++ r :: m := by
  rcases append_eq_append_iff.mp h with ⟨m, rfl, hm⟩ | ⟨m, rfl, hm⟩ <;> cases m <;> grind

/-- `w` waits: a request ahead of it makes it wait and may not be passed, and `wait_trx` of its
transaction owns such a request. -/
def Blocked (ordering : Nat → Nat → Bool) (h : Nat) (waitTrx : Nat → Option Nat) (w : Request)
    (ahead : List Request) : Prop :=
  ∃ a c b, ahead = a ++ c :: b ∧ hasToWait ordering h w c = true ∧ ¬Bypassed h w a c ∧
    waitTrx w.trx = some c.trx

def AllBlocked (ordering : Nat → Nat → Bool) (h : Nat) (waitTrx : Nat → Option Nat)
    (q : List Request) : Prop :=
  ∀ a w b, q = a ++ w :: b → w.typeMode.wait = true → Blocked ordering h waitTrx w a

abbrev Once (q : List Request) : Prop :=
  q.Pairwise fun x y => x.typeMode.wait = true → y.typeMode.wait = true → x.trx ≠ y.trx

/-- What holds of a queue whatever its waiting requests wait for. -/
structure InOrder (q : List Request) : Prop where
  /-- Of two conflicting requests the later one waits. -/
  later : q.Pairwise fun x y => Conflict x y → y.typeMode.wait = true
  /-- A transaction that waits for an exclusive lock on the record does not have one. -/
  noX : ∀ w ∈ q, ∀ g ∈ q, w.typeMode.wait = true → w.typeMode.isRecExclusiveNotGap = true →
    g.typeMode.wait = false → g.typeMode.isRecExclusiveNotGap = true → g.trx ≠ w.trx
  once : Once q
  /-- Insert intentions are on the gap. -/
  gap : ∀ r ∈ q, r.typeMode.insertIntention = true → r.typeMode.gap = true

section

variable {ordering : Nat → Nat → Bool} {h : Nat} {waitTrx waitTrx' : Nat → Option Nat}
variable {q : List Request}

/-! ### One request -/

variable {a b q' rs rest : List Request}

lemma Once.insert (hq : Once (a ++ b)) (hwait : r.typeMode.wait = false) : Once (a ++ r :: b) := by
  grind [pairwise_cons]

lemma mem_of_waiting (hwait : r.typeMode.wait = false) (hw : w ∈ a ++ r :: b)
    (hww : w.typeMode.wait = true) : w ∈ a ++ b := by
  grind

lemma InOrder.sublist (hq : InOrder q) (hs : q'.Sublist q) : InOrder q' where
  later := hq.later.sublist hs
  noX w hw g hg := hq.noX w (hs.subset hw) g (hs.subset hg)
  once := hq.once.sublist hs
  gap r hr := hq.gap r (hs.subset hr)

lemma InOrder.not_conflict (hq : InOrder q) (hx : x ∈ q) (hy : y ∈ q)
    (hxw : x.typeMode.wait = false) (hyw : y.typeMode.wait = false) : ¬Conflict x y := by
  have hsymm : Std.Symm (fun x y : Request =>
      x.typeMode.wait = false → y.typeMode.wait = false → ¬Conflict x y) :=
    ⟨fun x y hxy hy hx hc => hxy hx hy hc.symm⟩
  have hpair : q.Pairwise fun x y : Request =>
      x.typeMode.wait = false → y.typeMode.wait = false → ¬Conflict x y := by
    refine hq.later.imp fun {a b} hab _ hb hc => ?_
    rw [hab hc] at hb
    cases hb
  exact hpair.forall_of_forall (fun x _ _ _ hc => hc.1 rfl) hx hy hxw hyw

/-- A granted request is put in where nothing ahead conflicts with it and what conflicts behind
it waits. -/
lemma InOrder.insert (hq : InOrder (a ++ b)) (hwait : r.typeMode.wait = false)
    (hii : r.typeMode.insertIntention = true → r.typeMode.gap = true)
    (ha : ∀ x ∈ a, ¬Conflict x r) (hb : ∀ y ∈ b, Conflict r y → y.typeMode.wait = true)
    (hX : r.typeMode.isRecExclusiveNotGap = true → ∀ w ∈ a ++ b, w.typeMode.wait = true →
      w.typeMode.isRecExclusiveNotGap = true → r.trx ≠ w.trx) :
    InOrder (a ++ r :: b) := by
  obtain ⟨hlater, hnoX, honce, hgap⟩ := hq
  refine ⟨?_, fun w hw g hg hww => ?_, honce.insert hwait, ?_⟩
  · grind [pairwise_cons]
  · have hw' := mem_of_waiting hwait hw hww
    grind
  · grind

lemma InOrder.concat (hq : InOrder q) (hwait : r.typeMode.wait = true)
    (hii : r.typeMode.insertIntention = true → r.typeMode.gap = true)
    (hX : r.typeMode.isRecExclusiveNotGap = true → ∀ g ∈ q, g.typeMode.wait = false →
      g.typeMode.isRecExclusiveNotGap = true → g.trx ≠ r.trx)
    (honce : ∀ x ∈ q, x.typeMode.wait = true → x.trx ≠ r.trx) : InOrder (q ++ [r]) := by
  obtain ⟨hlater, hnoX, honce', hgap⟩ := hq
  constructor <;> grind

lemma AllBlocked.nil : AllBlocked ordering h waitTrx [] := by
  intro a w b hq
  simp at hq

lemma AllBlocked.congr (hq : AllBlocked ordering h waitTrx q)
    (hwt : ∀ w ∈ q, w.typeMode.wait = true → waitTrx' w.trx = waitTrx w.trx) :
    AllBlocked ordering h waitTrx' q := by
  intro a w b hsplit hw
  obtain ⟨x, c, y, ha, hc, hb, ht⟩ := hq a w b hsplit hw
  exact ⟨x, c, y, ha, hc, hb, (hwt w (hsplit ▸ by simp) hw).trans ht⟩

/-- A granted request put in ahead of a waiting one leaves it blocked, unless it lets the waiting
one pass what it waits for. -/
lemma AllBlocked.insert (hq : AllBlocked ordering h waitTrx (a ++ b))
    (hwait : r.typeMode.wait = false)
    (hr : (∀ w ∈ b, w.typeMode.wait = true → r.canBeBypassing w.trx = false) ∨
      ∀ c ∈ b, c.typeMode.wait = true → c.typeMode.gap = true) :
    AllBlocked ordering h waitTrx (a ++ r :: b) := by
  intro a' w b' hsplit hw
  rcases append_cons_eq_append_cons hsplit.symm with ⟨m, rfl, rfl⟩ | ⟨-, rfl, -⟩ | ⟨m, rfl, rfl⟩
  · exact hq a' w (m ++ b) (by simp) hw
  · rw [hwait] at hw
    cases hw
  · obtain ⟨x, c, y, hsp, hc, hb, ht⟩ := hq (a ++ m) w b' (by simp) hw
    rcases append_eq_append_iff.mp hsp with ⟨z, rfl, hz⟩ | ⟨z, rfl, hz⟩
    · -- the request waited for is behind the new one
      refine ⟨a ++ r :: z, c, y, by simp [hz], hc, ?_, ht⟩
      rintro ⟨hmode, hcw, hcg, s, hs, hsb⟩
      have hcm : c ∈ m := hz ▸ by simp
      exact hb ⟨hmode, hcw, hcg, s, by grind, hsb⟩
    · cases z with
      | nil =>
        rw [nil_append] at hz
        refine ⟨x ++ [r], c, y, by simp [← hz], hc, ?_, ht⟩
        rintro ⟨hmode, hcw, hcg, s, hs, hsb⟩
        exact hb ⟨hmode, hcw, hcg, s, by grind, hsb⟩
      | cons z₀ z =>
        obtain ⟨rfl, rfl⟩ := cons.inj hz
        exact ⟨x, c, z ++ r :: m, by simp, hc, hb, ht⟩

lemma AllBlocked.concat (hq : AllBlocked ordering h waitTrx q)
    (hr : r.typeMode.wait = true → Blocked ordering h waitTrx r q) :
    AllBlocked ordering h waitTrx (q ++ [r]) := by
  intro a w b hsplit hw
  rcases append_cons_eq_append_cons hsplit.symm with ⟨m, rfl, -⟩ | ⟨rfl, rfl, -⟩ | ⟨m, hm, -⟩
  · exact hq a w m rfl hw
  · exact hr hw
  · simp at hm

/-! ### A whole queue moved -/

/-- What holds after the requests `rs` of a queue have been added to an empty one. -/
structure MoveInv (ordering : Nat → Nat → Bool) (h : Nat) (waitTrx : Nat → Option Nat)
    (rs q : List Request) : Prop where
  mem_iff : ∀ x, x ∈ q ↔ x ∈ rs
  inOrder : InOrder q
  blocked : AllBlocked ordering h waitTrx q
  /-- No granted request overtakes a waiting one that is not on a gap. -/
  order : ∀ a c b, q = a ++ c :: b → c.typeMode.wait = true → c.typeMode.gap = false →
    ∀ x ∈ a, ∃ a' b', rs = a' ++ c :: b' ∧ x ∈ a'

lemma InOrder.split_unique (hq : InOrder q) {c : Request} (hc : c.typeMode.wait = true)
    {a' b' : List Request} (h₁ : q = a ++ c :: b) (h₂ : q = a' ++ c :: b') : a = a' := by
  have honce := hq.once
  rcases append_cons_eq_append_cons (h₁.symm.trans h₂) with
    ⟨m, rfl, -⟩ | ⟨h, -, -⟩ | ⟨m, rfl, rfl⟩ <;>
    grind

lemma MoveInv.wait (inv : MoveInv ordering h waitTrx rs q)
    (hrs : InOrder (rs ++ r :: rest)) (hblocked : AllBlocked ordering h waitTrx (rs ++ r :: rest))
    (hw : r.typeMode.wait = true) : MoveInv ordering h waitTrx (rs ++ [r]) (q ++ [r]) := by
  have hr : r ∈ rs ++ r :: rest := by simp
  have hsub : ∀ {x}, x ∈ q → x ∈ rs ++ r :: rest := fun hx =>
    mem_append_left _ ((inv.mem_iff _).mp hx)
  refine ⟨fun x => ?_, ?_, ?_, ?_⟩
  · grind [inv.mem_iff x]
  · refine inv.inOrder.concat hw (hrs.gap r hr) (fun hX g hg hgw hgX => ?_) fun x hx hxw => ?_
    · exact hrs.noX r hr g (hsub hg) hw hX hgw hgX
    · exact (pairwise_append.mp hrs.once).2.2 x ((inv.mem_iff x).mp hx) r
        mem_cons_self hxw hw
  · refine inv.blocked.concat fun _ => ?_
    obtain ⟨x, c, y, hsp, hc, hb, ht⟩ := hblocked rs r rest rfl hw
    obtain ⟨a, b, hq⟩ := append_of_mem ((inv.mem_iff c).mpr (hsp ▸ by simp))
    refine ⟨a, c, b, hq, hc, ?_, ht⟩
    rintro ⟨hmode, hcw, hcg, s, hs, hsb⟩
    obtain ⟨a', b', hsp', hs'⟩ := inv.order a c b hq hcw hcg s hs
    have heq := (hrs.sublist (sublist_append_left _ _)).split_unique hcw hsp hsp'
    exact hb ⟨hmode, hcw, hcg, s, heq ▸ hs', hsb⟩
  · intro a c b hsplit hcw hcg x hx
    rcases append_cons_eq_append_cons hsplit.symm with ⟨m, rfl, -⟩ | ⟨rfl, rfl, -⟩ | ⟨m, hm, -⟩
    · obtain ⟨a', b', rfl, hx'⟩ := inv.order a c m rfl hcw hcg x hx
      exact ⟨a', b' ++ [r], by simp, hx'⟩
    · exact ⟨rs, [], rfl, (inv.mem_iff x).mp hx⟩
    · simp at hm

lemma MoveInv.granted (inv : MoveInv ordering h waitTrx rs q)
    (hrs : InOrder (rs ++ r :: rest)) (hw : r.typeMode.wait = false)
    (hadd : Enqueued r q q') : MoveInv ordering h waitTrx (rs ++ [r]) q' := by
  have hr : r ∈ rs ++ r :: rest := by simp
  have hsub : ∀ {x}, x ∈ q → x ∈ rs ++ r :: rest := fun hx =>
    mem_append_left _ ((inv.mem_iff _).mp hx)
  have hconf : ∀ x ∈ q, ¬Conflict x r := by
    intro x hx hc
    have hlater := (pairwise_append.mp hrs.later).2.2 x ((inv.mem_iff x).mp hx) r
    grind
  rcases hadd.1 with ⟨hmem, rfl⟩ | ⟨a, b, hq, hq'⟩
  · refine ⟨fun x => ?_, inv.inOrder, inv.blocked, ?_⟩
    · grind [inv.mem_iff x]
    · intro a c b hsplit hcw hcg x hx
      obtain ⟨a', b', rfl, hx'⟩ := inv.order a c b hsplit hcw hcg x hx
      exact ⟨a', b' ++ [r], by simp, hx'⟩
  · -- behind a waiting request that is not on a gap the request is the last one
    obtain ⟨a, b, hq, hq', hgap⟩ : ∃ a b, q = a ++ b ∧ q' = a ++ r :: b ∧
        ∀ c ∈ b, c.typeMode.wait = true → c.typeMode.gap = true := by
      by_cases hex : ∃ w ∈ q, w.typeMode.wait = true ∧ w.typeMode.gap = false
      · exact ⟨q, [], by simp, hadd.2 (.inr hex), by simp⟩
      · exact ⟨a, b, hq, hq', by grind⟩
    subst hq hq'
    refine ⟨fun x => ?_, ?_, inv.blocked.insert hw (.inr hgap), ?_⟩
    · grind [inv.mem_iff x]
    · refine inv.inOrder.insert hw (hrs.gap r hr) (fun x hx => hconf x (by simp [hx]))
        (fun y hy hc => absurd hc.symm (hconf y (by simp [hy]))) fun hX w hwm hww hwX => ?_
      exact hrs.noX w (hsub hwm) r hr hww hwX hw hX
    · intro a' c b' hsplit hcw hcg x hx
      rcases append_cons_eq_append_cons hsplit.symm with ⟨m, rfl, -⟩ | ⟨-, rfl, -⟩ | ⟨m, rfl, -⟩
      · obtain ⟨a₂, b₂, rfl, hx'⟩ := inv.order a' c (m ++ b) (by simp) hcw hcg x hx
        exact ⟨a₂, b₂ ++ [r], by simp, hx'⟩
      · grind
      · grind

/-- A queue whose requests are added one after the other to a record without requests is again
one in order whose waiting requests are blocked. -/
lemma EnqueuedAll.moveInv (hadd : EnqueuedAll rest q q') (inv : MoveInv ordering h waitTrx rs q)
    (hrs : InOrder (rs ++ rest)) (hblocked : AllBlocked ordering h waitTrx (rs ++ rest)) :
    MoveInv ordering h waitTrx (rs ++ rest) q' := by
  induction hadd generalizing rs with
  | nil q => rwa [append_nil]
  | @cons r rest q q₁ q₂ hr hrest ih =>
    have hinv : MoveInv ordering h waitTrx (rs ++ [r]) q₁ := by
      cases hw : r.typeMode.wait with
      | true => exact hr.2 (.inl hw) ▸ inv.wait hrs hblocked hw
      | false => exact inv.granted hrs hw hr
    rw [append_cons] at hrs hblocked
    rw [append_cons]
    exact ih hinv hrs hblocked

lemma EnqueuedAll.inOrder (hadd : EnqueuedAll rs [] q')
    (hrs : InOrder rs) (hblocked : AllBlocked ordering h waitTrx rs) :
    MoveInv ordering h waitTrx rs q' := by
  have inv : MoveInv ordering h waitTrx [] [] :=
    ⟨fun _ => Iff.rfl, ⟨.nil, by simp, .nil, by simp⟩, .nil, by simp⟩
  have h := hadd.moveInv inv (by simpa using hrs) (by simpa using hblocked)
  grind

/-! ### Granted requests first -/

/-- A transaction that waits for an exclusive lock has no lock on the record behind a request that
waits ahead of it and that it has to wait for. -/
lemma InOrder.no_lock_behind (hq : InOrder q) (hblocked : AllBlocked ordering h waitTrx q)
    (hsplit : q = a ++ c :: b) (hw : w ∈ b) (hww : w.typeMode.wait = true)
    (hwX : w.typeMode.isRecExclusiveNotGap = true) (hcw : c.typeMode.wait = true)
    (hcg : c.typeMode.gap = false) (hwc : w.trx ≠ c.trx) (hx : x ∈ b)
    (hxb : x.canBeBypassing w.trx = true) : False := by
  simp only [Request.canBeBypassing, Bool.and_eq_true, decide_eq_true_eq, Bool.not_eq_true'] at hxb
  obtain ⟨⟨hxt, hxw⟩, hxg⟩ := hxb
  have hlater := hq.later
  rw [hsplit] at hlater
  have hcx : ¬Conflict c x := by grind [pairwise_cons]
  -- otherwise `c` is shared, and waits for an exclusive request ahead of it
  have hcS : c.typeMode.mode = .S := by
    cases hm : c.typeMode.mode with
    | S => rfl
    | X => exact absurd ⟨fun he => hwc (hxt.symm.trans he.symm), hcg, hxg, .inl hm⟩ hcx
  have hcii : c.typeMode.insertIntention = false := by grind [hq.gap c (hsplit ▸ by simp)]
  obtain ⟨a', d, b', ha, hd, -, -⟩ := hblocked a c b hsplit hcw
  obtain ⟨hdm, hdg⟩ := hasToWait_shared hd hcS hcii
  have hdq : d ∈ q := hsplit ▸ ha ▸ by simp
  have hwq : w ∈ q := hsplit ▸ by simp [hw]
  by_cases hdt : d.trx = x.trx
  · cases hdw : d.typeMode.wait with
    | true =>
      have honce := hq.once
      rw [hsplit] at honce
      exact (pairwise_append.mp honce).2.2 d (ha ▸ by simp) w (mem_cons_of_mem _ hw)
        hdw hww (hdt.trans hxt)
    | false =>
      exact hq.noX w hwq d hdq hww hwX hdw (by simp [TypeMode.isRecExclusiveNotGap, hdm, hdg])
        (hdt.trans hxt)
  · have hdx : Conflict d x := ⟨hdt, hdg, hxg, .inl hdm⟩
    grind

lemma InOrder.grantedFirst (hq : InOrder q) (hblocked : AllBlocked ordering h waitTrx q)
    (hg : ∀ x, x ∈ granted ↔ x ∈ q ∧ x.typeMode.wait = false) :
    InOrder (granted ++ q.filter (·.typeMode.wait)) ∧
      AllBlocked ordering h waitTrx (granted ++ q.filter (·.typeMode.wait)) := by
  have hwait : ∀ {x}, x ∈ q.filter (·.typeMode.wait) → x ∈ q ∧ x.typeMode.wait = true :=
    fun hx => mem_filter.mp hx
  have hmem : ∀ {x}, x ∈ granted ++ q.filter (·.typeMode.wait) → x ∈ q := by grind
  have hsub : (q.filter (·.typeMode.wait)).Sublist q := filter_sublist
  refine ⟨⟨?_, ?_, ?_, fun x hx => hq.gap x (hmem hx)⟩, ?_⟩
  · refine pairwise_append.mpr ⟨?_, hq.later.sublist hsub, ?_⟩
    · refine pairwise_of_forall_mem_list fun x hx y hy hc => ?_
      exact absurd hc (hq.not_conflict ((hg x).mp hx).1 ((hg y).mp hy).1 ((hg x).mp hx).2
        ((hg y).mp hy).2)
    · exact fun x _ y hy _ => (hwait hy).2
  · exact fun w hw g hg => hq.noX w (hmem hw) g (hmem hg)
  · refine pairwise_append.mpr ⟨?_, hq.once.sublist hsub, ?_⟩
    · exact pairwise_of_forall_mem_list (by grind)
    · grind
  · intro a w b hsplit hww
    obtain ⟨m, hm, rfl⟩ : ∃ m, q.filter (·.typeMode.wait) = m ++ w :: b ∧ a = granted ++ m := by
      rcases append_eq_append_iff.mp hsplit with ⟨z, rfl, hz⟩ | ⟨z, hz, hz'⟩
      · exact ⟨z, hz, rfl⟩
      · cases z <;> grind
    obtain ⟨q₁, q₂, rfl, hq₁, hq₂⟩ := filter_eq_append_iff.mp hm
    obtain ⟨q₃, q₄, rfl, hq₃, -, -⟩ := filter_eq_cons_iff.mp hq₂
    obtain ⟨x, c, y, hsp, hc, hb, ht⟩ := hblocked (q₁ ++ q₃) w q₄ (by simp) hww
    have hm' : m = (q₁ ++ q₃).filter (·.typeMode.wait) := by
      have hnil : q₃.filter (·.typeMode.wait) = [] := filter_eq_nil_iff.mpr hq₃
      rw [filter_append, hq₁, hnil, append_nil]
    cases hcw : c.typeMode.wait with
    | false =>
      have hcg : c ∈ granted := (hg c).mpr ⟨by rw [← append_assoc, hsp]; simp, hcw⟩
      obtain ⟨g₁, g₂, rfl⟩ := append_of_mem hcg
      exact ⟨g₁, c, g₂ ++ m, by simp, hc, by grind [Bypassed], ht⟩
    | true =>
      rw [hsp, filter_append, filter_cons, if_pos hcw] at hm'
      refine ⟨granted ++ x.filter (·.typeMode.wait), c, y.filter (·.typeMode.wait), ?_, hc, ?_, ht⟩
      · rw [hm', append_assoc]
      · rintro ⟨hmode, -, hcg, s, hs, hsb⟩
        have hwX : w.typeMode.isRecExclusiveNotGap = true := (Bool.and_eq_true _ _ ▸ hmode).2
        have hsplit' : q₁ ++ (q₃ ++ w :: q₄) = x ++ c :: (y ++ w :: q₄) := by
          rw [← append_assoc, hsp]
          simp
        have hsw : s.typeMode.wait = false := by grind [Request.canBeBypassing]
        have hsq : s ∈ x ++ c :: (y ++ w :: q₄) := by grind
        rcases mem_append.mp hsq with hsx | hsx
        · exact hb ⟨hmode, hcw, hcg, s, hsx, hsb⟩
        · rcases mem_cons.mp hsx with rfl | hsx
          · grind
          · exact hq.no_lock_behind hblocked hsplit' (by simp) hww hwX hcw hcg
              (trx_ne_of_hasToWait hc) hsx hsb

end

end MariaDB.RecLock
