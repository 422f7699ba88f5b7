import Mathlib
import MariaDB.RecLock.Inherit

/-!
# Gap locks through changes of the index pages

When a record is inserted or removed, or a page is split, merged or discarded, the gap in front of
a record changes its upper bound. The `lock_update_*` functions carry the requests over that cover
it. Here a piece of the leaf level is one page or two neighbours with the key that separates them,
a change is what the page code does to it, and `bound` is the record, or the supremum of the page,
that bounds a key position from above.
-/

namespace MariaDB.RecLock

open List

variable {κ : Type}

structure Rec (κ : Type) where
  key : κ
  heapNo : Nat

/-- A leaf page: its identifier and its user records in their order on the page. -/
structure Leaf (κ : Type) where
  id : Nat
  recs : List (Rec κ)

/-- One leaf page, or two neighbours: keys below `sep` belong to the left one. -/
inductive Level (κ : Type) where
  | one (page : Leaf κ)
  | two (left : Leaf κ) (sep : κ) (right : Leaf κ)

/-- The heap number of the first of `recs`, or of the supremum after them. On a whole page this is
`lock_get_min_heap_no`. -/
def minHeapNo : List (Rec κ) → Nat
  | [] => heapNoSupremum
  | r :: _ => r.heapNo

section

variable [LinearOrder κ]

/-- The heap number of the first of `recs` above `k`, or of the supremum. -/
def firstAbove (k : κ) : List (Rec κ) → Nat
  | [] => heapNoSupremum
  | r :: recs => if k < r.key then r.heapNo else firstAbove k recs

def Level.bound (k : κ) : Level κ → Nat × Nat
  | .one p => (p.id, firstAbove k p.recs)
  | .two l sep r => if k < sep then (l.id, firstAbove k l.recs) else (r.id, firstAbove k r.recs)

end

/-- The records of a page that were copied to another one, under their heap numbers there. -/
def renumber (recs : List (Rec κ)) (heapNos : List Nat) : List (Rec κ) :=
  List.zipWith (fun r h => ⟨r.key, h⟩) recs heapNos

def moves (recs : List (Rec κ)) (heapNos : List Nat) : List (Nat × Nat) :=
  (recs.map Rec.heapNo).zip heapNos

/-! ### The functions called with a change -/

section

variable (alloc : Alloc) (trxs : Nat → Trx)

/-- `lock_update_insert`: `next` are the records after the new one. -/
def lockUpdateInsert (page heapNo : Nat) (next : List (Rec κ)) (s : Locks) : Locks :=
  inheritToGapIfGapLock alloc trxs page heapNo (minHeapNo next) s

/-- `lock_update_delete`: `next` are the records after the one to be removed. -/
def lockUpdateDelete (page heapNo : Nat) (next : List (Rec κ)) (s : Locks) : Locks :=
  resetAndReleaseWait page heapNo
    (inheritToGap alloc trxs false page (minHeapNo next) page heapNo s)

def lockUpdateSplitRight (right left : Leaf κ) (s : Locks) : Locks :=
  inheritToGap alloc trxs true left.id heapNoSupremum right.id (minHeapNo right.recs)
    (recMove alloc right.id heapNoSupremum left.id heapNoSupremum s)

def lockUpdateSplitLeft (right left : Leaf κ) (s : Locks) : Locks :=
  inheritToGap alloc trxs true left.id heapNoSupremum right.id (minHeapNo right.recs) s

/-- `lock_update_merge_right`: `origSucc` is the heap number of the first record, or of the
supremum, that the right page had. -/
def lockUpdateMergeRight (right origSucc left : Nat) (s : Locks) : Locks :=
  freeAllFromDiscardPage left
    (resetAndReleaseWait left heapNoSupremum
      (inheritToGap alloc trxs false right origSucc left heapNoSupremum s))

/-- `lock_update_merge_left`: `heapNo` is that of the record after `orig_pred`. -/
def lockUpdateMergeLeft (left heapNo right : Nat) (s : Locks) : Locks :=
  freeAllFromDiscardPage right
    (recMove alloc left heapNoSupremum right heapNoSupremum
      (if heapNo ≠ heapNoSupremum then
        resetAndReleaseWait left heapNoSupremum
          (inheritToGap alloc trxs false left heapNo left heapNoSupremum s)
      else s))

/-- The loop of `lock_update_discard` over the records of the page. -/
def discardLoop (heir heirNo page : Nat) : List Nat → Locks → Locks
  | [], s => s
  | h :: hs, s =>
    discardLoop heir heirNo page hs
      (resetAndReleaseWait page h (inheritToGap alloc trxs false heir heirNo page h s))

def Leaf.heapNos (p : Leaf κ) : List Nat :=
  heapNoInfimum :: p.recs.map Rec.heapNo ++ [heapNoSupremum]

def lockUpdateDiscard (heir heirNo : Nat) (page : Leaf κ) (s : Locks) : Locks :=
  if (s page.id).isEmpty then s
  else freeAllFromDiscardPage page.id (discardLoop alloc trxs heir heirNo page.id page.heapNos s)

end

/-! ### Changes -/

/-- What the page code does to the leaf level. `heapNos` are the heap numbers that copied records
get on the page they are copied to. -/
inductive Change (κ : Type) where
  /-- `rec` is inserted between `recs` and `next`. -/
  | insert (page : Nat) (recs : List (Rec κ)) (rec : Rec κ) (next : List (Rec κ))
  /-- `rec` between `recs` and `next` is removed. -/
  | delete (page : Nat) (recs : List (Rec κ)) (rec : Rec κ) (next : List (Rec κ))
  /-- The end `moved` of the left page goes to a new right page. -/
  | splitRight (left right : Nat) (recs moved : List (Rec κ)) (heapNos : List Nat) (sep : κ)
  /-- The start `moved` of the right page goes to a new left page. -/
  | splitLeft (left right : Nat) (moved recs : List (Rec κ)) (heapNos : List Nat) (sep : κ)
  /-- The records `moved` of the right page go to the end of the left page. -/
  | mergeLeft (left right : Nat) (recs moved : List (Rec κ)) (heapNos : List Nat) (sep : κ)
  /-- The records `moved` of the left page go to the start of the right page. -/
  | mergeRight (left right : Nat) (moved recs : List (Rec κ)) (heapNos : List Nat) (sep : κ)
  /-- `btr_discard_page` with a left neighbour. -/
  | discard (left : Leaf κ) (sep : κ) (page : Leaf κ)
  /-- `btr_discard_page` of the first page of the level. -/
  | discardFirst (page : Leaf κ) (sep : κ) (right : Leaf κ)
  /-- `btr_discard_only_page_on_level`: its father is left as an empty leaf. -/
  | discardOnly (page : Leaf κ) (father : Nat)

namespace Change

def before : Change κ → Level κ
  | insert page recs _ next => .one ⟨page, recs ++ next⟩
  | delete page recs rec next => .one ⟨page, recs ++ rec :: next⟩
  | splitRight left _ recs moved _ _ => .one ⟨left, recs ++ moved⟩
  | splitLeft _ right moved recs _ _ => .one ⟨right, moved ++ recs⟩
  | mergeLeft left right recs moved _ sep => .two ⟨left, recs⟩ sep ⟨right, moved⟩
  | mergeRight left right moved recs _ sep => .two ⟨left, moved⟩ sep ⟨right, recs⟩
  | discard left sep page => .two left sep page
  | discardFirst page sep right => .two page sep right
  | discardOnly page _ => .one page

def after : Change κ → Level κ
  | insert page recs rec next => .one ⟨page, recs ++ rec :: next⟩
  | delete page recs _ next => .one ⟨page, recs ++ next⟩
  | splitRight left right recs moved nos sep => .two ⟨left, recs⟩ sep ⟨right, renumber moved nos⟩
  | splitLeft left right moved recs nos sep => .two ⟨left, renumber moved nos⟩ sep ⟨right, recs⟩
  | mergeLeft left _ recs moved nos _ => .one ⟨left, recs ++ renumber moved nos⟩
  | mergeRight _ right moved recs nos _ => .one ⟨right, renumber moved nos ++ recs⟩
  | discard left _ _ => .one left
  | discardFirst _ _ right => .one right
  | discardOnly _ father => .one ⟨father, []⟩

section

variable (alloc : Alloc) (trxs : Nat → Trx)

/-- What becomes of the locks: those of copied records are moved with them, then the
`lock_update_*` function of the change is called. -/
def updateLocks : Change κ → Locks → Locks
  | insert page _ rec next, s => lockUpdateInsert alloc trxs page rec.heapNo next s
  | delete page _ rec next, s => lockUpdateDelete alloc trxs page rec.heapNo next s
  | splitRight left right recs moved nos _, s =>
    lockUpdateSplitRight alloc trxs ⟨right, renumber moved nos⟩ ⟨left, recs⟩
      (moveRecList alloc right left (moves moved nos) s)
  | splitLeft left right moved recs nos _, s =>
    lockUpdateSplitLeft alloc trxs ⟨right, recs⟩ ⟨left, renumber moved nos⟩
      (moveRecList alloc left right (moves moved nos) s)
  | mergeLeft left right _ moved nos _, s =>
    lockUpdateMergeLeft alloc trxs left (minHeapNo (renumber moved nos)) right
      (moveRecList alloc left right (moves moved nos) s)
  | mergeRight left right moved recs nos _, s =>
    lockUpdateMergeRight alloc trxs right (minHeapNo recs) left
      (moveRecList alloc right left (moves moved nos) s)
  | discard left _ page, s => lockUpdateDiscard alloc trxs left.id heapNoSupremum page s
  | discardFirst page _ right, s =>
    lockUpdateDiscard alloc trxs right.id (minHeapNo right.recs) page s
  | discardOnly page father, s => lockUpdateDiscard alloc trxs father heapNoSupremum page s

end

end Change

section

variable [LinearOrder κ] (k : κ)

/-- The records of a page are in key order and have heap numbers of their own, which are not those
of the infimum and the supremum. -/
structure PageOk (recs : List (Rec κ)) : Prop where
  sorted : recs.Pairwise fun x y => x.key < y.key
  nodup : (recs.map Rec.heapNo).Nodup
  user : ∀ r ∈ recs, heapNoSupremum < r.heapNo

/-- `sep` separates the records of two neighbours. -/
structure Separates (sep : κ) (left right : List (Rec κ)) : Prop where
  left_lt : ∀ r ∈ left, r.key < sep
  le_right : ∀ r ∈ right, sep ≤ r.key

/-- The pages are as the page code keeps them, before the change and after it. -/
def Change.Valid : Change κ → Prop
  | insert _ recs rec next => PageOk (recs ++ rec :: next)
  | delete _ recs rec next => PageOk (recs ++ rec :: next)
  | splitRight left right recs moved nos sep =>
    left ≠ right ∧ PageOk (recs ++ moved) ∧ Separates sep recs moved ∧
      nos.length = moved.length ∧ PageOk (renumber moved nos)
  | splitLeft left right moved recs nos sep =>
    left ≠ right ∧ PageOk (moved ++ recs) ∧ Separates sep moved recs ∧
      nos.length = moved.length ∧ PageOk (renumber moved nos)
  | mergeLeft left right recs moved nos sep =>
    left ≠ right ∧ PageOk recs ∧ PageOk moved ∧ Separates sep recs moved ∧
      nos.length = moved.length ∧ PageOk (recs ++ renumber moved nos)
  | mergeRight left right moved recs nos sep =>
    left ≠ right ∧ PageOk moved ∧ PageOk recs ∧ Separates sep moved recs ∧
      nos.length = moved.length ∧ PageOk (renumber moved nos ++ recs)
  | discard left sep page =>
    left.id ≠ page.id ∧ PageOk left.recs ∧ PageOk page.recs ∧ Separates sep left.recs page.recs
  | discardFirst page sep right =>
    page.id ≠ right.id ∧ PageOk page.recs ∧ PageOk right.recs ∧ Separates sep page.recs right.recs
  | discardOnly page father => page.id ≠ father ∧ PageOk page.recs

/-! ### What bounds a key position -/

/-- Either a record of `a` bounds `k`, whatever follows, or none of them is above it. -/
lemma firstAbove_append (a : List (Rec κ)) :
    (∃ r ∈ a, ∀ b, firstAbove k (a ++ b) = r.heapNo) ∨ ∀ r ∈ a, ¬k < r.key := by
  induction a with
  | nil => exact .inr (forall_mem_nil _)
  | cons r a ih =>
    by_cases hr : k < r.key
    · refine .inl ⟨r, mem_cons_self, fun b => ?_⟩
      rw [cons_append, firstAbove, if_pos hr]
    · rcases ih with ⟨x, hx, h⟩ | h
      · refine .inl ⟨x, mem_cons_of_mem _ hx, fun b => ?_⟩
        rw [cons_append, firstAbove, if_neg hr, h b]
      · exact .inr (forall_mem_cons.mpr ⟨hr, h⟩)

lemma firstAbove_of_below {k : κ} {recs : List (Rec κ)} (h : ∀ r ∈ recs, k < r.key) :
    firstAbove k recs = minHeapNo recs := by
  cases recs with
  | nil => rfl
  | cons r recs => rw [firstAbove, if_pos (h r mem_cons_self), minHeapNo]

lemma firstAbove_append_of_above {k : κ} (h : ∀ r ∈ a, ¬k < r.key)
    (b : List (Rec κ)) : firstAbove k (a ++ b) = firstAbove k b := by
  induction a <;> grind [firstAbove]

lemma firstAbove_of_above {k : κ} (h : ∀ r ∈ a, ¬k < r.key) : firstAbove k a = heapNoSupremum := by
  have := firstAbove_append_of_above h []
  rwa [append_nil] at this

lemma firstAbove_cases (recs : List (Rec κ)) :
    (∃ r ∈ recs, firstAbove k recs = r.heapNo) ∨ firstAbove k recs = heapNoSupremum := by
  rcases firstAbove_append k recs with ⟨r, hr, h⟩ | h
  · exact .inl ⟨r, hr, by simpa using h []⟩
  · exact .inr (firstAbove_of_above h)

/-- A record that bounds `k` bounds it under its new heap number as well. -/
lemma firstAbove_renumber {recs : List (Rec κ)} {nos : List Nat} (hlen : nos.length = recs.length) :
    (firstAbove k recs, firstAbove k (renumber recs nos)) ∈ moves recs nos ∨
      (firstAbove k recs = heapNoSupremum ∧ firstAbove k (renumber recs nos) = heapNoSupremum) := by
  induction recs generalizing nos with
  | nil => exact .inr ⟨rfl, rfl⟩
  | cons r recs ih =>
    cases nos with
    | nil => cases hlen
    | cons n nos =>
      simp only [renumber, moves, zipWith_cons_cons, map_cons, zip_cons_cons, firstAbove]
      by_cases hr : k < r.key
      · rw [if_pos hr, if_pos hr]
        exact .inl mem_cons_self
      · rw [if_neg hr, if_neg hr]
        rcases ih (Nat.succ.inj hlen) with h | h
        · exact .inl (mem_cons_of_mem _ h)
        · exact .inr h

end

/-! ### Copied records -/

lemma map_fst_moves (hlen : nos.length = recs.length) :
    (moves recs nos).map Prod.fst = recs.map Rec.heapNo :=
  map_fst_zip (by simp [hlen])

lemma map_heapNo_renumber
    (hlen : nos.length = recs.length) : (renumber recs nos).map Rec.heapNo = nos := by
  induction recs generalizing nos with
  | nil => exact (eq_nil_of_length_eq_zero hlen).symm
  | cons r recs ih =>
    cases nos with
    | nil => cases hlen
    | cons n nos =>
      rw [renumber, zipWith_cons_cons, map_cons]
      exact congrArg (n :: ·) (ih (Nat.succ.inj hlen))

lemma mem_renumber (hr : r ∈ renumber recs nos) : ∃ x ∈ recs, x.key = r.key := by
  induction recs generalizing nos with
  | nil => simp [renumber] at hr
  | cons x recs ih =>
    cases nos with
    | nil => simp [renumber] at hr
    | cons n nos =>
      rw [renumber, zipWith_cons_cons, mem_cons] at hr
      rcases hr with rfl | hr
      · exact ⟨x, mem_cons_self, rfl⟩
      · obtain ⟨y, hy, hkey⟩ := ih hr
        exact ⟨y, mem_cons_of_mem _ hy, hkey⟩

end MariaDB.RecLock
