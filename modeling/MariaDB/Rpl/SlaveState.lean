import Mathlib

/-!
# The replication slave state of one domain

The element of `rpl_slave_state` that holds the state of one `domain_id`, and the
operations on it that run under `LOCK_slave_state`. `ρ` are the `Relay_log_info` objects,
one for each master connection, and `τ` are the waiters of `MASTER_GTID_WAIT()`.

An allocation may fail whenever it is tried. Whether it does is an argument.
-/
namespace MariaDB.Rpl

/-- The values of `rpl_group_info::gtid_ignore_duplicate_state`. -/
inductive DuplicateState
  | null
  | ignore
  | owner
  deriving DecidableEq, Repr

/-- A condition variable that is broadcast, or a request to the background thread. -/
inductive Signal
  | waitGtid
  | gtidIgnoreDuplicates
  | gtidPendingDelete
  deriving DecidableEq, Repr

/-- `rpl_slave_state::list_element`, in the list of its domain. -/
structure ListElement where
  subId : Nat
  serverId : Nat
  seqNo : Nat
  hton : Option Nat
  deriving DecidableEq, Repr

/-- `rpl_slave_state::element`. `ownerCount` counts event groups in memory, far fewer than
a `uint32` holds. -/
structure Element (ρ τ : Type*) where
  list : List ListElement
  highestSeqNo : Nat
  gtidWaiter : Option τ
  minWaitSeqNo : Nat
  ownerRli : Option ρ
  ownerCount : Nat
  deriving DecidableEq, Repr

/-- `rpl_slave_state`, with the entry of the hash for the domain. -/
structure SlaveState (ρ τ : Type*) where
  elem : Option (Element ρ τ)
  lastSubId : Nat
  pendingGtidCount : Nat
  /-- `opt_gtid_cleanup_batch_size`. -/
  cleanupBatchSize : Nat
  deriving DecidableEq, Repr

/-- Which of the allocations of a call succeed. -/
structure Malloc where
  elem : Bool
  listElem : Bool
  deriving DecidableEq, Repr

variable {ρ τ : Type*}

/-- A new element. `min_wait_seq_no` is not initialised, nor read before it is set. -/
def Element.init : Element ρ τ where
  list := []
  highestSeqNo := 0
  gtidWaiter := none
  minWaitSeqNo := 0
  ownerRli := none
  ownerCount := 0

def SlaveState.init (batch : Nat) : SlaveState ρ τ where
  elem := none
  lastSubId := 0
  pendingGtidCount := 0
  cleanupBatchSize := batch

def SlaveState.getElement (s : SlaveState ρ τ) (malloc : Bool) : Option (Element ρ τ) :=
  match s.elem with
  | some e => some e
  | none => if malloc then some Element.init else none

/-- The part of `update_nolock()` about the position. -/
def Element.raise (e : Element ρ τ) (seqNo : Nat) : Element ρ τ :=
  if seqNo > e.highestSeqNo then { e with highestSeqNo := seqNo } else e

/-- The part of `update_nolock()` about `MASTER_GTID_WAIT()`. -/
def Element.wakeWaiter (e : Element ρ τ) (seqNo : Nat) : Element ρ τ × List Signal :=
  if e.gtidWaiter.isSome ∧ e.minWaitSeqNo ≤ seqNo then
    ({ e with gtidWaiter := none }, [.waitGtid])
  else
    (e, [])

def Element.dropOwner (e : Element ρ τ) : Element ρ τ × List Signal :=
  if e.ownerCount - 1 = 0 then
    ({ e with ownerCount := e.ownerCount - 1, ownerRli := none }, [.gtidIgnoreDuplicates])
  else
    ({ e with ownerCount := e.ownerCount - 1 }, [])

/-- The part of `update_nolock()` and of `release_domain_owner()` about
`--gtid-ignore-duplicates`. -/
def Element.release (e : Element ρ τ) (duplicate : DuplicateState) : Element ρ τ × List Signal :=
  if duplicate = .owner then e.dropOwner else (e, [])

/-- What `update_nolock()` changes, signals and returns. `duplicate` is the state of the
event group, if there is one. -/
structure Updated (ρ τ : Type*) where
  state : SlaveState ρ τ
  duplicate : Option DuplicateState
  signals : List Signal
  res : Nat

def SlaveState.updateNolock (s : SlaveState ρ τ) (malloc : Malloc) (l : ListElement)
    (duplicate : Option DuplicateState) : Updated ρ τ :=
  match s.getElement malloc.elem with
  | none => ⟨s, duplicate, [], 1⟩
  | some e =>
    let (e, wake) := (e.raise l.seqNo).wakeWaiter l.seqNo
    let (e, free) := match duplicate with
      | some d => e.release d
      | none => (e, [])
    let duplicate := duplicate.map fun _ => .null
    if malloc.listElem then
      let pending := s.pendingGtidCount + 1
      let cleanup := s.cleanupBatchSize ≤ pending
      ⟨{ s with
          elem := some { e with list := l :: e.list }
          lastSubId := if s.lastSubId < l.subId then l.subId else s.lastSubId
          pendingGtidCount := if cleanup then 0 else pending },
        duplicate, wake ++ free ++ if cleanup then [.gtidPendingDelete] else [], 0⟩
    else
      ⟨{ s with elem := some e }, duplicate, wake ++ free, 1⟩

namespace SlaveState

def element (s : SlaveState ρ τ) : Element ρ τ := s.elem.getD .init

def highestSeqNo (s : SlaveState ρ τ) : Nat := s.element.highestSeqNo

def gtidWaiter (s : SlaveState ρ τ) : Option τ := s.element.gtidWaiter

def minWaitSeqNo (s : SlaveState ρ τ) : Nat := s.element.minWaitSeqNo

def ownerRli (s : SlaveState ρ τ) : Option ρ := s.element.ownerRli

def ownerCount (s : SlaveState ρ τ) : Nat := s.element.ownerCount

@[simp]
lemma element_mk (e : Element ρ τ) (lastSubId pending batch : Nat) :
    (⟨some e, lastSubId, pending, batch⟩ : SlaveState ρ τ).element = e := rfl

variable {s : SlaveState ρ τ}

lemma getElement_eq_some {malloc : Bool} {e : Element ρ τ}
    (h : s.getElement malloc = some e) : e = s.element := by
  grind [getElement, element]

lemma updateNolock_of_getElement_none {malloc : Malloc} (h : s.getElement malloc.elem = none) :
    s.updateNolock malloc l d = ⟨s, d, [], 1⟩ := by
  unfold updateNolock
  rw [h]

end SlaveState

namespace Element

variable (e : Element ρ τ)

@[simp]
lemma raise_fields (n : Nat) :
    (e.raise n).highestSeqNo = max e.highestSeqNo n ∧ (e.raise n).gtidWaiter = e.gtidWaiter ∧
      (e.raise n).minWaitSeqNo = e.minWaitSeqNo ∧ (e.raise n).ownerRli = e.ownerRli ∧
      (e.raise n).ownerCount = e.ownerCount := by
  unfold raise
  split_ifs <;> simp <;> omega

@[simp]
lemma wakeWaiter_fields (n : Nat) : (e.wakeWaiter n).1.highestSeqNo = e.highestSeqNo ∧
      (e.wakeWaiter n).1.minWaitSeqNo = e.minWaitSeqNo ∧
      (e.wakeWaiter n).1.ownerRli = e.ownerRli ∧
      (e.wakeWaiter n).1.ownerCount = e.ownerCount := by
  unfold wakeWaiter
  split_ifs <;> simp

@[simp]
lemma release_fields (d : DuplicateState) :
    (e.release d).1.highestSeqNo = e.highestSeqNo ∧ (e.release d).1.gtidWaiter = e.gtidWaiter ∧
      (e.release d).1.minWaitSeqNo = e.minWaitSeqNo := by
  unfold release dropOwner
  split_ifs <;> simp

lemma wakeWaiter_cases (n : Nat) :
    ((e.wakeWaiter n).2 = [.waitGtid] ∧ (e.wakeWaiter n).1.gtidWaiter = none) ∨
      ((e.wakeWaiter n).2 = [] ∧ (e.wakeWaiter n).1.gtidWaiter = e.gtidWaiter ∧
        (e.gtidWaiter.isSome → n < e.minWaitSeqNo)) := by
  grind [wakeWaiter]

lemma waitGtid_notMem_release (d : DuplicateState) : .waitGtid ∉ (e.release d).2 := by
  unfold release dropOwner
  split_ifs <;> simp

end Element

/-- An update wakes the thread that is registered when it reaches the sequence number of that
thread, and otherwise leaves it registered. -/
lemma SlaveState.updateNolock_waiter {s : SlaveState ρ τ} {malloc : Malloc} {l : ListElement}
    {d : Option DuplicateState} {e : Element ρ τ} (h : s.getElement malloc.elem = some e) :
    let r := s.updateNolock malloc l d
    r.state.elem.isSome ∧ r.state.highestSeqNo = max s.highestSeqNo l.seqNo ∧
    r.state.minWaitSeqNo = s.minWaitSeqNo ∧
    (.waitGtid ∈ r.signals ∧ r.state.gtidWaiter = none ∨
      .waitGtid ∉ r.signals ∧ r.state.gtidWaiter = s.gtidWaiter ∧
        (s.gtidWaiter.isSome → l.seqNo < s.minWaitSeqNo)) := by
  obtain rfl := getElement_eq_some h
  have hwake := (s.element.raise l.seqNo).wakeWaiter_cases l.seqNo
  have hrelease := ((s.element.raise l.seqNo).wakeWaiter l.seqNo).1.waitGtid_notMem_release
  simp only [Element.raise_fields] at hwake
  unfold updateNolock
  rw [h]
  rcases hwake with ⟨hsignal, hnone⟩ | ⟨hsignal, hsame, hlt⟩
  · cases d <;> dsimp only <;> split <;> exact ⟨rfl, by simp [highestSeqNo],
      by simp [minWaitSeqNo], .inl ⟨by simp [hsignal], by simpa [gtidWaiter] using hnone⟩⟩
  · cases d <;> dsimp only <;> split <;> exact ⟨rfl, by simp [highestSeqNo],
      by simp [minWaitSeqNo], .inr ⟨by simp [hsignal, hrelease], by simpa [gtidWaiter] using hsame,
        hlt⟩⟩

end MariaDB.Rpl
