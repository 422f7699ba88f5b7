import MariaDB.Trx.ReadView

/-!
# Read-write transactions and snapshots

`rw_trx_vector` and the counters of `trx_sys_t` as a system that takes one atomic
access at a time: a load, a store or a fetch-add of `m_max_trx_id`,
`m_rw_trx_hash_version` or a slot. Any number of transactions and of threads in
`ReadViewBase::snapshot()` run in any order. The latch of the vector is held shared
from the first to the last access of a call, so it only excludes `register_trx()` and
`deregister_trx()`, which hold it exclusively and are one step each.

The list of all read-write transactions there ever were and the list of all views are
the history of a run. Nothing that a thread does depends on the transactions that are
deregistered or on the views.
-/
namespace MariaDB.Trx

def trxIdMax : Nat := 2 ^ 64 - 1

structure RwTrxId where
  id : Nat := trxIdMax
  no : Nat := trxIdMax
  deriving DecidableEq, Repr

inductive Phase
  /-- `register_rw()` has fetched an identifier. -/
  | gotId
  /-- The identifier is in the slot. -/
  | storedId
  /-- `register_rw()` is finished. -/
  | active
  /-- `assign_new_trx_no()` has fetched a serialisation number. -/
  | gotNo
  /-- The number is in the slot. -/
  | storedNo
  /-- `assign_new_trx_no()` is finished. -/
  | numbered
  /-- `deregister_rw()` has removed the identifier from the slot. -/
  | clearedId
  /-- `deregister_rw()` is finished. -/
  | deregistered
  deriving DecidableEq, Repr

namespace Phase

/-- A number was fetched, and `m_rw_trx_hash_version` does not count it yet. -/
def pending : Phase → Bool
  | gotId | storedId | gotNo | storedNo => true
  | _ => false

def alive : Phase → Bool
  | storedId | active | gotNo | storedNo | numbered => true
  | _ => false

def dead : Phase → Bool
  | clearedId | deregistered => true
  | _ => false

def latched : Phase → Bool
  | gotId | storedId | gotNo | storedNo | clearedId => true
  | _ => false

end Phase

/-- A read-write transaction of the transaction object `trx`, which owns a slot. -/
structure RwTrx where
  trx : Nat
  id : Nat
  no : Option Nat
  phase : Phase
  deriving DecidableEq, Repr

/-- The variables of `rw_trx_vector::snapshot_ids()`. -/
structure Scan where
  maxTrxId : Nat
  pos : Nat
  ids : List Nat
  minTrxNo : Nat
  deriving DecidableEq, Repr

/-- How far a thread in `ReadViewBase::snapshot()` is. `before` are the identifiers that
were deregistered when it began. -/
inductive Reader
  | idle
  | start (before : List Nat)
  /-- `m_rw_trx_hash_version` was read. -/
  | loaded (before : List Nat) (version : Nat)
  /-- About to read the identifier of the next slot. -/
  | scanId (before : List Nat) (scan : Scan)
  /-- The identifier of the slot was read and collected; about to read the number. -/
  | scanNo (before : List Nat) (scan : Scan)
  deriving DecidableEq, Repr

def Reader.latched : Reader → Bool
  | scanId .. | scanNo .. => true
  | _ => false

/-- A view, and the identifiers that were deregistered when the snapshot began and when it
ended. -/
structure TakenView where
  view : ReadViewBase
  before : List Nat
  after : List Nat

/-- The system with `n` threads that take snapshots. `ids` are the slots by the object
that owns them and `trxs` is the order of the slots in the vector. `refreshing` counts
the calls of `get_new_trx_id()` that have not incremented the version yet. -/
structure TrxSys (n : Nat) where
  maxTrxId : Nat
  rwTrxHashVersion : Nat
  trxs : List Nat
  ids : Nat → RwTrxId
  trx : List RwTrx
  refreshing : Nat
  readers : Fin n → Reader
  views : List TakenView

inductive Action (n : Nat)
  | registerTrx (o : Nat)
  | deregisterTrx (o : Nat)
  /-- Start `register_rw()`. -/
  | registerRw (o : Nat)
  /-- Start `assign_new_trx_no()`. -/
  | assignNewTrxNo (k : Nat)
  /-- Start `deregister_rw()`. -/
  | deregisterRw (k : Nat)
  /-- The next access of the call that a transaction is in. -/
  | advance (k : Nat)
  /-- Start `get_new_trx_id()`, which is not for a transaction. -/
  | getNewTrxId
  /-- End `get_new_trx_id()`. -/
  | refreshRwTrxHashVersion
  /-- Start `ReadViewBase::snapshot()`. -/
  | snapshot (r : Fin n)
  /-- The next access of the snapshot. -/
  | read (r : Fin n)
  deriving DecidableEq, Repr

namespace TrxSys

variable {n : Nat}

/-- `init_max_trx_id()` on an empty vector. -/
def init (n value : Nat) : TrxSys n := ⟨value, value, [], fun _ => {}, [], 0, fun _ => .idle, []⟩

def LatchFree (s : TrxSys n) : Prop :=
  (∀ t ∈ s.trx, t.phase.latched = false) ∧ ∀ r, (s.readers r).latched = false

instance (s : TrxSys n) : Decidable s.LatchFree := inferInstanceAs (Decidable (_ ∧ _))

def Idle (s : TrxSys n) (o : Nat) : Prop := ∀ t ∈ s.trx, t.trx = o → t.phase = .deregistered

instance (s : TrxSys n) (o : Nat) : Decidable (s.Idle o) :=
  inferInstanceAs (Decidable (∀ t ∈ s.trx, _))

def deadIds (s : TrxSys n) : List Nat := (s.trx.filter (·.phase.dead)).map (·.id)

def swapRemove (trxs : List Nat) (o : Nat) : List Nat :=
  let i := trxs.idxOf o
  (if i + 1 < trxs.length then trxs.set i (trxs.getLastD 0) else trxs).dropLast

/-- The next access of a transaction: its state, its slot and the increment of the version. -/
def advanceTrx (t : RwTrx) (slot : RwTrxId) : Option (RwTrx × RwTrxId × Nat) :=
  match t.phase with
  | .gotId => some ({ t with phase := .storedId }, { slot with id := t.id }, 0)
  | .storedId => some ({ t with phase := .active }, slot, 1)
  | .gotNo => some ({ t with phase := .storedNo }, { slot with no := t.no.getD trxIdMax }, 0)
  | .storedNo => some ({ t with phase := .numbered }, slot, 1)
  | .clearedId => some ({ t with phase := .deregistered }, { slot with no := trxIdMax }, 0)
  | .active | .numbered | .deregistered => none

def readStep (s : TrxSys n) : Reader → Option (Reader × Option TakenView)
  | .idle => none
  | .start before => some (.loaded before s.rwTrxHashVersion, none)
  | .loaded before version =>
    if version = s.maxTrxId then some (.scanId before ⟨version, 0, [], version⟩, none)
    else some (.start before, none)
  | .scanId before scan =>
    match s.trxs[scan.pos]? with
    | none =>
      some (.idle, some ⟨.snapshot scan.maxTrxId scan.ids scan.minTrxNo, before, s.deadIds⟩)
    | some o =>
      let id := (s.ids o).id
      if id < scan.maxTrxId then some (.scanNo before { scan with ids := scan.ids ++ [id] }, none)
      else some (.scanId before { scan with pos := scan.pos + 1 }, none)
  | .scanNo before scan =>
    match s.trxs[scan.pos]? with
    | none => none
    | some o =>
      let no := (s.ids o).no
      some (.scanId before { scan with
        pos := scan.pos + 1
        minTrxNo := if no < scan.minTrxNo then no else scan.minTrxNo }, none)

def step (s : TrxSys n) : Action n → Option (TrxSys n)
  | .registerTrx o =>
    if o ∉ s.trxs ∧ s.LatchFree then
      some { s with trxs := s.trxs ++ [o], ids := Function.update s.ids o {} }
    else none
  | .deregisterTrx o =>
    if o ∈ s.trxs ∧ s.LatchFree ∧ s.Idle o then some { s with trxs := swapRemove s.trxs o }
    else none
  | .registerRw o =>
    if o ∈ s.trxs ∧ s.Idle o ∧ s.maxTrxId + 1 < trxIdMax then
      some { s with
        maxTrxId := s.maxTrxId + 1
        trx := s.trx ++ [⟨o, s.maxTrxId, none, .gotId⟩] }
    else none
  | .assignNewTrxNo k => s.trx[k]?.bind fun t =>
    if t.phase = .active ∧ s.maxTrxId + 1 < trxIdMax then
      some { s with
        maxTrxId := s.maxTrxId + 1
        trx := s.trx.set k { t with no := some s.maxTrxId, phase := .gotNo } }
    else none
  | .deregisterRw k => s.trx[k]?.bind fun t =>
    if t.phase = .active ∨ t.phase = .numbered then
      some { s with
        trx := s.trx.set k { t with phase := .clearedId }
        ids := Function.update s.ids t.trx { s.ids t.trx with id := trxIdMax } }
    else none
  | .advance k => s.trx[k]?.bind fun t => (advanceTrx t (s.ids t.trx)).map fun (t', slot, inc) =>
    { s with
      rwTrxHashVersion := s.rwTrxHashVersion + inc
      trx := s.trx.set k t'
      ids := Function.update s.ids t.trx slot }
  | .getNewTrxId =>
    if s.maxTrxId + 1 < trxIdMax then
      some { s with maxTrxId := s.maxTrxId + 1, refreshing := s.refreshing + 1 }
    else none
  | .refreshRwTrxHashVersion =>
    if 0 < s.refreshing then
      some { s with
        rwTrxHashVersion := s.rwTrxHashVersion + 1
        refreshing := s.refreshing - 1 }
    else none
  | .snapshot r =>
    if s.readers r = .idle then
      some { s with readers := Function.update s.readers r (.start s.deadIds) }
    else none
  | .read r => (s.readStep (s.readers r)).map fun (reader, view) =>
    { s with
      readers := Function.update s.readers r reader
      views := s.views ++ view.toList }

end TrxSys

end MariaDB.Trx
