import MariaDB.Library.Transition
import MariaDB.Rpl.SlaveState

/-!
# Event groups under `--gtid-ignore-duplicates`

Any number of master connections receive event groups of one domain, each executed by a
worker with its own `rpl_group_info`. A call of `check_duplicate_gtid()` is a sequence of
passes of its loop. Each pass runs under `LOCK_slave_state` and ends with a result or in the
wait for `COND_gtid_ignore_duplicates`, from which the worker may come back at any time to
make the next pass. The commit and the release of an event group are one step each.
-/
namespace MariaDB.Rpl

/-- `rpl_group_info`, with the sequence number of `current_gtid`. -/
structure GroupInfo (ρ : Type*) where
  rli : ρ
  seqNo : Nat
  duplicate : DuplicateState
  deriving DecidableEq, Repr

/-- How a pass of the loop in `check_duplicate_gtid()` ends. -/
inductive CheckResult
  | returns (res : Int)
  | waits
  deriving DecidableEq, Repr

variable {ρ τ γ : Type*} [DecidableEq ρ]

/-- One pass of the loop in `check_duplicate_gtid(&rgi->current_gtid, rgi)`. -/
def SlaveState.checkDuplicateGtid (s : SlaveState ρ τ) (malloc killed : Bool)
    (rgi : GroupInfo ρ) : SlaveState ρ τ × GroupInfo ρ × CheckResult :=
  match s.getElement malloc with
  | none => (s, rgi, .returns (-1))
  | some e =>
    if e.highestSeqNo ≥ rgi.seqNo then
      ({ s with elem := some e }, { rgi with duplicate := .ignore }, .returns 0)
    else match e.ownerRli with
      | none =>
        ({ s with elem := some { e with ownerRli := some rgi.rli, ownerCount := 1 } },
          { rgi with duplicate := .owner }, .returns 1)
      | some owner =>
        if owner = rgi.rli then
          ({ s with elem := some { e with ownerCount := e.ownerCount + 1 } },
            { rgi with duplicate := .owner }, .returns 1)
        else if killed then
          ({ s with elem := some e }, rgi, .returns (-1))
        else
          ({ s with elem := some e }, rgi, .waits)

def SlaveState.releaseDomainOwner (s : SlaveState ρ τ) (malloc : Bool) (rgi : GroupInfo ρ) :
    SlaveState ρ τ × GroupInfo ρ × List Signal :=
  match s.getElement malloc with
  | none => (s, rgi, [])
  | some e =>
    let (e, free) := e.release rgi.duplicate
    ({ s with elem := some e }, { rgi with duplicate := .null }, free)

structure Slave (γ ρ τ : Type*) where
  state : SlaveState ρ τ
  rgi : γ → GroupInfo ρ

/-- A step of a worker or of another thread that updates the position. -/
inductive SlaveAction (γ ρ : Type*)
  /-- `rpl_group_info::reinit()`. -/
  | reinit (g : γ) (rli : ρ)
  /-- `event_group_new_gtid()`. -/
  | eventGroupNewGtid (g : γ) (seqNo : Nat)
  /-- A pass of `check_duplicate_gtid()`. -/
  | checkDuplicateGtid (g : γ) (malloc killed : Bool)
  /-- The end of an event group that is skipped, in `record_and_update_gtid()`. -/
  | skipped (g : γ)
  /-- `update_state_hash()` for an event group. -/
  | commit (g : γ) (malloc : Malloc) (subId serverId : Nat) (hton : Option Nat)
  /-- `update_nolock()` without an event group. -/
  | update (malloc : Malloc) (l : ListElement)
  /-- `release_domain_owner()`. -/
  | releaseDomainOwner (g : γ) (malloc : Bool)

namespace Slave

def init (batch : Nat) (rli : γ → ρ) : Slave γ ρ τ where
  state := .init batch
  rgi g := { rli := rli g, seqNo := 0, duplicate := .null }

def setRgi [DecidableEq γ] (s : Slave γ ρ τ) (state : SlaveState ρ τ) (g : γ) (rgi : GroupInfo ρ) :
    Slave γ ρ τ where
  state := state
  rgi := Function.update s.rgi g rgi

def row (s : Slave γ ρ τ) (g : γ) (subId serverId : Nat) (hton : Option Nat) : ListElement where
  subId := subId
  serverId := serverId
  seqNo := (s.rgi g).seqNo
  hton := hton

/-- The steps of the workers. A call of `check_duplicate_gtid()` that returned 1 is matched
by a commit or by `release_domain_owner()` before the worker goes on to another event group,
as `finish_event_group()` asserts. -/
def step [DecidableEq γ] (s : Slave γ ρ τ) : SlaveAction γ ρ → Option (Slave γ ρ τ)
  | .reinit g rli =>
    if (s.rgi g).duplicate = .owner then none
    else some (s.setRgi s.state g { s.rgi g with rli := rli, duplicate := .null })
  | .eventGroupNewGtid g seqNo =>
    if (s.rgi g).duplicate = .owner then none
    else some (s.setRgi s.state g { s.rgi g with seqNo := seqNo })
  | .checkDuplicateGtid g malloc killed =>
    if (s.rgi g).duplicate = .owner then none
    else
      let c := s.state.checkDuplicateGtid malloc killed (s.rgi g)
      some (s.setRgi c.1 g c.2.1)
  | .skipped g =>
    if (s.rgi g).duplicate = .ignore then
      some (s.setRgi s.state g { s.rgi g with duplicate := .null })
    else none
  | .commit g malloc subId serverId hton =>
    let u := s.state.updateNolock malloc (s.row g subId serverId hton) (some (s.rgi g).duplicate)
    some (s.setRgi u.state g { s.rgi g with duplicate := u.duplicate.getD .null })
  | .update malloc l =>
    some { s with state := (s.state.updateNolock malloc l none).state }
  | .releaseDomainOwner g malloc =>
    let r := s.state.releaseDomainOwner malloc (s.rgi g)
    some (s.setRgi r.1 g r.2.1)

/-- The sequence number that a step commits in the domain. Where the element is neither there
nor can be allocated, `update_nolock()` records nothing. -/
def commits (s : Slave γ ρ τ) : SlaveAction γ ρ → Option Nat
  | .commit g malloc _ _ _ => (s.state.getElement malloc.elem).map fun _ => (s.rgi g).seqNo
  | .update malloc l => (s.state.getElement malloc.elem).map fun _ => l.seqNo
  | _ => none

end Slave

end MariaDB.Rpl
