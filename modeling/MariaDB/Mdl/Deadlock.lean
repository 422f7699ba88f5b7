import MariaDB.Mdl.Lock

/-!
# Search for deadlocks

A context that waits has an edge to every context whose granted or waiting ticket stands
in the way of its request. `find_deadlock` walks this graph depth first from the context
that is about to wait, without marking what it has visited: it takes a walk of
`MAX_SEARCH_DEPTH` nodes for a deadlock as well as one that comes back to the start. One
context on the walk is made the victim, and the search is repeated until the start is the
victim or nothing is found. The graph does not change during the search.
-/
namespace MariaDB.Mdl

variable {ι κ T L : Type*}

def maxSearchDepth : Nat := 32

/-- `MDL_ticket::get_deadlock_weight`, outside of the backup namespace. -/
def MdlType.deadlockWeight : MdlType → Nat
  | .sharedUpgradable | .sharedReadOnly | .sharedNoWrite | .sharedNoReadWrite | .exclusive => 100
  | _ => 1

/-- `MDL_ticket::get_deadlock_weight`, in the backup namespace. -/
def BackupType.deadlockWeight : BackupType → Nat
  | .ftwrl1 => 0
  | _ => 100

/-- The locks, and for each context the lock and the type that it waits for. -/
structure WaitGraph (ι κ T L : Type*) where
  lock : L → Lock ι κ T
  strategy : L → Strategy T
  deadlockWeight : L → T → Nat
  waitingFor : κ → Option (L × T)

/-- What the search changes: wait slots, and how often a context was the victim. -/
structure Search (κ : Type*) where
  slot : κ → WaitStatus
  deadlockOverweight : κ → Nat

def Search.makeVictim [DecidableEq κ] (s : Search κ) (c : κ) : Search κ where
  slot := if s.slot c = .empty then Function.update s.slot c .victim else s.slot
  deadlockOverweight :=
    Function.update s.deadlockOverweight c (s.deadlockOverweight c + 1)

/-- `Deadlock_detection_visitor`. -/
structure Visitor (κ : Type*) where
  startNode : κ
  victim : Option κ
  currentSearchDepth : Nat
  foundDeadlock : Bool

namespace WaitGraph

variable [DecidableEq κ] [DecidableEq T]

variable (g : WaitGraph ι κ T L)

/-- The contexts that a context waits for, in the order in which they are visited. -/
def edges (c : κ) : List κ :=
  match g.waitingFor c with
  | none => []
  | some (l, type) =>
    ((g.lock l).granted.list.filter fun u =>
      u.ctx ≠ c ∧ u.type ∈ (g.strategy l).grantedIncompatible type).map (·.ctx) ++
    ((g.lock l).waiting.list.filter fun u =>
      u.ctx ≠ c ∧ u.type ∈ (g.strategy l).waitingIncompatible type).map (·.ctx)

/-- `MDL_context::get_deadlock_weight`, for a context that waits. -/
def weight (s : Search κ) (c : κ) : Nat :=
  (g.waitingFor c).elim 0 (fun w => g.deadlockWeight w.1 w.2) + s.deadlockOverweight c

def optChangeVictimTo (s : Search κ) (v : Visitor κ) (new : κ) :
    Visitor κ :=
  match v.victim with
  | none => { v with victim := some new }
  | some old => if g.weight s new ≤ g.weight s old then { v with victim := some new } else v

def enterNode (s : Search κ) (v : Visitor κ) (node : κ) :
    Bool × Visitor κ :=
  let v := { v with
    currentSearchDepth := v.currentSearchDepth + 1
    foundDeadlock := maxSearchDepth ≤ v.currentSearchDepth + 1 }
  if v.foundDeadlock then (true, g.optChangeVictimTo s v node) else (false, v)

def leaveNode (s : Search κ) (v : Visitor κ) (node : κ) : Visitor κ :=
  let v := { v with currentSearchDepth := v.currentSearchDepth - 1 }
  if v.foundDeadlock then g.optChangeVictimTo s v node else v

def inspectEdge (v : Visitor κ) (node : κ) : Bool × Visitor κ :=
  (node = v.startNode, { v with foundDeadlock := node = v.startNode })

/-- The loops that inspect the edges, until one leads to the start. -/
def inspectEdges : List κ → Visitor κ → Bool × Visitor κ
  | [], v => (false, v)
  | c :: cs, v =>
    let r := inspectEdge v c
    if r.1 then r else inspectEdges cs r.2

/-- The loops that recurse into the adjacent nodes, until a deadlock is found. -/
def visitNodes (visit : κ → Visitor κ → Option (Bool × Visitor κ)) :
    List κ → Visitor κ → Option (Bool × Visitor κ)
  | [], v => some (false, v)
  | c :: cs, v =>
    (visit c v).bind fun r => if r.1 then some r else visitNodes visit cs r.2

/-- `MDL_context::visit_subgraph` and `MDL_lock::visit_subgraph`; `none` if the recursion
is deeper than the fuel. -/
def visitSubgraph (g : WaitGraph ι κ T L) (s : Search κ) :
    Nat → κ → Visitor κ → Option (Bool × Visitor κ)
  | 0, _, _ => none
  | fuel + 1, c, v =>
    if g.waitingFor c = none ∨ s.slot c ≠ .empty then some (false, v)
    else
      let r := g.enterNode s v c
      if r.1 then some r
      else
        let r := inspectEdges (g.edges c) r.2
        if r.1 then some (true, g.leaveNode s r.2 c)
        else (visitNodes (visitSubgraph g s fuel) (g.edges c) r.2).map fun r =>
          (r.1, g.leaveNode s r.2 c)

/-- `find_deadlock`; `none` if it takes more turns, or deeper recursion, than the fuel. -/
def findDeadlock (g : WaitGraph ι κ T L) (start : κ) : Nat → Search κ → Option (Search κ)
  | 0, _ => none
  | fuel + 1, s =>
    (g.visitSubgraph s fuel start ⟨start, none, 0, false⟩).bind fun r =>
      if r.1 then
        r.2.victim.bind fun victim =>
          let s := s.makeVictim victim
          if victim = start then some s else findDeadlock g start fuel s
      else some s

end WaitGraph

end MariaDB.Mdl
