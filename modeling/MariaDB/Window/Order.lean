import MariaDB.Library.BubbleSort
import MariaDB.Window.Lists

/-!
# Sorts for the window functions of a query

The window functions are sorted so that those which can use one sort of the rows are
neighbours. Neighbours that can share a sort go into one `Window_funcs_sort`, and the rows are
sorted by the longest list in the group. The comparison also lets specifications with equal
lists use one of the two lists.
-/
namespace MariaDB.Window

/-- `Window_spec`; `F` are the window frames. -/
structure Spec (F : Type) where
  /-- The specification has a name. -/
  named : Bool
  partitionList : List Order
  orderList : List Order
  frame : F

/-- The lists that `join_partition_and_order_lists()` makes one. -/
def Spec.joined {F : Type} (spec : Spec F) : List Order := spec.partitionList ++ spec.orderList

structure WinFunc where
  id : Nat
  spec : Nat
  deriving DecidableEq, Repr

variable {F : Type}

/-- The specifications by their `win_spec_number`. -/
abbrev Specs (F : Type) := Nat → Spec F

/-- Only one of two equal lists is used: that of a specification with a name, or the first
one. `set` replaces the list of a specification. -/
def useOne {α : Type} (specs : Specs F) (get : Spec F → α) (set : Spec F → α → Spec F)
    (n1 n2 : Nat) : Specs F :=
  if (specs n1).named = false ∧ (specs n2).named = true then
    Function.update specs n1 (set (specs n1) (get (specs n2)))
  else Function.update specs n2 (set (specs n2) (get (specs n1)))

def compareJoinedLists (specs : Specs F) (n1 n2 : Nat) : Cmp :=
  compareOrderLists (specs n1).joined n1 (specs n2).joined n2

variable (frameCmp : F → F → Cmp)

/-- The part of `compare_window_funcs_by_window_specs()` for equal partition lists. -/
def compareOrders (specs : Specs F) (n1 n2 : Nat) : Cmp × Specs F :=
  let specs := useOne specs (·.partitionList) (fun s l => { s with partitionList := l }) n1 n2
  match compareOrderLists (specs n1).orderList n1 (specs n2).orderList n2 with
  | .eq =>
    let specs := useOne specs (·.orderList) (fun s l => { s with orderList := l }) n1 n2
    match frameCmp (specs n1).frame (specs n2).frame with
    | .eq => (.eq, useOne specs (·.frame) (fun s f => { s with frame := f }) n1 n2)
    | cmp => (cmp, specs)
  | cmp => (cmp, specs)

def compareWindowFuncs (specs : Specs F) (f1 f2 : WinFunc) :
    Cmp × Specs F :=
  let n1 := f1.spec
  let n2 := f2.spec
  if n1 = n2 then (.eq, specs)
  else
    match compareOrderLists (specs n1).partitionList n1 (specs n2).partitionList n2 with
    | .eq => compareOrders frameCmp specs n1 n2
    | .gt => (.gt, specs)
    | .lt => (.lt, specs)
    | _ =>
      -- one of the partition lists is the beginning of the other
      let cmp := compareJoinedLists specs n1 n2
      if cmp.compatible then
        (if (specs n1).partitionList.length < (specs n2).partitionList.length then .gtC else .ltC,
          specs)
      else (cmp, specs)

/-- The marker `MARKER_SORTORDER_CHANGE` of a function behind `prev`. -/
def sortOrderChange (specs : Specs F) (prev curr : WinFunc) : Bool :=
  let p := specs prev.spec
  let c := specs curr.spec
  if p.partitionList = c.partitionList ∧ p.orderList = c.orderList then false
  else if p.partitionList = c.partitionList then
    !(compareOrderLists p.orderList prev.spec c.orderList curr.spec).compatible
  else !(compareJoinedLists specs prev.spec curr.spec).compatible

/-- The functions up to the next one with the marker: those after `prev`, and the rest. -/
def takeGroup (specs : Specs F) (prev : WinFunc) : List WinFunc → List WinFunc × List WinFunc
  | [] => ([], [])
  | curr :: rest =>
    if sortOrderChange specs prev curr then ([], curr :: rest)
    else
      let (group, rest) := takeGroup specs curr rest
      (curr :: group, rest)

/-- `Window_funcs_sort`: its functions and the order of the rows. -/
structure WindowSort where
  funcs : List WinFunc
  order : List Order
  deriving DecidableEq, Repr

/-- The number of elements of a function's lists, constants included. -/
def orderElements (specs : Specs F) (f : WinFunc) : Nat :=
  (specs f.spec).partitionList.length + (specs f.spec).orderList.length

def longest (specs : Specs F) (best : WinFunc) : List WinFunc → WinFunc
  | [] => best
  | f :: rest =>
    longest specs (if orderElements specs best ≤ orderElements specs f then f else best) rest

/-- The order of the rows: without any element, the first field of the table. -/
def sortOrder (l : List Order) : List Order :=
  if l = [] then [⟨.field 0, .asc⟩] else l

def sortSetup (specs : Specs F) (first : WinFunc) (group : List WinFunc) : WindowSort :=
  ⟨first :: group, sortOrder (specs (longest specs first group).spec).joined⟩

/-- The loop of `Window_funcs_computation::setup()`. -/
def makeSorts (specs : Specs F) : Nat → List WinFunc → List WindowSort
  | 0, _ => []
  | _, [] => []
  | fuel + 1, first :: rest =>
    let (group, rest) := takeGroup specs first rest
    sortSetup specs first group :: makeSorts specs fuel rest

/-- The comparison as `bubble_sort()` uses it. -/
def sortFunc (specs : Specs F) (f1 f2 : WinFunc) : Bool × Specs F :=
  let (cmp, specs) := compareWindowFuncs frameCmp specs f1 f2
  (cmp.pos, specs)

def orderWindowFuncs (specs : Specs F) (funcs : List WinFunc) :
    List WinFunc × Specs F :=
  Library.BubbleSort.sort (sortFunc frameCmp) specs funcs

def setup (specs : Specs F) (funcs : List WinFunc) : List WindowSort :=
  let (funcs, specs) := orderWindowFuncs frameCmp specs funcs
  makeSorts specs funcs.length funcs

end MariaDB.Window
