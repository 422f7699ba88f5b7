import Mathlib

/-!
# The groups of a graph of intervals

`SEL_ARG::number_of_eq_groups()` counts the prefixes of key values that a graph describes. Its
loop goes over the intervals of a key part, but looks at the ends and at the next key part of
the root of their tree only.
-/
namespace MariaDB.Range

open List

inductive SelType where
  | impossible | maybe | maybeKey | keyRange
  deriving DecidableEq, Repr

/-- The values are equal if `key_cmp()` says so or if both are NULL. -/
structure Interval (κ : Type) where
  minFlag : UInt8
  maxFlag : UInt8
  minValue : κ
  maxValue : κ

/-- The intervals of a key part: those before the root of their tree, the root and those behind
it, each with the graph that follows. -/
structure SelArg (κ : Type) where
  part : Nat
  type : SelType
  before : List (Interval κ × Option (SelArg κ))
  root : Interval κ × Option (SelArg κ)
  after : List (Interval κ × Option (SelArg κ))

variable {κ : Type}

def SelArg.elements (g : SelArg κ) : List (Interval κ × Option (SelArg κ)) :=
  g.before ++ g.root :: g.after

variable [DecidableEq κ]

variable {root : Interval κ} {last : Bool} {tmp : Option Int} {l : List (Interval κ)} {e k : Int}
  {groupKeyParts n p : Nat} {g : SelArg κ}

end MariaDB.Range
