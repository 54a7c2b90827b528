import ClosedSwitch.TypeTable.Basic

/-!
# Implicit conversions

A type converts to itself, to `object`, and to whatever its base types and interfaces convert to.
Interfaces may list each other in a circle, so the search keeps the types it has seen.
-/

namespace ClosedSwitch.TypeTable

/-- The number of the type `object`, the first of every table. -/
def object : TypeId := 0

/-- The base type and the interfaces of a type. -/
def supertypes (T : TypeTable) (t : TypeId) : List TypeId :=
  (T.entry t).base.toList ++ (T.entry t).interfaces

/-- The number of steps from a type to a supertype in the whole table. -/
def edgeCount (T : TypeTable) : Nat :=
  (T.entries.toList.flatMap fun e => e.base.toList ++ e.interfaces).length

/-- Whether `goal` is reached from a pending type. A type is expanded at most once, so every step
uses up a pending type or an edge, and fuel for all of them is enough. -/
def search (T : TypeTable) (goal : TypeId) : Nat → List TypeId → List TypeId → Bool
  | 0, _, _ => false
  | _, _, [] => false
  | fuel + 1, seen, t :: pending =>
    if t = goal then true
    else if t ∈ seen then search T goal fuel seen pending
    else search T goal fuel (t :: seen) (T.supertypes t ++ pending)

/-- Whether a value of type `source` is one of type `goal` without a cast. -/
def converts (T : TypeTable) (source goal : TypeId) : Bool :=
  source = goal || goal = object || T.search goal (1 + T.edgeCount) [] [source]

end ClosedSwitch.TypeTable
