import ClosedSwitch.TypeTable.Basic

/-!
# Closed hierarchies

A hierarchy is closed when no code outside of it can add a subtype: its root and every type in
between is abstract and cannot be constructed from outside, and every other type is sealed. A
private constructor admits the types nested in the type that has it, at any depth; only those
declared directly in their base type are considered.
-/

namespace ClosedSwitch

structure ClosedHierarchy where
  root : TypeId
  /-- The sealed types of the hierarchy, depth first. -/
  leaves : List TypeId
deriving DecidableEq, Repr

namespace TypeTable

/-- Whether a type may have subtypes inside a closed hierarchy: it is abstract and each constructor
is private or, where records are allowed, the copy constructor of a record. -/
def qualifies (T : TypeTable) (records : Bool) (t : TypeId) : Bool :=
  (T.entry t).isAbstract && (T.entry t).constructors.all fun c =>
    c.accessibility = .privateAccess || (records && T.isRecord t && c.isCopyOf t)

/-- The nested types of a type that derive from it. -/
def derived (T : TypeTable) (t : TypeId) : List TypeId :=
  (T.entry t).nested.filter fun c => T.base? c = some t

/-- The leaves below a type, or nothing if a type below it is neither sealed nor qualifies. Types
have greater numbers than the type they are nested in, so the fuel bounds the depth. -/
def leavesBelow (T : TypeTable) (records : Bool) : Nat → TypeId → Option (List TypeId)
  | 0, _ => none
  | fuel + 1, t =>
    ((T.derived t).mapM fun c =>
      if T.qualifies records c then leavesBelow T records fuel c
      else if (T.entry c).isSealed then some [c]
      else none).map List.flatten

/-- The closed hierarchy with the given root, if there is one. -/
def classify (T : TypeTable) (records : Bool) (root : TypeId) : Option ClosedHierarchy :=
  if T.qualifies records root then
    (T.leavesBelow records T.size root).map fun leaves => ⟨root, leaves⟩
  else none

end TypeTable

end ClosedSwitch
