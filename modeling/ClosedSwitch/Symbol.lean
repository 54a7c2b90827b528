import ClosedSwitch.Nullability
import ClosedSwitch.Pattern
import ClosedSwitch.TypeTable.Members

/-!
# Symbols

What is known about the nodes of a program: the type of each governing expression, and what each
name refers to.
-/

namespace ClosedSwitch

inductive Symbol where
  | type (t : TypeId)
  | property (type : Option TypeId)
  | deconstruct (method : DeconstructMethod)
  | value (symbol : ValueSymbol)
deriving DecidableEq, Repr

/-- The static type of an expression, if it is a named type, and its nullability. -/
structure TypeInfo where
  type : Option TypeId := none
  nullability : Nullability := {}
deriving DecidableEq, Repr

instance : Inhabited TypeInfo := ⟨{}⟩

/-- A node is a governing expression or a name; a name that is not found has no symbol. -/
inductive NodeFact where
  | governing (info : TypeInfo) (symbol : Option ValueSymbol)
  | reference (symbol : Option Symbol)
deriving DecidableEq, Repr

def NodeFact.symbol? : NodeFact → Option Symbol
  | .governing _ symbol => symbol.map .value
  | .reference symbol => symbol

def NodeFact.typeInfo? : NodeFact → Option TypeInfo
  | .governing info _ => some info
  | .reference _ => none

end ClosedSwitch
