import ClosedSwitch.TypeTable.Conversion

/-!
# Members

Properties and deconstructors are looked up along the base types, the nearest declaration first.
-/

namespace ClosedSwitch

/-- A deconstructor as a positional pattern calls it. The receiver of an extension is its first
parameter. -/
structure DeconstructMethod where
  isExtension : Bool
  parameters : List (Option TypeId)
deriving DecidableEq, Repr

/-- The type of the element at `index`, the receiver of an extension not counted. -/
def DeconstructMethod.elementType (m : DeconstructMethod) (index : Nat) : Option TypeId :=
  (m.parameters[if m.isExtension then index + 1 else index]?).join

/-- An extension deconstructor, with the out-parameters after its receiver. -/
structure Extension (τ : Type) where
  receiver : τ
  parameters : List (Option τ) := []
deriving DecidableEq, Repr

def Extension.method (e : Extension TypeId) : DeconstructMethod :=
  ⟨true, some e.receiver :: e.parameters⟩

namespace TypeTable

/-- A type and its base types, as many as the fuel allows. -/
def chainFrom (T : TypeTable) : Nat → TypeId → List TypeId
  | 0, _ => []
  | fuel + 1, t =>
    t :: match T.base? t with
      | none => []
      | some b => chainFrom T fuel b

/-- A type followed by its base types. A chain without repetitions has no more types than the
table. -/
def baseChain (T : TypeTable) (t : TypeId) : List TypeId := T.chainFrom T.size t

/-- Whether the base types of `t` come to an end within the fuel. -/
def chainEnds (T : TypeTable) : Nat → TypeId → Bool
  | 0, _ => false
  | fuel + 1, t =>
    match T.base? t with
    | none => true
    | some b => chainEnds T fuel b

/-- The type of the property called `name` on the nearest base type that declares one. -/
def findProperty? (T : TypeTable) (t : TypeId) (name : String) : Option (Option TypeId) :=
  (T.baseChain t).findSome? fun c =>
    ((T.entry c).properties.find? (·.name == name)).map (·.type)

/-- The first deconstructor with `arity` out-parameters on the nearest base type that has one. -/
def findDeconstructor? (T : TypeTable) (t : TypeId) (arity : Nat) :
    Option (List (Option TypeId)) :=
  (T.baseChain t).findSome? fun c =>
    (T.entry c).deconstructors.find? (·.length == arity)

end TypeTable

/-- The types that a program can name, and the extension deconstructors on them. -/
structure Scope where
  types : TypeTable
  extensions : List (Extension TypeId)
deriving DecidableEq, Repr

/-- The deconstructor of a positional pattern with `arity` elements: one of the type itself, or
else the first extension whose receiver the type converts to. -/
def Scope.findMethod? (S : Scope) (t : TypeId) (arity : Nat) : Option DeconstructMethod :=
  match S.types.findDeconstructor? t arity with
  | some parameters => some ⟨false, parameters⟩
  | none =>
    (S.extensions.find? fun e => e.parameters.length == arity && S.types.converts t e.receiver).map
      Extension.method

end ClosedSwitch
