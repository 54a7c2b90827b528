import ClosedSwitch.LoadError
import ClosedSwitch.Snapshot.Basic

/-!
# Building the type table

The types of a table are the built-in ones and then the declared ones, depth first, a type before
the types nested in it. All names are known before the first reference is resolved, so a type may
refer to one declared later.
-/

namespace ClosedSwitch

/-- The types that every program has. -/
def builtinTypes : List TypeEntry :=
  [{ name := "object" }, { name := "string", isSealed := true },
    { name := "int", isSealed := true }, { name := "bool", isSealed := true }]

/-- A declaration at its place in the table: its qualified name, its references still unresolved,
and the numbers of the types nested in it. -/
structure PlacedType where
  shape : TypeShape String
  nested : List TypeId

/-- The name of a type inside the type called `enclosing`. -/
def qualify (enclosing : Option String) (name : String) : String :=
  match enclosing with
  | none => name
  | some outer => outer ++ "." ++ name

namespace TypeDecl

mutual

/-- The number of types that a declaration declares, nested ones included. -/
def count : TypeDecl → Nat
  | ⟨_, nested⟩ => 1 + countAll nested

def countAll : List TypeDecl → Nat
  | [] => 0
  | d :: rest => d.count + countAll rest

end

/-- The numbers of consecutive declarations, the first of which is `first`. -/
def ids (first : TypeId) : List TypeDecl → List TypeId
  | [] => []
  | d :: rest => first :: ids (first + d.count) rest

mutual

/-- The types of a declaration depth first, where the declaration itself has the number `id`. -/
def place (enclosing : Option String) (id : TypeId) : TypeDecl → List PlacedType
  | ⟨shape, nested⟩ =>
    let name := qualify enclosing shape.name
    ⟨{ shape with name }, ids (id + 1) nested⟩ :: placeAll (some name) (id + 1) nested

def placeAll (enclosing : Option String) (id : TypeId) : List TypeDecl → List PlacedType
  | [] => []
  | d :: rest => place enclosing id d ++ placeAll enclosing (id + d.count) rest

end

end TypeDecl

/-- The first name that is equal to one before it. -/
def firstRepeated? (seen : List String) : List String → Option String
  | [] => none
  | name :: rest => if name ∈ seen then some name else firstRepeated? (name :: seen) rest

/-- A reference to a type from the type or extension called `owner`. -/
def requireType (find? : String → Option TypeId) (owner name : String) :
    Except LoadError TypeId :=
  match find? name with
  | some t => .ok t
  | none => .error (.unknownType name owner)

/-- Resolves the references of a type in the order base, interfaces, constructors, properties,
deconstructors. -/
def TypeShape.resolve (require : String → Except LoadError TypeId) (s : TypeShape String) :
    Except LoadError (TypeShape TypeId) := do
  let base ← s.base.mapM require
  let interfaces ← s.interfaces.mapM require
  let constructors ← s.constructors.mapM fun c => do
    return ⟨c.accessibility, ← c.parameters.mapM (·.mapM require)⟩
  let properties ← s.properties.mapM fun p => do return ⟨p.name, ← p.type.mapM require⟩
  let deconstructors ← s.deconstructors.mapM (·.mapM (·.mapM require))
  return { s with base, interfaces, constructors, properties, deconstructors }

def PlacedType.define (find? : String → Option TypeId) (p : PlacedType) :
    Except LoadError TypeEntry := do
  return { ← p.shape.resolve (requireType find? p.shape.name) with nested := p.nested }

/-- The first type whose base types do not come to an end. -/
def TypeTable.cyclicType? (T : TypeTable) : Option TypeId :=
  (List.range T.size).find? fun t => !T.chainEnds T.size t

def TypeTable.load (decls : List TypeDecl) : Except LoadError TypeTable :=
  let placed := TypeDecl.placeAll none builtinTypes.length decls
  let names := builtinTypes.map (·.name) ++ placed.map (·.shape.name)
  match firstRepeated? [] names with
  | some name => .error (.duplicateType name)
  | none => do
    let entries ← placed.mapM (PlacedType.define names.idxOf?)
    let table : TypeTable := ⟨(builtinTypes ++ entries).toArray⟩
    match table.cyclicType? with
    | some t => .error (.cyclicBase (table.name t))
    | none => .ok table

end ClosedSwitch
