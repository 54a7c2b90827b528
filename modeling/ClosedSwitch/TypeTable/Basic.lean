/-!
# Types

What a type declares, and the table of all types of a program. A declaration is written with
references to other types: names while it is read, numbers once it is in the table.
-/

namespace ClosedSwitch

/-- Types are numbered by their place in the table. The numbers have no bound: a program of more
than 2^32 types, whose numbers exceed 32 bits, is not described. -/
abbrev TypeId := Nat

inductive Accessibility where
  | privateAccess
  | privateProtected
  | protectedAccess
  | internal
  | protectedInternal
  | publicAccess
deriving DecidableEq, Repr

/-- An instance constructor; a parameter without a named type is `none`. -/
structure Constructor (τ : Type) where
  accessibility : Accessibility
  parameters : List (Option τ) := []
deriving DecidableEq, Repr

/-- A property; its type is `none` when it is not a named type. -/
structure Property (τ : Type) where
  name : String
  type : Option τ
deriving DecidableEq, Repr

/-- What a type declares, with references to other types of type `τ`. -/
structure TypeShape (τ : Type) where
  name : String
  isAbstract : Bool := false
  isSealed : Bool := false
  base : Option τ := none
  interfaces : List τ := []
  constructors : List (Constructor τ) := []
  members : List String := []
  properties : List (Property τ) := []
  /-- The out-parameters of each deconstructor. -/
  deconstructors : List (List (Option τ)) := []
deriving DecidableEq, Repr

/-- A type of the table: its qualified name, what it declares, and the types nested in it. -/
structure TypeEntry extends TypeShape TypeId where
  nested : List TypeId := []
deriving DecidableEq, Repr

instance : Inhabited TypeEntry := ⟨{ name := "" }⟩

structure TypeTable where
  entries : Array TypeEntry
deriving DecidableEq, Repr

/-- A protected constructor whose only parameter is of the constructed type `t`. -/
def Constructor.isCopyOf (c : Constructor TypeId) (t : TypeId) : Bool :=
  c.accessibility = .protectedAccess && c.parameters = [some t]

/-- The member that every record has. -/
def cloneMember : String := "<Clone>$"

namespace TypeTable

def size (T : TypeTable) : Nat := T.entries.size

/-- The entry of a type; a number beyond the table stands for a type that declares nothing. -/
def entry (T : TypeTable) (t : TypeId) : TypeEntry := T.entries.getD t default

def name (T : TypeTable) (t : TypeId) : String := (T.entry t).name

def base? (T : TypeTable) (t : TypeId) : Option TypeId := (T.entry t).base

def hasMember (T : TypeTable) (t : TypeId) (name : String) : Bool :=
  (T.entry t).members.contains name

def isRecord (T : TypeTable) (t : TypeId) : Bool := T.hasMember t cloneMember

/-- The qualified names of all types, in the order of the table. -/
def names (T : TypeTable) : List String := T.entries.toList.map (·.name)

/-- The type with a qualified name. -/
def find? (T : TypeTable) (name : String) : Option TypeId := T.names.idxOf? name

end TypeTable

end ClosedSwitch
