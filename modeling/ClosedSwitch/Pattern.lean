import ClosedSwitch.Span

/-!
# Patterns

The cases of a switch. The type `ν` is what stands for a name and `κ` what stands for a positional
clause: texts and nothing while a pattern is read, numbered nodes once it is bound.
-/

namespace ClosedSwitch

inductive RelationalOp where
  | less
  | lessEqual
  | greater
  | greaterEqual
deriving DecidableEq, Repr

inductive Constant (ν : Type) where
  | null
  | literal (text : String)
  | name (name : ν)
deriving DecidableEq, Repr

/-- The elements in parentheses, which a deconstructor supplies. -/
structure PositionalClause (κ π : Type) where
  label : κ
  elements : List π

/-- A member and the pattern that its value has to match. -/
structure MemberPattern (ν π : Type) where
  member : ν
  pattern : π

inductive Pattern (ν κ : Type) where
  | constant (value : Constant ν)
  | type (name : ν)
  | declaration (name : ν) (designation : Option String)
  | recursive (name : Option ν) (positional : Option (PositionalClause κ (Pattern ν κ)))
      (properties : Option (List (MemberPattern ν (Pattern ν κ)))) (designation : Option String)
  | discard
  | var (designation : Option String)
  | relational (op : RelationalOp) (value : Constant ν)
  /-- A pattern of a kind that is not described further. -/
  | undescribed

instance {ν κ : Type} : Inhabited (Pattern ν κ) := ⟨.discard⟩

/-- A pattern that may be followed by a guard. -/
structure Case (ν κ : Type) where
  pattern : Pattern ν κ
  isGuarded : Bool := false
  span : Span := default

/-- A label of a switch statement. -/
inductive Label (ν κ : Type) where
  | value (constant : Constant ν) (span : Span)
  | case (case : Case ν κ)
  | otherwise (span : Span)

/-- Names are numbered nodes once they are bound. As with types, the numbers have no bound, and a
program of 2^32 nodes or more is not described. -/
abbrev NodeId := Nat

abbrev DeclaredConstant := Constant String
abbrev DeclaredPattern := Pattern String Unit
abbrev DeclaredCase := Case String Unit
abbrev DeclaredLabel := Label String Unit

abbrev BoundConstant := Constant NodeId
abbrev BoundPattern := Pattern NodeId NodeId
abbrev BoundCase := Case NodeId NodeId
abbrev BoundLabel := Label NodeId NodeId

/-! ## The number of names and clauses -/

def Constant.nodeCount {ν : Type} : Constant ν → Nat
  | .name _ => 1
  | _ => 0

def nameNodeCount {ν : Type} : Option ν → Nat
  | none => 0
  | some _ => 1

mutual

/-- The number of names and positional clauses in a pattern. -/
def Pattern.nodeCount {ν κ : Type} : Pattern ν κ → Nat
  | .constant value => value.nodeCount
  | .type _ => 1
  | .declaration _ _ => 1
  | .recursive name positional properties _ =>
    nameNodeCount name + Pattern.positionalNodeCount positional
      + Pattern.propertyNodeCount properties
  | .relational _ value => value.nodeCount
  | .discard => 0
  | .var _ => 0
  | .undescribed => 0

def Pattern.positionalNodeCount {ν κ : Type} :
    Option (PositionalClause κ (Pattern ν κ)) → Nat
  | none => 0
  | some ⟨_, elements⟩ => 1 + Pattern.elementNodeCount elements

def Pattern.propertyNodeCount {ν κ : Type} :
    Option (List (MemberPattern ν (Pattern ν κ))) → Nat
  | none => 0
  | some members => Pattern.memberNodeCount members

def Pattern.elementNodeCount {ν κ : Type} : List (Pattern ν κ) → Nat
  | [] => 0
  | p :: rest => p.nodeCount + Pattern.elementNodeCount rest

def Pattern.memberNodeCount {ν κ : Type} : List (MemberPattern ν (Pattern ν κ)) → Nat
  | [] => 0
  | ⟨_, p⟩ :: rest => 1 + p.nodeCount + Pattern.memberNodeCount rest

end

def Case.nodeCount {ν κ : Type} (c : Case ν κ) : Nat := c.pattern.nodeCount

def Label.nodeCount {ν κ : Type} : Label ν κ → Nat
  | .value constant _ => constant.nodeCount
  | .case c => c.nodeCount
  | .otherwise _ => 0

end ClosedSwitch
