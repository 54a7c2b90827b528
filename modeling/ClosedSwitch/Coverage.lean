import ClosedSwitch.Program.Basic

/-!
# Coverage

A case covers a type without restriction when it accepts every instance of it. Whatever cannot be
established, such as a name that refers to nothing, a literal inside a clause or a guard, counts as
a restriction.
-/

namespace ClosedSwitch

namespace Program

/-- The type that a pattern tests for. -/
def testedType? (P : Program) : BoundPattern → Option TypeId
  | .constant (.name node) => P.namedType? node
  | .type node => P.namedType? node
  | .declaration node _ => P.namedType? node
  | .recursive (some node) _ _ _ => P.namedType? node
  | _ => none

/-- Whether the type named by a node is known to hold every value of a member. -/
def widens (P : Program) (node : NodeId) (member : Option TypeId) : Bool :=
  match P.namedType? node, member with
  | some declared, some t => P.types.converts t declared
  | _, _ => false

/-- Whether a sub-pattern, its own clauses apart, accepts every value of a member. -/
def headAccepts (P : Program) (member : Option TypeId) : BoundPattern → Bool
  | .var _ => true
  | .discard => true
  | .declaration node _ => P.widens node member
  | .recursive none _ _ _ => true
  | .recursive (some node) _ _ _ => P.widens node member
  | _ => false

mutual

/-- Whether the clauses of a pattern accept every value. A recursive pattern needs a clause to be
judged by; any other pattern has none. -/
def clausesAccept (P : Program) : BoundPattern → Bool
  | .recursive _ positional properties _ =>
    (positional.isSome || properties.isSome) && positionalAccepts P positional
      && propertiesAccept P properties
  | .constant _ => true
  | .type _ => true
  | .declaration _ _ => true
  | .discard => true
  | .var _ => true
  | .relational _ _ => true
  | .undescribed => true

def positionalAccepts (P : Program) : Option (PositionalClause NodeId BoundPattern) → Bool
  | none => true
  | some ⟨node, elements⟩ => elementsAccept P (P.method? node) 0 elements

def propertiesAccept (P : Program) : Option (List (MemberPattern NodeId BoundPattern)) → Bool
  | none => true
  | some members => membersAccept P members

/-- Whether the elements from `index` on accept every value of the deconstructed elements. -/
def elementsAccept (P : Program) (method : Option DeconstructMethod) (index : Nat) :
    List BoundPattern → Bool
  | [] => true
  | p :: rest =>
    P.headAccepts (method.bind (·.elementType index)) p && clausesAccept P p
      && elementsAccept P method (index + 1) rest

/-- Whether the patterns of members accept every value of them. -/
def membersAccept (P : Program) : List (MemberPattern NodeId BoundPattern) → Bool
  | [] => true
  | ⟨node, p⟩ :: rest =>
    P.headAccepts (P.memberType? node) p && clausesAccept P p && membersAccept P rest

end

/-- Whether a pattern accepts every instance of `target`. -/
def patternCovers (P : Program) (p : BoundPattern) (target : TypeId) : Bool :=
  (P.testedType? p).any (P.types.converts target) && P.clausesAccept p

/-- Whether a case accepts every instance of `target`. -/
def caseCovers (P : Program) (c : BoundCase) (target : TypeId) : Bool :=
  !c.isGuarded && P.patternCovers c.pattern target

/-- Whether a label accepts every instance of `target`; a constant may name a type. -/
def labelCovers (P : Program) (target : TypeId) : BoundLabel → Bool
  | .value (.name node) _ => (P.namedType? node).any (P.types.converts target)
  | .value _ _ => false
  | .case c => P.caseCovers c target
  | .otherwise _ => false

end Program

/-! ## Null -/

def Pattern.coversNull {ν κ : Type} : Pattern ν κ → Bool
  | .discard => true
  | .var _ => true
  | .constant .null => true
  | _ => false

def Case.coversNull {ν κ : Type} (c : Case ν κ) : Bool := !c.isGuarded && c.pattern.coversNull

def Label.coversNull {ν κ : Type} : Label ν κ → Bool
  | .value .null _ => true
  | .value _ _ => false
  | .case c => c.coversNull
  | .otherwise _ => false

end ClosedSwitch
