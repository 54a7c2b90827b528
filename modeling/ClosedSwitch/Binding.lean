import ClosedSwitch.Snapshot.Basic
import ClosedSwitch.Switch
import ClosedSwitch.Symbol

/-!
# Binding

Every governing expression, name and positional clause of a snapshot becomes a node. Nodes are
numbered in the order in which they are written, with a positional clause before its elements and a
member before its pattern. What is known about them is listed in the same order, so the fact about
a node stands at its number.
-/

namespace ClosedSwitch

/-- Numbers the parts of a list one after another, each taking as many numbers as it counts. -/
def numberEach {α β : Type} (count : α → Nat) (number : NodeId → α → β) (next : NodeId) :
    List α → List β
  | [] => []
  | a :: rest => number next a :: numberEach count number (next + count a) rest

/-- The number of nodes of the parts of a list. -/
def totalCount {α : Type} (count : α → Nat) : List α → Nat
  | [] => 0
  | a :: rest => count a + totalCount count rest

/-! ## Numbering -/

def Constant.number (next : NodeId) : DeclaredConstant → BoundConstant
  | .null => .null
  | .literal text => .literal text
  | .name _ => .name next

namespace Pattern

mutual

/-- A pattern with its nodes numbered from `next` on. -/
def number (next : NodeId) : DeclaredPattern → BoundPattern
  | .constant value => .constant (value.number next)
  | .type _ => .type next
  | .declaration _ designation => .declaration next designation
  | .recursive name positional properties designation =>
    let clause := next + nameNodeCount name
    .recursive (name.map fun _ => next) (numberPositional clause positional)
      (numberProperties (clause + positionalNodeCount positional) properties) designation
  | .discard => .discard
  | .var designation => .var designation
  | .relational op value => .relational op (value.number next)
  | .undescribed => .undescribed

def numberPositional (next : NodeId) :
    Option (PositionalClause Unit DeclaredPattern) → Option (PositionalClause NodeId BoundPattern)
  | none => none
  | some ⟨_, elements⟩ => some ⟨next, numberElements (next + 1) elements⟩

def numberProperties (next : NodeId) :
    Option (List (MemberPattern String DeclaredPattern)) →
      Option (List (MemberPattern NodeId BoundPattern))
  | none => none
  | some members => some (numberMembers next members)

def numberElements (next : NodeId) : List DeclaredPattern → List BoundPattern
  | [] => []
  | p :: rest => number next p :: numberElements (next + p.nodeCount) rest

def numberMembers (next : NodeId) :
    List (MemberPattern String DeclaredPattern) → List (MemberPattern NodeId BoundPattern)
  | [] => []
  | ⟨_, p⟩ :: rest => ⟨next, number (next + 1) p⟩ :: numberMembers (next + 1 + p.nodeCount) rest

end

end Pattern

def Case.number (next : NodeId) (c : DeclaredCase) : BoundCase :=
  ⟨c.pattern.number next, c.isGuarded, c.span⟩

def Label.number (next : NodeId) : DeclaredLabel → BoundLabel
  | .value constant span => .value (constant.number next) span
  | .case c => .case (c.number next)
  | .otherwise span => .otherwise span

namespace SwitchDecl

def governing : SwitchDecl → Governing
  | .expression _ g _ => g
  | .statement _ g _ => g

/-- The number of nodes of a switch: the governing expression and those of its cases. -/
def nodeCount : SwitchDecl → Nat
  | .expression _ _ arms => 1 + totalCount Case.nodeCount arms
  | .statement _ _ sections => 1 + totalCount (totalCount Label.nodeCount) sections

def number (next : NodeId) : SwitchDecl → Switch
  | .expression span g arms =>
    .expression ⟨span, ⟨next, g.span⟩, numberEach Case.nodeCount Case.number (next + 1) arms⟩
  | .statement span g sections =>
    .statement ⟨span, ⟨next, g.span⟩,
      numberEach (totalCount Label.nodeCount) (numberEach Label.nodeCount Label.number) (next + 1)
        sections⟩

end SwitchDecl

namespace FileDecl

def nodeCount (f : FileDecl) : Nat := totalCount SwitchDecl.nodeCount f.switches

def number (next : NodeId) (f : FileDecl) : SourceFile :=
  ⟨f.path, f.text, f.options, numberEach SwitchDecl.nodeCount SwitchDecl.number next f.switches⟩

end FileDecl

/-! ## What the nodes refer to -/

/-- The symbol of a type name. -/
def Scope.typeSymbol? (S : Scope) (name : String) : Option Symbol :=
  (S.types.find? name).map .type

/-- The static type inside a recursive pattern: the type that it names, or else the type of the
value that it is applied to. -/
def Scope.narrow (S : Scope) (name : Option String) (input : Option TypeId) : Option TypeId :=
  (name.bind S.types.find?).or input

/-- The symbols of the type in front of the clauses of a pattern. -/
def Scope.nameSymbols (S : Scope) : Option String → List (Option Symbol)
  | none => []
  | some name => [S.typeSymbol? name]

def Constant.symbols (S : Scope) : DeclaredConstant → List (Option Symbol)
  | .name text => [S.typeSymbol? text]
  | _ => []

namespace Pattern

mutual

/-- The symbols of the nodes of a pattern that is applied to a value of static type `input`. -/
def symbols (S : Scope) (input : Option TypeId) : DeclaredPattern → List (Option Symbol)
  | .constant value => value.symbols S
  | .type name => [S.typeSymbol? name]
  | .declaration name _ => [S.typeSymbol? name]
  | .recursive name positional properties _ =>
    let static := S.narrow name input
    S.nameSymbols name ++ positionalSymbols S static positional
      ++ propertySymbols S static properties
  | .relational _ value => value.symbols S
  | .discard => []
  | .var _ => []
  | .undescribed => []

/-- The symbols of a positional clause on a value of type `static`, the deconstructor first. -/
def positionalSymbols (S : Scope) (static : Option TypeId) :
    Option (PositionalClause Unit DeclaredPattern) → List (Option Symbol)
  | none => []
  | some ⟨_, elements⟩ =>
    let method := static.bind (S.findMethod? · elements.length)
    method.map .deconstruct :: elementSymbols S method 0 elements

def propertySymbols (S : Scope) (static : Option TypeId) :
    Option (List (MemberPattern String DeclaredPattern)) → List (Option Symbol)
  | none => []
  | some members => memberSymbols S static members

def elementSymbols (S : Scope) (method : Option DeconstructMethod) (index : Nat) :
    List DeclaredPattern → List (Option Symbol)
  | [] => []
  | p :: rest =>
    symbols S (method.bind (·.elementType index)) p ++ elementSymbols S method (index + 1) rest

def memberSymbols (S : Scope) (static : Option TypeId) :
    List (MemberPattern String DeclaredPattern) → List (Option Symbol)
  | [] => []
  | ⟨name, p⟩ :: rest =>
    let found := static.bind (S.types.findProperty? · name)
    found.map .property :: (symbols S found.join p ++ memberSymbols S static rest)

end

end Pattern

def Case.symbols (S : Scope) (input : Option TypeId) (c : DeclaredCase) : List (Option Symbol) :=
  c.pattern.symbols S input

def Label.symbols (S : Scope) (input : Option TypeId) : DeclaredLabel → List (Option Symbol)
  | .value constant _ => constant.symbols S
  | .case c => c.symbols S input
  | .otherwise _ => []

/-- The static type of a governing expression. -/
def Governing.staticType (S : Scope) (g : Governing) : Option TypeId := g.type.bind S.types.find?

/-- The facts about the nodes of a switch. -/
def SwitchDecl.facts (S : Scope) (d : SwitchDecl) : List NodeFact :=
  let input := d.governing.staticType S
  let symbols := match d with
    | .expression _ _ arms => arms.flatMap (Case.symbols S input)
    | .statement _ _ sections => sections.flatten.flatMap (Label.symbols S input)
  .governing ⟨input, d.governing.nullability⟩ d.governing.symbol :: symbols.map .reference

def FileDecl.facts (S : Scope) (f : FileDecl) : List NodeFact := f.switches.flatMap (·.facts S)

end ClosedSwitch
