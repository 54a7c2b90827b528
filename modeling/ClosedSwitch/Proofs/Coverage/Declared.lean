import ClosedSwitch.Coverage
import ClosedSwitch.Proofs.Binding

/-!
# Coverage without nodes

A second evaluator judges cases as they are declared, with the static types
handed down from pattern to sub-pattern and no nodes in between.  On every
switch of a loaded program it gives the answers of the evaluator that looks
symbols up: the nodes of a pattern read back the symbols that were listed for
it, and the static types listed there are the ones handed down here.
-/

namespace ClosedSwitch

/-! ## Coverage of declared patterns -/

namespace Scope

/-- The type that a declared pattern tests for. -/
def testedType? (S : Scope) : DeclaredPattern → Option TypeId
  | .constant (.name name) => S.types.find? name
  | .type name => S.types.find? name
  | .declaration name _ => S.types.find? name
  | .recursive (some name) _ _ _ => S.types.find? name
  | _ => none

/-- Whether the type called `name` is known to hold every value of a member. -/
def widens (S : Scope) (name : String) (member : Option TypeId) : Bool :=
  match S.types.find? name, member with
  | some declared, some t => S.types.converts t declared
  | _, _ => false

/-- Whether a declared sub-pattern, its own clauses apart, accepts every value of
a member. -/
def headAccepts (S : Scope) (member : Option TypeId) : DeclaredPattern → Bool
  | .var _ => true
  | .discard => true
  | .declaration name _ => S.widens name member
  | .recursive none _ _ _ => true
  | .recursive (some name) _ _ _ => S.widens name member
  | _ => false

mutual

/-- Whether the clauses of a declared pattern, which is applied to a value of
static type `input`, accept every value. -/
def clausesAccept (S : Scope) (input : Option TypeId) : DeclaredPattern → Bool
  | .recursive name positional properties _ =>
    let static := S.narrow name input
    (positional.isSome || properties.isSome) && positionalAccepts S static positional
      && propertiesAccept S static properties
  | .constant _ => true
  | .type _ => true
  | .declaration _ _ => true
  | .discard => true
  | .var _ => true
  | .relational _ _ => true
  | .undescribed => true

def positionalAccepts (S : Scope) (static : Option TypeId) :
    Option (PositionalClause Unit DeclaredPattern) → Bool
  | none => true
  | some ⟨_, elements⟩ =>
    elementsAccept S (static.bind (S.findMethod? · elements.length)) 0 elements

def propertiesAccept (S : Scope) (static : Option TypeId) :
    Option (List (MemberPattern String DeclaredPattern)) → Bool
  | none => true
  | some members => membersAccept S static members

/-- Whether declared elements accept what a deconstructor supplies from `index`
on. -/
def elementsAccept (S : Scope) (method : Option DeconstructMethod) (index : Nat) :
    List DeclaredPattern → Bool
  | [] => true
  | p :: rest =>
    let element := method.bind (·.elementType index)
    S.headAccepts element p && clausesAccept S element p
      && elementsAccept S method (index + 1) rest

/-- Whether declared member patterns accept the members of a value of type
`static`. -/
def membersAccept (S : Scope) (static : Option TypeId) :
    List (MemberPattern String DeclaredPattern) → Bool
  | [] => true
  | ⟨name, p⟩ :: rest =>
    let member := (static.bind (S.types.findProperty? · name)).join
    S.headAccepts member p && clausesAccept S member p && membersAccept S static rest

end

/-- Whether a declared case, applied to a value of static type `input`, accepts
every instance of `target`. -/
def caseCovers
    (S : Scope) (input : Option TypeId) (c : DeclaredCase) (target : TypeId) : Bool :=
  !c.isGuarded && (S.testedType? c.pattern).any (S.types.converts target)
    && S.clausesAccept input c.pattern

/-- Whether a declared label accepts every instance of `target`. -/
def labelCovers
    (S : Scope) (input : Option TypeId) (target : TypeId) : DeclaredLabel → Bool
  | .value (.name name) _ => (S.types.find? name).any (S.types.converts target)
  | .value _ _ => false
  | .case c => S.caseCovers input c target
  | .otherwise _ => false

end Scope

/-! ## Reading the symbols of a pattern -/

namespace Program

theorem namedType?_of_symbol
    {P : Program} {node : NodeId} {name : String}
    (h : P.symbol? node = P.scope.typeSymbol? name) :
    P.namedType? node = P.scope.types.find? name := by
  rw [namedType?, h, Scope.typeSymbol?]
  cases P.scope.types.find? name <;> rfl

theorem memberType?_of_symbol
    {P : Program} {node : NodeId} {found : Option (Option TypeId)}
    (h : P.symbol? node = found.map .property) :
    P.memberType? node = found.join := by
  rw [memberType?, h]
  cases found <;> rfl

theorem method?_of_symbol
    {P : Program} {node : NodeId} {method : Option DeconstructMethod}
    (h : P.symbol? node = method.map .deconstruct) :
    P.method? node = method := by
  rw [method?, h]
  cases method <;> rfl

theorem widens_of_symbol
    {P : Program} {node : NodeId} {name : String}
    (h : P.symbol? node = P.scope.typeSymbol? name) (member : Option TypeId) :
    P.widens node member = P.scope.widens name member := by
  simp only [widens, Scope.widens, namedType?_of_symbol h]
  rfl

theorem testedType?_number
    {P : Program} {next : NodeId} {input : Option TypeId} {p : DeclaredPattern}
    (h : ReadsFrom P.symbol? next (p.symbols P.scope input)) :
    P.testedType? (p.number next) = P.scope.testedType? p := by
  cases p with
  | constant value =>
      cases value with
      | name name => exact namedType?_of_symbol h.1
      | null => rfl
      | literal text => rfl
  | type name => exact namedType?_of_symbol h.1
  | declaration name designation => exact namedType?_of_symbol h.1
  | recursive name positional properties designation =>
      cases name with
      | none => rfl
      | some name => exact namedType?_of_symbol h.1
  | discard => rfl
  | var designation => rfl
  | relational op value => rfl
  | undescribed => rfl

theorem headAccepts_number
    {P : Program} {next : NodeId} {input : Option TypeId} {p : DeclaredPattern}
    (h : ReadsFrom P.symbol? next (p.symbols P.scope input))
    (member : Option TypeId) :
    P.headAccepts member (p.number next) = P.scope.headAccepts member p := by
  cases p with
  | declaration name designation => exact widens_of_symbol h.1 member
  | recursive name positional properties designation =>
      cases name with
      | none => rfl
      | some name => exact widens_of_symbol h.1 member
  | constant value => rfl
  | type name => rfl
  | discard => rfl
  | var designation => rfl
  | relational op value => rfl
  | undescribed => rfl

mutual

theorem clausesAccept_number
    {P : Program} {next : NodeId} {input : Option TypeId} (p : DeclaredPattern)
    (h : ReadsFrom P.symbol? next (p.symbols P.scope input)) :
    P.clausesAccept (p.number next) = P.scope.clausesAccept input p := by
  cases p with
  | recursive name positional properties designation =>
      rw [Pattern.symbols, readsFrom_append, readsFrom_append, List.length_append,
        Scope.length_nameSymbols, Pattern.length_positionalSymbols,
        ← Nat.add_assoc] at h
      obtain ⟨⟨-, hpositional⟩, hproperties⟩ := h
      rw [Pattern.number, clausesAccept, Scope.clausesAccept,
        positionalAccepts_number positional hpositional,
        propertiesAccept_number properties hproperties]
      cases positional <;> cases properties <;> rfl
  | declaration name designation => rfl
  | constant value => rfl
  | type name => rfl
  | discard => rfl
  | var designation => rfl
  | relational op value => rfl
  | undescribed => rfl

theorem positionalAccepts_number
    {P : Program} {next : NodeId} {static : Option TypeId}
    (positional : Option (PositionalClause Unit DeclaredPattern))
    (h : ReadsFrom P.symbol? next
      (Pattern.positionalSymbols P.scope static positional)) :
    P.positionalAccepts (Pattern.numberPositional next positional) =
      P.scope.positionalAccepts static positional := by
  rcases positional with _ | ⟨_, elements⟩
  · rfl
  · obtain ⟨hmethod, helements⟩ := h
    rw [Pattern.numberPositional, positionalAccepts, Scope.positionalAccepts,
      method?_of_symbol hmethod, elementsAccept_number elements helements]

theorem propertiesAccept_number
    {P : Program} {next : NodeId} {static : Option TypeId}
    (properties : Option (List (MemberPattern String DeclaredPattern)))
    (h : ReadsFrom P.symbol? next
      (Pattern.propertySymbols P.scope static properties)) :
    P.propertiesAccept (Pattern.numberProperties next properties) =
      P.scope.propertiesAccept static properties := by
  rcases properties with _ | members
  · rfl
  · exact membersAccept_number members h

theorem elementsAccept_number
    {P : Program} {next : NodeId} {method : Option DeconstructMethod} {index : Nat}
    (ps : List DeclaredPattern)
    (h : ReadsFrom P.symbol? next (Pattern.elementSymbols P.scope method index ps)) :
    P.elementsAccept method index (Pattern.numberElements next ps) =
      P.scope.elementsAccept method index ps := by
  cases ps with
  | nil => rfl
  | cons p rest =>
      rw [Pattern.elementSymbols, readsFrom_append, Pattern.length_symbols] at h
      rw [Pattern.numberElements, elementsAccept, Scope.elementsAccept,
        headAccepts_number h.1, clausesAccept_number p h.1,
        elementsAccept_number rest h.2]

theorem membersAccept_number
    {P : Program} {next : NodeId} {static : Option TypeId}
    (ps : List (MemberPattern String DeclaredPattern))
    (h : ReadsFrom P.symbol? next (Pattern.memberSymbols P.scope static ps)) :
    P.membersAccept (Pattern.numberMembers next ps) =
      P.scope.membersAccept static ps := by
  rcases ps with _ | ⟨⟨name, p⟩, rest⟩
  · rfl
  · obtain ⟨hmember, h⟩ := h
    rw [readsFrom_append, Pattern.length_symbols] at h
    rw [Pattern.numberMembers, membersAccept, Scope.membersAccept,
      memberType?_of_symbol hmember, headAccepts_number h.1,
      clausesAccept_number p h.1, membersAccept_number rest h.2]

end

theorem caseCovers_number
    {P : Program} {next : NodeId} {input : Option TypeId} {c : DeclaredCase}
    (h : ReadsFrom P.symbol? next (c.symbols P.scope input)) (target : TypeId) :
    P.caseCovers (c.number next) target = P.scope.caseCovers input c target := by
  simp only [caseCovers, patternCovers, Scope.caseCovers, Case.number,
    testedType?_number h, clausesAccept_number c.pattern h, Bool.and_assoc]
  rfl

theorem labelCovers_number
    {P : Program} {next : NodeId} {input : Option TypeId} {l : DeclaredLabel}
    (h : ReadsFrom P.symbol? next (l.symbols P.scope input)) (target : TypeId) :
    P.labelCovers target (l.number next) = P.scope.labelCovers input target l := by
  cases l with
  | value constant span =>
      cases constant with
      | name name =>
          simp only [Label.number, Constant.number, labelCovers, Scope.labelCovers,
            namedType?_of_symbol h.1]
          rfl
      | null => rfl
      | literal text => rfl
  | case c => exact caseCovers_number h target
  | otherwise span => rfl

end Program

/-! ## Null -/

theorem Case.coversNull_number (next : NodeId) (c : DeclaredCase) :
    (c.number next).coversNull = c.coversNull := by
  rcases c with ⟨p, isGuarded, span⟩
  cases p with
  | constant value => cases value <;> rfl
  | _ => rfl

theorem Label.coversNull_number (next : NodeId) (l : DeclaredLabel) :
    (l.number next).coversNull = l.coversNull := by
  cases l with
  | value constant span => cases constant <;> rfl
  | case c => exact c.coversNull_number next
  | otherwise span => rfl

/-! ## Switches -/

namespace Program

/-- A bound case gives the answers of its declaration, which is applied to a
value of static type `input`. -/
structure CaseAgrees
    (P : Program) (input : Option TypeId) (c : DeclaredCase) (b : BoundCase) : Prop where
  covers : ∀ t, P.caseCovers b t = P.scope.caseCovers input c t
  coversNull : b.coversNull = c.coversNull

/-- A bound label gives the answers of its declaration. -/
structure LabelAgrees
    (P : Program) (input : Option TypeId) (l : DeclaredLabel) (b : BoundLabel) : Prop where
  covers : ∀ t, P.labelCovers t b = P.scope.labelCovers input t l
  coversNull : b.coversNull = l.coversNull

/-- A bound switch has the form and the spans of its declaration, its governing
node carries what is declared about it, and its cases give the answers of the
declared ones. -/
inductive SwitchAgrees (P : Program) : SwitchDecl → Switch → Prop
  | expression {span : Span} {g : Governing} {arms : List DeclaredCase}
      {node : NodeId} {cases : List BoundCase}
      (info : P.typeInfo node = ⟨g.staticType P.scope, g.nullability⟩)
      (symbol : P.symbol? node = g.symbol.map .value)
      (agrees : List.Forall₂ (P.CaseAgrees (g.staticType P.scope)) arms cases) :
      SwitchAgrees P (.expression span g arms)
        (.expression ⟨span, ⟨node, g.span⟩, cases⟩)
  | statement {span : Span} {g : Governing} {sections : List (List DeclaredLabel)}
      {node : NodeId} {bound : List (List BoundLabel)}
      (info : P.typeInfo node = ⟨g.staticType P.scope, g.nullability⟩)
      (symbol : P.symbol? node = g.symbol.map .value)
      (agrees : List.Forall₂ (List.Forall₂ (P.LabelAgrees (g.staticType P.scope)))
        sections bound) :
      SwitchAgrees P (.statement span g sections)
        (.statement ⟨span, ⟨node, g.span⟩, bound⟩)

theorem SwitchAgrees.typeInfo_expression
    {P : Program} {d : SwitchDecl} {switch : SwitchExpression}
    (h : P.SwitchAgrees d (.expression switch)) :
    P.typeInfo switch.governing.node =
      ⟨d.governing.staticType P.scope, d.governing.nullability⟩ := by
  cases h with
  | expression info _ _ => exact info

theorem SwitchAgrees.typeInfo_statement
    {P : Program} {d : SwitchDecl} {switch : SwitchStatement}
    (h : P.SwitchAgrees d (.statement switch)) :
    P.typeInfo switch.governing.node =
      ⟨d.governing.staticType P.scope, d.governing.nullability⟩ := by
  cases h with
  | statement info _ _ => exact info

theorem switchAgrees_number
    {P : Program} (d : SwitchDecl) (next : NodeId)
    (h : ReadsFrom P.fact? next ((d.facts P.scope).map some)) :
    P.SwitchAgrees d (d.number next) := by
  cases d with
  | expression span g arms =>
      obtain ⟨hinfo, hsymbol, hread⟩ := readsFrom_switch rfl h
      refine .expression hinfo hsymbol ?_
      exact forall₂_numberEach (Case.length_symbols P.scope _)
        (fun c next hc => ⟨caseCovers_number hc, c.coversNull_number next⟩) hread
  | statement span g sections =>
      obtain ⟨hinfo, hsymbol, hread⟩ := readsFrom_switch rfl h
      refine .statement hinfo hsymbol ?_
      have hsections : ReadsFrom P.symbol? (next + 1) (sections.flatMap fun labels =>
          labels.flatMap (Label.symbols P.scope (g.staticType P.scope))) :=
        flatMap_flatten _ sections ▸ hread
      refine forall₂_numberEach
        (length_flatMap_eq_totalCount (Label.length_symbols P.scope _)) ?_ hsections
      intro labels next hlabels
      exact forall₂_numberEach (Label.length_symbols P.scope _)
        (fun l next hl => ⟨labelCovers_number hl, l.coversNull_number next⟩) hlabels

/-- Every case of a loaded program gives the answers that the declarations give
without any nodes. -/
theorem coverage_eq_declared_coverage
    {P : Program} {s : Snapshot} (hP : P.IsLoadedFrom s) :
    List.Forall₂
      (fun f file => List.Forall₂ P.SwitchAgrees f.switches file.switches)
      s.files P.files :=
  hP.represents.forall₂_switches switchAgrees_number

end Program

/-! ## A sample with nested patterns -/

/-- A pattern with a positional clause, inside which a recursive pattern takes
its static type from the deconstructor. -/
def wrapPattern : DeclaredPattern :=
  .recursive (some "Root.Wrap")
    (some ⟨(), [.recursive none none
      (some [⟨"Value", .declaration "int" (some "n")⟩]) none, .var none]⟩) none none

/-- A hierarchy with two leaves, one of which wraps a type of another hierarchy,
and both forms of switch over its root. -/
def nestedSnapshot : Snapshot where
  types :=
    [⟨{ name := "Inner", isAbstract := true, constructors := [⟨.privateAccess, []⟩],
        properties := [⟨"Value", some "int"⟩] },
      [⟨{ name := "Leaf", isSealed := true, base := some "Inner" }, []⟩]⟩,
     ⟨{ name := "Root", isAbstract := true, constructors := [⟨.privateAccess, []⟩] },
      [⟨{ name := "Wrap", isSealed := true, base := some "Root",
          deconstructors := [[some "Inner", some "object"]] }, []⟩,
       ⟨{ name := "Leaf", isSealed := true, base := some "Root" }, []⟩]⟩]
  files := [{
    path := "Test.cs"
    switches := [
      .expression ⟨0, 100⟩ { type := some "Root", nullability := ⟨.nonNull, .notNull⟩ }
        [⟨wrapPattern, false, ⟨0, 0⟩⟩, ⟨.type "Root.Leaf", false, ⟨0, 0⟩⟩],
      .statement ⟨100, 200⟩ { type := some "Root", nullability := ⟨.nonNull, .notNull⟩ }
        [[.value (.name "Root.Leaf") ⟨0, 0⟩, .case ⟨wrapPattern, false, ⟨0, 0⟩⟩]] ] }]
  diagnostics := []

/-- Its types have the numbers 4 (`Inner`), 5 (`Inner.Leaf`), 6 (`Root`),
7 (`Root.Wrap`) and 8 (`Root.Leaf`). -/
def nestedProgram : Program := .ofSnapshot nestedSnapshot

/-- A diagnostic at each of its switches. -/
def nestedDiagnostics : List Diagnostic :=
  [⟨"CS8509", ⟨0, ⟨0, 6⟩⟩, ""⟩, ⟨"IDE0010", ⟨0, ⟨100, 106⟩⟩, ""⟩]

theorem isLoadedFrom_nestedProgram : nestedProgram.IsLoadedFrom nestedSnapshot :=
  Program.isLoadedFrom_ofSnapshot rfl

namespace Program

theorem nestedProgram_coverage :
    nestedProgram.IsLoadedFrom nestedSnapshot ∧
      nestedProgram.scope.caseCovers (some 6) ⟨wrapPattern, false, ⟨0, 0⟩⟩ 7 = true ∧
      List.Forall₂
        (fun f file => List.Forall₂ nestedProgram.SwitchAgrees f.switches file.switches)
        nestedSnapshot.files nestedProgram.files :=
  ⟨isLoadedFrom_nestedProgram, by decide,
    coverage_eq_declared_coverage isLoadedFrom_nestedProgram⟩

end Program

end ClosedSwitch
