import ClosedSwitch.Proofs.Binding.Nodes

/-!
# Nodes are bound by their place

What a node of a loaded program refers to is settled by its place: a governing expression
has its declared type and symbol, a name the type that it resolves to, a member the
property and a positional clause the deconstructor that are found on the static type of
the pattern around them.  These rules are stated as a relation between declared and bound
syntax, which says nothing about how nodes are numbered.
-/

namespace ClosedSwitch

namespace Program

/-! ## What the place of a node says about it -/

/-- The node carries what a look-up finds, as a symbol of the kind `kind`, and carries no
symbol if nothing is found. -/
def CarriesFound
    {α : Type} (P : Program) (node : NodeId) (kind : α → Symbol) (found : Option α) : Prop :=
  ∀ x, P.symbol? node = some x ↔ ∃ a, found = some a ∧ x = kind a

theorem carriesFound_of_symbol?
    {α : Type} {P : Program} {node : NodeId} {kind : α → Symbol} {found : Option α}
    (h : P.symbol? node = found.map kind) : P.CarriesFound node kind found := by
  intro x
  rw [h, Option.map_eq_some_iff]
  exact exists_congr fun a => and_congr_right fun _ => eq_comm

/-- A node for the name of a type. -/
def BindsName (P : Program) (name : String) (node : NodeId) : Prop :=
  P.CarriesFound node .type (P.types.find? name)

inductive BindsConstant (P : Program) : DeclaredConstant → BoundConstant → Prop
  | null : BindsConstant P .null .null
  | literal (text : String) : BindsConstant P (.literal text) (.literal text)
  | name {name : String} {node : NodeId} (hname : P.BindsName name node) :
      BindsConstant P (.name name) (.name node)

/-- The static type inside a recursive pattern on a value of static type `input`: the
type that it names, if that is found, and otherwise `input`. -/
inductive StaticType (P : Program) (input : Option TypeId) :
    Option String → Option TypeId → Prop
  | named {name : String} {t : TypeId} (hfound : P.types.find? name = some t) :
      StaticType P input (some name) (some t)
  | unknown {name : String} (hmissing : P.types.find? name = none) :
      StaticType P input (some name) input
  | unnamed : StaticType P input none input

mutual

/-- The bound form of a pattern that is applied to a value of static type `input`. -/
inductive BindsPattern (P : Program) :
    Option TypeId → DeclaredPattern → BoundPattern → Prop
  | constant {input : Option TypeId} {c : DeclaredConstant} {c' : BoundConstant}
      (hvalue : P.BindsConstant c c') : BindsPattern P input (.constant c) (.constant c')
  | type {input : Option TypeId} {name : String} {node : NodeId}
      (hname : P.BindsName name node) : BindsPattern P input (.type name) (.type node)
  | declaration {input : Option TypeId} {name : String} {node : NodeId}
      {designation : Option String} (hname : P.BindsName name node) :
      BindsPattern P input (.declaration name designation) (.declaration node designation)
  | recursive {input static : Option TypeId} {name : Option String} {node : Option NodeId}
      {positional : Option (PositionalClause Unit DeclaredPattern)}
      {positional' : Option (PositionalClause NodeId BoundPattern)}
      {properties : Option (List (MemberPattern String DeclaredPattern))}
      {properties' : Option (List (MemberPattern NodeId BoundPattern))}
      {designation : Option String}
      (hname : Option.Rel P.BindsName name node)
      (hstatic : P.StaticType input name static)
      (hpositional : BindsPositional P static positional positional')
      (hproperties : BindsProperties P static properties properties') :
      BindsPattern P input (.recursive name positional properties designation)
        (.recursive node positional' properties' designation)
  | relational {input : Option TypeId} {op : RelationalOp} {c : DeclaredConstant}
      {c' : BoundConstant} (hvalue : P.BindsConstant c c') :
      BindsPattern P input (.relational op c) (.relational op c')
  | discard {input : Option TypeId} : BindsPattern P input .discard .discard
  | var {input : Option TypeId} {designation : Option String} :
      BindsPattern P input (.var designation) (.var designation)
  | undescribed {input : Option TypeId} : BindsPattern P input .undescribed .undescribed

/-- A positional clause carries the deconstructor for as many elements as it has. -/
inductive BindsPositional (P : Program) :
    Option TypeId → Option (PositionalClause Unit DeclaredPattern) →
      Option (PositionalClause NodeId BoundPattern) → Prop
  | none {static : Option TypeId} : BindsPositional P static none none
  | clause {static : Option TypeId} {method : Option DeconstructMethod} {node : NodeId}
      {elements : List DeclaredPattern} {elements' : List BoundPattern}
      (hmethod : method = static.bind (P.scope.findMethod? · elements.length))
      (hnode : P.CarriesFound node .deconstruct method)
      (helements : BindsElements P method 0 elements elements') :
      BindsPositional P static (some ⟨(), elements⟩) (some ⟨node, elements'⟩)

/-- The elements from `index` on have the types that the deconstructor supplies. -/
inductive BindsElements (P : Program) :
    Option DeconstructMethod → Nat → List DeclaredPattern → List BoundPattern → Prop
  | nil {method : Option DeconstructMethod} {index : Nat} : BindsElements P method index [] []
  | cons {method : Option DeconstructMethod} {index : Nat} {p : DeclaredPattern}
      {p' : BoundPattern} {rest : List DeclaredPattern} {rest' : List BoundPattern}
      (hpattern : BindsPattern P (method.bind (·.elementType index)) p p')
      (hrest : BindsElements P method (index + 1) rest rest') :
      BindsElements P method index (p :: rest) (p' :: rest')

inductive BindsProperties (P : Program) :
    Option TypeId → Option (List (MemberPattern String DeclaredPattern)) →
      Option (List (MemberPattern NodeId BoundPattern)) → Prop
  | none {static : Option TypeId} : BindsProperties P static none none
  | members {static : Option TypeId} {members : List (MemberPattern String DeclaredPattern)}
      {members' : List (MemberPattern NodeId BoundPattern)}
      (hmembers : BindsMembers P static members members') :
      BindsProperties P static (some members) (some members')

/-- A member carries the property of that name, and its pattern is applied to a value of
the type of the property. -/
inductive BindsMembers (P : Program) :
    Option TypeId → List (MemberPattern String DeclaredPattern) →
      List (MemberPattern NodeId BoundPattern) → Prop
  | nil {static : Option TypeId} : BindsMembers P static [] []
  | cons {static : Option TypeId} {found : Option (Option TypeId)} {name : String}
      {node : NodeId} {p : DeclaredPattern} {p' : BoundPattern}
      {rest : List (MemberPattern String DeclaredPattern)}
      {rest' : List (MemberPattern NodeId BoundPattern)}
      (hfound : found = static.bind (P.types.findProperty? · name))
      (hnode : P.CarriesFound node .property found)
      (hpattern : BindsPattern P found.join p p')
      (hrest : BindsMembers P static rest rest') :
      BindsMembers P static (⟨name, p⟩ :: rest) (⟨node, p'⟩ :: rest')

end

/-- Guards and spans are kept. -/
structure BindsCase
    (P : Program) (input : Option TypeId) (c : DeclaredCase) (c' : BoundCase) : Prop where
  pattern : P.BindsPattern input c.pattern c'.pattern
  isGuarded_eq : c'.isGuarded = c.isGuarded
  span_eq : c'.span = c.span

inductive BindsLabel (P : Program) (input : Option TypeId) :
    DeclaredLabel → BoundLabel → Prop
  | value {c : DeclaredConstant} {c' : BoundConstant} {span : Span}
      (hvalue : P.BindsConstant c c') : BindsLabel P input (.value c span) (.value c' span)
  | case {c : DeclaredCase} {c' : BoundCase} (hcase : P.BindsCase input c c') :
      BindsLabel P input (.case c) (.case c')
  | otherwise {span : Span} : BindsLabel P input (.otherwise span) (.otherwise span)

/-- A governing node has the declared type, if that is found, the declared nullability
and the declared symbol. -/
structure BindsGoverning (P : Program) (g : Governing) (g' : GoverningNode) : Prop where
  span_eq : g'.span = g.span
  typeInfo_eq : P.typeInfo? g'.node = some ⟨g.type.bind P.types.find?, g.nullability⟩
  symbol : P.CarriesFound g'.node .value g.symbol

inductive BindsSwitch (P : Program) : SwitchDecl → Switch → Prop
  | expression {span : Span} {g : Governing} {g' : GoverningNode}
      {arms : List DeclaredCase} {arms' : List BoundCase}
      (hgoverning : P.BindsGoverning g g')
      (harms : List.Forall₂ (P.BindsCase (g.type.bind P.types.find?)) arms arms') :
      BindsSwitch P (.expression span g arms) (.expression ⟨span, g', arms'⟩)
  | statement {span : Span} {g : Governing} {g' : GoverningNode}
      {sections : List (List DeclaredLabel)} {sections' : List (List BoundLabel)}
      (hgoverning : P.BindsGoverning g g')
      (hsections : List.Forall₂
        (List.Forall₂ (P.BindsLabel (g.type.bind P.types.find?))) sections sections') :
      BindsSwitch P (.statement span g sections) (.statement ⟨span, g', sections'⟩)

structure BindsFile (P : Program) (f : FileDecl) (f' : SourceFile) : Prop where
  path_eq : f'.path = f.path
  text_eq : f'.text = f.text
  options_eq : f'.options = f.options
  switches : List.Forall₂ P.BindsSwitch f.switches f'.switches

/-! ## Loading binds every node by its place -/

theorem bindsName_number
    {P : Program} {next : NodeId} {name : String}
    (h : P.symbol? next = P.scope.typeSymbol? name) : P.BindsName name next :=
  carriesFound_of_symbol? h

theorem bindsConstant_number
    {P : Program} {next : NodeId} {c : DeclaredConstant}
    (h : ReadsFrom P.symbol? next (c.symbols P.scope)) :
    P.BindsConstant c (c.number next) := by
  cases c with
  | null => exact .null
  | literal text => exact .literal text
  | name name => exact .name (bindsName_number h.1)

theorem staticType_narrow
    (P : Program) (input : Option TypeId) (name : Option String) :
    P.StaticType input name (P.scope.narrow name input) := by
  cases name with
  | none => exact .unnamed
  | some name =>
      rw [Scope.narrow, Option.bind_some]
      cases hfound : P.scope.types.find? name with
      | none => exact .unknown hfound
      | some t => exact .named hfound

mutual

theorem bindsPattern_number
    {P : Program} {next : NodeId} {input : Option TypeId} (p : DeclaredPattern)
    (h : ReadsFrom P.symbol? next (p.symbols P.scope input)) :
    P.BindsPattern input p (p.number next) := by
  cases p with
  | constant value => exact .constant (bindsConstant_number h)
  | type name => exact .type (bindsName_number h.1)
  | declaration name designation => exact .declaration (bindsName_number h.1)
  | recursive name positional properties designation =>
      rw [Pattern.symbols, readsFrom_append, readsFrom_append, List.length_append,
        Scope.length_nameSymbols, Pattern.length_positionalSymbols,
        ← Nat.add_assoc] at h
      obtain ⟨⟨hname, hpositional⟩, hproperties⟩ := h
      have hname : Option.Rel P.BindsName name (name.map fun _ => next) := by
        cases name with
        | none => exact .none
        | some name => exact .some (bindsName_number hname.1)
      exact .recursive hname (P.staticType_narrow input name)
        (bindsPositional_number positional hpositional)
        (bindsProperties_number properties hproperties)
  | discard => exact .discard
  | var designation => exact .var
  | relational op value => exact .relational (bindsConstant_number h)
  | undescribed => exact .undescribed

theorem bindsPositional_number
    {P : Program} {next : NodeId} {static : Option TypeId}
    (positional : Option (PositionalClause Unit DeclaredPattern))
    (h : ReadsFrom P.symbol? next
      (Pattern.positionalSymbols P.scope static positional)) :
    P.BindsPositional static positional (Pattern.numberPositional next positional) := by
  rcases positional with _ | ⟨_, elements⟩
  · exact .none
  · obtain ⟨hmethod, helements⟩ := h
    exact .clause rfl (carriesFound_of_symbol? hmethod)
      (bindsElements_number elements helements)

theorem bindsElements_number
    {P : Program} {next : NodeId} {method : Option DeconstructMethod} {index : Nat}
    (ps : List DeclaredPattern)
    (h : ReadsFrom P.symbol? next (Pattern.elementSymbols P.scope method index ps)) :
    P.BindsElements method index ps (Pattern.numberElements next ps) := by
  rcases ps with _ | ⟨p, rest⟩
  · exact .nil
  · rw [Pattern.elementSymbols, readsFrom_append, Pattern.length_symbols] at h
    exact .cons (bindsPattern_number p h.1) (bindsElements_number rest h.2)

theorem bindsProperties_number
    {P : Program} {next : NodeId} {static : Option TypeId}
    (properties : Option (List (MemberPattern String DeclaredPattern)))
    (h : ReadsFrom P.symbol? next
      (Pattern.propertySymbols P.scope static properties)) :
    P.BindsProperties static properties (Pattern.numberProperties next properties) := by
  rcases properties with _ | members
  · exact .none
  · exact .members (bindsMembers_number members h)

theorem bindsMembers_number
    {P : Program} {next : NodeId} {static : Option TypeId}
    (ps : List (MemberPattern String DeclaredPattern))
    (h : ReadsFrom P.symbol? next (Pattern.memberSymbols P.scope static ps)) :
    P.BindsMembers static ps (Pattern.numberMembers next ps) := by
  rcases ps with _ | ⟨⟨name, p⟩, rest⟩
  · exact .nil
  · obtain ⟨hmember, hrest⟩ := h
    rw [readsFrom_append, Pattern.length_symbols] at hrest
    exact .cons rfl (carriesFound_of_symbol? hmember) (bindsPattern_number p hrest.1)
      (bindsMembers_number rest hrest.2)

end

theorem bindsCase_number
    {P : Program} {input : Option TypeId} (c : DeclaredCase) (next : NodeId)
    (h : ReadsFrom P.symbol? next (c.symbols P.scope input)) :
    P.BindsCase input c (c.number next) :=
  ⟨bindsPattern_number c.pattern h, rfl, rfl⟩

theorem bindsLabel_number
    {P : Program} {input : Option TypeId} (l : DeclaredLabel) (next : NodeId)
    (h : ReadsFrom P.symbol? next (l.symbols P.scope input)) :
    P.BindsLabel input l (l.number next) := by
  cases l with
  | value constant span => exact .value (bindsConstant_number h)
  | case c => exact .case (bindsCase_number c next h)
  | otherwise span => exact .otherwise

theorem bindsSwitch_number
    {P : Program} (d : SwitchDecl) (next : NodeId)
    (h : ReadsFrom P.fact? next ((d.facts P.scope).map some)) :
    P.BindsSwitch d (d.number next) := by
  have hinfo : P.typeInfo? next =
      some ⟨d.governing.type.bind P.types.find?, d.governing.nullability⟩ := by
    rw [typeInfo?, h.1]
    rfl
  cases d with
  | expression span g arms =>
      obtain ⟨-, hsymbol, hsymbols⟩ := readsFrom_switch rfl h
      exact .expression ⟨rfl, hinfo, carriesFound_of_symbol? hsymbol⟩
        (forall₂_numberEach (Case.length_symbols P.scope _) bindsCase_number hsymbols)
  | statement span g sections =>
      obtain ⟨-, hsymbol, hsymbols⟩ := readsFrom_switch rfl h
      have hsections : ReadsFrom P.symbol? (next + 1) (sections.flatMap fun labels =>
          labels.flatMap (Label.symbols P.scope (g.staticType P.scope))) :=
        flatMap_flatten _ sections ▸ hsymbols
      refine .statement ⟨rfl, hinfo, carriesFound_of_symbol? hsymbol⟩
        (forall₂_numberEach ?_ ?_ hsections)
      · exact length_flatMap_eq_totalCount (Label.length_symbols P.scope _)
      · intro labels next hlabels
        exact forall₂_numberEach (Label.length_symbols P.scope _) bindsLabel_number hlabels

end Program

/-- The nodes of a loaded program, in the order of writing, are the numbers below their
count.  The governing ones and no others have a type, and every node carries the symbol
that its place gives it. -/
theorem nodes_numbered_and_bound
    {s : Snapshot} {P : Program} (hP : P.IsLoadedFrom s) :
    P.listedNodes = List.range P.nodes.size ∧
    P.listedNodes.Nodup ∧
    (∀ node, (P.typeInfo? node).isSome = true ↔ node ∈ P.governingNodes) ∧
    (∀ node x, P.symbol? node = some x → node ∈ P.listedNodes) ∧
    List.Forall₂ P.BindsFile s.files P.files := by
  have h := hP.represents
  refine ⟨h.listedNodes_eq, ?_, h.isSome_typeInfo?_iff, ?_, ?_⟩
  · rw [h.listedNodes_eq]
    exact List.nodup_range
  · intro node x hx
    exact h.mem_listedNodes_of_symbol? hx
  · apply h.forall₂_files
    intro f next hf
    exact ⟨rfl, rfl, rfl, Program.forall₂_switches_number Program.bindsSwitch_number hf⟩

/-- A pattern with an unknown type name, so that its clauses are bound on the static type
of the value.  It has a deconstructor for one element, a known and an unknown member. -/
def boxPattern : DeclaredPattern :=
  .recursive (some "Missing") (some ⟨(), [.type "Box"]⟩)
    (some [⟨"Next", .recursive none none (some [⟨"Next", .discard⟩]) none⟩,
      ⟨"Absent", .constant (.name "int")⟩]) none

def boxSnapshot : Snapshot where
  types :=
    [⟨{ name := "Box", properties := [⟨"Next", some "Box"⟩],
        deconstructors := [[some "Box"]] }, []⟩]
  files := [{
    path := "Test.cs"
    switches := [
      .statement ⟨0, 100⟩ { type := some "Box", symbol := some (.parameter .nullable) }
        [[.value (.name "Missing") ⟨0, 0⟩, .otherwise ⟨0, 0⟩]],
      .expression ⟨100, 200⟩ { type := some "Box" } [⟨boxPattern, true, ⟨0, 0⟩⟩] ] }]

def boxProgram : Program := .ofSnapshot boxSnapshot

theorem isLoadedFrom_boxProgram : boxProgram.IsLoadedFrom boxSnapshot :=
  Program.isLoadedFrom_ofSnapshot rfl

theorem boxProgram_nodes :
    boxProgram.IsLoadedFrom boxSnapshot ∧
      boxProgram.listedNodes = List.range 10 ∧
      (∀ node, (boxProgram.typeInfo? node).isSome = true ↔ node = 0 ∨ node = 2) ∧
      List.Forall₂ boxProgram.BindsFile boxSnapshot.files boxProgram.files ∧
      boxProgram.symbol? 0 = some (.value (.parameter .nullable)) ∧
      boxProgram.symbol? 3 = none ∧
      boxProgram.symbol? 7 = some (.property (some 4)) ∧
      boxProgram.symbol? 8 = none := by
  have hload := isLoadedFrom_boxProgram
  obtain ⟨hlisted, -, hgoverning, -, hfiles⟩ := nodes_numbered_and_bound hload
  refine ⟨hload, hlisted, ?_, hfiles, by decide, by decide, by decide, by decide⟩
  intro node
  rw [hgoverning, show boxProgram.governingNodes = [0, 2] by decide]
  simp

end ClosedSwitch
