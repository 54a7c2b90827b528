import ClosedSwitch.Proofs.Options.Layers
import ClosedSwitch.Suppressor

/-!
# What a configuration can change

A suppressor asks about types, symbols and places, and whether records may be roots in
the file of the diagnostic.  A configuration answers none of the former and is heard on
the latter only through the layers of options.  So two configurations that agree on
records in a file lead to the same decisions there, a suppressor that takes records for
granted never notices the configuration, and neither does any suppressor in a file whose
own options have the key.
-/

namespace ClosedSwitch

namespace Program

/-! ## Decisions depend on queries and on one bit -/

/-- The two programs answer alike whatever is asked about types, syntax, symbols and
locations. -/
structure SameQueries (P P' : Program) : Prop where
  types : P'.types = P.types
  scope : P'.scope = P.scope
  file? : ∀ file, P'.file? file = P.file? file
  fileId? : ∀ path, P'.fileId? path = P.fileId? path
  typeInfo : ∀ node, P'.typeInfo node = P.typeInfo node
  symbol? : ∀ node, P'.symbol? node = P.symbol? node
  expressionAt? : ∀ location, P'.expressionAt? location = P.expressionAt? location
  statementAt? : ∀ location, P'.statementAt? location = P.statementAt? location
  diagnostics : P'.diagnostics = P.diagnostics

theorem sameQueries_withConfig (P : Program) (c c' : Config) :
    (P.withConfig c).SameQueries (P.withConfig c') where
  types := rfl
  scope := rfl
  file? _ := rfl
  fileId? _ := rfl
  typeInfo _ := rfl
  symbol? _ := rfl
  expressionAt? _ := rfl
  statementAt? _ := rfl
  diagnostics := rfl

namespace SameQueries

section Symbols

variable {P P' : Program} (h : P.SameQueries P')

include h

theorem namedType?_eq (node : NodeId) : P'.namedType? node = P.namedType? node := by
  rw [namedType?, namedType?, h.symbol?]

theorem memberType?_eq (node : NodeId) : P'.memberType? node = P.memberType? node := by
  rw [memberType?, memberType?, h.symbol?]

theorem method?_eq (node : NodeId) : P'.method? node = P.method? node := by
  rw [method?, method?, h.symbol?]

theorem testedType?_eq (p : BoundPattern) : P'.testedType? p = P.testedType? p := by
  simp only [testedType?, h.namedType?_eq]

theorem headAccepts_eq (member : Option TypeId) (p : BoundPattern) :
    P'.headAccepts member p = P.headAccepts member p := by
  simp only [headAccepts, widens, h.namedType?_eq, h.types]

end Symbols

mutual

theorem clausesAccept_eq
    {P P' : Program} (h : P.SameQueries P') (p : BoundPattern) :
    P'.clausesAccept p = P.clausesAccept p := by
  cases p with
  | recursive name positional properties designation =>
      rw [clausesAccept, clausesAccept, positionalAccepts_eq h positional,
        propertiesAccept_eq h properties]
  | constant value => rfl
  | type name => rfl
  | declaration name designation => rfl
  | discard => rfl
  | var designation => rfl
  | relational op value => rfl
  | undescribed => rfl

theorem positionalAccepts_eq
    {P P' : Program} (h : P.SameQueries P')
    (positional : Option (PositionalClause NodeId BoundPattern)) :
    P'.positionalAccepts positional = P.positionalAccepts positional := by
  rcases positional with _ | ⟨node, elements⟩
  · rfl
  · rw [positionalAccepts, positionalAccepts, h.method?_eq,
      elementsAccept_eq h (P.method? node) 0 elements]

theorem propertiesAccept_eq
    {P P' : Program} (h : P.SameQueries P')
    (properties : Option (List (MemberPattern NodeId BoundPattern))) :
    P'.propertiesAccept properties = P.propertiesAccept properties := by
  rcases properties with _ | members
  · rfl
  · exact membersAccept_eq h members

theorem elementsAccept_eq
    {P P' : Program} (h : P.SameQueries P')
    (method : Option DeconstructMethod) (index : Nat) (ps : List BoundPattern) :
    P'.elementsAccept method index ps = P.elementsAccept method index ps := by
  rcases ps with _ | ⟨p, rest⟩
  · rfl
  · rw [elementsAccept, elementsAccept, h.headAccepts_eq, clausesAccept_eq h p,
      elementsAccept_eq h method (index + 1) rest]

theorem membersAccept_eq
    {P P' : Program} (h : P.SameQueries P')
    (ps : List (MemberPattern NodeId BoundPattern)) :
    P'.membersAccept ps = P.membersAccept ps := by
  rcases ps with _ | ⟨⟨node, p⟩, rest⟩
  · rfl
  · rw [membersAccept, membersAccept, h.headAccepts_eq, h.memberType?_eq,
      clausesAccept_eq h p, membersAccept_eq h rest]

end

variable {P P' : Program} (h : P.SameQueries P')

include h

theorem caseCovers_eq (c : BoundCase) (target : TypeId) :
    P'.caseCovers c target = P.caseCovers c target := by
  rw [caseCovers, caseCovers, patternCovers, patternCovers, h.testedType?_eq, h.types,
    h.clausesAccept_eq]

theorem labelCovers_eq (l : BoundLabel) (target : TypeId) :
    P'.labelCovers target l = P.labelCovers target l := by
  simp only [labelCovers, h.namedType?_eq, h.types, h.caseCovers_eq]

theorem expressionIsExhaustive_eq (switch : SwitchExpression) (leaves : List TypeId) :
    P'.expressionIsExhaustive switch leaves = P.expressionIsExhaustive switch leaves := by
  simp only [expressionIsExhaustive, h.typeInfo, h.symbol?, h.caseCovers_eq]

theorem statementIsExhaustive_eq (switch : SwitchStatement) (leaves : List TypeId) :
    P'.statementIsExhaustive switch leaves = P.statementIsExhaustive switch leaves := by
  have hcovers : ∀ target, P'.labelCovers target = P.labelCovers target := by
    intro target
    funext l
    exact h.labelCovers_eq l target
  simp only [statementIsExhaustive, h.typeInfo, hcovers]

/-- With the same answer about records, a suppressor comes to the same decision. -/
theorem suppress?_eq
    {forceRecords : Bool} {d : Diagnostic}
    (hrecords : (forceRecords || P'.recordHierarchiesAllowed d.location.file) =
      (forceRecords || P.recordHierarchiesAllowed d.location.file))
    {x : Suppressor} (hx : x ∈ Suppressor.both forceRecords) :
    x.suppress? P' d = x.suppress? P d := by
  have hhierarchy : ∀ info, P'.hierarchyOf? forceRecords d.location.file info =
      P.hierarchyOf? forceRecords d.location.file info := by
    intro info
    rw [hierarchyOf?, hierarchyOf?, hrecords, h.types]
  simp only [Suppressor.both, List.mem_cons, List.not_mem_nil, or_false] at hx
  rcases hx with rfl | rfl
  · simp only [Suppressor.expression, suppressExpression?, h.expressionAt?, hhierarchy,
      h.typeInfo, h.expressionIsExhaustive_eq]
  · simp only [Suppressor.statement, suppressStatement?, h.statementAt?, hhierarchy,
      h.typeInfo, h.statementIsExhaustive_eq]

end SameQueries

/-! ## Configurations that cannot be told apart -/

/-- Where the layers of two configurations agree down to one that has the key, the
configurations agree on records. -/
theorem recordHierarchiesAllowed_eq_of_hasKey
    {P : Program} {s : Snapshot} (hP : load s = .ok P) {file : Nat} {f : FileDecl}
    (hf : s.files[file]? = some f) {c c' : Config} {above below below' : List Options}
    {layer : Options} (hc : optionLayers f c = above ++ layer :: below)
    (hc' : optionLayers f c' = above ++ layer :: below')
    (hkey : HasKey layer recordHierarchiesKey) :
    (P.withConfig c).recordHierarchiesAllowed file =
      (P.withConfig c').recordHierarchiesAllowed file := by
  have hlayers : ∀ c, (P.withConfig c).recordHierarchiesAllowed file =
      ((optionLayers f c).findSome? (·.lookup recordHierarchiesKey)).any spellsTrue := by
    intro c
    rw [recordHierarchiesAllowed, (represents_withConfig hP c).option?_eq, hf,
      Option.bind_some]
    rfl
  rw [hlayers c, hlayers c', hc, hc']
  exact congrArg (Option.any spellsTrue) (findSome?_lookup_eq_of_hasKey hkey)

end Program

/-- A configuration changes no query.  It changes a decision only by changing what the
file of the diagnostic allows for records, which the first layer with the key settles. -/
theorem configuration_acts_through_records
    {s : Snapshot} {P : Program} (hP : Program.load s = .ok P) :
    (∀ c c', (P.withConfig c).SameQueries (P.withConfig c')) ∧
    (∀ d c c', (P.withConfig c).recordHierarchiesAllowed d.location.file =
        (P.withConfig c').recordHierarchiesAllowed d.location.file →
      ∀ x ∈ Suppressor.both false,
        x.suppress? (P.withConfig c) d = x.suppress? (P.withConfig c') d) ∧
    (∀ d c c', ∀ x ∈ Suppressor.both true,
      x.suppress? (P.withConfig c) d = x.suppress? (P.withConfig c') d) ∧
    (∀ d f, s.files[d.location.file]? = some f → HasKey f.options recordHierarchiesKey →
      ∀ c c' forceRecords, ∀ x ∈ Suppressor.both forceRecords,
        x.suppress? (P.withConfig c) d = x.suppress? (P.withConfig c') d) ∧
    (∀ c file, (P.withConfig c).recordHierarchiesAllowed file = true ↔
      ∃ f, s.files[file]? = some f ∧
        ∃ text, SettledAs (optionLayers f c) recordHierarchiesKey text ∧
          Spells ['t', 'r', 'u', 'e'] text) ∧
    (∀ c c' file f above layer below below', s.files[file]? = some f →
      optionLayers f c = above ++ layer :: below →
      optionLayers f c' = above ++ layer :: below' →
      HasKey layer recordHierarchiesKey →
      (P.withConfig c).recordHierarchiesAllowed file =
        (P.withConfig c').recordHierarchiesAllowed file) := by
  have hsame := P.sameQueries_withConfig
  refine ⟨hsame, ?_, ?_, ?_, ?_, ?_⟩
  · intro d c c' hrecords x hx
    apply (hsame c' c).suppress?_eq _ hx
    rw [hrecords]
  · intro d c c' x hx
    apply (hsame c' c).suppress?_eq _ hx
    rw [Bool.true_or, Bool.true_or]
  · intro d f hf hkey c c' forceRecords x hx
    -- The options of the file are the first layer under either configuration.
    have hrecords : (P.withConfig c).recordHierarchiesAllowed d.location.file =
        (P.withConfig c').recordHierarchiesAllowed d.location.file :=
      Program.recordHierarchiesAllowed_eq_of_hasKey hP hf
        (List.nil_append _).symm (List.nil_append _).symm hkey
    apply (hsame c' c).suppress?_eq _ hx
    rw [hrecords]
  · intro c file
    exact (Program.represents_withConfig hP c).recordHierarchiesAllowed_iff file
  · intro c c' file f above layer below below' hf hc hc' hkey
    exact Program.recordHierarchiesAllowed_eq_of_hasKey hP hf hc hc' hkey

def layeredSwitch : SwitchDecl :=
  .expression ⟨0, 100⟩ { type := some "Root", nullability := ⟨.nonNull, .notNull⟩ }
    [⟨.type "Root.Leaf", false, ⟨0, 0⟩⟩]

/-- A record with one leaf, and two files that match the leaf.  The second has the option
itself, with a text that means nothing. -/
def layeredSnapshot : Snapshot where
  types :=
    [⟨{ name := "Root", isAbstract := true, members := [cloneMember],
        constructors := [⟨.privateAccess, []⟩, ⟨.protectedAccess, [some "Root"]⟩] },
      [⟨{ name := "Leaf", isSealed := true, base := some "Root" }, []⟩]⟩]
  files :=
    [{ path := "Open.cs", switches := [layeredSwitch] },
     { path := "Own.cs", options := [(recordHierarchiesKey, "on")],
       switches := [layeredSwitch] }]

def layeredProgram : Program := .ofSnapshot layeredSnapshot

/-- Records are allowed in all files, and the file `Open.cs` is given another text. -/
def layeredConfig (text : String) : Config where
  options := [(recordHierarchiesKey, "true")]
  files := [("Open.cs", [(recordHierarchiesKey, text)])]

theorem layeredProgram_configurations :
    Program.load layeredSnapshot = .ok layeredProgram ∧
      (layeredProgram.withConfig (layeredConfig " tRUE")).recordHierarchiesAllowed 0 = true ∧
      ¬ (layeredProgram.withConfig (layeredConfig "yes")).recordHierarchiesAllowed 0 = true ∧
      ((Suppressor.expression false).suppress?
        (layeredProgram.withConfig (layeredConfig " tRUE"))
        ⟨"CS8509", ⟨0, ⟨0, 6⟩⟩, ""⟩).isSome = true ∧
      (Suppressor.expression false).suppress?
        (layeredProgram.withConfig (layeredConfig "yes")) ⟨"CS8509", ⟨0, ⟨0, 6⟩⟩, ""⟩ = none ∧
      (∀ c, (Suppressor.expression false).suppress? (layeredProgram.withConfig c)
        ⟨"CS8509", ⟨1, ⟨0, 6⟩⟩, ""⟩ = none) ∧
      ∀ c, ((Suppressor.expression true).suppress? (layeredProgram.withConfig c)
        ⟨"CS8509", ⟨1, ⟨0, 6⟩⟩, ""⟩).isSome = true := by
  have hload : Program.load layeredSnapshot = .ok layeredProgram := rfl
  obtain ⟨-, -, hforced, hown, hallowed, hlayers⟩ := configuration_acts_through_records hload
  refine ⟨hload, ?_, ?_, by decide, by decide, ?_, ?_⟩
  · refine (hallowed _ 0).mpr ⟨_, rfl, " tRUE", ?_, ?_⟩
    · exact ⟨[[]], [(recordHierarchiesKey, " tRUE")], [[(recordHierarchiesKey, "true")]],
        rfl, by simp [HasKey], [], [], rfl, by simp [HasKey]⟩
    · exact ⟨[' '], ['t', 'R', 'U', 'E'], [], rfl, List.all_eq_true.mp (by decide),
        List.forall_mem_nil _, by decide⟩
  · have hbelow := hlayers (layeredConfig "yes") { layeredConfig "yes" with options := [] }
      0 _ [[]] [(recordHierarchiesKey, "yes")] _ _ rfl rfl rfl ⟨"yes", List.mem_cons_self⟩
    rw [hbelow]
    decide
  · intro c
    rw [hown _ _ rfl ⟨"on", List.mem_cons_self⟩ c {} false _ List.mem_cons_self]
    decide
  · intro c
    rw [hforced _ c {} _ List.mem_cons_self]
    decide

end ClosedSwitch
