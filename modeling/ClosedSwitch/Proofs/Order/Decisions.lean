import ClosedSwitch.Proofs.Order.Coverage
import ClosedSwitch.Proofs.Order.Rearrangement
import ClosedSwitch.Proofs.Suppression.Batch
import ClosedSwitch.Proofs.Suppression.Locate

/-!
# Decisions and the order of declarations

No decision depends on the order in which types are declared.  A snapshot with its types
rearranged loads as a program over a renumbered table, with the same files, and every
switch in it agrees with the same declaration.  Conversions and closed hierarchies are
then the same by name, and every diagnostic gets the same answer.
-/

namespace ClosedSwitch

/-! ## Questions by name -/

namespace TypeTable

/-- Whether one named type converts to another. -/
def nameConverts? (T : TypeTable) (source goal : String) : Option Bool :=
  (T.find? source).bind fun t => (T.find? goal).map (T.converts t)

/-- The names of the leaves of the closed hierarchy below a named type. -/
def leafNames? (T : TypeTable) (records : Bool) (root : String) : Option (List String) :=
  (T.find? root).bind fun t => (T.classify records t).map fun h => h.leaves.map T.name

namespace Renumbers

variable {σ : Equiv.Perm TypeId} {T T' : TypeTable}

theorem nameConverts?_eq (h : Renumbers σ T T') (source goal : String) :
    T'.nameConverts? source goal = T.nameConverts? source goal := by
  rw [nameConverts?, nameConverts?, h.find?_eq, h.find?_eq]
  cases T.find? source with
  | none => rfl
  | some t =>
      cases T.find? goal with
      | none => rfl
      | some u => exact congrArg some (h.converts_eq t u)

theorem leafNames?_rel
    (h : Renumbers σ T T') {decls decls' : List TypeDecl}
    (hT : T.Represents decls) (hT' : T'.Represents decls') (records : Bool) (root : String) :
    Option.Rel List.Perm (T.leafNames? records root) (T'.leafNames? records root) := by
  rw [leafNames?, leafNames?, h.find?_eq]
  cases T.find? root with
  | none => exact .none
  | some t =>
      refine rel_map ?_ (h.classify_rel hT hT' records t)
      intro c c' hperm
      have hnames := hperm.map T'.name
      rwa [h.map_name_eq] at hnames

theorem leafNames?_eq
    (h : Renumbers σ T T') (hnesting : KeepsNesting σ T T') (records : Bool) (root : String) :
    T'.leafNames? records root = T.leafNames? records root := by
  rw [leafNames?, leafNames?, h.find?_eq]
  cases T.find? root with
  | none => rfl
  | some t =>
      rw [Option.map_some, Option.bind_some, Option.bind_some, h.classify_eq hnesting,
        Option.map_map]
      simp only [Function.comp_def, h.map_name_eq]

end Renumbers

end TypeTable

/-! ## Programs under other numbers -/

namespace Program

/-- The program `P'` has the files and the configuration of `P`, over a scope under
other numbers, and each of its switches agrees with the declaration that the switch
agrees with in `P`. -/
structure Renumbers (σ : Equiv.Perm TypeId) (P P' : Program) : Prop where
  scope : Scope.Renumbers σ P.scope P'.scope
  files_eq : P'.files = P.files
  config_eq : P'.config = P.config
  agrees : ∀ f ∈ P.files, ∀ switch ∈ f.switches,
    ∃ d, P.SwitchAgrees d switch ∧ P'.SwitchAgrees d switch

section Rearranged

variable {s : Snapshot} {types : List TypeDecl} {P P' : Program}
  (hP : load s = .ok P) (hP' : load (s.withTypes types) = .ok P')

include hP hP'

theorem diagnostics_eq_of_load : P'.diagnostics = P.diagnostics := by
  have hsame := (parts_of_load hP').2
  change s.diagnostics.mapM (DiagnosticDecl.resolve (s.files.map (·.path))) =
    .ok P'.diagnostics at hsame
  rw [(parts_of_load hP).2, Except.ok.injEq] at hsame
  exact hsame.symm

theorem scope_renumbers_of_load
    {σ : Equiv.Perm TypeId} (h : TypeTable.Renumbers σ P.types P'.types) :
    Scope.Renumbers σ P.scope P'.scope := by
  refine ⟨h, ?_⟩
  have hextensions := mapM_eq_ok_map (fun _ _ => Extension.resolve_eq_ok_map h.find?_eq)
    (parts_of_load hP).1
  have hsame := (parts_of_load hP').1
  change s.extensions.mapM (Extension.resolve P'.types.find?) =
    .ok P'.scope.extensions at hsame
  rw [hextensions, Except.ok.injEq] at hsame
  exact hsame.symm

/-- Programs that are loaded from a snapshot and from a rearrangement of it, under one
configuration. -/
theorem renumbers_of_load
    {σ : Equiv.Perm TypeId} (h : TypeTable.Renumbers σ P.types P'.types) (config : Config) :
    Renumbers σ (P.withConfig config) (P'.withConfig config) := by
  have hrep : (P.withConfig config).Represents s :=
    IsLoadedFrom.represents ⟨P, config, hP, rfl⟩
  have hrep' : (P'.withConfig config).Represents (s.withTypes types) :=
    IsLoadedFrom.represents ⟨P', config, hP', rfl⟩
  have hfiles : P'.files = P.files := hrep'.files_eq.trans hrep.files_eq.symm
  refine ⟨scope_renumbers_of_load hP hP' h, hfiles, rfl, ?_⟩
  -- Nodes are numbered without regard to types, so a switch has one declaration in both.
  intro f hf switch hswitch
  have hagrees := hrep.forall₂_switches switchAgrees_number
  have hagrees' := hrep'.forall₂_switches switchAgrees_number
  change List.Forall₂ _ s.files P'.files at hagrees'
  rw [hfiles] at hagrees'
  obtain ⟨decl, hdecl, hdecl'⟩ := exists_of_forall₂_both hagrees hagrees' hf
  exact exists_of_forall₂_both hdecl hdecl' hswitch

end Rearranged

/-! ## The same answers -/

namespace Renumbers

variable {σ : Equiv.Perm TypeId} {P P' : Program}

theorem file?_eq (h : Renumbers σ P P') (file : Nat) : P'.file? file = P.file? file := by
  rw [file?, file?, h.files_eq]

theorem recordHierarchiesAllowed_eq (h : Renumbers σ P P') (file : Nat) :
    P'.recordHierarchiesAllowed file = P.recordHierarchiesAllowed file := by
  rw [recordHierarchiesAllowed, recordHierarchiesAllowed, option?, option?, h.file?_eq,
    h.config_eq]

theorem expressionAt?_eq (h : Renumbers σ P P') (l : Location) :
    P'.expressionAt? l = P.expressionAt? l := by
  rw [expressionAt?, expressionAt?, h.file?_eq]

theorem statementAt?_eq (h : Renumbers σ P P') (l : Location) :
    P'.statementAt? l = P.statementAt? l := by
  rw [statementAt?, statementAt?, h.file?_eq]

theorem hierarchyOf?_rel
    (h : Renumbers σ P P') {decls decls' : List TypeDecl}
    (hT : P.types.Represents decls) (hT' : P'.types.Represents decls')
    (forceRecords : Bool) (file : Nat) (g : Governing) :
    Option.Rel (fun c c' => (c.leaves.map σ).Perm c'.leaves)
      (P.hierarchyOf? forceRecords file ⟨g.staticType P.scope, g.nullability⟩)
      (P'.hierarchyOf? forceRecords file ⟨g.staticType P'.scope, g.nullability⟩) := by
  rw [hierarchyOf?, hierarchyOf?, h.recordHierarchiesAllowed_eq, h.scope.staticType_eq]
  cases g.staticType P.scope with
  | none => exact .none
  | some root => exact h.scope.types.classify_rel hT hT' _ root

theorem caseCovers_eq
    (h : Renumbers σ P P') {g : Governing} {c : DeclaredCase} {b : BoundCase}
    (hagrees : P.CaseAgrees (g.staticType P.scope) c b)
    (hagrees' : P'.CaseAgrees (g.staticType P'.scope) c b) (target : TypeId) :
    P'.caseCovers b (σ target) = P.caseCovers b target := by
  rw [hagrees.covers, hagrees'.covers, h.scope.staticType_eq, h.scope.caseCovers_eq]

theorem labelCovers_eq
    (h : Renumbers σ P P') {g : Governing} {l : DeclaredLabel} {b : BoundLabel}
    (hagrees : P.LabelAgrees (g.staticType P.scope) l b)
    (hagrees' : P'.LabelAgrees (g.staticType P'.scope) l b) (target : TypeId) :
    P'.labelCovers (σ target) b = P.labelCovers target b := by
  rw [hagrees.covers, hagrees'.covers, h.scope.staticType_eq, h.scope.labelCovers_eq]

/-- Leaves that are checked one by one may come in another order. -/
theorem all_leaves_eq
    {leaves leaves' : List TypeId} (hperm : (leaves.map σ).Perm leaves')
    {covers covers' : TypeId → Bool} (hcovers : ∀ leaf, covers' (σ leaf) = covers leaf) :
    leaves'.all covers' = leaves.all covers := by
  rw [← hperm.all_eq, List.all_map]
  congr 1
  funext leaf
  exact hcovers leaf

theorem expressionIsExhaustive_eq
    (h : Renumbers σ P P') {d : SwitchDecl} {switch : SwitchExpression}
    (hagrees : P.SwitchAgrees d (.expression switch))
    (hagrees' : P'.SwitchAgrees d (.expression switch))
    {leaves leaves' : List TypeId} (hperm : (leaves.map σ).Perm leaves') :
    P'.expressionIsExhaustive switch leaves' = P.expressionIsExhaustive switch leaves := by
  cases hagrees with
  | expression info symbol cases =>
      cases hagrees' with
      | expression info' symbol' cases' =>
          simp only [expressionIsExhaustive, info, info', symbol, symbol']
          congr 1
          apply all_leaves_eq hperm
          intro leaf
          apply any_congr_of_mem
          intro b hb
          obtain ⟨c, hc, hc'⟩ := exists_of_forall₂_both cases cases' hb
          exact h.caseCovers_eq hc hc' leaf

theorem statementIsExhaustive_eq
    (h : Renumbers σ P P') {d : SwitchDecl} {switch : SwitchStatement}
    (hagrees : P.SwitchAgrees d (.statement switch))
    (hagrees' : P'.SwitchAgrees d (.statement switch))
    {leaves leaves' : List TypeId} (hperm : (leaves.map σ).Perm leaves') :
    P'.statementIsExhaustive switch leaves' = P.statementIsExhaustive switch leaves := by
  cases hagrees with
  | statement info symbol sections =>
      cases hagrees' with
      | statement info' symbol' sections' =>
          simp only [statementIsExhaustive, info, info']
          congr 1
          apply all_leaves_eq hperm
          intro leaf
          apply any_congr_of_mem
          intro labels hlabels
          apply any_congr_of_mem
          intro b hb
          obtain ⟨ls, hls, hls'⟩ := exists_of_forall₂_both sections sections' hlabels
          obtain ⟨l, hl, hl'⟩ := exists_of_forall₂_both hls hls' hb
          exact h.labelCovers_eq hl hl' leaf

section Suppress

variable (h : Renumbers σ P P') {decls decls' : List TypeDecl}
  (hT : P.types.Represents decls) (hT' : P'.types.Represents decls')

include h hT hT'

/-- Where a test of the leaves does not depend on their numbers and their order, neither
does the judgment of a governing expression by that test. -/
theorem judgment_eq
    {g : Governing} {node : NodeId}
    (hinfo : P.typeInfo node = ⟨g.staticType P.scope, g.nullability⟩)
    (hinfo' : P'.typeInfo node = ⟨g.staticType P'.scope, g.nullability⟩)
    {test test' : List TypeId → Bool}
    (htest : ∀ leaves leaves', (leaves.map σ).Perm leaves' → test' leaves' = test leaves)
    {forceRecords : Bool} {file : Nat} {answer : Suppression} :
    ((P'.hierarchyOf? forceRecords file (P'.typeInfo node)).bind fun c =>
        if test' c.leaves then some answer else none) =
      (P.hierarchyOf? forceRecords file (P.typeInfo node)).bind fun c =>
        if test c.leaves then some answer else none := by
  rw [hinfo, hinfo']
  refine bind_eq_of_rel ?_ (h.hierarchyOf?_rel hT hT' forceRecords file g)
  intro c c' hperm
  rw [htest _ _ hperm]

theorem suppressExpression?_eq (forceRecords : Bool) (d : Diagnostic) :
    P'.suppressExpression? forceRecords d = P.suppressExpression? forceRecords d := by
  simp only [suppressExpression?, h.expressionAt?_eq, Option.bind_eq_bind]
  cases findDescriptor? expressionDescriptors d.id with
  | none => simp only [Option.bind_none]
  | some descriptor =>
      cases hswitch : P.expressionAt? d.location with
      | none => simp only [Option.bind_none]
      | some switch =>
          simp only [Option.bind_some]
          obtain ⟨f, hf, hmem⟩ := exists_mem_of_expressionAt? hswitch
          obtain ⟨decl, hagrees, hagrees'⟩ := h.agrees f hf _ hmem
          apply h.judgment_eq hT hT' hagrees.typeInfo_expression hagrees'.typeInfo_expression
          intro leaves leaves' hperm
          exact h.expressionIsExhaustive_eq hagrees hagrees' hperm

theorem suppressStatement?_eq (forceRecords : Bool) (d : Diagnostic) :
    P'.suppressStatement? forceRecords d = P.suppressStatement? forceRecords d := by
  simp only [suppressStatement?, h.statementAt?_eq, Option.bind_eq_bind]
  cases findDescriptor? statementDescriptors d.id with
  | none => simp only [Option.bind_none]
  | some descriptor =>
      cases hswitch : P.statementAt? d.location with
      | none => simp only [Option.bind_none]
      | some switch =>
          simp only [Option.bind_some]
          obtain ⟨f, hf, hmem⟩ := exists_mem_of_statementAt? hswitch
          obtain ⟨decl, hagrees, hagrees'⟩ := h.agrees f hf _ hmem
          apply h.judgment_eq hT hT' hagrees.typeInfo_statement hagrees'.typeInfo_statement
          intro leaves leaves' hperm
          exact h.statementIsExhaustive_eq hagrees hagrees' hperm

end Suppress

end Renumbers

end Program

theorem Program.Renumbers.reportSuppressions_eq
    {σ : Equiv.Perm TypeId} {P P' : Program} (h : Program.Renumbers σ P P')
    {decls decls' : List TypeDecl} (hT : P.types.Represents decls)
    (hT' : P'.types.Represents decls') {suppressors : List Suppressor}
    (hstandard : ∀ x ∈ suppressors, x.IsStandard) (diagnostics : List Diagnostic) :
    reportSuppressions P' suppressors diagnostics {} =
      reportSuppressions P suppressors diagnostics {} := by
  have hanswer : answer? P' suppressors = answer? P suppressors := by
    funext d
    apply answer?_congr
    intro x hx
    obtain ⟨forceRecords, rfl | rfl⟩ := hstandard x hx
    · exact h.suppressExpression?_eq hT hT' forceRecords d
    · exact h.suppressStatement?_eq hT hT' forceRecords d
  rw [reportSuppressions_eq_filterMap (neverCancels_of_isStandard hstandard P'),
    reportSuppressions_eq_filterMap (neverCancels_of_isStandard hstandard P), hanswer]

/-- A snapshot that loads still does so with its types rearranged at any depth, and every
decision is the same: conversions and leaves by name, the leaves in the same order if only
the types at the top have changed places, and the suppressions of the diagnostics. -/
theorem decisions_independent_of_declaration_order
    {s : Snapshot} {P : Program} (hP : Program.load s = .ok P)
    {types : List TypeDecl} (h : TypeDecl.Rearranged s.types types) :
    ∃ P', Program.load (s.withTypes types) = .ok P' ∧
      (∀ source goal,
        P'.types.nameConverts? source goal = P.types.nameConverts? source goal) ∧
      (∀ records root, Option.Rel List.Perm
        (P.types.leafNames? records root) (P'.types.leafNames? records root)) ∧
      (s.types.Perm types → ∀ records root,
        P'.types.leafNames? records root = P.types.leafNames? records root) ∧
      ∀ config suppressors, (∀ x ∈ suppressors, Suppressor.IsStandard x) →
        ∃ reported,
          reportSuppressions (P.withConfig config) suppressors P.diagnostics {} =
            (.ok reported, {}) ∧
          reportSuppressions (P'.withConfig config) suppressors P'.diagnostics {} =
            (.ok reported, {}) := by
  obtain ⟨P', hP'⟩ := Snapshot.exists_load_withTypes h hP
  have hT := (Program.represents_of_load hP).types
  have hT' := (Program.represents_of_load hP').types
  obtain ⟨σ, hσ, hnesting⟩ := TypeTable.exists_renumbers hT hT' h
  refine ⟨P', hP', hσ.nameConverts?_eq, hσ.leafNames?_rel hT hT', ?_, ?_⟩
  · intro hperm
    exact hσ.leafNames?_eq (hnesting hperm)
  · intro config suppressors hstandard
    have hreport := (Program.renumbers_of_load hP hP' hσ config).reportSuppressions_eq
      hT hT' hstandard P.diagnostics
    refine ⟨_, reportSuppressions_eq_filterMap (neverCancels_of_isStandard hstandard _) _, ?_⟩
    rw [Program.diagnostics_eq_of_load hP hP', hreport]
    exact reportSuppressions_eq_filterMap (neverCancels_of_isStandard hstandard _) _

/-- The sample with nested patterns, with a diagnostic at each of its switches. -/
def diagnosedSnapshot : Snapshot :=
  { nestedSnapshot with
    diagnostics := [⟨"CS8509", "Test.cs", ⟨0, 6⟩, ""⟩, ⟨"IDE0010", "Test.cs", ⟨100, 106⟩, ""⟩] }

/-- Its types with the second root first, and the two leaves of that root exchanged. -/
def exchangedTypes : List TypeDecl :=
  match nestedSnapshot.types with
  | [inner, ⟨shape, [wrap, leaf]⟩] => [⟨shape, [leaf, wrap]⟩, inner]
  | types => types

theorem rearranged_exchangedTypes :
    TypeDecl.Rearranged diagnosedSnapshot.types exchangedTypes :=
  .trans (.of_perm (.swap _ _ _)) (.cons _ (.swap _ _ _) (.refl _))

/-- The program before the exchange, in which `Root.Wrap` is declared first. -/
def diagnosedProgram : Program := .ofSnapshot diagnosedSnapshot

theorem leafNames?_diagnosedProgram :
    diagnosedProgram.types.leafNames? false "Root" = some ["Root.Wrap", "Root.Leaf"] :=
  rfl

theorem exchangedTypes_same_decisions :
    TypeDecl.Rearranged diagnosedSnapshot.types exchangedTypes ∧
      ∃ P', Program.load (diagnosedSnapshot.withTypes exchangedTypes) = .ok P' ∧
        P'.types.nameConverts? "Root.Wrap" "Root" = some true ∧
        Option.Rel List.Perm (some ["Root.Wrap", "Root.Leaf"])
          (P'.types.leafNames? false "Root") ∧
        ∃ reported, reported.length = 2 ∧
          reportSuppressions (P'.withConfig {}) (Suppressor.both false) P'.diagnostics {} =
            (.ok reported, {}) := by
  have hload : Program.load diagnosedSnapshot = .ok diagnosedProgram := rfl
  obtain ⟨P', hP', hconverts, hleaves, -, hreports⟩ :=
    decisions_independent_of_declaration_order hload rearranged_exchangedTypes
  have hroot := hleaves false "Root"
  rw [leafNames?_diagnosedProgram] at hroot
  have hstandard : ∀ x ∈ Suppressor.both false, x.IsStandard := by
    intro x hx
    simp only [Suppressor.both, List.mem_cons, List.not_mem_nil, or_false] at hx
    exact ⟨false, hx⟩
  obtain ⟨reported, hreported, hreported'⟩ := hreports {} _ hstandard
  have htwo : (reportSuppressions (diagnosedProgram.withConfig {}) (Suppressor.both false)
      diagnosedProgram.diagnostics {}).1.toOption.map List.length = some 2 := by decide
  rw [hreported] at htwo
  refine ⟨rearranged_exchangedTypes, P', hP', ?_, hroot, reported, ?_, hreported'⟩
  · exact (hconverts _ _).trans (by decide)
  · exact Option.some.inj htwo

end ClosedSwitch
