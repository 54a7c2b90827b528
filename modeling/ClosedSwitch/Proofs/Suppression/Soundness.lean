import ClosedSwitch.Suppressor
import ClosedSwitch.Proofs.Coverage.Declared
import ClosedSwitch.Proofs.Coverage.Matching

/-!
# Suppressed switches miss nothing

A diagnostic is suppressed exactly when its switch is found, the governing type
is the root of a closed hierarchy, and the cases exhaust the leaves.  Such a
switch misses no object of the hierarchy: whatever the objects and their members
are, one whose runtime type converts to a leaf matches a case without a guard.
-/

namespace ClosedSwitch

universe u

namespace Program

/-! ## What a suppression establishes -/

/-- The governing type is the root of the closed hierarchy `h`, where the options
of `file` decide about records. -/
def JudgedBy
    (P : Program) (forceRecords : Bool) (file : Nat) (node : NodeId)
    (h : ClosedHierarchy) : Prop :=
  ∃ root, (P.typeInfo node).type = some root ∧
    P.types.classify (forceRecords || P.recordHierarchiesAllowed file) root = some h

theorem hierarchyOf?_eq_some_iff
    {P : Program} {forceRecords : Bool} {file : Nat} {node : NodeId}
    {h : ClosedHierarchy} :
    P.hierarchyOf? forceRecords file (P.typeInfo node) = some h ↔
      P.JudgedBy forceRecords file node h := by
  rw [hierarchyOf?, Option.bind_eq_some_iff]
  rfl

/-- The arms handle null, if that is needed, and cover every leaf. -/
structure ExpressionExhausts
    (P : Program) (switch : SwitchExpression) (leaves : List TypeId) : Prop where
  null : (P.typeInfo switch.governing.node).nullability.expressionNeedsNull
      (P.symbol? switch.governing.node) = true →
    ∃ arm ∈ switch.arms, arm.coversNull = true
  covers : ∀ leaf ∈ leaves, ∃ arm ∈ switch.arms, P.caseCovers arm leaf = true

/-- The labels handle null, if that is needed, and cover every leaf. -/
structure StatementExhausts
    (P : Program) (switch : SwitchStatement) (leaves : List TypeId) : Prop where
  null : (P.typeInfo switch.governing.node).nullability.statementNeedsNull = true →
    ∃ labels ∈ switch.sections, ∃ l ∈ labels, l.coversNull = true
  covers : ∀ leaf ∈ leaves,
    ∃ labels ∈ switch.sections, ∃ l ∈ labels, P.labelCovers leaf l = true

theorem expressionIsExhaustive_iff
    {P : Program} {switch : SwitchExpression} {leaves : List TypeId} :
    P.expressionIsExhaustive switch leaves = true ↔
      P.ExpressionExhausts switch leaves := by
  simp only [expressionIsExhaustive, Bool.and_eq_true, Bool.or_eq_true,
    Bool.not_eq_true', or_iff_not_imp_left, Bool.not_eq_false,
    List.any_eq_true, List.all_eq_true]
  constructor
  · rintro ⟨hnull, hcovers⟩
    exact ⟨hnull, hcovers⟩
  · rintro ⟨hnull, hcovers⟩
    exact ⟨hnull, hcovers⟩

theorem statementIsExhaustive_iff
    {P : Program} {switch : SwitchStatement} {leaves : List TypeId} :
    P.statementIsExhaustive switch leaves = true ↔
      P.StatementExhausts switch leaves := by
  simp only [statementIsExhaustive, Bool.and_eq_true, Bool.or_eq_true,
    Bool.not_eq_true', or_iff_not_imp_left, Bool.not_eq_false,
    List.any_eq_true, List.all_eq_true]
  constructor
  · rintro ⟨hnull, hcovers⟩
    exact ⟨hnull, hcovers⟩
  · rintro ⟨hnull, hcovers⟩
    exact ⟨hnull, hcovers⟩

theorem suppressExpression?_isSome_iff
    {P : Program} {forceRecords : Bool} {d : Diagnostic} :
    (P.suppressExpression? forceRecords d).isSome = true ↔
      (findDescriptor? expressionDescriptors d.id).isSome = true ∧
        ∃ switch h, P.expressionAt? d.location = some switch ∧
          P.JudgedBy forceRecords d.location.file switch.governing.node h ∧
          P.ExpressionExhausts switch h.leaves := by
  simp [suppressExpression?, Option.isSome_iff_exists, Option.bind_eq_some_iff,
    hierarchyOf?_eq_some_iff, expressionIsExhaustive_iff]

theorem suppressStatement?_isSome_iff
    {P : Program} {forceRecords : Bool} {d : Diagnostic} :
    (P.suppressStatement? forceRecords d).isSome = true ↔
      (findDescriptor? statementDescriptors d.id).isSome = true ∧
        ∃ switch h, P.statementAt? d.location = some switch ∧
          P.JudgedBy forceRecords d.location.file switch.governing.node h ∧
          P.StatementExhausts switch h.leaves := by
  simp [suppressStatement?, Option.isSome_iff_exists, Option.bind_eq_some_iff,
    hierarchyOf?_eq_some_iff, statementIsExhaustive_iff]

/-! ## Every object of the hierarchy is matched -/

/-- No arm is missing: null is handled if that is needed, and every object of a
leaf type matches an arm without a guard. -/
structure ExpressionMissesNothing
    (P : Program) (switch : SwitchExpression) (leaves : List TypeId) : Prop where
  null : (P.typeInfo switch.governing.node).nullability.expressionNeedsNull
      (P.symbol? switch.governing.node) = true →
    ∃ arm ∈ switch.arms, arm.coversNull = true
  objects : ∀ {α : Type u} (I : Interpretation P α) (o : α),
    (∃ leaf ∈ leaves, P.types.converts (I.runtimeType o) leaf = true) →
      ∃ arm ∈ switch.arms, I.MatchesCase arm o

/-- No label is missing: null is handled if that is needed, and every object of a
leaf type matches a label that is neither guarded nor the default. -/
structure StatementMissesNothing
    (P : Program) (switch : SwitchStatement) (leaves : List TypeId) : Prop where
  null : (P.typeInfo switch.governing.node).nullability.statementNeedsNull = true →
    ∃ labels ∈ switch.sections, ∃ l ∈ labels, l.coversNull = true
  objects : ∀ {α : Type u} (I : Interpretation P α) (o : α),
    (∃ leaf ∈ leaves, P.types.converts (I.runtimeType o) leaf = true) →
      ∃ labels ∈ switch.sections, ∃ l ∈ labels, I.MatchesLabel l o

theorem ExpressionExhausts.missesNothing
    {P : Program} {switch : SwitchExpression} {leaves : List TypeId}
    (hobject : P.types.supertypes TypeTable.object = [])
    (h : P.ExpressionExhausts switch leaves) :
    ExpressionMissesNothing.{u} P switch leaves := by
  refine ⟨h.null, ?_⟩
  rintro α I o ⟨leaf, hleaf, ho⟩
  obtain ⟨arm, harm, hcovers⟩ := h.covers leaf hleaf
  exact ⟨arm, harm, Interpretation.matchesCase_of_caseCovers hobject hcovers ho⟩

theorem StatementExhausts.missesNothing
    {P : Program} {switch : SwitchStatement} {leaves : List TypeId}
    (hobject : P.types.supertypes TypeTable.object = [])
    (h : P.StatementExhausts switch leaves) :
    StatementMissesNothing.{u} P switch leaves := by
  refine ⟨h.null, ?_⟩
  rintro α I o ⟨leaf, hleaf, ho⟩
  obtain ⟨labels, hlabels, l, hl, hcovers⟩ := h.covers leaf hleaf
  exact ⟨labels, hlabels, l, hl,
    Interpretation.matchesLabel_of_labelCovers hobject hcovers ho⟩

end Program

/-- A switch of a loaded program whose diagnostic is suppressed misses nothing. -/
theorem missesNothing_of_suppressed
    {s : Snapshot} {P : Program} (hP : P.IsLoadedFrom s)
    (forceRecords : Bool) (d : Diagnostic) :
    (((Suppressor.expression forceRecords).suppress? P d).isSome = true →
      ∃ switch h, P.expressionAt? d.location = some switch ∧
        P.JudgedBy forceRecords d.location.file switch.governing.node h ∧
        Program.ExpressionMissesNothing.{u} P switch h.leaves) ∧
    (((Suppressor.statement forceRecords).suppress? P d).isSome = true →
      ∃ switch h, P.statementAt? d.location = some switch ∧
        P.JudgedBy forceRecords d.location.file switch.governing.node h ∧
        Program.StatementMissesNothing.{u} P switch h.leaves) := by
  have hobject := hP.represents.types.supertypes_object
  constructor
  · intro hsuppressed
    obtain ⟨-, switch, h, hswitch, hjudged, hexhausts⟩ :=
      Program.suppressExpression?_isSome_iff.mp hsuppressed
    exact ⟨switch, h, hswitch, hjudged, hexhausts.missesNothing hobject⟩
  · intro hsuppressed
    obtain ⟨-, switch, h, hswitch, hjudged, hexhausts⟩ :=
      Program.suppressStatement?_isSome_iff.mp hsuppressed
    exact ⟨switch, h, hswitch, hjudged, hexhausts.missesNothing hobject⟩

/-- Types as objects of their own, with members of exactly their static types. -/
def Interpretation.ofTypes (P : Program) : Interpretation P TypeId where
  runtimeType t := t
  member _ node := (P.memberType? node).getD TypeTable.object
  element _ node index :=
    ((P.method? node).bind (·.elementType index)).getD TypeTable.object
  accepts _ _ := False
  member_converts o node t h := by
    rw [h]
    exact TypeTable.converts_refl P.types t
  element_converts o node method index t hmethod h := by
    rw [hmethod, Option.bind_some, h]
    exact TypeTable.converts_refl P.types t

theorem nestedProgram_missesNothing :
    ((Suppressor.expression false).suppress? nestedProgram
        ⟨"CS8509", ⟨0, ⟨0, 6⟩⟩, ""⟩).isSome = true ∧
      ((Suppressor.statement false).suppress? nestedProgram
        ⟨"IDE0010", ⟨0, ⟨100, 106⟩⟩, ""⟩).isSome = true ∧
      (∃ switch, nestedProgram.expressionAt? ⟨0, ⟨0, 6⟩⟩ = some switch ∧
        ∃ arm ∈ switch.arms, (Interpretation.ofTypes nestedProgram).MatchesCase arm 7) ∧
      ∃ switch, nestedProgram.statementAt? ⟨0, ⟨100, 106⟩⟩ = some switch ∧
        ∃ labels ∈ switch.sections, ∃ l ∈ labels,
          (Interpretation.ofTypes nestedProgram).MatchesLabel l 7 := by
  have hload := isLoadedFrom_nestedProgram
  have hleaf : ∃ leaf ∈ [7, 8], nestedProgram.types.converts 7 leaf = true :=
    ⟨7, by decide, by decide⟩
  refine ⟨by decide, by decide, ?_, ?_⟩
  · obtain ⟨switch, h, hswitch, ⟨root, hroot, hclosed⟩, hmisses⟩ :=
      (missesNothing_of_suppressed hload false ⟨"CS8509", ⟨0, ⟨0, 6⟩⟩, ""⟩).1 (by decide)
    cases hswitch
    cases hroot
    cases hclosed
    exact ⟨_, rfl, hmisses.objects (Interpretation.ofTypes nestedProgram) 7 hleaf⟩
  · obtain ⟨switch, h, hswitch, ⟨root, hroot, hclosed⟩, hmisses⟩ :=
      (missesNothing_of_suppressed hload false ⟨"IDE0010", ⟨0, ⟨100, 106⟩⟩, ""⟩).2
        (by decide)
    cases hswitch
    cases hroot
    cases hclosed
    exact ⟨_, rfl, hmisses.objects (Interpretation.ofTypes nestedProgram) 7 hleaf⟩

end ClosedSwitch
