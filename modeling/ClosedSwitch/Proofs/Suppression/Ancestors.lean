import ClosedSwitch.Proofs.Hierarchy.Leaves
import ClosedSwitch.Proofs.Suppression.Soundness
import ClosedSwitch.Proofs.TypeTable.Preorder

/-!
# Matching a type above the leaves

A case that covers a type covers every type that converts to it.  The leaves of a
closed hierarchy convert to its root and to every type that they are nested in below
the root, because the traversal only ever goes from a type to a nested type that
derives from it.  So a switch need not name the leaves: where it covers the root, or
for each leaf a type on the way down to it, every leaf is covered, and nothing but null
can stand in the way of a suppression.
-/

namespace ClosedSwitch

namespace TypeTable

/-! ## The types that a leaf is nested in -/

/-- The type `u` is on the nesting path that leads from below `root` down to `t`, of
which `t` itself is the end. -/
def OnPath (T : TypeTable) (root t u : TypeId) : Prop :=
  T.IsInside root u ∧ Relation.ReflTransGen T.IsChild u t

theorem converts_of_base?
    {T : TypeTable} {t b : TypeId} (h : T.base? t = some b) : T.converts t b = true := by
  apply (T.converts_iff t b).mpr
  exact Or.inr (Relation.ReflTransGen.single (isSupertype_iff.mpr (Or.inl h)))

/-- A type at the end of a derivation chain converts to the start of the chain. -/
theorem Represents.converts_of_derives
    {T : TypeTable} {decls : List TypeDecl} (hT : T.Represents decls)
    {records : Bool} {root t : TypeId} (h : T.Derives records root t) :
    T.converts t root = true := by
  induction h with
  | refl => exact T.converts_refl root
  | tail _ hstep ih =>
      have hbase := (mem_derived_iff.mp hstep.2).2
      exact converts_trans hT.supertypes_object (converts_of_base? hbase) ih

/-- No type has two enclosing types, so the nesting path down to the end of a chain
runs through the types of the chain. -/
theorem Represents.converts_of_onPath
    {T : TypeTable} {decls : List TypeDecl} (hT : T.Represents decls)
    {records : Bool} {root t u : TypeId} (h : T.Derives records root t)
    (hu : T.OnPath root t u) :
    T.converts t u = true := by
  obtain ⟨hinside, hpath⟩ := hu
  induction h with
  | refl =>
      -- The path would lead from below the root back to it.
      have hcycle : T.IsInside root root := Relation.TransGen.trans_left hinside hpath
      exact absurd (hT.lt_of_isInside hcycle) (Nat.lt_irrefl root)
  | tail _ hstep ih =>
      obtain ⟨hchild, hbase⟩ := mem_derived_iff.mp hstep.2
      rcases Relation.ReflTransGen.cases_tail hpath with heq | ⟨parent, hpath, hparent⟩
      · rw [heq]
        exact T.converts_refl u
      · rw [hT.isChild_unique hparent hchild] at hpath
        exact converts_trans hT.supertypes_object (converts_of_base? hbase) (ih hpath)

/-- The predicate `covered` holds of the root, or for every leaf of a type on the way
down to it. -/
def CoveredAbove (T : TypeTable) (h : ClosedHierarchy) (covered : TypeId → Prop) : Prop :=
  covered h.root ∨ ∀ leaf ∈ h.leaves, ∃ u, T.OnPath h.root leaf u ∧ covered u

/-- What holds above the leaves holds of them, if it goes down along conversions. -/
theorem CoveredAbove.forall_leaves
    {T : TypeTable} {decls : List TypeDecl} (hT : T.Represents decls)
    {records : Bool} {root : TypeId} {h : ClosedHierarchy}
    (hclosed : T.classify records root = some h)
    {covered : TypeId → Prop}
    (hdown : ∀ t u, T.converts t u = true → covered u → covered t)
    (habove : T.CoveredAbove h covered) :
    ∀ leaf ∈ h.leaves, covered leaf := by
  intro leaf hleaf
  have hderives := ((mem_leaves_iff hclosed).mp hleaf).1
  rw [CoveredAbove, root_of_classify hclosed] at habove
  rcases habove with hroot | hpaths
  · exact hdown leaf root (hT.converts_of_derives hderives) hroot
  · obtain ⟨u, hu, hcovered⟩ := hpaths leaf hleaf
    exact hdown leaf u (hT.converts_of_onPath hderives hu) hcovered

end TypeTable

/-! ## Decisions that rest on null alone -/

namespace Program

/-- Every leaf is covered by an arm, and the diagnostic is suppressed exactly when null
needs no arm or has one. -/
structure ExpressionRestsOnNull
    (P : Program) (forceRecords : Bool) (d : Diagnostic) (switch : SwitchExpression)
    (leaves : List TypeId) : Prop where
  covers : ∀ leaf ∈ leaves, ∃ arm ∈ switch.arms, P.caseCovers arm leaf = true
  answer_iff : ∀ answer,
    (Suppressor.expression forceRecords).suppress? P d = some answer ↔
      findDescriptor? expressionDescriptors d.id = some answer.descriptor ∧
      answer.diagnostic = d ∧
      ((P.typeInfo switch.governing.node).nullability.expressionNeedsNull
          (P.symbol? switch.governing.node) = true →
        ∃ arm ∈ switch.arms, arm.coversNull = true)

/-- Every leaf is covered by a label, and the diagnostic is suppressed exactly when null
needs no label or has one. -/
structure StatementRestsOnNull
    (P : Program) (forceRecords : Bool) (d : Diagnostic) (switch : SwitchStatement)
    (leaves : List TypeId) : Prop where
  covers : ∀ leaf ∈ leaves,
    ∃ labels ∈ switch.sections, ∃ l ∈ labels, P.labelCovers leaf l = true
  answer_iff : ∀ answer,
    (Suppressor.statement forceRecords).suppress? P d = some answer ↔
      findDescriptor? statementDescriptors d.id = some answer.descriptor ∧
      answer.diagnostic = d ∧
      ((P.typeInfo switch.governing.node).nullability.statementNeedsNull = true →
        ∃ labels ∈ switch.sections, ∃ l ∈ labels, l.coversNull = true)

theorem suppressExpression?_eq_some_iff
    {P : Program} {forceRecords : Bool} {d : Diagnostic} {switch : SwitchExpression}
    {h : ClosedHierarchy} (hfound : P.expressionAt? d.location = some switch)
    (hjudged : P.JudgedBy forceRecords d.location.file switch.governing.node h)
    {answer : Suppression} :
    P.suppressExpression? forceRecords d = some answer ↔
      findDescriptor? expressionDescriptors d.id = some answer.descriptor ∧
      answer.diagnostic = d ∧ P.ExpressionExhausts switch h.leaves := by
  rw [suppressExpression?, hfound]
  simp only [Option.bind_eq_bind, Option.bind_some,
    hierarchyOf?_eq_some_iff.mpr hjudged, Option.bind_eq_some_iff,
    Option.ite_none_right_eq_some, Option.some.injEq, expressionIsExhaustive_iff]
  constructor
  · rintro ⟨descriptor, hdescriptor, hexhausts, rfl⟩
    exact ⟨hdescriptor, rfl, hexhausts⟩
  · rintro ⟨hdescriptor, rfl, hexhausts⟩
    exact ⟨answer.descriptor, hdescriptor, hexhausts, rfl⟩

theorem suppressStatement?_eq_some_iff
    {P : Program} {forceRecords : Bool} {d : Diagnostic} {switch : SwitchStatement}
    {h : ClosedHierarchy} (hfound : P.statementAt? d.location = some switch)
    (hjudged : P.JudgedBy forceRecords d.location.file switch.governing.node h)
    {answer : Suppression} :
    P.suppressStatement? forceRecords d = some answer ↔
      findDescriptor? statementDescriptors d.id = some answer.descriptor ∧
      answer.diagnostic = d ∧ P.StatementExhausts switch h.leaves := by
  rw [suppressStatement?, hfound]
  simp only [Option.bind_eq_bind, Option.bind_some,
    hierarchyOf?_eq_some_iff.mpr hjudged, Option.bind_eq_some_iff,
    Option.ite_none_right_eq_some, Option.some.injEq, statementIsExhaustive_iff]
  constructor
  · rintro ⟨descriptor, hdescriptor, hexhausts, rfl⟩
    exact ⟨hdescriptor, rfl, hexhausts⟩
  · rintro ⟨hdescriptor, rfl, hexhausts⟩
    exact ⟨answer.descriptor, hdescriptor, hexhausts, rfl⟩

theorem expressionRestsOnNull_of_covers
    {P : Program} {forceRecords : Bool} {d : Diagnostic} {switch : SwitchExpression}
    {h : ClosedHierarchy} (hfound : P.expressionAt? d.location = some switch)
    (hjudged : P.JudgedBy forceRecords d.location.file switch.governing.node h)
    (hcovers : ∀ leaf ∈ h.leaves, ∃ arm ∈ switch.arms, P.caseCovers arm leaf = true) :
    P.ExpressionRestsOnNull forceRecords d switch h.leaves := by
  refine ⟨hcovers, ?_⟩
  intro answer
  apply (suppressExpression?_eq_some_iff hfound hjudged).trans
  refine and_congr_right fun _ => and_congr_right fun _ => ?_
  exact ⟨fun hexhausts => hexhausts.null, fun hnull => ⟨hnull, hcovers⟩⟩

theorem statementRestsOnNull_of_covers
    {P : Program} {forceRecords : Bool} {d : Diagnostic} {switch : SwitchStatement}
    {h : ClosedHierarchy} (hfound : P.statementAt? d.location = some switch)
    (hjudged : P.JudgedBy forceRecords d.location.file switch.governing.node h)
    (hcovers : ∀ leaf ∈ h.leaves,
      ∃ labels ∈ switch.sections, ∃ l ∈ labels, P.labelCovers leaf l = true) :
    P.StatementRestsOnNull forceRecords d switch h.leaves := by
  refine ⟨hcovers, ?_⟩
  intro answer
  apply (suppressStatement?_eq_some_iff hfound hjudged).trans
  refine and_congr_right fun _ => and_congr_right fun _ => ?_
  exact ⟨fun hexhausts => hexhausts.null, fun hnull => ⟨hnull, hcovers⟩⟩

end Program

/-- Covering goes down along conversions, leaves convert to all types that they are
nested in up to the root, and a switch that covers every leaf from above is judged by
null alone. -/
theorem matching_above_leaves_suffices
    {s : Snapshot} {P : Program} (hP : P.IsLoadedFrom s) :
    (∀ c t u, P.types.converts t u = true → P.caseCovers c u = true →
      P.caseCovers c t = true) ∧
    (∀ l t u, P.types.converts t u = true → P.labelCovers u l = true →
      P.labelCovers t l = true) ∧
    (∀ records root h, P.types.classify records root = some h → ∀ leaf ∈ h.leaves,
      P.types.converts leaf root = true ∧
      ∀ u, P.types.OnPath root leaf u → P.types.converts leaf u = true) ∧
    (∀ forceRecords d switch h, P.expressionAt? d.location = some switch →
      P.JudgedBy forceRecords d.location.file switch.governing.node h →
      P.types.CoveredAbove h (fun t => ∃ arm ∈ switch.arms, P.caseCovers arm t = true) →
      P.ExpressionRestsOnNull forceRecords d switch h.leaves) ∧
    (∀ forceRecords d switch h, P.statementAt? d.location = some switch →
      P.JudgedBy forceRecords d.location.file switch.governing.node h →
      P.types.CoveredAbove h (fun t =>
        ∃ labels ∈ switch.sections, ∃ l ∈ labels, P.labelCovers t l = true) →
      P.StatementRestsOnNull forceRecords d switch h.leaves) := by
  have hT := hP.represents.types
  have hobject := hT.supertypes_object
  refine ⟨?_, ?_, ?_, ?_, ?_⟩
  · intro c t u ht hcovers
    exact Program.caseCovers_of_converts hobject hcovers ht
  · intro l t u ht hcovers
    exact Program.labelCovers_of_converts hobject hcovers ht
  · intro records root h hclosed leaf hleaf
    have hderives := ((TypeTable.mem_leaves_iff hclosed).mp hleaf).1
    exact ⟨hT.converts_of_derives hderives, fun u => hT.converts_of_onPath hderives⟩
  · intro forceRecords d switch h hfound hjudged habove
    apply Program.expressionRestsOnNull_of_covers hfound hjudged
    obtain ⟨root, -, hclosed⟩ := hjudged
    apply habove.forall_leaves hT hclosed
    rintro t u ht ⟨arm, harm, hcovers⟩
    exact ⟨arm, harm, Program.caseCovers_of_converts hobject hcovers ht⟩
  · intro forceRecords d switch h hfound hjudged habove
    apply Program.statementRestsOnNull_of_covers hfound hjudged
    obtain ⟨root, -, hclosed⟩ := hjudged
    apply habove.forall_leaves hT hclosed
    rintro t u ht ⟨labels, hlabels, l, hl, hcovers⟩
    exact ⟨labels, hlabels, l, hl, Program.labelCovers_of_converts hobject hcovers ht⟩

/-- A hierarchy of two levels.  The switch expression names the type in between and the
leaf beside it.  The switch statement names the root and leaves null out. -/
def tieredSnapshot : Snapshot where
  types :=
    [⟨{ name := "Root", isAbstract := true, constructors := [⟨.privateAccess, []⟩] },
      [⟨{ name := "Mid", isAbstract := true, base := some "Root",
          constructors := [⟨.privateAccess, []⟩] },
        [⟨{ name := "A", isSealed := true, base := some "Root.Mid" }, []⟩,
         ⟨{ name := "B", isSealed := true, base := some "Root.Mid" }, []⟩]⟩,
       ⟨{ name := "C", isSealed := true, base := some "Root" }, []⟩]⟩]
  files := [{
    path := "Test.cs"
    switches := [
      .expression ⟨0, 100⟩ { type := some "Root", nullability := ⟨.nonNull, .notNull⟩ }
        [⟨.type "Root.Mid", false, ⟨0, 0⟩⟩, ⟨.type "Root.C", false, ⟨0, 0⟩⟩],
      .statement ⟨100, 200⟩ { type := some "Root", nullability := ⟨.nullable, .maybeNull⟩ }
        [[.case ⟨.type "Root", false, ⟨0, 0⟩⟩]] ] }]

/-- Its types have the numbers 4 (`Root`), 5 (`Root.Mid`), 6 and 7 (`A` and `B` in
`Root.Mid`) and 8 (`Root.C`). -/
def tieredProgram : Program := .ofSnapshot tieredSnapshot

theorem isLoadedFrom_tieredProgram : tieredProgram.IsLoadedFrom tieredSnapshot :=
  Program.isLoadedFrom_ofSnapshot rfl

theorem tieredProgram_decisions :
    tieredProgram.IsLoadedFrom tieredSnapshot ∧
      tieredProgram.types.classify false 4 = some ⟨4, [6, 7, 8]⟩ ∧
      tieredProgram.types.converts 7 5 = true ∧
      (Suppressor.expression false).suppress? tieredProgram ⟨"CS8509", ⟨0, ⟨0, 6⟩⟩, ""⟩ =
        some ⟨closedHierarchyDescriptor "CS8509", ⟨"CS8509", ⟨0, ⟨0, 6⟩⟩, ""⟩⟩ ∧
      ∀ answer, (Suppressor.statement true).suppress? tieredProgram
        ⟨"IDE0010", ⟨0, ⟨100, 106⟩⟩, ""⟩ ≠ some answer := by
  have hload := isLoadedFrom_tieredProgram
  have hclosed : tieredProgram.types.classify false 4 = some ⟨4, [6, 7, 8]⟩ := by decide
  obtain ⟨-, -, hleaves, hexpression, hstatement⟩ := matching_above_leaves_suffices hload
  have hmid : ∀ leaf ∈ [6, 7], tieredProgram.types.OnPath 4 leaf 5 := by
    intro leaf hleaf
    have hchild : ∀ leaf ∈ [6, 7], tieredProgram.types.IsChild 5 leaf := by decide
    exact ⟨.single (by decide), .single (hchild leaf hleaf)⟩
  refine ⟨hload, hclosed, (hleaves false 4 _ hclosed 7 (by decide)).2 5 (hmid 7 (by decide)),
    ?_, ?_⟩
  · refine ((hexpression false ⟨"CS8509", ⟨0, ⟨0, 6⟩⟩, ""⟩ _ ⟨4, [6, 7, 8]⟩ rfl
      ⟨4, rfl, hclosed⟩ (Or.inr ?_)).answer_iff _).mpr ⟨rfl, rfl, by decide⟩
    intro leaf hleaf
    have hsplit : leaf ∈ [6, 7] ∨ leaf = 8 := by simpa [or_assoc] using hleaf
    rcases hsplit with hleaf | rfl
    · exact ⟨5, hmid leaf hleaf, by decide⟩
    · exact ⟨8, ⟨.single (by decide), .refl⟩, by decide⟩
  · intro answer hanswer
    have hnull := ((hstatement true _ _ ⟨4, [6, 7, 8]⟩ rfl ⟨4, rfl, by decide⟩
      (Or.inl (by decide))).answer_iff answer).mp hanswer
    exact absurd hnull.2.2 (by decide)

end ClosedSwitch
