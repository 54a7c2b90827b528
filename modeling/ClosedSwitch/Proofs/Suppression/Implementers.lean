import ClosedSwitch.Proofs.Hierarchy.Leaves
import ClosedSwitch.Proofs.Suppression.Soundness

/-!
# Which types a suppressed switch is bound to cover

A suppressed switch covers the leaves of its governing type, and with a leaf
every type that converts to it.  It owes nothing to any other type: a switch with
one case for each leaf is suppressed and covers just these.  So an implementer of
the governing type is sure to be covered only if it converts to a leaf.  A root
without constructors may have no leaves at all, and then an empty switch over it
is suppressed whatever implements it.
-/

namespace ClosedSwitch

namespace Program

/-! ## Suppressed switches over a type -/

/-- A switch expression over `root` is suppressed; `records` says whether records
may be roots there. -/
def SuppressesExpression
    (P : Program) (records : Bool) (root : TypeId) (switch : SwitchExpression) : Prop :=
  ∃ forceRecords d,
    ((Suppressor.expression forceRecords).suppress? P d).isSome = true ∧
      (forceRecords || P.recordHierarchiesAllowed d.location.file) = records ∧
      P.expressionAt? d.location = some switch ∧
      (P.typeInfo switch.governing.node).type = some root

/-- A switch statement over `root` is suppressed. -/
def SuppressesStatement
    (P : Program) (records : Bool) (root : TypeId) (switch : SwitchStatement) : Prop :=
  ∃ forceRecords d,
    ((Suppressor.statement forceRecords).suppress? P d).isSome = true ∧
      (forceRecords || P.recordHierarchiesAllowed d.location.file) = records ∧
      P.statementAt? d.location = some switch ∧
      (P.typeInfo switch.governing.node).type = some root

theorem JudgedBy.eq_of_classify
    {P : Program} {forceRecords : Bool} {file : Nat} {node : NodeId} {root : TypeId}
    {h h' : ClosedHierarchy} (hjudged : P.JudgedBy forceRecords file node h)
    (hroot : (P.typeInfo node).type = some root)
    (hclosed : P.types.classify (forceRecords || P.recordHierarchiesAllowed file) root =
      some h') :
    h = h' := by
  obtain ⟨found, hfound, hfoundClosed⟩ := hjudged
  rw [hroot, Option.some.injEq] at hfound
  rw [← hfound, hclosed, Option.some.injEq] at hfoundClosed
  exact hfoundClosed.symm

theorem exhausts_of_suppressesExpression
    {P : Program} {records : Bool} {root : TypeId} {h : ClosedHierarchy}
    (hclosed : P.types.classify records root = some h) {switch : SwitchExpression}
    (hswitch : P.SuppressesExpression records root switch) :
    P.ExpressionExhausts switch h.leaves := by
  obtain ⟨forceRecords, d, hsuppressed, rfl, hat, hroot⟩ := hswitch
  obtain ⟨-, found, h', hfound, hjudged, hexhausts⟩ :=
    suppressExpression?_isSome_iff.mp hsuppressed
  rw [hat, Option.some.injEq] at hfound
  subst hfound
  exact hjudged.eq_of_classify hroot hclosed ▸ hexhausts

theorem exhausts_of_suppressesStatement
    {P : Program} {records : Bool} {root : TypeId} {h : ClosedHierarchy}
    (hclosed : P.types.classify records root = some h) {switch : SwitchStatement}
    (hswitch : P.SuppressesStatement records root switch) :
    P.StatementExhausts switch h.leaves := by
  obtain ⟨forceRecords, d, hsuppressed, rfl, hat, hroot⟩ := hswitch
  obtain ⟨-, found, h', hfound, hjudged, hexhausts⟩ :=
    suppressStatement?_isSome_iff.mp hsuppressed
  rw [hat, Option.some.injEq] at hfound
  subst hfound
  exact hjudged.eq_of_classify hroot hclosed ▸ hexhausts

end Program

/-! ## A switch with one case for each leaf -/

section Leafwise

variable (T : TypeTable) (root : TypeId) (leaves : List TypeId)

/-- A value of type `root` that is known not to be null. -/
def leafwiseGoverning : Governing where
  type := some (T.name root)
  nullability := ⟨.nonNull, .notNull⟩

def leafwiseArms : List DeclaredCase :=
  leaves.map fun leaf => ⟨.type (T.name leaf), false, default⟩

def leafwiseLabels : List DeclaredLabel :=
  leaves.map fun leaf => .value (.name (T.name leaf)) default

/-- Both forms of switch over `root`, with one case for each leaf. -/
def leafwiseFile : FileDecl where
  path := ""
  switches := [
    .expression default (leafwiseGoverning T root) (leafwiseArms T leaves),
    .statement default (leafwiseGoverning T root) [leafwiseLabels T leaves]]

def leafwiseSnapshot (decls : List TypeDecl) : Snapshot where
  types := decls
  files := [leafwiseFile T root leaves]

def leafwiseProgram : Program where
  scope := ⟨T, []⟩
  files := numberEach FileDecl.nodeCount FileDecl.number 0 [leafwiseFile T root leaves]
  nodes := ([leafwiseFile T root leaves].flatMap (FileDecl.facts ⟨T, []⟩)).toArray
  diagnostics := []

variable {T root leaves}

theorem isLoadedFrom_leafwiseProgram
    {decls : List TypeDecl} (h : TypeTable.load decls = .ok T) :
    (leafwiseProgram T root leaves).IsLoadedFrom
      (leafwiseSnapshot T root leaves decls) := by
  refine ⟨leafwiseProgram T root leaves, {}, ?_, rfl⟩
  rw [Program.load, leafwiseSnapshot, h]
  rfl

/-- The file sets no options, so records are allowed only by force. -/
theorem leafwise_records (records : Bool) :
    (records || (leafwiseProgram T root leaves).recordHierarchiesAllowed 0) = records :=
  Bool.or_false records

theorem exists_leafwiseExpression
    {decls : List TypeDecl} (h : TypeTable.load decls = .ok T) :
    ∃ switch,
      (leafwiseProgram T root leaves).expressionAt? ⟨0, default⟩ = some switch ∧
      (leafwiseProgram T root leaves).typeInfo switch.governing.node =
        ⟨T.find? (T.name root), ⟨.nonNull, .notNull⟩⟩ ∧
      List.Forall₂ ((leafwiseProgram T root leaves).CaseAgrees (T.find? (T.name root)))
        (leafwiseArms T leaves) switch.arms := by
  have hloaded : (leafwiseProgram T root leaves).IsLoadedFrom _ :=
    isLoadedFrom_leafwiseProgram h
  rcases hloaded.represents.forall₂_switches Program.switchAgrees_number
    with _ | ⟨hfile, _⟩
  rcases hfile with _ | ⟨hexpression, _⟩
  cases hexpression with
  | expression info _ agrees => exact ⟨_, rfl, info, agrees⟩

theorem exists_leafwiseStatement
    {decls : List TypeDecl} (h : TypeTable.load decls = .ok T) :
    ∃ switch,
      (leafwiseProgram T root leaves).statementAt? ⟨0, default⟩ = some switch ∧
      (leafwiseProgram T root leaves).typeInfo switch.governing.node =
        ⟨T.find? (T.name root), ⟨.nonNull, .notNull⟩⟩ ∧
      List.Forall₂ (List.Forall₂
          ((leafwiseProgram T root leaves).LabelAgrees (T.find? (T.name root))))
        [leafwiseLabels T leaves] switch.sections := by
  have hloaded : (leafwiseProgram T root leaves).IsLoadedFrom _ :=
    isLoadedFrom_leafwiseProgram h
  rcases hloaded.represents.forall₂_switches Program.switchAgrees_number
    with _ | ⟨hfile, _⟩
  rcases hfile with _ | ⟨_, hrest⟩
  rcases hrest with _ | ⟨hstatement, _⟩
  cases hstatement with
  | statement info _ agrees => exact ⟨_, rfl, info, agrees⟩

/-- The arms cover the types that convert to a leaf. -/
theorem leafwiseArms_cover_iff
    {input : Option TypeId} {arms : List BoundCase}
    (hnames : ∀ leaf ∈ leaves, T.find? (T.name leaf) = some leaf)
    (hagrees : List.Forall₂ ((leafwiseProgram T root leaves).CaseAgrees input)
      (leafwiseArms T leaves) arms) (t : TypeId) :
    (∃ arm ∈ arms, (leafwiseProgram T root leaves).caseCovers arm t = true) ↔
      ∃ leaf ∈ leaves, T.converts t leaf = true := by
  have hdeclared :
      (∃ c ∈ leafwiseArms T leaves, Scope.caseCovers ⟨T, []⟩ input c t = true) ↔
        ∃ leaf ∈ leaves, T.converts t leaf = true := by
    simp only [leafwiseArms, List.mem_map, exists_exists_and_eq_and]
    refine exists_congr fun leaf => and_congr_right fun hleaf => ?_
    simp [Scope.caseCovers, Scope.testedType?, Scope.clausesAccept, hnames leaf hleaf]
  rw [← hdeclared]
  refine (exists_mem_iff_of_forall₂ ?_ hagrees).symm
  intro c arm hcase
  rw [hcase.covers t]
  rfl

/-- The labels cover the types that convert to a leaf. -/
theorem leafwiseLabels_cover_iff
    {input : Option TypeId} {sections : List (List BoundLabel)}
    (hnames : ∀ leaf ∈ leaves, T.find? (T.name leaf) = some leaf)
    (hagrees : List.Forall₂
      (List.Forall₂ ((leafwiseProgram T root leaves).LabelAgrees input))
      [leafwiseLabels T leaves] sections) (t : TypeId) :
    (∃ labels ∈ sections, ∃ l ∈ labels,
        (leafwiseProgram T root leaves).labelCovers t l = true) ↔
      ∃ leaf ∈ leaves, T.converts t leaf = true := by
  have hdeclared :
      (∃ labels ∈ [leafwiseLabels T leaves], ∃ l ∈ labels,
          Scope.labelCovers ⟨T, []⟩ input t l = true) ↔
        ∃ leaf ∈ leaves, T.converts t leaf = true := by
    simp only [List.mem_singleton, exists_eq_left, leafwiseLabels, List.mem_map,
      exists_exists_and_eq_and]
    refine exists_congr fun leaf => and_congr_right fun hleaf => ?_
    simp [Scope.labelCovers, hnames leaf hleaf]
  rw [← hdeclared]
  refine (exists_mem_iff_of_forall₂ ?_ hagrees).symm
  intro declared labels hlabels
  refine exists_mem_iff_of_forall₂ ?_ hlabels
  intro l label hlabel
  rw [hlabel.covers t]
  rfl

end Leafwise

/-! ## What suppressed switches have to cover -/

/-- Every suppressed switch expression over `root`, in any program with the given
types, has an arm that covers `t`. -/
def CoveredByArms (decls : List TypeDecl) (records : Bool) (root t : TypeId) : Prop :=
  ∀ (s : Snapshot) (P : Program) (switch : SwitchExpression),
    s.types = decls → P.IsLoadedFrom s → P.SuppressesExpression records root switch →
      ∃ arm ∈ switch.arms, P.caseCovers arm t = true

/-- Every suppressed switch statement over `root`, in any program with the given
types, has a label that covers `t`. -/
def CoveredByLabels (decls : List TypeDecl) (records : Bool) (root t : TypeId) : Prop :=
  ∀ (s : Snapshot) (P : Program) (switch : SwitchStatement),
    s.types = decls → P.IsLoadedFrom s → P.SuppressesStatement records root switch →
      ∃ labels ∈ switch.sections, ∃ l ∈ labels, P.labelCovers t l = true

section Obligation

variable {decls : List TypeDecl} {T : TypeTable} {records : Bool} {root : TypeId}
  {h : ClosedHierarchy}

theorem leafwise_suppressesExpression
    (hload : TypeTable.load decls = .ok T) (hclosed : T.classify records root = some h) :
    ∃ switch,
      (leafwiseProgram T root h.leaves).SuppressesExpression records root switch ∧
      ∀ t, (∃ arm ∈ switch.arms,
          (leafwiseProgram T root h.leaves).caseCovers arm t = true) ↔
        ∃ leaf ∈ h.leaves, T.converts t leaf = true := by
  have hT := TypeTable.represents_of_load hload
  obtain ⟨switch, hat, hinfo, hagrees⟩ := exists_leafwiseExpression hload
  rw [hT.find?_root hclosed] at hinfo
  have hroot := congrArg TypeInfo.type hinfo
  have hcovers := leafwiseArms_cover_iff (hT.find?_leaf hclosed) hagrees
  refine ⟨switch, ⟨records, ⟨"CS8509", ⟨0, default⟩, ""⟩, ?_, leafwise_records _, hat,
    hroot⟩, hcovers⟩
  refine Program.suppressExpression?_isSome_iff.mpr
    ⟨rfl, switch, h, hat, ⟨root, hroot, ?_⟩, ?_, ?_⟩
  · exact (leafwise_records records).symm ▸ hclosed
  · intro hneeds
    rw [hinfo] at hneeds
    exact absurd hneeds Bool.false_ne_true
  · intro leaf hleaf
    exact (hcovers leaf).mpr ⟨leaf, hleaf, T.converts_refl leaf⟩

theorem leafwise_suppressesStatement
    (hload : TypeTable.load decls = .ok T) (hclosed : T.classify records root = some h) :
    ∃ switch,
      (leafwiseProgram T root h.leaves).SuppressesStatement records root switch ∧
      ∀ t, (∃ labels ∈ switch.sections, ∃ l ∈ labels,
          (leafwiseProgram T root h.leaves).labelCovers t l = true) ↔
        ∃ leaf ∈ h.leaves, T.converts t leaf = true := by
  have hT := TypeTable.represents_of_load hload
  obtain ⟨switch, hat, hinfo, hagrees⟩ := exists_leafwiseStatement hload
  rw [hT.find?_root hclosed] at hinfo
  have hroot := congrArg TypeInfo.type hinfo
  have hcovers := leafwiseLabels_cover_iff (hT.find?_leaf hclosed) hagrees
  refine ⟨switch, ⟨records, ⟨"IDE0010", ⟨0, default⟩, ""⟩, ?_, leafwise_records _, hat,
    hroot⟩, hcovers⟩
  refine Program.suppressStatement?_isSome_iff.mpr
    ⟨rfl, switch, h, hat, ⟨root, hroot, ?_⟩, ?_, ?_⟩
  · exact (leafwise_records records).symm ▸ hclosed
  · intro hneeds
    rw [hinfo] at hneeds
    exact absurd hneeds Bool.false_ne_true
  · intro leaf hleaf
    exact (hcovers leaf).mpr ⟨leaf, hleaf, T.converts_refl leaf⟩

theorem types_eq_of_isLoadedFrom
    (hload : TypeTable.load decls = .ok T)
    {s : Snapshot} {P : Program} (htypes : s.types = decls) (hP : P.IsLoadedFrom s) :
    P.types = T := by
  have hP' := hP.represents.types_eq
  rw [htypes, hload, Except.ok.injEq] at hP'
  exact hP'.symm

/-- Suppressed switch expressions have to cover exactly the types that convert to
a leaf. -/
theorem coveredByArms_iff
    (hload : TypeTable.load decls = .ok T) (hclosed : T.classify records root = some h)
    (t : TypeId) :
    CoveredByArms decls records root t ↔
      ∃ leaf ∈ h.leaves, T.converts t leaf = true := by
  constructor
  · intro hcovered
    obtain ⟨switch, hswitch, hcovers⟩ := leafwise_suppressesExpression hload hclosed
    exact (hcovers t).mp
      (hcovered _ _ switch rfl (isLoadedFrom_leafwiseProgram hload) hswitch)
  · rintro ⟨leaf, hleaf, ht⟩ s P switch htypes hP hswitch
    have hT := types_eq_of_isLoadedFrom hload htypes hP
    subst hT
    have hexhausts := Program.exhausts_of_suppressesExpression hclosed hswitch
    obtain ⟨arm, harm, hcovers⟩ := hexhausts.covers leaf hleaf
    exact ⟨arm, harm, Program.caseCovers_of_converts
      hP.represents.types.supertypes_object hcovers ht⟩

/-- Suppressed switch statements have to cover exactly the types that convert to
a leaf. -/
theorem coveredByLabels_iff
    (hload : TypeTable.load decls = .ok T) (hclosed : T.classify records root = some h)
    (t : TypeId) :
    CoveredByLabels decls records root t ↔
      ∃ leaf ∈ h.leaves, T.converts t leaf = true := by
  constructor
  · intro hcovered
    obtain ⟨switch, hswitch, hcovers⟩ := leafwise_suppressesStatement hload hclosed
    exact (hcovers t).mp
      (hcovered _ _ switch rfl (isLoadedFrom_leafwiseProgram hload) hswitch)
  · rintro ⟨leaf, hleaf, ht⟩ s P switch htypes hP hswitch
    have hT := types_eq_of_isLoadedFrom hload htypes hP
    subst hT
    have hexhausts := Program.exhausts_of_suppressesStatement hclosed hswitch
    obtain ⟨labels, hlabels, l, hl, hcovers⟩ := hexhausts.covers leaf hleaf
    exact ⟨labels, hlabels, l, hl, Program.labelCovers_of_converts
      hP.represents.types.supertypes_object hcovers ht⟩

end Obligation

/-! ## Implementers -/

/-- A sealed type, not abstract, that lists `root` among its interfaces. -/
def TypeTable.IsImplementer (T : TypeTable) (root t : TypeId) : Prop :=
  (T.entry t).isSealed = true ∧ (T.entry t).isAbstract = false ∧
    root ∈ (T.entry t).interfaces

instance (T : TypeTable) (root t : TypeId) : Decidable (T.IsImplementer root t) :=
  inferInstanceAs (Decidable (_ ∧ _ ∧ _))

/-- Suppressed switches over a type cover all of its implementers exactly when
every implementer converts to a leaf. -/
theorem implementers_covered_iff
    {s : Snapshot} {P : Program} (hP : P.IsLoadedFrom s)
    {records : Bool} {root : TypeId} {h : ClosedHierarchy}
    (hclosed : P.types.classify records root = some h) :
    ((∀ t, P.types.IsImplementer root t → CoveredByArms s.types records root t) ↔
      ∀ t, P.types.IsImplementer root t →
        ∃ leaf ∈ h.leaves, P.types.converts t leaf = true) ∧
    ((∀ t, P.types.IsImplementer root t → CoveredByLabels s.types records root t) ↔
      ∀ t, P.types.IsImplementer root t →
        ∃ leaf ∈ h.leaves, P.types.converts t leaf = true) := by
  have hload := hP.represents.types_eq
  constructor
  · exact forall₂_congr fun t _ => coveredByArms_iff hload hclosed t
  · exact forall₂_congr fun t _ => coveredByLabels_iff hload hclosed t

/-- An abstract type without constructors, an implementer of it, and both forms of
switch over it without any case. -/
def shapeSnapshot : Snapshot where
  types :=
    [⟨{ name := "Shape", isAbstract := true }, []⟩,
     ⟨{ name := "Circle", isSealed := true, interfaces := ["Shape"] }, []⟩]
  files := [{
    path := "Test.cs"
    switches := [
      .expression ⟨0, 6⟩ { type := some "Shape", nullability := ⟨.nonNull, .notNull⟩ } [],
      .statement ⟨6, 12⟩ { type := some "Shape", nullability := ⟨.nonNull, .notNull⟩ } []] }]

/-- Its types have the numbers 4 (`Shape`) and 5 (`Circle`). -/
def shapeProgram : Program := .ofSnapshot shapeSnapshot

theorem isLoadedFrom_shapeProgram : shapeProgram.IsLoadedFrom shapeSnapshot :=
  Program.isLoadedFrom_ofSnapshot rfl

theorem shapeProgram_implementer_uncovered :
    shapeProgram.types.classify false 4 = some ⟨4, []⟩ ∧
      shapeProgram.types.IsImplementer 4 5 ∧
      ¬ (∀ t, shapeProgram.types.IsImplementer 4 t →
        CoveredByArms shapeSnapshot.types false 4 t) ∧
      ¬ (∀ t, shapeProgram.types.IsImplementer 4 t →
        CoveredByLabels shapeSnapshot.types false 4 t) := by
  have hclosed : shapeProgram.types.classify false 4 = some ⟨4, []⟩ := by decide
  have himplementer : shapeProgram.types.IsImplementer 4 5 := by decide
  obtain ⟨harms, hlabels⟩ := implementers_covered_iff isLoadedFrom_shapeProgram hclosed
  refine ⟨hclosed, himplementer, ?_, ?_⟩
  · intro hcovered
    obtain ⟨leaf, hleaf, -⟩ := harms.mp hcovered 5 himplementer
    exact List.not_mem_nil hleaf
  · intro hcovered
    obtain ⟨leaf, hleaf, -⟩ := hlabels.mp hcovered 5 himplementer
    exact List.not_mem_nil hleaf

/-- A suppressed switch need not cover every implementer of its governing type. -/
theorem not_forall_implementers_covered :
    ¬ ∀ (s : Snapshot) (P : Program), P.IsLoadedFrom s →
      ∀ (records : Bool) (root : TypeId),
        (∀ switch, P.SuppressesExpression records root switch →
          ∀ t, P.types.IsImplementer root t →
            ∃ arm ∈ switch.arms, P.caseCovers arm t = true) ∧
        (∀ switch, P.SuppressesStatement records root switch →
          ∀ t, P.types.IsImplementer root t →
            ∃ labels ∈ switch.sections, ∃ l ∈ labels, P.labelCovers t l = true) := by
  intro hall
  have hswitch : shapeProgram.SuppressesExpression false 4 ⟨⟨0, 6⟩, ⟨0, default⟩, []⟩ :=
    ⟨false, ⟨"CS8509", ⟨0, ⟨0, 6⟩⟩, ""⟩, by decide, by decide, rfl, by decide⟩
  obtain ⟨arm, harm, -⟩ :=
    (hall _ _ isLoadedFrom_shapeProgram false 4).1 _ hswitch 5 (by decide)
  exact List.not_mem_nil harm

end ClosedSwitch
