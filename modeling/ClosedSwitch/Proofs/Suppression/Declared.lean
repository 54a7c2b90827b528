import ClosedSwitch.Proofs.Suppression.Soundness

/-!
# Suppression without nodes

Whether a diagnostic is suppressed is a question about the declaration of its switch: the
governing type has to be the root of a closed hierarchy, and null, if it needs a case, and
every leaf have to be covered by the patterns that stand without a guard.  Nothing else
about the cases counts, neither their order nor their number nor their grouping, and the
designations in them do not count either.
-/

namespace ClosedSwitch

/-! ## Patterns without designations -/

namespace Pattern

variable {ν κ : Type}

mutual

/-- A pattern with all of its designations left out. -/
def undesignated : Pattern ν κ → Pattern ν κ
  | .constant value => .constant value
  | .type name => .type name
  | .declaration name _ => .declaration name none
  | .recursive name positional properties _ =>
    .recursive name (undesignatedPositional positional) (undesignatedProperties properties) none
  | .discard => .discard
  | .var _ => .var none
  | .relational op value => .relational op value
  | .undescribed => .undescribed

def undesignatedPositional :
    Option (PositionalClause κ (Pattern ν κ)) → Option (PositionalClause κ (Pattern ν κ))
  | none => none
  | some ⟨label, elements⟩ => some ⟨label, undesignatedElements elements⟩

def undesignatedProperties :
    Option (List (MemberPattern ν (Pattern ν κ))) →
      Option (List (MemberPattern ν (Pattern ν κ)))
  | none => none
  | some members => some (undesignatedMembers members)

def undesignatedElements : List (Pattern ν κ) → List (Pattern ν κ)
  | [] => []
  | p :: rest => undesignated p :: undesignatedElements rest

def undesignatedMembers :
    List (MemberPattern ν (Pattern ν κ)) → List (MemberPattern ν (Pattern ν κ))
  | [] => []
  | ⟨name, p⟩ :: rest => ⟨name, undesignated p⟩ :: undesignatedMembers rest

end

theorem length_undesignatedElements (ps : List (Pattern ν κ)) :
    (undesignatedElements ps).length = ps.length := by
  induction ps with
  | nil => rfl
  | cons p rest ih => rw [undesignatedElements, List.length_cons, List.length_cons, ih]

theorem coversNull_undesignated (p : Pattern ν κ) :
    p.undesignated.coversNull = p.coversNull := by
  cases p <;> rfl

end Pattern

namespace Scope

theorem testedType?_undesignated (S : Scope) (p : DeclaredPattern) :
    S.testedType? p.undesignated = S.testedType? p := by
  cases p with
  | recursive name positional properties designation => cases name <;> rfl
  | _ => rfl

theorem headAccepts_undesignated
    (S : Scope) (member : Option TypeId) (p : DeclaredPattern) :
    S.headAccepts member p.undesignated = S.headAccepts member p := by
  cases p with
  | recursive name positional properties designation => cases name <;> rfl
  | _ => rfl

mutual

theorem clausesAccept_undesignated
    (S : Scope) (input : Option TypeId) (p : DeclaredPattern) :
    S.clausesAccept input p.undesignated = S.clausesAccept input p := by
  cases p with
  | recursive name positional properties designation =>
      rw [Pattern.undesignated, clausesAccept, clausesAccept,
        positionalAccepts_undesignated S _ positional,
        propertiesAccept_undesignated S _ properties]
      cases positional <;> cases properties <;> rfl
  | constant value => rfl
  | type name => rfl
  | declaration name designation => rfl
  | discard => rfl
  | var designation => rfl
  | relational op value => rfl
  | undescribed => rfl

theorem positionalAccepts_undesignated
    (S : Scope) (static : Option TypeId)
    (positional : Option (PositionalClause Unit DeclaredPattern)) :
    S.positionalAccepts static (Pattern.undesignatedPositional positional) =
      S.positionalAccepts static positional := by
  rcases positional with _ | ⟨_, elements⟩
  · rfl
  · rw [Pattern.undesignatedPositional, positionalAccepts, positionalAccepts,
      Pattern.length_undesignatedElements, elementsAccept_undesignated S _ 0 elements]

theorem propertiesAccept_undesignated
    (S : Scope) (static : Option TypeId)
    (properties : Option (List (MemberPattern String DeclaredPattern))) :
    S.propertiesAccept static (Pattern.undesignatedProperties properties) =
      S.propertiesAccept static properties := by
  rcases properties with _ | members
  · rfl
  · exact membersAccept_undesignated S static members

theorem elementsAccept_undesignated
    (S : Scope) (method : Option DeconstructMethod) (index : Nat)
    (ps : List DeclaredPattern) :
    S.elementsAccept method index (Pattern.undesignatedElements ps) =
      S.elementsAccept method index ps := by
  cases ps with
  | nil => rfl
  | cons p rest =>
      rw [Pattern.undesignatedElements, elementsAccept, elementsAccept,
        headAccepts_undesignated, clausesAccept_undesignated S _ p,
        elementsAccept_undesignated S method (index + 1) rest]

theorem membersAccept_undesignated
    (S : Scope) (static : Option TypeId)
    (ps : List (MemberPattern String DeclaredPattern)) :
    S.membersAccept static (Pattern.undesignatedMembers ps) = S.membersAccept static ps := by
  rcases ps with _ | ⟨⟨name, p⟩, rest⟩
  · rfl
  · rw [Pattern.undesignatedMembers, membersAccept, membersAccept,
      headAccepts_undesignated, clausesAccept_undesignated S _ p,
      membersAccept_undesignated S static rest]

end

/-- Whether a declared pattern, applied to a value of static type `input`, accepts every
instance of `target`. -/
def patternCovers
    (S : Scope) (input : Option TypeId) (p : DeclaredPattern) (target : TypeId) : Bool :=
  (S.testedType? p).any (S.types.converts target) && S.clausesAccept input p

theorem patternCovers_undesignated
    (S : Scope) (input : Option TypeId) (p : DeclaredPattern) (target : TypeId) :
    S.patternCovers input p.undesignated target = S.patternCovers input p target := by
  rw [patternCovers, patternCovers, testedType?_undesignated, clausesAccept_undesignated]

end Scope

/-! ## Cases without a guard -/

/-- The pattern of a case that stands without a guard. -/
def Case.unguarded? {ν κ : Type} (c : Case ν κ) : Option (Pattern ν κ) :=
  if c.isGuarded then none else some c.pattern.undesignated

/-- The case that a label stands for: a constant is a pattern without a guard, and the
default is none. -/
def Label.case? {ν κ : Type} : Label ν κ → Option (Case ν κ)
  | .value constant span => some ⟨.constant constant, false, span⟩
  | .case c => some c
  | .otherwise _ => none

namespace SwitchDecl

/-- The cases of a switch, for a statement over all of its sections. -/
def cases : SwitchDecl → List DeclaredCase
  | .expression _ _ arms => arms
  | .statement _ _ sections => sections.flatten.filterMap Label.case?

def unguardedPatterns (d : SwitchDecl) : List DeclaredPattern :=
  d.cases.filterMap Case.unguarded?

/-- Whether null needs a case, by the rule for the form of switch. -/
def needsNull : SwitchDecl → Bool
  | .expression _ g _ => g.nullability.expressionNeedsNull (g.symbol.map .value)
  | .statement _ g _ => g.nullability.statementNeedsNull

/-- The patterns without a guard handle null, if that is needed, and cover every leaf. -/
structure Exhausts (S : Scope) (d : SwitchDecl) (leaves : List TypeId) : Prop where
  null : d.needsNull = true → ∃ p ∈ d.unguardedPatterns, p.coversNull = true
  covers : ∀ leaf ∈ leaves, ∃ p ∈ d.unguardedPatterns,
    S.patternCovers (d.governing.staticType S) p leaf = true

/-- The governing type is the root of a closed hierarchy, whose leaves are exhausted. -/
def IsComplete (S : Scope) (records : Bool) (d : SwitchDecl) : Prop :=
  ∃ root h, d.governing.staticType S = some root ∧ S.types.classify records root = some h ∧
    d.Exhausts S h.leaves

theorem exhausts_iff
    {S : Scope} {d : SwitchDecl} {needs : Bool} {handled : Prop} {covered : TypeId → Prop}
    (hneeds : needs = d.needsNull)
    (hnull : handled ↔ ∃ p ∈ d.unguardedPatterns, p.coversNull = true)
    (hcovers : ∀ leaf, covered leaf ↔ ∃ p ∈ d.unguardedPatterns,
      S.patternCovers (d.governing.staticType S) p leaf = true) (leaves : List TypeId) :
    d.Exhausts S leaves ↔ (needs = true → handled) ∧ ∀ leaf ∈ leaves, covered leaf := by
  simp only [hneeds, hnull, hcovers]
  exact ⟨fun h => ⟨h.null, h.covers⟩, fun h => ⟨h.1, h.2⟩⟩

/-- A complete switch stays so with more patterns and no more need for null. -/
theorem IsComplete.of_subset
    {S : Scope} {records : Bool} {d d' : SwitchDecl} (h : d.IsComplete S records)
    (htype : d'.governing.type = d.governing.type)
    (hnull : d'.needsNull = true → d.needsNull = true)
    (hpatterns : d.unguardedPatterns ⊆ d'.unguardedPatterns) :
    d'.IsComplete S records := by
  obtain ⟨root, hierarchy, hroot, hclosed, hexhausts⟩ := h
  have hstatic : d'.governing.staticType S = d.governing.staticType S := by
    rw [Governing.staticType, Governing.staticType, htype]
  refine ⟨root, hierarchy, hstatic.trans hroot, hclosed, ?_, ?_⟩
  · intro hneeds
    obtain ⟨p, hp, hcovers⟩ := hexhausts.null (hnull hneeds)
    exact ⟨p, hpatterns hp, hcovers⟩
  · intro leaf hleaf
    obtain ⟨p, hp, hcovers⟩ := hexhausts.covers leaf hleaf
    exact ⟨p, hpatterns hp, hstatic ▸ hcovers⟩

end SwitchDecl

/-- Where a test of a case asks for its pattern to pass and for no guard, some case passes
if and only if some pattern without a guard does. -/
theorem exists_unguarded_iff
    {ν κ : Type} {test : Case ν κ → Bool} {testPattern : Pattern ν κ → Bool}
    (h : ∀ c, test c = (!c.isGuarded && testPattern c.pattern.undesignated))
    (cases : List (Case ν κ)) :
    (∃ c ∈ cases, test c = true) ↔
      ∃ p ∈ cases.filterMap Case.unguarded?, testPattern p = true := by
  constructor
  · rintro ⟨c, hc, htest⟩
    rw [h c, Bool.and_eq_true, Bool.not_eq_true'] at htest
    refine ⟨c.pattern.undesignated, List.mem_filterMap.mpr ⟨c, hc, ?_⟩, htest.2⟩
    rw [Case.unguarded?, htest.1]
    rfl
  · rintro ⟨p, hp, htest⟩
    obtain ⟨c, hc, hpattern⟩ := List.mem_filterMap.mp hp
    rw [Case.unguarded?, Option.ite_none_left_eq_some, Option.some.injEq] at hpattern
    obtain ⟨hunguarded, rfl⟩ := hpattern
    refine ⟨c, hc, ?_⟩
    rw [h c, htest, Bool.eq_false_of_not_eq_true hunguarded]
    rfl

/-- Where labels pass a test as the cases that they stand for do, some label in some
section passes if and only if some case does. -/
theorem exists_label_iff
    {ν κ : Type} {test : Label ν κ → Bool} {testCase : Case ν κ → Bool}
    (h : ∀ l, test l = l.case?.any testCase) (sections : List (List (Label ν κ))) :
    (∃ labels ∈ sections, ∃ l ∈ labels, test l = true) ↔
      ∃ c ∈ sections.flatten.filterMap Label.case?, testCase c = true := by
  simp only [h, Option.any_eq_true, List.mem_filterMap, List.mem_flatten]
  constructor
  · rintro ⟨labels, hlabels, l, hl, c, hc, htest⟩
    exact ⟨c, ⟨l, ⟨labels, hlabels, hl⟩, hc⟩, htest⟩
  · rintro ⟨c, ⟨l, ⟨labels, hlabels, hl⟩, hc⟩, htest⟩
    exact ⟨labels, hlabels, l, hl, c, hc, htest⟩

theorem Case.coversNull_eq {ν κ : Type} (c : Case ν κ) :
    c.coversNull = (!c.isGuarded && c.pattern.undesignated.coversNull) := by
  rw [coversNull, Pattern.coversNull_undesignated]

theorem Label.coversNull_eq {ν κ : Type} (l : Label ν κ) :
    l.coversNull = l.case?.any Case.coversNull := by
  cases l with
  | value constant span => cases constant <;> rfl
  | case c => rfl
  | otherwise span => rfl

theorem Scope.caseCovers_eq
    (S : Scope) (input : Option TypeId) (c : DeclaredCase) (target : TypeId) :
    S.caseCovers input c target =
      (!c.isGuarded && S.patternCovers input c.pattern.undesignated target) := by
  rw [caseCovers, patternCovers_undesignated, patternCovers, Bool.and_assoc]

theorem Scope.labelCovers_eq
    (S : Scope) (input : Option TypeId) (target : TypeId) (l : DeclaredLabel) :
    S.labelCovers input target l = l.case?.any (S.caseCovers input · target) := by
  cases l with
  | value constant span =>
      cases constant with
      | name name => simp [labelCovers, Label.case?, caseCovers, testedType?, clausesAccept]
      | null => rfl
      | literal text => rfl
  | case c => rfl
  | otherwise span => rfl

/-! ## Bound switches -/

namespace Program

section Exhausts

variable {P : Program} {input : Option TypeId}

theorem exists_arm_coversNull_iff
    {arms : List DeclaredCase} {bound : List BoundCase}
    (h : List.Forall₂ (P.CaseAgrees input) arms bound) :
    (∃ arm ∈ bound, arm.coversNull = true) ↔
      ∃ p ∈ arms.filterMap Case.unguarded?, p.coversNull = true := by
  rw [← exists_unguarded_iff Case.coversNull_eq]
  refine (exists_mem_iff_of_forall₂ ?_ h).symm
  intro c arm hcase
  rw [hcase.coversNull]

theorem exists_arm_covers_iff
    {arms : List DeclaredCase} {bound : List BoundCase}
    (h : List.Forall₂ (P.CaseAgrees input) arms bound) (leaf : TypeId) :
    (∃ arm ∈ bound, P.caseCovers arm leaf = true) ↔
      ∃ p ∈ arms.filterMap Case.unguarded?,
        P.scope.patternCovers input p leaf = true := by
  rw [← exists_unguarded_iff (P.scope.caseCovers_eq input · leaf)]
  refine (exists_mem_iff_of_forall₂ ?_ h).symm
  intro c arm hcase
  rw [hcase.covers]

theorem exists_label_coversNull_iff
    {sections : List (List DeclaredLabel)} {bound : List (List BoundLabel)}
    (h : List.Forall₂ (List.Forall₂ (P.LabelAgrees input)) sections bound) :
    (∃ labels ∈ bound, ∃ l ∈ labels, l.coversNull = true) ↔
      ∃ p ∈ (sections.flatten.filterMap Label.case?).filterMap Case.unguarded?,
        p.coversNull = true := by
  rw [← exists_unguarded_iff Case.coversNull_eq, ← exists_label_iff Label.coversNull_eq]
  refine (exists_mem_iff_of_forall₂ ?_ h).symm
  intro declared labels hlabels
  refine exists_mem_iff_of_forall₂ ?_ hlabels
  intro l label hlabel
  rw [hlabel.coversNull]

theorem exists_label_covers_iff
    {sections : List (List DeclaredLabel)} {bound : List (List BoundLabel)}
    (h : List.Forall₂ (List.Forall₂ (P.LabelAgrees input)) sections bound)
    (leaf : TypeId) :
    (∃ labels ∈ bound, ∃ l ∈ labels, P.labelCovers leaf l = true) ↔
      ∃ p ∈ (sections.flatten.filterMap Label.case?).filterMap Case.unguarded?,
        P.scope.patternCovers input p leaf = true := by
  rw [← exists_unguarded_iff (P.scope.caseCovers_eq input · leaf),
    ← exists_label_iff (P.scope.labelCovers_eq input leaf)]
  refine (exists_mem_iff_of_forall₂ ?_ h).symm
  intro declared labels hlabels
  refine exists_mem_iff_of_forall₂ ?_ hlabels
  intro l label hlabel
  rw [hlabel.covers]

variable {decl : SwitchDecl} {leaves : List TypeId}

theorem expressionExhausts_iff
    {switch : SwitchExpression} (h : P.SwitchAgrees decl (.expression switch)) :
    P.ExpressionExhausts switch leaves ↔ decl.Exhausts P.scope leaves := by
  cases h with
  | @expression span g arms node bound info symbol agrees =>
      have hneeds : (P.typeInfo node).nullability.expressionNeedsNull (P.symbol? node) =
          (SwitchDecl.expression span g arms).needsNull := by
        rw [info, symbol]
        rfl
      have hexhausts := SwitchDecl.exhausts_iff hneeds
        (exists_arm_coversNull_iff agrees) (exists_arm_covers_iff agrees) leaves
      exact ⟨fun h => hexhausts.mpr ⟨h.null, h.covers⟩,
        fun h => ⟨(hexhausts.mp h).1, (hexhausts.mp h).2⟩⟩

theorem statementExhausts_iff
    {switch : SwitchStatement} (h : P.SwitchAgrees decl (.statement switch)) :
    P.StatementExhausts switch leaves ↔ decl.Exhausts P.scope leaves := by
  cases h with
  | @statement span g sections node bound info symbol agrees =>
      have hneeds : (P.typeInfo node).nullability.statementNeedsNull =
          (SwitchDecl.statement span g sections).needsNull := by
        rw [info]
        rfl
      have hexhausts := SwitchDecl.exhausts_iff hneeds
        (exists_label_coversNull_iff agrees) (exists_label_covers_iff agrees) leaves
      exact ⟨fun h => hexhausts.mpr ⟨h.null, h.covers⟩,
        fun h => ⟨(hexhausts.mp h).1, (hexhausts.mp h).2⟩⟩

end Exhausts

section Suppress

variable {P : Program} {forceRecords : Bool} {d : Diagnostic} {decl : SwitchDecl}

theorem isComplete_iff_judgedBy
    {file : Nat} {node : NodeId}
    (hinfo : P.typeInfo node =
      ⟨decl.governing.staticType P.scope, decl.governing.nullability⟩) :
    decl.IsComplete P.scope (forceRecords || P.recordHierarchiesAllowed file) ↔
      ∃ h, P.JudgedBy forceRecords file node h ∧ decl.Exhausts P.scope h.leaves := by
  simp only [JudgedBy, hinfo]
  constructor
  · rintro ⟨root, h, hroot, hclosed, hexhausts⟩
    exact ⟨h, ⟨root, hroot, hclosed⟩, hexhausts⟩
  · rintro ⟨h, ⟨root, hroot, hclosed⟩, hexhausts⟩
    exact ⟨root, h, hroot, hclosed, hexhausts⟩

/-- A diagnostic at a switch expression is suppressed if and only if the declaration of
the switch is complete. -/
theorem suppressExpression?_isSome_iff_isComplete
    {switch : SwitchExpression} (hfound : P.expressionAt? d.location = some switch)
    (hagrees : P.SwitchAgrees decl (.expression switch)) :
    (P.suppressExpression? forceRecords d).isSome = true ↔
      (findDescriptor? expressionDescriptors d.id).isSome = true ∧
        decl.IsComplete P.scope
          (forceRecords || P.recordHierarchiesAllowed d.location.file) := by
  rw [suppressExpression?_isSome_iff, isComplete_iff_judgedBy hagrees.typeInfo_expression]
  refine and_congr_right fun _ => ?_
  constructor
  · rintro ⟨found, h, hfound', hjudged, hexhausts⟩
    obtain rfl := Option.some.inj (hfound.symm.trans hfound')
    exact ⟨h, hjudged, (expressionExhausts_iff hagrees).mp hexhausts⟩
  · rintro ⟨h, hjudged, hexhausts⟩
    exact ⟨switch, h, hfound, hjudged, (expressionExhausts_iff hagrees).mpr hexhausts⟩

theorem suppressStatement?_isSome_iff_isComplete
    {switch : SwitchStatement} (hfound : P.statementAt? d.location = some switch)
    (hagrees : P.SwitchAgrees decl (.statement switch)) :
    (P.suppressStatement? forceRecords d).isSome = true ↔
      (findDescriptor? statementDescriptors d.id).isSome = true ∧
        decl.IsComplete P.scope
          (forceRecords || P.recordHierarchiesAllowed d.location.file) := by
  rw [suppressStatement?_isSome_iff, isComplete_iff_judgedBy hagrees.typeInfo_statement]
  refine and_congr_right fun _ => ?_
  constructor
  · rintro ⟨found, h, hfound', hjudged, hexhausts⟩
    obtain rfl := Option.some.inj (hfound.symm.trans hfound')
    exact ⟨h, hjudged, (statementExhausts_iff hagrees).mp hexhausts⟩
  · rintro ⟨h, hjudged, hexhausts⟩
    exact ⟨switch, h, hfound, hjudged, (statementExhausts_iff hagrees).mpr hexhausts⟩

end Suppress

end Program

end ClosedSwitch
