import ClosedSwitch.Proofs.Suppression.Declared
import ClosedSwitch.Proofs.TypeTable.Nesting

/-!
# The two forms of switch

A switch expression and a switch statement with the same governing expression and the same
cases are judged alike, apart from null.  The two rules about null differ for a value that
is marked as nullable and that flow analysis knows nothing about, which only an expression
has to handle, and for a value without a mark whose declaration is never null, which only a
statement has to handle.
-/

namespace ClosedSwitch

/-! ## The rules about null -/

/-- The governing expression is a parameter or local that is declared never to be null. -/
def Governing.IsDeclaredNonNull (g : Governing) : Prop :=
  g.symbol = some (.parameter .nonNull) ∨ g.symbol = some (.localVariable .nonNull)

instance (g : Governing) : Decidable g.IsDeclaredNonNull :=
  inferInstanceAs (Decidable (_ ∨ _))

theorem Governing.isDeclaredNonNull_iff (g : Governing) :
    g.IsDeclaredNonNull ↔ (g.symbol.map Symbol.value).any Symbol.isDeclaredNonNull = true := by
  rw [IsDeclaredNonNull]
  cases g.symbol with
  | none => simp
  | some symbol => rcases symbol with (_ | _ | _) | (_ | _ | _) | _ <;> decide

section Null

variable {g : Governing}

theorem expressionNeedsNull_of_statementNeedsNull
    (hsymbol : ¬ (g.nullability.mark = .none ∧ g.IsDeclaredNonNull))
    (h : g.nullability.statementNeedsNull = true) :
    g.nullability.expressionNeedsNull (g.symbol.map .value) = true := by
  rw [Governing.isDeclaredNonNull_iff] at hsymbol
  rcases hn : g.nullability with ⟨mark, flowState⟩
  rw [hn] at h hsymbol
  cases mark with
  | none => simpa [Nullability.expressionNeedsNull] using hsymbol
  | nonNull => simp [Nullability.statementNeedsNull] at h
  | nullable =>
      cases flowState with
      | maybeNull => rfl
      | none => simp [Nullability.statementNeedsNull] at h
      | notNull => simp [Nullability.statementNeedsNull] at h

theorem statementNeedsNull_of_expressionNeedsNull
    (hflow : g.nullability ≠ ⟨.nullable, .none⟩)
    (h : g.nullability.expressionNeedsNull (g.symbol.map .value) = true) :
    g.nullability.statementNeedsNull = true := by
  rcases hn : g.nullability with ⟨mark, flowState⟩
  rw [hn] at h hflow
  cases mark with
  | none => rfl
  | nonNull => simp [Nullability.expressionNeedsNull] at h
  | nullable =>
      cases flowState with
      | maybeNull => rfl
      | none => exact absurd rfl hflow
      | notNull => simp [Nullability.expressionNeedsNull] at h

end Null

/-! ## Declarations with the same cases -/

/-- What is declared about a case, its place apart. -/
def Case.content {ν κ : Type} (c : Case ν κ) : Pattern ν κ × Bool := (c.pattern, c.isGuarded)

namespace SwitchDecl

theorem unguardedPatterns_eq_of_contents
    {d d' : SwitchDecl} (h : d'.cases.map Case.content = d.cases.map Case.content) :
    d'.unguardedPatterns = d.unguardedPatterns := by
  have hcontents : ∀ d : SwitchDecl, d.unguardedPatterns =
      (d.cases.map Case.content).filterMap fun c =>
        if c.2 then none else some c.1.undesignated := by
    intro d
    rw [List.filterMap_map]
    rfl
  rw [hcontents d, hcontents d', h]

section Forms

variable {span span' governingSpan : Span} {g : Governing} {arms : List DeclaredCase}
  {sections : List (List DeclaredLabel)}
  (hcases : (statement span' { g with span := governingSpan } sections).cases.map
    Case.content = (expression span g arms).cases.map Case.content)
  {S : Scope} {records : Bool}

include hcases

theorem isComplete_statement_of_expression
    (hsymbol : ¬ (g.nullability.mark = .none ∧ g.IsDeclaredNonNull))
    (h : (expression span g arms).IsComplete S records) :
    (statement span' { g with span := governingSpan } sections).IsComplete S records := by
  have hpatterns := unguardedPatterns_eq_of_contents hcases
  refine h.of_subset rfl ?_ (hpatterns ▸ List.Subset.refl _)
  exact expressionNeedsNull_of_statementNeedsNull hsymbol

theorem isComplete_expression_of_statement
    (hflow : g.nullability ≠ ⟨.nullable, .none⟩)
    (h : (statement span' { g with span := governingSpan } sections).IsComplete S records) :
    (expression span g arms).IsComplete S records := by
  have hpatterns := unguardedPatterns_eq_of_contents hcases
  refine h.of_subset rfl ?_ (hpatterns ▸ List.Subset.refl _)
  exact statementNeedsNull_of_expressionNeedsNull hflow

end Forms

end SwitchDecl

/-! ## Diagnostics at the two forms -/

/-- The switch at a position in a file of the snapshot. -/
def Snapshot.switch? (s : Snapshot) (file index : Nat) : Option SwitchDecl :=
  (s.files[file]?).bind (·.switches[index]?)

namespace Program

def switch? (P : Program) (file index : Nat) : Option Switch :=
  (P.file? file).bind (·.switches[index]?)

/-- The switch of a file stands where `d` is declared. -/
def IsDeclaredAs
    (P : Program) (s : Snapshot) (file : Nat) (switch : Switch) (d : SwitchDecl) : Prop :=
  ∃ index, P.switch? file index = some switch ∧ s.switch? file index = some d

theorem IsDeclaredAs.switchAgrees
    {P : Program} {s : Snapshot} (hP : P.IsLoadedFrom s) {file : Nat} {switch : Switch}
    {d : SwitchDecl} (h : P.IsDeclaredAs s file switch d) : P.SwitchAgrees d switch := by
  obtain ⟨index, hswitch, hdecl⟩ := h
  obtain ⟨f, hf, hswitch⟩ := Option.bind_eq_some_iff.mp hswitch
  have hfiles := hP.represents.forall₂_switches switchAgrees_number
  obtain ⟨declared, hdeclared, hswitches⟩ := exists_left_of_forall₂ hfiles hf
  obtain ⟨d', hd', hagrees⟩ := exists_left_of_forall₂ hswitches hswitch
  rw [Snapshot.switch?, hdeclared, Option.bind_some, hd', Option.some.injEq] at hdecl
  exact hdecl ▸ hagrees

end Program

/-- A switch expression and a switch statement with one governing expression, whose labels
stand for the cases of the expression, are suppressed alike unless the value is marked as
nullable with nothing known about it, where a suppressed expression means a suppressed
statement, or has no mark and is declared never to be null, where it is the other way
round. -/
theorem forms_agree_up_to_null
    {s s' : Snapshot} {P P' : Program} (hP : P.IsLoadedFrom s) (hP' : P'.IsLoadedFrom s')
    (htypes : s'.types = s.types) (hextensions : s'.extensions = s.extensions)
    {span span' governingSpan : Span} {g : Governing} {arms : List DeclaredCase}
    {sections : List (List DeclaredLabel)}
    (hcases : (sections.flatten.filterMap Label.case?).map Case.content =
      arms.map Case.content)
    (forceRecords forceRecords' : Bool) (d d' : Diagnostic)
    {e : SwitchExpression} {t : SwitchStatement}
    (hd : (findDescriptor? expressionDescriptors d.id).isSome = true)
    (hfound : P.expressionAt? d.location = some e)
    (hdeclared : P.IsDeclaredAs s d.location.file (.expression e) (.expression span g arms))
    (hd' : (findDescriptor? statementDescriptors d'.id).isSome = true)
    (hfound' : P'.statementAt? d'.location = some t)
    (hdeclared' : P'.IsDeclaredAs s' d'.location.file (.statement t)
      (.statement span' { g with span := governingSpan } sections))
    (hrecords : (forceRecords' || P'.recordHierarchiesAllowed d'.location.file) =
      (forceRecords || P.recordHierarchiesAllowed d.location.file)) :
    (g.nullability ≠ ⟨.nullable, .none⟩ →
      ¬ (g.nullability.mark = .none ∧ g.IsDeclaredNonNull) →
      (((Suppressor.expression forceRecords).suppress? P d).isSome = true ↔
        ((Suppressor.statement forceRecords').suppress? P' d').isSome = true)) ∧
    (g.nullability = ⟨.nullable, .none⟩ →
      ((Suppressor.expression forceRecords).suppress? P d).isSome = true →
      ((Suppressor.statement forceRecords').suppress? P' d').isSome = true) ∧
    (g.nullability.mark = .none ∧ g.IsDeclaredNonNull →
      ((Suppressor.statement forceRecords').suppress? P' d').isSome = true →
      ((Suppressor.expression forceRecords).suppress? P d).isSome = true) := by
  have hexpression : ((Suppressor.expression forceRecords).suppress? P d).isSome = true ↔ _ :=
    Program.suppressExpression?_isSome_iff_isComplete hfound (hdeclared.switchAgrees hP)
  have hstatement : ((Suppressor.statement forceRecords').suppress? P' d').isSome = true ↔ _ :=
    Program.suppressStatement?_isSome_iff_isComplete hfound' (hdeclared'.switchAgrees hP')
  rw [hexpression, hstatement, hP.scope_eq hP' htypes hextensions, hrecords]
  simp only [hd, hd', true_and]
  refine ⟨fun hflow hsymbol => ⟨?_, ?_⟩, fun hflow => ?_, fun hsymbol => ?_⟩
  · exact SwitchDecl.isComplete_statement_of_expression hcases hsymbol
  · exact SwitchDecl.isComplete_expression_of_statement hcases hflow
  · refine SwitchDecl.isComplete_statement_of_expression hcases ?_
    rw [hflow]
    exact fun hmark => NullMark.noConfusion hmark.1
  · refine SwitchDecl.isComplete_expression_of_statement hcases ?_
    intro hflow
    rw [hflow] at hsymbol
    exact NullMark.noConfusion hsymbol.1

/-- The governing expression of two switches over the hierarchy with nested patterns. -/
def pairedGoverning (nullability : Nullability) : Governing :=
  { span := ⟨0, 4⟩, type := some "Root", nullability }

def pairedExpression (nullability : Nullability) : SwitchDecl :=
  .expression ⟨0, 100⟩ (pairedGoverning nullability)
    [⟨.constant (.name "Root.Leaf"), false, ⟨0, 0⟩⟩, ⟨wrapPattern, false, ⟨0, 0⟩⟩]

/-- The statement with the cases of the expression. -/
def pairedStatement (nullability : Nullability) : SwitchDecl :=
  .statement ⟨100, 200⟩ { pairedGoverning nullability with span := ⟨100, 104⟩ }
    [[.value (.name "Root.Leaf") ⟨0, 0⟩, .otherwise ⟨0, 0⟩],
     [.case ⟨wrapPattern, false, ⟨0, 0⟩⟩]]

def pairedSnapshot (nullability : Nullability) : Snapshot :=
  { nestedSnapshot with
    files := [{
      path := "Test.cs"
      switches := [pairedExpression nullability, pairedStatement nullability] }] }

/-- The two are suppressed alike where the value is never null; where it is nullable and
nothing is known about it, only the statement is suppressed. -/
theorem pairedSnapshot_forms :
    (((Suppressor.expression false).suppress?
        (.ofSnapshot (pairedSnapshot ⟨.nonNull, .notNull⟩))
        ⟨"CS8509", ⟨0, ⟨0, 6⟩⟩, ""⟩).isSome = true ∧
      ((Suppressor.statement false).suppress?
        (.ofSnapshot (pairedSnapshot ⟨.nonNull, .notNull⟩))
        ⟨"IDE0010", ⟨0, ⟨100, 106⟩⟩, ""⟩).isSome = true) ∧
    ((Suppressor.expression false).suppress?
        (.ofSnapshot (pairedSnapshot ⟨.nullable, .none⟩))
        ⟨"CS8509", ⟨0, ⟨0, 6⟩⟩, ""⟩).isSome = false ∧
      ((Suppressor.statement false).suppress?
        (.ofSnapshot (pairedSnapshot ⟨.nullable, .none⟩))
        ⟨"IDE0010", ⟨0, ⟨100, 106⟩⟩, ""⟩).isSome = true := by
  have hload : (Program.ofSnapshot (pairedSnapshot ⟨.nonNull, .notNull⟩)).IsLoadedFrom
      (pairedSnapshot ⟨.nonNull, .notNull⟩) := Program.isLoadedFrom_ofSnapshot rfl
  have hsuppressed : ((Suppressor.expression false).suppress?
      (.ofSnapshot (pairedSnapshot ⟨.nonNull, .notNull⟩))
      ⟨"CS8509", ⟨0, ⟨0, 6⟩⟩, ""⟩).isSome = true := by decide
  have hforms := (forms_agree_up_to_null hload hload rfl rfl (g := pairedGoverning _) rfl
    false false ⟨"CS8509", ⟨0, ⟨0, 6⟩⟩, ""⟩ ⟨"IDE0010", ⟨0, ⟨100, 106⟩⟩, ""⟩
    (by decide) rfl ⟨0, rfl, rfl⟩ (by decide) rfl ⟨1, rfl, rfl⟩ rfl).1 (by decide) (by decide)
  exact ⟨⟨hsuppressed, hforms.mp hsuppressed⟩, by decide, by decide⟩

end ClosedSwitch
