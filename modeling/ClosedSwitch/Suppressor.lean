import ClosedSwitch.Coverage
import ClosedSwitch.Hierarchy
import ClosedSwitch.NullCase
import ClosedSwitch.Program.Locate
import ClosedSwitch.Program.Options

/-!
# Suppressors

A suppressor takes a diagnostic through the same steps: find its switch, take the governing type,
classify it as a closed hierarchy, see whether null needs a case, and check that every leaf, and
null if it needs one, is covered. The first step that fails leaves the diagnostic as it is.
-/

namespace ClosedSwitch

/-- Something that may prove a diagnostic to be a false alarm. -/
structure Suppressor where
  /-- One descriptor for each kind of diagnostic that is handled. -/
  descriptors : List Descriptor
  suppress? : Program → Diagnostic → Option Suppression
  /-- Whether looking at a diagnostic asks for the batch to stop. -/
  cancels : Program → Diagnostic → Bool := fun _ _ => false

/-- The descriptor for a kind of diagnostic. -/
def findDescriptor? (descriptors : List Descriptor) (id : String) : Option Descriptor :=
  descriptors.find? (·.suppressedId == id)

def Suppressor.descriptorFor? (s : Suppressor) (id : String) : Option Descriptor :=
  findDescriptor? s.descriptors id

/-- The descriptor of the suppressions of one kind of diagnostic. -/
def closedHierarchyDescriptor (suppressedId : String) : Descriptor where
  id := "CTH001"
  suppressedId
  justification := "every possible type of closed type hierarchy was matched without restrictions"

def expressionDescriptors : List Descriptor :=
  [closedHierarchyDescriptor "CS8509", closedHierarchyDescriptor "IDE0072"]

def statementDescriptors : List Descriptor := [closedHierarchyDescriptor "IDE0010"]

namespace Program

/-- The closed hierarchy that a governing expression ranges over, for a diagnostic in `file`. -/
def hierarchyOf? (P : Program) (forceRecords : Bool) (file : Nat) (info : TypeInfo) :
    Option ClosedHierarchy :=
  info.type.bind (P.types.classify (forceRecords || P.recordHierarchiesAllowed file))

/-- Whether the arms of a switch expression handle null, if need be, and every leaf. -/
def expressionIsExhaustive (P : Program) (s : SwitchExpression) (leaves : List TypeId) : Bool :=
  let info := P.typeInfo s.governing.node
  (!info.nullability.expressionNeedsNull (P.symbol? s.governing.node)
      || s.arms.any Case.coversNull)
    && leaves.all fun leaf => s.arms.any (P.caseCovers · leaf)

/-- Whether the labels of a switch statement handle null, if need be, and every leaf. -/
def statementIsExhaustive (P : Program) (s : SwitchStatement) (leaves : List TypeId) : Bool :=
  let info := P.typeInfo s.governing.node
  (!info.nullability.statementNeedsNull || s.sections.any (·.any Label.coversNull))
    && leaves.all fun leaf => s.sections.any (·.any (P.labelCovers leaf))

def suppressExpression? (P : Program) (forceRecords : Bool) (d : Diagnostic) :
    Option Suppression := do
  let descriptor ← findDescriptor? expressionDescriptors d.id
  let switch ← P.expressionAt? d.location
  let hierarchy ← P.hierarchyOf? forceRecords d.location.file (P.typeInfo switch.governing.node)
  if P.expressionIsExhaustive switch hierarchy.leaves then some ⟨descriptor, d⟩ else none

def suppressStatement? (P : Program) (forceRecords : Bool) (d : Diagnostic) :
    Option Suppression := do
  let descriptor ← findDescriptor? statementDescriptors d.id
  let switch ← P.statementAt? d.location
  let hierarchy ← P.hierarchyOf? forceRecords d.location.file (P.typeInfo switch.governing.node)
  if P.statementIsExhaustive switch hierarchy.leaves then some ⟨descriptor, d⟩ else none

end Program

namespace Suppressor

/-- Suppresses the diagnostics about switch expressions that miss values. -/
def expression (forceRecords : Bool) : Suppressor where
  descriptors := expressionDescriptors
  suppress? P d := P.suppressExpression? forceRecords d

/-- Suppresses the diagnostic about switch statements that miss values. -/
def statement (forceRecords : Bool) : Suppressor where
  descriptors := statementDescriptors
  suppress? P d := P.suppressStatement? forceRecords d

/-- The suppressors for both forms of switch. -/
def both (forceRecords : Bool) : List Suppressor :=
  [expression forceRecords, statement forceRecords]

end Suppressor

/-- The descriptors of all suppressors. -/
def allDescriptors : List Descriptor := (Suppressor.both false).flatMap (·.descriptors)

end ClosedSwitch
