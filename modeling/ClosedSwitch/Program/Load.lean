import ClosedSwitch.Binding
import ClosedSwitch.Program.Basic
import ClosedSwitch.TypeTable.Load

/-!
# Loading a snapshot

A snapshot is checked in the order of its parts: types, extensions, the spans of the switches, and
the diagnostics. A name inside a pattern that refers to nothing is no defect.
-/

namespace ClosedSwitch

/-- Resolves an extension, its receiver first. -/
def Extension.resolve (find? : String → Option TypeId) (e : Extension String) :
    Except LoadError (Extension TypeId) := do
  let receiver ← requireType find? "extension Deconstruct" e.receiver
  let parameters ← e.parameters.mapM (·.mapM (requireType find? e.receiver))
  return ⟨receiver, parameters⟩

/-- The spans of a switch that have to be ordered. -/
def SwitchDecl.spans : SwitchDecl → List Span
  | .expression span g _ => [span, g.span]
  | .statement span g _ => [span, g.span]

/-- The first span of a file that ends before it starts. -/
def FileDecl.invertedSpan? (f : FileDecl) : Option LoadError :=
  ((f.switches.flatMap SwitchDecl.spans).find? fun s => !decide s.IsOrdered).map
    (.invertedSpan f.path)

/-- Finds the file of a diagnostic among the paths of all files. -/
def DiagnosticDecl.resolve (paths : List String) (d : DiagnosticDecl) :
    Except LoadError Diagnostic :=
  match paths.idxOf? d.file with
  | none => .error (.unknownFile d.file)
  | some file =>
    if d.span.IsOrdered then .ok ⟨d.id, ⟨file, d.span⟩, d.message⟩
    else .error (.invertedSpan d.file d.span)

def Program.load (s : Snapshot) : Except LoadError Program := do
  let types ← TypeTable.load s.types
  let extensions ← s.extensions.mapM (Extension.resolve types.find?)
  let scope : Scope := ⟨types, extensions⟩
  match s.files.findSome? FileDecl.invertedSpan? with
  | some defect => .error defect
  | none =>
    let diagnostics ← s.diagnostics.mapM (DiagnosticDecl.resolve (s.files.map (·.path)))
    return {
      scope
      files := numberEach FileDecl.nodeCount FileDecl.number 0 s.files
      nodes := (s.files.flatMap (FileDecl.facts scope)).toArray
      diagnostics }

end ClosedSwitch
