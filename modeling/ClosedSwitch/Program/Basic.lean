import ClosedSwitch.Config.Basic
import ClosedSwitch.Diagnostic
import ClosedSwitch.Switch
import ClosedSwitch.Symbol

/-!
# Programs

A program is a loaded snapshot, together with the configuration that its files are analyzed under.
-/

namespace ClosedSwitch

structure Program where
  scope : Scope
  files : List SourceFile
  /-- What is known about each node, at its number. -/
  nodes : Array NodeFact
  /-- The diagnostics that the snapshot reports. -/
  diagnostics : List Diagnostic
  config : Config := {}

namespace Program

def types (P : Program) : TypeTable := P.scope.types

def withConfig (P : Program) (config : Config) : Program := { P with config }

def file? (P : Program) (file : Nat) : Option SourceFile := P.files[file]?

/-- The number of the first file with a path. -/
def fileId? (P : Program) (path : String) : Option Nat := P.files.findIdx? (·.path == path)

/-- What is known about the type of a node, nothing for a node that is not governing. -/
def typeInfo (P : Program) (node : NodeId) : TypeInfo :=
  ((P.nodes[node]?).bind (·.typeInfo?)).getD {}

def symbol? (P : Program) (node : NodeId) : Option Symbol := (P.nodes[node]?).bind (·.symbol?)

/-- The type that a node names. -/
def namedType? (P : Program) (node : NodeId) : Option TypeId :=
  match P.symbol? node with
  | some (.type t) => some t
  | _ => none

/-- The static type of a member that a node names. -/
def memberType? (P : Program) (node : NodeId) : Option TypeId :=
  match P.symbol? node with
  | some (.property t) => t
  | _ => none

/-- The deconstructor of a positional clause. -/
def method? (P : Program) (node : NodeId) : Option DeconstructMethod :=
  match P.symbol? node with
  | some (.deconstruct m) => some m
  | _ => none

end Program

end ClosedSwitch
