import ClosedSwitch.Pattern

/-!
# Switches

The two forms of switch, with their names bound to nodes.
-/

namespace ClosedSwitch

/-- The node of the expression that a switch is applied to. -/
structure GoverningNode where
  node : NodeId
  span : Span
deriving DecidableEq, Repr

structure SwitchExpression where
  span : Span
  governing : GoverningNode
  arms : List BoundCase

structure SwitchStatement where
  span : Span
  governing : GoverningNode
  sections : List (List BoundLabel)

inductive Switch where
  | expression (switch : SwitchExpression)
  | statement (switch : SwitchStatement)

def Switch.expression? : Switch → Option SwitchExpression
  | .expression e => some e
  | .statement _ => none

def Switch.statement? : Switch → Option SwitchStatement
  | .expression _ => none
  | .statement s => some s

/-- A file with its switches in the order of the snapshot. -/
structure SourceFile where
  path : String
  text : Option String
  options : List (String × String)
  switches : List Switch

def SourceFile.expressions (f : SourceFile) : List SwitchExpression :=
  f.switches.filterMap Switch.expression?

def SourceFile.statements (f : SourceFile) : List SwitchStatement :=
  f.switches.filterMap Switch.statement?

end ClosedSwitch
