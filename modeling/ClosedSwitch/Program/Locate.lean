import ClosedSwitch.Program.Basic

/-!
# Finding the switch of a diagnostic

A diagnostic inside a switch belongs to the innermost one around it. One around a switch expression,
and in none, belongs to the first expression inside it.
-/

namespace ClosedSwitch

/-- The first item among those with the shortest span. -/
def shortest? {α : Type} (spanOf : α → Span) : List α → Option α
  | [] => none
  | a :: rest =>
    match shortest? spanOf rest with
    | none => some a
    | some b => if (spanOf b).length < (spanOf a).length then some b else some a

/-- The shortest item around a span, the first of several. -/
def innermost? {α : Type} (spanOf : α → Span) (items : List α) (span : Span) : Option α :=
  shortest? spanOf (items.filter fun a => (spanOf a).contains span)

namespace Program

def expressionAt? (P : Program) (l : Location) : Option SwitchExpression :=
  (P.file? l.file).bind fun f =>
    (innermost? (·.span) f.expressions l.span).or
      (f.expressions.find? fun e => l.span.contains e.span)

def statementAt? (P : Program) (l : Location) : Option SwitchStatement :=
  (P.file? l.file).bind fun f => innermost? (·.span) f.statements l.span

end Program

end ClosedSwitch
