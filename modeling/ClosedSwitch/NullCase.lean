import ClosedSwitch.Symbol

/-!
# Whether null needs a case

The two forms of switch have different rules. A switch expression falls back on the declaration of
the parameter or local that it is applied to when the value has no mark; a switch statement does
not.
-/

namespace ClosedSwitch

/-- A parameter or local that is declared never to be null. -/
def Symbol.isDeclaredNonNull : Symbol → Bool
  | .value (.parameter .nonNull) => true
  | .value (.localVariable .nonNull) => true
  | _ => false

namespace Nullability

/-- Whether a switch expression has to handle null. -/
def expressionNeedsNull (n : Nullability) (symbol : Option Symbol) : Bool :=
  match n.mark, n.flowState with
  | .nullable, .notNull => false
  | .nonNull, _ => false
  | .none, _ => !symbol.any Symbol.isDeclaredNonNull
  | _, _ => true

/-- Whether the rule for switch expressions looks at the symbol. -/
def consultsSymbol (n : Nullability) : Bool := n.mark = .none

/-- Whether a switch statement has to handle null. -/
def statementNeedsNull (n : Nullability) : Bool :=
  match n.mark, n.flowState with
  | .nullable, .maybeNull => true
  | .none, _ => true
  | _, _ => false

end Nullability

end ClosedSwitch
