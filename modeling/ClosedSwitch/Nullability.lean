/-!
# Nullability

What is declared about whether a value may be null, and what flow analysis knows.
-/

namespace ClosedSwitch

/-- How a type is marked where a value is declared: as never null, as possibly null, or not at all,
which is the case outside of code that is checked for null. -/
inductive NullMark where
  | none
  | nonNull
  | nullable
deriving DecidableEq, Repr

/-- What is known about a value where it is used. -/
inductive FlowState where
  | none
  | notNull
  | maybeNull
deriving DecidableEq, Repr

structure Nullability where
  mark : NullMark := .none
  flowState : FlowState := .none
deriving DecidableEq, Repr

instance : Inhabited Nullability := ⟨{}⟩

/-- What the governing expression of a switch refers to, if it is a simple name. -/
inductive ValueSymbol where
  | parameter (mark : NullMark)
  | localVariable (mark : NullMark)
  | other
deriving DecidableEq, Repr

end ClosedSwitch
