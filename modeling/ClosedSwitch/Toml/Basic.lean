/-!
# TOML values

The values of a TOML document. A table remembers how it came about, since that decides whether a
later line may still add to it.
-/

namespace ClosedSwitch.Toml

/-- A calendar date. -/
structure Date where
  year : Nat
  month : Nat
  day : Nat
deriving DecidableEq, Repr

/-- A time of day, with the digits after the point of its seconds. -/
structure Time where
  hour : Nat
  minute : Nat
  second : Nat
  fraction : List Char := []
deriving DecidableEq, Repr

/-- A distance from universal time. -/
inductive Offset where
  | zero
  | shifted (negative : Bool) (hour minute : Nat)
deriving DecidableEq, Repr

structure DateTime where
  date : Option Date := none
  time : Option Time := none
  offset : Option Offset := none
deriving DecidableEq, Repr

/-- How a table came about: by a header or as an inline table, as part of the path of a header, or
as part of a dotted key. -/
inductive Origin where
  | explicit
  | implicit
  | dotted
deriving DecidableEq, Repr

inductive Value where
  | text (text : String)
  | boolean (value : Bool)
  | integer (value : Int)
  | float (literal : List Char)
  | dateTime (value : DateTime)
  | array (items : List Value)
  | inlineTable (origin : Origin) (entries : List (String × Value))
  | table (origin : Origin) (entries : List (String × Value))
  /-- The tables of headers in double brackets. -/
  | tables (all : List (List (String × Value)))

instance : Inhabited Value := ⟨.boolean false⟩

/-- The keys and values of a table, each key once. -/
abbrev Entries := List (String × Value)

end ClosedSwitch.Toml
