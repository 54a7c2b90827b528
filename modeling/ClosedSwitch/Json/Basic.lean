import ClosedSwitch.Decimal

/-!
# JSON values

A value keeps what was written: the parts of a number, the fields of an object in order with
repetitions, and whether the escapes of a string spell Unicode text. Readers of particular records
decide what of that matters to them.
-/

namespace ClosedSwitch

/-- A JSON value. A text is `none` when its surrogate escapes do not pair up. -/
inductive Json where
  | null
  | bool (value : Bool)
  | number (literal : Decimal)
  | string (text : Option String)
  | array (items : List Json)
  | object (fields : List (Option String × Json))

namespace Json

instance : Inhabited Json := ⟨null⟩

def ofText (text : String) : Json := string (some text)

def ofNat (n : Nat) : Json := number (.ofNat n)

/-- An object with the given fields. -/
def ofFields (fields : List (String × Json)) : Json :=
  object (fields.map fun (key, value) => (some key, value))

/-! ## How deep a value is, and whether it is data -/

mutual

/-- The number of containers around the innermost part of a value, itself included. -/
def depth : Json → Nat
  | array items => 1 + depthOfItems items
  | object fields => 1 + depthOfFields fields
  | _ => 0

def depthOfItems : List Json → Nat
  | [] => 0
  | item :: rest => max item.depth (depthOfItems rest)

def depthOfFields : List (Option String × Json) → Nat
  | [] => 0
  | (_, value) :: rest => max value.depth (depthOfFields rest)

end

mutual

/-- Whether every string of a value is Unicode text and every number is in the range of
doubles by parts. -/
def isData : Json → Bool
  | null => true
  | bool _ => true
  | number literal => literal.inRangeByParts
  | string text => text.isSome
  | array items => itemsAreData items
  | object fields => fieldsAreData fields

def itemsAreData : List Json → Bool
  | [] => true
  | item :: rest => item.isData && itemsAreData rest

def fieldsAreData : List (Option String × Json) → Bool
  | [] => true
  | (key, value) :: rest => key.isSome && value.isData && fieldsAreData rest

end

end Json

end ClosedSwitch
