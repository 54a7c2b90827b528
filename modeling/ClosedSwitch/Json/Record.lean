import ClosedSwitch.Json.Basic
import ClosedSwitch.Span

/-!
# Records in JSON

A record is an object, or an array of its fields in their order. Unknown keys of an object are
ignored, a known key may stand only once, and an array has no surplus items. A variant of several
kinds says its kind in the field `kind`, or as the first item of an array.

Containers may only nest to a given depth: a reader takes the number of containers that it may still
open, and passes on one less to what is inside.
-/

namespace ClosedSwitch.Json

/-! ## Scalars -/

def text? : Json → Option String
  | .string text => text
  | _ => none

def flag? : Json → Option Bool
  | .bool value => some value
  | _ => none

/-- A literal of digits alone, up to the largest offset. -/
def offset? : Json → Option Nat
  | .number literal => literal.nat?.filter (· ≤ maxOffset)
  | _ => none

/-- A value that may be null. -/
def nullable? {α : Type} (read? : Json → Option α) : Json → Option (Option α)
  | .null => some none
  | json => (read? json).map some

/-! ## Lists -/

/-- The items of an array, read with one level less to open. -/
def list? {α : Type} (read? : Nat → Json → Option α) : Nat → Json → Option (List α)
  | depth + 1, .array items => items.mapM (read? depth)
  | _, _ => none

def texts? : Nat → Json → Option (List String) := list? fun _ => text?

def nullableTexts? : Nat → Json → Option (List (Option String)) :=
  list? fun _ => nullable? text?

/-! ## Records -/

/-- The fields of a record, and whether they were given by place. -/
structure Record where
  byPlace : Bool
  field? : String → Option Json

/-- The fields with their keys, if every key is Unicode text. -/
def keyed? (fields : List (Option String × Json)) : Option (List (String × Json)) :=
  fields.mapM fun (key, value) => key.map (·, value)

/-- Whether a key stands more than once. -/
def isRepeated (fields : List (String × Json)) (key : String) : Bool :=
  1 < (fields.filter (·.1 == key)).length

/-- The fields called `names` in an object. -/
def Record.ofFields? (names : List String) (fields : List (String × Json)) : Option Record :=
  if names.any (isRepeated fields) then none else some ⟨false, fun name => fields.lookup name⟩

/-- The fields called `names` in an array. -/
def Record.ofItems? (names : List String) (items : List Json) : Option Record :=
  if names.length < items.length then none
  else some ⟨true, fun name => (names.zip items).lookup name⟩

/-- The record with the fields `names`. -/
def record? (names : List String) : Json → Option Record
  | .object fields => (keyed? fields).bind (Record.ofFields? names)
  | .array items => Record.ofItems? names items
  | _ => none

namespace Record

variable {α : Type}

/-- A field that has to be there. -/
def required (r : Record) (name : String) (read? : Json → Option α) : Option α :=
  (r.field? name).bind read?

/-- A field with a value for when it is not there. -/
def defaulted (r : Record) (name : String) (fallback : α) (read? : Json → Option α) : Option α :=
  match r.field? name with
  | none => some fallback
  | some json => read? json

/-- A field that may be null, and may be left out of an object but not of an array. -/
def optional (r : Record) (name : String) (read? : Json → Option α) : Option (Option α) :=
  match r.field? name with
  | none => if r.byPlace then none else some none
  | some json => nullable? read? json

end Record

/-! ## Variants and choices -/

/-- The kinds of a variant with the names of their fields. -/
abbrev Kinds := List (String × List String)

/-- The kind that a value names. Where numbers are allowed they count the kinds from zero. -/
def kind? (kinds : Kinds) (numbered : Bool) : Json → Option (String × List String)
  | .string (some name) => kinds.find? (·.1 == name)
  | .number literal => if numbered then literal.nat?.bind fun n => kinds[n]? else none
  | _ => none

/-- The kind of a variant and its fields. -/
def variant? (kinds : Kinds) (numbered : Bool) : Json → Option (String × Record)
  | .object fields => do
    let fields ← keyed? fields
    if isRepeated fields "kind" then none
    let (name, names) ← (fields.lookup "kind").bind (kind? kinds numbered)
    let record ← Record.ofFields? names fields
    return (name, record)
  | .array (first :: items) => do
    let (name, names) ← kind? kinds numbered first
    let record ← Record.ofItems? names items
    return (name, record)
  | _ => none

/-- One of several choices by name: a string, or an object with that one key and no content. -/
def choice? {α : Type} (choices : List (String × α)) (isNothing : Json → Bool) :
    Nat → Json → Option α
  | _, .string (some name) => choices.lookup name
  | _ + 1, .object [(some name, value)] => if isNothing value then choices.lookup name else none
  | _, _ => none

/-- Whether a value is null. -/
def isNull : Json → Bool
  | .null => true
  | _ => false

/-- Whether a value is null or an empty object. -/
def isNullOrEmpty : Json → Bool
  | .null => true
  | .object [] => true
  | _ => false

end ClosedSwitch.Json
