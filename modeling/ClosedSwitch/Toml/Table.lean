import ClosedSwitch.Toml.Basic

/-!
# Adding to tables

A key is defined once. A dotted key may add to tables that dotted keys made, and a header to any
table that no other header or inline table defined; through a list of tables both reach its last
one.
-/

namespace ClosedSwitch.Toml

namespace Entries

def get? (entries : Entries) (key : String) : Option Value := entries.lookup key

/-- Puts a value in place of that of a key, at the end if the key is new. -/
def set (entries : Entries) (key : String) (value : Value) : Entries :=
  if entries.any (·.1 == key) then
    entries.map fun entry => if entry.1 == key then (key, value) else entry
  else entries ++ [(key, value)]

/-- Defines a key that is not there yet. -/
def define? (entries : Entries) (key : String) (value : Value) : Option Entries :=
  if entries.any (·.1 == key) then none else some (entries ++ [(key, value)])

end Entries

/-- A change to a table that came about in a certain way. -/
abbrev Change := Origin → Entries → Option Entries

/-- Adds a value under the last part of a dotted key, where `path` is what stands before it. A
table that was reached by a path has to come from dotted keys, and any other must not. -/
def addEntry (path : List String) (key : String) (value : Value) : Change := fun origin entries =>
  if (origin == .dotted) == path.isEmpty then none else entries.define? key value

/-- Follows the path of a dotted key inside an inline table. -/
def changeInline (change : Change) : List String → Change
  | [], origin, entries => change origin entries
  | key :: path, _, entries =>
    match entries.get? key with
    | none => do
      let inner ← changeInline change path .dotted []
      return entries.set key (.inlineTable .dotted inner)
    | some (.inlineTable .dotted inner) => do
      let inner ← changeInline change path .dotted inner
      return entries.set key (.inlineTable .dotted inner)
    | some _ => none

/-- Follows a path inside the document, of a dotted key or of a header. -/
def changeAt (isKey : Bool) (change : Change) : List String → Change
  | [], origin, entries => change origin entries
  | key :: path, _, entries =>
    match entries.get? key with
    | none => do
      let origin := if isKey then .dotted else .implicit
      let inner ← changeAt isKey change path origin []
      return entries.set key (.table origin inner)
    | some (.table origin inner) =>
      if isKey && origin == .explicit then none
      else do
        let inner ← changeAt isKey change path origin inner
        return entries.set key (.table origin inner)
    | some (.tables all) =>
      match all.reverse with
      | [] => none
      | last :: before => do
        let last ← changeAt isKey change path .explicit last
        return entries.set key (.tables (last :: before).reverse)
    | some _ => none

/-- Opens a table under the last part of a header. -/
def openTable (key : String) : Change := fun _ entries =>
  match entries.get? key with
  | none => some (entries.set key (.table .explicit []))
  | some (.table .implicit inner) => some (entries.set key (.table .explicit inner))
  | some _ => none

/-- Opens one more table of the list under the last part of a header. -/
def openListed (key : String) : Change := fun _ entries =>
  match entries.get? key with
  | none => some (entries.set key (.tables [[]]))
  | some (.tables all) => some (entries.set key (.tables (all ++ [[]])))
  | some _ => none

/-- The last part of a key and what stands before it. -/
def splitLast? (parts : List String) : Option (List String × String) :=
  parts.getLast?.map fun last => (parts.dropLast, last)

end ClosedSwitch.Toml
