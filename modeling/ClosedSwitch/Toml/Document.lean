import ClosedSwitch.Toml.Scalar
import ClosedSwitch.Toml.Table

/-!
# TOML documents

A document is a sequence of lines: headers, keys with their values, comments and empty lines. Every
value and every line takes at least one character, which is what the fuel is computed from.
-/

namespace ClosedSwitch.Toml

/-- How deep arrays and inline tables may nest. -/
def maxDepth : Nat := 79

mutual

/-- The value at the front, inside which `depth` containers may still nest. -/
def value? : Nat → Nat → List Char → Option (Value × List Char)
  | 0, _, _ => none
  | fuel + 1, depth, cs =>
    match cs, depth with
    | '[' :: _, 0 => none
    | '\x7b' :: _, 0 => none
    | '[' :: rest, depth + 1 =>
      (items? fuel depth [] rest).map fun (items, rest) => (.array items, rest)
    | '\x7b' :: rest, depth + 1 =>
      match skipBlanks rest with
      | '\x7d' :: rest => some (.inlineTable .explicit [], rest)
      | rest =>
        (pairs? fuel depth [] rest).map fun (entries, rest) =>
          (.inlineTable .explicit entries, rest)
    | '"' :: _, _ => (string? cs).map fun (text, rest) => (.text text, rest)
    | '\'' :: _, _ => (string? cs).map fun (text, rest) => (.text text, rest)
    | _, _ => scalarValue? cs

/-- The items of an array up to its closing bracket; a comma may stand after the last one. -/
def items? : Nat → Nat → List Value → List Char → Option (List Value × List Char)
  | 0, _, _, _ => none
  | fuel + 1, depth, read, cs =>
    match skipFiller false cs with
    | ']' :: rest => some (read.reverse, rest)
    | cs =>
      match value? fuel depth cs with
      | none => none
      | some (item, rest) =>
        match skipFiller false rest with
        | ',' :: rest => items? fuel depth (item :: read) rest
        | ']' :: rest => some ((item :: read).reverse, rest)
        | _ => none

/-- One pair or more of an inline table up to its closing brace. -/
def pairs? : Nat → Nat → Entries → List Char → Option (Entries × List Char)
  | 0, _, _, _ => none
  | fuel + 1, depth, entries, cs =>
    match key? maxKeyLength cs with
    | some (parts, '=' :: rest) =>
      match splitLast? parts, value? fuel depth (skipBlanks rest) with
      | some (path, key), some (value, rest) =>
        match changeInline (addEntry path key value) path .explicit entries with
        | none => none
        | some entries =>
          match skipBlanks rest with
          | ',' :: rest => pairs? fuel depth entries rest
          | '\x7d' :: rest => some (entries, rest)
          | _ => none
      | _, _ => none
    | _ => none

end

/-- A document up to some line: its tables, and the header that the line stands under. -/
structure Draft where
  root : Entries := []
  header : List String := []

namespace Draft

/-- Changes the table of the current header. -/
def change? (d : Draft) (change : Change) : Option Draft :=
  (changeAt false change d.header .explicit d.root).map fun root => { d with root }

/-- Adds a value under a dotted key. -/
def add? (d : Draft) (parts : List String) (value : Value) : Option Draft := do
  let (path, key) ← splitLast? parts
  d.change? (changeAt true (addEntry path key value) path)

/-- Starts the table of a header, in single or double brackets. -/
def begin? (d : Draft) (listed : Bool) (parts : List String) : Option Draft := do
  let (path, key) ← splitLast? parts
  let opening := if listed then openListed key else openTable key
  let root ← changeAt false opening path .explicit d.root
  return { root, header := parts }

end Draft

/-- A header after its opening brackets: its key and what follows its line. -/
def header? (listed : Bool) (cs : List Char) : Option (List String × List Char) := do
  let (parts, rest) ← key? maxKeyLength cs
  let rest ← expect? ']' rest
  let rest ← if listed then expect? ']' rest else some rest
  return (parts, ← endOfLine? rest)

/-- Reads the remaining lines. -/
def lines? : Nat → Draft → List Char → Option Draft
  | 0, _, _ => none
  | fuel + 1, d, cs =>
    match skipBlanks cs with
    | [] => some d
    | '#' :: rest => (endOfLine? ('#' :: rest)).bind (lines? fuel d)
    | '\n' :: rest => lines? fuel d rest
    | '\r' :: '\n' :: rest => lines? fuel d rest
    | '[' :: '[' :: rest => do
      let (parts, rest) ← header? true rest
      lines? fuel (← d.begin? true parts) rest
    | '[' :: rest => do
      let (parts, rest) ← header? false rest
      lines? fuel (← d.begin? false parts) rest
    | cs => do
      let (parts, rest) ← key? maxKeyLength cs
      let rest ← expect? '=' rest
      let (value, rest) ← value? (2 * rest.length + 2) maxDepth (skipBlanks rest)
      lines? fuel (← d.add? parts value) (← endOfLine? rest)

/-- The tables of a document; a byte order mark may stand in front of it. -/
def parse? (text : String) : Option Entries :=
  let cs := match text.toList with
    | '\ufeff' :: rest => rest
    | cs => cs
  (lines? (cs.length + 1) {} cs).map (·.root)

end ClosedSwitch.Toml
