import ClosedSwitch.Json.Reader
import ClosedSwitch.Json.Record
import ClosedSwitch.Snapshot.Basic

/-!
# Snapshots in JSON

The format that snapshots are exchanged in. A switch is read as a whole before its parts are looked
at, so everything inside it has to be data, within the depth, even where it is then ignored. Outside
of switches, an ignored value only has to be JSON. Inside of switches a kind may be given by its
number, and an empty object stands for null where a choice has no content.
-/

namespace ClosedSwitch

open Json

/-! ## Types -/

def Accessibility.names : List (String × Accessibility) :=
  [("private", .privateAccess), ("private_protected", .privateProtected),
    ("protected", .protectedAccess), ("internal", .internal),
    ("protected_internal", .protectedInternal), ("public", .publicAccess)]

def Accessibility.ofJson? : Nat → Json → Option Accessibility := choice? names isNull

def Span.ofJson? : Nat → Json → Option Span
  | 0, _ => none
  | _ + 1, json => do
    let r ← json.record? ["start", "end"]
    return ⟨← r.required "start" offset?, ← r.required "end" offset?⟩

def Constructor.ofJson? : Nat → Json → Option (Constructor String)
  | 0, _ => none
  | depth + 1, json => do
    let r ← json.record? ["accessibility", "parameters"]
    return {
      accessibility := ← r.required "accessibility" (Accessibility.ofJson? depth)
      parameters := ← r.defaulted "parameters" [] (nullableTexts? depth) }

def Property.ofJson? : Nat → Json → Option (Property String)
  | 0, _ => none
  | _ + 1, json => do
    let r ← json.record? ["name", "type"]
    return { name := ← r.required "name" text?, type := ← r.optional "type" text? }

/-- The keys of a type declaration. -/
def TypeDecl.keys : List String :=
  ["name", "abstract", "sealed", "base", "interfaces", "constructors", "members", "properties",
    "deconstructors", "nested"]

def TypeShape.ofRecord? (depth : Nat) (r : Record) : Option (TypeShape String) := do
  return {
    name := ← r.required "name" text?
    isAbstract := ← r.defaulted "abstract" false flag?
    isSealed := ← r.defaulted "sealed" false flag?
    base := ← r.defaulted "base" none (nullable? text?)
    interfaces := ← r.defaulted "interfaces" [] (texts? depth)
    constructors := ← r.defaulted "constructors" [] (list? Constructor.ofJson? depth)
    members := ← r.defaulted "members" [] (texts? depth)
    properties := ← r.defaulted "properties" [] (list? Property.ofJson? depth)
    deconstructors := ← r.defaulted "deconstructors" [] (list? nullableTexts? depth) }

def TypeDecl.ofJson? : Nat → Json → Option TypeDecl
  | 0, _ => none
  | depth + 1, json => do
    let r ← json.record? TypeDecl.keys
    let shape ← TypeShape.ofRecord? depth r
    let nested ← r.defaulted "nested" [] fun field =>
      match depth, field with
      | inner + 1, .array items => items.mapM fun item => TypeDecl.ofJson? inner item
      | _, _ => none
    return { shape, nested }

def Extension.ofJson? : Nat → Json → Option (Extension String)
  | 0, _ => none
  | depth + 1, json => do
    let r ← json.record? ["receiver", "parameters"]
    return {
      receiver := ← r.required "receiver" text?
      parameters := ← r.defaulted "parameters" [] (nullableTexts? depth) }

/-! ## Switches -/

def NullMark.names : List (String × NullMark) :=
  [("none", .none), ("not_annotated", .nonNull), ("annotated", .nullable)]

def FlowState.names : List (String × FlowState) :=
  [("none", .none), ("not_null", .notNull), ("maybe_null", .maybeNull)]

def RelationalOp.names : List (String × RelationalOp) :=
  [("<", .less), ("<=", .lessEqual), (">", .greater), (">=", .greaterEqual)]

def NullMark.ofJson? : Nat → Json → Option NullMark := choice? names isNullOrEmpty

def FlowState.ofJson? : Nat → Json → Option FlowState := choice? names isNullOrEmpty

def RelationalOp.ofJson? : Nat → Json → Option RelationalOp := choice? names isNullOrEmpty

def Nullability.ofJson? : Nat → Json → Option Nullability
  | 0, _ => none
  | depth + 1, json => do
    let r ← json.record? ["annotation", "flow_state"]
    return {
      mark := ← r.defaulted "annotation" .none (NullMark.ofJson? depth)
      flowState := ← r.defaulted "flow_state" .none (FlowState.ofJson? depth) }

def ValueSymbol.kinds : Kinds :=
  [("parameter", ["annotation"]), ("local", ["annotation"]), ("other", [])]

def ValueSymbol.ofJson? : Nat → Json → Option ValueSymbol
  | 0, _ => none
  | depth + 1, json => do
    let (kind, r) ← json.variant? kinds true
    match kind with
    | "parameter" => return .parameter (← r.defaulted "annotation" .none (NullMark.ofJson? depth))
    | "local" => return .localVariable (← r.defaulted "annotation" .none (NullMark.ofJson? depth))
    | _ => return .other

def Governing.ofJson? : Nat → Json → Option Governing
  | 0, _ => none
  | depth + 1, json => do
    let r ← json.record? ["span", "type", "nullability", "symbol"]
    return {
      span := ← r.defaulted "span" default (Span.ofJson? depth)
      type := ← r.defaulted "type" none (nullable? text?)
      nullability := ← r.defaulted "nullability" {} (Nullability.ofJson? depth)
      symbol := ← r.defaulted "symbol" none (nullable? (ValueSymbol.ofJson? depth)) }

/-- The text `null`, or an object with one key that says what the constant is. -/
def Constant.ofJson? : Nat → Json → Option DeclaredConstant
  | _, .string (some "null") => some .null
  | _ + 1, .object [(some "null", value)] => if isNullOrEmpty value then some .null else none
  | _ + 1, .object [(some "literal", value)] => value.text?.map .literal
  | _ + 1, .object [(some "name", value)] => value.text?.map .name
  | _, _ => none

def Pattern.kinds : Kinds :=
  [("constant", ["value"]), ("type", ["type"]), ("declaration", ["type", "designation"]),
    ("recursive", ["type", "positional", "properties", "designation"]), ("discard", []),
    ("var", ["designation"]), ("relational", ["op", "value"]), ("opaque", [])]

def Pattern.ofJson? : Nat → Json → Option DeclaredPattern
  | 0, _ => none
  | depth + 1, json => do
    let (kind, r) ← json.variant? kinds true
    match kind with
    | "constant" => return .constant (← r.required "value" (Constant.ofJson? depth))
    | "type" => return .type (← r.required "type" text?)
    | "declaration" =>
      return .declaration (← r.required "type" text?)
        (← r.defaulted "designation" none (nullable? text?))
    | "recursive" =>
      let name ← r.defaulted "type" none (nullable? text?)
      let positional ← r.defaulted "positional" none fun field =>
        match depth, field with
        | _, .null => some none
        | inner + 1, .array items => do
          let elements ← items.mapM fun item => Pattern.ofJson? inner item
          return some ⟨(), elements⟩
        | _, _ => none
      let properties ← r.defaulted "properties" none fun field =>
        match depth, field with
        | _, .null => some none
        | _ + 1, .array [] => some (some [])
        | inner + 2, .array items => do
          let members ← items.mapM fun item => do
            let r ← item.record? ["name", "pattern"]
            return ⟨← r.required "name" text?,
              ← r.required "pattern" fun part => Pattern.ofJson? inner part⟩
          return some members
        | _, _ => none
      return .recursive name positional properties
        (← r.defaulted "designation" none (nullable? text?))
    | "discard" => return .discard
    | "var" => return .var (← r.defaulted "designation" none (nullable? text?))
    | "relational" =>
      return .relational (← r.required "op" (RelationalOp.ofJson? depth))
        (← r.required "value" (Constant.ofJson? depth))
    | _ => return .undescribed

/-- The parts that arms and pattern labels have in common. -/
def Case.ofRecord? (depth : Nat) (r : Record) : Option DeclaredCase := do
  return {
    pattern := ← r.required "pattern" (Pattern.ofJson? depth)
    isGuarded := ← r.defaulted "guard" false flag?
    span := ← r.defaulted "span" default (Span.ofJson? depth) }

def Case.ofJson? : Nat → Json → Option DeclaredCase
  | 0, _ => none
  | depth + 1, json => (json.record? ["pattern", "guard", "span"]).bind (Case.ofRecord? depth)

def Label.kinds : Kinds :=
  [("case", ["value", "span"]), ("pattern", ["pattern", "guard", "span"]), ("default", ["span"])]

def Label.ofJson? : Nat → Json → Option DeclaredLabel
  | 0, _ => none
  | depth + 1, json => do
    let (kind, r) ← json.variant? kinds true
    match kind with
    | "case" =>
      return .value (← r.required "value" (Constant.ofJson? depth))
        (← r.defaulted "span" default (Span.ofJson? depth))
    | "pattern" => return .case (← Case.ofRecord? depth r)
    | _ => return .otherwise (← r.defaulted "span" default (Span.ofJson? depth))

/-- The labels of a section of a switch statement. -/
def Label.sectionOfJson? : Nat → Json → Option (List DeclaredLabel)
  | 0, _ => none
  | depth + 1, json => do
    let r ← json.record? ["labels"]
    r.required "labels" (list? Label.ofJson? depth)

def SwitchDecl.kinds : Kinds :=
  [("expression", ["span", "governing", "arms"]), ("statement", ["span", "governing", "sections"])]

def SwitchDecl.ofJson? : Nat → Json → Option SwitchDecl
  | 0, _ => none
  | depth + 1, json => do
    if !json.isData || depth + 1 < json.depth then none
    let (kind, r) ← json.variant? kinds false
    let span ← r.required "span" (Span.ofJson? depth)
    let governing ← r.required "governing" (Governing.ofJson? depth)
    match kind with
    | "expression" =>
      return .expression span governing (← r.defaulted "arms" [] (list? Case.ofJson? depth))
    | _ =>
      return .statement span governing
        (← r.defaulted "sections" [] (list? Label.sectionOfJson? depth))

/-! ## Files, diagnostics and the whole -/

/-- Keys with texts, the last entry of a key in front of the others. -/
def optionsOfJson? : Nat → Json → Option (List (String × String))
  | _ + 1, .object fields => do
    let entries ← fields.mapM fun (key, value) => do return (← key, ← value.text?)
    return entries.reverse
  | _, _ => none

def FileDecl.ofJson? : Nat → Json → Option FileDecl
  | 0, _ => none
  | depth + 1, json => do
    let r ← json.record? ["path", "text", "options", "switches"]
    return {
      path := ← r.required "path" text?
      text := ← r.defaulted "text" none (nullable? text?)
      options := ← r.defaulted "options" [] (optionsOfJson? depth)
      switches := ← r.defaulted "switches" [] (list? SwitchDecl.ofJson? depth) }

def DiagnosticDecl.ofJson? : Nat → Json → Option DiagnosticDecl
  | 0, _ => none
  | depth + 1, json => do
    let r ← json.record? ["id", "file", "span", "message"]
    return {
      id := ← r.required "id" text?
      file := ← r.required "file" text?
      span := ← r.required "span" (Span.ofJson? depth)
      message := ← r.defaulted "message" "" text? }

namespace Snapshot

/-- A snapshot in which containers nest no deeper than `depth`. -/
def ofJsonWithin? : Nat → Json → Option Snapshot
  | 0, _ => none
  | depth + 1, json => do
    let r ← json.record? ["types", "extensions", "files", "diagnostics"]
    return {
      types := ← r.defaulted "types" [] (list? TypeDecl.ofJson? depth)
      extensions := ← r.defaulted "extensions" [] (list? Extension.ofJson? depth)
      files := ← r.defaulted "files" [] (list? FileDecl.ofJson? depth)
      diagnostics := ← r.defaulted "diagnostics" [] (list? DiagnosticDecl.ofJson? depth) }

/-- A snapshot from a value, however deep. -/
def ofJson? (json : Json) : Option Snapshot := ofJsonWithin? json.depth json

/-- How deep the containers of a text may nest. -/
def maxDepth : Nat := 127

/-- A snapshot from the text of a file. -/
def parse? (text : String) : Option Snapshot := (Json.parse? text).bind (ofJsonWithin? maxDepth)

end Snapshot

/-! ## Diagnostics outside of a snapshot -/

def Location.ofJson? : Nat → Json → Option Location
  | 0, _ => none
  | depth + 1, json => do
    let r ← json.record? ["file", "span"]
    return { file := ← r.required "file" offset?, span := ← r.required "span" (Span.ofJson? depth) }

/-- A diagnostic whose file is given by number. -/
def Diagnostic.ofJson? (json : Json) : Option Diagnostic :=
  match json.depth with
  | 0 => none
  | depth + 1 => do
    let r ← json.record? ["id", "location", "message"]
    return {
      id := ← r.required "id" text?
      location := ← r.required "location" (Location.ofJson? depth)
      message := ← r.defaulted "message" "" text? }

end ClosedSwitch
