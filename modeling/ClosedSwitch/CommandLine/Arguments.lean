/-!
# Arguments of a command

Flags and options start with two hyphens and stand anywhere between the positional arguments. The
value of an option follows it or its equals sign, each flag and option stands at most once, and two
hyphens alone end them. An argument is judged where it stands, so a fault in front of a request for
help wins over it.
-/

namespace ClosedSwitch.CommandLine

/-- Why there is no command to run. -/
inductive Refusal where
  /-- The arguments do not fit. -/
  | usage
  /-- Help was asked for. -/
  | help
deriving DecidableEq, Repr

inductive ValueKind where
  | text
  | path
deriving DecidableEq, Repr

/-- Any text is a value, but a path is not empty. -/
def ValueKind.accepts : ValueKind → String → Bool
  | .text, _ => true
  | .path, value => !value.isEmpty

/-- What a command accepts. -/
structure Spec where
  flags : List String := []
  options : List (String × ValueKind) := []
  positionals : List ValueKind := []

/-- What a command was given. -/
structure Arguments where
  flags : List String := []
  options : List (String × String) := []
  positionals : List String := []
deriving DecidableEq, Repr

namespace Arguments

def hasFlag (a : Arguments) (name : String) : Bool := a.flags.contains name

def option? (a : Arguments) (name : String) : Option String := a.options.lookup name

def addFlag (a : Arguments) (name : String) : Except Refusal Arguments :=
  if a.hasFlag name then .error .usage else .ok { a with flags := name :: a.flags }

def addOption (a : Arguments) (name : String) (kind : ValueKind) (value : String) :
    Except Refusal Arguments :=
  if (a.option? name).isSome || !kind.accepts value then .error .usage
  else .ok { a with options := (name, value) :: a.options }

def addPositional (spec : Spec) (a : Arguments) (value : String) : Except Refusal Arguments :=
  match spec.positionals[a.positionals.length]? with
  | none => .error .usage
  | some kind =>
    if kind.accepts value then .ok { a with positionals := a.positionals ++ [value] }
    else .error .usage

end Arguments

/-- The shapes that an argument may have. -/
inductive Shape where
  | endOfOptions
  | long (name : String) (value : Option String)
  | short (letters : List Char)
  | plain

def shapeOf (argument : String) : Shape :=
  match argument.toList with
  | ['-', '-'] => .endOfOptions
  | '-' :: '-' :: rest =>
    let name := String.ofList (rest.takeWhile (· ≠ '='))
    match rest.dropWhile (· ≠ '=') with
    | [] => .long name none
    | _ :: value => .long name (some (String.ofList value))
  | '-' :: letter :: letters => .short (letter :: letters)
  | _ => .plain

/-- Whether an argument can be the value of the option in front of it. -/
def isValue (argument : String) : Bool :=
  match shapeOf argument with
  | .plain => true
  | _ => false

/-- Reads the arguments of a command one after another. -/
def readArguments (spec : Spec) (ended : Bool) (a : Arguments) :
    List String → Except Refusal Arguments
  | [] => .ok a
  | argument :: rest =>
    match if ended then .plain else shapeOf argument with
    | .plain => do readArguments spec ended (← a.addPositional spec argument) rest
    | .endOfOptions => readArguments spec true a rest
    | .short letters => .error (if letters.head? = some 'h' then .help else .usage)
    | .long name value =>
      match spec.options.lookup name with
      | some kind =>
        match value, rest with
        | some value, rest => do readArguments spec ended (← a.addOption name kind value) rest
        | none, next :: rest =>
          if isValue next then do readArguments spec ended (← a.addOption name kind next) rest
          else .error .usage
        | none, [] => .error .usage
      | none =>
        if value.isSome then .error .usage
        else if spec.flags.contains name then do readArguments spec ended (← a.addFlag name) rest
        else .error (if name = "help" then .help else .usage)

end ClosedSwitch.CommandLine
