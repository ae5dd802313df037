/-! # Command line arguments

A command line is options of the whole program, a command, and the command's options and its one
operand. Options of the whole program may also follow the command. A value that follows its option
as an argument of its own is settled only when the next option or operand is met, or at the end; an
option that is not known is reported even while one waits for its value.
-/

namespace ClassForge

/-- Why a command line names nothing to do. -/
inductive UsageError where
  | missingSubcommand
  | invalidSubcommand
  | unknownArgument
  | missingRequiredArgument
  /-- An option without its value. -/
  | invalidValue
  /-- An option or a flag that may be given once was given twice. -/
  | argumentConflict
  /-- A value for an option that takes none. -/
  | tooManyValues
  | displayHelp
  | displayVersion
deriving DecidableEq, Repr

/-- How often an option may be given, and whether it has a value. -/
inductive OptionKind where
  | flag
  | single
  | repeated
deriving DecidableEq, Repr

/-- An option: its long name, its letter if it has one, and its kind. -/
structure OptionSpec where
  long : String
  kind : OptionKind
  letter : Option Char := none
deriving DecidableEq, Repr

/-- What stands on one side of the command. -/
structure Section where
  options : List OptionSpec
  /-- The commands that may end this section. -/
  commands : List String
  /-- Whether there is an operand. -/
  hasOperand : Bool
  /-- Whether the version can be asked for. -/
  hasVersion : Bool
deriving DecidableEq, Repr

/-- What has been read of a section. -/
structure Reading where
  /-- Options with their values, in order; flags have an empty value. -/
  given : List (String × String) := []
  /-- An option that is not settled yet, with its value if that came. -/
  pending : Option (OptionSpec × Option String) := none
  operand : Option String := none
  /-- Whether only operands may follow. -/
  trailing : Bool := false
deriving DecidableEq, Repr

namespace Reading

/-- Whether the next argument is the value of an option. -/
def awaitsValue (reading : Reading) : Bool :=
  match reading.pending with
  | some (_, none) => true
  | _ => false

/-- Notes an option with its value. Only repeated options may come again. -/
def give (reading : Reading) (spec : OptionSpec) (value : String) :
    Except UsageError Reading :=
  if spec.kind ≠ .repeated ∧ (reading.given.lookup spec.long).isSome then
    .error .argumentConflict
  else .ok { reading with given := reading.given ++ [(spec.long, value)] }

/-- Settles the option that waits, which must have its value by now. -/
def settle (reading : Reading) : Except UsageError Reading :=
  match reading.pending with
  | none => .ok reading
  | some (_, none) => .error .invalidValue
  | some (spec, some value) => { reading with pending := none }.give spec value

/-- Meets an option, with the value that is attached to it. -/
def meet (reading : Reading) (spec : OptionSpec) (attached : Option String) :
    Except UsageError Reading :=
  match spec.kind, attached with
  | .flag, some _ => .error .tooManyValues
  | .flag, none => do (← reading.settle).give spec ""
  | _, some value => do (← reading.settle).give spec value
  | _, none => do return { ← reading.settle with pending := some (spec, none) }

/-- A request for help or for the version; what waits is settled first. -/
def interrupt (reading : Reading) (attached : Option String) (request : UsageError) :
    Except UsageError Reading :=
  match attached with
  | some _ => .error .tooManyValues
  | none => do
    discard reading.settle
    .error request

end Reading

namespace Section

/-- Splits a text at the first equals sign. -/
def splitEquals (chars : List Char) : String × Option String :=
  match chars.span (· != '=') with
  | (name, _ :: value) => (String.ofList name, some (String.ofList value))
  | (name, []) => (String.ofList name, none)

/-- Reads an argument that starts with two dashes. -/
def readLong (part : Section) (reading : Reading) (chars : List Char) :
    Except UsageError Reading :=
  let (name, attached) := splitEquals chars
  if name = "help" then reading.interrupt attached .displayHelp
  else if part.hasVersion && name = "version" then reading.interrupt attached .displayVersion
  else
    match part.options.find? (·.long == name) with
    | some spec => reading.meet spec attached
    | none => .error .unknownArgument

/-- The value that follows a letter directly, with or without an equals sign. -/
def attachedValue : List Char → Option String
  | [] => none
  | '=' :: value => some (String.ofList value)
  | value => some (String.ofList value)

/-- Reads an argument that starts with one dash. -/
def readShort (part : Section) (reading : Reading) (letter : Char) (rest : List Char) :
    Except UsageError Reading :=
  if letter = 'h' then reading.interrupt none .displayHelp
  else if part.hasVersion && letter = 'V' then reading.interrupt none .displayVersion
  else
    match part.options.find? (·.letter == some letter) with
    | some spec => reading.meet spec (attachedValue rest)
    | none => .error .unknownArgument

/-- Takes an argument as the operand. -/
def readOperand (part : Section) (reading : Reading) (argument : String) :
    Except UsageError Reading :=
  if part.hasOperand && reading.operand.isNone then do
    return { ← reading.settle with operand := some argument }
  else if part.commands = [] then .error .unknownArgument
  else if reading.trailing && part.commands.contains argument then .error .unknownArgument
  else .error .invalidSubcommand

/-- Reads one argument that names no command. -/
def readArgument (part : Section) (reading : Reading) (argument : String) :
    Except UsageError Reading :=
  if reading.trailing then part.readOperand reading argument
  else
    match argument.toList with
    | ['-', '-'] => .ok { reading with trailing := true }
    | '-' :: '-' :: rest => part.readLong reading rest
    | '-' :: letter :: rest => part.readShort reading letter rest
    | _ =>
      match reading.pending with
      | some (spec, none) => .ok { reading with pending := some (spec, some argument) }
      | _ => part.readOperand reading argument

/-- Whether an argument is a command here. -/
def isCommand (part : Section) (reading : Reading) (argument : String) : Bool :=
  !reading.trailing && !reading.awaitsValue && part.commands.contains argument

/-- Reads a section up to a command: what was read, and the command with what follows it. -/
def read (part : Section) : Reading → List String →
    Except UsageError (Reading × Option (String × List String))
  | reading, [] => .ok (reading, none)
  | reading, argument :: rest =>
    if part.isCommand reading argument then .ok (reading, some (argument, rest))
    else do part.read (← part.readArgument reading argument) rest

end Section

/-! ## The options of this program -/

/-- Options of the whole program. -/
def globalOptions : List OptionSpec := [
  ⟨"config", .single, none⟩, ⟨"namespace", .single, none⟩, ⟨"output-dir", .single, none⟩,
  ⟨"debug", .flag, none⟩]

/-- The option that gives a generation option. -/
def generationOption : OptionSpec := ⟨"option", .repeated, some 'o'⟩

/-- The options of each command. -/
def commandOptions : List (String × List OptionSpec) := [
  ("inflect", [generationOption]),
  ("user-name", []),
  ("generate", [
    ⟨"rename", .single, none⟩, ⟨"extends", .single, none⟩, ⟨"implements", .repeated, none⟩,
    ⟨"disable", .repeated, none⟩, ⟨"public-only", .flag, none⟩, ⟨"inflect", .flag, none⟩,
    generationOption, ⟨"write", .flag, none⟩])]

/-- The command that shows help. -/
def helpCommand : String := "help"

/-- All commands. -/
def commandNames : List String :=
  commandOptions.map (·.1) ++ [helpCommand]

/-- What stands before the command. -/
def outerSection : Section := ⟨globalOptions, commandNames, false, true⟩

/-- What stands behind a command. -/
def innerSection (options : List OptionSpec) : Section :=
  ⟨options ++ globalOptions, [], true, false⟩

/-- A command line that names something to do. -/
structure Invocation where
  command : String
  operand : String
  /-- Options before the command. -/
  outer : List (String × String)
  /-- Options behind the command. -/
  inner : List (String × String)
deriving DecidableEq, Repr

namespace Invocation

/-- What asking for help on commands comes to; no command has commands of its own. -/
def help : List String → UsageError
  | [] => .displayHelp
  | [name] => if commandNames.contains name then .displayHelp else .invalidSubcommand
  | _ => .invalidSubcommand

/-- Reads what stands behind a command: its operand and its options. -/
def readInner (options : List OptionSpec) (arguments : List String) :
    Except UsageError (String × List (String × String)) := do
  let (reading, _) ← (innerSection options).read {} arguments
  let reading ← reading.settle
  match reading.operand with
  | some operand => return (operand, reading.given)
  | none => .error .missingRequiredArgument

/-- Reads a command line. Faults behind the command come before those of an option that waits in
front of it. -/
def ofArguments (arguments : List String) : Except UsageError Invocation := do
  match ← outerSection.read {} arguments with
  | (reading, none) =>
    discard reading.settle
    .error .missingSubcommand
  | (reading, some (command, rest)) =>
    match commandOptions.lookup command with
    | none => .error (help rest)
    | some options =>
      let (operand, inner) ← readInner options rest
      let reading ← reading.settle
      return ⟨command, operand, reading.given, inner⟩

/-- The value of an option of the whole program; the later place counts. -/
def globalValue? (invocation : Invocation) (name : String) : Option String :=
  (invocation.inner.lookup name).or (invocation.outer.lookup name)

/-- Whether debugging output is asked for anywhere. -/
def wantsDebug (invocation : Invocation) : Bool :=
  (invocation.globalValue? "debug").isSome

/-- The value of an option of the command. -/
def value? (invocation : Invocation) (name : String) : Option String :=
  invocation.inner.lookup name

/-- All values of an option of the command, in order. -/
def values (invocation : Invocation) (name : String) : List String :=
  (invocation.inner.filter (·.1 == name)).map (·.2)

/-- Whether a flag of the command is given. -/
def hasFlag (invocation : Invocation) (name : String) : Bool :=
  (invocation.value? name).isSome

end Invocation

end ClassForge
