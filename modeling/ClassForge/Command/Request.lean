import ClassForge.Command.Arguments
import ClassForge.Literal.Codec
import ClassForge.Output.Settings

/-! # Requests

What a command line asks for, and why a request fails.
-/

namespace ClassForge

/-- Why a request failed. -/
inductive CommandError where
  | optionWithoutValue (option : String)
  | optionWithoutKey (option : String)
  | settings (path : String) (cause : Failure)
  | blueprint (path : String) (cause : Failure)
  | className (text : String) (cause : NameError)
  | build (cause : NameError)
  | pass (cause : PassError)
  | makeDirectory (cause : StoreError)
  | directory (cause : DirectoryError)
  | write (cause : Failure)
deriving DecidableEq, Repr

namespace CommandError

/-- What was being done, where the cause alone does not tell. -/
def context? : CommandError → Option String
  | .optionWithoutValue option => some ("Invalid option '" ++ option ++ "': expected KEY=VALUE")
  | .optionWithoutKey option => some ("Invalid option '" ++ option ++ "': empty key")
  | .settings path _ => some ("failed to load configuration from " ++ path)
  | .blueprint path _ => some ("failed to load descriptor " ++ path)
  | .className text _ => some ("invalid class name '" ++ text ++ "'")
  | _ => none

/-- The wording of the cause, if there is one. -/
def causeMessage? : CommandError → Option String
  | .optionWithoutValue _ => none
  | .optionWithoutKey _ => none
  | .settings _ cause => some cause.message
  | .blueprint _ cause => some cause.message
  | .className _ cause => some cause.message
  | .build cause => some (Failure.name cause).message
  | .pass cause => some cause.message
  | .makeDirectory cause => some cause.message
  | .directory cause => some cause.message
  | .write cause => some cause.message

/-- What was being done and what went wrong. -/
def report (e : CommandError) : String :=
  "\n\nCaused by:\n    ".intercalate (e.context?.toList ++ e.causeMessage?.toList)

end CommandError

/-- What to generate from a blueprint. -/
structure GenerateRequest where
  blueprint : String
  rename : Option String := none
  extension : Option String := none
  interfaces : List String := []
  disabled : List String := []
  publicOnly : Bool := false
  inflect : Bool := false
  options : Options := []
  write : Bool := false

/-- What a command line asks for. -/
inductive Request where
  | inflect (className : String) (options : Options)
  | userName (className : String)
  | generate (request : GenerateRequest)

namespace Request

/-- Reads `key=value`. A value that is no JSON is a text. -/
def parseOption (text : String) : Except CommandError (String × Literal) :=
  match Section.splitEquals text.toList with
  | (_, none) => .error (.optionWithoutValue text)
  | (key, some value) =>
    if key = "" then .error (.optionWithoutKey text)
    else
      match Json.decode Literal.ofJson value with
      | .ok literal => .ok (key, literal)
      | .error _ => .ok (key, .str value)

/-- The generation options of a command line. -/
def options (invocation : Invocation) : Except CommandError Options :=
  Options.ofEntries <$> (invocation.values "option").mapM parseOption

/-- The request of a command line. -/
def ofInvocation (invocation : Invocation) : Except CommandError Request := do
  let options ← options invocation
  match invocation.command with
  | "inflect" => return .inflect invocation.operand options
  | "user-name" => return .userName invocation.operand
  | _ =>
    return .generate {
      blueprint := invocation.operand
      rename := invocation.value? "rename"
      extension := invocation.value? "extends"
      interfaces := invocation.values "implements"
      disabled := invocation.values "disable"
      publicOnly := invocation.hasFlag "public-only"
      inflect := invocation.hasFlag "inflect"
      options
      write := invocation.hasFlag "write" }

/-- The settings of a command line: those of a file, if one is named, and what overrides them. -/
def settings (invocation : Invocation) (store : FileStore) : Except CommandError Settings := do
  let settings ← match invocation.globalValue? "config" with
    | some path => (Settings.ofFile store path).mapError (.settings path)
    | none => pure {}
  return {
    settings with
    space := (invocation.globalValue? "namespace").getD settings.space
    directory := (invocation.globalValue? "output-dir").getD settings.directory }

end Request

end ClassForge
