import ClassForge.Files.Access
import ClassForge.Source.Declared
import ClassForge.Source.OpenTag

/-! # The registry of defined classes

Nothing is executed: to evaluate a source text is to note the classes that it declares. A file is
read at most once, by its location. Whatever comes of an operation, it leaves a registry.
-/

namespace ClassForge

/-- Why a source text was not taken in. -/
inductive RegistryError where
  | evaluationDisabled
  | nothingDeclared
  /-- The path leads nowhere. -/
  | cannotOpen (path : String)
  /-- What lies at the location is no text file. -/
  | cannotRead (location : String)
deriving DecidableEq, Repr

def RegistryError.message : RegistryError → String
  | .evaluationDisabled => "evaluation is disabled in this runtime"
  | .nothingDeclared => "no class declaration found in evaluated code"
  | .cannotOpen path => "failed to open '" ++ path ++ "'"
  | .cannotRead location => "failed to read '" ++ location ++ "'"

/-- The classes that are defined and the files that were read. -/
structure Registry where
  /-- Whether source texts may be given directly. -/
  evaluates : Bool := true
  /-- In the order in which they were defined first. -/
  defined : List String := []
  required : List Location := []
deriving DecidableEq, Repr

namespace Registry

/-- The names of all defined classes in order. -/
def sortedNames (registry : Registry) : List String :=
  registry.defined.mergeSort fun a b => decide (a ≤ b)

/-- Whether a class is defined; separators in front of its name do not count. -/
def isDefined (registry : Registry) (name : String) : Bool :=
  registry.defined.contains (String.ofList (Segment.trimFront name.toList))

/-- Adds a name that may be there already. -/
def note (defined : List String) (name : String) : List String :=
  if defined.contains name then defined else defined ++ [name]

/-- Defines what a source text declares, which must be something. -/
def define (registry : Registry) (code : String) : Except RegistryError Unit × Registry :=
  let declared := declaredClasses code
  if declared = [] then (.error .nothingDeclared, registry)
  else (.ok (), { registry with defined := declared.foldl note registry.defined })

/-- Takes in a source text. -/
def evaluate (registry : Registry) (code : String) : Except RegistryError Unit × Registry :=
  if registry.evaluates then registry.define code else (.error .evaluationDisabled, registry)

/-- Takes in a file, unless it was taken in before, and says that it is taken in. A file is noted
only after its classes are defined. -/
def require (registry : Registry) (store : FileStore) (path : String) :
    Except RegistryError Bool × Registry :=
  match store.resolve path with
  | .error _ => (.error (.cannotOpen path), registry)
  | .ok location =>
    if registry.required.contains location then (.ok true, registry)
    else
      match store.textAt location with
      | .error _ => (.error (.cannotRead location.text), registry)
      | .ok source =>
        match registry.define (stripOpenTag source) with
        | (.error e, registry) => (.error e, registry)
        | (.ok (), registry) =>
          (.ok true, { registry with required := location :: registry.required })

/-- Takes in a source text through a file of its own, which is gone afterwards. -/
def evaluateThroughFile (registry : Registry) (store : FileStore) (code : String) :
    Except RegistryError Unit × Registry :=
  let location := store.unusedLocation registry.required
  let source := openTag ++ "\n" ++ code
  let (result, registry) :=
    registry.require (store.put location (.file source.toUTF8)) location.text
  (result.map fun _ => (), registry)

end Registry

end ClassForge
