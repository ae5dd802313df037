import ClassForge.Blueprint.Build
import ClassForge.Command.Request
import ClassForge.Output.Emit
import ClassForge.Pass.Basic

/-! # Running requests

A request gives a text. To generate a class is to build its blueprint, to send the tree through the
passes that are asked for, and to render or write the result.
-/

namespace ClassForge

namespace Request

/-- Reads a class name. -/
def parseClassName (text : String) : Except CommandError ClassName :=
  (ClassName.ofText text).mapError (.className text)

end Request

namespace GenerateRequest

/-- The name that the class is to have. -/
def target (request : GenerateRequest) (settings : Settings) (name : ClassName) :
    Except CommandError ClassName := do
  let name ← match request.rename with
    | some text => Request.parseClassName text
    | none => pure name
  if request.inflect then
    Request.parseClassName (settings.inflector.generatedName name.text request.options)
  else return name

/-- The passes that are asked for, in the order in which they run. -/
def passes (request : GenerateRequest) (name target : ClassName) :
    Except CommandError (List Pass) := do
  let parent ← request.extension.mapM Request.parseClassName
  let interfaces ← request.interfaces.mapM Request.parseClassName
  return (if target = name then [] else [.rename name target]) ++
    (parent.map (Pass.extend target)).toList ++
    (if interfaces = [] then [] else [.implement target interfaces]) ++
    (if request.publicOnly then [.publicOnly] else []) ++
    (if request.disabled = [] then [] else [.disable request.disabled])

/-- The finished tree and the name of its class. -/
def finish (request : GenerateRequest) (settings : Settings) (blueprint : Blueprint) :
    Except CommandError (ClassName × Tree) := do
  let tree ← blueprint.build.mapError .build
  let target ← request.target settings blueprint.name
  let passes ← request.passes blueprint.name target
  let tree ← ((Pass.traverser passes).traverse tree).1.mapError .pass
  return (target, tree)

/-- Writes a finished class. The directory is made if it is not there, and then stays. -/
def writeClass (settings : Settings) (store : FileStore) (target : ClassName) (tree : Tree) :
    Except CommandError String × FileStore :=
  match store.makeDirectories settings.directory with
  | (.error e, store) => (.error (.makeDirectory e), store)
  | (.ok (), store) =>
    match settings.classDirectory store with
    | .error e => (.error (.directory e), store)
    | .ok directory =>
      match Printer.standard.write directory store tree with
      | (.error e, store) => (.error (.write e), store)
      | (.ok _, store) =>
        (.ok ("Wrote " ++ target.text ++ " to " ++ directory.pathOf target.text), store)

/-- Generates a class: the text to show, and the files afterwards. -/
def run (request : GenerateRequest) (settings : Settings) (store : FileStore) :
    Except CommandError String × FileStore :=
  match (Blueprint.ofFile store request.blueprint).mapError (.blueprint request.blueprint) with
  | .error e => (.error e, store)
  | .ok blueprint =>
    match request.finish settings blueprint with
    | .error e => (.error e, store)
    | .ok (target, tree) =>
      if request.write then writeClass settings store target tree
      else (.ok (Printer.fileText (Printer.standard tree)), store)

end GenerateRequest

namespace Request

/-- Runs a request. -/
def run (request : Request) (settings : Settings) (store : FileStore) :
    Except CommandError String × FileStore :=
  match request with
  | .inflect className options =>
    ((parseClassName className).map fun name =>
      settings.inflector.generatedName name.text options, store)
  | .userName className =>
    ((parseClassName className).map fun name => settings.inflector.userName name.text, store)
  | .generate request => request.run settings store

end Request

/-- Runs a command line: its settings are read first, then its request. -/
def Invocation.run (invocation : Invocation) (store : FileStore) :
    Except CommandError String × FileStore :=
  match (do
    let settings ← Request.settings invocation store
    return (settings, ← Request.ofInvocation invocation) :
      Except CommandError (Settings × Request)) with
  | .error e => (.error e, store)
  | .ok (settings, request) => request.run settings store

end ClassForge
