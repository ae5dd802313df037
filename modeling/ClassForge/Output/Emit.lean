import ClassForge.Output.Failure
import ClassForge.Pass.Resolver
import ClassForge.Tree.Source

/-! # What becomes of a finished tree

A tree is rendered, and then written to the file of its class or defined in a registry.
-/

namespace ClassForge

/-- Turns a tree into source text. -/
abbrev Printer := Tree → String

namespace Printer

/-- The printer used unless another one is chosen. -/
def standard : Printer := Tree.source

/-- What is written to the file of a class. -/
def fileText (code : String) : String :=
  openTag ++ "\n\n" ++ code

/-- The full name of the one class of a tree. -/
def classOf (tree : Tree) : Except PassError ClassName :=
  match Resolver.visitor.inspect {} tree with
  | (.ok (), resolver) => resolver.fullName
  | (.error e, _) => .error e

/-- Writes the class of a tree to its file: the source text, and the files afterwards. -/
def write (printer : Printer) (directory : ClassDirectory) (store : FileStore) (tree : Tree) :
    Except Failure String × FileStore :=
  match classOf tree with
  | .error e => (.error (.pass e), store)
  | .ok name =>
    let code := printer tree
    match store.replaceFile (directory.pathOf name.text) (fileText code).toUTF8 with
    | (.error e, store) => (.error (.store e), store)
    | (.ok (), store) => (.ok code, store)

/-- Defines the classes of a tree: the source text, and the registry afterwards. -/
def define (printer : Printer) (registry : Registry) (store : FileStore) (tree : Tree) :
    Except Failure String × Registry :=
  let code := printer tree
  let (result, registry) :=
    if registry.evaluates then registry.evaluate code
    else registry.evaluateThroughFile store code
  ((result.map fun _ => code).mapError .registry, registry)

end Printer

end ClassForge
