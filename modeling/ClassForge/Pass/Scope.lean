import ClassForge.Name.ClassName
import ClassForge.Pass.Visitor

/-! # The namespace around a statement

Passes that look for a class by its full name keep track of the namespace they are in. Namespaces do
not lie inside of one another.
-/

namespace ClassForge

/-- The path of the namespace that the walk is in, if it is in one. -/
structure Scope where
  current : Option (List String) := none
deriving DecidableEq, Repr

/-- The parts of a namespace's name; the global namespace has none. -/
def spacePath (name : Option SourceName) : List String :=
  (name.map SourceName.parts).getD []

/-- A namespace inside of another one. -/
def PassError.nestedSpaces : PassError :=
  .malformed "namespace" "namespaces cannot be nested"

/-- A class declaration without a name. -/
def PassError.namelessClass : PassError :=
  .malformed "class" "class has no name"

namespace Scope

/-- Notes that a statement is entered; only namespaces matter. -/
def enter (scope : Scope) : Stmt → Except PassError Scope
  | .space name _ => if scope.current.isSome then .error .nestedSpaces else .ok ⟨some (spacePath name)⟩
  | _ => .ok scope

/-- Notes that a statement is left; only namespaces matter. -/
def leave (scope : Scope) : Stmt → Scope
  | .space .. => {}
  | _ => scope

/-- Whether the walk is in a namespace, the global one included. -/
def inSpace (scope : Scope) : Bool :=
  scope.current.isSome

/-- The path of the current namespace, empty outside of all. -/
def path (scope : Scope) : List String :=
  scope.current.getD []

/-- The full name of a class that is declared here. -/
def qualify (scope : Scope) (short : String) : ClassName :=
  ⟨scope.path, short⟩

/-- The full name of a class declaration, which must have a name. -/
def qualifyClass (scope : Scope) (head : ClassHead) : Except PassError ClassName :=
  if head.name = "" then .error .namelessClass else .ok (scope.qualify head.name)

/-- Enters a statement as a step of a walk. A failure leaves the scope as it was. -/
def entering (stmt : Stmt) : Step Scope Unit := do
  match (← get).enter stmt with
  | .ok scope => set scope
  | .error e => throw e

end Scope

end ClassForge
