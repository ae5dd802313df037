import ClassForge.Pass.Scope

/-! # Resolving the class of a tree

The resolver finds the one class of a tree and the one namespace. It stops at a second one of
either.
-/

namespace ClassForge

/-- The path of the namespace and the name of the class that were found. -/
structure Resolver where
  space : Option (List String) := none
  className : Option String := none
deriving DecidableEq, Repr

namespace Resolver

/-- The short name of the class. -/
def name (resolver : Resolver) : Except PassError String :=
  match resolver.className with
  | some name => .ok name
  | none => .error (.unresolved "class")

/-- The namespace as text, empty for a class that is in none. -/
def spaceText (resolver : Resolver) : Except PassError String :=
  match resolver.space, resolver.className with
  | some path, _ => .ok (Segment.join path)
  | none, some _ => .ok ""
  | none, none => .error (.unresolved "namespace")

/-- The full name of the class. -/
def fullName (resolver : Resolver) : Except PassError ClassName := do
  return ⟨resolver.space.getD [], ← resolver.name⟩

/-- What is known after a statement was entered. -/
def enter (resolver : Resolver) : Stmt → Except PassError Resolver
  | .space name _ =>
    if resolver.space.isSome then .error (.ambiguous "multiple nested namespaces discovered")
    else .ok { resolver with space := some (spacePath name) }
  | .classDecl head _ =>
    if resolver.className.isSome then .error (.ambiguous "multiple classes discovered")
    else if head.name = "" then .error .namelessClass
    else .ok { resolver with className := some head.name }
  | _ => .ok resolver

/-- The pass; each run starts anew. -/
def visitor : Visitor Resolver where
  name := "FqcnResolver"
  before _ := do
    set ({} : Resolver)
    return none
  enter stmt := do
    match (← get).enter stmt with
    | .ok resolver => set resolver
    | .error e => throw e
    return none

end Resolver

end ClassForge
