import ClassForge.Pass.Scope

/-! # Passes on the head of one class

Two passes change what a class says about itself: its parent, or its interfaces. They act on every
class whose full name is the given one.
-/

namespace ClassForge

/-- Changes the head of each class of the given name. -/
def classEditor (name : String) (matched : ClassName) (edit : ClassHead → ClassHead) :
    Visitor Scope where
  name := name
  before _ := do
    set ({} : Scope)
    return none
  enter stmt := do
    Scope.entering stmt
    return none
  leave stmt := do
    let scope := (← get).leave stmt
    set scope
    match stmt with
    | .classDecl head body =>
      let found ← scope.qualifyClass head
      return if found = matched then .replace (.classDecl (edit head) body) else .keep
    | _ => return .keep

/-- Gives a class another parent, named from the root. -/
def classExtension (matched parent : ClassName) : Visitor Scope :=
  classEditor "ClassExtension" matched fun head =>
    { head with parent := some parent.toSourceName.toAbsolute }

/-- Gives a class other interfaces, in order. -/
def classImplementor (matched : ClassName) (interfaces : List ClassName) : Visitor Scope :=
  classEditor "ClassImplementor" matched fun head =>
    { head with interfaces := interfaces.map ClassName.toSourceName }

end ClassForge
