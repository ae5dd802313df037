import ClassForge.Pass.Scope

/-! # Renaming a class

The tree follows the new name: a namespace around the class is renamed, or dropped for a global
name; a global class gets a namespace if its new name has one. The class must be the only one of its
namespace, and is all that stays there.
-/

namespace ClassForge

/-- Where the renamer is, and whether it renamed a class of the current namespace. -/
structure Renaming where
  scope : Scope := {}
  inSpace : Bool := false
deriving DecidableEq, Repr

namespace Renaming

/-- Two classes share the namespace of a renamed one. -/
def crowded (matched : ClassName) (count : Nat) : PassError :=
  .ambiguous ("cannot rename " ++ matched.text ++ ": its namespace declares " ++ toString count ++
    " classes")

/-- What becomes of the namespace of a renamed class. -/
def moveSpace (matched target : ClassName) (body : List Stmt) : Except PassError Edit :=
  let classes := body.filter Stmt.isClass
  if 1 < classes.length then .error (crowded matched classes.length)
  else
    match target.pathName? with
    | some path => .ok (.replace (.space (some path) classes))
    | none => .ok (.splice classes)

/-- What becomes of a renamed class that is in no namespace. -/
def moveClass (target : ClassName) (stmt : Stmt) : Edit :=
  match target.pathName? with
  | some path => .replace (.space (some path) [stmt])
  | none => .replace stmt

/-- The pass that renames a class. -/
def visitor (matched target : ClassName) : Visitor Renaming where
  name := "ClassRenamer"
  before _ := do
    set ({} : Renaming)
    return none
  enter stmt := do
    let state ← get
    let scope ← state.scope.enter stmt
    set { state with scope }
    return none
  leave stmt := do
    let state ← get
    match stmt with
    | .classDecl head body =>
      let found ← state.scope.qualifyClass head
      if found ≠ matched then return .keep
      else
        let renamed := Stmt.classDecl { head with name := target.short } body
        if state.scope.inSpace then
          set { state with inSpace := true }
          return .replace renamed
        else return moveClass target renamed
    | .space _ body =>
      set ({} : Renaming)
      if state.inSpace then moveSpace matched target body else return .keep
    | _ => return .keep

end Renaming

end ClassForge
