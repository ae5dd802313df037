import ClassForge.Pass.Visitor
import ClassForge.Name.ClassName

/-! # Disabling and dropping methods

A judge looks at each method. A disabled method keeps its signature, is no longer abstract, and has
a body that throws; a dropped one is gone.
-/

namespace ClassForge

/-- What is to become of a method. -/
inductive Verdict where
  | skip
  | disable
  | drop
deriving DecidableEq, Repr

/-- The class of what disabled methods throw. -/
def disabledException : String := "BadMethodCallException"

/-- What disabled methods say when they throw. -/
def disabledMessage : String := "Method is disabled"

/-- The body of disabled methods. -/
def disabledBody : List Stmt :=
  [.throw (.new (ClassName.mk [] disabledException).toSourceName.toAbsolute
    [.literal (.str disabledMessage)])]

/-- Looks at a method, given by its head and body. -/
abbrev Judge (σ : Type) := MethodHead → Option (List Stmt) → StateM σ Verdict

namespace Verdict

/-- What a verdict does to a method. -/
def edit (head : MethodHead) : Verdict → Edit
  | .skip => .keep
  | .drop => .remove
  | .disable => .replace (.method { head with isAbstract := false } (some disabledBody))

/-- The pass that asks a judge about every method. -/
def visitor {σ : Type} (judge : Judge σ) : Visitor σ where
  name := "MethodDisabler"
  leave
    | .method head body => do
      let verdict ← (judge head body : StateM σ Verdict)
      return verdict.edit head
    | _ => return .keep

end Verdict

/-- Drops every method that is not public. -/
def judgePublic : Judge Unit := fun head _ =>
  return if head.visibility = .pub then .skip else .drop

/-- The letters A to Z in lower case. -/
def lowerAscii (text : String) : String :=
  String.ofList (text.toList.map Char.toLower)

/-- Disables the methods of the given names, whatever the case of their ASCII letters. -/
def judgeNames (names : List String) : Judge Unit := fun head _ =>
  return if (names.map lowerAscii).contains (lowerAscii head.name) then .disable else .skip

end ClassForge
