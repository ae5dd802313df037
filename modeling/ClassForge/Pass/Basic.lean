import ClassForge.Pass.ClassEdit
import ClassForge.Pass.Methods
import ClassForge.Pass.Renamer
import ClassForge.Pass.Resolver
import ClassForge.Pass.Traverser

/-! # The passes of this library

A `Pass` names one of the passes and what it acts on. All passes work on one type of state, so that
they can run in one traverser.
-/

namespace ClassForge

/-- A pass over a tree. -/
inductive Pass where
  | resolve
  | rename (matched target : ClassName)
  | extend (matched parent : ClassName)
  | implement (matched : ClassName) (interfaces : List ClassName)
  | publicOnly
  | disable (methods : List String)
deriving DecidableEq, Repr

/-- What passes keep during a walk. -/
structure PassState where
  scope : Scope := {}
  renamer : Renaming := {}
  resolver : Resolver := {}
deriving DecidableEq, Repr

namespace Pass

/-- A visitor that keeps track of the namespace. -/
def onScope (visitor : Visitor Scope) : Visitor PassState :=
  visitor.through PassState.scope fun scope state => { state with scope }

/-- A visitor that keeps nothing. -/
def stateless (visitor : Visitor Unit) : Visitor PassState :=
  visitor.through (fun _ => ()) fun _ state => state

/-- What a pass does. -/
def visitor : Pass → Visitor PassState
  | .resolve =>
    Resolver.visitor.through PassState.resolver fun resolver state => { state with resolver }
  | .rename matched target =>
    (Renaming.visitor matched target).through PassState.renamer fun renamer state =>
      { state with renamer }
  | .extend matched parent => onScope (classExtension matched parent)
  | .implement matched interfaces => onScope (classImplementor matched interfaces)
  | .publicOnly => stateless (Verdict.visitor judgePublic)
  | .disable methods => stateless (Verdict.visitor (judgeNames methods))

/-- Runs a pass by itself. -/
def run (pass : Pass) (tree : Tree) : Except PassError Tree :=
  (pass.visitor.traverse {} tree).1

/-- A traverser of passes in the given order. -/
def traverser (passes : List Pass) : Traverser PassState :=
  passes.foldl (fun traverser pass => traverser.add pass.visitor {}) {}

end Pass

end ClassForge
