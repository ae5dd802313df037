import ClassForge.Tree.Basic

/-! # Visitors of trees

A visitor sees every statement of a tree twice: when the walk enters it, and when the walk leaves
it, with what became of the statements inside. It has a state of its own and may stop the walk;
the state, and what was counted, then stay as they were at that point.

A statement that is substituted on entering is not entered again, but the statements inside of it
are. Substitutions inside of one another are bounded by `substitutionLimit`.
-/

namespace ClassForge

/-- Why a pass stopped. -/
inductive PassError where
  | ambiguous (detail : String)
  | unresolved (what : String)
  | malformed (kind detail : String)
deriving DecidableEq, Repr

def PassError.message : PassError → String
  | .ambiguous detail => "Ambiguous tree: " ++ detail
  | .unresolved what => "Not resolved: no " ++ what ++ " discovered"
  | .malformed kind detail => "Malformed " ++ kind ++ " node: " ++ detail

/-- A step that reads and changes a state and may stop. Changes made before it stops stay. -/
abbrev Step (σ α : Type) := ExceptT PassError (StateM σ) α

namespace Step

/-- Runs a step from a state. -/
def runFrom {σ α : Type} (step : Step σ α) (state : σ) : Except PassError α × σ :=
  (ExceptT.run step).run state

/-- A step given by what it does to the state. -/
def ofFunction {σ α : Type} (f : σ → Except PassError α × σ) : Step σ α :=
  ExceptT.mk (fun state => f state : StateM σ (Except PassError α))

/-- A step on a part of a larger state. -/
def through {σ τ α : Type} (part : τ → σ) (update : σ → τ → τ) (step : Step σ α) : Step τ α :=
  ofFunction fun whole =>
    let (result, state) := step.runFrom (part whole)
    (result, update state whole)

/-- A step on the first of two states. -/
def onFirst {σ τ α : Type} (step : Step σ α) : Step (σ × τ) α :=
  step.through Prod.fst fun state whole => (state, whole.2)

end Step

/-- What becomes of a statement when it is left. -/
inductive Edit where
  | keep
  | replace (stmt : Stmt)
  | splice (stmts : List Stmt)
  | remove

/-- What a pass does at each point of a walk. -/
structure Visitor (σ : Type) where
  name : String
  /-- Sees the tree first, and may put another one in its place. -/
  before : Tree → Step σ (Option Tree) := fun _ => pure none
  /-- Sees a statement before the walk goes inside, and may put another one in its place. -/
  enter : Stmt → Step σ (Option Stmt) := fun _ => pure none
  /-- Sees a statement after the walk was inside, and says what becomes of it. -/
  leave : Stmt → Step σ Edit := fun _ => pure .keep
  /-- Sees the tree last, and may put another one in its place. -/
  after : Tree → Step σ (Option Tree) := fun _ => pure none

/-- What was counted while a visitor was at work. Counts have no bound: no run comes near one that a
machine word could not hold. -/
structure Tally where
  traversals : Nat := 0
  entered : Nat := 0
  replacements : Nat := 0
  removals : Nat := 0
deriving DecidableEq, Repr

namespace Tally

def add (a b : Tally) : Tally :=
  ⟨a.traversals + b.traversals, a.entered + b.entered, a.replacements + b.replacements,
    a.removals + b.removals⟩

/-- Whether anything in the tree was changed. -/
def changed (tally : Tally) : Bool :=
  decide (0 < tally.replacements ∨ 0 < tally.removals)

def traversal : Tally := { traversals := 1 }
def entry : Tally := { entered := 1 }
def replacement : Tally := { replacements := 1 }
def removal : Tally := { removals := 1 }

end Tally

/-- A step of a walk: on the state of a visitor and on what was counted. -/
abbrev Walk (σ α : Type) := Step (σ × Tally) α

namespace Visitor

variable {σ : Type}

/-- Adds to what was counted. -/
def count (tally : Tally) : Walk σ Unit :=
  modify fun (state, total) => (state, total.add tally)

/-- The statements that take the place of one that is left. -/
def depart (visitor : Visitor σ) (stmt : Stmt) : Walk σ (List Stmt) := do
  match ← (visitor.leave stmt).onFirst with
  | .keep => return [stmt]
  | .replace other => count .replacement; return [other]
  | .splice others => count .replacement; return others
  | .remove => count .removal; return []

/-- Enters a statement, goes inside of it or of its substitute, and leaves. -/
def visit (visitor : Visitor σ) (substitute : Stmt → Walk σ Stmt) (stmt : Stmt)
    (inside : Walk σ Stmt) : Walk σ (List Stmt) := do
  count .entry
  match ← (visitor.enter stmt).onFirst with
  | none => visitor.depart (← inside)
  | some other => count .replacement; visitor.depart (← substitute other)

mutual

/-- Walks a statement; `substitute` walks the inside of what was put in its place. -/
def walkStmt (visitor : Visitor σ) (substitute : Stmt → Walk σ Stmt) :
    Stmt → Walk σ (List Stmt)
  | .space name body =>
    visitor.visit substitute (.space name body) do
      return .space name (← walkBody visitor substitute body)
  | .classDecl head body =>
    visitor.visit substitute (.classDecl head body) do
      return .classDecl head (← walkBody visitor substitute body)
  | .method head (some body) =>
    visitor.visit substitute (.method head (some body)) do
      return .method head (some (← walkBody visitor substitute body))
  | stmt => visitor.visit substitute stmt (pure stmt)

/-- Walks statements from left to right. -/
def walkBody (visitor : Visitor σ) (substitute : Stmt → Walk σ Stmt) :
    List Stmt → Walk σ (List Stmt)
  | [] => return []
  | stmt :: rest => do
    let front ← walkStmt visitor substitute stmt
    return front ++ (← walkBody visitor substitute rest)

end

/-- How many substitutions may lie inside of one another. -/
def substitutionLimit : Nat := 10000

/-- Walks the inside of a statement that was put in another's place. -/
def walkSubstitute (visitor : Visitor σ) : (limit : Nat) → Stmt → Walk σ Stmt
  | 0, stmt => throw (.malformed stmt.kind "substitutions do not end")
  | limit + 1, stmt =>
    match stmt with
    | .space name body => do
      return .space name (← walkBody visitor (walkSubstitute visitor limit) body)
    | .classDecl head body => do
      return .classDecl head (← walkBody visitor (walkSubstitute visitor limit) body)
    | .method head (some body) => do
      return .method head (some (← walkBody visitor (walkSubstitute visitor limit) body))
    | stmt => return stmt

/-- Walks a whole tree. -/
def walkTree (visitor : Visitor σ) (tree : Tree) : Walk σ Tree := do
  count .traversal
  let tree := (← (visitor.before tree).onFirst).getD tree
  let tree ← visitor.walkBody (visitor.walkSubstitute substitutionLimit) tree
  return (← (visitor.after tree).onFirst).getD tree

/-- What becomes of a tree, from a state of the visitor and with nothing counted before. -/
def traverse (visitor : Visitor σ) (state : σ) (tree : Tree) :
    Except PassError Tree × σ × Tally :=
  (visitor.walkTree tree).runFrom (state, {})

mutual

/-- Shows a statement and what is inside to a visitor, whose answers change nothing. -/
def inspectStmt (visitor : Visitor σ) : Stmt → Step σ Unit
  | .space name body => do
    discard (visitor.enter (.space name body))
    inspectBody visitor body
    discard (visitor.leave (.space name body))
  | .classDecl head body => do
    discard (visitor.enter (.classDecl head body))
    inspectBody visitor body
    discard (visitor.leave (.classDecl head body))
  | .method head (some body) => do
    discard (visitor.enter (.method head (some body)))
    inspectBody visitor body
    discard (visitor.leave (.method head (some body)))
  | stmt => do
    discard (visitor.enter stmt)
    discard (visitor.leave stmt)

def inspectBody (visitor : Visitor σ) : List Stmt → Step σ Unit
  | [] => return
  | stmt :: rest => do
    inspectStmt visitor stmt
    inspectBody visitor rest

end

/-- Shows a tree to a visitor, whose answers change nothing. -/
def look (visitor : Visitor σ) (tree : Tree) : Step σ Unit := do
  discard (visitor.before tree)
  visitor.inspectBody tree
  discard (visitor.after tree)

/-- Shows a tree to a visitor in a state. -/
def inspect (visitor : Visitor σ) (state : σ) (tree : Tree) : Except PassError Unit × σ :=
  (visitor.look tree).runFrom state

/-- The same visitor with a state that is part of a larger one. -/
def through {τ : Type} (visitor : Visitor σ) (part : τ → σ) (update : σ → τ → τ) : Visitor τ where
  name := visitor.name
  before tree := (visitor.before tree).through part update
  enter stmt := (visitor.enter stmt).through part update
  leave stmt := (visitor.leave stmt).through part update
  after tree := (visitor.after tree).through part update

end Visitor

end ClassForge
