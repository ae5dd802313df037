import ClassForge.Pass.Visitor

/-! # Several visitors in a row

A traverser runs its visitors one after the other, each over the tree that the one before it left.
Every visitor keeps its own state from run to run. What was counted is kept under each visitor's
name.
-/

namespace ClassForge

/-- A visitor with its state. -/
structure Enlisted (σ : Type) where
  visitor : Visitor σ
  state : σ

/-- What was counted under each name. -/
abbrev Tallies := List (String × Tally)

namespace Tallies

/-- Adds to what was counted under a name, which is put last if it is new. -/
def add (name : String) (tally : Tally) : Tallies → Tallies
  | [] => [(name, tally)]
  | (other, total) :: rest =>
    if other = name then (other, total.add tally) :: rest else (other, total) :: add name tally rest

/-- What was counted under a name. -/
def total (tallies : Tallies) (name : String) : Tally :=
  (tallies.lookup name).getD {}

/-- The same names with nothing counted. -/
def clear (tallies : Tallies) : Tallies :=
  tallies.map fun (name, _) => (name, {})

end Tallies

/-- Visitors in the order in which they run, and what was counted. -/
structure Traverser (σ : Type) where
  visitors : List (Enlisted σ) := []
  tallies : Tallies := []

namespace Traverser

variable {σ : Type}

/-- Adds a visitor behind the others. -/
def add (traverser : Traverser σ) (visitor : Visitor σ) (state : σ) : Traverser σ :=
  ⟨traverser.visitors ++ [⟨visitor, state⟩], traverser.tallies.add visitor.name {}⟩

/-- Runs visitors one after the other, up to the first that fails. -/
def runAll : List (Enlisted σ) → Tallies → Tree → Except PassError Tree × Traverser σ
  | [], tallies, tree => (.ok tree, ⟨[], tallies⟩)
  | ⟨visitor, state⟩ :: rest, tallies, tree =>
    match visitor.traverse state tree with
    | (.ok tree, state, tally) =>
      let (result, after) := runAll rest (tallies.add visitor.name tally) tree
      (result, ⟨⟨visitor, state⟩ :: after.visitors, after.tallies⟩)
    | (.error e, state, tally) =>
      (.error e, ⟨⟨visitor, state⟩ :: rest, tallies.add visitor.name tally⟩)

/-- What becomes of a tree when all visitors were there. -/
def traverse (traverser : Traverser σ) (tree : Tree) : Except PassError Tree × Traverser σ :=
  runAll traverser.visitors traverser.tallies tree

/-- Forgets what was counted. -/
def clearTallies (traverser : Traverser σ) : Traverser σ :=
  { traverser with tallies := traverser.tallies.clear }

end Traverser

end ClassForge
