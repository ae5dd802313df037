import ClassForge.Proofs.Pass.Calls
import ClassForge.Proofs.Tree.Statements

/-! # The order of calls in a walk

A visitor that substitutes nothing on entering is led through the tree as it was given, whatever it makes of statements
on leaving. Every statement is entered once, then those inside are walked, then it is left once, with what became of
them inside, and then the next statement follows. What takes a statement's place is never entered.
-/

namespace ClassForge

/-- The statement with other statements inside, if it has a body. -/
def Stmt.refilled (body : List Stmt) (stmt : Stmt) : Stmt :=
  if stmt.hasBody then stmt.withBody body else stmt

namespace Call

/-- The statement that is entered. -/
def entered? : Call → Option Stmt
  | .enter stmt _ => some stmt
  | _ => none

def isLeave : Call → Bool
  | .leave .. => true
  | _ => false

/-- Whether the answer on leaving puts one or several statements in the place of what was left. -/
def replaces : Call → Bool
  | .leave _ (.ok (.replace _)) => true
  | .leave _ (.ok (.splice _)) => true
  | _ => false

/-- Whether the answer on leaving removes what was left. -/
def removes : Call → Bool
  | .leave _ (.ok .remove) => true
  | _ => false

end Call

/-- The calls of a walk over statements side by side, with what the call on leaving answered for each of them. A
statement is entered as it was given and nothing is put in its place; the calls for those inside follow; then it is
left, with what was answered for those inside in their place and in their order; then come the calls for the statements
behind it. -/
inductive Orderly : List Stmt → List Call → List (List Stmt) → Prop
  | nil : Orderly [] [] []
  | cons {stmt : Stmt} {rest : List Stmt} {inside calls : List Call} {answers others : List (List Stmt)} {edit : Edit}
      (within : Orderly (stmt.body?.getD []) inside answers) (later : Orderly rest calls others) :
      Orderly (stmt :: rest)
        (.enter stmt (.ok none) :: (inside ++ .leave (stmt.refilled answers.flatten) (.ok edit) :: calls))
        (edit.result (stmt.refilled answers.flatten) :: others)

namespace Orderly

variable {body : List Stmt} {calls : List Call} {answers : List (List Stmt)}

/-- The statements of the tree are entered in the order of the source, and no others. -/
theorem filterMap_entered? (orderly : Orderly body calls answers) :
    calls.filterMap Call.entered? = Tree.statements body := by
  induction orderly with
  | nil => rfl
  | cons _ _ within later =>
    rw [Tree.statements_cons, ← within, ← later, List.filterMap_cons, List.filterMap_append, List.filterMap_cons]
    rfl

/-- Every statement is left once. -/
theorem countP_isLeave (orderly : Orderly body calls answers) :
    calls.countP Call.isLeave = (Tree.statements body).length := by
  induction orderly with
  | nil => rfl
  | cons _ _ within later =>
    rw [Tree.statements_cons, List.length_cons, List.length_append, ← within, ← later, List.countP_cons,
      List.countP_append, List.countP_cons]
    simp only [Call.isLeave, Bool.false_eq_true, if_false, if_true]
    omega

/-- What is counted for the calls. -/
theorem total_eq (orderly : Orderly body calls answers) :
    Call.total calls =
      { entered := (Tree.statements body).length, replacements := calls.countP Call.replaces,
        removals := calls.countP Call.removes } := by
  induction orderly with
  | nil => rfl
  | @cons stmt rest inside calls answers _ edit _ _ within later =>
    have split : Call.total (.enter stmt (.ok none) ::
        (inside ++ .leave (stmt.refilled answers.flatten) (.ok edit) :: calls)) =
        Tally.entry.add ((Call.total inside).add (edit.tally.add (Call.total calls))) :=
      congrArg Tally.entry.add (Call.total_append _ _)
    rw [split, within, later, Tree.statements_cons]
    simp only [List.countP_cons, List.countP_append, List.length_cons, List.length_append]
    cases edit <;>
      simp only [Tally.add, Tally.entry, Edit.tally, Tally.replacement, Tally.removal, Call.replaces, Call.removes,
        Tally.mk.injEq, Bool.false_eq_true, if_false, if_true, true_and] <;>
      omega

end Orderly

namespace Visitor

open Step

variable {σ : Type} {visitor : Visitor σ} {substitute : Stmt → Walk (σ × List Call) Stmt}

/-- Between two points of a run, the calls of a walk over these statements were noted. -/
private def Noted (body : List Stmt) (answers : List (List Stmt)) (start finish : (σ × List Call) × Tally) : Prop :=
  ∃ calls, finish.1.2 = start.1.2 ++ calls ∧ Orderly body calls answers

/-- What a successful walk has noted, and what it has made of the statements. -/
private def WalksOrderly (visitor : Visitor σ) (substitute : Stmt → Walk (σ × List Call) Stmt) (body : List Stmt) :
    Prop :=
  ∀ start result finish, (visitor.noting.walkBody substitute body).runFrom start = (.ok result, finish) →
    ∃ answers, result = answers.flatten ∧ Noted body answers start finish

private theorem exists_of_walkInside {stmt shown : Stmt} {start finish : (σ × List Call) × Tally}
    (within : WalksOrderly visitor substitute (stmt.body?.getD []))
    (walked : (visitor.noting.walkInside substitute stmt).runFrom start = (.ok shown, finish)) :
    ∃ answers, shown = stmt.refilled answers.flatten ∧ Noted (stmt.body?.getD []) answers start finish := by
  cases holds : stmt.body? with
  | none =>
    rw [walkInside_leaf holds, runFrom_pure] at walked
    cases walked
    refine ⟨[], ?_, [], (List.append_nil _).symm, .nil⟩
    rw [Stmt.refilled, Stmt.hasBody, holds]
    rfl
  | some body =>
    rw [holds] at within
    rw [walkInside_node holds] at walked
    obtain ⟨made, middle, inner, done⟩ := runFrom_bind_eq_ok walked
    rw [runFrom_pure] at done
    cases done
    obtain ⟨answers, rfl, noted⟩ := within start made finish inner
    refine ⟨answers, ?_, noted⟩
    rw [Stmt.refilled, Stmt.hasBody, holds]
    rfl

section Steady

variable (steady : ∀ stmt state other, ((visitor.enter stmt).runFrom state).1 ≠ .ok (some other))
include steady

/-- One statement: it is entered and left, and the calls for those inside lie between. -/
private theorem exists_of_walkStmt {stmt : Stmt} {front : List Stmt} {start finish : (σ × List Call) × Tally}
    (within : WalksOrderly visitor substitute (stmt.body?.getD []))
    (walked : (visitor.noting.walkStmt substitute stmt).runFrom start = (.ok front, finish)) :
    ∃ inside answers edit, Orderly (stmt.body?.getD []) inside answers ∧
      front = Edit.result (stmt.refilled answers.flatten) edit ∧
      finish.1.2 = start.1.2 ++ .enter stmt (.ok none) ::
        (inside ++ [.leave (stmt.refilled answers.flatten) (.ok edit)]) := by
  obtain ⟨⟨state, log⟩, tally⟩ := start
  rw [walkStmt_eq, runFrom_visit_eq] at walked
  rcases entered : (visitor.enter stmt).runFrom state with ⟨cause | _ | other, next⟩ <;>
    rw [runFrom_noting_enter entered] at walked
  · cases walked
  · obtain ⟨shown, middle, inner, departed⟩ := runFrom_bind_eq_ok walked
    obtain ⟨answers, rfl, inside, logged, orderly⟩ := exists_of_walkInside within inner
    obtain ⟨⟨state', log'⟩, tally'⟩ := middle
    obtain rfl : log' = _ := logged
    rw [runFrom_depart] at departed
    rcases left : (visitor.leave (stmt.refilled answers.flatten)).runFrom state' with ⟨cause | edit, after⟩ <;>
      rw [runFrom_noting_leave left] at departed
    · cases departed
    · cases departed
      refine ⟨inside, answers, edit, orderly, rfl, ?_⟩
      simp only [List.append_assoc, List.cons_append, List.nil_append]
  · -- a substitute would be walked in its place, but there is none
    exact absurd (congrArg Prod.fst entered) (steady stmt state other)

/-- All statements of a body, one after the other. -/
private theorem walksOrderly (body : List Stmt) : WalksOrderly visitor substitute body := by
  induction body using Tree.induction_inside with
  | nil =>
    intro start result finish walked
    cases walked
    exact ⟨[], rfl, [], (List.append_nil _).symm, .nil⟩
  | cons stmt rest within later =>
    intro start result finish walked
    rw [walkBody] at walked
    obtain ⟨front, middle, first, walked⟩ := runFrom_bind_eq_ok walked
    obtain ⟨back, last, second, done⟩ := runFrom_bind_eq_ok walked
    rw [runFrom_pure] at done
    cases done
    obtain ⟨inside, answers, edit, orderly, rfl, logged⟩ := exists_of_walkStmt steady within first
    obtain ⟨others, rfl, calls, logged', orderly'⟩ := later middle back finish second
    refine ⟨Edit.result (stmt.refilled answers.flatten) edit :: others, rfl, _, ?_, .cons orderly orderly'⟩
    rw [logged', logged]
    simp only [List.append_assoc, List.cons_append, List.nil_append]

/-- The calls of a whole run, if no other tree is put in the place of the given one. -/
private theorem exists_calls {state : σ} {tree result : Tree}
    (plain : ∀ tree state other, ((visitor.before tree).runFrom state).1 ≠ .ok (some other))
    (success : (visitor.traverse state tree).1 = .ok result) :
    ∃ calls answers last,
      visitor.calls state tree = .before tree (.ok none) :: (calls ++ [.after answers.flatten (.ok last)]) ∧
      result = last.getD answers.flatten ∧ Orderly tree calls answers := by
  have noted := traverse_noting visitor state tree
  rw [success, traverse_eq, walkCounted] at noted
  obtain ⟨given, middle, shown, noted⟩ := runFrom_bind_eq_ok noted
  rcases asked : (visitor.before tree).runFrom state with ⟨cause | _ | other, next⟩ <;>
    cases (runFrom_onFirst (runFrom_noted asked (.before tree) []) Tally.traversal).symm.trans shown
  · obtain ⟨walked, inner, first, noted⟩ := runFrom_bind_eq_ok noted
    obtain ⟨answers, rfl, calls, logged, orderly⟩ := walksOrderly steady tree _ _ _ first
    obtain ⟨last, outer, second, done⟩ := runFrom_bind_eq_ok noted
    obtain ⟨⟨state', log⟩, tally⟩ := inner
    obtain rfl : log = _ := logged
    rcases told : (visitor.after answers.flatten).runFrom state' with ⟨cause | _, finish⟩ <;>
      cases (runFrom_onFirst (runFrom_noted told (.after _) _) tally).symm.trans second
    rw [runFrom_pure] at done
    simp only [Prod.mk.injEq, Except.ok.injEq] at done
    refine ⟨calls, answers, last, ?_, done.1.symm, orderly⟩
    rw [← done.2.1.2, List.nil_append, List.append_assoc, List.singleton_append]
  · exact absurd (congrArg Prod.fst asked) (plain tree state other)

end Steady

/-- A visitor that substitutes nothing on entering is led through the tree as it was given. On success, its calls are
those of an orderly walk, between one for the whole tree as it was and one for what became of it. So it enters exactly
the statements of the tree, in the order of the source, and leaves each of them once. What is counted is how many
statements the tree has, and how many answers replace and remove one. -/
theorem orderly_of_traverse (visitor : Visitor σ) (state : σ) (tree result : Tree)
    (steady : ∀ stmt state other, ((visitor.enter stmt).runFrom state).1 ≠ .ok (some other))
    (plain : ∀ tree state other, ((visitor.before tree).runFrom state).1 ≠ .ok (some other))
    (success : (visitor.traverse state tree).1 = .ok result) :
    ∃ calls answers last,
      visitor.calls state tree = .before tree (.ok none) :: (calls ++ [.after answers.flatten (.ok last)]) ∧
      result = last.getD answers.flatten ∧ Orderly tree calls answers ∧
      calls.filterMap Call.entered? = tree.statements ∧
      calls.countP Call.isLeave = tree.statements.length ∧
      (visitor.traverse state tree).2.2 =
        { traversals := 1, entered := tree.statements.length, replacements := calls.countP Call.replaces,
          removals := calls.countP Call.removes } := by
  obtain ⟨calls, answers, last, logged, same, orderly⟩ := exists_calls steady plain success
  -- the order of the calls settles all but the count, which every run owes to its calls
  refine ⟨calls, answers, last, logged, same, orderly, orderly.filterMap_entered?, orderly.countP_isLeave, ?_⟩
  have counted : Call.total (visitor.calls state tree) = Call.total calls := by
    rw [logged]
    change Tally.add {} (Call.total (calls ++ [.after answers.flatten (.ok last)])) = _
    rw [Tally.empty_add, Call.total_append]
    exact Tally.add_empty _
  rw [tally_traverse, counted, orderly.total_eq]
  simp only [Tally.add, Tally.traversal, Nat.zero_add, Nat.add_zero]

/-- Removes the first statement that it leaves, doubles the second and puts the third in a namespace. -/
def byTurns : Visitor Nat where
  name := "by turns"
  leave stmt := Step.ofFunction fun turn =>
    let edit := match turn with
      | 0 => .remove
      | 1 => .splice [stmt, stmt]
      | 2 => .replace (.space none [stmt])
      | _ => .keep
    (.ok edit, turn + 1)

/-- Two classes, the first one with an announced method and with a class in the body of another method. -/
def draftTree : Tree :=
  [.classDecl { name := "User" } [
      .method { name := "id", isAbstract := true } none,
      .method { name := "make" } (some [.classDecl { name := "Helper" } []])],
    .classDecl { name := "Account" } []]

theorem orderly_of_traverse_byTurns :
    (byTurns.traverse 0 draftTree).1 =
      .ok [.classDecl { name := "User" } [
          .space none [.method { name := "make" } (some [
            .classDecl { name := "Helper" } [], .classDecl { name := "Helper" } []])]],
        .classDecl { name := "Account" } []] ∧
      ∃ calls answers, Orderly draftTree calls answers ∧
        calls.filterMap Call.entered? = draftTree.statements ∧ draftTree.statements.length = 5 ∧
        calls.countP Call.replaces = 2 ∧ calls.countP Call.removes = 1 := by
  refine ⟨rfl, ?_⟩
  obtain ⟨calls, answers, last, -, -, orderly, entered, -, counted⟩ :=
    orderly_of_traverse byTurns 0 draftTree _ (fun _ _ _ => nofun) (fun _ _ _ => nofun) rfl
  exact ⟨calls, answers, orderly, entered, rfl, (congrArg Tally.replacements counted).symm,
    (congrArg Tally.removals counted).symm⟩

end Visitor

end ClassForge
