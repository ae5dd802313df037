import ClassForge.Pass.Resolver
import ClassForge.Proofs.Outcome
import ClassForge.Proofs.Pass.HeadEdits
import Mathlib.Data.List.Basic

/-! # What the resolver finds

The resolver sees the statements of a tree in the order of the source and ignores where they end. It accepts
exactly the trees with one namespace and one class at most, whose class has a name, and takes that namespace
for the namespace of that class. The passes on heads go by the namespace that a class is in. So they find the
class under its resolved name, unless it stands outside of the namespace.
-/

namespace ClassForge

private theorem discard_keep {σ : Type} : discard (pure .keep : Step σ Edit) = pure () :=
  rfl

/-- A visitor that does nothing on leaving is shown all statements in the order of the source. -/
theorem Visitor.inspectBody_eq_forM {σ : Type} {visitor : Visitor σ} (idle : ∀ stmt, visitor.leave stmt = pure .keep)
    (body : List Stmt) :
    visitor.inspectBody body = (Tree.statements body).forM fun stmt => discard (visitor.enter stmt) := by
  induction body using Tree.induction_inside with
  | nil => rfl
  | cons stmt rest within later =>
    rw [inspectBody, inspectStmt_eq, idle, within, later, discard_keep, Tree.statements_cons]
    simp [List.forM_append]

namespace Resolver

variable {state next after : Resolver}

/-- One more value for a slot that holds one at most. -/
private theorem toList_eq_append_some {α : Type} {before after : Option α} {value : α} :
    after.toList = before.toList ++ [value] ↔ before = none ∧ after = some value := by
  cases before <;> cases after <;> simp

private theorem toList_inj {α : Type} {a b : Option α} : a.toList = b.toList ↔ a = b := by
  cases a <;> cases b <;> simp

/-- What may be entered, and what is known then: each slot takes one value. -/
theorem enter_eq_ok_iff {stmt : Stmt} :
    state.enter stmt = .ok next ↔
      next.space.toList = state.space.toList ++ stmt.spacePath?.toList ∧
        next.className.toList = state.className.toList ++ stmt.className?.toList ∧ stmt.className? ≠ some "" := by
  obtain ⟨space, className⟩ := state
  obtain ⟨space', className'⟩ := next
  cases stmt with
  | space name body =>
    simp only [Stmt.spacePath?, Stmt.className?, Option.toList_some, Option.toList_none, List.append_nil,
      toList_eq_append_some, toList_inj]
    cases space <;> simp [enter, eq_comm]
  | classDecl head body =>
    simp only [Stmt.spacePath?, Stmt.className?, Option.toList_some, Option.toList_none, List.append_nil,
      toList_eq_append_some, toList_inj]
    cases className with
    | none => by_cases empty : head.name = "" <;> simp [enter, empty, eq_comm]
    | some => simp [enter]
  | method | property | constant | throw | expr =>
    simp [enter, Stmt.spacePath?, Stmt.className?, toList_inj, eq_comm]

/-- A slot with room for all has room for the first. -/
private theorem exists_toList {α : Type} {slot : Option α} {front back : List α} (all : slot.toList = front ++ back) :
    ∃ first : Option α, first.toList = front := by
  cases front with
  | nil => exact ⟨none, rfl⟩
  | cons value rest =>
    cases slot with
    | none => cases all
    | some =>
      obtain ⟨-, nothing⟩ := List.cons.inj all
      rw [(List.append_eq_nil_iff.mp nothing.symm).1]
      exact ⟨some value, rfl⟩

section Run

variable {stmt : Stmt}

private theorem runFrom_get : (get : Step Resolver Resolver).runFrom state = (.ok state, state) :=
  rfl

/-- The pass enters a statement as the resolver does, and puts none in its place. -/
theorem runFrom_visitor_enter (state : Resolver) (stmt : Stmt) :
    (visitor.enter stmt).runFrom state =
      match state.enter stmt with
      | .error cause => (.error cause, state)
      | .ok next => (.ok none, next) := by
  rw [visitor, Step.runFrom_bind runFrom_get]
  cases state.enter stmt <;> rfl

theorem runFrom_enter (entered : state.enter stmt = .ok next) :
    (discard (visitor.enter stmt)).runFrom state = (.ok (), next) := by
  have run := runFrom_visitor_enter state stmt
  rw [entered] at run
  exact Step.runFrom_discard run

theorem runFrom_enter_error {cause : PassError} (refused : state.enter stmt = .error cause) :
    (discard (visitor.enter stmt)).runFrom state = (.error cause, state) := by
  have run := runFrom_visitor_enter state stmt
  rw [refused] at run
  exact Step.runFrom_bind_error run _

/-- All statements can be entered one after the other if the slots have room for what they bring. -/
theorem runFrom_forM_eq_ok_iff {stmts : List Stmt} :
    (stmts.forM fun stmt => discard (visitor.enter stmt)).runFrom state = (.ok (), after) ↔
      after.space.toList = state.space.toList ++ stmts.filterMap Stmt.spacePath? ∧
        after.className.toList = state.className.toList ++ stmts.filterMap Stmt.className? ∧
        "" ∉ stmts.filterMap Stmt.className? := by
  simp only [List.filterMap_eq_flatMap_toList]
  induction stmts generalizing state with
  | nil =>
    obtain ⟨space, className⟩ := state
    obtain ⟨space', className'⟩ := after
    simp [toList_inj, eq_comm]
  | cons stmt rest ih =>
    simp only [List.flatMap_cons, List.forM_eq_forM, List.forM_cons, List.mem_append, not_or] at ih ⊢
    constructor
    · intro run
      cases entered : state.enter stmt with
      | error cause =>
        rw [Step.runFrom_bind_error (runFrom_enter_error entered)] at run
        cases run
      | ok next =>
        rw [Step.runFrom_bind (runFrom_enter entered), ih] at run
        obtain ⟨spaces, classes, named⟩ := enter_eq_ok_iff.mp entered
        rw [spaces, classes, List.append_assoc, List.append_assoc] at run
        refine ⟨run.1, run.2.1, fun empty => named ?_, run.2.2⟩
        exact Option.mem_toList.mp empty
    · rintro ⟨spaces, classes, named, later⟩
      rw [← List.append_assoc] at spaces classes
      obtain ⟨space, hasSpace⟩ := exists_toList spaces
      obtain ⟨className, hasClass⟩ := exists_toList classes
      have entered : state.enter stmt = .ok ⟨space, className⟩ :=
        enter_eq_ok_iff.mpr ⟨hasSpace, hasClass, fun empty => named (Option.mem_toList.mpr empty)⟩
      rw [Step.runFrom_bind (runFrom_enter entered), ih, hasSpace, hasClass]
      exact ⟨spaces, classes, later⟩

end Run

/-- Each run starts anew, and shows all statements in the order of the source. -/
theorem inspect_eq_forM (start : Resolver) (tree : Tree) :
    visitor.inspect start tree = (tree.statements.forM fun stmt => discard (visitor.enter stmt)).runFrom {} := by
  have reset : (discard (visitor.before tree)).runFrom start = (.ok (), {}) := rfl
  have last : visitor.look tree = (do discard (visitor.before tree); visitor.inspectBody tree) := by
    rw [Visitor.look]
    exact congrArg _ (funext fun _ => bind_pure_unit)
  rw [Visitor.inspect, last, Step.runFrom_bind reset, Visitor.inspectBody_eq_forM fun _ => rfl]

/-- The resolver accepts exactly the trees with one namespace and one class at most, whose class has a name; these
are what it finds, whatever it knew before. -/
theorem inspect_eq_ok_iff {start resolver : Resolver} {tree : Tree} :
    visitor.inspect start tree = (.ok (), resolver) ↔
      tree.spacePaths = resolver.space.toList ∧ tree.headNames = resolver.className.toList ∧
        "" ∉ tree.headNames := by
  rw [inspect_eq_forM, runFrom_forM_eq_ok_iff]
  exact ⟨fun ⟨spaces, classes, named⟩ => ⟨spaces.symm, classes.symm, named⟩,
    fun ⟨spaces, classes, named⟩ => ⟨spaces.symm, classes.symm, named⟩⟩

theorem fullName_eq_ok_iff {resolver : Resolver} {name : ClassName} :
    resolver.fullName = .ok name ↔ resolver.className = some name.short ∧ resolver.space.getD [] = name.path := by
  obtain ⟨space, className⟩ := resolver
  obtain ⟨path, short⟩ := name
  cases className with
  | none => simp [fullName, Resolver.name]
  | some found => simp [fullName, Resolver.name, and_comm, pure, Except.pure]

/-! ## The resolver and the passes on heads -/

section Found

variable {start resolver : Resolver} {tree : Tree} {name : ClassName}
  (resolved : visitor.inspect start tree = (.ok (), resolver)) (full : resolver.fullName = .ok name)
include resolved full

/-- The class that was found is the only one. It is in the namespace of its resolved name or in none. -/
theorem exists_classNames :
    ∃ found, tree.classNames = [found] ∧ found.short = name.short ∧ (found.path = [] ∨ found.path = name.path) := by
  obtain ⟨spaces, classes, -⟩ := inspect_eq_ok_iff.mp resolved
  obtain ⟨className, path⟩ := fullName_eq_ok_iff.mp full
  have shorts : tree.classNames.map ClassName.short = [name.short] := by
    rw [Tree.classNames, Tree.map_short_classNamesIn, classes, className]
    rfl
  obtain ⟨found, single, short⟩ := List.map_eq_singleton_iff.mp shorts
  refine ⟨found, single, short, ?_⟩
  have member : found ∈ tree.classNames := single ▸ List.mem_singleton_self found
  refine (Tree.path_of_mem_classNamesIn member).imp_right fun inside => ?_
  rw [spaces, Option.mem_toList] at inside
  rw [← path, inside, Option.getD_some]

/-- A class under another name than the resolved one stands outside of the namespace that the resolver took for
its own. -/
theorem ne_resolved_iff {found : ClassName} (single : tree.classNames = [found]) :
    found ≠ name ↔ found.path = [] ∧ name.path ≠ [] ∧ tree.spacePaths = [name.path] := by
  obtain ⟨spaces, -, -⟩ := inspect_eq_ok_iff.mp resolved
  obtain ⟨-, path⟩ := fullName_eq_ok_iff.mp full
  obtain ⟨other, same, short, place⟩ := exists_classNames resolved full
  obtain rfl := List.singleton_inj.mp (single.symm.trans same)
  constructor
  · intro apart
    have elsewhere : found.path ≠ name.path := by
      intro same
      apply apart
      calc
        found = ⟨found.path, found.short⟩ := rfl
        _ = ⟨name.path, name.short⟩ := by rw [same, short]
        _ = name := rfl
    have outside := place.resolve_right elsewhere
    have named : name.path ≠ [] := fun global => elsewhere (outside.trans global.symm)
    refine ⟨outside, named, ?_⟩
    cases space : resolver.space with
    | none => exact absurd (by rw [← path, space]; rfl) named
    | some inner => rw [spaces, ← path, space]; rfl
  · rintro ⟨outside, named, -⟩ rfl
    exact named outside

/-- A class that was resolved is given another parent under its resolved name, by one replacement, exactly if it
does not stand outside of the named namespace of its tree. Otherwise nothing changes. The pass never fails. -/
theorem traverse_classExtension (parent : ClassName) (scope : Scope) :
    ∃ found tally, tree.classNames = [found] ∧ found.short = name.short ∧
      (classExtension name parent).traverse scope tree =
        (.ok (if found = name then
            tree.mapHeads fun _ head => { head with parent := some parent.toSourceName.toAbsolute }
          else tree), {}, tally) ∧
      tally.replacements = (if found = name then 1 else 0) ∧ tally.removals = 0 ∧
      (found ≠ name ↔ found.path = [] ∧ name.path ≠ [] ∧ tree.spacePaths = [name.path]) := by
  obtain ⟨spaces, -, named⟩ := inspect_eq_ok_iff.mp resolved
  obtain ⟨found, single, short, -⟩ := exists_classNames resolved full
  have room : tree.spacePaths.length ≤ 1 := by
    rw [spaces]
    cases resolver.space <;> simp
  have flat : tree.isFlat = true := Tree.isFlatIn_of_length_le room
  refine ⟨found, { traversals := 1, entered := tree.statements.length, replacements := tree.classNames.count name },
    single, short, ?_, ?_, rfl, ne_resolved_iff resolved full single⟩
  · rw [classExtension, traverse_classEditor flat named, Tree.mapHeads_editOnly_of_single single]
  · simp only [single, List.count_singleton, beq_iff_eq]

end Found

/-- The class `App\User` with one method, in its namespace, behind a statement of another kind. -/
def enclosedTree (parent : Option SourceName) : Tree :=
  [.expr (.literal (.int 1)), .space (some ⟨["App"], false⟩)
    [.classDecl ⟨"User", false, true, parent, []⟩ [.method ⟨"save", .pub, false, false, false, false, []⟩ (some [])]]]

theorem traverse_classExtension_enclosed :
    ∃ resolver tally, visitor.inspect {} (enclosedTree none) = (.ok (), resolver) ∧
      resolver.fullName = .ok ⟨["App"], "User"⟩ ∧
      (classExtension ⟨["App"], "User"⟩ ⟨["Lib"], "Base"⟩).traverse {} (enclosedTree none) =
        (.ok (enclosedTree (some ⟨["Lib", "Base"], true⟩)), {}, tally) ∧
      tally.replacements = 1 := by
  have resolved : visitor.inspect {} (enclosedTree none) = (.ok (), ⟨some ["App"], some "User"⟩) := rfl
  have names : (enclosedTree none).classNames = [⟨["App"], "User"⟩] := rfl
  obtain ⟨found, tally, single, -, edited, counted, -⟩ :=
    traverse_classExtension resolved rfl ⟨["Lib"], "Base"⟩ {}
  obtain rfl := List.singleton_inj.mp (names.symm.trans single)
  exact ⟨_, tally, resolved, rfl, edited, counted⟩

/-- The class `Foo` in front of the namespace `App`, which is empty. -/
def strayTree : Tree :=
  [.classDecl ⟨"Foo", false, false, none, []⟩ [], .space (some ⟨["App"], false⟩) []]

/-- A class in front of a namespace is resolved as one of that namespace, and is not found under that name. -/
theorem traverse_classExtension_stray :
    ∃ resolver tally, visitor.inspect {} strayTree = (.ok (), resolver) ∧
      resolver.fullName = .ok ⟨["App"], "Foo"⟩ ∧ strayTree.classNames = [⟨[], "Foo"⟩] ∧
      (classExtension ⟨["App"], "Foo"⟩ ⟨[], "Base"⟩).traverse {} strayTree = (.ok strayTree, {}, tally) ∧
      tally.replacements = 0 :=
  ⟨⟨some ["App"], some "Foo"⟩, _, rfl, rfl, rfl, rfl, rfl⟩

end Resolver

end ClassForge
