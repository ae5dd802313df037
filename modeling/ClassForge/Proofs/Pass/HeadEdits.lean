import ClassForge.Pass.ClassEdit
import ClassForge.Proofs.Tree.Statements

/-! # What a pass on heads makes of a tree

On a flat tree of named classes, a pass on heads succeeds. It edits the heads of exactly the classes that have
the given name in their namespaces, at any depth, and counts each of them as one replacement. Everything else
stays as it is.
-/

namespace ClassForge

mutual

/-- The statement with the heads of its classes edited. An edit is told the full name of the class. -/
def Stmt.mapHeads (edit : ClassName → ClassHead → ClassHead) (scope : Scope) : Stmt → Stmt
  | .space name body => .space name (Tree.mapHeadsIn edit ⟨some (spacePath name)⟩ body)
  | .classDecl head body =>
    .classDecl (edit (scope.qualify head.name) head) (Tree.mapHeadsIn edit scope body)
  | .method head (some body) => .method head (some (Tree.mapHeadsIn edit scope body))
  | stmt => stmt

def Tree.mapHeadsIn (edit : ClassName → ClassHead → ClassHead) (scope : Scope) : List Stmt → List Stmt
  | [] => []
  | stmt :: rest => stmt.mapHeads edit scope :: Tree.mapHeadsIn edit scope rest

end

/-- The tree with the heads of all its classes edited. -/
def Tree.mapHeads (edit : ClassName → ClassHead → ClassHead) (tree : Tree) : Tree :=
  Tree.mapHeadsIn edit {} tree

/-- Edits only the classes of one name. -/
def editOnly (matched : ClassName) (edit : ClassHead → ClassHead) (name : ClassName) (head : ClassHead) : ClassHead :=
  if name = matched then edit head else head

theorem Stmt.mapHeads_of_bare {stmt : Stmt} (bare : stmt.body? = none) (edit : ClassName → ClassHead → ClassHead)
    (scope : Scope) : stmt.mapHeads edit scope = stmt := by
  cases stmt with
  | space | classDecl => cases bare
  | method => cases bare; rfl
  | property | constant | throw | expr => rfl

namespace Tree

/-- Only what an edit does to classes of the tree matters. -/
theorem mapHeadsIn_congr {edit other : ClassName → ClassHead → ClassHead} {scope : Scope} {body : List Stmt}
    (same : ∀ name ∈ classNamesIn scope body, edit name = other name) :
    mapHeadsIn edit scope body = mapHeadsIn other scope body := by
  induction body using Tree.induction generalizing scope with
  | nil => rfl
  | space name body rest within later =>
    rw [classNamesIn, Stmt.classNames, List.forall_mem_append] at same
    rw [mapHeadsIn, mapHeadsIn, Stmt.mapHeads, Stmt.mapHeads, within same.1, later same.2]
  | classDecl head body rest within later =>
    rw [classNamesIn, Stmt.classNames, List.forall_mem_append, List.forall_mem_cons] at same
    rw [mapHeadsIn, mapHeadsIn, Stmt.mapHeads, Stmt.mapHeads, same.1.1, within same.1.2, later same.2]
  | method head body rest within later =>
    rw [classNamesIn, Stmt.classNames, List.forall_mem_append] at same
    rw [mapHeadsIn, mapHeadsIn, Stmt.mapHeads, Stmt.mapHeads, within same.1, later same.2]
  | leaf stmt rest bare later =>
    rw [classNamesIn, List.forall_mem_append] at same
    rw [mapHeadsIn, mapHeadsIn, Stmt.mapHeads_of_bare bare, Stmt.mapHeads_of_bare bare, later same.2]

theorem mapHeadsIn_id (scope : Scope) (body : List Stmt) : mapHeadsIn (fun _ head => head) scope body = body := by
  induction body using Tree.induction generalizing scope with
  | nil => rfl
  | space name body rest within later => rw [mapHeadsIn, Stmt.mapHeads, within, later]
  | classDecl head body rest within later => rw [mapHeadsIn, Stmt.mapHeads, within, later]
  | method head body rest within later => rw [mapHeadsIn, Stmt.mapHeads, within, later]
  | leaf stmt rest bare later => rw [mapHeadsIn, Stmt.mapHeads_of_bare bare, later]

/-- Where no class has the name, nothing changes. -/
theorem mapHeadsIn_editOnly_of_notMem {matched : ClassName} {scope : Scope} {body : List Stmt}
    (absent : matched ∉ classNamesIn scope body) (edit : ClassHead → ClassHead) :
    mapHeadsIn (editOnly matched edit) scope body = body := by
  refine (mapHeadsIn_congr fun name member => ?_).trans (mapHeadsIn_id scope body)
  funext head
  exact if_neg fun same : name = matched => absent (same ▸ member)

/-- A class that is the only one is edited under its own name and under no other. -/
theorem mapHeads_editOnly_of_single {tree : Tree} {found : ClassName} (single : tree.classNames = [found])
    (matched : ClassName) (edit : ClassHead → ClassHead) :
    tree.mapHeads (editOnly matched edit) =
      if found = matched then tree.mapHeads (fun _ head => edit head) else tree := by
  split
  · rename_i same
    apply mapHeadsIn_congr
    intro name member
    have only : name = found := by
      rw [← classNames, single] at member
      exact List.mem_singleton.mp member
    funext head
    exact if_pos (only.trans same)
  · rename_i apart
    apply mapHeadsIn_editOnly_of_notMem
    rw [← classNames, single, List.mem_singleton]
    exact fun same => apart same.symm

end Tree

/-! ## The walk -/

/-- What is counted when the classes of a name are replaced. -/
def Tree.headTally (matched : ClassName) (scope : Scope) (body : List Stmt) : Tally where
  entered := (Tree.statements body).length
  replacements := (Tree.classNamesIn scope body).count matched

section Walk

variable (label : String) (matched : ClassName) (edit : ClassHead → ClassHead)

/-- A statement counts once, then what is inside, then its own replacements, then what comes behind. -/
private theorem headTally_cons {stmt : Stmt} {scope inner : Scope} {own : Nat} {body : List Stmt}
    (inside : stmt.body?.getD [] = body)
    (counted : (stmt.classNames scope).count matched = own + (Tree.classNamesIn inner body).count matched)
    (rest : List Stmt) (tally : Tally) :
    (((tally.add .entry).add (Tree.headTally matched inner body)).add { replacements := own }).add
      (Tree.headTally matched scope rest) = tally.add (Tree.headTally matched scope (stmt :: rest)) := by
  simp only [Tally.add, Tally.entry, Tree.headTally, Tally.mk.injEq, Tree.statements_cons, inside, List.length_cons,
    List.length_append, Tree.classNamesIn, List.count_append, counted, true_and, and_true]
  omega

/-- A class of the name is replaced, any other one is kept. -/
private theorem runFrom_leave_class (scope : Scope) {head : ClassHead} (named : head.name ≠ "") (body : List Stmt) :
    ((classEditor label matched edit).leave (.classDecl head body)).runFrom scope =
      (.ok (if scope.qualify head.name = matched then .replace (.classDecl (edit head) body) else .keep), scope) := by
  change ((liftM (scope.qualifyClass head) : Step Scope ClassName) >>= fun found =>
    pure (if found = matched then Edit.replace (.classDecl (edit head) body) else .keep)).runFrom scope = _
  rw [Scope.qualifyClass, if_neg named, Step.runFrom_bind (Step.runFrom_lift _ _), Step.runFrom_pure]

/-- The walk over these statements edits the classes of the name and nothing else. -/
private def EditsOnly (substitute : Stmt → Walk Scope Stmt) (scope : Scope) (body : List Stmt) : Prop :=
  ∀ tally, ((classEditor label matched edit).walkBody substitute body).runFrom (scope, tally) =
    (.ok (Tree.mapHeadsIn (editOnly matched edit) scope body), scope, tally.add (Tree.headTally matched scope body))

variable {label matched edit} {substitute : Stmt → Walk Scope Stmt} {stmt : Stmt} {scope : Scope}
  {body rest : List Stmt}

private theorem EditsOnly.node (inner : Scope) (edited : Edit) (own : Nat) (holds : stmt.body? = some body)
    (entered : ((classEditor label matched edit).enter stmt).runFrom scope = (.ok none, inner))
    (within : EditsOnly label matched edit substitute inner body)
    (left : ((classEditor label matched edit).leave
      (stmt.withBody (Tree.mapHeadsIn (editOnly matched edit) inner body))).runFrom inner = (.ok edited, scope))
    (result : edited.result (stmt.withBody (Tree.mapHeadsIn (editOnly matched edit) inner body)) =
      [stmt.mapHeads (editOnly matched edit) scope])
    (plain : edited.tally = { replacements := own })
    (counted : (stmt.classNames scope).count matched = own + (Tree.classNamesIn inner body).count matched)
    (later : EditsOnly label matched edit substitute scope rest) :
    EditsOnly label matched edit substitute scope (stmt :: rest) := by
  intro tally
  have inside : stmt.body?.getD [] = body := by rw [holds]; rfl
  rw [Visitor.runFrom_walkBody_node holds entered (within _) left, later, result, plain,
    headTally_cons matched inside counted]
  rfl

private theorem EditsOnly.leaf (bare : stmt.body? = none)
    (later : EditsOnly label matched edit substitute scope rest) :
    EditsOnly label matched edit substitute scope (stmt :: rest) := by
  have ignored : (classEditor label matched edit).Ignores scope stmt := by
    cases stmt with
    | space | classDecl => cases bare
    | method | property | constant | throw | expr => exact ⟨rfl, rfl⟩
  intro tally
  have counted : (stmt.classNames scope).count matched = 0 + (Tree.classNamesIn scope []).count matched := by
    rw [Stmt.classNames_of_bare bare]
    rfl
  have inside : stmt.body?.getD [] = [] := by rw [bare]; rfl
  rw [Visitor.runFrom_walkBody_leaf bare ignored.enter ignored.leave, later, ← headTally_cons matched inside counted,
    Tree.mapHeadsIn, Stmt.mapHeads_of_bare bare]
  rfl

/-- On flat statements of named classes, the walk edits the classes of the name and nothing else. -/
theorem runFrom_walkBody_classEditor (label : String) (matched : ClassName) (edit : ClassHead → ClassHead)
    (substitute : Stmt → Walk Scope Stmt) (scope : Scope) (flat : Tree.isFlatIn scope.inSpace body = true)
    (named : "" ∉ Tree.headNames body) (tally : Tally) :
    ((classEditor label matched edit).walkBody substitute body).runFrom (scope, tally) =
      (.ok (Tree.mapHeadsIn (editOnly matched edit) scope body), scope,
        tally.add (Tree.headTally matched scope body)) := by
  revert tally
  change EditsOnly label matched edit substitute scope body
  induction body using Tree.induction generalizing scope with
  | nil => exact fun _ => rfl
  | space name body rest within later =>
    rw [Tree.isFlatIn, Stmt.isFlat, Bool.and_eq_true, Bool.and_eq_true, Bool.not_eq_true'] at flat
    rw [Tree.notMem_headNames_cons] at named
    have outside : scope.current = none := Option.not_isSome_iff_eq_none.mp (Bool.eq_false_iff.mp flat.1.1)
    obtain rfl : scope = {} := congrArg Scope.mk outside
    exact .node ⟨some (spacePath name)⟩ .keep 0 rfl rfl (within _ flat.1.2 named.1.2) rfl rfl rfl
      (Nat.zero_add _).symm (later _ flat.2 named.2)
  | classDecl head body rest within later =>
    rw [Tree.isFlatIn, Stmt.isFlat, Bool.and_eq_true] at flat
    rw [Tree.notMem_headNames_cons] at named
    have filled : head.name ≠ "" := fun empty => named.1.1 (List.mem_singleton.mpr empty.symm)
    have left := runFrom_leave_class label matched edit scope filled
      (Tree.mapHeadsIn (editOnly matched edit) scope body)
    have within := within _ flat.1 named.1.2
    have later := later _ flat.2 named.2
    by_cases same : scope.qualify head.name = matched
    · rw [if_pos same] at left
      refine .node scope _ 1 rfl rfl within left ?_ rfl ?_ later
      · rw [Stmt.mapHeads, editOnly, if_pos same]
        rfl
      · rw [Stmt.classNames, same, List.count_cons_self, Nat.add_comm]
    · rw [if_neg same] at left
      refine .node scope _ 0 rfl rfl within left ?_ rfl ?_ later
      · rw [Stmt.mapHeads, editOnly, if_neg same]
        rfl
      · rw [Stmt.classNames, List.count_cons_of_ne same, Nat.zero_add]
  | method head body rest within later =>
    rw [Tree.isFlatIn, Stmt.isFlat, Bool.and_eq_true] at flat
    rw [Tree.notMem_headNames_cons] at named
    exact .node scope .keep 0 rfl rfl (within _ flat.1 named.1.2) rfl rfl rfl (Nat.zero_add _).symm
      (later _ flat.2 named.2)
  | leaf stmt rest bare later =>
    rw [Tree.isFlatIn, Bool.and_eq_true] at flat
    rw [Tree.notMem_headNames_cons] at named
    exact .leaf bare (later _ flat.2 named.2)

/-- A run on a flat tree of named classes: from whatever scope, it edits the classes of the name, each of them
counts as one replacement, and no statement is removed. -/
theorem traverse_classEditor {tree : Tree} (flat : tree.isFlat = true) (named : "" ∉ tree.headNames) (start : Scope) :
    (classEditor label matched edit).traverse start tree =
      (.ok (tree.mapHeads (editOnly matched edit)), {},
        { traversals := 1, entered := tree.statements.length, replacements := tree.classNames.count matched }) := by
  have walked := runFrom_walkBody_classEditor label matched edit
    ((classEditor label matched edit).walkSubstitute Visitor.substitutionLimit) {} flat named .traversal
  rw [Visitor.traverse_of_walkBody rfl walked rfl]
  simp only [Tally.add, Tally.traversal, Tree.headTally, Nat.zero_add, Nat.add_zero]
  rfl

end Walk

end ClassForge
