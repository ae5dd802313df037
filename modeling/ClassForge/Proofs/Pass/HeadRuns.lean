import ClassForge.Proofs.Pass.HeadFaults

/-! # Runs of passes on heads

A walk enters and leaves every statement, depth first. A pass on heads fails exactly if some namespace lies inside of
another one or some class has no name, and its error is the one of the first moment of the walk that has a fault. On all
other trees it gives the classes of one name another parent, or other interfaces, and counts them.
-/

namespace ClassForge

/-! ## Namespaces inside of others, and classes without a name -/

namespace Tree

/-- Some statement, at any depth, is a namespace. -/
def HasSpace (tree : Tree) : Prop :=
  ∃ stmt ∈ tree.statements, stmt.isSpace = true

/-- Some namespace, at any depth, has another one inside, at any depth. -/
def HasNestedSpaces (tree : Tree) : Prop :=
  ∃ stmt ∈ tree.statements, stmt.isSpace = true ∧ HasSpace (stmt.body?.getD [])

/-- Some class, at any depth, has no name. -/
def HasNamelessClass (tree : Tree) : Prop :=
  ∃ head body, .classDecl head body ∈ tree.statements ∧ head.name = ""

theorem hasSpace_cons (stmt : Stmt) (rest : List Stmt) :
    HasSpace (stmt :: rest) ↔ stmt.isSpace = true ∨ HasSpace (stmt.body?.getD []) ∨ HasSpace rest := by
  simp only [HasSpace, statements_cons, List.mem_cons, List.mem_append, or_and_right, exists_or, exists_eq_left]

theorem hasNestedSpaces_cons (stmt : Stmt) (rest : List Stmt) :
    HasNestedSpaces (stmt :: rest) ↔
      stmt.isSpace = true ∧ HasSpace (stmt.body?.getD []) ∨ HasNestedSpaces (stmt.body?.getD []) ∨
        HasNestedSpaces rest := by
  simp only [HasNestedSpaces, statements_cons, List.mem_cons, List.mem_append, or_and_right, exists_or, exists_eq_left]

/-- Flat statements have no namespace inside of another one, and none at all where they are in one already. -/
theorem isFlatIn_iff {inside : Bool} {body : List Stmt} :
    isFlatIn inside body = true ↔ (inside = true → ¬HasSpace body) ∧ ¬HasNestedSpaces body := by
  induction body using Tree.induction generalizing inside with
  | nil => simp [isFlatIn, HasSpace, HasNestedSpaces]
  | space name body rest within later =>
    rw [isFlatIn, Stmt.isFlat, Bool.and_eq_true, Bool.and_eq_true, within, later, hasSpace_cons, hasNestedSpaces_cons]
    -- What is inside of this namespace has no further one, which the first half of the induction hypothesis says.
    cases inside <;> simp [Stmt.isSpace, Stmt.body?, and_assoc]
  | classDecl head body rest within later =>
    rw [isFlatIn, Stmt.isFlat, Bool.and_eq_true, within, later, hasSpace_cons, hasNestedSpaces_cons]
    cases inside <;> simp [Stmt.isSpace, Stmt.body?, and_assoc, and_left_comm]
  | method head body rest within later =>
    rw [isFlatIn, Stmt.isFlat, Bool.and_eq_true, within, later, hasSpace_cons, hasNestedSpaces_cons]
    cases inside <;> simp [Stmt.isSpace, Stmt.body?, and_assoc, and_left_comm]
  | leaf stmt rest bare later =>
    have other : stmt.isSpace = false := by
      cases stmt with
      | space => cases bare
      | classDecl | method | property | constant | throw | expr => rfl
    rw [isFlatIn, Stmt.isFlat_of_bare bare, Bool.true_and, later, hasSpace_cons, hasNestedSpaces_cons, other, bare]
    simp [HasSpace, HasNestedSpaces]

theorem hasNamelessClass_iff {body : List Stmt} : HasNamelessClass body ↔ "" ∈ headNames body :=
  Stmt.mem_filterMap_className?.symm

theorem faults_eq_nil_iff {tree : Tree} : tree.faults = [] ↔ ¬tree.HasNestedSpaces ∧ ¬tree.HasNamelessClass := by
  rw [faults, faultsIn_eq_nil_iff, isFlatIn_iff, hasNamelessClass_iff]
  simp

/-- A tree has a fault exactly if it has a namespace inside of another one or a class without a name. -/
theorem exists_fault_iff {tree : Tree} :
    (∃ cause, tree.faults.head? = some cause) ↔ tree.HasNestedSpaces ∨ tree.HasNamelessClass := by
  rw [← Option.ne_none_iff_exists', ne_eq, List.head?_eq_none_iff, faults_eq_nil_iff, ← not_or, Classical.not_not]

end Tree

/-! ## The first fault on the way -/

/-- A moment of a walk: a statement is entered or left, inside of a namespace or outside of all. -/
inductive Moment where
  | enters (inside : Bool) (stmt : Stmt)
  | leaves (inside : Bool) (stmt : Stmt)

/-- What is wrong at a moment: a namespace is entered inside of another one, or a class without a name is left. -/
def Moment.fault? : Moment → Option PassError
  | .enters inside stmt => if inside && stmt.isSpace then some .nestedSpaces else none
  | .leaves _ stmt => if stmt.className? = some "" then some .namelessClass else none

mutual

/-- The moments of a walk through a statement, depth first. -/
def Stmt.moments (inside : Bool) : Stmt → List Moment
  | .space name body =>
    .enters inside (.space name body) :: Tree.momentsIn true body ++ [.leaves inside (.space name body)]
  | .classDecl head body =>
    .enters inside (.classDecl head body) :: Tree.momentsIn inside body ++ [.leaves inside (.classDecl head body)]
  | .method head (some body) =>
    .enters inside (.method head (some body)) :: Tree.momentsIn inside body ++
      [.leaves inside (.method head (some body))]
  | stmt => [.enters inside stmt, .leaves inside stmt]

def Tree.momentsIn (inside : Bool) : List Stmt → List Moment
  | [] => []
  | stmt :: rest => stmt.moments inside ++ Tree.momentsIn inside rest

end

/-- The moments of a walk through a tree, depth first. -/
def Tree.moments (tree : Tree) : List Moment :=
  Tree.momentsIn false tree

namespace Tree

/-- The faults of a tree are those of the moments of a walk, in the same order. -/
theorem filterMap_momentsIn (inside : Bool) (body : List Stmt) :
    (momentsIn inside body).filterMap Moment.fault? = faultsIn inside body := by
  induction body using Tree.induction generalizing inside with
  | nil => rfl
  | space name body rest within later =>
    rw [momentsIn, Stmt.moments, faultsIn, Stmt.faults, List.filterMap_append, later, ← within]
    cases inside <;> simp [Moment.fault?, Stmt.isSpace, Stmt.className?]
  | classDecl head body rest within later =>
    rw [momentsIn, Stmt.moments, faultsIn, Stmt.faults, List.filterMap_append, later, ← within]
    by_cases nameless : head.name = "" <;> simp [Moment.fault?, Stmt.isSpace, Stmt.className?, nameless]
  | method head body rest within later =>
    rw [momentsIn, Stmt.moments, faultsIn, Stmt.faults, List.filterMap_append, later, ← within]
    simp [Moment.fault?, Stmt.isSpace, Stmt.className?]
  | leaf stmt rest bare later =>
    rw [momentsIn, faultsIn, Stmt.faults_of_bare bare, List.filterMap_append, later]
    cases stmt with
    | space | classDecl => cases bare
    | method => cases bare; simp [Stmt.moments, Moment.fault?, Stmt.isSpace, Stmt.className?]
    | property | constant | throw | expr => simp [Stmt.moments, Moment.fault?, Stmt.isSpace, Stmt.className?]

/-- The first fault of a tree is that of the first moment that has one. -/
theorem head?_faults (tree : Tree) : tree.faults.head? = tree.moments.findSome? Moment.fault? := by
  rw [faults, ← filterMap_momentsIn, List.head?_filterMap]
  rfl

end Tree

/-! ## The passes -/

/-- What a pass does that edits the heads of the classes of one name, from whatever scope it starts. -/
structure EditsHeads (visitor : Visitor Scope) (matched : ClassName) (edit : ClassHead → ClassHead) (start : Scope)
    (tree : Tree) : Prop where
  /-- It fails only where a namespace is inside of another one or a class has no name. -/
  fails_iff : (∃ cause stop, visitor.traverse start tree = (.error cause, stop)) ↔
    tree.HasNestedSpaces ∨ tree.HasNamelessClass
  /-- The error is that of the first moment of the walk that has a fault. -/
  error_iff (cause : PassError) :
    (visitor.traverse start tree).1 = .error cause ↔ tree.moments.findSome? Moment.fault? = some cause
  /-- Otherwise exactly the classes of the name are edited, and each of them is counted as one replacement. -/
  succeeds (apart : ¬tree.HasNestedSpaces) (named : ¬tree.HasNamelessClass) :
    visitor.traverse start tree =
      (.ok (tree.mapHeads (editOnly matched edit)), {},
        { traversals := 1, entered := tree.statements.length, replacements := tree.classNames.count matched })

theorem editsHeads_classEditor (label : String) (matched : ClassName) (edit : ClassHead → ClassHead) (start : Scope)
    (tree : Tree) : EditsHeads (classEditor label matched edit) matched edit start tree := by
  have result := result_traverse_classEditor label matched edit start tree
  have error_iff (cause : PassError) : ((classEditor label matched edit).traverse start tree).1 = .error cause ↔
      tree.faults.head? = some cause := by
    rw [result, Tree.editHeads]
    cases tree.faults.head? <;> simp
  refine ⟨?_, fun cause => ?_, fun apart named => ?_⟩
  · rw [← Tree.exists_fault_iff]
    constructor
    · rintro ⟨cause, stop, run⟩
      exact ⟨cause, (error_iff cause).mp (congrArg Prod.fst run)⟩
    · rintro ⟨cause, first⟩
      exact ⟨cause, _, Prod.ext ((error_iff cause).mpr first) rfl⟩
  · rw [error_iff, Tree.head?_faults]
  · obtain ⟨flat, named⟩ := Tree.faultsIn_eq_nil_iff.mp (Tree.faults_eq_nil_iff.mpr ⟨apart, named⟩)
    exact traverse_classEditor flat named start

/-- What the passes on heads do to any tree: one gives the classes of a name another parent, the other one gives them
other interfaces. -/
theorem class_passes_edit_heads (matched parent : ClassName) (interfaces : List ClassName) (start : Scope)
    (tree : Tree) :
    EditsHeads (classExtension matched parent) matched
        (fun head => { head with parent := some parent.toSourceName.toAbsolute }) start tree ∧
      EditsHeads (classImplementor matched interfaces) matched
        (fun head => { head with interfaces := interfaces.map ClassName.toSourceName }) start tree :=
  ⟨editsHeads_classEditor _ _ _ start tree, editsHeads_classEditor _ _ _ start tree⟩

/-- A class without a name has a namespace inside of another one in the body of a method. -/
def tangled : Tree :=
  [.classDecl { name := "" } [.method { name := "run" } (some [.space none [.space none []]])]]

/-- A class in a namespace, and one of the same short name outside of it. -/
def homonyms : Tree :=
  [.space (some ⟨["App"], false⟩) [.classDecl { name := "Foo" } []], .classDecl { name := "Foo" } []]

theorem class_passes_edit_heads_homonyms :
    (tangled.HasNestedSpaces ∧ tangled.HasNamelessClass ∧
        ((classExtension ⟨["App"], "Foo"⟩ ⟨[], "Base"⟩).traverse {} tangled).1 = .error .nestedSpaces) ∧
      (¬homonyms.HasNestedSpaces ∧ ¬homonyms.HasNamelessClass ∧
        (classExtension ⟨["App"], "Foo"⟩ ⟨[], "Base"⟩).traverse {} homonyms =
          (.ok [.space (some ⟨["App"], false⟩) [.classDecl { name := "Foo", parent := some ⟨["Base"], true⟩ } []],
              .classDecl { name := "Foo" } []],
            {}, { traversals := 1, entered := 3, replacements := 1 })) := by
  have edits (tree : Tree) := (class_passes_edit_heads ⟨["App"], "Foo"⟩ ⟨[], "Base"⟩ [] {} tree).1
  have sound : homonyms.faults = [] := rfl
  obtain ⟨apart, named⟩ := Tree.faults_eq_nil_iff.mp sound
  refine ⟨⟨?_, ⟨_, _, .head _, rfl⟩, ((edits tangled).error_iff _).mpr rfl⟩, apart, named, ?_⟩
  · exact ⟨.space none [.space none []], .tail _ (.tail _ (.head _)), rfl, _, .head _, rfl⟩
  · exact (edits homonyms).succeeds apart named

end ClassForge
