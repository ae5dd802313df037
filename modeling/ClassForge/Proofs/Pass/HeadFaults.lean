import ClassForge.Proofs.Outcome
import ClassForge.Proofs.Pass.HeadEdits

/-! # Where a pass on heads stops

A pass on heads stops at a namespace that lies inside of another one when it enters it, and at a class without a
name when it leaves it. It stops at the first of these faults of the tree; without one, it edits the classes of the
name. So what it makes of any tree is known, and two such passes stop at the same fault.
-/

namespace ClassForge

mutual

/-- The faults of a statement in the order in which a walk meets them: a namespace counts before what is inside, a
class after it. -/
def Stmt.faults (inside : Bool) : Stmt → List PassError
  | .space _ body => (if inside then [.nestedSpaces] else []) ++ Tree.faultsIn true body
  | .classDecl head body => Tree.faultsIn inside body ++ (if head.name = "" then [.namelessClass] else [])
  | .method _ (some body) => Tree.faultsIn inside body
  | _ => []

def Tree.faultsIn (inside : Bool) : List Stmt → List PassError
  | [] => []
  | stmt :: rest => stmt.faults inside ++ Tree.faultsIn inside rest

end

/-- The namespaces inside of others and the classes without a name, in the order in which a walk meets them. -/
def Tree.faults (tree : Tree) : List PassError :=
  Tree.faultsIn false tree

/-- What a pass on heads makes of a tree: it stops at the first fault, or edits the heads of all classes. -/
def Tree.editHeads (edit : ClassName → ClassHead → ClassHead) (tree : Tree) : Except PassError Tree :=
  tree.faults.head?.elim (.ok (tree.mapHeads edit)) .error

theorem Stmt.faults_of_bare {stmt : Stmt} (bare : stmt.body? = none) (inside : Bool) : stmt.faults inside = [] := by
  cases stmt with
  | space | classDecl => cases bare
  | method => cases bare; rfl
  | property | constant | throw | expr => rfl

namespace Tree

/-- There are no faults exactly in flat trees of named classes. -/
theorem faultsIn_eq_nil_iff {inside : Bool} {body : List Stmt} :
    faultsIn inside body = [] ↔ isFlatIn inside body = true ∧ "" ∉ headNames body := by
  induction body using Tree.induction generalizing inside with
  | nil => simp [faultsIn, isFlatIn, headNames]
  | space name body rest within later =>
    rw [faultsIn, Stmt.faults, List.append_eq_nil_iff, List.append_eq_nil_iff, within, later, isFlatIn, Stmt.isFlat,
      notMem_headNames_cons]
    cases inside <;> simp [Stmt.className?, Stmt.body?, and_assoc, and_left_comm]
  | classDecl head body rest within later =>
    rw [faultsIn, Stmt.faults, List.append_eq_nil_iff, List.append_eq_nil_iff, within, later, isFlatIn, Stmt.isFlat,
      notMem_headNames_cons]
    have own : (if head.name = "" then [PassError.namelessClass] else []) = [] ↔
        "" ∉ (Stmt.classDecl head body).className?.toList := by
      rw [Stmt.className?, Option.toList_some, List.mem_singleton, eq_comm (a := "")]
      split <;> simp_all
    rw [own]
    simp [Stmt.body?, and_assoc, and_left_comm]
  | method head body rest within later =>
    rw [faultsIn, Stmt.faults, List.append_eq_nil_iff, within, later, isFlatIn, Stmt.isFlat, notMem_headNames_cons]
    simp [Stmt.className?, Stmt.body?, and_assoc, and_left_comm]
  | leaf stmt rest bare later =>
    rw [faultsIn, Stmt.faults_of_bare bare, List.nil_append, later, isFlatIn, Stmt.isFlat_of_bare bare,
      notMem_headNames_cons, (Stmt.eq_none_of_bare bare).2, bare]
    simp [headNames]

theorem faultsIn_append (inside : Bool) (front back : List Stmt) :
    faultsIn inside (front ++ back) = faultsIn inside front ++ faultsIn inside back := by
  induction front with
  | nil => rfl
  | cons stmt rest ih => rw [List.cons_append, faultsIn, ih, faultsIn, List.append_assoc]

end Tree

/-! ## The walk -/

section Walk

variable (label : String) (matched : ClassName) (edit : ClassHead → ClassHead) (substitute : Stmt → Walk Scope Stmt)

/-- The walk over these statements stops with this failure. -/
private def StopsWith (scope : Scope) (body : List Stmt) (cause : PassError) : Prop :=
  ∀ tally, ∃ stop,
    ((classEditor label matched edit).walkBody substitute body).runFrom (scope, tally) = (.error cause, stop)

variable {label matched edit substitute} {stmt : Stmt} {scope inner : Scope} {body rest : List Stmt}
  {cause : PassError}

private theorem StopsWith.inside (holds : stmt.body? = some body)
    (entered : ((classEditor label matched edit).enter stmt).runFrom scope = (.ok none, inner))
    (within : StopsWith label matched edit substitute inner body cause) :
    StopsWith label matched edit substitute scope (stmt :: rest) cause := by
  intro tally
  obtain ⟨stop, walked⟩ := within (tally.add .entry)
  exact ⟨stop, Visitor.runFrom_walkBody_inside holds entered walked rest⟩

/-- Past a statement without faults, the walk stops where it stops behind it. -/
private theorem StopsWith.behind (sound : stmt.faults scope.inSpace = [])
    (later : StopsWith label matched edit substitute scope rest cause) :
    StopsWith label matched edit substitute scope (stmt :: rest) cause := by
  have alone : Tree.faultsIn scope.inSpace [stmt] = [] := by
    rw [Tree.faultsIn, sound]
    rfl
  obtain ⟨flat, named⟩ := Tree.faultsIn_eq_nil_iff.mp alone
  intro tally
  have first := runFrom_walkBody_classEditor label matched edit substitute scope flat named tally
  obtain ⟨stop, walked⟩ := later (tally.add (Tree.headTally matched scope [stmt]))
  refine ⟨stop, ?_⟩
  rw [← List.singleton_append, Visitor.walkBody_append, Step.runFrom_bind first]
  exact Step.runFrom_bind_error walked _

/-- A namespace cannot be entered inside of another one. -/
private theorem StopsWith.nested (nested : scope.inSpace = true) (name : Option SourceName) :
    StopsWith label matched edit substitute scope (.space name body :: rest) .nestedSpaces := by
  have known : (get : Step Scope Scope).runFrom scope = (.ok scope, scope) := rfl
  have refused : scope.enter (.space name body) = .error .nestedSpaces := if_pos nested
  have stopped : ((classEditor label matched edit).enter (.space name body)).runFrom scope =
      (.error .nestedSpaces, scope) := by
    apply Step.runFrom_bind_error
    rw [Scope.entering, Step.runFrom_bind known, refused]
    rfl
  exact fun tally => ⟨_, Visitor.runFrom_walkBody_refused stopped rest⟩

/-- A class without a name cannot be left. -/
private theorem StopsWith.nameless {head : ClassHead} (nameless : head.name = "")
    (sound : Tree.faultsIn scope.inSpace body = []) :
    StopsWith label matched edit substitute scope (.classDecl head body :: rest) .namelessClass := by
  obtain ⟨flat, named⟩ := Tree.faultsIn_eq_nil_iff.mp sound
  have stopped (edited : List Stmt) :
      ((classEditor label matched edit).leave ((Stmt.classDecl head body).withBody edited)).runFrom scope =
        (.error .namelessClass, scope) := by
    change ((liftM (scope.qualifyClass head) : Step Scope ClassName) >>= fun _ => _).runFrom scope = _
    apply Step.runFrom_bind_error
    rw [Scope.qualifyClass, if_pos nameless]
    rfl
  intro tally
  have within := runFrom_walkBody_classEditor label matched edit substitute scope flat named (tally.add .entry)
  exact ⟨_, Visitor.runFrom_walkBody_left rfl rfl within (stopped _) rest⟩

/-- The walk stops at the first fault. -/
private theorem stopsWith_of_faultsIn {others : List PassError}
    (faulty : Tree.faultsIn scope.inSpace body = cause :: others) :
    StopsWith label matched edit substitute scope body cause := by
  induction body using Tree.induction generalizing scope others with
  | nil => cases faulty
  | space name body rest within later =>
    rw [Tree.faultsIn] at faulty
    rcases List.append_eq_cons_iff.mp faulty with ⟨sound, behind⟩ | ⟨more, own, -⟩
    · exact .behind sound (later behind)
    · rw [Stmt.faults] at own
      by_cases nested : scope.inSpace = true
      · rw [if_pos nested] at own
        obtain rfl := (List.cons.inj own).1
        exact .nested nested name
      · rw [if_neg nested] at own
        obtain rfl : scope = {} := congrArg Scope.mk (Option.not_isSome_iff_eq_none.mp nested)
        exact .inside rfl rfl (within own)
  | classDecl head body rest within later =>
    rw [Tree.faultsIn] at faulty
    rcases List.append_eq_cons_iff.mp faulty with ⟨sound, behind⟩ | ⟨more, own, -⟩
    · exact .behind sound (later behind)
    · rw [Stmt.faults] at own
      rcases List.append_eq_cons_iff.mp own with ⟨sound, last⟩ | ⟨more, first, -⟩
      · split at last
        · rename_i nameless
          obtain rfl := (List.cons.inj last).1
          exact .nameless nameless sound
        · cases last
      · exact .inside rfl rfl (within first)
  | method head body rest within later =>
    rw [Tree.faultsIn] at faulty
    rcases List.append_eq_cons_iff.mp faulty with ⟨sound, behind⟩ | ⟨more, own, -⟩
    · exact .behind sound (later behind)
    · exact .inside rfl rfl (within own)
  | leaf stmt rest bare later =>
    rw [Tree.faultsIn, Stmt.faults_of_bare bare] at faulty
    exact .behind (Stmt.faults_of_bare bare _) (later faulty)

/-- What a pass on heads makes of any tree, from whatever scope. -/
theorem result_traverse_classEditor (label : String) (matched : ClassName) (edit : ClassHead → ClassHead)
    (start : Scope) (tree : Tree) :
    ((classEditor label matched edit).traverse start tree).1 = tree.editHeads (editOnly matched edit) := by
  rw [Tree.editHeads]
  cases faults : tree.faults with
  | nil =>
    obtain ⟨flat, named⟩ := Tree.faultsIn_eq_nil_iff.mp faults
    rw [traverse_classEditor flat named]
    rfl
  | cons cause others =>
    let substitute := (classEditor label matched edit).walkSubstitute Visitor.substitutionLimit
    have stops : StopsWith label matched edit substitute {} tree cause := stopsWith_of_faultsIn faults
    obtain ⟨stop, walked⟩ := stops .traversal
    rw [Visitor.traverse_of_walkBody_error rfl walked]
    rfl

end Walk

end ClassForge
