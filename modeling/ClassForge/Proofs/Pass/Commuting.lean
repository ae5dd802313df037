import ClassForge.Pass.Basic
import ClassForge.Proofs.Pass.HeadFaults
import ClassForge.Proofs.Pass.Judged

/-! # Passes that do not depend on each other

Passes on heads go by the names of classes and by the namespaces around them, and leave both alone. So they stop at
the same fault, and two of them that set different parts of a head can change places. Verdicts on methods take away
classes that are inside of methods, and faults with them, but bring none: a pass on heads that succeeds on a tree makes
the same of what is left of it.
-/

namespace ClassForge

/-- An edit of heads that leaves the names of classes alone. -/
def KeepsNames (edit : ClassName → ClassHead → ClassHead) : Prop :=
  ∀ name head, (edit name head).name = head.name

theorem keepsNames_editOnly (matched : ClassName) (edit : ClassHead → ClassHead)
    (keeps : ∀ head, (edit head).name = head.name) : KeepsNames (editOnly matched edit) := by
  intro name head
  rw [editOnly]
  split
  · exact keeps head
  · rfl

namespace Tree

/-! ## Two edits of heads -/

section Heads

variable {first : ClassName → ClassHead → ClassHead} (keeps : KeepsNames first)
include keeps

/-- Where the names of classes stay, so do the faults. -/
theorem faultsIn_mapHeadsIn (inside : Bool) (scope : Scope) (body : List Stmt) :
    faultsIn inside (mapHeadsIn first scope body) = faultsIn inside body := by
  induction body using Tree.induction generalizing inside scope with
  | nil => rfl
  | space name body rest within later =>
    rw [mapHeadsIn, Stmt.mapHeads, faultsIn, faultsIn, Stmt.faults, Stmt.faults, within, later]
  | classDecl head body rest within later =>
    rw [mapHeadsIn, Stmt.mapHeads, faultsIn, faultsIn, Stmt.faults, Stmt.faults, within, later, keeps]
  | method head body rest within later =>
    rw [mapHeadsIn, Stmt.mapHeads, faultsIn, faultsIn, Stmt.faults, Stmt.faults, within, later]
  | leaf stmt rest bare later => rw [mapHeadsIn, Stmt.mapHeads_of_bare bare, faultsIn, faultsIn, later]

/-- The second edit is told the same names as the first. -/
theorem mapHeadsIn_mapHeadsIn (second : ClassName → ClassHead → ClassHead) (scope : Scope) (body : List Stmt) :
    mapHeadsIn second scope (mapHeadsIn first scope body) =
      mapHeadsIn (fun name head => second name (first name head)) scope body := by
  induction body using Tree.induction generalizing scope with
  | nil => rfl
  | space name body rest within later => simp only [mapHeadsIn, Stmt.mapHeads, within, later]
  | classDecl head body rest within later => simp only [mapHeadsIn, Stmt.mapHeads, within, later, keeps _ head]
  | method head body rest within later => simp only [mapHeadsIn, Stmt.mapHeads, within, later]
  | leaf stmt rest bare later => simp only [mapHeadsIn, Stmt.mapHeads_of_bare bare, later]

/-- Two passes on heads make of a tree what one makes of it that edits heads twice. -/
theorem editHeads_bind (second : ClassName → ClassHead → ClassHead) (tree : Tree) :
    (tree.editHeads first >>= editHeads second) = tree.editHeads fun name head => second name (first name head) := by
  have same : (tree.mapHeads first).faults = tree.faults := faultsIn_mapHeadsIn keeps false {} tree
  cases faults : tree.faults with
  | nil =>
    rw [editHeads, editHeads, faults]
    change (tree.mapHeads first).editHeads second = _
    rw [editHeads, same, faults]
    exact congrArg Except.ok (mapHeadsIn_mapHeadsIn keeps second {} tree)
  | cons cause others =>
    rw [editHeads, editHeads, faults]
    rfl

end Heads

/-! ## Edits of heads and verdicts on methods -/

section Verdicts

variable (verdict : MethodHead → Verdict)

theorem mapHeadsIn_append (edit : ClassName → ClassHead → ClassHead) (scope : Scope) (front back : List Stmt) :
    mapHeadsIn edit scope (front ++ back) = mapHeadsIn edit scope front ++ mapHeadsIn edit scope back := by
  induction front with
  | nil => rfl
  | cons stmt rest ih => rw [List.cons_append, mapHeadsIn, ih, mapHeadsIn, List.cons_append]

/-- A verdict goes by the head of a method, and there are no classes in the body of a disabled one. -/
private theorem mapHeadsIn_edited (edit : ClassName → ClassHead → ClassHead) (scope : Scope) (head : MethodHead)
    (body : Option (List Stmt)) :
    mapHeadsIn edit scope (((verdict head).edit head).result (.method head body)) =
      ((verdict head).edit head).result ((Stmt.method head body).mapHeads edit scope) := by
  cases verdict head with
  | skip => rfl
  | disable => rfl
  | drop => rfl

theorem mapHeadsIn_judged (edit : ClassName → ClassHead → ClassHead) (scope : Scope) (body : List Stmt) :
    mapHeadsIn edit scope (judged verdict body) = judged verdict (mapHeadsIn edit scope body) := by
  induction body using Tree.induction generalizing scope with
  | nil => rfl
  | space name body rest within later =>
    rw [judged, mapHeadsIn_append, later, mapHeadsIn, judged, Stmt.judged, mapHeadsIn, Stmt.mapHeads, within]
    rfl
  | classDecl head body rest within later =>
    rw [judged, mapHeadsIn_append, later, mapHeadsIn, judged, Stmt.judged, mapHeadsIn, Stmt.mapHeads, within]
    rfl
  | method head body rest within later =>
    rw [judged, mapHeadsIn_append, later, mapHeadsIn, judged, Stmt.judged, mapHeadsIn_edited, Stmt.mapHeads, within]
    rfl
  | leaf stmt rest bare later =>
    rw [judged, mapHeadsIn_append, later, mapHeadsIn, judged, Stmt.mapHeads_of_bare bare]
    cases stmt with
    | space | classDecl => cases bare
    | method head body =>
      cases bare
      rw [Stmt.judged, mapHeadsIn_edited]
      rfl
    | property | constant | throw | expr => rfl

private theorem faultsIn_edited (inside : Bool) (head : MethodHead) (body : List Stmt) :
    (faultsIn inside (((verdict head).edit head).result (.method head (some body)))).Sublist (faultsIn inside body) := by
  cases verdict head with
  | skip =>
    change (faultsIn inside body ++ []).Sublist _
    simp only [List.append_nil, List.Sublist.refl]
  | disable => exact List.nil_sublist _
  | drop => exact List.nil_sublist _

/-- Verdicts on methods bring no faults. -/
theorem faultsIn_judged_sublist (inside : Bool) (body : List Stmt) :
    (faultsIn inside (judged verdict body)).Sublist (faultsIn inside body) := by
  induction body using Tree.induction generalizing inside with
  | nil => exact List.Sublist.refl _
  | space name body rest within later =>
    rw [judged, faultsIn_append, faultsIn]
    refine List.Sublist.append ?_ (later inside)
    rw [Stmt.judged, faultsIn, Stmt.faults, Stmt.faults, faultsIn, List.append_nil]
    exact List.Sublist.append (List.Sublist.refl _) (within true)
  | classDecl head body rest within later =>
    rw [judged, faultsIn_append, faultsIn]
    refine List.Sublist.append ?_ (later inside)
    rw [Stmt.judged, faultsIn, Stmt.faults, Stmt.faults, faultsIn, List.append_nil]
    exact List.Sublist.append (within inside) (List.Sublist.refl _)
  | method head body rest within later =>
    rw [judged, faultsIn_append, faultsIn]
    refine List.Sublist.append ?_ (later inside)
    exact (faultsIn_edited verdict inside head _).trans (within inside)
  | leaf stmt rest bare later =>
    rw [judged, faultsIn_append, faultsIn]
    refine List.Sublist.append ?_ (later inside)
    cases stmt with
    | space | classDecl => cases bare
    | method head body =>
      cases bare
      rw [Stmt.judged]
      cases verdict head <;> exact List.nil_sublist _
    | property | constant | throw | expr => exact List.nil_sublist _

/-- A pass on heads that succeeds makes the same of what verdicts on methods leave. -/
theorem editHeads_judged {edit : ClassName → ClassHead → ClassHead} {tree result : Tree}
    (done : tree.editHeads edit = .ok result) :
    editHeads edit (judged verdict tree) = .ok (judged verdict result) := by
  cases found : tree.faults with
  | cons cause others =>
    rw [editHeads, found] at done
    cases done
  | nil =>
    rw [editHeads, found] at done
    obtain rfl := Except.ok.inj done
    have none : faults (judged verdict tree) = [] := by
      apply List.sublist_nil.mp
      rw [← found]
      exact faultsIn_judged_sublist verdict false tree
    rw [editHeads, none]
    exact congrArg Except.ok (mapHeadsIn_judged verdict edit {} tree)

end Verdicts

end Tree

/-! ## Passes -/

namespace Pass

/-- Whether a pass edits the heads of classes. -/
def editsHeads : Pass → Bool
  | .extend .. => true
  | .implement .. => true
  | _ => false

/-- Whether a pass judges methods. -/
def judgesMethods : Pass → Bool
  | .publicOnly => true
  | .disable _ => true
  | _ => false

theorem run_extend_eq (matched parent : ClassName) (tree : Tree) :
    (Pass.extend matched parent).run tree = tree.editHeads
      (editOnly matched fun head => { head with parent := some parent.toSourceName.toAbsolute }) :=
  (Visitor.result_traverse_through isPart_scope _ _).trans (result_traverse_classEditor _ _ _ _ _)

theorem run_implement_eq (matched : ClassName) (interfaces : List ClassName) (tree : Tree) :
    (Pass.implement matched interfaces).run tree = tree.editHeads
      (editOnly matched fun head => { head with interfaces := interfaces.map ClassName.toSourceName }) :=
  (Visitor.result_traverse_through isPart_scope _ _).trans (result_traverse_classEditor _ _ _ _ _)

/-- Every pass on heads edits the heads of a tree without faults. -/
theorem exists_editHeads {pass : Pass} (heads : pass.editsHeads = true) :
    ∃ edit, ∀ tree, pass.run tree = tree.editHeads edit := by
  cases pass with
  | extend matched parent => exact ⟨_, run_extend_eq matched parent⟩
  | implement matched interfaces => exact ⟨_, run_implement_eq matched interfaces⟩
  | resolve | rename | publicOnly | disable => cases heads

/-- Every pass on methods judges them by their heads. -/
theorem exists_judged {pass : Pass} (methods : pass.judgesMethods = true) :
    ∃ verdict, ∀ tree, pass.run tree = .ok (Tree.judged verdict tree) := by
  cases pass with
  | publicOnly => exact ⟨publicVerdict, run_publicOnly⟩
  | disable names => exact ⟨namesVerdict names, run_disable names⟩
  | resolve | rename | extend | implement => cases methods

/-- Giving a class another parent and giving one other interfaces come to the same in either order: the same tree, or
the same failure. A pass on heads that succeeds on a tree can change places with one that judges methods. -/
theorem run_commutes (tree : Tree) :
    (∀ matched parent other interfaces,
      ((Pass.extend matched parent).run tree >>= (Pass.implement other interfaces).run) =
        ((Pass.implement other interfaces).run tree >>= (Pass.extend matched parent).run)) ∧
    ∀ (pass judge : Pass) (result : Tree), pass.editsHeads = true → judge.judgesMethods = true →
      pass.run tree = .ok result → ∃ final, judge.run result = .ok final ∧ (judge.run tree >>= pass.run) = .ok final := by
  constructor
  · intro matched parent other interfaces
    let extended (head : ClassHead) : ClassHead := { head with parent := some parent.toSourceName.toAbsolute }
    let implementing (head : ClassHead) : ClassHead :=
      { head with interfaces := interfaces.map ClassName.toSourceName }
    have extension : (Pass.extend matched parent).run = Tree.editHeads (editOnly matched extended) :=
      funext (run_extend_eq matched parent)
    have implementor : (Pass.implement other interfaces).run = Tree.editHeads (editOnly other implementing) :=
      funext (run_implement_eq other interfaces)
    rw [extension, implementor, Tree.editHeads_bind (keepsNames_editOnly matched extended fun _ => rfl),
      Tree.editHeads_bind (keepsNames_editOnly other implementing fun _ => rfl)]
    congr 1
    funext name head
    -- Each edit sets a field that the other one does not look at.
    simp only [editOnly]
    split <;> split <;> rfl
  · intro pass judge result heads methods done
    obtain ⟨edit, edits⟩ := exists_editHeads heads
    obtain ⟨verdict, judges⟩ := exists_judged methods
    rw [edits] at done
    refine ⟨Tree.judged verdict result, judges result, ?_⟩
    rw [judges, ok_bind, edits]
    exact Tree.editHeads_judged verdict done

/-- The class `App\User`, with another one of that name inside of a method that is not public. -/
def helperTree (parent : Option SourceName) : Tree :=
  [.space (some ⟨["App"], false⟩) [.classDecl ⟨"User", false, false, parent, []⟩
    [.method ⟨"make", .priv, false, false, false, false, []⟩ (some [.classDecl ⟨"User", false, false, parent, []⟩ []]),
      .method ⟨"save", .pub, false, false, false, false, []⟩ (some [])]]]

theorem run_commutes_helper :
    (Pass.extend ⟨["App"], "User"⟩ ⟨[], "Base"⟩).run (helperTree none) = .ok (helperTree (some ⟨["Base"], true⟩)) ∧
    ∃ final, Pass.publicOnly.run (helperTree (some ⟨["Base"], true⟩)) = .ok final ∧
      (Pass.publicOnly.run (helperTree none) >>= (Pass.extend ⟨["App"], "User"⟩ ⟨[], "Base"⟩).run) = .ok final := by
  have done : (Pass.extend ⟨["App"], "User"⟩ ⟨[], "Base"⟩).run (helperTree none) =
      .ok (helperTree (some ⟨["Base"], true⟩)) := rfl
  exact ⟨done, (run_commutes (helperTree none)).2 _ .publicOnly _ rfl rfl done⟩

end Pass

end ClassForge
