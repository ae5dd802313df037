import ClassForge.Output.Emit
import ClassForge.Proofs.Blueprint.Building
import ClassForge.Proofs.Pass.Judged
import ClassForge.Proofs.Pass.Moving

/-! # What the passes make of a single class

A tree of one class, in its namespace if it has one, stays of that kind under every pass. Renaming moves
it to the namespace of its new name, the passes on heads change its head, and those on methods its
members. The resolver finds its full name.
-/

namespace ClassForge

theorem Tree.judged_inSpace (verdict : MethodHead → Verdict) (name : ClassName) (head : ClassHead)
    (members : List Stmt) :
    Tree.judged verdict (Blueprint.inSpace name (.classDecl head members)) =
      Blueprint.inSpace name (.classDecl head (Tree.judged verdict members)) := by
  rw [Blueprint.inSpace_eq, Blueprint.inSpace_eq]
  split <;> simp [Tree.judged, Stmt.judged]

/-- An edit of the class of a name changes the head of a single class of that name. -/
theorem Tree.mapHeads_inSpace {target : ClassName} {head : ClassHead} {members : List Stmt}
    (short : head.name = target.short) (inert : Tree.isInert members = true) (edit : ClassHead → ClassHead) :
    Tree.mapHeads (editOnly target edit) (Blueprint.inSpace target (.classDecl head members)) =
      Blueprint.inSpace target (.classDecl (edit head) members) := by
  have kept (scope : Scope) : Tree.mapHeadsIn (editOnly target edit) scope members = members := by
    apply Tree.mapHeadsIn_editOnly_of_notMem
    rw [Tree.classNamesIn_of_inert inert]
    exact List.not_mem_nil
  have edited (scope : Scope) (path : scope.path = target.path) :
      Tree.mapHeadsIn (editOnly target edit) scope [.classDecl head members] =
        [.classDecl (edit head) members] := by
    rw [Tree.mapHeadsIn, Stmt.mapHeads, kept, editOnly, Scope.qualify, path, short, if_pos rfl]
    rfl
  rw [Blueprint.inSpace_eq, Blueprint.inSpace_eq, Tree.mapHeads]
  split
  · rename_i global
    exact edited {} global.symm
  · rw [Tree.mapHeadsIn, Stmt.mapHeads, edited ⟨some (spacePath _)⟩ rfl]
    rfl

/-! ## Passes -/

namespace Pass

section

variable {name target : ClassName} {head : ClassHead} {members : List Stmt}

/-- Renaming moves the class to the namespace of its new name. -/
theorem run_rename (short : head.name = name.short) (named : name.short ≠ "")
    (inert : Tree.isInert members = true) :
    (Pass.rename name target).run (Blueprint.inSpace name (.classDecl head members)) =
      .ok (Blueprint.inSpace target (.classDecl { head with name := target.short } members)) := by
  have moves := Renaming.traverse_fill (short ▸ named : head.name ≠ "") inert (Place.alone name) target {}
  rw [Place.path_alone, short, Place.fill_alone] at moves
  rw [← Place.fill_alone target]
  exact (Visitor.result_traverse_through isPart_renamer _ _).trans moves

private theorem run_onScope (label : String) (edit : ClassHead → ClassHead) (short : head.name = target.short)
    (named : target.short ≠ "") (inert : Tree.isInert members = true) :
    ((onScope (classEditor label target edit)).traverse {} (Blueprint.inSpace target (.classDecl head members))).1 =
      .ok (Blueprint.inSpace target (.classDecl (edit head) members)) := by
  have flat : Tree.isFlat (Blueprint.inSpace target (.classDecl head members)) = true := by
    rw [← Place.fill_alone]
    exact (Place.alone target).isFlat_fill inert
  have filled : "" ∉ Tree.headNames (Blueprint.inSpace target (.classDecl head members)) := by
    rw [← Place.fill_alone, (Place.alone target).headNames_fill inert, List.mem_singleton, short]
    exact named.symm
  rw [onScope, Visitor.result_traverse_through isPart_scope, traverse_classEditor flat filled,
    Tree.mapHeads_inSpace short inert]

theorem run_extend (parent : ClassName) (short : head.name = target.short) (named : target.short ≠ "")
    (inert : Tree.isInert members = true) :
    (Pass.extend target parent).run (Blueprint.inSpace target (.classDecl head members)) =
      .ok (Blueprint.inSpace target (.classDecl { head with parent := some parent.toAbsolute } members)) :=
  run_onScope _ _ short named inert

theorem run_implement (interfaces : List ClassName) (short : head.name = target.short)
    (named : target.short ≠ "") (inert : Tree.isInert members = true) :
    (Pass.implement target interfaces).run (Blueprint.inSpace target (.classDecl head members)) =
      .ok (Blueprint.inSpace target
        (.classDecl { head with interfaces := interfaces.map ClassName.toSourceName } members)) :=
  run_onScope _ _ short named inert

end

private theorem visitors_foldl_add (passes : List Pass) (traverser : Traverser PassState) :
    (passes.foldl (fun traverser pass => traverser.add pass.visitor {}) traverser).visitors =
      traverser.visitors ++ passes.map fun pass => ⟨pass.visitor, {}⟩ := by
  induction passes generalizing traverser with
  | nil => simp
  | cons pass rest ih =>
    rw [List.foldl_cons, ih, Traverser.add, List.append_assoc]
    rfl

private theorem runAll_passes (passes : List Pass) (tallies : Tallies) (tree : Tree) :
    (Traverser.runAll (passes.map fun pass => ⟨pass.visitor, {}⟩) tallies tree).1 =
      passes.foldlM (fun tree pass => pass.run tree) tree := by
  induction passes generalizing tallies tree with
  | nil => rfl
  | cons pass rest ih =>
    rw [List.map_cons, Traverser.runAll, List.foldlM_cons, run]
    rcases pass.visitor.traverse {} tree with ⟨_ | next, state, tally⟩
    · rfl
    · exact ih _ next

/-- A traverser of passes makes of a tree what the passes make of it one after the other. -/
theorem traverse_traverser (passes : List Pass) (tree : Tree) :
    ((traverser passes).traverse tree).1 = passes.foldlM (fun tree pass => pass.run tree) tree := by
  rw [Traverser.traverse, traverser, visitors_foldl_add]
  exact runAll_passes passes _ tree

end Pass

/-! ## The resolver -/

section Resolving

variable {target : ClassName} {head : ClassHead} {members : List Stmt}

/-- The resolver finds the full name of a single class. -/
theorem Printer.classOf_inSpace (short : head.name = target.short) (named : target.short ≠ "")
    (inert : Tree.isInert members = true) :
    classOf (Blueprint.inSpace target (.classDecl head members)) = .ok target := by
  obtain ⟨resolver, inspected, full⟩ := (Place.alone target).inspect_fill inert (short ▸ named : head.name ≠ "") {}
  rw [Place.path_alone, short] at full
  rw [classOf, ← Place.fill_alone, inspected]
  exact full

end Resolving

/-- A tree of one class of the given name, in its namespace, whose members hold no class. -/
def Tree.IsClass (tree : Tree) (name : ClassName) : Prop :=
  ∃ head members, head.name = name.short ∧ Tree.isInert members = true ∧
    tree = Blueprint.inSpace name (.classDecl head members)

theorem Printer.classOf_of_isClass {tree : Tree} {name : ClassName} (single : tree.IsClass name)
    (named : name.short ≠ "") : classOf tree = .ok name := by
  obtain ⟨head, members, short, inert, rfl⟩ := single
  exact classOf_inSpace short named inert

end ClassForge
