import ClassForge.Proofs.Pass.Resolution
import ClassForge.Proofs.Pass.Viewing

/-! # Trees that the resolver accepts

The resolver sees all statements of a tree in the order of the source, whatever lies inside of what. It goes on as long
as they hold one namespace and one class at most, and no class without a name, and stops at the first statement that
breaks this rule. What it knew before the run does not matter.
-/

namespace ClassForge

namespace Resolver

/-- One namespace and one class at most, and no class without a name. -/
structure Accepts (stmts : List Stmt) : Prop where
  spaces : stmts.countP Stmt.isSpace ≤ 1
  classes : stmts.countP Stmt.isClass ≤ 1
  named : ∀ head body, .classDecl head body ∈ stmts → head.name ≠ ""

/-- A statement that cannot follow the earlier ones: a second namespace, a second class, or a first class that has no
name. -/
inductive Refuses (earlier : List Stmt) : Stmt → PassError → Prop
  | secondSpace {name : Option SourceName} {body : List Stmt} (one : earlier.countP Stmt.isSpace = 1) :
      Refuses earlier (.space name body) (.ambiguous "multiple nested namespaces discovered")
  | secondClass {head : ClassHead} {body : List Stmt} (one : earlier.countP Stmt.isClass = 1) :
      Refuses earlier (.classDecl head body) (.ambiguous "multiple classes discovered")
  | nameless {head : ClassHead} {body : List Stmt} (none : earlier.countP Stmt.isClass = 0) (empty : head.name = "") :
      Refuses earlier (.classDecl head body) (.malformed "class" "class has no name")

/-- What the resolver answers, by the statements that it was shown. -/
structure Describes (resolver : Resolver) (stmts : List Stmt) : Prop where
  name : ∀ head body, .classDecl head body ∈ stmts → resolver.name = .ok head.name
  name_unresolved : resolver.name = .error (.unresolved "class") ↔ stmts.countP Stmt.isClass = 0
  spaceText : ∀ name body, .space name body ∈ stmts → resolver.spaceText = .ok (Segment.join (spacePath name))
  spaceText_global : stmts.countP Stmt.isSpace = 0 → stmts.countP Stmt.isClass ≠ 0 → resolver.spaceText = .ok ""
  spaceText_unresolved : resolver.spaceText = .error (.unresolved "namespace") ↔
    stmts.countP Stmt.isSpace = 0 ∧ stmts.countP Stmt.isClass = 0
  fullName : (∃ full, resolver.fullName = .ok full) ↔ ∃ name, resolver.name = .ok name

/-! ## Slots -/

/-- The slots of a resolver hold what the statements bring. -/
structure Holds (resolver : Resolver) (stmts : List Stmt) : Prop where
  space : resolver.space.toList = stmts.filterMap Stmt.spacePath?
  className : resolver.className.toList = stmts.filterMap Stmt.className?

theorem length_filterMap_spacePath? (stmts : List Stmt) :
    (stmts.filterMap Stmt.spacePath?).length = stmts.countP Stmt.isSpace := by
  rw [List.length_filterMap_eq_countP]
  refine List.countP_congr fun stmt _ => ?_
  cases stmt <;> simp [Stmt.spacePath?, Stmt.isSpace]

theorem length_filterMap_className? (stmts : List Stmt) :
    (stmts.filterMap Stmt.className?).length = stmts.countP Stmt.isClass := by
  rw [List.length_filterMap_eq_countP]
  refine List.countP_congr fun stmt _ => ?_
  cases stmt <;> simp [Stmt.className?, Stmt.isClass]

private theorem exists_toList_iff {α : Type} {values : List α} :
    (∃ slot : Option α, slot.toList = values) ↔ values.length ≤ 1 := by
  constructor
  · rintro ⟨slot, rfl⟩
    cases slot <;> simp
  · intro room
    cases values with
    | nil => exact ⟨none, rfl⟩
    | cons value rest =>
      obtain rfl := List.eq_nil_of_length_eq_zero (Nat.le_zero.mp (Nat.le_of_succ_le_succ room))
      exact ⟨some value, rfl⟩

private theorem named_iff {stmts : List Stmt} :
    (∀ head body, .classDecl head body ∈ stmts → head.name ≠ "") ↔ "" ∉ stmts.filterMap Stmt.className? := by
  rw [Stmt.mem_filterMap_className?]
  exact ⟨fun named ⟨head, body, member, empty⟩ => named head body member empty,
    fun absent head body member empty => absent ⟨head, body, member, empty⟩⟩

/-- Statements are accepted exactly if the slots have room for what they bring. -/
theorem accepts_iff {stmts : List Stmt} :
    Accepts stmts ↔ (∃ resolver, Holds resolver stmts) ∧ "" ∉ stmts.filterMap Stmt.className? := by
  rw [← named_iff]
  constructor
  · rintro ⟨spaces, classes, named⟩
    rw [← length_filterMap_spacePath?] at spaces
    rw [← length_filterMap_className?] at classes
    obtain ⟨space, path⟩ := exists_toList_iff.mpr spaces
    obtain ⟨className, name⟩ := exists_toList_iff.mpr classes
    exact ⟨⟨⟨space, className⟩, path, name⟩, named⟩
  · rintro ⟨⟨resolver, path, name⟩, named⟩
    refine ⟨?_, ?_, named⟩
    · rw [← length_filterMap_spacePath?]
      exact exists_toList_iff.mp ⟨_, path⟩
    · rw [← length_filterMap_className?]
      exact exists_toList_iff.mp ⟨_, name⟩

section Holds

variable {resolver : Resolver} {stmts : List Stmt} (holds : Holds resolver stmts)
include holds

theorem Holds.countP_isSpace : stmts.countP Stmt.isSpace = resolver.space.toList.length := by
  rw [holds.space, length_filterMap_spacePath?]

theorem Holds.countP_isClass : stmts.countP Stmt.isClass = resolver.className.toList.length := by
  rw [holds.className, length_filterMap_className?]

/-- A resolver that holds what came earlier refuses what cannot follow. -/
theorem Holds.enter_eq_error_iff {stmt : Stmt} {cause : PassError} :
    resolver.enter stmt = .error cause ↔ Refuses stmts stmt cause := by
  have spaces := holds.countP_isSpace
  have classes := holds.countP_isClass
  obtain ⟨space, className⟩ := resolver
  cases stmt with
  | space name body =>
    cases space with
    | none =>
      refine ⟨nofun, fun refused => ?_⟩
      cases refused with
      | secondSpace one => cases one.symm.trans spaces
    | some =>
      constructor
      · intro refused
        obtain rfl := Except.error.inj refused
        exact .secondSpace spaces
      · rintro ⟨⟩
        rfl
  | classDecl head body =>
    cases className with
    | none =>
      constructor
      · intro refused
        change (if head.name = "" then Except.error _ else .ok _) = _ at refused
        split at refused
        · rename_i empty
          obtain rfl := Except.error.inj refused
          exact .nameless classes empty
        · cases refused
      · intro refused
        cases refused with
        | secondClass one => cases one.symm.trans classes
        | nameless _ empty => exact if_pos empty
    | some =>
      constructor
      · intro refused
        obtain rfl := Except.error.inj refused
        exact .secondClass classes
      · intro refused
        cases refused with
        | secondClass => rfl
        | nameless none => cases none.symm.trans classes
  | method | property | constant | throw | expr => exact ⟨nofun, nofun⟩

/-- A resolver that holds what the statements bring answers by them. -/
theorem Holds.describes : resolver.Describes stmts := by
  have spaces := holds.countP_isSpace
  have classes := holds.countP_isClass
  have ofClass {head : ClassHead} {body : List Stmt} (member : .classDecl head body ∈ stmts) :
      resolver.className = some head.name := by
    rw [← Option.mem_toList, holds.className]
    exact Stmt.mem_filterMap_className?.mpr ⟨head, body, member, rfl⟩
  have ofSpace {name : Option SourceName} {body : List Stmt} (member : .space name body ∈ stmts) :
      resolver.space = some (spacePath name) := by
    rw [← Option.mem_toList, holds.space]
    exact List.mem_filterMap.mpr ⟨_, member, rfl⟩
  clear holds
  obtain ⟨space, className⟩ := resolver
  refine ⟨fun head body member => ?_, ?_, fun name body member => ?_, ?_, ?_, ?_⟩
  · rw [Resolver.name, ofClass member]
  · cases className <;> simp [Resolver.name, classes]
  · rw [Resolver.spaceText, ofSpace member]
  · cases space <;> cases className <;> simp [Resolver.spaceText, spaces, classes]
  · cases space <;> cases className <;> simp [Resolver.spaceText, spaces, classes]
  · cases className <;> simp [Resolver.fullName, Resolver.name, pure, Except.pure]

end Holds

/-! ## Runs -/

/-- A run stops at the first statement that cannot be entered, and keeps what it knew there. -/
theorem runFrom_forM_eq_error_iff {state stop : Resolver} {stmts : List Stmt} {cause : PassError} :
    (stmts.forM fun stmt => discard (visitor.enter stmt)).runFrom state = (.error cause, stop) ↔
      ∃ earlier stmt later, stmts = earlier ++ stmt :: later ∧
        (earlier.forM fun stmt => discard (visitor.enter stmt)).runFrom state = (.ok (), stop) ∧
        stop.enter stmt = .error cause := by
  -- a split of the list in front of `first` has no earlier statements, one behind it has `first` among them
  induction stmts generalizing state with
  | nil =>
    refine ⟨nofun, ?_⟩
    rintro ⟨earlier, stmt, later, order, -⟩
    cases earlier <;> cases order
  | cons first rest ih =>
    simp only [List.forM_eq_forM, List.forM_cons] at ih ⊢
    cases entered : state.enter first with
    | error other =>
      rw [Step.runFrom_bind_error (runFrom_enter_error entered)]
      constructor
      · rintro ⟨⟩
        exact ⟨[], first, rest, rfl, rfl, entered⟩
      · rintro ⟨earlier, stmt, later, order, passed, refused⟩
        cases earlier with
        | nil =>
          obtain ⟨rfl, rfl⟩ := List.cons.inj order
          obtain rfl : state = stop := congrArg Prod.snd passed
          rw [Except.error.inj (entered.symm.trans refused)]
        | cons _ earlier =>
          obtain ⟨rfl, -⟩ := List.cons.inj order
          rw [List.forM_cons, Step.runFrom_bind_error (runFrom_enter_error entered)] at passed
          cases passed
    | ok next =>
      rw [Step.runFrom_bind (runFrom_enter entered), ih]
      constructor
      · rintro ⟨earlier, stmt, later, rfl, passed, refused⟩
        refine ⟨first :: earlier, stmt, later, rfl, ?_, refused⟩
        rw [List.forM_cons, Step.runFrom_bind (runFrom_enter entered)]
        exact passed
      · rintro ⟨earlier, stmt, later, order, passed, refused⟩
        cases earlier with
        | nil =>
          obtain ⟨rfl, rfl⟩ := List.cons.inj order
          obtain rfl : state = stop := congrArg Prod.snd passed
          cases entered.symm.trans refused
        | cons _ earlier =>
          obtain ⟨rfl, rfl⟩ := List.cons.inj order
          rw [List.forM_cons, Step.runFrom_bind (runFrom_enter entered)] at passed
          exact ⟨earlier, stmt, later, rfl, passed, refused⟩

/-- A run over statements from the start succeeds with what they bring, if the slots have room for it. -/
private theorem runFrom_start_eq_ok_iff {stmts : List Stmt} {after : Resolver} :
    (stmts.forM fun stmt => discard (visitor.enter stmt)).runFrom {} = (.ok (), after) ↔
      Holds after stmts ∧ "" ∉ stmts.filterMap Stmt.className? := by
  rw [runFrom_forM_eq_ok_iff]
  exact ⟨fun ⟨space, className, named⟩ => ⟨⟨space, className⟩, named⟩,
    fun ⟨⟨space, className⟩, named⟩ => ⟨space, className, named⟩⟩

theorem watches_visitor : visitor.Watches := by
  refine ⟨fun tree state => rfl, fun stmt state => ?_, fun stmt state => rfl, fun tree state => rfl⟩
  rw [runFrom_visitor_enter]
  cases state.enter stmt <;> rfl

/-- The resolver accepts exactly the trees with one namespace and one class at most, at whatever depth, whose class has
a name, and answers by what it found there. Otherwise it stops at the first statement that breaks this rule. What it
knew before does not matter, and walking a tree, which stays as it is, does the same as looking at it. -/
theorem outcome_of_run (start : Resolver) (tree : Tree) :
    (visitor.traverse start tree).1 = (visitor.inspect start tree).1.map (fun _ => tree) ∧
      (visitor.traverse start tree).2.1 = (visitor.inspect start tree).2 ∧
      ((visitor.inspect start tree).1 = .ok () ↔ Accepts tree.statements) ∧
      (∀ cause, (visitor.inspect start tree).1 = .error cause ↔
        ∃ earlier stmt later, tree.statements = earlier ++ stmt :: later ∧ Accepts earlier ∧
          Refuses earlier stmt cause) ∧
      ((visitor.inspect start tree).1 = .ok () → (visitor.inspect start tree).2.Describes tree.statements) := by
  obtain ⟨result, state⟩ := watches_visitor.traverse_eq_inspect start tree
  refine ⟨result, state, ?_⟩
  rw [inspect_eq_forM]
  refine ⟨?_, fun cause => ?_, fun success => ?_⟩
  · rw [accepts_iff]
    constructor
    · intro success
      obtain ⟨holds, named⟩ := runFrom_start_eq_ok_iff.mp (Prod.ext success rfl)
      exact ⟨⟨_, holds⟩, named⟩
    · rintro ⟨⟨after, holds⟩, named⟩
      rw [runFrom_start_eq_ok_iff.mpr ⟨holds, named⟩]
  · constructor
    · intro failure
      obtain ⟨earlier, stmt, later, order, passed, refused⟩ := runFrom_forM_eq_error_iff.mp (Prod.ext failure rfl)
      obtain ⟨holds, named⟩ := runFrom_start_eq_ok_iff.mp passed
      exact ⟨earlier, stmt, later, order, accepts_iff.mpr ⟨⟨_, holds⟩, named⟩, holds.enter_eq_error_iff.mp refused⟩
    · rintro ⟨earlier, stmt, later, order, accepted, refused⟩
      obtain ⟨⟨stop, holds⟩, named⟩ := accepts_iff.mp accepted
      rw [runFrom_forM_eq_error_iff.mpr ⟨earlier, stmt, later, order, runFrom_start_eq_ok_iff.mpr ⟨holds, named⟩,
        holds.enter_eq_error_iff.mpr refused⟩]
  · exact (runFrom_start_eq_ok_iff.mp (Prod.ext success rfl)).1.describes

/-- From a run over another tree: a class in its namespace, and a class inside of another one. -/
theorem outcome_of_run_again :
    (visitor.inspect ⟨some ["Old"], some "Stale"⟩ (enclosedTree none)).2.spaceText = .ok "App" ∧
      (visitor.traverse ⟨some ["Old"], some "Stale"⟩ Visitor.helperTree).1 =
        .error (.ambiguous "multiple classes discovered") := by
  obtain ⟨-, -, -, -, described⟩ := outcome_of_run ⟨some ["Old"], some "Stale"⟩ (enclosedTree none)
  obtain ⟨walked, -, -, refused, -⟩ := outcome_of_run ⟨some ["Old"], some "Stale"⟩ Visitor.helperTree
  constructor
  · exact (described rfl).spaceText _ _ (List.mem_cons_of_mem _ List.mem_cons_self)
  · have first : Accepts (Visitor.helperTree.statements.take 4) := by
      refine ⟨by decide, by decide, fun head body member => ?_⟩
      simp [Visitor.helperTree, Tree.statements_cons, Stmt.body?] at member
      rw [member.1]
      decide
    rw [walked, (refused _).mpr ⟨_, .classDecl { name := "Helper" } [], [], rfl, first, .secondClass rfl⟩]
    rfl

end Resolver

end ClassForge
