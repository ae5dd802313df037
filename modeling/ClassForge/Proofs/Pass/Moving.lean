import ClassForge.Blueprint.Build
import ClassForge.Proofs.Pass.Renaming
import ClassForge.Proofs.Pass.Resolution

/-! # Moving the only class of a tree

A class that is the only one of its tree stands at the top, or in the only namespace of the tree, with
statements of other kinds around it. Renaming moves it to the namespace of its new name, where it is found
again under that name. What stood beside it in a namespace is lost, what stood beside the namespace stays. So
a class that moves twice ends up where it would have moved to at once.
-/

namespace ClassForge

/-- The namespace around a class, with the statements beside the class in there. -/
structure Enclosure where
  name : Option SourceName
  before : List Stmt
  behind : List Stmt
  inert_before : Tree.isInert before = true
  inert_behind : Tree.isInert behind = true

/-- A place for the only class of a tree: at the top, or in the only namespace. There are no classes and no
namespaces among the other statements, and none inside of them. -/
structure Place where
  front : List Stmt
  enclosure : Option Enclosure
  back : List Stmt
  inert_front : Tree.isInert front = true
  inert_back : Tree.isInert back = true

namespace Place

/-- The path of the namespace that the class is in. -/
def path (place : Place) : List String :=
  (place.enclosure.map fun enclosure => spacePath enclosure.name).getD []

/-- The class in its namespace, if there is one. -/
def enclosed (place : Place) (stmt : Stmt) : List Stmt :=
  match place.enclosure with
  | some enclosure => [.space enclosure.name (enclosure.before ++ stmt :: enclosure.behind)]
  | none => [stmt]

/-- The tree with the class in its place. -/
def fill (place : Place) (stmt : Stmt) : Tree :=
  place.front ++ place.enclosed stmt ++ place.back

/-- The place in a namespace of its own, or in none, for a class of the name. -/
def moveTo (target : ClassName) (place : Place) : Place :=
  { place with enclosure := target.pathName?.map fun path => ⟨some path, [], [], rfl, rfl⟩ }

theorem path_moveTo (target : ClassName) (place : Place) : (place.moveTo target).path = target.path := by
  rw [path, moveTo, ClassName.pathName?, ClassName.isGlobal]
  cases target.path <;> rfl

theorem fill_moveTo (target : ClassName) (place : Place) (stmt : Stmt) :
    (place.moveTo target).fill stmt = place.front ++ Blueprint.inSpace target stmt ++ place.back := by
  rw [fill, enclosed, moveTo, Blueprint.inSpace]
  cases target.pathName? <;> rfl

theorem moveTo_moveTo (target other : ClassName) (place : Place) :
    (place.moveTo target).moveTo other = place.moveTo other :=
  rfl

/-- The place for a class of the name with nothing around its namespace. -/
def alone (name : ClassName) : Place :=
  moveTo name ⟨[], none, [], rfl, rfl⟩

theorem path_alone (name : ClassName) : (alone name).path = name.path :=
  path_moveTo name _

theorem fill_alone (name : ClassName) (stmt : Stmt) : (alone name).fill stmt = Blueprint.inSpace name stmt := by
  rw [alone, fill_moveTo, List.nil_append, List.append_nil]

/-! ## What is found in a filled place -/

section Found

variable (place : Place) {head : ClassHead} {members : List Stmt} (inert : Tree.isInert members = true)
include inert

theorem classNames_fill : (place.fill (.classDecl head members)).classNames = [⟨place.path, head.name⟩] := by
  rw [fill, Tree.classNames, Tree.classNamesIn_append, Tree.classNamesIn_append,
    Tree.classNamesIn_of_inert place.inert_front, Tree.classNamesIn_of_inert place.inert_back, enclosed, path]
  cases place.enclosure with
  | none =>
    simp only [Tree.classNamesIn, Stmt.classNames, Tree.classNamesIn_of_inert inert]
    rfl
  | some enclosure =>
    simp only [Tree.classNamesIn, Stmt.classNames, Tree.classNamesIn_append, Tree.classNamesIn_of_inert inert,
      Tree.classNamesIn_of_inert enclosure.inert_before, Tree.classNamesIn_of_inert enclosure.inert_behind]
    rfl

theorem headNames_fill : (place.fill (.classDecl head members)).headNames = [head.name] := by
  rw [← Tree.map_short_classNamesIn {}, ← Tree.classNames, place.classNames_fill inert]
  rfl

theorem spacePaths_fill :
    (place.fill (.classDecl head members)).spacePaths =
      (place.enclosure.map fun enclosure => spacePath enclosure.name).toList := by
  have none {body : List Stmt} (inert : Tree.isInert body = true) : Tree.spacePaths body = [] :=
    (Tree.eq_nil_of_inert inert).1
  rw [fill, Tree.spacePaths_append, Tree.spacePaths_append, none place.inert_front, none place.inert_back, enclosed]
  cases place.enclosure with
  | none =>
    simp only [Tree.spacePaths_cons, Stmt.body?, Option.getD_some, none inert]
    rfl
  | some enclosure =>
    simp only [Tree.spacePaths_cons, Tree.spacePaths_append, Stmt.body?, Option.getD_some, none inert,
      none enclosure.inert_before, none enclosure.inert_behind]
    rfl

theorem isFlat_fill : (place.fill (.classDecl head members)).isFlat = true := by
  apply Tree.isFlatIn_of_length_le
  rw [place.spacePaths_fill inert]
  cases place.enclosure <;> simp

/-- The resolver finds the full name of the class. -/
theorem inspect_fill (named : head.name ≠ "") (start : Resolver) :
    ∃ resolver, Resolver.visitor.inspect start (place.fill (.classDecl head members)) = (.ok (), resolver) ∧
      resolver.fullName = .ok ⟨place.path, head.name⟩ := by
  refine ⟨⟨place.enclosure.map fun enclosure => spacePath enclosure.name, some head.name⟩,
    Resolver.inspect_eq_ok_iff.mpr ⟨place.spacePaths_fill inert, place.headNames_fill inert, ?_⟩,
    Resolver.fullName_eq_ok_iff.mpr ⟨rfl, rfl⟩⟩
  rw [place.headNames_fill inert, List.mem_singleton]
  exact named.symm

end Found

end Place

namespace Renaming

/-! ## The move -/

theorem result_moveClass (target : ClassName) (stmt other : Stmt) :
    (moveClass target stmt).result other = Blueprint.inSpace target stmt := by
  rw [moveClass, Blueprint.inSpace]
  cases target.pathName? <;> rfl

theorem exists_moveSpace (matched target : ClassName) {stmt : Stmt} {body : List Stmt}
    (single : body.filter Stmt.isClass = [stmt]) :
    ∃ edit, moveSpace matched target body = .ok edit ∧ ∀ other, edit.result other = Blueprint.inSpace target stmt := by
  have room : ¬1 < [stmt].length := Nat.lt_irrefl 1
  rw [moveSpace_eq, single, if_neg room, Blueprint.inSpace]
  cases target.pathName? <;> exact ⟨_, rfl, fun _ => rfl⟩

section Move

variable {head : ClassHead} {members : List Stmt} (named : head.name ≠ "") (inert : Tree.isInert members = true)

private theorem rewrites_inert (matched target : ClassName) (state : Renaming) {body : List Stmt}
    (inert : Tree.isInert body = true) : (visitor matched target).Rewrites state body body state :=
  Visitor.rewrites_inert (fun _ plain => ignores _ _ state (Stmt.eq_none_of_inert plain)) body inert

include named inert

/-- A class outside of all namespaces is put into the one of its new name. -/
private theorem rewrites_outside (target : ClassName) :
    (visitor ⟨[], head.name⟩ target).Rewrites {} [.classDecl head members]
      (Blueprint.inSpace target (.classDecl (renamed target head) members)) {} :=
  have left := (runFrom_leave_class ⟨[], head.name⟩ target {} named members).trans (if_pos rfl)
  .single rfl rfl (rewrites_inert _ _ _ inert) left (result_moveClass _ _ _)

/-- A class in a namespace is noted there, and its namespace takes the new name, or goes. -/
private theorem rewrites_enclosed (enclosure : Enclosure) (target : ClassName) :
    (visitor ⟨spacePath enclosure.name, head.name⟩ target).Rewrites {}
      [.space enclosure.name (enclosure.before ++ .classDecl head members :: enclosure.behind)]
      (Blueprint.inSpace target (.classDecl (renamed target head) members)) {} := by
  obtain ⟨name, before, behind, clear, clear'⟩ := enclosure
  let matched : ClassName := ⟨spacePath name, head.name⟩
  let other := Stmt.classDecl (renamed target head) members
  have left : ((visitor matched target).leave (.classDecl head members)).runFrom ⟨⟨some (spacePath name)⟩, false⟩ =
      (.ok (.replace other), ⟨⟨some (spacePath name)⟩, true⟩) :=
    (runFrom_leave_class _ target _ named members).trans (if_pos rfl)
  have within : (visitor matched target).Rewrites ⟨⟨some (spacePath name)⟩, false⟩
      (before ++ .classDecl head members :: behind) (before ++ other :: behind) ⟨⟨some (spacePath name)⟩, true⟩ :=
    (rewrites_inert _ _ _ clear).append
      (.node_cons rfl rfl (rewrites_inert _ _ _ inert) left rfl (rewrites_inert _ _ _ clear'))
  have single : (before ++ other :: behind).filter Stmt.isClass = [other] := by
    rw [List.filter_append, List.filter_cons_of_pos rfl, Tree.filter_isClass_of_inert clear,
      Tree.filter_isClass_of_inert clear', List.nil_append]
  obtain ⟨edit, moved, result⟩ := exists_moveSpace matched target single
  refine .single rfl rfl within ?_ (result _)
  rw [Stmt.withBody, runFrom_leave_space, if_pos rfl, moved]

/-- The class moves to the namespace of its new name. -/
theorem rewrites_fill (place : Place) (target : ClassName) :
    (visitor ⟨place.path, head.name⟩ target).Rewrites {} (place.fill (.classDecl head members))
      ((place.moveTo target).fill (.classDecl (renamed target head) members)) {} := by
  rw [Place.fill_moveTo]
  refine ((rewrites_inert _ _ _ place.inert_front).append ?_).append (rewrites_inert _ _ _ place.inert_back)
  rw [Place.enclosed, Place.path]
  cases place.enclosure with
  | none => exact rewrites_outside named inert target
  | some enclosure => exact rewrites_enclosed named inert enclosure target

theorem traverse_fill (place : Place) (target : ClassName) (start : Renaming) :
    ((visitor ⟨place.path, head.name⟩ target).traverse start (place.fill (.classDecl head members))).1 =
      .ok ((place.moveTo target).fill (.classDecl (renamed target head) members)) := by
  obtain ⟨total, run⟩ := (rewrites_fill named inert place target).traverse rfl rfl
  rw [run]

/-- Under any other name the class is not found. -/
theorem traverse_fill_of_ne (place : Place) {matched : ClassName} (apart : matched ≠ ⟨place.path, head.name⟩)
    (target : ClassName) (start : Renaming) :
    ((visitor matched target).traverse start (place.fill (.classDecl head members))).1 =
      .ok (place.fill (.classDecl head members)) := by
  apply traverse_of_notMem matched target start (place.isFlat_fill inert)
  · rw [place.headNames_fill inert, List.mem_singleton]
    exact named.symm
  · rwa [place.classNames_fill inert, List.mem_singleton]

/-- The only class of a tree is renamed under its own name and under no other. It then is the only statement of
the namespace of its new name, or of none, in the place of what was around it, and the resolver finds it under
that name. From there it can be renamed just as from its first place. -/
theorem rename_moves_class (place : Place) {target : ClassName} (filled : target.short ≠ "") :
    let name : ClassName := ⟨place.path, head.name⟩
    let tree := place.fill (.classDecl head members)
    let moved := place.front ++ Blueprint.inSpace target (.classDecl { head with name := target.short } members) ++
      place.back
    (∀ start, ((visitor name target).traverse start tree).1 = .ok moved) ∧
    (∀ start, ∃ resolver, Resolver.visitor.inspect start moved = (.ok (), resolver) ∧
      resolver.fullName = .ok target) ∧
    (∀ other start again, ((visitor target other).traverse again moved).1 =
      ((visitor name other).traverse start tree).1) ∧
    ∀ matched other start, matched ≠ name → ((visitor matched other).traverse start tree).1 = .ok tree := by
  intro name tree moved
  have same : moved = (place.moveTo target).fill (.classDecl (renamed target head) members) :=
    (place.fill_moveTo target _).symm
  have found : (⟨(place.moveTo target).path, (renamed target head).name⟩ : ClassName) = target := by
    rw [Place.path_moveTo]
    rfl
  have still : (renamed target head).name ≠ "" := filled
  refine ⟨fun start => ?_, fun start => ?_, fun other start again => ?_, fun matched other start apart => ?_⟩
  · rw [same]
    exact traverse_fill named inert place target start
  · have resolved := (place.moveTo target).inspect_fill inert still start
    rwa [found, ← same] at resolved
  · calc
      _ = ((visitor ⟨(place.moveTo target).path, (renamed target head).name⟩ other).traverse again
            ((place.moveTo target).fill (.classDecl (renamed target head) members))).1 := by rw [same, found]
      _ = .ok (((place.moveTo target).moveTo other).fill (.classDecl (renamed other head) members)) :=
        traverse_fill still inert (place.moveTo target) other again
      _ = _ := by rw [Place.moveTo_moveTo, traverse_fill named inert place other start]
  · exact traverse_fill_of_ne named inert place apart other start

end Move

/-- A place in an unnamed namespace, with statements around it in there and around the namespace. -/
def unnamedPlace : Place where
  front := [.expr (.literal (.int 1))]
  enclosure := some ⟨none, [.expr (.literal (.int 2))], [.throw (.literal .null)], rfl, rfl⟩
  back := [.method ⟨"main", .pub, false, false, false, false, []⟩ (some [.expr (.literal (.int 3))])]
  inert_front := rfl
  inert_back := rfl

/-- A final class with a method. -/
def savingClass (name : String) : Stmt :=
  .classDecl ⟨name, false, true, none, []⟩ [.method ⟨"save", .pub, false, false, false, false, []⟩ (some [])]

/-- The class `User` moves to `App\Member`, and from there to `Guest` as if it had moved at once. -/
theorem rename_moves_class_unnamed :
    ((visitor ⟨[], "User"⟩ ⟨["App"], "Member"⟩).traverse {} (unnamedPlace.fill (savingClass "User"))).1 =
        .ok (unnamedPlace.front ++ [.space (some ⟨["App"], false⟩) [savingClass "Member"]] ++ unnamedPlace.back) ∧
      ((visitor ⟨["App"], "Member"⟩ ⟨[], "Guest"⟩).traverse {}
          (unnamedPlace.front ++ [.space (some ⟨["App"], false⟩) [savingClass "Member"]] ++ unnamedPlace.back)).1 =
        ((visitor ⟨[], "User"⟩ ⟨[], "Guest"⟩).traverse {} (unnamedPlace.fill (savingClass "User"))).1 := by
  have named : (⟨"User", false, true, none, []⟩ : ClassHead).name ≠ "" := by decide
  have filled : (⟨["App"], "Member"⟩ : ClassName).short ≠ "" := by decide
  have inert : Tree.isInert [.method ⟨"save", .pub, false, false, false, false, []⟩ (some [])] = true := rfl
  obtain ⟨moves, -, again, -⟩ := rename_moves_class named inert unnamedPlace filled
  exact ⟨moves {}, again ⟨[], "Guest"⟩ {} {}⟩

end Renaming

end ClassForge
