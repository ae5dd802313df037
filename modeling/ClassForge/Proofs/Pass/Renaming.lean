import ClassForge.Pass.Renamer
import ClassForge.Proofs.Pass.HeadEdits
import Mathlib.Data.List.Basic

/-! # When a class can be renamed

On a flat tree of named classes, renaming fails exactly if a namespace that holds a class of the name has several
classes among its own statements. Classes inside of other classes are not counted, and neither are those
outside of all namespaces. Where no class has the name, the tree stays as it is.
-/

namespace ClassForge

/-- How many classes share the namespace of a class of the name, if that is more than one. Classes inside of other
classes do not count. -/
def Stmt.crowd? (matched : ClassName) : Stmt → Option Nat
  | .space name body =>
    let count := (body.filter Stmt.isClass).length
    if matched ∈ Tree.classNamesIn ⟨some (spacePath name)⟩ body ∧ 1 < count then some count else none
  | _ => none

/-- The sizes of all crowds, in the order of the source. -/
def Tree.crowds (matched : ClassName) (tree : Tree) : List Nat :=
  tree.statements.filterMap (Stmt.crowd? matched)

theorem Tree.crowds_cons (matched : ClassName) (stmt : Stmt) (rest : List Stmt) :
    crowds matched (stmt :: rest) =
      (stmt.crowd? matched).toList ++ crowds matched (stmt.body?.getD []) ++ crowds matched rest := by
  rw [crowds, statements_cons, List.filterMap_cons, List.filterMap_append]
  cases stmt.crowd? matched <;> rfl

theorem Stmt.crowd?_of_bare {stmt : Stmt} (bare : stmt.body? = none) (matched : ClassName) :
    stmt.crowd? matched = none := by
  cases stmt with
  | space => cases bare
  | classDecl | method | property | constant | throw | expr => rfl

theorem Tree.crowds_eq_nil_iff {matched : ClassName} {tree : Tree} :
    tree.crowds matched = [] ↔ ∀ name body, .space name body ∈ tree.statements →
      matched ∈ classNamesIn ⟨some (spacePath name)⟩ body → (body.filter Stmt.isClass).length ≤ 1 := by
  rw [crowds, List.filterMap_eq_nil_iff]
  constructor
  · intro free name body member within
    have none := free _ member
    rw [Stmt.crowd?, ite_eq_right_iff] at none
    exact Nat.le_of_not_lt fun several => Option.some_ne_none _ (none ⟨within, several⟩)
  · intro single stmt member
    cases stmt with
    | space name body => exact if_neg fun ⟨within, several⟩ => Nat.not_lt.mpr (single name body member within) several
    | classDecl | method | property | constant | throw | expr => rfl

/-- Without room for namespaces there are no crowds. -/
theorem Tree.crowds_of_isFlatIn {body : List Stmt} (flat : isFlatIn true body = true) (matched : ClassName) :
    crowds matched body = [] := by
  induction body using Tree.induction with
  | nil => rfl
  | space => simp [isFlatIn, Stmt.isFlat] at flat
  | classDecl head body rest within later =>
    rw [isFlatIn, Stmt.isFlat, Bool.and_eq_true] at flat
    rw [crowds_cons, later flat.2, List.append_nil]
    exact within flat.1
  | method head body rest within later =>
    rw [isFlatIn, Stmt.isFlat, Bool.and_eq_true] at flat
    rw [crowds_cons, later flat.2, List.append_nil]
    exact within flat.1
  | leaf stmt rest bare later =>
    rw [isFlatIn, Bool.and_eq_true] at flat
    rw [crowds_cons, later flat.2, Stmt.crowd?_of_bare bare, bare]
    rfl

/-- Editing heads makes no classes and removes none. -/
theorem Tree.length_filter_isClass_mapHeadsIn (edit : ClassName → ClassHead → ClassHead) (scope : Scope)
    (body : List Stmt) :
    ((mapHeadsIn edit scope body).filter Stmt.isClass).length = (body.filter Stmt.isClass).length := by
  have same (stmt : Stmt) : (stmt.mapHeads edit scope).isClass = stmt.isClass := by
    cases stmt with
    | method head body => cases body <;> rfl
    | space | classDecl | property | constant | throw | expr => rfl
  induction body with
  | nil => rfl
  | cons stmt rest ih =>
    rw [mapHeadsIn, List.filter_cons, List.filter_cons, same]
    split
    · rw [List.length_cons, List.length_cons, ih]
    · exact ih

namespace Renaming

variable (matched target : ClassName)

/-- The head of a renamed class. -/
def renamed (head : ClassHead) : ClassHead :=
  { head with name := target.short }

/-! ## Hooks -/

theorem ignores (state : Renaming) {stmt : Stmt} (plain : stmt.spacePath? = none ∧ stmt.className? = none) :
    (visitor matched target).Ignores state stmt := by
  cases stmt with
  | space => cases plain.1
  | classDecl => cases plain.2
  | method | property | constant | throw | expr => exact ⟨rfl, rfl⟩

/-- What becomes of a class: one of the name is renamed, in a namespace for the namespace to follow, outside by
itself. -/
theorem runFrom_leave_class (state : Renaming) {head : ClassHead} (named : head.name ≠ "") (body : List Stmt) :
    ((visitor matched target).leave (.classDecl head body)).runFrom state =
      if state.scope.qualify head.name = matched then
        if state.scope.inSpace then
          (.ok (.replace (.classDecl (renamed target head) body)), { state with inSpace := true })
        else (.ok (moveClass target (.classDecl (renamed target head) body)), state)
      else (.ok .keep, state) := by
  let other := Stmt.classDecl (renamed target head) body
  change ((liftM (state.scope.qualifyClass head) : Step Renaming ClassName) >>= fun found =>
    if found ≠ matched then pure .keep
    else if state.scope.inSpace then do set { state with inSpace := true }; return .replace other
    else return moveClass target other).runFrom state = _
  rw [Scope.qualifyClass, if_neg named, Step.runFrom_bind (Step.runFrom_lift _ _)]
  by_cases same : state.scope.qualify head.name = matched
  · rw [if_neg (not_not_intro same), if_pos same]
    split <;> rfl
  · rw [if_pos same, if_neg same]
    rfl

/-- What becomes of a namespace. -/
theorem runFrom_leave_space (state : Renaming) (name : Option SourceName) (body : List Stmt) :
    ((visitor matched target).leave (.space name body)).runFrom state =
      (if state.inSpace then moveSpace matched target body else .ok .keep, {}) := by
  change ((do set ({} : Renaming); if state.inSpace then moveSpace matched target body else return .keep :
    Step Renaming Edit)).runFrom state = _
  cases state.inSpace with
  | false => rfl
  | true =>
    change (liftM (moveSpace matched target body) : Step Renaming Edit).runFrom {} = (moveSpace matched target body, {})
    cases moveSpace matched target body <;> rfl

/-- A namespace of one class at most can follow it. -/
theorem moveSpace_eq (body : List Stmt) :
    moveSpace matched target body =
      if 1 < (body.filter Stmt.isClass).length then .error (crowded matched (body.filter Stmt.isClass).length)
      else .ok (match target.pathName? with
        | some path => .replace (.space (some path) (body.filter Stmt.isClass))
        | none => .splice (body.filter Stmt.isClass)) := by
  rw [moveSpace]
  split
  · rfl
  · cases target.pathName? <;> rfl

/-! ## Inside of a namespace -/

variable {body : List Stmt}

/-- Inside of a namespace, the classes of the name are renamed where they are, and it is noted that there are some. -/
theorem rewrites_inside (path : List String) (noted : Bool) (flat : Tree.isFlatIn true body = true)
    (named : "" ∉ Tree.headNames body) :
    (visitor matched target).Rewrites ⟨⟨some path⟩, noted⟩ body
      (Tree.mapHeadsIn (editOnly matched (renamed target)) ⟨some path⟩ body)
      ⟨⟨some path⟩, noted || (Tree.classNamesIn ⟨some path⟩ body).contains matched⟩ := by
  induction body using Tree.induction generalizing noted with
  | nil =>
    rw [Tree.classNamesIn, List.contains_nil, Bool.or_false]
    exact .nil
  | space => simp [Tree.isFlatIn, Stmt.isFlat] at flat
  | classDecl head body rest within later =>
    rw [Tree.isFlatIn, Stmt.isFlat, Bool.and_eq_true] at flat
    rw [Tree.notMem_headNames_cons] at named
    have filled : head.name ≠ "" := fun empty => named.1.1 (List.mem_singleton.mpr empty.symm)
    have left := runFrom_leave_class matched target
      ⟨⟨some path⟩, noted || (Tree.classNamesIn ⟨some path⟩ body).contains matched⟩ filled
      (Tree.mapHeadsIn (editOnly matched (renamed target)) ⟨some path⟩ body)
    rw [Tree.mapHeadsIn, Stmt.mapHeads, editOnly, Tree.classNamesIn, Stmt.classNames, List.cons_append,
      List.contains_cons, List.contains_append]
    by_cases same : Scope.qualify ⟨some path⟩ head.name = matched
    · rw [if_pos same] at left ⊢
      have rest := later true flat.2 named.2
      rw [Bool.true_or] at rest
      rw [same, BEq.rfl, Bool.true_or, Bool.or_true]
      exact .node_cons rfl rfl (within noted flat.1 named.1.2) left rfl rest
    · rw [if_neg same] at left ⊢
      rw [beq_eq_false_iff_ne.mpr (Ne.symm same), Bool.false_or, ← Bool.or_assoc]
      exact .node_cons rfl rfl (within noted flat.1 named.1.2) left rfl (later _ flat.2 named.2)
  | method head body rest within later =>
    rw [Tree.isFlatIn, Stmt.isFlat, Bool.and_eq_true] at flat
    rw [Tree.notMem_headNames_cons] at named
    rw [Tree.mapHeadsIn, Stmt.mapHeads, Tree.classNamesIn, Stmt.classNames, List.contains_append, ← Bool.or_assoc]
    exact .node_cons rfl rfl (within noted flat.1 named.1.2) rfl rfl (later _ flat.2 named.2)
  | leaf stmt rest bare later =>
    rw [Tree.isFlatIn, Bool.and_eq_true] at flat
    rw [Tree.notMem_headNames_cons] at named
    have ignored := ignores matched target ⟨⟨some path⟩, noted⟩ (Stmt.eq_none_of_bare bare)
    rw [Tree.mapHeadsIn, Stmt.mapHeads_of_bare bare, Tree.classNamesIn, Stmt.classNames_of_bare bare, List.nil_append]
    exact .keep_cons bare ignored.enter ignored.leave (later noted flat.2 named.2)

/-! ## Where no class has the name -/

theorem rewrites_of_notMem (flat : Tree.isFlatIn false body = true) (named : "" ∉ Tree.headNames body)
    (absent : matched ∉ Tree.classNamesIn {} body) : (visitor matched target).Rewrites {} body body {} := by
  induction body using Tree.induction with
  | nil => exact .nil
  | space name body rest _ later =>
    rw [Tree.isFlatIn, Stmt.isFlat, Bool.and_eq_true] at flat
    rw [Tree.notMem_headNames_cons] at named
    rw [Tree.classNamesIn, Stmt.classNames, List.mem_append, not_or] at absent
    have within := rewrites_inside matched target (spacePath name) false flat.1 named.1.2
    rw [Tree.mapHeadsIn_editOnly_of_notMem absent.1, Bool.false_or,
      Bool.eq_false_iff.mpr fun member => absent.1 (List.contains_iff_mem.mp member)] at within
    exact .node_cons rfl rfl within (runFrom_leave_space ..) rfl (later flat.2 named.2 absent.2)
  | classDecl head body rest within later =>
    rw [Tree.isFlatIn, Stmt.isFlat, Bool.and_eq_true] at flat
    rw [Tree.notMem_headNames_cons] at named
    rw [Tree.classNamesIn, Stmt.classNames, List.cons_append, List.mem_cons, List.mem_append, not_or, not_or] at absent
    have filled : head.name ≠ "" := fun empty => named.1.1 (List.mem_singleton.mpr empty.symm)
    have left := runFrom_leave_class matched target {} filled body
    rw [if_neg (Ne.symm absent.1)] at left
    exact .node_cons rfl rfl (within flat.1 named.1.2 absent.2.1) left rfl (later flat.2 named.2 absent.2.2)
  | method head body rest within later =>
    rw [Tree.isFlatIn, Stmt.isFlat, Bool.and_eq_true] at flat
    rw [Tree.notMem_headNames_cons] at named
    rw [Tree.classNamesIn, Stmt.classNames, List.mem_append, not_or] at absent
    exact .node_cons rfl rfl (within flat.1 named.1.2 absent.1) rfl rfl (later flat.2 named.2 absent.2)
  | leaf stmt rest bare later =>
    rw [Tree.isFlatIn, Bool.and_eq_true] at flat
    rw [Tree.notMem_headNames_cons] at named
    rw [Tree.classNamesIn, Stmt.classNames_of_bare bare, List.nil_append] at absent
    have ignored := ignores matched target {} (Stmt.eq_none_of_bare bare)
    exact .keep_cons bare ignored.enter ignored.leave (later flat.2 named.2 absent)

/-- Where no class has the name, renaming changes nothing. -/
theorem traverse_of_notMem (start : Renaming) {tree : Tree} (flat : tree.isFlat = true) (named : "" ∉ tree.headNames)
    (absent : matched ∉ tree.classNames) : ((visitor matched target).traverse start tree).1 = .ok tree := by
  obtain ⟨total, run⟩ := (rewrites_of_notMem matched target flat named absent).traverse rfl rfl
  rw [run]

/-! ## Where a namespace is crowded -/

/-- A walk over statements that are in no namespace succeeds if there is no crowd, and else stops at the first. -/
private structure StopsAtCrowd (body : List Stmt) : Prop where
  succeeds : Tree.crowds matched body = [] → ∃ result, (visitor matched target).Rewrites {} body result {}
  stops {count : Nat} {counts : List Nat} : Tree.crowds matched body = count :: counts →
    ∀ substitute tally, ∃ stop, ((visitor matched target).walkBody substitute body).runFrom ({}, tally) =
      (.error (crowded matched count), stop)

variable {matched target} {stmt : Stmt} {rest : List Stmt}

/-- Past a statement without a crowd. -/
private theorem StopsAtCrowd.past {front : List Stmt} (first : (visitor matched target).Rewrites {} [stmt] front {})
    (same : Tree.crowds matched (stmt :: rest) = Tree.crowds matched rest) (later : StopsAtCrowd matched target rest) :
    StopsAtCrowd matched target (stmt :: rest) where
  succeeds free := by
    obtain ⟨back, rewrites⟩ := later.succeeds (same ▸ free)
    exact ⟨front ++ back, first.append rewrites⟩
  stops full substitute tally := by
    obtain ⟨total, walked⟩ := first.runFrom_walkBody_append rest substitute tally
    obtain ⟨stop, stopped⟩ := later.stops (same ▸ full) substitute total
    exact ⟨stop, by rw [← List.singleton_append, walked, stopped, Visitor.behind_error]⟩

/-- A class or a method: there may be a crowd inside. -/
private theorem StopsAtCrowd.node (holds : stmt.body? = some body)
    (entered : ((visitor matched target).enter stmt).runFrom {} = (.ok none, {}))
    (leaves : ∀ others, ∃ edit, ((visitor matched target).leave (stmt.withBody others)).runFrom {} = (.ok edit, {}))
    (none : stmt.crowd? matched = none) (within : StopsAtCrowd matched target body)
    (later : StopsAtCrowd matched target rest) : StopsAtCrowd matched target (stmt :: rest) := by
  have split : Tree.crowds matched (stmt :: rest) = Tree.crowds matched body ++ Tree.crowds matched rest := by
    rw [Tree.crowds_cons, none, holds]
    rfl
  cases inner : Tree.crowds matched body with
  | nil =>
    obtain ⟨others, rewrites⟩ := within.succeeds inner
    obtain ⟨edit, left⟩ := leaves others
    rw [inner, List.nil_append] at split
    exact .past (.single holds entered rewrites left rfl) split later
  | cons count counts =>
    rw [inner, List.cons_append] at split
    constructor
    · intro free
      cases split.symm.trans free
    · intro _ _ full substitute tally
      cases split.symm.trans full
      obtain ⟨stop, stopped⟩ := within.stops inner substitute (tally.add .entry)
      exact ⟨stop, Visitor.runFrom_walkBody_inside holds entered stopped rest⟩

/-- A namespace follows a class of the name if it has room for it. -/
private theorem StopsAtCrowd.space (name : Option SourceName) (flat : Tree.isFlatIn true body = true)
    (named : "" ∉ Tree.headNames body) (later : StopsAtCrowd matched target rest) :
    StopsAtCrowd matched target (.space name body :: rest) := by
  let path := spacePath name
  let found := (Tree.classNamesIn ⟨some path⟩ body).contains matched
  let others := Tree.mapHeadsIn (editOnly matched (renamed target)) ⟨some path⟩ body
  have entered : ((visitor matched target).enter (.space name body)).runFrom {} =
      (.ok none, ⟨⟨some path⟩, false⟩) := rfl
  have within := rewrites_inside matched target path false flat named
  rw [Bool.false_or] at within
  have left := runFrom_leave_space matched target ⟨⟨some path⟩, found⟩ name others
  have count : (others.filter Stmt.isClass).length = (body.filter Stmt.isClass).length :=
    Tree.length_filter_isClass_mapHeadsIn ..
  have split : Tree.crowds matched (.space name body :: rest) =
      (Stmt.crowd? matched (.space name body)).toList ++ Tree.crowds matched rest := by
    rw [Tree.crowds_cons]
    change _ ++ Tree.crowds matched body ++ _ = _
    rw [Tree.crowds_of_isFlatIn flat, List.append_nil]
  rw [moveSpace_eq, count] at left
  by_cases crowd : matched ∈ Tree.classNamesIn ⟨some path⟩ body ∧ 1 < (body.filter Stmt.isClass).length
  · rw [Stmt.crowd?, if_pos crowd] at split
    rw [if_pos (List.contains_iff_mem.mpr crowd.1), if_pos crowd.2] at left
    constructor
    · intro free
      cases split.symm.trans free
    · intro _ _ full substitute tally
      cases split.symm.trans full
      obtain ⟨total, walked⟩ := within.runFrom_walkBody substitute (tally.add .entry)
      exact ⟨_, Visitor.runFrom_walkBody_left rfl entered walked left rest⟩
  · rw [Stmt.crowd?, if_neg crowd] at split
    have leaves : ∃ edit, ((visitor matched target).leave (.space name others)).runFrom ⟨⟨some path⟩, found⟩ =
        (.ok edit, {}) := by
      rw [left]
      cases held : found with
      | false => exact ⟨_, rfl⟩
      | true =>
        rw [if_pos rfl, if_neg fun several => crowd ⟨List.contains_iff_mem.mp held, several⟩]
        exact ⟨_, rfl⟩
    obtain ⟨edit, left⟩ := leaves
    exact .past (.single rfl entered within left rfl) split later

variable (target) in
private theorem stopsAtCrowd_of_isFlatIn (flat : Tree.isFlatIn false body = true) (named : "" ∉ Tree.headNames body) :
    StopsAtCrowd matched target body := by
  induction body using Tree.induction with
  | nil => exact ⟨fun _ => ⟨[], .nil⟩, fun full => by cases full⟩
  | space name body rest _ later =>
    rw [Tree.isFlatIn, Stmt.isFlat, Bool.and_eq_true] at flat
    rw [Tree.notMem_headNames_cons] at named
    exact .space name flat.1 named.1.2 (later flat.2 named.2)
  | classDecl head body rest within later =>
    rw [Tree.isFlatIn, Stmt.isFlat, Bool.and_eq_true] at flat
    rw [Tree.notMem_headNames_cons] at named
    have filled : head.name ≠ "" := fun empty => named.1.1 (List.mem_singleton.mpr empty.symm)
    refine .node rfl rfl (fun others => ?_) rfl (within flat.1 named.1.2) (later flat.2 named.2)
    have left := runFrom_leave_class matched target {} filled others
    split at left
    · exact ⟨_, left⟩
    · exact ⟨_, left⟩
  | method head body rest within later =>
    rw [Tree.isFlatIn, Stmt.isFlat, Bool.and_eq_true] at flat
    rw [Tree.notMem_headNames_cons] at named
    exact .node rfl rfl (fun _ => ⟨_, rfl⟩) rfl (within flat.1 named.1.2) (later flat.2 named.2)
  | leaf stmt rest bare later =>
    rw [Tree.isFlatIn, Bool.and_eq_true] at flat
    rw [Tree.notMem_headNames_cons] at named
    have ignored := ignores matched target {} (Stmt.eq_none_of_bare bare)
    refine .past (.keep_cons bare ignored.enter ignored.leave .nil) ?_ (later flat.2 named.2)
    rw [Tree.crowds_cons, Stmt.crowd?_of_bare bare, bare]
    rfl

/-- Renaming fails exactly if a namespace that holds a class of the name has several classes among its own
statements, and then the error tells how many the first such namespace has. -/
theorem traverse_fails_iff_crowded (matched target : ClassName) (start : Renaming) {tree : Tree}
    (flat : tree.isFlat = true) (named : "" ∉ tree.headNames) :
    (∀ cause, ((visitor matched target).traverse start tree).1 = .error cause ↔
      (tree.crowds matched).head?.map (crowded matched) = some cause) ∧
    ((∃ result, ((visitor matched target).traverse start tree).1 = .ok result) ↔
      ∀ name body, .space name body ∈ tree.statements → matched ∈ Tree.classNamesIn ⟨some (spacePath name)⟩ body →
        (body.filter Stmt.isClass).length ≤ 1) := by
  have reset : ((visitor matched target).before tree).runFrom start = (.ok none, {}) := rfl
  have walk : StopsAtCrowd matched target tree := stopsAtCrowd_of_isFlatIn target flat named
  rw [← Tree.crowds_eq_nil_iff]
  cases crowds : tree.crowds matched with
  | nil =>
    obtain ⟨result, rewrites⟩ := walk.succeeds crowds
    obtain ⟨total, run⟩ := rewrites.traverse reset rfl
    rw [run]
    simp
  | cons count counts =>
    obtain ⟨stop, stopped⟩ := walk.stops crowds _ _
    rw [Visitor.traverse_of_walkBody_error reset stopped]
    simp

/-- Two classes of one namespace, with a class of another namespace behind. -/
def crowdedTree : Tree :=
  [.space (some ⟨["App"], false⟩)
      [.classDecl ⟨"User", false, false, none, []⟩ [], .expr (.literal (.int 1)),
        .classDecl ⟨"Role", false, false, none, []⟩ []],
    .space (some ⟨["Lib"], false⟩) [.classDecl ⟨"User", false, false, none, []⟩ []]]

theorem traverse_fails_iff_crowded_apart :
    ((visitor ⟨["App"], "User"⟩ ⟨["Lib"], "Member"⟩).traverse {} crowdedTree).1 =
        .error (.ambiguous "cannot rename App\\User: its namespace declares 2 classes") ∧
      ∃ result, ((visitor ⟨["Lib"], "User"⟩ ⟨["App"], "Member"⟩).traverse {} crowdedTree).1 = .ok result := by
  have flat : crowdedTree.isFlat = true := rfl
  have named : "" ∉ crowdedTree.headNames := by decide
  constructor
  · rw [(traverse_fails_iff_crowded _ _ {} flat named).1]
    decide
  · rw [(traverse_fails_iff_crowded _ _ {} flat named).2, ← Tree.crowds_eq_nil_iff]
    decide

/-- The classes `Foo` and `Bar`, both outside of all namespaces. -/
def globalTree : Tree :=
  [.classDecl ⟨"Foo", false, false, none, []⟩ [], .classDecl ⟨"Bar", false, false, none, []⟩ []]

/-- The class `App\Foo`, with the class `App\Bar` inside of a method. -/
def nestedTree : Tree :=
  [.space (some ⟨["App"], false⟩) [.classDecl ⟨"Foo", false, false, none, []⟩
    [.method ⟨"make", .pub, false, false, false, false, []⟩ (some [.classDecl ⟨"Bar", false, false, none, []⟩ []])]]]

/-- Of two classes outside of all namespaces one is renamed and the other stays behind. A class inside of another
one moves along with it. -/
theorem traverse_fails_iff_crowded_uncounted :
    ((visitor ⟨[], "Foo"⟩ ⟨["Ns"], "Baz"⟩).traverse {} globalTree).1 =
        .ok [.space (some ⟨["Ns"], false⟩) [.classDecl ⟨"Baz", false, false, none, []⟩ []],
          .classDecl ⟨"Bar", false, false, none, []⟩ []] ∧
      ((visitor ⟨["App"], "Bar"⟩ ⟨["Ns"], "Baz"⟩).traverse {} nestedTree).1 =
        .ok [.space (some ⟨["Ns"], false⟩) [.classDecl ⟨"Foo", false, false, none, []⟩
          [.method ⟨"make", .pub, false, false, false, false, []⟩
            (some [.classDecl ⟨"Baz", false, false, none, []⟩ []])]]] :=
  ⟨rfl, rfl⟩

end Renaming

end ClassForge
