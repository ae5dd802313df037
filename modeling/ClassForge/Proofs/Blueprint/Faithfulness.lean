import ClassForge.Proofs.Blueprint.Building
import Mathlib.Data.List.Forall2

/-! # What building keeps of a blueprint

Two blueprints that can be built give the same tree exactly if they say the same, where the names of constants count as
they are read and an initial value counts only if it is declared. A blueprint can be built exactly if all constants that
are defaults can be read as names; otherwise building fails as the first of them does.
-/

namespace ClassForge

/-! ## Blueprints that say the same -/

/-- The same value, or names of the same constant. -/
inductive ParameterDefault.Same : ParameterDefault → ParameterDefault → Prop
  | literal (value : Literal) : Same (.literal value) (.literal value)
  | constant {text other : String} {name : SourceName} (read : SourceName.ofText text = .ok name)
      (read' : SourceName.ofText other = .ok name) : Same (.constant text) (.constant other)

structure ParameterBlueprint.Same (a b : ParameterBlueprint) : Prop where
  name : a.name = b.name
  byReference : a.byReference = b.byReference
  hint : a.hint = b.hint
  fallback : Option.Rel ParameterDefault.Same a.fallback b.fallback

structure MethodBlueprint.Same (a b : MethodBlueprint) : Prop where
  name : a.name = b.name
  visibility : a.visibility = b.visibility
  isStatic : a.isStatic = b.isStatic
  isAbstract : a.isAbstract = b.isAbstract
  isFinal : a.isFinal = b.isFinal
  returnsReference : a.returnsReference = b.returnsReference
  parameters : List.Forall₂ ParameterBlueprint.Same a.parameters b.parameters

/-- A missing initial value is null, and a value that is not declared does not count. -/
structure PropertyBlueprint.Same (a b : PropertyBlueprint) : Prop where
  name : a.name = b.name
  visibility : a.visibility = b.visibility
  isStatic : a.isStatic = b.isStatic
  hasInitial : a.hasInitial = b.hasInitial
  initial : a.hasInitial = true → a.initial.getD .null = b.initial.getD .null

structure Blueprint.Same (a b : Blueprint) : Prop where
  name : a.name = b.name
  isAbstract : a.isAbstract = b.isAbstract
  isFinal : a.isFinal = b.isFinal
  parent : a.parent = b.parent
  interfaces : a.interfaces = b.interfaces
  constants : a.constants = b.constants
  properties : List.Forall₂ PropertyBlueprint.Same a.properties b.properties
  methods : List.Forall₂ MethodBlueprint.Same a.methods b.methods

/-! ## What each part keeps -/

theorem ClassName.eq_of_path {a b : ClassName} (path : a.path = b.path) (short : a.short = b.short) : a = b := by
  cases a
  cases b
  cases path
  cases short
  rfl

theorem ConstantTable.eq_of_entries {a b : ConstantTable} (entries : a.entries = b.entries) : a = b := by
  cases a
  cases b
  cases entries
  rfl

theorem ClassName.toAbsolute_inj {a b : ClassName} : a.toAbsolute = b.toAbsolute ↔ a = b := by
  obtain ⟨path, short⟩ := a
  obtain ⟨path', short'⟩ := b
  simp [toAbsolute, SourceName.toAbsolute, toSourceName, segments]

theorem ParameterHint.build_inj {a b : ParameterHint} : a.build = b.build ↔ a = b := by
  cases a <;> cases b <;> simp [build, ClassName.toAbsolute_inj]

/-- If results are the same exactly for related values, this goes for lists of them. -/
theorem mapM_eq_iff_forall₂ {ε α β : Type} {read : α → Except ε β} {related : α → α → Prop}
    (faithful : ∀ {a b x y}, read a = .ok x → read b = .ok y → (x = y ↔ related a b)) {as bs : List α} {xs ys : List β}
    (done : as.mapM read = .ok xs) (done' : bs.mapM read = .ok ys) : xs = ys ↔ List.Forall₂ related as bs := by
  induction as generalizing bs xs ys with
  | nil =>
    obtain rfl := Except.ok.inj done
    cases bs with
    | nil =>
      obtain rfl := Except.ok.inj done'
      simp
    | cons b bs =>
      obtain ⟨y, ys, -, -, rfl⟩ := mapM_cons_eq_ok done'
      simp
  | cons a as ih =>
    obtain ⟨x, xs, first, rest, rfl⟩ := mapM_cons_eq_ok done
    cases bs with
    | nil =>
      obtain rfl := Except.ok.inj done'
      simp
    | cons b bs =>
      obtain ⟨y, ys, first', rest', rfl⟩ := mapM_cons_eq_ok done'
      rw [List.cons.injEq, List.forall₂_cons, faithful first first', ih rest rest']

private theorem ParameterDefault.exists_of_build_constant {text : String} {result : Expr}
    (built : (ParameterDefault.constant text).build = .ok result) :
    ∃ name, SourceName.ofText text = .ok name ∧ result = .constant name := by
  rw [build] at built
  cases read : SourceName.ofText text with
  | error cause =>
    rw [read] at built
    cases built
  | ok name =>
    rw [read] at built
    exact ⟨name, rfl, (Except.ok.inj built).symm⟩

theorem ParameterDefault.build_eq_iff {a b : ParameterDefault} {x y : Expr} (built : a.build = .ok x)
    (built' : b.build = .ok y) : x = y ↔ a.Same b := by
  cases a with
  | literal value =>
    obtain rfl := Except.ok.inj built
    cases b with
    | literal other =>
      obtain rfl := Except.ok.inj built'
      constructor
      · rintro ⟨⟩
        exact .literal value
      · rintro ⟨⟩
        rfl
    | constant text =>
      obtain ⟨name, -, rfl⟩ := exists_of_build_constant built'
      exact ⟨nofun, nofun⟩
  | constant text =>
    obtain ⟨name, read, rfl⟩ := exists_of_build_constant built
    cases b with
    | literal other =>
      obtain rfl := Except.ok.inj built'
      exact ⟨nofun, nofun⟩
    | constant other =>
      obtain ⟨name', read', rfl⟩ := exists_of_build_constant built'
      constructor
      · rintro ⟨⟩
        exact .constant read read'
      · intro same
        cases same with
        | constant first second =>
          rw [Except.ok.inj (read.symm.trans first), Except.ok.inj (read'.symm.trans second)]

theorem ParameterBlueprint.build_eq_iff {a b : ParameterBlueprint} {x y : Param} (built : a.build = .ok x)
    (built' : b.build = .ok y) : x = y ↔ a.Same b := by
  obtain ⟨fallback, made, rfl⟩ := build_eq_ok built
  obtain ⟨fallback', made', rfl⟩ := build_eq_ok built'
  have defaults : fallback = fallback' ↔ Option.Rel ParameterDefault.Same a.fallback b.fallback := by
    generalize a.fallback = given at made
    generalize b.fallback = given' at made'
    cases made with
    | none => cases made' <;> simp
    | some inner =>
      cases made' with
      | none => simp
      | some inner' => rw [Option.some.injEq, Option.rel_some_some, ParameterDefault.build_eq_iff inner inner']
  have hints : a.hint.map ParameterHint.build = b.hint.map ParameterHint.build ↔ a.hint = b.hint :=
    (Option.map_injective fun _ _ => ParameterHint.build_inj.mp).eq_iff
  rw [Param.mk.injEq, hints, defaults]
  exact ⟨fun ⟨name, byReference, hint, fallback⟩ => ⟨name, byReference, hint, fallback⟩,
    fun ⟨name, byReference, hint, fallback⟩ => ⟨name, byReference, hint, fallback⟩⟩

theorem MethodBlueprint.build_eq_iff {a b : MethodBlueprint} {x y : Stmt} (built : a.build = .ok x)
    (built' : b.build = .ok y) : x = y ↔ a.Same b := by
  obtain ⟨params, made, rfl⟩ := build_eq_ok built
  obtain ⟨params', made', rfl⟩ := build_eq_ok built'
  have parameters := mapM_eq_iff_forall₂ ParameterBlueprint.build_eq_iff made made'
  rw [Stmt.method.injEq, MethodHead.mk.injEq, parameters]
  constructor
  · rintro ⟨⟨name, visibility, isStatic, isAbstract, isFinal, byRef, params⟩, -⟩
    exact ⟨name, visibility, isStatic, isAbstract, isFinal, byRef, params⟩
  · rintro ⟨name, visibility, isStatic, isAbstract, isFinal, byRef, params⟩
    exact ⟨⟨name, visibility, isStatic, isAbstract, isFinal, byRef, params⟩, by rw [isAbstract]⟩

theorem PropertyBlueprint.build_inj {a b : PropertyBlueprint} : a.build = b.build ↔ a.Same b := by
  obtain ⟨name, visibility, isStatic, hasInitial, initial⟩ := a
  obtain ⟨name', visibility', isStatic', hasInitial', initial'⟩ := b
  rw [build, build, Property.mk.injEq]
  constructor
  · rintro ⟨rfl, rfl, rfl, same⟩
    cases hasInitial with
    | false =>
      cases hasInitial' with
      | false => exact ⟨rfl, rfl, rfl, rfl, nofun⟩
      | true => cases same
    | true =>
      cases hasInitial' with
      | false => cases same
      | true => exact ⟨rfl, rfl, rfl, rfl, fun _ => Option.some.inj same⟩
  · rintro ⟨rfl, rfl, rfl, rfl, same⟩
    refine ⟨rfl, rfl, rfl, ?_⟩
    cases hasInitial with
    | false => rfl
    | true => exact congrArg some (same rfl)

/-! ## What the whole keeps -/

/-- The name and the value of a constant. -/
def Stmt.constant? : Stmt → Option (String × Literal)
  | .constant value => some (value.name, value.value)
  | _ => none

def Stmt.property? : Stmt → Option Property
  | .property value => some value
  | _ => none

namespace Blueprint

theorem inSpace_inj {a b : ClassName} {head head' : ClassHead} {members members' : List Stmt} :
    inSpace a (.classDecl head members) = inSpace b (.classDecl head' members') ↔
      a.path = b.path ∧ head = head' ∧ members = members' := by
  rw [inSpace_eq, inSpace_eq]
  split <;> split <;> simp_all [eq_comm]

theorem filterMap_constant?_fixedMembers (blueprint : Blueprint) :
    blueprint.fixedMembers.filterMap Stmt.constant? = blueprint.constants.entries := by
  simp [fixedMembers, List.filterMap_map, Function.comp_def, Stmt.constant?]

theorem filterMap_property?_fixedMembers (blueprint : Blueprint) :
    blueprint.fixedMembers.filterMap Stmt.property? = blueprint.properties.map PropertyBlueprint.build := by
  simp [fixedMembers, List.filterMap_map, Function.comp_def, Stmt.property?]

section Members

variable {a b : Blueprint} {methods methods' : List Stmt}

/-- What does not hold of methods is found among the other members. -/
private theorem filterMap_members {α : Type} {pick : Stmt → Option α}
    (silent : ∀ head body, pick (.method head body) = none)
    (built : a.methods.mapM MethodBlueprint.build = .ok methods) :
    (a.fixedMembers ++ methods).filterMap pick = a.fixedMembers.filterMap pick := by
  have others : methods.filterMap pick = [] := by
    rw [List.filterMap_eq_nil_iff]
    intro stmt member
    obtain ⟨method, -, made⟩ := exists_of_mem_mapM built member
    obtain ⟨params, -, rfl⟩ := MethodBlueprint.build_eq_ok made
    exact silent _ _
  rw [List.filterMap_append, others, List.append_nil]

private theorem fixedMembers_congr (constants : a.constants.entries = b.constants.entries)
    (properties : a.properties.map PropertyBlueprint.build = b.properties.map PropertyBlueprint.build) :
    a.fixedMembers = b.fixedMembers := by
  have declared (blueprint : Blueprint) : blueprint.properties.map (fun property => Stmt.property property.build) =
      (blueprint.properties.map PropertyBlueprint.build).map .property := (List.map_map ..).symm
  rw [fixedMembers, fixedMembers, constants, declared, declared, properties]

/-- Constants, properties and methods stand in one list and can still be told apart. -/
theorem members_inj (built : a.methods.mapM MethodBlueprint.build = .ok methods)
    (built' : b.methods.mapM MethodBlueprint.build = .ok methods') :
    a.fixedMembers ++ methods = b.fixedMembers ++ methods' ↔
      a.constants.entries = b.constants.entries ∧
        a.properties.map PropertyBlueprint.build = b.properties.map PropertyBlueprint.build ∧ methods = methods' := by
  constructor
  · intro same
    -- how many constants and properties there are is not known beforehand, so they are picked out on both sides
    have constants := congrArg (List.filterMap Stmt.constant?) same
    have properties := congrArg (List.filterMap Stmt.property?) same
    rw [filterMap_members (fun _ _ => rfl) built, filterMap_members (fun _ _ => rfl) built'] at constants properties
    rw [filterMap_constant?_fixedMembers, filterMap_constant?_fixedMembers] at constants
    rw [filterMap_property?_fixedMembers, filterMap_property?_fixedMembers] at properties
    rw [fixedMembers_congr constants properties] at same
    exact ⟨constants, properties, List.append_cancel_left same⟩
  · rintro ⟨constants, properties, rfl⟩
    rw [fixedMembers_congr constants properties]

end Members

theorem head_inj {a b : Blueprint} :
    a.head = b.head ↔ a.name.short = b.name.short ∧ a.isAbstract = b.isAbstract ∧ a.isFinal = b.isFinal ∧
      a.parent = b.parent ∧ a.interfaces = b.interfaces := by
  have faithful : Function.Injective ClassName.toAbsolute := fun _ _ => ClassName.toAbsolute_inj.mp
  rw [head, head, ClassHead.mk.injEq, (Option.map_injective faithful).eq_iff,
    (List.map_injective_iff.mpr faithful).eq_iff]

theorem properties_eq_iff {a b : Blueprint} :
    a.properties.map PropertyBlueprint.build = b.properties.map PropertyBlueprint.build ↔
      List.Forall₂ PropertyBlueprint.Same a.properties b.properties := by
  rw [← List.forall₂_eq_eq_eq, List.forall₂_map_left_iff, List.forall₂_map_right_iff]
  simp only [PropertyBlueprint.build_inj]

/-- Blueprints give the same tree exactly if they say the same. -/
theorem build_eq_iff {a b : Blueprint} {tree other : Tree} (built : a.build = .ok tree) (built' : b.build = .ok other) :
    tree = other ↔ a.Same b := by
  obtain ⟨methods, made, rfl⟩ := build_eq_ok built
  obtain ⟨methods', made', rfl⟩ := build_eq_ok built'
  rw [inSpace_inj, head_inj, members_inj made made', properties_eq_iff,
    mapM_eq_iff_forall₂ MethodBlueprint.build_eq_iff made made']
  constructor
  · rintro ⟨path, ⟨short, isAbstract, isFinal, parent, interfaces⟩, constants, properties, methods⟩
    exact ⟨ClassName.eq_of_path path short, isAbstract, isFinal, parent, interfaces,
      ConstantTable.eq_of_entries constants, properties, methods⟩
  · rintro ⟨name, isAbstract, isFinal, parent, interfaces, constants, properties, methods⟩
    rw [name, constants]
    exact ⟨rfl, ⟨rfl, isAbstract, isFinal, parent, interfaces⟩, rfl, properties, methods⟩

end Blueprint

/-! ## Constants that are no names -/

/-- The constant that is the default of a parameter, if there is one. -/
def ParameterBlueprint.constantDefaults (parameter : ParameterBlueprint) : List String :=
  match parameter.fallback with
  | some (.constant text) => [text]
  | _ => []

/-- The constants that are defaults, in the order of the parameters. -/
def MethodBlueprint.constantDefaults (method : MethodBlueprint) : List String :=
  method.parameters.flatMap ParameterBlueprint.constantDefaults

/-- The constants that are defaults, method by method. -/
def Blueprint.constantDefaults (blueprint : Blueprint) : List String :=
  blueprint.methods.flatMap MethodBlueprint.constantDefaults

private theorem findSome?_flatMap {α β γ : Type} (values : List α) (parts : α → List β) (pick : β → Option γ) :
    (values.flatMap parts).findSome? pick = values.findSome? fun value => (parts value).findSome? pick := by
  induction values with
  | nil => rfl
  | cons value rest ih =>
    rw [List.flatMap_cons, List.findSome?_append, ih, List.findSome?_cons]
    cases (parts value).findSome? pick <;> rfl

theorem ParameterBlueprint.failure?_build (parameter : ParameterBlueprint) :
    failure? parameter.build = parameter.constantDefaults.findSome? fun text => failure? (SourceName.ofText text) := by
  rw [build, constantDefaults]
  cases parameter.fallback with
  | none => rfl
  | some value =>
    cases value with
    | literal => rfl
    | constant text =>
      refine (failure?_bind_pure _ _).trans ?_
      rw [failure?_map, ParameterDefault.build, failure?_map, List.findSome?_singleton]

theorem MethodBlueprint.failure?_build (method : MethodBlueprint) :
    failure? method.build = method.constantDefaults.findSome? fun text => failure? (SourceName.ofText text) := by
  rw [build, failure?_bind_pure, failure?_mapM, constantDefaults, findSome?_flatMap]
  simp only [ParameterBlueprint.failure?_build]

/-- Building fails as reading the first default fails that is no name. -/
theorem Blueprint.failure?_build (blueprint : Blueprint) :
    failure? blueprint.build =
      blueprint.constantDefaults.findSome? fun text => failure? (SourceName.ofText text) := by
  rw [build, failure?_bind_pure, failure?_mapM, constantDefaults, findSome?_flatMap]
  simp only [MethodBlueprint.failure?_build]

/-- Building loses nothing that counts: blueprints that can be built give the same tree exactly if they say the same. It
succeeds exactly if all constants that are defaults can be read, and otherwise it fails as the first of them does. -/
theorem Blueprint.build_faithful :
    (∀ (a b : Blueprint) (tree other : Tree), a.build = .ok tree → b.build = .ok other → (tree = other ↔ a.Same b)) ∧
      ∀ blueprint : Blueprint,
        ((∃ tree, blueprint.build = .ok tree) ↔
          ∀ text ∈ blueprint.constantDefaults, ∃ name, SourceName.ofText text = .ok name) ∧
        ∀ cause, blueprint.build = .error cause ↔
          ∃ earlier text later, blueprint.constantDefaults = earlier ++ text :: later ∧
            (∀ other ∈ earlier, ∃ name, SourceName.ofText other = .ok name) ∧
            SourceName.ofText text = .error cause := by
  refine ⟨fun a b tree other => build_eq_iff, fun blueprint => ⟨?_, fun cause => ?_⟩⟩
  · rw [← failure?_eq_none_iff, failure?_build, List.findSome?_eq_none_iff]
    simp only [failure?_eq_none_iff]
  · rw [← failure?_eq_some_iff, failure?_build, List.findSome?_eq_some_iff]
    simp only [failure?_eq_some_iff, failure?_eq_none_iff]
    constructor
    · rintro ⟨earlier, text, later, order, fails, reads⟩
      exact ⟨earlier, text, later, order, reads, fails⟩
    · rintro ⟨earlier, text, later, order, reads, fails⟩
      exact ⟨earlier, text, later, order, fails, reads⟩

/-- A class with a property whose value does not count, and with a parameter whose default is a constant. -/
def limitedBlueprint (value : Option Literal) (constant : String) : Blueprint where
  name := ⟨["App"], "User"⟩
  properties := [{ name := "id", initial := value }, { name := "tag", hasInitial := true }]
  methods := [{ name := "id" },
    { name := "save", parameters := [{ name := "limit", fallback := some (.constant constant) }] }]

theorem Blueprint.build_faithful_limited :
    ∃ tree, (limitedBlueprint none "Lib\\MAX").build = .ok tree ∧
      (limitedBlueprint (some (.int 1)) "Lib\\MAX\\").build = .ok tree ∧
      (limitedBlueprint none "\\Lib\\MAX").build ≠ .ok tree ∧
      (limitedBlueprint none "\\").build = .error .empty := by
  obtain ⟨same, fails⟩ := build_faithful
  have relative : SourceName.ofText "Lib\\MAX" = .ok ⟨["Lib", "MAX"], false⟩ := rfl
  have trailing : SourceName.ofText "Lib\\MAX\\" = .ok ⟨["Lib", "MAX"], false⟩ := rfl
  have absolute : SourceName.ofText "\\Lib\\MAX" = .ok ⟨["Lib", "MAX"], true⟩ := rfl
  obtain ⟨tree, built⟩ := (fails (limitedBlueprint none "Lib\\MAX")).1.mpr fun text member =>
    List.mem_singleton.mp member ▸ ⟨_, relative⟩
  obtain ⟨other, built'⟩ := (fails (limitedBlueprint (some (.int 1)) "Lib\\MAX\\")).1.mpr fun text member =>
    List.mem_singleton.mp member ▸ ⟨_, trailing⟩
  have alike : (limitedBlueprint none "Lib\\MAX").Same (limitedBlueprint (some (.int 1)) "Lib\\MAX\\") := by
    refine ⟨rfl, rfl, rfl, rfl, rfl, rfl, ?_, ?_⟩
    · exact .cons ⟨rfl, rfl, rfl, rfl, nofun⟩ (.cons ⟨rfl, rfl, rfl, rfl, fun _ => rfl⟩ .nil)
    · have default := Option.Rel.some (ParameterDefault.Same.constant relative trailing)
      exact .cons ⟨rfl, rfl, rfl, rfl, rfl, rfl, .nil⟩
        (.cons ⟨rfl, rfl, rfl, rfl, rfl, rfl, .cons ⟨rfl, rfl, rfl, default⟩ .nil⟩ .nil)
  obtain rfl := (same _ _ tree other built built').mpr alike
  refine ⟨tree, built, built', fun built'' => ?_, ((fails _).2 .empty).mpr ⟨[], "\\", [], rfl, nofun, rfl⟩⟩
  have unlike := (same _ _ tree tree built built'').mp rfl
  cases unlike.methods with
  | cons _ later =>
    cases later with
    | cons method _ =>
      cases method.parameters with
      | cons parameter _ =>
        cases parameter.fallback with
        | some default =>
          cases default with
          | constant read read' =>
            cases read.symm.trans relative
            cases read'.symm.trans absolute

end ClassForge
