import ClassForge.Blueprint.Build
import ClassForge.Proofs.Outcome
import ClassForge.Proofs.Pass.Walk

/-! # What building gives

A blueprint that can be built gives one class in its namespace. Its members are constants, properties and
methods, none of which holds a class.
-/

namespace ClassForge

/-- What a parameter becomes, with the default that is built for it. -/
theorem ParameterBlueprint.build_eq_ok {parameter : ParameterBlueprint} {result : Param}
    (built : parameter.build = .ok result) :
    ∃ fallback, Option.Rel (fun given made => ParameterDefault.build given = .ok made) parameter.fallback fallback ∧
      result = ⟨parameter.name, parameter.byReference, parameter.hint.map ParameterHint.build, fallback⟩ := by
  rw [build] at built
  cases given : parameter.fallback with
  | none =>
    rw [given] at built
    exact ⟨none, .none, (Except.ok.inj built).symm⟩
  | some value =>
    rw [given] at built
    obtain ⟨fallback, made, done⟩ := bind_eq_ok built
    cases inner : value.build with
    | error cause =>
      rw [inner] at made
      cases made
    | ok expr =>
      rw [inner] at made
      obtain rfl := Except.ok.inj made
      exact ⟨some expr, .some inner, (Except.ok.inj done).symm⟩

/-- What a method becomes, with the parameters that are built for it. -/
theorem MethodBlueprint.build_eq_ok {method : MethodBlueprint} {result : Stmt} (built : method.build = .ok result) :
    ∃ params, method.parameters.mapM ParameterBlueprint.build = .ok params ∧
      result = .method ⟨method.name, method.visibility, method.isStatic, method.isAbstract, method.isFinal,
        method.returnsReference, params⟩ (if method.isAbstract then none else some []) := by
  rw [build] at built
  obtain ⟨params, made, done⟩ := bind_eq_ok built
  exact ⟨params, made, (Except.ok.inj done).symm⟩

theorem isInert_mapM_build {methods : List MethodBlueprint} {built : List Stmt}
    (accepted : methods.mapM MethodBlueprint.build = .ok built) : Tree.isInert built = true := by
  rw [Tree.isInert_eq_all, List.all_eq_true]
  intro stmt member
  obtain ⟨method, _, made⟩ := exists_of_mem_mapM accepted member
  obtain ⟨params, -, rfl⟩ := MethodBlueprint.build_eq_ok made
  cases method.isAbstract <;> rfl

theorem Blueprint.inSpace_eq (name : ClassName) (stmt : Stmt) :
    inSpace name stmt = if name.path = [] then [stmt] else [.space (some ⟨name.path, false⟩) [stmt]] := by
  rw [inSpace, ClassName.pathName?, ClassName.isGlobal]
  cases path : name.path with
  | nil => rfl
  | cons => simp

/-- What stands before the methods of a class. -/
def Blueprint.fixedMembers (blueprint : Blueprint) : List Stmt :=
  (blueprint.constants.entries.map fun (name, value) => .constant ⟨name, value⟩) ++
    blueprint.properties.map fun property => .property property.build

theorem isInert_members (blueprint : Blueprint) {methods : List Stmt}
    (inert : Tree.isInert methods = true) : Tree.isInert (blueprint.fixedMembers ++ methods) = true := by
  rw [Tree.isInert_eq_all] at inert ⊢
  simp [Blueprint.fixedMembers, Stmt.isInert, inert]

/-- The class of an accepted blueprint. -/
theorem Blueprint.build_eq_ok {blueprint : Blueprint} {built : Tree} (accepted : blueprint.build = .ok built) :
    ∃ methods, blueprint.methods.mapM MethodBlueprint.build = .ok methods ∧
      built = Blueprint.inSpace blueprint.name
        (.classDecl blueprint.head (blueprint.fixedMembers ++ methods)) := by
  rw [Blueprint.build] at accepted
  obtain ⟨methods, read, made⟩ := bind_eq_ok accepted
  exact ⟨methods, read, (Except.ok.inj made).symm⟩

end ClassForge
