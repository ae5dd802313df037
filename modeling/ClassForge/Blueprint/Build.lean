import ClassForge.Blueprint.Basic

/-! # Building classes from blueprints

The tree of a blueprint is one class, inside of its namespace if it has one. Members come as
constants, properties, methods. Bodies are empty, and abstract methods have none. Every class
that is referred to is named from the root.
-/

namespace ClassForge

/-- A reference to a class from the root. -/
def ClassName.toAbsolute (name : ClassName) : SourceName :=
  name.toSourceName.toAbsolute

def ParameterHint.build : ParameterHint → TypeHint
  | .array => .array
  | .callable => .callable
  | .named name => .named name.toAbsolute

/-- The name of a constant must be one. -/
def ParameterDefault.build : ParameterDefault → Except NameError Expr
  | .literal value => .ok (.literal value)
  | .constant name => Expr.constant <$> SourceName.ofText name

def ParameterBlueprint.build (parameter : ParameterBlueprint) : Except NameError Param := do
  let fallback ← match parameter.fallback with
    | some value => some <$> value.build
    | none => pure none
  return ⟨parameter.name, parameter.byReference, parameter.hint.map ParameterHint.build, fallback⟩

def MethodBlueprint.build (method : MethodBlueprint) : Except NameError Stmt := do
  let params ← method.parameters.mapM ParameterBlueprint.build
  return .method
    ⟨method.name, method.visibility, method.isStatic, method.isAbstract, method.isFinal,
      method.returnsReference, params⟩
    (if method.isAbstract then none else some [])

def PropertyBlueprint.build (property : PropertyBlueprint) : Property :=
  ⟨property.name, property.visibility, property.isStatic,
    if property.hasInitial then some (property.initial.getD .null) else none⟩

namespace Blueprint

/-- What the class says before its body. -/
def head (blueprint : Blueprint) : ClassHead :=
  ⟨blueprint.name.short, blueprint.isAbstract, blueprint.isFinal,
    blueprint.parent.map ClassName.toAbsolute, blueprint.interfaces.map ClassName.toAbsolute⟩

/-- A class in its namespace, or by itself if it is global. -/
def inSpace (name : ClassName) (stmt : Stmt) : Tree :=
  match name.pathName? with
  | some path => [.space (some path) [stmt]]
  | none => [stmt]

/-- The tree of the described class; it fails at the first constant that is no name. -/
def build (blueprint : Blueprint) : Except NameError Tree := do
  let methods ← blueprint.methods.mapM MethodBlueprint.build
  let constants := blueprint.constants.entries.map fun (name, value) => Stmt.constant ⟨name, value⟩
  let properties := blueprint.properties.map fun property => Stmt.property property.build
  return inSpace blueprint.name (.classDecl blueprint.head (constants ++ properties ++ methods))

end Blueprint

end ClassForge
