import ClassForge.Blueprint.Basic
import ClassForge.Tree.Codec

/-! # Blueprints as JSON

All fields but the names may be left out.
-/

namespace ClassForge

/-! ## Writing -/

def ClassName.toJson (name : ClassName) : Json :=
  .str name.text

def ParameterHint.toJson : ParameterHint → Json
  | .array => .str "array"
  | .callable => .str "callable"
  | .named name => Json.tagged "class" name.toJson

def ParameterDefault.toJson : ParameterDefault → Json
  | .literal value => Json.tagged "literal" value.toJson
  | .constant name => Json.tagged "constant" (.str name)

def ParameterBlueprint.toJson (parameter : ParameterBlueprint) : Json :=
  Json.object [
    ("name", .str parameter.name), ("by_reference", .bool parameter.byReference),
    ("type_hint", Json.ofOption ParameterHint.toJson parameter.hint),
    ("default", Json.ofOption ParameterDefault.toJson parameter.fallback)]

def MethodBlueprint.toJson (method : MethodBlueprint) : Json :=
  Json.object [
    ("name", .str method.name), ("visibility", method.visibility.toJson),
    ("is_static", .bool method.isStatic), ("is_abstract", .bool method.isAbstract),
    ("is_final", .bool method.isFinal), ("returns_reference", .bool method.returnsReference),
    ("parameters", .arr (method.parameters.map ParameterBlueprint.toJson))]

def PropertyBlueprint.toJson (property : PropertyBlueprint) : Json :=
  Json.object [
    ("name", .str property.name), ("visibility", property.visibility.toJson),
    ("is_static", .bool property.isStatic), ("has_default", .bool property.hasInitial),
    ("default", Json.ofOption Literal.toJson property.initial)]

def Blueprint.toJson (blueprint : Blueprint) : Json :=
  Json.object [
    ("name", blueprint.name.toJson), ("is_abstract", .bool blueprint.isAbstract),
    ("is_final", .bool blueprint.isFinal),
    ("parent", Json.ofOption ClassName.toJson blueprint.parent),
    ("interfaces", .arr (blueprint.interfaces.map ClassName.toJson)),
    ("constants", (Literal.map blueprint.constants.entries).toJson),
    ("properties", .arr (blueprint.properties.map PropertyBlueprint.toJson)),
    ("methods", .arr (blueprint.methods.map MethodBlueprint.toJson))]

/-! ## Reading -/

def ClassName.ofJson : Json → Except Json.Rejection ClassName :=
  Json.readChecked ClassName.ofText NameError.message

def ParameterHint.ofJson : Json → Except Json.Rejection ParameterHint :=
  Json.readTagged
    (fun
      | "array" => some .array
      | "callable" => some .callable
      | _ => none)
    (fun
      | "class" => some fun content => ParameterHint.named <$> ClassName.ofJson content
      | _ => none)

def ParameterDefault.ofJson : Json → Except Json.Rejection ParameterDefault :=
  Json.readTagged (fun _ => none)
    (fun
      | "literal" => some fun content => ParameterDefault.literal <$> Literal.ofJson content
      | "constant" => some fun content => ParameterDefault.constant <$> Json.readString content
      | _ => none)

def ConstantTable.ofJson : Json → Except Json.Rejection ConstantTable
  | .obj members => ConstantTable.ofEntries <$> Literal.entriesOfJson members
  | _ => .error .shape

def ParameterBlueprint.ofJson : Json → Except Json.Rejection ParameterBlueprint :=
  Json.Fields.record <|
    (Json.Fields.required "name" Json.readString).map ParameterBlueprint.mk
      |>.and (.defaulted "by_reference" false Json.readBool)
      |>.and (.defaulted "type_hint" none (Json.readOption ParameterHint.ofJson))
      |>.and (.defaulted "default" none (Json.readOption ParameterDefault.ofJson))

def MethodBlueprint.ofJson : Json → Except Json.Rejection MethodBlueprint :=
  Json.Fields.record <|
    (Json.Fields.required "name" Json.readString).map MethodBlueprint.mk
      |>.and (.defaulted "visibility" .pub Visibility.ofJson)
      |>.and (.defaulted "is_static" false Json.readBool)
      |>.and (.defaulted "is_abstract" false Json.readBool)
      |>.and (.defaulted "is_final" false Json.readBool)
      |>.and (.defaulted "returns_reference" false Json.readBool)
      |>.and (.defaulted "parameters" [] (Json.readList ParameterBlueprint.ofJson))

def PropertyBlueprint.ofJson : Json → Except Json.Rejection PropertyBlueprint :=
  Json.Fields.record <|
    (Json.Fields.required "name" Json.readString).map PropertyBlueprint.mk
      |>.and (.defaulted "visibility" .pub Visibility.ofJson)
      |>.and (.defaulted "is_static" false Json.readBool)
      |>.and (.defaulted "has_default" false Json.readBool)
      |>.and (.defaulted "default" none (Json.readOption Literal.ofJson))

namespace Blueprint

def ofJson : Json → Except Json.Rejection Blueprint :=
  Json.Fields.record <|
    (Json.Fields.required "name" ClassName.ofJson).map Blueprint.mk
      |>.and (.defaulted "is_abstract" false Json.readBool)
      |>.and (.defaulted "is_final" false Json.readBool)
      |>.and (.defaulted "parent" none (Json.readOption ClassName.ofJson))
      |>.and (.defaulted "interfaces" [] (Json.readList ClassName.ofJson))
      |>.and (.defaulted "constants" ConstantTable.empty ConstantTable.ofJson)
      |>.and (.defaulted "properties" [] (Json.readList PropertyBlueprint.ofJson))
      |>.and (.defaulted "methods" [] (Json.readList MethodBlueprint.ofJson))

/-- Reads the text of a blueprint. -/
def ofText (text : String) : Except Json.Rejection Blueprint :=
  Json.decode ofJson text

/-- The JSON text of a blueprint. -/
def json (blueprint : Blueprint) : String :=
  blueprint.toJson.render

end Blueprint

end ClassForge
