import ClassForge.Literal.Codec
import ClassForge.Tree.Basic

/-! # Trees as JSON

Statements and expressions are tagged objects, their contents are records. Names are strings in
their source form. Reading is bounded by the nesting that JSON texts may have.
-/

namespace ClassForge

namespace Json

/-- A value that may be absent. -/
def ofOption {α : Type} (toJson : α → Json) : Option α → Json
  | some value => toJson value
  | none => .null

/-- A tag with its content. -/
def tagged (tag : String) (content : Json) : Json :=
  object [(tag, content)]

end Json

/-! ## Writing -/

def SourceName.toJson (name : SourceName) : Json :=
  .str name.source

def Visibility.toJson (visibility : Visibility) : Json :=
  .str visibility.word

namespace Expr

mutual

def toJson : Expr → Json
  | .literal value => Json.tagged "Literal" value.toJson
  | .constant name => Json.tagged "ConstFetch" name.toJson
  | .new name args => Json.tagged "New"
      (Json.object [("class", name.toJson), ("args", .arr (argsToJson args))])

def argsToJson : List Expr → List Json
  | [] => []
  | arg :: rest => arg.toJson :: argsToJson rest

end

end Expr

def TypeHint.toJson : TypeHint → Json
  | .array => .str "Array"
  | .callable => .str "Callable"
  | .named name => Json.tagged "Class" name.toJson

def Param.toJson (param : Param) : Json :=
  Json.object [
    ("name", .str param.name), ("by_ref", .bool param.byRef),
    ("type_hint", Json.ofOption TypeHint.toJson param.hint),
    ("default", Json.ofOption Expr.toJson param.fallback)]

/-- A class whose body is given as JSON. -/
def ClassHead.toJson (head : ClassHead) (body : Json) : Json :=
  Json.object [
    ("name", .str head.name), ("is_abstract", .bool head.isAbstract),
    ("is_final", .bool head.isFinal), ("extends", Json.ofOption SourceName.toJson head.parent),
    ("implements", .arr (head.interfaces.map SourceName.toJson)), ("stmts", body)]

/-- A method whose body is given as JSON. -/
def MethodHead.toJson (head : MethodHead) (body : Json) : Json :=
  Json.object [
    ("name", .str head.name), ("visibility", head.visibility.toJson),
    ("is_static", .bool head.isStatic), ("is_abstract", .bool head.isAbstract),
    ("is_final", .bool head.isFinal), ("by_ref", .bool head.byRef),
    ("params", .arr (head.params.map Param.toJson)), ("stmts", body)]

def Property.toJson (property : Property) : Json :=
  Json.object [
    ("name", .str property.name), ("visibility", property.visibility.toJson),
    ("is_static", .bool property.isStatic),
    ("default", Json.ofOption Literal.toJson property.initial)]

def Constant.toJson (constant : Constant) : Json :=
  Json.object [("name", .str constant.name), ("value", constant.value.toJson)]

namespace Tree

mutual

def stmtToJson : Stmt → Json
  | .space name body => Json.tagged "Namespace" (Json.object [
      ("name", Json.ofOption SourceName.toJson name), ("stmts", .arr (bodyToJson body))])
  | .classDecl head body => Json.tagged "Class" (head.toJson (.arr (bodyToJson body)))
  | .method head none => Json.tagged "ClassMethod" (head.toJson .null)
  | .method head (some body) =>
    Json.tagged "ClassMethod" (head.toJson (.arr (bodyToJson body)))
  | .property value => Json.tagged "Property" value.toJson
  | .constant value => Json.tagged "ClassConst" value.toJson
  | .throw value => Json.tagged "Throw" value.toJson
  | .expr value => Json.tagged "Expression" value.toJson

def bodyToJson : List Stmt → List Json
  | [] => []
  | stmt :: rest => stmtToJson stmt :: bodyToJson rest

end

/-- The JSON value of a tree. -/
def toJson (tree : Tree) : Json :=
  .arr (bodyToJson tree)

/-- The JSON text of a tree. -/
def json (tree : Tree) : String :=
  tree.toJson.render

end Tree

/-- A method with its body as JSON. -/
def MethodHead.methodJson (head : MethodHead) (body : Option (List Stmt)) : Json :=
  head.toJson (Json.ofOption Tree.toJson body)

/-! ## Reading -/

def SourceName.ofJson : Json → Except Json.Rejection SourceName :=
  Json.readChecked SourceName.ofText NameError.message

def Visibility.ofJson : Json → Except Json.Rejection Visibility :=
  Json.readTagged Visibility.ofWord? fun _ => none

/-- Reads an expression in which fewer than `fuel` others enclose one another. -/
def Expr.ofJson : (fuel : Nat) → Json → Except Json.Rejection Expr
  | 0, _ => .error .shape
  | fuel + 1, json =>
    json |> Json.readTagged (fun _ => none) fun
      | "Literal" => some fun content => Expr.literal <$> Literal.ofJson content
      | "ConstFetch" => some fun content => Expr.constant <$> SourceName.ofJson content
      | "New" => some <| Json.Fields.record <|
          (Json.Fields.required "class" SourceName.ofJson).map Expr.new
            |>.and (.required "args" (Json.readList (Expr.ofJson fuel)))
      | _ => none

def TypeHint.ofJson : Json → Except Json.Rejection TypeHint :=
  Json.readTagged
    (fun
      | "Array" => some .array
      | "Callable" => some .callable
      | _ => none)
    (fun
      | "Class" => some fun content => TypeHint.named <$> SourceName.ofJson content
      | _ => none)

/-- Reads an expression as deep as JSON texts go. -/
def Expr.read : Json → Except Json.Rejection Expr :=
  Expr.ofJson (Json.maxDepth + 1)

def Param.ofJson : Json → Except Json.Rejection Param :=
  Json.Fields.record <|
    (Json.Fields.required "name" Json.readString).map Param.mk
      |>.and (.required "by_ref" Json.readBool)
      |>.and (.nullable "type_hint" TypeHint.ofJson)
      |>.and (.nullable "default" Expr.read)

def Property.ofJson : Json → Except Json.Rejection Property :=
  Json.Fields.record <|
    (Json.Fields.required "name" Json.readString).map Property.mk
      |>.and (.required "visibility" Visibility.ofJson)
      |>.and (.required "is_static" Json.readBool)
      |>.and (.nullable "default" Literal.ofJson)

def Constant.ofJson : Json → Except Json.Rejection Constant :=
  Json.Fields.record <|
    (Json.Fields.required "name" Json.readString).map Constant.mk
      |>.and (.required "value" Literal.ofJson)

namespace Tree

/-- Reads a namespace, given how to read its body. -/
def readSpace (readBody : Json → Except Json.Rejection (List Stmt)) :
    Json → Except Json.Rejection Stmt :=
  Json.Fields.record <|
    (Json.Fields.nullable "name" SourceName.ofJson).map Stmt.space
      |>.and (.required "stmts" readBody)

/-- Reads a class, given how to read its body. -/
def readClass (readBody : Json → Except Json.Rejection (List Stmt)) :
    Json → Except Json.Rejection Stmt :=
  Json.Fields.record <|
    (Json.Fields.required "name" Json.readString).map
        (fun name isAbstract isFinal parent interfaces body =>
          Stmt.classDecl ⟨name, isAbstract, isFinal, parent, interfaces⟩ body)
      |>.and (.required "is_abstract" Json.readBool)
      |>.and (.required "is_final" Json.readBool)
      |>.and (.nullable "extends" SourceName.ofJson)
      |>.and (.required "implements" (Json.readList SourceName.ofJson))
      |>.and (.required "stmts" readBody)

/-- Reads a method, given how to read its body. -/
def readMethod (readBody : Json → Except Json.Rejection (List Stmt)) :
    Json → Except Json.Rejection Stmt :=
  Json.Fields.record <|
    (Json.Fields.required "name" Json.readString).map
        (fun name visibility isStatic isAbstract isFinal byRef params body =>
          Stmt.method ⟨name, visibility, isStatic, isAbstract, isFinal, byRef, params⟩ body)
      |>.and (.required "visibility" Visibility.ofJson)
      |>.and (.required "is_static" Json.readBool)
      |>.and (.required "is_abstract" Json.readBool)
      |>.and (.required "is_final" Json.readBool)
      |>.and (.required "by_ref" Json.readBool)
      |>.and (.required "params" (Json.readList Param.ofJson))
      |>.and (.nullable "stmts" readBody)

/-- Reads a statement in which fewer than `fuel` others enclose one another. -/
def stmtOfJson : (fuel : Nat) → Json → Except Json.Rejection Stmt
  | 0, _ => .error .shape
  | fuel + 1, json =>
    let readBody := Json.readList (stmtOfJson fuel)
    json |> Json.readTagged (fun _ => none) fun
      | "Namespace" => some (readSpace readBody)
      | "Class" => some (readClass readBody)
      | "ClassMethod" => some (readMethod readBody)
      | "Property" => some fun content => Stmt.property <$> Property.ofJson content
      | "ClassConst" => some fun content => Stmt.constant <$> Constant.ofJson content
      | "Throw" => some fun content => Stmt.throw <$> Expr.read content
      | "Expression" => some fun content => Stmt.expr <$> Expr.read content
      | _ => none

/-- Reads a statement as deep as JSON texts go. -/
def readStmt : Json → Except Json.Rejection Stmt :=
  stmtOfJson (Json.maxDepth + 1)

/-- Reads a tree. -/
def ofJson : Json → Except Json.Rejection Tree :=
  Json.readList readStmt

/-- Reads the text of a tree. -/
def ofText (text : String) : Except Json.Rejection Tree :=
  Json.decode ofJson text

end Tree

end ClassForge
