import ClassForge.Tree.Basic

/-! # Source text of trees

One declaration to a line, four blanks to a level, and the braces of classes and methods on lines of
their own. On the outermost level an empty line separates neighbours. The statements of a named
namespace stand on its own level.
-/

namespace ClassForge

/-- Texts with a comma and a blank between neighbours. -/
def commaSeparated : List String → String
  | [] => ""
  | [text] => text
  | text :: rest => text ++ ", " ++ commaSeparated rest

namespace Expr

mutual

/-- The source text of an expression. -/
def source : Expr → String
  | .literal value => value.source
  | .constant name => name.source
  | .new name args => "new " ++ name.source ++ "(" ++ commaSeparated (argsSource args) ++ ")"

def argsSource : List Expr → List String
  | [] => []
  | arg :: rest => arg.source :: argsSource rest

end

end Expr

/-- The source text of a type. -/
def TypeHint.source : TypeHint → String
  | .array => "array"
  | .callable => "callable"
  | .named name => name.source

/-- The source text of a parameter. -/
def Param.source (param : Param) : String :=
  (match param.hint with
    | some hint => hint.source ++ " "
    | none => "") ++
  (if param.byRef then "&" else "") ++ "$" ++ param.name ++
  (match param.fallback with
    | some value => " = " ++ value.source
    | none => "")

/-- A class declaration up to its opening brace. -/
def ClassHead.source (head : ClassHead) : String :=
  (if head.isAbstract then "abstract " else "") ++ (if head.isFinal then "final " else "") ++
  "class " ++ head.name ++
  (match head.parent with
    | some parent => " extends " ++ parent.source
    | none => "") ++
  (if head.interfaces = [] then ""
    else " implements " ++ commaSeparated (head.interfaces.map SourceName.source))

/-- A method declaration up to its body. -/
def MethodHead.source (head : MethodHead) : String :=
  (if head.isFinal then "final " else "") ++ (if head.isAbstract then "abstract " else "") ++
  head.visibility.word ++ (if head.isStatic then " static" else "") ++ " function " ++
  (if head.byRef then "&" else "") ++ head.name ++
  "(" ++ commaSeparated (head.params.map Param.source) ++ ")"

/-- A property declaration. -/
def Property.source (property : Property) : String :=
  property.visibility.word ++ (if property.isStatic then " static" else "") ++
  " $" ++ property.name ++
  (match property.initial with
    | some value => " = " ++ value.source
    | none => "") ++ ";"

/-- A constant declaration. -/
def Constant.source (constant : Constant) : String :=
  "const " ++ constant.name ++ " = " ++ constant.value.source ++ ";"

/-- The blanks in front of a line. -/
def indentation (depth : Nat) : String :=
  String.ofList (List.replicate (4 * depth) ' ')

/-- A line of source at a depth. -/
def sourceLine (depth : Nat) (text : String) : String :=
  indentation depth ++ text ++ "\n"

namespace Tree

mutual

/-- The lines of a statement at a depth. -/
def stmtSource (depth : Nat) : Stmt → String
  | .space (some name) body =>
    sourceLine depth ("namespace " ++ name.text ++ ";") ++
      (if body.isEmpty then "" else "\n") ++ bodySource depth true body
  | .space none body =>
    sourceLine depth "namespace \x7b" ++ bodySource (depth + 1) true body ++ sourceLine depth "\x7d"
  | .classDecl head body =>
    sourceLine depth head.source ++ sourceLine depth "\x7b" ++ bodySource (depth + 1) true body ++
      sourceLine depth "\x7d"
  | .method head none => sourceLine depth (head.source ++ ";")
  | .method head (some body) =>
    sourceLine depth head.source ++ sourceLine depth "\x7b" ++ bodySource (depth + 1) true body ++
      sourceLine depth "\x7d"
  | .property value => sourceLine depth value.source
  | .constant value => sourceLine depth value.source
  | .throw value => sourceLine depth ("throw " ++ value.source ++ ";")
  | .expr value => sourceLine depth (value.source ++ ";")

/-- The lines of statements at a depth; `first` tells that no neighbour stands before them. -/
def bodySource (depth : Nat) (first : Bool) : List Stmt → String
  | [] => ""
  | stmt :: rest =>
    (if depth = 0 ∧ first = false then "\n" else "") ++ stmtSource depth stmt ++
      bodySource depth false rest

end

/-- The source text of a tree. -/
def source (tree : Tree) : String :=
  bodySource 0 true tree

end Tree

end ClassForge
