import ClassForge.Literal.Basic
import ClassForge.Name.SourceName

/-! # Trees of declarations

A tree is a list of statements: namespaces, classes with their members, and the few statements that
method bodies hold. A statement with a body is its head, which says what is declared, and the
statements inside.
-/

namespace ClassForge

/-- Who may use a member. -/
inductive Visibility where
  | pub
  | prot
  | priv
deriving DecidableEq, Repr

/-- The source word of a visibility. -/
def Visibility.word : Visibility → String
  | .pub => "public"
  | .prot => "protected"
  | .priv => "private"

/-- The visibility that a word stands for. -/
def Visibility.ofWord? (word : String) : Option Visibility :=
  [.pub, .prot, .priv].find? fun visibility => visibility.word == word

/-- An expression. -/
inductive Expr where
  | literal (value : Literal)
  | constant (name : SourceName)
  | new (name : SourceName) (args : List Expr)

/-- What a parameter accepts. -/
inductive TypeHint where
  | array
  | callable
  | named (name : SourceName)
deriving DecidableEq, Repr

/-- A parameter of a method. -/
structure Param where
  name : String
  byRef : Bool := false
  hint : Option TypeHint := none
  fallback : Option Expr := none

/-- What a class declaration says before its body. -/
structure ClassHead where
  name : String
  isAbstract : Bool := false
  isFinal : Bool := false
  parent : Option SourceName := none
  interfaces : List SourceName := []
deriving DecidableEq, Repr

/-- What a method declaration says before its body. -/
structure MethodHead where
  name : String
  visibility : Visibility := .pub
  isStatic : Bool := false
  isAbstract : Bool := false
  isFinal : Bool := false
  byRef : Bool := false
  params : List Param := []

/-- A property of a class. -/
structure Property where
  name : String
  visibility : Visibility := .pub
  isStatic : Bool := false
  initial : Option Literal := none

/-- A constant of a class. -/
structure Constant where
  name : String
  value : Literal

/-- A statement. A namespace without a name is the global one; a method without a body is only
announced. -/
inductive Stmt where
  | space (name : Option SourceName) (body : List Stmt)
  | classDecl (head : ClassHead) (body : List Stmt)
  | method (head : MethodHead) (body : Option (List Stmt))
  | property (value : Property)
  | constant (value : Constant)
  | throw (value : Expr)
  | expr (value : Expr)

/-- The statements of a whole source text. -/
abbrev Tree := List Stmt

namespace Stmt

/-- The word for each kind of statement. -/
def kind : Stmt → String
  | .space .. => "namespace"
  | .classDecl .. => "class"
  | .method .. => "method"
  | .property _ => "property"
  | .constant _ => "constant"
  | .throw _ => "throw"
  | .expr _ => "expression"

/-- A short text that tells statements apart. -/
def label : Stmt → String
  | .space (some name) _ => "namespace " ++ name.text
  | .space none _ => "namespace"
  | .classDecl head _ => "class " ++ head.name
  | .method head _ => "method " ++ head.name
  | .property value => "property $" ++ value.name
  | .constant value => "const " ++ value.name
  | .throw _ => "throw"
  | .expr _ => "<expression>"

/-- The statements inside, if the statement has a body. -/
def body? : Stmt → Option (List Stmt)
  | .space _ body => some body
  | .classDecl _ body => some body
  | .method _ body => body
  | _ => none

/-- Whether the statement has a body. -/
def hasBody (stmt : Stmt) : Bool :=
  stmt.body?.isSome

/-- Whether the statement declares a class. -/
def isClass : Stmt → Bool
  | .classDecl .. => true
  | _ => false

/-- Whether the statement is a namespace. -/
def isSpace : Stmt → Bool
  | .space .. => true
  | _ => false

end Stmt

namespace Tree

mutual

/-- Every statement with its depth, those of a body right after the one that holds them. -/
def stmtOutline (depth : Nat) : Stmt → List (Nat × Stmt)
  | .space name body => (depth, .space name body) :: outlineAt (depth + 1) body
  | .classDecl head body => (depth, .classDecl head body) :: outlineAt (depth + 1) body
  | .method head none => [(depth, .method head none)]
  | .method head (some body) => (depth, .method head (some body)) :: outlineAt (depth + 1) body
  | stmt => [(depth, stmt)]

def outlineAt (depth : Nat) : List Stmt → List (Nat × Stmt)
  | [] => []
  | stmt :: rest => stmtOutline depth stmt ++ outlineAt depth rest

end

/-- Every statement of the tree with its depth, in the order of the source. -/
def outline (tree : Tree) : List (Nat × Stmt) :=
  outlineAt 0 tree

mutual

/-- The class that a statement declares, directly or in the namespace that it is. -/
def stmtClass? : Stmt → Option (ClassHead × List Stmt)
  | .classDecl head body => some (head, body)
  | .space _ body => findClass? body
  | _ => none

/-- The first class that is not inside of another class. -/
def findClass? : List Stmt → Option (ClassHead × List Stmt)
  | [] => none
  | stmt :: rest =>
    match stmtClass? stmt with
    | some found => some found
    | none => findClass? rest

end

/-- The methods among the statements of a class. -/
def methods (body : List Stmt) : List (MethodHead × Option (List Stmt)) :=
  body.filterMap fun
    | .method head body => some (head, body)
    | _ => none

/-- The first method of exactly this name. -/
def method? (body : List Stmt) (name : String) : Option (MethodHead × Option (List Stmt)) :=
  (methods body).find? fun (head, _) => head.name == name

end Tree

end ClassForge
