import ClassForge.Double.Layout

/-! # Literal values

Literals are the constant values of a generated class and the values of generation options: scalars,
lists, and maps whose entries keep their order.
-/

namespace ClassForge

/-- A constant value. -/
inductive Literal where
  | null
  | bool (value : Bool)
  | int (value : Int64)
  | float (value : Double)
  | str (value : String)
  | list (items : List Literal)
  | map (entries : List (String × Literal))

namespace Literal

/-- The word for each kind of literal. -/
def kind : Literal → String
  | .null => "null"
  | .bool _ => "bool"
  | .int _ => "int"
  | .float _ => "float"
  | .str _ => "string"
  | .list _ => "list"
  | .map _ => "map"

/-- Doubles in source text: `0.0001` but `1e-5`, and `1e16`. -/
def numberLayout : NumberLayout := ⟨-4, 16, "", .up⟩

/-- The source text of a double. -/
def doubleSource (d : Double) : String :=
  if d.isFinite then numberLayout.text d
  else if d.isNaN then "NAN"
  else if d.isNegative then "-INF"
  else "INF"

/-- A character as it stands between single quotes. -/
def escape (c : Char) : List Char :=
  if c = '\\' ∨ c = '\'' then ['\\', c] else [c]

/-- A text in single quotes. -/
def quote (text : String) : String :=
  String.ofList ('\'' :: (text.toList.flatMap escape ++ ['\'']))

mutual

/-- The source text of a literal. -/
def source : Literal → String
  | .null => "null"
  | .bool value => if value then "true" else "false"
  | .int value => toString value.toInt
  | .float value => doubleSource value
  | .str value => quote value
  | .list items => "[" ++ itemsSource items ++ "]"
  | .map entries => "[" ++ entriesSource entries ++ "]"

def itemsSource : List Literal → String
  | [] => ""
  | [item] => item.source
  | item :: rest => item.source ++ ", " ++ itemsSource rest

def entriesSource : List (String × Literal) → String
  | [] => ""
  | [(key, value)] => quote key ++ " => " ++ value.source
  | (key, value) :: rest => quote key ++ " => " ++ value.source ++ ", " ++ entriesSource rest

end

end Literal

/-- Named literals in order, no name twice. -/
abbrev Options := List (String × Literal)

namespace Options

/-- Gives a name a value. A name that is there keeps its place, a new one comes last. -/
def insert (name : String) (value : Literal) : Options → Options
  | [] => [(name, value)]
  | (other, old) :: rest =>
    if other = name then (other, value) :: rest else (other, old) :: insert name value rest

/-- The options that result from giving the names their values one after the other. -/
def ofEntries (entries : List (String × Literal)) : Options :=
  entries.foldl (fun options (name, value) => insert name value options) []

end Options

end ClassForge
