import ClassForge.Json.Read
import ClassForge.Json.Text
import ClassForge.Literal.Basic

/-! # Literals as JSON

Every JSON value is a literal. Of a repeated key the first place and the last value count.
-/

namespace ClassForge

namespace Literal

mutual

/-- The JSON value of a literal. -/
def toJson : Literal → Json
  | .null => .null
  | .bool value => .bool value
  | .int value => .int value
  | .float value => .float value
  | .str value => .str value
  | .list items => .arr (itemsToJson items)
  | .map entries => .obj (entriesToJson entries)

def itemsToJson : List Literal → List Json
  | [] => []
  | item :: rest => item.toJson :: itemsToJson rest

def entriesToJson : List (String × Literal) → List (Option String × Json)
  | [] => []
  | (key, value) :: rest => (some key, value.toJson) :: entriesToJson rest

end

mutual

/-- The literal that a JSON value stands for. -/
def ofJson : Json → Except Json.Rejection Literal
  | .null => .ok .null
  | .bool value => .ok (.bool value)
  | .int value => .ok (.int value)
  | .float value => .ok (.float value)
  | .str value => .ok (.str value)
  | .arr items => .list <$> itemsOfJson items
  | .obj members => (.map ∘ Options.ofEntries) <$> entriesOfJson members
  | .fault _ => .error .shape

def itemsOfJson : List Json → Except Json.Rejection (List Literal)
  | [] => .ok []
  | item :: rest => do
    let item ← ofJson item
    return item :: (← itemsOfJson rest)

def entriesOfJson : List (Option String × Json) → Except Json.Rejection (List (String × Literal))
  | [] => .ok []
  | (none, _) :: _ => .error .shape
  | (some key, value) :: rest => do
    let value ← ofJson value
    return (key, value) :: (← entriesOfJson rest)

end

/-- The JSON text of a literal. -/
def json (literal : Literal) : String :=
  literal.toJson.render

end Literal

namespace Options

/-- Reads an object as named literals. -/
def ofJson : Json → Except Json.Rejection Options
  | .obj members => ofEntries <$> Literal.entriesOfJson members
  | _ => .error .shape

/-- Reads the text of an object as named literals. -/
def ofText (text : String) : Except Json.Rejection Options :=
  Json.decode ofJson text

end Options

end ClassForge
