import ClassForge.Double.Layout
import ClassForge.Json.Value

/-! # JSON text

Values are written without blanks, members in order. Strings escape the quote, the backslash and
the characters below U+0020, and nothing else. A number that is not finite is written `null`.
-/

namespace ClassForge

namespace Json

/-- Doubles in JSON text: `1e-6` but `0.00001`, and `1e+16` but `1000000000000000.0`. -/
def numberLayout : NumberLayout := ⟨-5, 16, "+", .toEven⟩

/-- A character as it stands inside of a string. -/
def escape (c : Char) : List Char :=
  if c = '"' then ['\\', '"']
  else if c = '\\' then ['\\', '\\']
  else if c = '\x08' then ['\\', 'b']
  else if c = '\x0c' then ['\\', 'f']
  else if c = '\n' then ['\\', 'n']
  else if c = '\x0d' then ['\\', 'r']
  else if c = '\t' then ['\\', 't']
  else if c.toNat < 0x20 then
    ['\\', 'u', '0', '0', Nat.digitChar (c.toNat / 16), Nat.digitChar (c.toNat % 16)]
  else [c]

/-- A text in quotes. -/
def quote (text : String) : String :=
  String.ofList ('"' :: (text.toList.flatMap escape ++ ['"']))

mutual

/-- The text of a value. A fault has none. -/
def render : Json → String
  | .null => "null"
  | .bool value => if value then "true" else "false"
  | .int value => toString value.toInt
  | .float value => if value.isFinite then numberLayout.text value else "null"
  | .str value => quote value
  | .arr items => "[" ++ renderItems items ++ "]"
  | .obj members => "\x7b" ++ renderMembers members ++ "\x7d"
  | .fault _ => ""

def renderItems : List Json → String
  | [] => ""
  | [item] => item.render
  | item :: rest => item.render ++ "," ++ renderItems rest

def renderMembers : List (Option String × Json) → String
  | [] => ""
  | [(key, value)] => quote (key.getD "") ++ ":" ++ value.render
  | (key, value) :: rest =>
    quote (key.getD "") ++ ":" ++ value.render ++ "," ++ renderMembers rest

end

end Json

end ClassForge
