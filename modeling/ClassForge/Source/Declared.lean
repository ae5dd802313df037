import ClassForge.Name.Segment
import ClassForge.Source.Token

/-! # Declared classes

The classes, interfaces and traits that a source text declares, by their fully-qualified names and
in order. A namespace lasts until the next one. `new class` declares nothing, and neither does
`Foo::class`.
-/

namespace ClassForge

namespace Token

/-- The words that declare what follows them. -/
def declares (token : Token) : Bool :=
  !token.afterColon && ["class", "interface", "trait"].contains token.text

/-- The word that starts a namespace. -/
def startsSpace (token : Token) : Bool :=
  !token.afterColon && token.text == "namespace"

/-- A declared name in its namespace. -/
def qualify (space name : String) : String :=
  if space = "" then name else space ++ String.singleton separator ++ name

/-- The classes that tokens declare, inside of a namespace and after another token. -/
def declaredFrom (space : String) (previous : Option String) : List Token → List String
  | [] => []
  | [_] => []
  | token :: next :: rest =>
    if token.startsSpace then
      if next.text = "" ∨ next = brace then declaredFrom "" (some token.text) (next :: rest)
      else declaredFrom (Segment.trim next.text) (some next.text) rest
    else if token.declares && previous != some "new" then
      qualify space next.text :: declaredFrom space (some next.text) rest
    else declaredFrom space (some token.text) (next :: rest)

end Token

/-- The classes that a source text declares. -/
def declaredClasses (code : String) : List String :=
  Token.declaredFrom "" none (Token.scan code.toList)

end ClassForge
