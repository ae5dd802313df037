/-! # Segments of a qualified name

A qualified name is a list of segments with a backslash between neighbours. Separators at the two
ends of a text carry no segment; inside, two adjacent separators enclose an empty segment, which no
name may have.
-/

namespace ClassForge

/-- The character between the segments of a name. -/
def separator : Char := '\\'

/-- Why a text or a list of segments is no name. -/
inductive NameError where
  | empty
  | emptySegment (text : String)
deriving DecidableEq, Repr

/-- The wording of each cause. -/
def NameError.message : NameError → String
  | .empty => "Empty name"
  | .emptySegment text => "Name '" ++ text ++ "' contains an empty segment"

namespace Segment

/-- Drops the separators at the front. -/
def trimFront (chars : List Char) : List Char :=
  chars.dropWhile (· == separator)

/-- Drops the separators at both ends. -/
def trimChars (chars : List Char) : List Char :=
  (trimFront (trimFront chars).reverse).reverse

/-- The text without its outer separators. -/
def trim (text : String) : String :=
  String.ofList (trimChars text.toList)

/-- The pieces between separators, empty ones included; there is always at least one. -/
def split (text : String) : List String :=
  (text.toList.splitOn separator).map String.ofList

/-- The segments with one separator between neighbours. -/
def join (segments : List String) : String :=
  String.ofList (List.intercalate [separator] (segments.map String.toList))

/-- The segments of a name given as text. Outer separators do not count. -/
def parse (text : String) : Except NameError (List String) :=
  let inner := trim text
  if inner = "" then .error .empty
  else
    let segments := split inner
    if "" ∈ segments then .error (.emptySegment text) else .ok segments

end Segment

end ClassForge
