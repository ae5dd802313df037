import ClassForge.Name.Segment

/-! # Names as they stand in source

A `SourceName` refers to a class or a constant. It is absolute when it starts at the root of all
namespaces, and then its source text has a separator in front.
-/

namespace ClassForge

/-- The parts of a reference, and whether it starts at the root. -/
structure SourceName where
  parts : List String
  absolute : Bool
deriving DecidableEq, Repr

namespace SourceName

/-- Reads a name; a separator in front makes it absolute. -/
def ofText (text : String) : Except NameError SourceName := do
  let segments ← Segment.parse text
  return ⟨segments, text.toList.head? == some separator⟩

/-- A relative name of the given parts, which must be there and be non-empty. -/
def ofParts (parts : List String) : Except NameError SourceName :=
  if parts = [] then .error .empty
  else if "" ∈ parts then .error (.emptySegment (Segment.join parts))
  else .ok ⟨parts, false⟩

/-- The same parts, starting at the root. -/
def toAbsolute (name : SourceName) : SourceName :=
  { name with absolute := true }

/-- The parts without a mark of where they start. -/
def text (name : SourceName) : String :=
  Segment.join name.parts

/-- The text that refers to this name from source. -/
def source (name : SourceName) : String :=
  if name.absolute then String.singleton separator ++ name.text else name.text

/-- The last part, or nothing at all. -/
def last (name : SourceName) : String :=
  name.parts.getLastD ""

end SourceName

end ClassForge
