import ClassForge.Name.SourceName

/-! # Names of classes

A `ClassName` is the namespace path of a class together with its short name. Reading a text checks
every segment; `ClassName.mk` takes path and short name as they come.
-/

namespace ClassForge

/-- A fully-qualified class name. -/
structure ClassName where
  path : List String
  short : String
deriving DecidableEq, Repr

namespace ClassName

/-- Reads a class name: the last segment is the short name, those before it are the path. -/
def ofText (text : String) : Except NameError ClassName := do
  let segments ← Segment.parse text
  return ⟨segments.dropLast, segments.getLastD ""⟩

/-- Path and short name in one list. -/
def segments (name : ClassName) : List String :=
  name.path ++ [name.short]

/-- The whole name, without a separator in front. -/
def text (name : ClassName) : String :=
  Segment.join name.segments

/-- The namespace as text, empty for a global class. -/
def pathText (name : ClassName) : String :=
  Segment.join name.path

/-- Whether the class lies outside of every namespace. -/
def isGlobal (name : ClassName) : Bool :=
  name.path.isEmpty

/-- Whether one of the segments is the given one. -/
def contains (name : ClassName) (segment : String) : Bool :=
  name.segments.contains segment

/-- The namespace as a relative name, if there is one. -/
def pathName? (name : ClassName) : Option SourceName :=
  if name.isGlobal then none else some ⟨name.path, false⟩

/-- The class as a relative reference. -/
def toSourceName (name : ClassName) : SourceName :=
  ⟨name.segments, false⟩

end ClassName

end ClassForge
