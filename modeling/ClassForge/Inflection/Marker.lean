import ClassForge.Name.Identifier

/-! # The marker of generated classes

A marker is the segment that tells the names of generated classes from all others. It is an
identifier.
-/

namespace ClassForge

/-- A segment that marks generated classes. -/
structure Marker where
  text : String
  isValid : Identifier.isValid text = true
deriving DecidableEq, Repr

/-- The text that was refused as a marker. -/
structure MarkerError where
  text : String
deriving DecidableEq, Repr

def MarkerError.message (e : MarkerError) : String :=
  "Invalid generated class marker '" ++ e.text ++ "': must be a valid identifier"

namespace Marker

/-- Takes an identifier as a marker. -/
def ofText (text : String) : Except MarkerError Marker :=
  if h : Identifier.isValid text = true then .ok ⟨text, h⟩ else .error ⟨text⟩

/-- The marker used unless another one is chosen. -/
def standard : Marker :=
  ⟨"__PM__", by decide⟩

end Marker

end ClassForge
