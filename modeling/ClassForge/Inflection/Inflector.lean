import ClassForge.Inflection.Marker
import ClassForge.Literal.Canonical
import ClassForge.Name.Segment

/-! # Inflection of class names

A generated class is named after the class it was made for: the namespace of generated classes, the
marker, the user's class name, and the fingerprint of the generation options. The user's class name
is what stands between the last marker and the last segment.
-/

namespace ClassForge

/-- The namespace and the marker of generated classes. -/
structure Inflector where
  /-- Without separators at its ends. -/
  space : String
  marker : Marker
deriving DecidableEq, Repr

namespace Inflector

/-- An inflector for a namespace, whose outer separators do not count. -/
def make (space : String) (marker : Marker) : Inflector :=
  ⟨Segment.trim space, marker⟩

/-- The segments of a name, outer separators dropped. -/
def segmentsOf (name : String) : List String :=
  Segment.split (Segment.trim name)

/-- The segments behind the last marker, if there is one. -/
def afterMarker (marker : String) : List String → Option (List String)
  | [] => none
  | segment :: rest =>
    match afterMarker marker rest with
    | some found => some found
    | none => if segment = marker then some rest else none

/-- The class that a generated class was made for. A name without a marker, or with nothing between
the last marker and the last segment, stays as it is. -/
def userName (inflector : Inflector) (name : String) : String :=
  match afterMarker inflector.marker.text (segmentsOf name) with
  | some rest => if rest.length < 2 then name else Segment.join rest.dropLast
  | none => name

/-- The name of the class generated for another one with the given options. -/
def generatedName (inflector : Inflector) (name : String) (options : Options) : String :=
  let user := Segment.trim (inflector.userName name)
  let tail := [inflector.marker.text, user, options.fingerprint]
  Segment.join (if inflector.space = "" then tail else inflector.space :: tail)

/-- Whether a name is that of a generated class. -/
def isGenerated (inflector : Inflector) (name : String) : Bool :=
  (segmentsOf name).contains inflector.marker.text

end Inflector

end ClassForge
