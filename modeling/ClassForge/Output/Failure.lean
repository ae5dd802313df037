import ClassForge.Inflection.Marker
import ClassForge.Json.Read
import ClassForge.Name.Segment
import ClassForge.Output.Directory
import ClassForge.Pass.Visitor
import ClassForge.Registry.Basic

/-! # Failures

The ways in which reading, building, writing and loading classes can fail.
-/

namespace ClassForge

/-- A failure with its cause. -/
inductive Failure where
  | name (cause : NameError)
  | pass (cause : PassError)
  | directory (cause : DirectoryError)
  | marker (cause : MarkerError)
  | store (cause : StoreError)
  | json (cause : Json.Rejection)
  | registry (cause : RegistryError)
deriving DecidableEq, Repr

/-- The wording of a rejected JSON text. -/
def Json.Rejection.message : Json.Rejection → String
  | .shape => "unexpected JSON"
  | .invalid message => message

/-- What failed, and why. -/
def Failure.message : Failure → String
  | .name cause => "Name error: " ++ cause.message
  | .pass cause => "Visitor error: " ++ cause.message
  | .directory cause => "Locator error: " ++ cause.message
  | .marker cause => "Invalid marker: " ++ cause.message
  | .store cause => "I/O error: " ++ cause.message
  | .json cause => "JSON error: " ++ cause.message
  | .registry cause => "Runtime error: " ++ cause.message

end ClassForge
