import ClassForge.Blueprint.Codec
import ClassForge.Inflection.Inflector
import ClassForge.Output.Failure

/-! # Settings

Where generated classes go and how they are named. Settings and blueprints are read from JSON files.
-/

namespace ClassForge

/-- The version of this program. -/
def version : String := "0.1.0"

/-- What is logged unless something else is asked for. -/
def defaultLogDirective : String := "classgen_core=info"

/-- The namespace, the directory and the marker of generated classes. -/
structure Settings where
  space : String := "GeneratedClasses"
  directory : String := "./generated-classes"
  marker : Marker := Marker.standard
deriving DecidableEq, Repr

namespace Settings

def toJson (settings : Settings) : Json :=
  Json.object [
    ("generated_namespace", .str settings.space), ("generated_classes_dir", .str settings.directory),
    ("marker", .str settings.marker.text)]

/-- The JSON text of settings. -/
def json (settings : Settings) : String :=
  settings.toJson.render

def ofJson : Json → Except Json.Rejection Settings :=
  let standard : Settings := {}
  Json.Fields.record <|
    (Json.Fields.defaulted "generated_namespace" standard.space Json.readString).map Settings.mk
      |>.and (.defaulted "generated_classes_dir" standard.directory Json.readString)
      |>.and (.defaulted "marker" standard.marker
        (Json.readChecked Marker.ofText MarkerError.message))

/-- Reads settings from a file. -/
def ofFile (store : FileStore) (path : String) : Except Failure Settings := do
  let text ← (store.readText path).mapError .store
  (Json.decode ofJson text).mapError .json

/-- The inflector of these settings. -/
def inflector (settings : Settings) : Inflector :=
  Inflector.make settings.space settings.marker

/-- The directory of these settings, which must exist. -/
def classDirectory (settings : Settings) (store : FileStore) :
    Except DirectoryError ClassDirectory :=
  ClassDirectory.ofPath store settings.directory

end Settings

/-- Reads a blueprint from a file. -/
def Blueprint.ofFile (store : FileStore) (path : String) : Except Failure Blueprint := do
  let text ← (store.readText path).mapError .store
  (Blueprint.ofText text).mapError .json

end ClassForge
