import ClassForge.Files.Access
import ClassForge.Name.Segment

/-! # The directory of generated classes

All generated classes lie in one directory. The file of a class has the name of the class without
its separators.
-/

namespace ClassForge

/-- The path that leads to no directory, and the failure to follow it, if that failed. -/
structure DirectoryError where
  path : String
  cause : Option StoreError
deriving DecidableEq, Repr

def DirectoryError.message (e : DirectoryError) : String :=
  "Provided directory \"" ++ e.path ++ "\" does not exist"

/-- A directory that existed when it was chosen. -/
structure ClassDirectory where
  location : Location
deriving DecidableEq, Repr

namespace ClassDirectory

/-- Takes the directory that a path leads to. -/
def ofPath (store : FileStore) (path : String) : Except DirectoryError ClassDirectory :=
  match store.resolve path with
  | .error e => .error ⟨path, some e⟩
  | .ok location =>
    if store.isDirectory location then .ok ⟨location⟩ else .error ⟨path, none⟩

/-- The name of the file of a class. -/
def fileName (className : String) : String :=
  String.ofList (className.toList.filter (· != separator)) ++ ".php"

/-- The path of the file of a class. A file name that starts with a slash is a path of its own. -/
def pathOf (directory : ClassDirectory) (className : String) : String :=
  let name := fileName className
  if name.toList.head? = some '/' then name
  else if directory.location = [] then "/" ++ name
  else directory.location.text ++ "/" ++ name

end ClassDirectory

end ClassForge
