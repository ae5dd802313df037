/-! # Paths

A path is a text of names between slashes. One that starts with a slash starts at the root. Empty
names and single dots lead nowhere, and two dots lead back. The parent of a path is read off its
text, whatever lies there.
-/

namespace ClassForge

/-- Why an operation on files failed. -/
inductive StoreError where
  | notFound
  | isADirectory
  | notADirectory
  | alreadyExists
  /-- The bytes of a file are no text. -/
  | invalidData
  /-- A name or a path is too long. -/
  | invalidFilename
  /-- A path holds a character that paths cannot have, or cannot be used this way. -/
  | invalidInput
deriving DecidableEq, Repr

def StoreError.message : StoreError → String
  | .notFound => "no such file or directory"
  | .isADirectory => "is a directory"
  | .notADirectory => "not a directory"
  | .alreadyExists => "file exists"
  | .invalidData => "stream did not contain valid UTF-8"
  | .invalidFilename => "file name too long"
  | .invalidInput => "file name contained an unexpected NUL byte"

/-- The names on the way from the root. -/
abbrev Location := List String

/-- The path of a location from the root. -/
def Location.text (location : Location) : String :=
  if location = [] then "/" else String.join (location.map fun name => "/" ++ name)

namespace Path

/-- The longest name, in bytes. -/
def maxName : Nat := 255

/-- The longest path, in bytes. -/
def maxSize : Nat := 4095

/-- The names of a path between its slashes, empty ones included. -/
def names (path : String) : List String :=
  (path.toList.splitOn '/').map String.ofList

/-- Whether a path starts at the root. -/
def isAbsolute (path : String) : Bool :=
  path.toList.head? = some '/'

/-- Refuses texts that lead nowhere, whatever there is. -/
def checkText (path : String) : Except StoreError Unit :=
  if path.toList.contains '\x00' then .error .invalidInput
  else if path = "" then .error .notFound
  else .ok ()

/-- Refuses texts that no path can be, among them those that are too long. -/
def check (path : String) : Except StoreError Unit := do
  checkText path
  if maxSize < path.utf8ByteSize then .error .invalidFilename else .ok ()

/-- Refuses names that are too long. -/
def checkName (name : String) : Except StoreError Unit :=
  if maxName < name.utf8ByteSize then .error .invalidFilename else .ok ()

/-- Whether a name leads nowhere. -/
def isIdle (name : String) : Bool :=
  name = "" || name = "."

/-- Names without the idle ones at the end. -/
def dropIdleEnd (names : List String) : List String :=
  (names.reverse.dropWhile isIdle).reverse

/-- The path without its last name that is not idle. It is empty if there was one name only; the
root and the empty path have no parent. A dot in front counts as a name. -/
def parent? (path : String) : Option String :=
  match names path with
  | [] => none
  | first :: rest =>
    match dropIdleEnd rest with
    | [] => if first = "" then none else some ""
    | inner =>
      let above := "/".intercalate (first :: dropIdleEnd inner.dropLast)
      some (if above = "" then "/" else above)

/-- The path of a name in a directory. -/
def child (directory name : String) : String :=
  if directory = "" ∨ directory.toList.getLast? = some '/' then directory ++ name
  else directory ++ "/" ++ name

/-- The names of a path up to the last that is not empty, which comes apart, and whether slashes
follow it. -/
def lastName (path : String) : List String × String × Bool :=
  let all := names path
  let kept := (all.reverse.dropWhile (· = "")).reverse
  (kept.dropLast, kept.getLastD "", kept.length < all.length)

/-- The names of a path that matter for making a directory: none that is empty, and no dot but at
the end. -/
def namesToMake (path : String) : List String :=
  let all := (names path).filter (· ≠ "")
  all.dropLast.filter (· ≠ ".") ++ all.getLast?.toList

end Path

end ClassForge
