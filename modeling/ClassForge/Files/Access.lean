import ClassForge.Files.Store

/-! # Reading and writing through paths

A path is followed name by name through directories that exist, so two dots lead back only out of a
directory that is there. A path has a limited size wherever it is used as it is given; the location
that it leads to is found step by step, and there only what was found so far is limited. An
operation that fails in the middle leaves what it did before.
-/

namespace ClassForge.FileStore

/-- Where following a path starts. -/
def startOf (store : FileStore) (path : String) : Location :=
  if Path.isAbsolute path then [] else store.working

/-- Follows names from a location, over locations that fit. -/
def follow (store : FileStore) (fits : Location → Bool) (location : Location) :
    List String → Except StoreError Location
  | [] => .ok location
  | name :: rest =>
    if !store.isDirectory location then .error .notADirectory
    else if Path.isIdle name then follow store fits location rest
    else if name = ".." then follow store fits location.dropLast rest
    else do
      Path.checkName name
      if !fits (location ++ [name]) then .error .invalidFilename
      else
        match store.entry? (location ++ [name]) with
        | some _ => follow store fits (location ++ [name]) rest
        | none => .error .notFound

/-- The location that a path leads to, which must exist. -/
def locate (store : FileStore) (path : String) : Except StoreError Location := do
  Path.check path
  store.follow (fun _ => true) (store.startOf path) (Path.names path)

/-- The location that a path leads to, found step by step: the path may have any size, but none of
the locations on the way. -/
def resolve (store : FileStore) (path : String) : Except StoreError Location := do
  Path.checkText path
  store.follow (fun location => location.text.utf8ByteSize ≤ Path.maxSize) (store.startOf path)
    (Path.names path)

/-- Whether a path leads to something. -/
def pathExists (store : FileStore) (path : String) : Bool :=
  (store.locate path).toOption.isSome

/-- Follows names to a directory. -/
def followToDirectory (store : FileStore) (location : Location) (names : List String) :
    Except StoreError Location := do
  let found ← store.follow (fun _ => true) location names
  if store.isDirectory found then return found else .error .notADirectory

/-! ## Reading -/

/-- The text of the file at a location. -/
def textAt (store : FileStore) (location : Location) : Except StoreError String :=
  match store.entry? location with
  | some (.file bytes) =>
    match String.fromUTF8? bytes with
    | some text => .ok text
    | none => .error .invalidData
  | some (.directory _) => .error .isADirectory
  | none => .error .notFound

/-- The text of the file that a path leads to. -/
def readText (store : FileStore) (path : String) : Except StoreError String := do
  store.textAt (← store.locate path)

/-! ## Making directories -/

/-- Why a file is in the way of a directory. It is there already if it has the name of a directory
to be made, and that is each one from the first that is missing on, and the last. -/
def inTheWay (making : Bool) (rest : List String) : StoreError :=
  if rest = [] ∨ (making ∧ rest ≠ ["."]) then .alreadyExists else .notADirectory

/-- Goes along names and makes the directories that are missing, of which the first may have been
met before. A dot at the end asks for a directory that only the name before it can make, and that
name is not made for it. -/
def makeAlong (store : FileStore) (making : Bool) (location : Location) :
    List String → Except StoreError Unit × FileStore
  | [] => (.ok (), store)
  | name :: rest =>
    if name = "." then makeAlong store making location rest
    else if name = ".." then makeAlong store making location.dropLast rest
    else
      match Path.checkName name with
      | .error e => (.error e, store)
      | .ok () =>
        match store.entry? (location ++ [name]) with
        | some (.directory _) => makeAlong store making (location ++ [name]) rest
        | some (.file _) => (.error (inTheWay making rest), store)
        | none =>
          if rest = ["."] then (.error .notFound, store)
          else
            makeAlong (store.put (location ++ [name]) (.directory [])) true (location ++ [name]) rest

/-- Makes a directory and those that lead to it. An empty path asks for nothing. -/
def makeDirectories (store : FileStore) (path : String) : Except StoreError Unit × FileStore :=
  if path = "" then (.ok (), store)
  else
    match Path.check path with
    | .error e => (.error e, store)
    | .ok () => store.makeAlong false (store.startOf path) (Path.namesToMake path)

/-! ## Writing -/

/-- Where a file of a name is put into a directory, over a file that may be there. -/
def placeIn (store : FileStore) (directory : Location) (name : String) :
    Except StoreError Location := do
  Path.checkName name
  if store.isDirectory (directory ++ [name]) then .error .isADirectory
  else return directory ++ [name]

/-- Puts a file at its place, if there is one. -/
def putFile (store : FileStore) (place : Except StoreError Location) (bytes : ByteArray) :
    Except StoreError Unit × FileStore :=
  match place with
  | .error e => (.error e, store)
  | .ok location => (.ok (), store.put location (.file bytes))

/-- Where a file is written, in a directory that exists. -/
def placeToWrite (store : FileStore) (path : String) : Except StoreError Location := do
  Path.check path
  let (above, name, slashes) := Path.lastName path
  let directory ← store.followToDirectory (store.startOf path) above
  if slashes ∨ Path.isIdle name ∨ name = ".." then .error .isADirectory
  else store.placeIn directory name

/-- Writes a file where a path leads. -/
def writeFile (store : FileStore) (path : String) (bytes : ByteArray) :
    Except StoreError Unit × FileStore :=
  store.putFile (store.placeToWrite path) bytes

/-- Writes a file and makes the directories that lead to it. -/
def writeFileAndDirectories (store : FileStore) (path : String) (bytes : ByteArray) :
    Except StoreError Unit × FileStore :=
  match store.makeDirectories ((Path.parent? path).getD "") with
  | (.error e, store) => (.error e, store)
  | (.ok (), store) => store.writeFile path bytes

/-- A name like those under which files are written before they are moved to their places. -/
def draftName : String := ".tmp000000"

/-- The directory in which a path lies. -/
def directoryOf (path : String) : String :=
  match Path.parent? path with
  | none | some "" => "."
  | some directory => directory

/-- Where a file is put that has a draft beside it. The draft has to have a path too. -/
def placeToReplace (store : FileStore) (path : String) : Except StoreError Location := do
  let directory := directoryOf path
  Path.check (Path.child directory draftName)
  let parent ← store.followToDirectory (store.startOf directory) (Path.names directory)
  Path.check path
  let (_, name, slashes) := Path.lastName path
  if slashes ∨ Path.isIdle name ∨ name = ".." then .error .isADirectory
  else store.placeIn parent name

/-- Puts a file with the given bytes at a path, in one step: a draft of it is written beside its
place and then moved there, over a file that may be there. A draft that cannot be moved is removed,
so that a failure leaves nothing behind. -/
def replaceFile (store : FileStore) (path : String) (bytes : ByteArray) :
    Except StoreError Unit × FileStore :=
  store.putFile (store.placeToReplace path) bytes

/-! ## Removing -/

/-- Removes all that is in a directory. -/
def clear (store : FileStore) (location : Location) : FileStore :=
  store.put location (.directory [])

/-- Removes an empty directory where a path leads. One that the path no longer leads to counts as
removed, and a dot names none that could be removed. -/
def removeEmpty (store : FileStore) (path : String) (location : Location) :
    Except StoreError Unit × FileStore :=
  let (above, name, _) := Path.lastName path
  match store.followToDirectory (store.startOf path) above with
  | .error .notFound => (.ok (), store)
  | .error e => (.error e, store)
  | .ok _ =>
    if Path.isIdle name then (.error .invalidInput, store) else (.ok (), store.removeAt location)

/-- Removes a file, or a directory with all that is in it. A directory is emptied first and then
looked for again, so one that is found only through an entry of its own stays, empty. -/
def remove (store : FileStore) (path : String) : Except StoreError Unit × FileStore :=
  match store.locate path with
  | .error e => (.error e, store)
  | .ok location =>
    if store.isDirectory location then (store.clear location).removeEmpty path location
    else (.ok (), store.removeAt location)

end ClassForge.FileStore
