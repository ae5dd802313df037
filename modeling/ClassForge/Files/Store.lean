import ClassForge.Files.Path

/-! # A store of files

Files and directories as a value: a tree of entries by name. What lies at a location is a file with
its bytes, a directory, or nothing; so a store is known by `fileAt?` and `isDirectory`, and each
operation says what it does to them. Whatever lies somewhere lies in a directory.
-/

namespace ClassForge

/-- A file, or a directory with its entries in the order of their names. -/
inductive Entry where
  | file (bytes : ByteArray)
  | directory (entries : List (String × Entry))

namespace Entry

/-- The bytes of a file. -/
def bytes? : Entry → Option ByteArray
  | .file bytes => some bytes
  | .directory _ => none

def isDirectory : Entry → Bool
  | .file _ => false
  | .directory _ => true

/-- What lies at the end of a way that starts at an entry. -/
def find? : Entry → Location → Option Entry
  | entry, [] => some entry
  | .file _, _ :: _ => none
  | .directory entries, name :: rest => (entries.lookup name).bind (find? · rest)

/-- Puts an entry at its place in order, over one of the same name. -/
def insert (name : String) (entry : Entry) : List (String × Entry) → List (String × Entry)
  | [] => [(name, entry)]
  | (other, old) :: rest =>
    if name = other then (name, entry) :: rest
    else if name < other then (name, entry) :: (other, old) :: rest
    else (other, old) :: insert name entry rest

/-- Puts an entry at the end of a way, in place of what was there. Directories missing on the way
are made; a file on the way stays as it is. -/
def put (new : Entry) : Location → Entry → Entry
  | [], _ => new
  | _ :: _, .file bytes => .file bytes
  | name :: rest, .directory entries =>
    .directory (insert name (put new rest ((entries.lookup name).getD (.directory []))) entries)

/-- Removes what lies at the end of a way, which has one name at least. -/
def erase : Location → Entry → Entry
  | name :: next :: rest, .directory entries =>
    match entries.lookup name with
    | some entry => .directory (insert name (erase (next :: rest) entry) entries)
    | none => .directory entries
  | [name], .directory entries => .directory (entries.filter (·.1 ≠ name))
  | _, entry => entry

mutual

/-- All that lies inside an entry, each directory before its own entries, with the ways there. -/
def inside : Entry → List (Location × Entry)
  | .file _ => []
  | .directory entries => insideAll entries

def insideAll : List (String × Entry) → List (Location × Entry)
  | [] => []
  | (name, entry) :: rest =>
    ([name], entry) :: (entry.inside.map fun (way, found) => (name :: way, found)) ++ insideAll rest

end

theorem lookup_cons_eq_ite (name : String) (entry : Entry) (entries : List (String × Entry))
    (sought : String) :
    ((name, entry) :: entries).lookup sought =
      if sought = name then some entry else entries.lookup sought := by
  by_cases same : sought = name
  · simp [same]
  · simp [List.lookup_cons, same, beq_eq_false_iff_ne.mpr same]

theorem lookup_insert (name : String) (entry : Entry) (entries : List (String × Entry))
    (sought : String) :
    (insert name entry entries).lookup sought =
      if sought = name then some entry else entries.lookup sought := by
  induction entries with
  | nil => simp only [insert, lookup_cons_eq_ite]
  | cons head rest ih =>
    obtain ⟨other, old⟩ := head
    simp only [insert]
    split
    · next equal =>
      subst equal
      simp only [lookup_cons_eq_ite]
      split <;> rfl
    · next apart =>
      split
      · simp only [lookup_cons_eq_ite]
      · simp only [lookup_cons_eq_ite, ih]
        by_cases same : sought = name
        · subst same
          simp [apart]
        · simp [same]

/-- A file put into a directory, over no other directory, is the one thing that changes: at the end
of every other way lies what was there, a file with its bytes, a directory, or nothing. -/
theorem map_bytes?_find?_put {start : Entry} {directory : Location}
    {entries : List (String × Entry)} (found : start.find? directory = some (.directory entries))
    {name : String} (free : (entries.lookup name).any isDirectory = false) (bytes : ByteArray)
    (way : Location) :
    ((put (.file bytes) (directory ++ [name]) start).find? way).map bytes? =
      if way = directory ++ [name] then some (some bytes) else (start.find? way).map bytes? := by
  induction directory generalizing start way with
  | nil =>
    simp only [find?, Option.some.injEq] at found
    subst found
    cases way with
    | nil => simp [put, find?, bytes?]
    | cons first rest =>
      simp only [List.nil_append, put, find?, lookup_insert]
      by_cases same : first = name
      · subst same
        cases rest with
        | nil => simp [find?, bytes?]
        | cons next rest =>
          cases there : entries.lookup first with
          | none => simp [find?]
          | some entry => cases entry <;> simp_all [find?, isDirectory]
      · simp [same]
  | cons step steps ih =>
    cases start with
    | file _ => simp [find?] at found
    | directory inner =>
      simp only [find?, Option.bind_eq_some_iff] at found
      obtain ⟨entry, there, found⟩ := found
      cases way with
      | nil => simp [put, find?, bytes?]
      | cons first rest =>
        simp only [List.cons_append, put, find?, lookup_insert, there, Option.getD_some]
        by_cases same : first = step
        · subst same
          simp [ih found, there]
        · simp [same]

end Entry

/-- The entries of the root, and the working directory. -/
structure FileStore where
  root : List (String × Entry) := []
  working : Location := []

namespace FileStore

/-- What lies at a location. -/
def entry? (store : FileStore) (location : Location) : Option Entry :=
  (Entry.directory store.root).find? location

/-- The bytes of the file at a location. -/
def fileAt? (store : FileStore) (location : Location) : Option ByteArray :=
  (store.entry? location).bind Entry.bytes?

/-- Whether a directory lies at a location. -/
def isDirectory (store : FileStore) (location : Location) : Bool :=
  (store.entry? location).any Entry.isDirectory

/-- The store whose root is an entry, which has to be a directory. -/
def withRoot (store : FileStore) : Entry → FileStore
  | .directory root => { store with root }
  | .file _ => store

/-- Puts an entry at a location, in place of what was there. -/
def put (store : FileStore) (location : Location) (entry : Entry) : FileStore :=
  store.withRoot (Entry.put entry location (.directory store.root))

/-- Removes what lies at a location, with all that is in it. The root stays. -/
def removeAt (store : FileStore) (location : Location) : FileStore :=
  store.withRoot (Entry.erase location (.directory store.root))

/-! ## Listing -/

/-- The entries below a location in order, each directory before its own, with their names from
there. -/
def below (store : FileStore) (location : Location) : List (Location × Entry) :=
  match store.entry? location with
  | some entry => entry.inside
  | none => []

/-- What has to be put where to come from one store to another, if nothing is removed. Directories
come before what is in them. -/
def changes (store after : FileStore) : List (Location × Entry) :=
  (after.below []).filter fun (location, entry) =>
    match entry with
    | .directory _ => !store.isDirectory location
    | .file bytes => store.fileAt? location != some bytes

/-- A location next to the root where nothing lies and that is not among those taken. -/
def unusedLocation (store : FileStore) (taken : List Location) : Location :=
  let candidates := (List.range (store.root.length + taken.length + 1)).map fun n =>
    ["scratch-" ++ toString n]
  (candidates.find? fun location =>
    (store.entry? location).isNone && !taken.contains location).getD []

end FileStore

end ClassForge
