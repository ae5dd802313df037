import ClassForge.Files.Access
import ClassForge.Proofs.Name.Segments
import ClassForge.Proofs.Outcome
import Mathlib.Data.List.Induction

/-! # Files at their places

A proper name leads one step down, and a location of proper names is found by its own path and by no
detour. A file is put where the names before the last one lead. It is the one thing that changes: all
directories stay, so what was found before is found afterwards, and the path of a place of proper names leads
to the new file.
-/

namespace ClassForge

/-- A name that leads one step down. -/
def Path.IsProper (name : String) : Prop :=
  isIdle name = false ∧ name ≠ ".." ∧ '/' ∉ name.toList

instance (name : String) : Decidable (Path.IsProper name) :=
  inferInstanceAs (Decidable (_ ∧ _))

/-- A location as it is found by following paths. -/
def Location.IsProper (location : Location) : Prop :=
  ∀ name ∈ location, Path.IsProper name

instance (location : Location) : Decidable location.IsProper :=
  inferInstanceAs (Decidable (∀ name ∈ location, Path.IsProper name))

/-! ## Paths of locations -/

section Paths

variable {location directory : Location} {name : String}

theorem Location.isProper_concat (proper : directory.IsProper) (named : Path.IsProper name) :
    Location.IsProper (directory ++ [name]) := by
  intro other member
  rcases List.mem_append.mp member with member | member
  · exact proper other member
  · exact List.mem_singleton.mp member ▸ named

theorem Location.text_eq_intercalate (nonempty : location ≠ []) :
    location.text = "/".intercalate ("" :: location) := by
  apply String.toList_injective
  rw [text, if_neg nonempty, String.toList_join, String.toList_intercalate, List.flatMap_map]
  induction location with
  | nil => contradiction
  | cons first rest ih =>
    cases rest with
    | nil => simp [List.intercalate]
    | cons second rest =>
      have later := ih (List.cons_ne_nil _ _)
      simp only [List.map_cons, List.flatMap_cons, List.intercalate_cons_cons] at later ⊢
      rw [later]
      simp

theorem Location.text_concat (directory : Location) (name : String) :
    text (directory ++ [name]) = (if directory = [] then "" else directory.text) ++ "/" ++ name := by
  apply String.toList_injective
  rw [text, if_neg (List.concat_ne_nil _ _)]
  by_cases root : directory = []
  · simp [root]
  · simp [root, text]

/-- The path of a location starts with the paths of those above it. -/
theorem Location.size_text_le (nonempty : location ≠ []) (back : Location) :
    location.text.utf8ByteSize ≤ (text (location ++ back)).utf8ByteSize := by
  have parts : text (location ++ back) = location.text ++ String.join (back.map fun name => "/" ++ name) := by
    apply String.toList_injective
    simp [text, nonempty]
  rw [parts, String.utf8ByteSize_append]
  omega

theorem Location.IsProper.slash_free (proper : location.IsProper) : ∀ name ∈ location, '/' ∉ name.toList :=
  fun name member => (proper name member).2.2

theorem Path.slash_free_names (path : String) : ∀ name ∈ names path, '/' ∉ name.toList := by
  intro name member
  obtain ⟨piece, inside, rfl⟩ := List.mem_map.mp member
  rw [String.toList_ofList]
  exact Segment.notMem_of_mem_splitOn inside

theorem Path.names_text (nonempty : location ≠ []) (free : ∀ name ∈ location, '/' ∉ name.toList) :
    names location.text = "" :: location := by
  have free : ∀ chars ∈ ("" :: location).map String.toList, '/' ∉ chars := by
    intro chars member
    obtain ⟨name, inside, rfl⟩ := List.mem_map.mp member
    rcases List.mem_cons.mp inside with rfl | inside
    · simp
    · exact free name inside
  rw [names, Location.text_eq_intercalate nonempty, String.toList_intercalate,
    show "/".toList = ['/'] from rfl, List.splitOn_intercalate _ free (by simp), List.map_map]
  simp [Function.comp_def]

theorem Path.isAbsolute_text (location : Location) : isAbsolute location.text = true := by
  rw [isAbsolute, Location.text]
  cases location with
  | nil => decide
  | cons => simp

private theorem text_ne_empty (location : Location) : location.text ≠ "" := by
  intro empty
  have absolute := Path.isAbsolute_text location
  rw [empty] at absolute
  exact absurd absolute (by decide)

theorem Path.dropIdleEnd_concat (front : List String) (name : String) :
    dropIdleEnd (front ++ [name]) = if isIdle name then dropIdleEnd front else front ++ [name] := by
  cases idle : isIdle name <;> simp [dropIdleEnd, idle]

theorem Path.dropIdleEnd_subset (names : List String) : dropIdleEnd names ⊆ names := by
  intro name member
  exact List.mem_reverse.mp ((List.dropWhile_sublist _).subset (List.mem_reverse.mp member))

section Shape

variable {path : String} {front : List String} (shape : Path.names path = "" :: (front ++ [name]))
include shape

/-- A path from the root lies in the directory that the names before its last one tell. -/
theorem FileStore.directoryOf_eq (solid : Path.isIdle name = false) :
    directoryOf path = Location.text (Path.dropIdleEnd front) := by
  have parent : Path.parent? path = some (Location.text (Path.dropIdleEnd front)) := by
    rw [Path.parent?, shape]
    simp only [Path.dropIdleEnd_concat, solid, if_neg Bool.false_ne_true]
    split
    · rename_i empty
      exact absurd empty (List.concat_ne_nil _ _)
    · rw [List.dropLast_concat]
      by_cases root : Path.dropIdleEnd front = []
      · rw [root]
        rfl
      · rw [← Location.text_eq_intercalate root, if_neg (text_ne_empty _)]
  rw [directoryOf, parent]
  split
  · rename_i missing
    cases missing
  · rename_i empty
    exact absurd (Option.some.inj empty) (text_ne_empty _)
  · rename_i other _ found
    exact (Option.some.inj found).symm

theorem Path.lastName_eq (solid : isIdle name = false) : lastName path = ("" :: front, name, false) := by
  have filled : name ≠ "" := by
    rintro rfl
    exact absurd solid (by decide)
  have kept : ((("" :: front) ++ [name]).reverse.dropWhile (· = "")).reverse = ("" :: front) ++ [name] := by
    simp [filled]
  rw [lastName, shape, ← List.cons_append]
  simp only [kept, List.dropLast_concat, List.getLastD_concat, Nat.lt_irrefl, decide_false]

end Shape

end Paths

theorem Entry.find?_append (entry : Entry) (front back : Location) :
    entry.find? (front ++ back) = (entry.find? front).bind (find? · back) := by
  induction front generalizing entry with
  | nil => simp [find?]
  | cons name rest ih =>
    cases entry with
    | file => rfl
    | directory entries =>
      rw [List.cons_append, find?, find?, Option.bind_assoc]
      exact congrArg _ (funext ih)

/-- A directory that is put where nothing lies changes no file. -/
theorem Entry.bytes?_find?_put_directory {start : Entry} {way : Location} (free : start.find? way = none)
    (other : Location) :
    ((put (.directory []) way start).find? other).bind bytes? = (start.find? other).bind bytes? := by
  induction way generalizing start other with
  | nil => cases free
  | cons name rest ih =>
    cases start with
    | file => rfl
    | directory entries =>
      cases other with
      | nil => rfl
      | cons first others =>
        rw [put, find?, find?, lookup_insert]
        by_cases same : first = name
        · subst same
          rw [if_pos rfl, Option.bind_some]
          cases there : entries.lookup first with
          | some entry =>
            rw [find?, there] at free
            exact ih free others
          | none =>
            -- The directories on the way are new, so there are no files in them.
            have empty : ((directory []).find? others).bind bytes? = none := by cases others <;> rfl
            cases rest with
            | nil => exact empty
            | cons => exact (ih rfl others).trans empty
        · rw [if_neg same]

/-- Where a name leads, if anything is there. -/
def Path.next (location : Location) (name : String) : Location :=
  if isIdle name then location else if name = ".." then location.dropLast else location ++ [name]

namespace FileStore

theorem entry?_put (store : FileStore) (directory : Location) (name : String) (entry : Entry)
    (location : Location) :
    FileStore.entry? (store.put (directory ++ [name]) entry) location =
      (Entry.put entry (directory ++ [name]) (.directory store.root)).find? location := by
  cases directory <;> rfl

/-! ## Following proper names -/

section Following

variable {store : FileStore} {fits : Location → Bool} {start found : Location}

@[simp] theorem isDirectory_nil (store : FileStore) : store.isDirectory [] = true :=
  rfl

theorem isSome_entry?_of_isDirectory {location : Location} (directory : store.isDirectory location = true) :
    (store.entry? location).isSome = true := by
  rw [isDirectory] at directory
  cases there : store.entry? location with
  | none => simp [there] at directory
  | some entry => rfl

/-- Whatever lies somewhere is a directory or a file. -/
theorem isSome_entry?_eq (store : FileStore) (location : Location) :
    (store.entry? location).isSome = (store.isDirectory location || (store.fileAt? location).isSome) := by
  rw [isDirectory, fileAt?]
  cases store.entry? location with
  | none => rfl
  | some entry => cases entry <;> rfl

theorem fileAt?_eq_join (store : FileStore) (location : Location) :
    store.fileAt? location = ((store.entry? location).map Entry.bytes?).join := by
  rw [fileAt?]
  cases store.entry? location <;> rfl

theorem isDirectory_iff {location : Location} :
    store.isDirectory location = true ↔ (store.entry? location).map Entry.bytes? = some none := by
  rw [isDirectory]
  cases store.entry? location with
  | none => simp
  | some entry => cases entry <;> simp [Entry.isDirectory, Entry.bytes?]

/-- A name leads from a location that is a directory to something that is there and fits. -/
def Leads (store : FileStore) (fits : Location → Bool) (location : Location) (name : String) : Prop :=
  store.isDirectory location = true ∧ Path.checkName name = .ok () ∧ fits (location ++ [name]) = true ∧
    (store.entry? (location ++ [name])).isSome = true

/-- Each name of a way leads on. -/
def Passes (store : FileStore) (fits : Location → Bool) (start : Location) (way : List String) : Prop :=
  ∀ front name back, way = front ++ name :: back → store.Leads fits (start ++ front) name

theorem passes_cons_iff {name : String} {rest : List String} :
    store.Passes fits start (name :: rest) ↔
      store.Leads fits start name ∧ store.Passes fits (start ++ [name]) rest := by
  constructor
  · intro passes
    constructor
    · simpa using passes [] name rest rfl
    · intro front other back same
      simpa using passes (name :: front) other back (by rw [same]; rfl)
  · rintro ⟨leads, passes⟩ front other back same
    cases front with
    | nil =>
      obtain ⟨rfl, rfl⟩ := List.cons.inj same
      simpa using leads
    | cons first front =>
      obtain ⟨rfl, rfl⟩ := List.cons.inj same
      simpa using passes front other back rfl

theorem passes_concat_iff {way : List String} {name : String} :
    store.Passes fits start (way ++ [name]) ↔
      store.Passes fits start way ∧ store.Leads fits (start ++ way) name := by
  induction way generalizing start with
  | nil =>
    rw [List.nil_append, passes_cons_iff]
    simp [Passes]
  | cons first rest ih =>
    rw [List.cons_append, passes_cons_iff, passes_cons_iff, ih, and_assoc]
    simp

theorem follow_append (start : Location) (front back : List String) :
    store.follow fits start (front ++ back) =
      store.follow fits start front >>= fun middle => store.follow fits middle back := by
  induction front generalizing start with
  | nil => rfl
  | cons name rest ih =>
    rw [List.cons_append, follow, follow]
    split
    · rfl
    · split
      · exact ih start
      · split
        · exact ih start.dropLast
        · cases Path.checkName name with
          | error => rfl
          | ok =>
            rw [ok_bind, ok_bind]
            split
            · rfl
            · split
              · exact ih (start ++ [name])
              · rfl

/-- The first of some names is followed out of a directory, to something that is there if it leads down. -/
theorem follow_cons_eq_ok_iff {name : String} {rest : List String} :
    store.follow fits start (name :: rest) = .ok found ↔ store.isDirectory start = true ∧
      (Path.isIdle name = false → name ≠ ".." → store.Leads fits start name) ∧
      store.follow fits (Path.next start name) rest = .ok found := by
  rw [follow, Path.next, Leads]
  cases inside : store.isDirectory start with
  | false => simp
  | true =>
    cases idle : Path.isIdle name with
    | true => simp
    | false =>
      by_cases up : name = ".."
      · simp [up]
      · cases Path.checkName name with
        | error => simp [up]
        | ok =>
          cases fits (start ++ [name]) with
          | false => simp [up]
          | true => cases store.entry? (start ++ [name]) <;> simp [up]

/-- What was found is found as long as nothing on the way goes away. -/
theorem follow_mono {other : FileStore} {names : List String}
    (directories : ∀ location, store.isDirectory location = true → other.isDirectory location = true)
    (entries : ∀ location, (store.entry? location).isSome = true → (other.entry? location).isSome = true)
    (done : store.follow fits start names = .ok found) : other.follow fits start names = .ok found := by
  induction names generalizing start with
  | nil => exact done
  | cons name rest ih =>
    obtain ⟨inside, leads, later⟩ := follow_cons_eq_ok_iff.mp done
    refine follow_cons_eq_ok_iff.mpr ⟨directories _ inside, fun solid down => ?_, ih later⟩
    obtain ⟨-, checked, fit, there⟩ := leads solid down
    exact ⟨directories _ inside, checked, fit, entries _ there⟩

/-- Names that are followed to something lead where they always do. -/
theorem eq_foldl_next_of_follow {names : List String} (done : store.follow fits start names = .ok found) :
    found = names.foldl Path.next start := by
  induction names generalizing start with
  | nil => exact (Except.ok.inj done).symm
  | cons name rest ih => exact ih (follow_cons_eq_ok_iff.mp done).2.2

/-- Proper names are followed one step down each. -/
theorem follow_eq_ok_iff {way : List String} (proper : ∀ name ∈ way, Path.IsProper name) :
    store.follow fits start way = .ok found ↔ store.Passes fits start way ∧ found = start ++ way := by
  induction way generalizing start with
  | nil => simp [follow, Passes, eq_comm]
  | cons name rest ih =>
    have step := proper name List.mem_cons_self
    have later : store.follow fits (start ++ [name]) rest = .ok found ↔
        store.Passes fits (start ++ [name]) rest ∧ found = start ++ [name] ++ rest :=
      ih fun name member => proper name (List.mem_cons_of_mem _ member)
    rw [passes_cons_iff, Leads, follow, step.1]
    cases store.isDirectory start with
    | false => simp
    | true =>
      cases Path.checkName name with
      | error => simp [step.2.1]
      | ok =>
        cases fits (start ++ [name]) with
        | false => simp [step.2.1]
        | true =>
          cases store.entry? (start ++ [name]) with
          | none => simp [step.2.1]
          | some => simpa [step.2.1] using later

/-- The empty name in front of a path that starts with a slash leads nowhere. -/
theorem follow_root (names : List String) : store.follow fits [] ("" :: names) = store.follow fits [] names := by
  simp [follow, Path.isIdle]

/-- The path of a location leads from the root through its names. -/
theorem follow_names_text {location : Location} (free : ∀ name ∈ location, '/' ∉ name.toList) :
    store.follow fits [] (Path.names location.text) = store.follow fits [] location := by
  by_cases root : location = []
  · rw [root, show Path.names (Location.text []) = ["", ""] by decide, follow_root, follow_root]
  · rw [Path.names_text root free, follow_root]

/-- The path of a proper location leads there, if anywhere. -/
theorem eq_of_resolve_text {location : Location} (proper : location.IsProper)
    (done : store.resolve location.text = .ok found) : found = location := by
  obtain ⟨_, _, followed⟩ := bind_eq_ok done
  rw [startOf, if_pos (Path.isAbsolute_text location), follow_names_text proper.slash_free] at followed
  exact ((follow_eq_ok_iff proper).mp followed).2

/-- What is found by names without slashes is a proper location. -/
theorem isProper_of_follow {names : List String} (home : start.IsProper)
    (free : ∀ name ∈ names, '/' ∉ name.toList) (done : store.follow fits start names = .ok found) :
    found.IsProper := by
  induction names generalizing start with
  | nil => exact Except.ok.inj done ▸ home
  | cons name rest ih =>
    have later : ∀ name ∈ rest, '/' ∉ name.toList := fun name member => free name (List.mem_cons_of_mem _ member)
    refine ih ?_ later (follow_cons_eq_ok_iff.mp done).2.2
    -- An idle name stays, `..` goes up, and only any other name is added to the location.
    rw [Path.next]
    split
    · exact home
    · rename_i solid
      split
      · exact fun name member => home name (List.dropLast_subset _ member)
      · rename_i down
        exact Location.isProper_concat home ⟨by simpa using solid, down, free name List.mem_cons_self⟩

end Following

/-! ## Putting a file -/

section Putting

variable {store : FileStore} {directory : Location} {name : String}
  (inside : store.isDirectory directory = true) (free : store.isDirectory (directory ++ [name]) = false)
include inside free

private theorem exists_entries :
    ∃ entries, (Entry.directory store.root).find? directory = some (.directory entries) ∧
      (entries.lookup name).any Entry.isDirectory = false := by
  rw [isDirectory, entry?] at inside free
  cases there : (Entry.directory store.root).find? directory with
  | none => simp [there] at inside
  | some entry =>
    cases entry with
    | file => simp [there, Entry.isDirectory] at inside
    | directory entries =>
      refine ⟨entries, rfl, ?_⟩
      rw [Entry.find?_append, there] at free
      simpa [Entry.find?] using free

private theorem map_bytes?_put_file (bytes : ByteArray) (location : Location) :
    (FileStore.entry? (store.put (directory ++ [name]) (.file bytes)) location).map Entry.bytes? =
      if location = directory ++ [name] then some (some bytes) else (store.entry? location).map Entry.bytes? := by
  obtain ⟨entries, found, vacant⟩ := exists_entries inside free
  rw [entry?_put]
  exact Entry.map_bytes?_find?_put found vacant bytes location

/-- Where no directory is in the way, one file changes. -/
theorem fileAt?_put_file (bytes : ByteArray) (location : Location) :
    (store.put (directory ++ [name]) (.file bytes)).fileAt? location =
      if location = directory ++ [name] then some bytes else store.fileAt? location := by
  rw [fileAt?_eq_join, fileAt?_eq_join, map_bytes?_put_file inside free]
  split <;> rfl

theorem isDirectory_put_file (bytes : ByteArray) (location : Location) :
    (store.put (directory ++ [name]) (.file bytes)).isDirectory location = store.isDirectory location := by
  rw [Bool.eq_iff_iff, isDirectory_iff, map_bytes?_put_file inside free]
  split
  · rename_i here
    simp [here, free]
  · exact isDirectory_iff.symm

/-- Afterwards the names that led to the directory, and the name of the file, lead to the file. -/
theorem follow_put_file {fits : Location → Bool} {start : Location} {names : List String}
    (led : store.follow fits start names = .ok directory) (named : Path.IsProper name)
    (checked : Path.checkName name = .ok ()) (fit : fits (directory ++ [name]) = true) (bytes : ByteArray) :
    (store.put (directory ++ [name]) (.file bytes)).follow fits start (names ++ [name]) = .ok (directory ++ [name]) := by
  have files := fileAt?_put_file inside free bytes
  have directories := isDirectory_put_file inside free bytes
  have entries (location : Location) :
      (FileStore.entry? (store.put (directory ++ [name]) (.file bytes)) location).isSome =
        ((store.entry? location).isSome || decide (location = directory ++ [name])) := by
    rw [isSome_entry?_eq, isSome_entry?_eq, files, directories]
    by_cases here : location = directory ++ [name] <;> simp [here]
  have before := follow_mono (fun location there => (directories location).trans there)
    (fun location there => by rw [entries, there, Bool.true_or]) led
  rw [follow_append, before, ok_bind, follow_cons_eq_ok_iff, directories, Path.next,
    if_neg (Bool.eq_false_iff.mp named.1), if_neg named.2.1]
  refine ⟨inside, fun _ _ => ⟨(directories directory).trans inside, checked, fit, ?_⟩, rfl⟩
  rw [entries, decide_eq_true rfl, Bool.or_true]

end Putting

/-! ## Replacing a file -/

/-- Putting a file at a place succeeded: the directory was found by its path, no directory lay at the place,
and the file is there now. -/
structure Replaces (store : FileStore) (directory : Location) (name : String) (bytes : ByteArray)
    (after : FileStore) : Prop where
  passes : store.Passes (fun _ => true) [] directory
  isDirectory : store.isDirectory directory = true
  isFree : store.isDirectory (directory ++ [name]) = false
  checkName : Path.checkName name = .ok ()
  check : Path.check (Location.text (directory ++ [name])) = .ok ()
  after_eq : after = store.put (directory ++ [name]) (.file bytes)

section Replacing

variable {store after : FileStore} {directory : Location} {name : String} {bytes : ByteArray}

theorem followToDirectory_eq_ok_iff {start found : Location} {names : List String} :
    store.followToDirectory start names = .ok found ↔
      store.follow (fun _ => true) start names = .ok found ∧ store.isDirectory found = true := by
  constructor
  · intro done
    obtain ⟨location, followed, checked⟩ := bind_eq_ok done
    split at checked
    · rename_i inside
      obtain rfl := Except.ok.inj checked
      exact ⟨followed, inside⟩
    · cases checked
  · rintro ⟨followed, inside⟩
    rw [followToDirectory, followed, ok_bind, if_pos inside]
    rfl

/-- Idle names at the end lead to the same directory. -/
theorem followToDirectory_dropIdleEnd (start : Location) (names : List String) :
    store.followToDirectory start (Path.dropIdleEnd names) = store.followToDirectory start names := by
  induction names using List.reverseRecOn with
  | nil => rfl
  | append_singleton front name ih =>
    cases idle : Path.isIdle name with
    | false => rw [Path.dropIdleEnd_concat, idle, if_neg Bool.false_ne_true]
    | true =>
      rw [Path.dropIdleEnd_concat, idle, if_pos rfl, ih, followToDirectory, followToDirectory, follow_append]
      cases store.follow (fun _ => true) start front with
      | error => rfl
      | ok middle =>
        simp only [ok_bind, follow, idle]
        cases inside : store.isDirectory middle <;> simp [inside, ok_bind, error_bind]

theorem putFile_eq_ok_iff {place : Except StoreError Location} :
    store.putFile place bytes = (.ok (), after) ↔
      ∃ location, place = .ok location ∧ after = store.put location (.file bytes) := by
  cases place <;> simp [putFile, eq_comm]

/-- What cannot be put leaves the store as it is. -/
theorem kept_of_putFile {place : Except StoreError Location} {cause : StoreError}
    (failed : store.putFile place bytes = (.error cause, after)) : after = store := by
  cases place with
  | error => exact (Prod.mk.inj failed).2.symm
  | ok => cases failed

/-- A file that was put at a path lies where the names before the last one led, and nothing else changed. -/
theorem exists_of_replaceFile {path : String} {front : List String}
    (shape : Path.names path = "" :: (front ++ [name])) (named : Path.IsProper name)
    (done : store.replaceFile path bytes = (.ok (), after)) :
    ∃ parent, store.followToDirectory [] front = .ok parent ∧ Path.check path = .ok () ∧
      Path.checkName name = .ok () ∧ store.isDirectory (parent ++ [name]) = false ∧
      after = store.put (parent ++ [name]) (.file bytes) := by
  have free : ∀ other ∈ Path.dropIdleEnd front, '/' ∉ other.toList := by
    intro other member
    apply Path.slash_free_names path other
    rw [shape]
    exact List.mem_cons_of_mem _ (List.mem_append_left _ (Path.dropIdleEnd_subset front member))
  obtain ⟨place, chosen, rfl⟩ := putFile_eq_ok_iff.mp done
  rw [placeToReplace, directoryOf_eq shape named.1, Path.lastName_eq shape named.1] at chosen
  obtain ⟨_, _, chosen⟩ := bind_eq_ok chosen
  obtain ⟨parent, found, chosen⟩ := bind_eq_ok chosen
  obtain ⟨_, check, chosen⟩ := bind_eq_ok chosen
  rw [startOf, if_pos (Path.isAbsolute_text _), followToDirectory, follow_names_text free, ← followToDirectory,
    followToDirectory_dropIdleEnd] at found
  have plain : ¬(false = true ∨ Path.isIdle name = true ∨ name = "..") := by
    simp [named.1, named.2.1]
  simp only [if_neg plain, placeIn] at chosen
  obtain ⟨_, checkName, chosen⟩ := bind_eq_ok chosen
  split at chosen
  · cases chosen
  · rename_i vacant
    obtain rfl := Except.ok.inj chosen
    exact ⟨parent, found, check, checkName, by simpa using vacant, rfl⟩

/-- What is read at a location depends on the file and the directory there. -/
theorem textAt_eq_elim (store : FileStore) (location : Location) :
    store.textAt location = (store.fileAt? location).elim
      (.error (if store.isDirectory location then .isADirectory else .notFound))
      fun bytes => (String.fromUTF8? bytes).elim (.error .invalidData) .ok := by
  rw [isDirectory, fileAt?, textAt]
  cases store.entry? location with
  | none => rfl
  | some entry =>
    cases entry with
    | directory => rfl
    | file bytes =>
      simp only [Option.bind_some, Entry.bytes?, Option.elim_some]
      cases String.fromUTF8? bytes <;> rfl

/-- A text can be read where a file has its bytes. -/
theorem textAt_eq_ok_iff {location : Location} {text : String} :
    store.textAt location = .ok text ↔ store.fileAt? location = some text.toUTF8 := by
  have valid : String.fromUTF8? text.toUTF8 = some text := dif_pos text.isValidUTF8
  rw [textAt_eq_elim]
  cases store.fileAt? location with
  | none => simp
  | some bytes =>
    simp only [Option.elim_some, Option.some.injEq]
    constructor
    · intro read
      cases decoded : String.fromUTF8? bytes with
      | none => simp [decoded] at read
      | some other =>
        obtain rfl : other = text := by simpa [decoded] using read
        rw [String.fromUTF8?] at decoded
        split at decoded
        · rw [← Option.some.inj decoded]
          rfl
        · cases decoded
    · rintro rfl
      rw [valid]
      rfl

theorem replaces_of_replaceFile (proper : directory.IsProper) (named : Path.IsProper name)
    (done : store.replaceFile (Location.text (directory ++ [name])) bytes = (.ok (), after)) :
    store.Replaces directory name bytes after := by
  have shape := Path.names_text (List.concat_ne_nil _ _) (Location.isProper_concat proper named).slash_free
  obtain ⟨parent, found, check, checkName, vacant, after_eq⟩ := exists_of_replaceFile shape named done
  obtain ⟨followed, inside⟩ := followToDirectory_eq_ok_iff.mp found
  obtain ⟨passes, rfl⟩ := (follow_eq_ok_iff proper).mp followed
  exact ⟨passes, inside, vacant, checkName, check, after_eq⟩

namespace Replaces

variable (replaces : store.Replaces directory name bytes after)
include replaces

/-- One file changes. -/
theorem fileAt?_eq (location : Location) :
    after.fileAt? location = if location = directory ++ [name] then some bytes else store.fileAt? location := by
  rw [replaces.after_eq, fileAt?_put_file replaces.isDirectory replaces.isFree]

/-- No directory changes. -/
theorem isDirectory_eq (location : Location) : after.isDirectory location = store.isDirectory location := by
  rw [replaces.after_eq, isDirectory_put_file replaces.isDirectory replaces.isFree]

theorem entry?_place : after.entry? (directory ++ [name]) = some (.file bytes) := by
  have there := replaces.fileAt?_eq (directory ++ [name])
  rw [if_pos rfl, fileAt?] at there
  cases entry : after.entry? (directory ++ [name]) with
  | none => simp [entry] at there
  | some entry' =>
    cases entry' with
    | file => simpa [entry, Entry.bytes?] using there
    | directory => simp [entry, Entry.bytes?] at there

theorem isDirectory_front {front back : Location} (way : directory = front ++ back) :
    after.isDirectory front = true := by
  rw [replaces.isDirectory_eq]
  cases back with
  | nil =>
    rw [List.append_nil] at way
    exact way ▸ replaces.isDirectory
  | cons step rest => simpa using (replaces.passes front step rest way).1

/-- Afterwards the way to the place is open. -/
theorem passes_place {fits : Location → Bool}
    (fit : ∀ front back, directory ++ [name] = front ++ back → front ≠ [] → fits front = true) :
    after.Passes fits [] (directory ++ [name]) := by
  rw [passes_concat_iff]
  constructor
  · intro front step back way
    have leads := replaces.passes front step back way
    have next : directory = front ++ [step] ++ back := by simpa using way
    refine ⟨replaces.isDirectory_front way, leads.2.1, ?_, ?_⟩
    · exact fit (front ++ [step]) (back ++ [name]) (by simp [next]) (List.concat_ne_nil _ _)
    · exact isSome_entry?_of_isDirectory (replaces.isDirectory_front next)
  · refine ⟨replaces.isDirectory_front (List.append_nil _).symm, replaces.checkName, ?_, ?_⟩
    · exact fit (directory ++ [name]) [] (List.append_nil _).symm (List.concat_ne_nil _ _)
    · rw [List.nil_append, replaces.entry?_place]
      rfl

/-- The path of the place leads to it. -/
theorem locate_eq (proper : directory.IsProper) (named : Path.IsProper name) :
    after.locate (Location.text (directory ++ [name])) = .ok (directory ++ [name]) := by
  have whole := Location.isProper_concat proper named
  have passes : after.Passes (fun _ => true) [] (directory ++ [name]) := replaces.passes_place fun _ _ _ _ => rfl
  rw [locate, replaces.check, ok_bind, startOf, if_pos (Path.isAbsolute_text _), follow_names_text whole.slash_free]
  exact (follow_eq_ok_iff whole).mpr ⟨passes, rfl⟩

/-- No location on the way is longer than the path that was accepted. -/
theorem resolve_eq (proper : directory.IsProper) (named : Path.IsProper name) :
    after.resolve (Location.text (directory ++ [name])) = .ok (directory ++ [name]) := by
  have whole := Location.isProper_concat proper named
  obtain ⟨_, checkText, short⟩ := bind_eq_ok replaces.check
  have bounded : (Location.text (directory ++ [name])).utf8ByteSize ≤ Path.maxSize := by
    split at short
    · cases short
    · omega
  have passes : after.Passes (fun location => location.text.utf8ByteSize ≤ Path.maxSize) [] (directory ++ [name]) := by
    apply replaces.passes_place
    intro front back way nonempty
    have shorter := Location.size_text_le nonempty back
    rw [← way] at shorter
    exact decide_eq_true (Nat.le_trans shorter bounded)
  rw [resolve, checkText, ok_bind, startOf, if_pos (Path.isAbsolute_text _), follow_names_text whole.slash_free]
  exact (follow_eq_ok_iff whole).mpr ⟨passes, rfl⟩

theorem textAt_eq {text : String} (same : bytes = text.toUTF8) : after.textAt (directory ++ [name]) = .ok text := by
  rw [textAt_eq_ok_iff, replaces.fileAt?_eq, if_pos rfl, same]

end Replaces

end Replacing

/-! ## Making directories -/

section Making

variable {store : FileStore}

theorem working_put (location : Location) (entry : Entry) : (store.put location entry).working = store.working := by
  rw [put]
  cases Entry.put entry location (.directory store.root) <;> rfl

theorem fileAt?_put_directory {directory : Location} {name : String} (free : store.entry? (directory ++ [name]) = none)
    (location : Location) :
    (store.put (directory ++ [name]) (.directory [])).fileAt? location = store.fileAt? location := by
  rw [fileAt?, entry?_put]
  exact Entry.bytes?_find?_put_directory free location

/-- Directories are made only where nothing lies. -/
theorem makeAlong_keeps (store : FileStore) (making : Bool) (start : Location) (names : List String) :
    (store.makeAlong making start names).2.working = store.working ∧
      ∀ location, (store.makeAlong making start names).2.fileAt? location = store.fileAt? location := by
  induction names generalizing store making start with
  | nil => exact ⟨rfl, fun _ => rfl⟩
  | cons name rest ih =>
    rw [makeAlong]
    split
    · exact ih store making start
    · split
      · exact ih store making start.dropLast
      · split
        · exact ⟨rfl, fun _ => rfl⟩
        · split
          · exact ih store making (start ++ [name])
          · exact ⟨rfl, fun _ => rfl⟩
          · rename_i free
            split
            · exact ⟨rfl, fun _ => rfl⟩
            · obtain ⟨home, files⟩ := ih (store.put (start ++ [name]) (.directory [])) true (start ++ [name])
              exact ⟨home.trans (working_put _ _), fun location =>
                (files location).trans (fileAt?_put_directory free location)⟩

/-- Making directories changes no file, whether it succeeds or not. -/
theorem makeDirectories_keeps (store : FileStore) (path : String) :
    (store.makeDirectories path).2.working = store.working ∧
      ∀ location, (store.makeDirectories path).2.fileAt? location = store.fileAt? location := by
  rw [makeDirectories]
  split
  · exact ⟨rfl, fun _ => rfl⟩
  · split
    · exact ⟨rfl, fun _ => rfl⟩
    · exact makeAlong_keeps store false _ _

end Making

end FileStore

end ClassForge
