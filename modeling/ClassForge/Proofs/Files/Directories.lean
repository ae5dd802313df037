import ClassForge.Output.Directory
import ClassForge.Proofs.Files.Placement

/-! # Directories that were made

Making a directory goes along the names of a path that are not idle, and following the path leads along all of them,
to the same place. So after a directory was made no file lies at the end of its path.
-/

namespace ClassForge

/-! ## The names of a path -/

section Names

variable {name : String} {front : List String}

/-- Idle names can be left out. -/
theorem Path.foldl_next_filter (start : Location) (names : List String) :
    (names.filter (!isIdle ·)).foldl next start = names.foldl next start := by
  induction names generalizing start with
  | nil => rfl
  | cons name rest ih =>
    cases idle : isIdle name with
    | true =>
      have stays : next start name = start := by rw [next, if_pos idle]
      rw [List.filter_cons_of_neg (by simp [idle]), ih, List.foldl_cons, stays]
    | false => rw [List.filter_cons_of_pos (by simp [idle]), List.foldl_cons, List.foldl_cons, ih]

/-- A directory is made along all names that are not idle, if the last one is not. -/
theorem Path.namesToMake_eq {path : String} (shape : names path = front ++ [name]) (solid : isIdle name = false) :
    namesToMake path = front.filter (!isIdle ·) ++ [name] := by
  have named : name ≠ "" := by
    rintro rfl
    cases solid
  have all : (names path).filter (· ≠ "") = front.filter (· ≠ "") ++ [name] := by
    rw [shape, List.filter_append, List.filter_cons_of_pos (by simpa using named), List.filter_nil]
  have idle (other : String) : (decide (other ≠ ".") && decide (other ≠ "")) = !isIdle other := by
    rw [isIdle, Bool.not_or, Bool.and_comm, decide_not, decide_not]
  rw [namesToMake, all, List.dropLast_concat, List.getLast?_concat, List.filter_filter]
  simp only [idle]
  rfl

end Names

/-! ## Making and finding -/

namespace FileStore

variable {store after : FileStore} {start found : Location} {name path : String} {front : List String}

/-- No file lies where a directory was made. -/
theorem fileAt?_of_makeAlong {making : Bool} (solid : ∀ other ∈ front, Path.isIdle other = false)
    (named : Path.isIdle name = false) (down : name ≠ "..")
    (done : store.makeAlong making start (front ++ [name]) = (.ok (), after)) :
    after.fileAt? (front.foldl Path.next start ++ [name]) = none := by
  -- What matters is the store at the end, so the store at the start may be any.
  have stays : name ≠ "." := by
    rintro rfl
    cases named
  induction front generalizing store making start with
  | nil =>
    rw [List.nil_append, makeAlong, if_neg stays, if_neg down] at done
    rw [List.foldl_nil]
    split at done
    · cases done
    · split at done
      · rename_i there
        obtain rfl := (Prod.mk.inj done).2
        rw [fileAt?, there]
        rfl
      · cases done
      · rename_i free
        rw [if_neg (by decide)] at done
        obtain rfl := (Prod.mk.inj done).2
        rw [fileAt?_put_directory free, fileAt?, free]
        rfl
  | cons first rest ih =>
    have here := solid first List.mem_cons_self
    have later : ∀ other ∈ rest, Path.isIdle other = false := fun other member =>
      solid other (List.mem_cons_of_mem _ member)
    have moves : first ≠ "." := by
      rintro rfl
      cases here
    rw [List.cons_append, makeAlong, if_neg moves] at done
    rw [List.foldl_cons, Path.next, if_neg (by simp [here])]
    split at done
    · rename_i up
      rw [if_pos up]
      exact ih later done
    · rename_i deeper
      rw [if_neg deeper]
      split at done
      · cases done
      · split at done
        · exact ih later done
        · cases done
        · split at done
          · cases done
          · exact ih later done

/-- What lies above a directory is one. -/
theorem isDirectory_dropLast {location : Location} (inside : store.isDirectory location = true) :
    store.isDirectory location.dropLast = true := by
  induction location using List.reverseRecOn with
  | nil => rfl
  | append_singleton above name =>
    rw [List.dropLast_concat]
    rw [isDirectory, entry?, Entry.find?_append] at inside
    rw [isDirectory, entry?]
    cases there : (Entry.directory store.root).find? above with
    | none => simp [there] at inside
    | some entry =>
      cases entry with
      | file => simp [there, Entry.find?] at inside
      | directory => rfl

/-- Out of a directory, only a name that leads down can lead to a file. -/
theorem isDirectory_next {location : Location} (inside : store.isDirectory location = true)
    (flat : Path.isIdle name = true ∨ name = "..") : store.isDirectory (Path.next location name) = true := by
  rw [Path.next]
  split
  · exact inside
  · rename_i solid
    rw [if_pos (flat.resolve_left solid)]
    exact isDirectory_dropLast inside

/-- Names that lead to a file end in one that leads down. -/
theorem exists_concat_of_follow {fits : Location → Bool} {names : List String} (nonempty : names ≠ [])
    (done : store.follow fits start names = .ok found) (file : store.isDirectory found = false) :
    ∃ front name, names = front ++ [name] ∧ Path.isIdle name = false ∧ name ≠ ".." ∧
      found = front.foldl Path.next start ++ [name] ∧ (store.fileAt? found).isSome = true := by
  have shape := List.dropLast_concat_getLast nonempty
  generalize names.dropLast = front, names.getLast nonempty = name at shape
  rw [← shape, follow_append] at done
  obtain ⟨parent, led, last⟩ := bind_eq_ok done
  obtain ⟨inside, leads, here⟩ := follow_cons_eq_ok_iff.mp last
  have same : found = Path.next parent name := (Except.ok.inj here).symm
  have directory (flat : Path.isIdle name = true ∨ name = "..") : False := by
    rw [same, isDirectory_next inside flat] at file
    cases file
  have solid : Path.isIdle name = false := Bool.eq_false_iff.mpr fun idle => directory (.inl idle)
  have down : name ≠ ".." := fun up => directory (.inr up)
  have next : found = parent ++ [name] := by
    rw [same, Path.next, if_neg (Bool.eq_false_iff.mp solid), if_neg down]
  have there := (leads solid down).2.2.2
  rw [← next, isSome_entry?_eq, file, Bool.false_or] at there
  exact ⟨front, name, shape.symm, solid, down, eq_foldl_next_of_follow led ▸ next, there⟩

/-- Nothing but directories is found by a path along which directories were made. -/
theorem isDirectory_of_makeDirectories (made : store.makeDirectories path = (.ok (), after))
    (done : after.resolve path = .ok found) : after.isDirectory found = true := by
  obtain ⟨_, checked, followed⟩ := bind_eq_ok done
  have home : after.startOf path = store.startOf path := by
    have working := (store.makeDirectories_keeps path).1
    rw [made] at working
    rw [startOf, startOf, working]
  have asked : path ≠ "" := by
    rintro rfl
    cases checked
  have nonempty : Path.names path ≠ [] := by
    rw [Path.names, ne_eq, List.map_eq_nil_iff]
    exact List.splitOn_ne_nil _ _
  rw [makeDirectories, if_neg asked] at made
  split at made
  · cases made
  · by_contra outside
    obtain ⟨front, name, shape, solid, down, place, file⟩ :=
      exists_concat_of_follow nonempty followed (Bool.eq_false_iff.mpr outside)
    have kept : ∀ other ∈ front.filter (!Path.isIdle ·), Path.isIdle other = false := by
      intro other member
      simpa using (List.mem_filter.mp member).2
    rw [Path.namesToMake_eq shape solid, ← home] at made
    have vacant := fileAt?_of_makeAlong kept solid down made
    rw [Path.foldl_next_filter, ← place] at vacant
    rw [vacant] at file
    cases file

end FileStore

/-- A path whose directory was made leads to a directory, or cannot be followed. -/
theorem ClassDirectory.isSome_cause_of_ofPath {store after : FileStore} {path : String} {failure : DirectoryError}
    (made : store.makeDirectories path = (.ok (), after)) (refused : ofPath after path = .error failure) :
    failure.cause.isSome = true := by
  rw [ofPath] at refused
  split at refused
  · obtain rfl := Except.error.inj refused
    rfl
  · rename_i location found
    rw [if_pos (FileStore.isDirectory_of_makeDirectories made found)] at refused
    cases refused

end ClassForge
