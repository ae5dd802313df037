import ClassForge.Output.Emit
import ClassForge.Proofs.Files.Placement

/-! # The files of classes

The path of a class starts at the root and ends in a proper name, whatever the class is called. Writing a
class puts its file where the other names of that path lead, and changes nothing else. A class without a slash in its
name has its file right in the directory of generated classes.
-/

namespace ClassForge

namespace ClassDirectory

variable {className : String}

/-- A name that ends like the files of classes is proper, unless there is a slash in it. -/
private theorem isProper_php {stem : List Char} (free : '/' ∉ stem) :
    Path.IsProper (String.ofList (stem ++ ".php".toList)) := by
  have long : 4 ≤ (String.ofList (stem ++ ".php".toList)).toList.length := by
    rw [String.toList_ofList, List.length_append]
    exact Nat.le_add_left _ _
  have other {short : String} (small : short.toList.length < 4) : String.ofList (stem ++ ".php".toList) ≠ short := by
    intro same
    rw [same] at long
    omega
  refine ⟨?_, other (by decide), ?_⟩
  · rw [Path.isIdle, Bool.or_eq_false_iff, decide_eq_false_iff_not, decide_eq_false_iff_not]
    exact ⟨other (by decide), other (by decide)⟩
  · rw [String.toList_ofList, List.mem_append]
    rintro (inside | inside)
    · exact free inside
    · exact absurd inside (by decide)

theorem fileName_eq (className : String) :
    fileName className = String.ofList (className.toList.filter (· != separator) ++ ".php".toList) := by
  rw [fileName, String.ofList_append, String.ofList_toList]

/-- The file of a class has a proper name, as long as the class has no slash. -/
theorem isProper_fileName (free : '/' ∉ className.toList) : Path.IsProper (fileName className) := by
  rw [fileName_eq]
  exact isProper_php fun inside => free (List.mem_filter.mp inside).1

/-- Only a slash in the name of a class can keep the name of its file from being proper. -/
theorem isProper_fileName_iff : Path.IsProper (fileName className) ↔ '/' ∉ className.toList := by
  refine ⟨fun proper inside => ?_, isProper_fileName⟩
  have kept : '/' ∈ className.toList.filter (· != separator) := List.mem_filter.mpr ⟨inside, by decide⟩
  rw [fileName_eq] at proper
  apply proper.2.2
  rw [String.toList_ofList]
  exact List.mem_append_left _ kept

/-- The path of a class starts at the root and ends like the files of classes. -/
private theorem exists_toList_pathOf (directory : ClassDirectory) (className : String) :
    ∃ chars, (directory.pathOf className).toList = '/' :: (chars ++ ".php".toList) := by
  rw [pathOf, fileName_eq]
  generalize className.toList.filter (· != separator) = stem
  split
  · rename_i absolute
    rw [String.toList_ofList] at absolute ⊢
    cases stem with
    | nil => exact absurd absolute (by decide)
    | cons first rest =>
      obtain rfl := Option.some.inj absolute
      exact ⟨rest, rfl⟩
  · split
    · exact ⟨stem, by simp⟩
    · obtain ⟨rest, text⟩ : ∃ rest, directory.location.text.toList = '/' :: rest := by
        have absolute := Path.isAbsolute_text directory.location
        rw [Path.isAbsolute, decide_eq_true_iff] at absolute
        exact List.head?_eq_some_iff.mp absolute
      exact ⟨rest ++ '/' :: stem, by simp [text]⟩

/-- The path of any class has a proper last name. -/
theorem exists_names_pathOf (directory : ClassDirectory) (className : String) :
    ∃ front name, Path.names (directory.pathOf className) = "" :: (front ++ [name]) ∧ Path.IsProper name := by
  obtain ⟨chars, text⟩ := exists_toList_pathOf directory className
  -- The last slash of the path is the last one before the ending.
  obtain ⟨back, front, apart, free⟩ : ∃ back front, ('/' :: chars).reverse = back ++ '/' :: front ∧ '/' ∉ back :=
    List.eq_append_cons_of_mem (by simp)
  have parts : '/' :: chars = front.reverse ++ '/' :: back.reverse := by
    rw [← List.reverse_reverse ('/' :: chars), apart]
    simp
  have free : '/' ∉ back.reverse := fun inside => free (List.mem_reverse.mp inside)
  have alone : '/' ∉ back.reverse ++ ".php".toList := by
    rw [List.mem_append]
    rintro (inside | inside)
    · exact free inside
    · exact absurd inside (by decide)
  have names : Path.names (directory.pathOf className) =
      (front.reverse.splitOn '/').map String.ofList ++ [String.ofList (back.reverse ++ ".php".toList)] := by
    rw [Path.names, text, ← List.cons_append, parts, List.append_assoc, List.cons_append,
      List.splitOn_append_cons_self, List.splitOn_eq_singleton alone, List.map_append, List.map_singleton]
  have first : ∃ rest, (front.reverse.splitOn '/').map String.ofList = "" :: rest := by
    cases start : front.reverse with
    | nil => exact ⟨[], rfl⟩
    | cons first rest =>
      rw [start] at parts
      obtain rfl := (List.cons.inj parts).1
      rw [List.splitOn_cons_eq_if_modifyHead, if_pos (beq_self_eq_true _)]
      exact ⟨_, rfl⟩
  obtain ⟨rest, first⟩ := first
  exact ⟨rest, _, names.trans (by rw [first]; rfl), isProper_php free⟩

theorem isAbsolute_pathOf (directory : ClassDirectory) (className : String) :
    Path.isAbsolute (directory.pathOf className) = true := by
  obtain ⟨chars, text⟩ := exists_toList_pathOf directory className
  rw [Path.isAbsolute, text]
  rfl

theorem pathOf_eq (directory : ClassDirectory) (free : '/' ∉ className.toList) :
    directory.pathOf className = Location.text (directory.location ++ [fileName className]) := by
  have relative : (fileName className).toList.head? ≠ some '/' := by
    intro first
    exact (isProper_fileName free).2.2 (List.mem_of_head? first)
  rw [pathOf, if_neg relative, Location.text_concat]
  split
  · rw [String.empty_append]
  · rfl

/-- A directory that was chosen by a path has a proper location, if the working directory has one. -/
theorem isProper_of_ofPath {store : FileStore} (home : store.working.IsProper) {path : String}
    {directory : ClassDirectory} (chosen : ofPath store path = .ok directory) : directory.location.IsProper := by
  rw [ofPath] at chosen
  split at chosen
  · cases chosen
  · rename_i location found
    split at chosen
    · obtain rfl := Except.ok.inj chosen
      obtain ⟨_, _, followed⟩ := bind_eq_ok found
      refine FileStore.isProper_of_follow ?_ ?_ followed
      · rw [FileStore.startOf]
        split
        · exact fun _ member => absurd member List.not_mem_nil
        · exact home
      · exact Path.slash_free_names path
    · cases chosen

/-- Where the file of a class is put: all names of its path but the last lead to a directory. -/
def placeOf (directory : ClassDirectory) (store : FileStore) (className : String) : Except StoreError Location := do
  let names := Path.names (directory.pathOf className)
  let parent ← store.followToDirectory [] names.dropLast
  return parent ++ [names.getLastD ""]

theorem placeOf_eq {directory : ClassDirectory} {front : List String} {name : String}
    (shape : Path.names (directory.pathOf className) = "" :: (front ++ [name])) (store : FileStore) :
    directory.placeOf store className = (store.followToDirectory [] front).map (· ++ [name]) := by
  have skip : store.followToDirectory [] ("" :: front) = store.followToDirectory [] front := by
    rw [FileStore.followToDirectory, FileStore.follow_root, ← FileStore.followToDirectory]
  rw [placeOf, shape, ← List.cons_append, List.dropLast_concat, List.getLastD_concat, skip]
  rfl

/-- Without a slash in the name of the class, its place is right in the directory. -/
theorem placeOf_eq_ok {directory : ClassDirectory} (proper : directory.location.IsProper)
    (free : '/' ∉ className.toList) {store : FileStore} {place : Location}
    (found : directory.placeOf store className = .ok place) : place = directory.location ++ [fileName className] := by
  have whole := Location.isProper_concat proper (isProper_fileName free)
  have shape : Path.names (directory.pathOf className) = "" :: (directory.location ++ [fileName className]) := by
    rw [pathOf_eq directory free, Path.names_text (List.concat_ne_nil _ _) whole.slash_free]
  rw [placeOf_eq shape] at found
  cases led : store.followToDirectory [] directory.location with
  | error =>
    rw [led] at found
    cases found
  | ok parent =>
    have followed := (FileStore.followToDirectory_eq_ok_iff.mp led).1
    rw [led, ((FileStore.follow_eq_ok_iff proper).mp followed).2, List.nil_append] at found
    exact (Except.ok.inj found).symm

end ClassDirectory

/-! ## Writing -/

section Writing

variable {printer : Printer} {directory : ClassDirectory} {store after : FileStore} {tree : Tree} {code : String}

/-- Writing succeeds if the tree has one class whose file can be put at its path. -/
theorem Printer.write_eq_ok_iff :
    printer.write directory store tree = (.ok code, after) ↔
      ∃ name, classOf tree = .ok name ∧ code = printer tree ∧
        store.replaceFile (directory.pathOf name.text) (fileText code).toUTF8 = (.ok (), after) := by
  rw [write]
  cases classOf tree with
  | error => simp
  | ok name =>
    dsimp only
    rcases replaced : store.replaceFile (directory.pathOf name.text) (fileText (printer tree)).toUTF8 with
      ⟨cause | _, left⟩
    · refine ⟨nofun, ?_⟩
      rintro ⟨_, ⟨⟩, rfl, done⟩
      cases replaced.symm.trans done
    · constructor
      · rintro ⟨⟩
        exact ⟨name, rfl, rfl, replaced⟩
      · rintro ⟨_, ⟨⟩, rfl, done⟩
        cases replaced.symm.trans done
        rfl

/-- Writing fails if the tree has not one class, or if its file cannot be put at its path. -/
theorem Printer.write_eq_error_iff {failure : Failure} :
    printer.write directory store tree = (.error failure, after) ↔
      (∃ cause, classOf tree = .error cause ∧ failure = .pass cause ∧ after = store) ∨
        ∃ name cause, classOf tree = .ok name ∧ failure = .store cause ∧
          store.replaceFile (directory.pathOf name.text) (fileText (printer tree)).toUTF8 = (.error cause, after) := by
  rw [write]
  cases classOf tree with
  | error cause => simp [eq_comm]
  | ok name =>
    dsimp only
    rcases replaced : store.replaceFile (directory.pathOf name.text) (fileText (printer tree)).toUTF8 with
      ⟨cause | _, left⟩
    · constructor
      · rintro ⟨⟩
        exact .inr ⟨name, cause, rfl, rfl, replaced⟩
      · rintro (⟨_, ⟨⟩, -⟩ | ⟨_, _, ⟨⟩, rfl, done⟩)
        cases replaced.symm.trans done
        rfl
    · refine ⟨nofun, ?_⟩
      rintro (⟨_, ⟨⟩, -⟩ | ⟨_, _, ⟨⟩, -, done⟩)
      cases replaced.symm.trans done

/-- Whatever keeps a class from being written, all files and directories stay as they are. -/
theorem Printer.kept_of_write {failure : Failure}
    (failed : printer.write directory store tree = (.error failure, after)) : after = store := by
  obtain ⟨_, -, -, kept⟩ | ⟨_, _, -, -, refused⟩ := write_eq_error_iff.mp failed
  · exact kept
  · exact FileStore.kept_of_putFile refused

/-- A class that was written is in the file at its place, and nothing else has changed. -/
theorem Printer.exists_place_of_write (written : printer.write directory store tree = (.ok code, after)) :
    ∃ name place, classOf tree = .ok name ∧ code = printer tree ∧ directory.placeOf store name.text = .ok place ∧
      (∀ location, after.fileAt? location =
        if location = place then some (fileText code).toUTF8 else store.fileAt? location) ∧
      ∀ location, after.isDirectory location = store.isDirectory location := by
  obtain ⟨name, found, printed, replaced⟩ := write_eq_ok_iff.mp written
  obtain ⟨front, last, shape, named⟩ := directory.exists_names_pathOf name.text
  obtain ⟨parent, led, -, -, vacant, rfl⟩ := FileStore.exists_of_replaceFile shape named replaced
  have inside := (FileStore.followToDirectory_eq_ok_iff.mp led).2
  refine ⟨name, parent ++ [last], found, printed, ?_, ?_, ?_⟩
  · rw [ClassDirectory.placeOf_eq shape, led]
    rfl
  · exact FileStore.fileAt?_put_file inside vacant _
  · exact FileStore.isDirectory_put_file inside vacant _

/-- Afterwards the path of the class leads to its file. -/
theorem Printer.exists_locate_of_write (written : printer.write directory store tree = (.ok code, after)) :
    ∃ name place, classOf tree = .ok name ∧ directory.placeOf store name.text = .ok place ∧
      after.locate (directory.pathOf name.text) = .ok place ∧ after.working = store.working := by
  obtain ⟨name, found, -, replaced⟩ := write_eq_ok_iff.mp written
  obtain ⟨front, last, shape, named⟩ := directory.exists_names_pathOf name.text
  obtain ⟨parent, led, check, checkName, vacant, rfl⟩ := FileStore.exists_of_replaceFile shape named replaced
  obtain ⟨followed, inside⟩ := FileStore.followToDirectory_eq_ok_iff.mp led
  refine ⟨name, parent ++ [last], found, ?_, ?_, FileStore.working_put _ _⟩
  · rw [ClassDirectory.placeOf_eq shape, led]
    rfl
  · rw [FileStore.locate, check, ok_bind, FileStore.startOf, if_pos (directory.isAbsolute_pathOf _), shape,
      FileStore.follow_root]
    exact FileStore.follow_put_file inside vacant followed named checkName rfl _

end Writing

end ClassForge
