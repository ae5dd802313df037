import ClassForge.Proofs.Blueprint.Reading
import ClassForge.Proofs.Command.Generation
import ClassForge.Proofs.Files.ClassFiles

/-! # Generated files stay in their directory

Writing a class changes one file, and generating a class changes that file at most. The file lies right in the
directory of generated classes if there is no slash in the name of the class. A slash can lead elsewhere: the names
before the last one are followed like those of any path.
-/

namespace ClassForge

namespace GenerateRequest

variable {request : GenerateRequest} {settings : Settings} {store : FileStore} {blueprint : Blueprint}
  {target : ClassName} {tree : Tree}

/-- The name that was asked for can be read, if that of the blueprint can. -/
theorem exists_ofText_of_target {name : ClassName} (named : ∃ text, ClassName.ofText text = .ok name)
    (asked : request.target settings name = .ok target) : ∃ text, ClassName.ofText text = .ok target := by
  have finish {requested : ClassName} (readable : ∃ text, ClassName.ofText text = .ok requested)
      (inflected : (if request.inflect then
        Request.parseClassName (settings.inflector.generatedName requested.text request.options)
        else pure requested) = .ok target) : ∃ text, ClassName.ofText text = .ok target := by
    split at inflected
    · exact ⟨_, eq_ok_of_mapError inflected⟩
    · obtain rfl := Except.ok.inj inflected
      exact readable
  rw [GenerateRequest.target] at asked
  split at asked
  · obtain ⟨requested, parsed, asked⟩ := bind_eq_ok asked
    exact finish ⟨_, eq_ok_of_mapError parsed⟩ asked
  · exact finish named asked

/-- What was generated from a file is found under the name that was asked for, which can be read. -/
theorem classOf_of_finish (described : Blueprint.ofFile store request.blueprint = .ok blueprint)
    (finished : request.finish settings blueprint = .ok (target, tree)) :
    Printer.classOf tree = .ok target ∧ ∃ text, ClassName.ofText text = .ok target := by
  have named := Blueprint.exists_ofText_name described
  have readable := exists_ofText_of_target named (target_of_finish finished)
  obtain ⟨_, read⟩ := named
  obtain ⟨_, found⟩ := readable
  have short := ClassName.short_ne_empty found
  have single := isClass_of_finish finished (ClassName.short_ne_empty read) short
  exact ⟨Printer.classOf_of_isClass single short, _, found⟩

/-- A class that is written changes the file at its place at most. -/
theorem exists_place_of_writeClass (home : store.working.IsProper) (found : Printer.classOf tree = .ok target)
    {location : Location}
    (changed : (writeClass settings store target tree).2.fileAt? location ≠ store.fileAt? location) :
    ∃ directory, settings.classDirectory (store.makeDirectories settings.directory).2 = .ok directory ∧
      directory.location.IsProper ∧
      directory.placeOf (store.makeDirectories settings.directory).2 target.text = .ok location := by
  obtain ⟨working, files⟩ := store.makeDirectories_keeps settings.directory
  rw [writeClass] at changed
  generalize store.makeDirectories settings.directory = outcome at working files changed ⊢
  obtain ⟨_ | _, made⟩ := outcome
  · exact absurd (files location) changed
  · dsimp only at working files changed ⊢
    cases chosen : settings.classDirectory made with
    | error =>
      rw [chosen] at changed
      exact absurd (files location) changed
    | ok directory =>
      rw [chosen] at changed
      dsimp only at changed
      rcases written : Printer.standard.write directory made tree with ⟨failure | code, after⟩ <;>
        rw [written] at changed
      · obtain rfl := Printer.kept_of_write written
        exact absurd (files location) changed
      · obtain ⟨name, place, same, -, led, contents, -⟩ := Printer.exists_place_of_write written
        obtain rfl := Except.ok.inj (found.symm.trans same)
        have here : location = place := by
          by_contra elsewhere
          exact changed ((contents location).trans ((if_neg elsewhere).trans (files location)))
        exact ⟨directory, rfl, ClassDirectory.isProper_of_ofPath (working ▸ home) chosen, here ▸ led⟩

/-- Whatever comes of a request, one file may have changed: that of the class that was asked for, at its place. -/
theorem exists_place_of_run (home : store.working.IsProper) {location : Location}
    (changed : (request.run settings store).2.fileAt? location ≠ store.fileAt? location) :
    ∃ blueprint target tree directory, Blueprint.ofFile store request.blueprint = .ok blueprint ∧
      request.finish settings blueprint = .ok (target, tree) ∧ (∃ text, ClassName.ofText text = .ok target) ∧
      settings.classDirectory (store.makeDirectories settings.directory).2 = .ok directory ∧
      directory.location.IsProper ∧
      directory.placeOf (store.makeDirectories settings.directory).2 target.text = .ok location := by
  rw [run] at changed
  split at changed
  · exact absurd rfl changed
  · rename_i blueprint described
    replace described := eq_ok_of_mapError described
    split at changed
    · exact absurd rfl changed
    · rename_i target tree finished
      obtain ⟨found, readable⟩ := classOf_of_finish described finished
      split at changed
      · obtain ⟨directory, chosen, proper, led⟩ := exists_place_of_writeClass home found changed
        exact ⟨blueprint, target, tree, directory, described, finished, readable, chosen, proper, led⟩
      · exact absurd rfl changed

end GenerateRequest

/-- Just those classes that have no slash in their names have a file of a proper name right in the directory of
generated classes. A class that is written changes the file at its place and nothing else, one that cannot be written
changes nothing, and a request to generate one changes that file at most. So without a slash in the name of the class,
nothing changes outside of the directory. -/
theorem generated_files_confined (store : FileStore) :
    (∀ (directory : ClassDirectory) (className : String),
      Path.IsProper (ClassDirectory.fileName className) ∧
        directory.pathOf className = Location.text (directory.location ++ [ClassDirectory.fileName className]) ↔
      '/' ∉ className.toList) ∧
    (∀ (printer : Printer) (directory : ClassDirectory) (after : FileStore) (tree : Tree) (code : String),
      directory.location.IsProper → printer.write directory store tree = (.ok code, after) →
      ∃ name place, Printer.classOf tree = .ok name ∧ directory.placeOf store name.text = .ok place ∧
        (∀ location, after.fileAt? location =
          if location = place then some (Printer.fileText code).toUTF8 else store.fileAt? location) ∧
        (∀ location, after.isDirectory location = store.isDirectory location) ∧
        ('/' ∉ name.text.toList → place = directory.location ++ [ClassDirectory.fileName name.text])) ∧
    (∀ (printer : Printer) (directory : ClassDirectory) (after : FileStore) (tree : Tree) (failure : Failure),
      printer.write directory store tree = (.error failure, after) → after = store) ∧
    (∀ (request : GenerateRequest) (settings : Settings) (location : Location),
      store.working.IsProper → (request.run settings store).2.fileAt? location ≠ store.fileAt? location →
      ∃ blueprint target tree directory, Blueprint.ofFile store request.blueprint = .ok blueprint ∧
        request.finish settings blueprint = .ok (target, tree) ∧ (∃ text, ClassName.ofText text = .ok target) ∧
        settings.classDirectory (store.makeDirectories settings.directory).2 = .ok directory ∧
        directory.placeOf (store.makeDirectories settings.directory).2 target.text = .ok location ∧
        ('/' ∉ target.text.toList → location = directory.location ++ [ClassDirectory.fileName target.text])) := by
  refine ⟨fun directory className => ?_, fun printer directory after tree code proper written => ?_,
    fun _ _ _ _ _ => Printer.kept_of_write, fun request settings location home changed => ?_⟩
  · rw [ClassDirectory.isProper_fileName_iff, and_iff_left_iff_imp]
    exact directory.pathOf_eq
  · obtain ⟨name, place, found, -, led, contents, directories⟩ := Printer.exists_place_of_write written
    exact ⟨name, place, found, led, contents, directories, fun free => ClassDirectory.placeOf_eq_ok proper free led⟩
  · obtain ⟨blueprint, target, tree, directory, described, finished, readable, chosen, proper, led⟩ :=
      GenerateRequest.exists_place_of_run home changed
    exact ⟨blueprint, target, tree, directory, described, finished, readable, chosen, led,
      fun free => ClassDirectory.placeOf_eq_ok proper free led⟩

/-- The directory `gen` beside a file, and the description of a class. -/
def keptStore : FileStore where
  root := [("evil.php", .file "keep".toUTF8), ("gen", .directory []), ("user.json", .file "[\"App\\\\User\"]".toUTF8)]

/-- A class without members, outside of all namespaces. -/
def plainTree (name : String) : Tree :=
  [.classDecl ⟨name, false, false, none, []⟩ []]

/-- A request to write the class that is described in the store. -/
def userRequest : GenerateRequest where
  blueprint := "user.json"
  write := true

/-- Settings with a directory that is not there yet. -/
def nestedSettings : Settings where
  directory := "gen/new"

theorem generated_files_confined_plain :
    (∃ code after, Printer.standard.write ⟨["gen"]⟩ keptStore (plainTree "User") = (.ok code, after) ∧
      ∀ location, location ≠ ["gen", "User.php"] → after.fileAt? location = keptStore.fileAt? location) ∧
    ∀ location, (userRequest.run nestedSettings keptStore).2.fileAt? location ≠ keptStore.fileAt? location ↔
      location = ["gen", "new", "AppUser.php"] := by
  constructor
  · have written : ∃ code after, Printer.standard.write ⟨["gen"]⟩ keptStore (plainTree "User") = (.ok code, after) :=
      ⟨_, _, rfl⟩
    obtain ⟨code, after, written⟩ := written
    obtain ⟨name, place, found, -, contents, -, stays⟩ :=
      (generated_files_confined keptStore).2.1 Printer.standard ⟨["gen"]⟩ after (plainTree "User") code
        (by decide) written
    obtain rfl : ⟨[], "User"⟩ = name := Except.ok.inj found
    have here : place = ["gen", "User.php"] := stays (by decide)
    exact ⟨code, after, written, fun location elsewhere => by rw [contents, here, if_neg elsewhere]⟩
  · intro location
    constructor
    · intro changed
      obtain ⟨blueprint, target, tree, directory, described, finished, -, chosen, -, stays⟩ :=
        (generated_files_confined keptStore).2.2.2 userRequest nestedSettings location (by decide) changed
      have named : (Blueprint.ofFile keptStore userRequest.blueprint).toOption.map Blueprint.name =
          some ⟨["App"], "User"⟩ := by
        decide +kernel
      have made : (nestedSettings.classDirectory
          (keptStore.makeDirectories nestedSettings.directory).2).toOption = some ⟨["gen", "new"]⟩ := by
        decide +kernel
      have asked : Except.ok blueprint.name = Except.ok target := GenerateRequest.target_of_finish finished
      rw [described] at named
      rw [chosen] at made
      obtain rfl : target = ⟨["App"], "User"⟩ := (Except.ok.inj asked).symm.trans (Option.some.inj named)
      obtain rfl : directory = ⟨["gen", "new"]⟩ := Option.some.inj made
      exact stays (by decide)
    · rintro rfl same
      have there : ((userRequest.run nestedSettings keptStore).2.fileAt?
          ["gen", "new", "AppUser.php"]).isSome = true := by
        decide +kernel
      rw [same] at there
      exact absurd there (by decide)

/-- A class whose name leads up is written over a file beside the directory, and one whose name starts with a slash
leads away from it. -/
theorem generated_files_confined_upwards :
    ClassName.ofText "../evil" = .ok ⟨[], "../evil"⟩ ∧
    (∃ code after, Printer.standard.write ⟨["gen"]⟩ keptStore (plainTree "../evil") = (.ok code, after) ∧
      keptStore.fileAt? ["evil.php"] = some "keep".toUTF8 ∧
      after.fileAt? ["evil.php"] = some (Printer.fileText code).toUTF8) ∧
    ClassDirectory.pathOf ⟨["gen"]⟩ "/evil" = "/evil.php" :=
  ⟨by decide, ⟨_, _, rfl, rfl, rfl⟩, by decide⟩

end ClassForge
