import ClassForge.Proofs.Command.Confinement
import ClassForge.Proofs.Files.Directories

/-! # A class is written, or nothing happens

All that can be wrong with a request is found before the first directory is made. From then on only operations on
files fail: the one class of the finished tree is found, and the directory that was made is one.
-/

namespace ClassForge

/-- Whether an operation on files failed. -/
def CommandError.isStorage : CommandError → Bool
  | .settings _ (.store _) => true
  | .blueprint _ (.store _) => true
  | .makeDirectory _ => true
  | .directory failure => failure.cause.isSome
  | .write (.store _) => true
  | _ => false

section Writing

variable {printer : Printer} {directory : ClassDirectory} {store after : FileStore} {tree : Tree}

/-- Once the class of a tree is known, only the store can refuse it. -/
theorem Printer.exists_store_of_write {name : ClassName} (found : classOf tree = .ok name) {failure : Failure}
    (failed : printer.write directory store tree = (.error failure, after)) : ∃ cause, failure = .store cause := by
  obtain ⟨_, missing, -⟩ | ⟨_, cause, -, refused, -⟩ := write_eq_error_iff.mp failed
  · cases found.symm.trans missing
  · exact ⟨cause, refused⟩

/-- Whether a tree has one class to be written does not depend on any files, and if it has not, they stay. -/
theorem Printer.write_eq_pass_iff {cause : PassError} :
    printer.write directory store tree = (.error (.pass cause), after) ↔
      classOf tree = .error cause ∧ after = store := by
  rw [write_eq_error_iff]
  constructor
  · rintro (⟨_, missing, same, kept⟩ | ⟨_, _, -, other, -⟩)
    · obtain rfl := Failure.pass.inj same
      exact ⟨missing, kept⟩
    · cases other
  · rintro ⟨missing, kept⟩
    exact .inl ⟨cause, missing, rfl, kept⟩

end Writing

namespace GenerateRequest

variable {request : GenerateRequest} {settings : Settings} {store after : FileStore} {cause : CommandError}

/-- A class that is found can be written unless an operation on files fails. -/
theorem isStorage_of_writeClass {target name : ClassName} {tree : Tree} (found : Printer.classOf tree = .ok name)
    (failed : writeClass settings store target tree = (.error cause, after)) : cause.isStorage = true := by
  have reason {failure : CommandError} {result : FileStore}
      (same : ((.error failure, result) : Except CommandError String × FileStore) = (.error cause, after))
      (storage : failure.isStorage = true) : cause.isStorage = true :=
    Except.error.inj (Prod.mk.inj same).1 ▸ storage
  rw [writeClass] at failed
  split at failed
  · exact reason failed rfl
  · rename_i made done
    split at failed
    · rename_i failure refused
      exact reason failed (ClassDirectory.isSome_cause_of_ofPath done refused)
    · split at failed
      · rename_i failure refused
        obtain ⟨_, rfl⟩ := Printer.exists_store_of_write found refused
        exact reason failed rfl
      · cases failed

/-- A request that fails for another reason leaves all files and directories as they are. -/
theorem store_eq_of_run (failed : request.run settings store = (.error cause, after))
    (other : cause.isStorage = false) : after = store := by
  rw [run] at failed
  split at failed
  · exact (Prod.mk.inj failed).2.symm
  · rename_i blueprint described
    split at failed
    · exact (Prod.mk.inj failed).2.symm
    · rename_i target tree finished
      split at failed
      · obtain ⟨found, -⟩ := classOf_of_finish (eq_ok_of_mapError described) finished
        rw [isStorage_of_writeClass found failed] at other
        cases other
      · exact (Prod.mk.inj failed).2.symm

end GenerateRequest

/-- A tree that has not one class to be written is refused whatever files there are, and no tree that is refused changes
any of them. One that is written changes what lies at the path of its class, and that is the code behind the tag and two
line breaks. A request that fails for any reason but an operation on files changes nothing. -/
theorem write_all_or_nothing (store : FileStore) :
    (∀ (printer : Printer) (directory : ClassDirectory) (tree : Tree) (cause : PassError) (after : FileStore),
      printer.write directory store tree = (.error (.pass cause), after) ↔
        Printer.classOf tree = .error cause ∧ after = store) ∧
    (∀ (printer : Printer) (directory : ClassDirectory) (tree : Tree) (failure : Failure) (after : FileStore),
      printer.write directory store tree = (.error failure, after) → after = store) ∧
    (∀ (printer : Printer) (directory : ClassDirectory) (tree : Tree) (code : String) (after : FileStore),
      printer.write directory store tree = (.ok code, after) →
      ∃ name place, Printer.classOf tree = .ok name ∧ code = printer tree ∧
        after.locate (directory.pathOf name.text) = .ok place ∧
        (∀ location, after.fileAt? location =
          if location = place then some (openTag ++ "\n\n" ++ code).toUTF8 else store.fileAt? location) ∧
        (∀ location, after.isDirectory location = store.isDirectory location) ∧ after.working = store.working) ∧
    ∀ (request : GenerateRequest) (settings : Settings) (cause : CommandError) (after : FileStore),
      request.run settings store = (.error cause, after) → cause.isStorage = false → after = store := by
  refine ⟨fun _ _ _ _ _ => Printer.write_eq_pass_iff, fun _ _ _ _ _ => Printer.kept_of_write,
    fun printer directory tree code after written => ?_, fun _ _ _ _ => GenerateRequest.store_eq_of_run⟩
  obtain ⟨name, place, found, printed, led, contents, directories⟩ := Printer.exists_place_of_write written
  obtain ⟨other, again, same, ledAgain, located, working⟩ := Printer.exists_locate_of_write written
  obtain rfl := Except.ok.inj (found.symm.trans same)
  obtain rfl := Except.ok.inj (led.symm.trans ledAgain)
  exact ⟨name, place, found, printed, located, contents, directories, working⟩

/-- A request for a class whose parent has no name. -/
def orphanRequest : GenerateRequest :=
  { userRequest with extension := some "" }

/-- A tree of two classes is refused and no file is written, one class is written, and a parent without a name leaves
the directory that was asked for unmade. -/
theorem write_all_or_nothing_kept :
    Printer.standard.write ⟨["gen"]⟩ keptStore (plainTree "A" ++ plainTree "B") =
      (.error (.pass (.ambiguous "multiple classes discovered")), keptStore) ∧
    (∃ code after place, Printer.standard.write ⟨["gen"]⟩ keptStore (plainTree "User") = (.ok code, after) ∧
      after.locate "/gen/User.php" = .ok place ∧ ∀ location, after.fileAt? location =
        if location = place then some (openTag ++ "\n\n" ++ code).toUTF8 else keptStore.fileAt? location) ∧
    orphanRequest.run nestedSettings keptStore = (.error (.className "" .empty), keptStore) := by
  obtain ⟨refused, -, written, failed⟩ := write_all_or_nothing keptStore
  refine ⟨?_, ?_, ?_⟩
  · have ambiguous : Printer.classOf (plainTree "A" ++ plainTree "B") =
        .error (.ambiguous "multiple classes discovered") := by
      decide +kernel
    exact (refused Printer.standard ⟨["gen"]⟩ (plainTree "A" ++ plainTree "B") _ keptStore).mpr ⟨ambiguous, rfl⟩
  · have done : ∃ code after, Printer.standard.write ⟨["gen"]⟩ keptStore (plainTree "User") = (.ok code, after) :=
      ⟨_, _, rfl⟩
    obtain ⟨code, after, done⟩ := done
    obtain ⟨name, place, found, -, located, contents, -⟩ :=
      written Printer.standard ⟨["gen"]⟩ (plainTree "User") code after done
    obtain rfl : ⟨[], "User"⟩ = name := Except.ok.inj found
    have path : ClassDirectory.pathOf ⟨["gen"]⟩ (ClassName.text ⟨[], "User"⟩) = "/gen/User.php" := by decide
    exact ⟨code, after, place, done, path ▸ located, contents⟩
  · have invalid : (orphanRequest.run nestedSettings keptStore).1 = .error (.className "" .empty) := by
      decide +kernel
    cases whole : orphanRequest.run nestedSettings keptStore with
    | mk result after =>
      rw [whole] at invalid
      obtain rfl : result = .error (.className "" .empty) := invalid
      rw [failed orphanRequest nestedSettings (.className "" .empty) after whole rfl]

end ClassForge
