import ClassForge.Proofs.Registry.Loading

/-! # Runs of writing and loading

Generated classes are written to one directory and loaded from it, in any order. All along, each file of
the directory is that of a class that was written, and each file that was taken in belongs to a written
class that is defined. A class that is reported as loaded is therefore defined, unless another class was
written to the same file. The name of a file has no separators, so this does happen: to user's names that
differ in nothing else.
-/

namespace ClassForge

/-- Something that is done in a run. -/
inductive Action where
  | write (tree : Tree)
  | load (name : String)

/-- The files and the registry of a run. -/
structure World where
  store : FileStore
  registry : Registry

namespace World

/-- Whatever comes of an action, the run goes on with the files and the registry that it leaves. -/
def step (loader : Autoloader) (world : World) : Action → World
  | .write tree => { world with store := (Printer.standard.write loader.directory world.store tree).2 }
  | .load name => { world with registry := (loader.load world.registry world.store name).2 }

def run (loader : Autoloader) (world : World) (actions : List Action) : World :=
  actions.foldl (step loader) world

/-- Each file of the directory is that of a class in question, and each file of it that was taken in belongs
to such a class, which is defined. -/
structure Accounted (loader : Autoloader) (written : Tree → ClassName → Prop) (world : World) : Prop where
  files : ∀ name bytes, world.store.fileAt? (loader.directory.location ++ [name]) = some bytes →
    ∃ tree target, written tree target ∧ ClassDirectory.fileName target.text = name ∧
      bytes = (Printer.fileText tree.source).toUTF8
  required : ∀ name, loader.directory.location ++ [name] ∈ world.registry.required →
    ∃ tree target, written tree target ∧ ClassDirectory.fileName target.text = name ∧
      target.text ∈ world.registry.defined

end World

namespace World

theorem Accounted.of_empty {loader : Autoloader} {written : Tree → ClassName → Prop} {world : World}
    (empty : ∀ name, world.store.fileAt? (loader.directory.location ++ [name]) = none)
    (fresh : world.registry.required = []) : world.Accounted loader written := by
  constructor
  · intro name bytes there
    rw [empty] at there
    cases there
  · intro name member
    rw [fresh] at member
    cases member

section Invariant

variable {loader : Autoloader} (regular : loader.inflector.IsValid) (proper : loader.directory.location.IsProper)
  {written : Tree → ClassName → Prop}
  (inflected : ∀ tree target, written tree target → loader.inflector.Makes target ∧ tree.IsClass target)
include regular inflected

/-- A file of the directory that is taken in defines the class that it was written for. -/
theorem Accounted.exists_of_define {world : World} (accounted : world.Accounted loader written) {name source : String}
    (read : world.store.textAt (loader.directory.location ++ [name]) = .ok source) {defined : Registry}
    (known : world.registry.define (stripOpenTag source) = (.ok (), defined)) :
    ∃ tree target, written tree target ∧ ClassDirectory.fileName target.text = name ∧
      target.text ∈ defined.defined := by
  obtain ⟨tree, target, wrote, file, same⟩ := accounted.files name _ (FileStore.textAt_eq_ok_iff.mp read)
  obtain ⟨made, single⟩ := inflected tree target wrote
  obtain ⟨others, declared⟩ := made.exists_declaredClasses regular single
  rw [← declaredClasses_fileText] at declared
  refine ⟨tree, target, wrote, file, ?_⟩
  rw [String.toByteArray_inj.mp same] at known
  exact ((Registry.mem_defined_of_define known).2 _).mpr (.inr (declared ▸ List.mem_cons_self))

/-- A file of the directory that is required belongs to a class that is defined then. -/
theorem Accounted.exists_of_require {world : World} (accounted : world.Accounted loader written)
    {path name : String} (found : world.store.resolve path = .ok (loader.directory.location ++ [name]))
    {after : Registry} (done : world.registry.require world.store path = (.ok true, after)) :
    ∃ tree target, written tree target ∧ ClassDirectory.fileName target.text = name ∧
      target.text ∈ after.defined := by
  obtain ⟨-, location, same, taken⟩ := Registry.require_eq_ok_iff.mp done
  obtain rfl := Except.ok.inj (found.symm.trans same)
  split at taken
  · rename_i member
    rw [taken]
    exact accounted.required name member
  · obtain ⟨source, defined, read, known, rfl⟩ := taken
    obtain ⟨tree, target, wrote, file, there⟩ := accounted.exists_of_define regular inflected read known
    exact ⟨tree, target, wrote, file, there⟩

theorem Accounted.load {world : World} (accounted : world.Accounted loader written) {name : String}
    {after : Registry} (done : loader.load world.registry world.store name = (.ok true, after)) :
    World.Accounted loader written { world with registry := after } := by
  obtain ⟨_, _, _, required⟩ := Autoloader.load_eq_true_iff.mp done
  refine ⟨accounted.files, fun file member => ?_⟩
  obtain ⟨-, location, found, taken⟩ := Registry.require_eq_ok_iff.mp required
  split at taken
  · rw [taken] at member ⊢
    exact accounted.required file member
  · obtain ⟨source, defined, read, known, rfl⟩ := taken
    have grown := Registry.mem_defined_of_define known
    -- The file that was taken in just now, or one from before, whose class stays defined.
    rcases List.mem_cons.mp member with rfl | member
    · exact accounted.exists_of_require regular inflected found required
    · rw [grown.1] at member
      obtain ⟨tree, target, wrote, same, there⟩ := accounted.required file member
      exact ⟨tree, target, wrote, same, (grown.2 _).mpr (.inl there)⟩

include proper

theorem Accounted.write {world : World} (accounted : world.Accounted loader written) {tree : Tree}
    {target : ClassName} (wrote : written tree target) {code : String} {after : FileStore}
    (done : Printer.standard.write loader.directory world.store tree = (.ok code, after)) :
    World.Accounted loader written { world with store := after } := by
  obtain ⟨made, single⟩ := inflected tree target wrote
  have replaces := made.replaces_of_write regular single proper done
  refine ⟨fun name bytes there => ?_, accounted.required⟩
  rw [replaces.fileAt?_eq] at there
  split at there
  · rename_i place
    refine ⟨tree, target, wrote, ?_, (Option.some.inj there).symm⟩
    exact (List.singleton_inj.mp (List.append_cancel_left place)).symm
  · exact accounted.files name bytes there

/-- One step keeps the account. -/
theorem Accounted.step {world : World} (accounted : world.Accounted loader written) {action : Action}
    (known : ∀ tree, action = .write tree → ∃ target, written tree target) :
    (world.step loader action).Accounted loader written := by
  cases action with
  | write tree =>
    obtain ⟨target, wrote⟩ := known tree rfl
    rw [World.step]
    rcases done : Printer.standard.write loader.directory world.store tree with ⟨failure | code, after⟩
    · rw [Printer.kept_of_write done]
      exact accounted
    · exact accounted.write regular proper inflected wrote done
  | load name =>
    rw [World.step]
    rcases done : loader.load world.registry world.store name with ⟨result, after⟩
    by_cases loaded : result = .ok true
    · rw [loaded] at done
      exact accounted.load regular inflected done
    · rw [Autoloader.kept_of_load done loaded]
      exact accounted

/-- So does a whole run. -/
theorem Accounted.run {world : World} (accounted : world.Accounted loader written) {actions : List Action}
    (known : ∀ tree, .write tree ∈ actions → ∃ target, written tree target) :
    (world.run loader actions).Accounted loader written := by
  induction actions generalizing world with
  | nil => exact accounted
  | cons action rest ih =>
    apply ih
    · exact accounted.step regular proper inflected fun tree same => known tree (same ▸ List.mem_cons_self)
    · intro tree member
      exact known tree (List.mem_cons_of_mem _ member)

/-- A class that is reported as loaded shares its file with a class that was written, and that one is defined. -/
theorem Accounted.exists_of_load {world : World} (accounted : world.Accounted loader written) {name : String}
    (free : '/' ∉ name.toList) {after : Registry}
    (loaded : loader.load world.registry world.store name = (.ok true, after)) :
    ∃ tree target, written tree target ∧
      ClassDirectory.fileName target.text = ClassDirectory.fileName name ∧ target.text ∈ after.defined := by
  obtain ⟨_, _, _, required⟩ := Autoloader.load_eq_true_iff.mp loaded
  obtain ⟨-, location, found, _⟩ := Registry.require_eq_ok_iff.mp required
  rw [loader.directory.pathOf_eq free] at required found
  have whole := Location.isProper_concat proper (ClassDirectory.isProper_fileName free)
  obtain rfl := FileStore.eq_of_resolve_text whole found
  exact accounted.exists_of_require regular inflected found required

end Invariant

end World

/-- After any run that writes generated classes to a directory that was empty, a generated class that is reported
as loaded is defined, unless a class was written for another user's name that differs in nothing but
separators, with the same fingerprint. -/
theorem Autoloader.isDefined_of_load {loader : Autoloader} (regular : loader.inflector.IsValid)
    {origin : FileStore} {path : String} (home : origin.working.IsProper)
    (chosen : ClassDirectory.ofPath origin path = .ok loader.directory) {world : World}
    (empty : ∀ name, world.store.fileAt? (loader.directory.location ++ [name]) = none)
    (fresh : world.registry.required = []) {actions : List Action}
    (inflected : ∀ tree, .write tree ∈ actions →
      ∃ target, loader.inflector.Makes target ∧ tree.IsClass target)
    {name : String} (valid : ∀ segment ∈ Inflector.segmentsOf name, Identifier.isValid segment = true)
    (options : Options) {registry : Registry}
    (loaded : loader.load (world.run loader actions).registry (world.run loader actions).store
      (loader.inflector.generatedName name options) = (.ok true, registry)) :
    registry.isDefined (loader.inflector.generatedName name options) = true ∨
      ∃ tree target other others, .write tree ∈ actions ∧ tree.IsClass target ∧
        ClassName.ofText (loader.inflector.generatedName other others) = .ok target ∧
        Segment.trim (loader.inflector.userName other) ≠ Segment.trim (loader.inflector.userName name) ∧
        ClassDirectory.fileName (Segment.trim (loader.inflector.userName other)) =
          ClassDirectory.fileName (Segment.trim (loader.inflector.userName name)) ∧
        others.fingerprint = options.fingerprint := by
  let written (tree : Tree) (target : ClassName) : Prop :=
    Action.write tree ∈ actions ∧ loader.inflector.Makes target ∧ tree.IsClass target
  have proper := ClassDirectory.isProper_of_ofPath home chosen
  have accounted : (world.run loader actions).Accounted loader written := by
    refine (World.Accounted.of_empty empty fresh).run regular proper (fun tree target wrote => wrote.2) ?_
    intro tree member
    obtain ⟨target, made, single⟩ := inflected tree member
    exact ⟨target, member, made, single⟩
  have free := Inflector.slash_notMem_generatedName regular valid options
  obtain ⟨tree, target, ⟨member, ⟨other, others, _, read⟩, single⟩, file, there⟩ :=
    accounted.exists_of_load regular proper (fun tree target wrote => wrote.2) free loaded
  have text := Inflector.text_eq_generatedName regular others read
  -- The written class shares the file, but it need not be the one that was asked for.
  by_cases same : target.text = loader.inflector.generatedName name options
  · left
    rw [Registry.isDefined_iff_mem (Inflector.trimmed_generatedName regular.trimmed name options), ← same]
    exact there
  · right
    rw [text] at same file
    obtain ⟨user, fingerprint⟩ := Inflector.fileName_generatedName_eq_iff.mp file
    refine ⟨tree, target, other, others, member, single, read, fun equal => same ?_, user, fingerprint⟩
    rw [Inflector.generatedName, Inflector.generatedName, equal, fingerprint]

/-- Loads classes of the namespace `Gen` from a directory. -/
def genLoader : Autoloader :=
  ⟨Inflector.make "Gen" Marker.standard, ⟨["out"]⟩⟩

/-- The class that is generated for `App\Foo` without options. -/
def fooClass : ClassName :=
  ⟨["Gen", "__PM__", "App", "Foo"], "Generatedb031601b41e2aea50c7aeabade325ef3"⟩

def fooTree : Tree :=
  Blueprint.inSpace fooClass (.classDecl ⟨fooClass.short, false, false, none, []⟩ [])

private theorem ofText_fooClass :
    ClassName.ofText (genLoader.inflector.generatedName "App\\Foo" []) = .ok fooClass := by
  have name : genLoader.inflector.generatedName "App\\Foo" [] =
      "Gen\\__PM__\\App\\Foo\\Generatedb031601b41e2aea50c7aeabade325ef3" := by
    decide +kernel
  rw [name]
  rfl

private theorem makes_fooClass : genLoader.inflector.Makes fooClass :=
  ⟨"App\\Foo", [], by decide, ofText_fooClass⟩

private theorem isClass_fooTree : fooTree.IsClass fooClass :=
  ⟨⟨fooClass.short, false, false, none, []⟩, [], rfl, rfl, rfl⟩

private theorem isValid_genLoader : genLoader.inflector.IsValid := by
  have single : genLoader.inflector.spaceSegments = ["Gen"] := by decide +kernel
  refine ⟨Segment.trimmed_trim "Gen", ?_⟩
  rw [single]
  decide

private theorem exists_write_fooTree :
    ∃ code after, Printer.standard.write genLoader.directory emptyStore fooTree = (.ok code, after) := by
  have succeeds : (Printer.standard.write genLoader.directory emptyStore fooTree).1.toOption.isSome = true := by
    decide +kernel
  rcases written : Printer.standard.write genLoader.directory emptyStore fooTree with ⟨failure | code, after⟩
  · rw [written] at succeeds
    cases succeeds
  · exact ⟨code, after, rfl⟩

/-- The run that writes the class of `App\Foo`. -/
def fooWorld : World :=
  World.run genLoader ⟨emptyStore, {}⟩ [.write fooTree]

/-- The classes of `App\Foo` and `AppFoo` share a file. -/
private theorem exists_load_shared :
    ∃ registry,
      genLoader.load fooWorld.registry fooWorld.store (genLoader.inflector.generatedName "AppFoo" []) =
        (.ok true, registry) ∧
      registry.isDefined (genLoader.inflector.generatedName "AppFoo" []) = false := by
  have valid : ∀ segment ∈ Inflector.segmentsOf "AppFoo", Identifier.isValid segment = true := by decide
  have generated : genLoader.inflector.isGenerated (genLoader.inflector.generatedName "AppFoo" []) = true :=
    Inflector.isGenerated_generatedName isValid_genLoader.trimmed _ []
  have free := Inflector.slash_notMem_generatedName isValid_genLoader valid []
  have shared : ClassDirectory.fileName (genLoader.inflector.generatedName "AppFoo" []) =
      ClassDirectory.fileName fooClass.text := by
    rw [Inflector.text_eq_generatedName isValid_genLoader [] ofText_fooClass]
    exact Inflector.fileName_generatedName_eq_iff.mpr ⟨by decide +kernel, rfl⟩
  have absent : genLoader.inflector.generatedName "AppFoo" [] ∉ declaredClasses fooTree.source := by
    decide +kernel
  obtain ⟨code, after, written⟩ := exists_write_fooTree
  have ran : fooWorld = ⟨after, {}⟩ := by
    rw [fooWorld, World.run, List.foldl_cons, List.foldl_nil, World.step, written]
  obtain ⟨registry, loaded, known⟩ :=
    makes_fooClass.exists_load isValid_genLoader isClass_fooTree (by decide) written generated free shared true
  refine ⟨registry, by rw [ran]; exact loaded, ?_⟩
  have trimmed := Inflector.trimmed_generatedName isValid_genLoader.trimmed "AppFoo" []
  rw [Bool.eq_false_iff, ne_eq, Registry.isDefined_iff_mem trimmed, known]
  exact absent

theorem Autoloader.isDefined_of_load_crowded :
    ∃ tree target other others, Action.write tree ∈ [Action.write fooTree] ∧ tree.IsClass target ∧
      ClassName.ofText (genLoader.inflector.generatedName other others) = .ok target ∧
      Segment.trim (genLoader.inflector.userName other) ≠ Segment.trim (genLoader.inflector.userName "AppFoo") ∧
      ClassDirectory.fileName (Segment.trim (genLoader.inflector.userName other)) =
        ClassDirectory.fileName (Segment.trim (genLoader.inflector.userName "AppFoo")) ∧
      others.fingerprint = Options.fingerprint [] := by
  obtain ⟨registry, loaded, undefined⟩ := exists_load_shared
  have inflected : ∀ tree, Action.write tree ∈ [Action.write fooTree] →
      ∃ target, genLoader.inflector.Makes target ∧ tree.IsClass target := by
    intro tree member
    obtain rfl := Action.write.inj (List.mem_singleton.mp member)
    exact ⟨fooClass, makes_fooClass, isClass_fooTree⟩
  have chosen : ClassDirectory.ofPath emptyStore "/out" = .ok genLoader.directory := rfl
  have outcome := Autoloader.isDefined_of_load isValid_genLoader (by decide) chosen (fun _ => rfl) rfl inflected
    (by decide) [] loaded
  rcases outcome with defined | shared
  · rw [undefined] at defined
    cases defined
  · exact shared

/-- A class is reported as loaded that was never written and is not defined: its file is that of another one. -/
theorem Autoloader.isDefined_of_load_shared :
    ClassName.ofText (genLoader.inflector.generatedName "App\\Foo" []) = .ok fooClass ∧ fooTree.IsClass fooClass ∧
      ∃ registry,
        genLoader.load fooWorld.registry fooWorld.store (genLoader.inflector.generatedName "AppFoo" []) =
          (.ok true, registry) ∧
        registry.isDefined (genLoader.inflector.generatedName "AppFoo" []) = false :=
  ⟨ofText_fooClass, isClass_fooTree, exists_load_shared⟩

end ClassForge
