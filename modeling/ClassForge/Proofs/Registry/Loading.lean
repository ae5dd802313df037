import ClassForge.Proofs.Command.Generation
import ClassForge.Proofs.Files.ClassFiles
import ClassForge.Proofs.Inflection.Generated
import ClassForge.Proofs.Tree.Opening
import ClassForge.Registry.Autoload

/-! # Loading a class that was written

The file of a class is read back as it was written, and behind its tag it declares the class first. So a
generated class that was written can be loaded, once, and is defined from then on.
-/

namespace ClassForge

open Token

/-! ## Files of classes -/

/-- What stands behind the tag is the code. -/
theorem stripOpenTag_append (code : String) : stripOpenTag (openTag ++ code) = code := by
  have chars : (openTag ++ code).toList = openTag.toList ++ code.toList := String.toList_append
  have solid : (openTag ++ code).toList.dropWhile isWhiteSpace = (openTag ++ code).toList := by
    rw [chars]
    rfl
  have tagged : openTag.toList.isPrefixOf (openTag ++ code).toList = true := by
    rw [chars]
    exact List.isPrefixOf_iff_prefix.mpr (List.prefix_append _ _)
  rw [stripOpenTag, solid]
  simp only [if_pos tagged]
  rw [chars, show openTag.length = openTag.toList.length from rfl, List.drop_left, String.ofList_toList]

/-- Gaps between the tag and the code declare nothing. -/
theorem declaredClasses_tagged {lead : String} (gaps : lead.toList.all isGap = true) (code : String) :
    declaredClasses (stripOpenTag (openTag ++ lead ++ code)) = declaredClasses code := by
  have scanned (chars : List Char) (gaps : chars.all isGap = true) :
      scan (chars ++ code.toList) = scan code.toList := by
    induction chars with
    | nil => rfl
    | cons c rest ih =>
      rw [List.all_cons, Bool.and_eq_true] at gaps
      rw [List.cons_append, scan_gap gaps.1, ih gaps.2]
  rw [String.append_assoc, stripOpenTag_append, declaredClasses, String.toList_append, scanned _ gaps]
  rfl

/-- What is written in front of the source of a class declares nothing. -/
theorem declaredClasses_fileText (code : String) :
    declaredClasses (stripOpenTag (Printer.fileText code)) = declaredClasses code :=
  declaredClasses_tagged (by decide) code

/-- A class of identifiers is the first that its source declares, unless its namespace is called `new`. -/
theorem Tree.IsClass.exists_declaredClasses {tree : Tree} {name : ClassName} (single : tree.IsClass name)
    (valid : ∀ segment ∈ name.segments, Identifier.isValid segment = true) (path : name.path ≠ ["new"]) :
    ∃ others, declaredClasses tree.source = name.text :: others := by
  obtain ⟨head, members, short, -, rfl⟩ := single
  have named : IsWord head.name := by
    rw [short]
    exact Identifier.isWord_of_isValid (valid _ (List.mem_append_right _ List.mem_cons_self))
  have declared : declaredClasses (Tree.source (Blueprint.inSpace name (.classDecl head members))) = _ :=
    Tree.declaredClasses_inSpace (fun segment member => valid segment (List.mem_append_left _ member)) named
  rw [if_neg (fun muted => path muted.1), short] at declared
  exact ⟨_, declared⟩

/-- A class that was written is in its file. -/
theorem Printer.replaces_of_write {tree : Tree} {name : ClassName} (single : tree.IsClass name)
    (valid : ∀ segment ∈ name.segments, Identifier.isValid segment = true) {directory : ClassDirectory}
    (proper : directory.location.IsProper) (free : '/' ∉ name.text.toList) {store after : FileStore} {code : String}
    (written : Printer.standard.write directory store tree = (.ok code, after)) :
    store.Replaces directory.location (ClassDirectory.fileName name.text) (fileText tree.source).toUTF8 after := by
  have named : name.short ≠ "" := by
    intro empty
    have solid := Identifier.ne_nil (valid _ (List.mem_append_right _ List.mem_cons_self))
    exact solid (by rw [empty]; rfl)
  obtain ⟨found, known, rfl, replaced⟩ := write_eq_ok_iff.mp written
  rw [classOf_of_isClass single named] at known
  obtain rfl : name = found := Except.ok.inj known
  rw [directory.pathOf_eq free] at replaced
  exact FileStore.replaces_of_replaceFile proper (ClassDirectory.isProper_fileName free) replaced

/-! ## The registry -/

namespace Registry

variable {registry after : Registry} {code : String}

private theorem mem_note {defined : List String} {name other : String} :
    other ∈ note defined name ↔ other ∈ defined ∨ other = name := by
  rw [note]
  split
  · rename_i there
    rw [List.contains_iff_mem] at there
    constructor
    · exact .inl
    · rintro (member | rfl)
      · exact member
      · exact there
  · rw [List.mem_append, List.mem_singleton]

private theorem mem_foldl_note {names defined : List String} {other : String} :
    other ∈ names.foldl note defined ↔ other ∈ defined ∨ other ∈ names := by
  induction names generalizing defined with
  | nil => simp
  | cons name rest ih => rw [List.foldl_cons, ih, mem_note, List.mem_cons, or_assoc]

/-- What a source text declares is defined, and nothing else changes. -/
theorem mem_defined_of_define (done : registry.define code = (.ok (), after)) :
    after.required = registry.required ∧
      ∀ name, name ∈ after.defined ↔ name ∈ registry.defined ∨ name ∈ declaredClasses code := by
  simp only [define] at done
  split at done
  · cases done
  · obtain rfl := (Prod.mk.inj done).2
    exact ⟨rfl, fun _ => mem_foldl_note⟩

theorem exists_define {first : String} {others : List String} (declared : declaredClasses code = first :: others)
    (registry : Registry) : ∃ after, registry.define code = (.ok (), after) := by
  simp only [define, declared, if_neg (List.cons_ne_nil _ _)]
  exact ⟨_, rfl⟩

/-- A source text that is refused defines nothing, not even in part. -/
theorem kept_of_define {cause : RegistryError} (failed : registry.define code = (.error cause, after)) :
    after = registry := by
  simp only [define] at failed
  split at failed
  · exact (Prod.mk.inj failed).2.symm
  · cases failed

theorem kept_of_evaluate {cause : RegistryError} (failed : registry.evaluate code = (.error cause, after)) :
    after = registry := by
  rw [evaluate] at failed
  split at failed
  · exact kept_of_define failed
  · exact (Prod.mk.inj failed).2.symm

theorem isDefined_iff_mem {name : String} (trimmed : Segment.Trimmed name) :
    registry.isDefined name = true ↔ name ∈ registry.defined := by
  rw [isDefined, Segment.trimFront_of_head? trimmed.1, String.ofList_toList, List.contains_iff_mem]

/-- A file is taken in if its path leads to it, and it was taken in before or is a text that declares something. -/
theorem require_eq_ok_iff {store : FileStore} {path : String} {flag : Bool} :
    registry.require store path = (.ok flag, after) ↔
      flag = true ∧ ∃ location, store.resolve path = .ok location ∧
        if location ∈ registry.required then after = registry
        else ∃ source defined, store.textAt location = .ok source ∧
          registry.define (stripOpenTag source) = (.ok (), defined) ∧
          after = { defined with required := location :: defined.required } := by
  rw [require]
  cases found : store.resolve path with
  | error => simp
  | ok location =>
    by_cases known : location ∈ registry.required
    · simp [known, eq_comm]
    · cases read : store.textAt location with
      | error => simp [known, read]
      | ok source =>
        rcases made : registry.define (stripOpenTag source) with ⟨_ | _, defined⟩
        · simp [known, read, made]
        · simp [known, read, made, eq_comm]

/-- A file that is not taken in leaves the registry as it is: what it may declare is not defined, and it is not
noted. -/
theorem kept_of_require {store : FileStore} {path : String} {result : Except RegistryError Bool}
    (done : registry.require store path = (result, after)) (other : result ≠ .ok true) : after = registry := by
  rw [require] at done
  split at done
  · exact (Prod.mk.inj done).2.symm
  · split at done
    · exact (Prod.mk.inj done).2.symm
    · split at done
      · exact (Prod.mk.inj done).2.symm
      · split at done
        · rename_i left refused
          obtain rfl := (Prod.mk.inj done).2
          exact kept_of_define refused
        · exact absurd (Prod.mk.inj done).1.symm other

end Registry

/-- A class is loaded if it is generated and not defined, and its path leads to a file that can be taken in. -/
theorem Autoloader.load_eq_true_iff {loader : Autoloader} {registry after : Registry} {store : FileStore}
    {name : String} :
    loader.load registry store name = (.ok true, after) ↔
      registry.isDefined name = false ∧ loader.inflector.isGenerated name = true ∧
        store.pathExists (loader.directory.pathOf name) = true ∧
        registry.require store (loader.directory.pathOf name) = (.ok true, after) := by
  simp only [load]
  cases registry.isDefined name with
  | true => simp
  | false =>
    cases loader.inflector.isGenerated name with
    | false => simp
    | true =>
      cases store.pathExists (loader.directory.pathOf name) <;> simp

namespace Autoloader

variable {loader : Autoloader} {registry after : Registry} {store : FileStore} {name : String}

theorem load_of_isDefined (known : registry.isDefined name = true) :
    loader.load registry store name = (.ok false, registry) := by
  rw [load, if_pos known]

theorem load_of_not_isGenerated (plain : loader.inflector.isGenerated name = false) :
    loader.load registry store name = (.ok false, registry) := by
  rw [load, plain]
  split <;> rfl

/-- What is not loaded leaves the registry as it is, whether that is a failure or not. -/
theorem kept_of_load {result : Except RegistryError Bool} (done : loader.load registry store name = (result, after))
    (other : result ≠ .ok true) : after = registry := by
  simp only [load] at done
  split at done
  · exact (Prod.mk.inj done).2.symm
  · split at done
    · exact (Prod.mk.inj done).2.symm
    · split at done
      · exact (Prod.mk.inj done).2.symm
      · exact Registry.kept_of_require done other

end Autoloader

/-! ## Generated classes -/

/-- A class with a generated name whose user's name is made of identifiers. -/
def Inflector.Makes (inflector : Inflector) (target : ClassName) : Prop :=
  ∃ name options, (∀ segment ∈ segmentsOf name, Identifier.isValid segment = true) ∧
    ClassName.ofText (inflector.generatedName name options) = .ok target

section Generated

variable {inflector : Inflector} (regular : inflector.IsValid) {target : ClassName} (made : inflector.Makes target)
include regular made

theorem Inflector.Makes.isValid : ∀ segment ∈ target.segments, Identifier.isValid segment = true := by
  obtain ⟨name, options, valid, read⟩ := made
  rw [(ClassName.segments_of_ofText read).1]
  exact isValid_generatedName regular valid options

theorem Inflector.Makes.trimmed : Segment.Trimmed target.text := by
  obtain ⟨name, options, _, read⟩ := made
  rw [text_eq_generatedName regular options read]
  exact trimmed_generatedName regular.trimmed name options

theorem Inflector.Makes.isGenerated : inflector.isGenerated target.text = true := by
  obtain ⟨name, options, _, read⟩ := made
  rw [text_eq_generatedName regular options read]
  exact isGenerated_generatedName regular.trimmed name options

theorem Inflector.Makes.slash_notMem : '/' ∉ target.text.toList := by
  obtain ⟨name, options, valid, read⟩ := made
  rw [text_eq_generatedName regular options read]
  exact slash_notMem_generatedName regular valid options

/-- The source of a generated class declares that class first. -/
theorem Inflector.Makes.exists_declaredClasses {tree : Tree} (single : tree.IsClass target) :
    ∃ others, declaredClasses tree.source = target.text :: others := by
  apply single.exists_declaredClasses (made.isValid regular)
  obtain ⟨name, options, _, read⟩ := made
  exact path_ne_singleton regular options read "new"

/-- The file of a generated class that was written. -/
theorem Inflector.Makes.replaces_of_write {tree : Tree} (single : tree.IsClass target) {directory : ClassDirectory}
    (proper : directory.location.IsProper) {store after : FileStore} {code : String}
    (written : Printer.standard.write directory store tree = (.ok code, after)) :
    store.Replaces directory.location (ClassDirectory.fileName target.text)
      (Printer.fileText tree.source).toUTF8 after :=
  Printer.replaces_of_write single (made.isValid regular) proper (made.slash_notMem regular) written

/-- Under any generated name that has its file, a written class can be loaded into a registry that knows nothing
yet. What its source declares is defined then. -/
theorem Inflector.Makes.exists_load {tree : Tree} (single : tree.IsClass target) {directory : ClassDirectory}
    (proper : directory.location.IsProper) {store after : FileStore} {code : String}
    (written : Printer.standard.write directory store tree = (.ok code, after)) {sought : String}
    (generated : inflector.isGenerated sought = true) (free : '/' ∉ sought.toList)
    (shared : ClassDirectory.fileName sought = ClassDirectory.fileName target.text) (evaluates : Bool) :
    ∃ registry, Autoloader.load ⟨inflector, directory⟩ { evaluates } after sought = (.ok true, registry) ∧
      ∀ name, name ∈ registry.defined ↔ name ∈ declaredClasses tree.source := by
  have replaces := made.replaces_of_write regular single proper written
  rw [← shared] at replaces
  have named := ClassDirectory.isProper_fileName free
  obtain ⟨others, declared⟩ := made.exists_declaredClasses regular single
  rw [← declaredClasses_fileText] at declared
  obtain ⟨defined, known⟩ := Registry.exists_define declared { evaluates }
  let place := directory.location ++ [ClassDirectory.fileName sought]
  refine ⟨{ defined with required := place :: defined.required }, Autoloader.load_eq_true_iff.mpr ⟨rfl, generated,
    ?_, Registry.require_eq_ok_iff.mpr ⟨rfl, place, ?_, ?_⟩⟩, fun name => ?_⟩
  · rw [directory.pathOf_eq free, FileStore.pathExists, replaces.locate_eq proper named]
    rfl
  · rw [directory.pathOf_eq free]
    exact replaces.resolve_eq proper named
  · rw [if_neg List.not_mem_nil]
    exact ⟨_, defined, replaces.textAt_eq rfl, known, rfl⟩
  · rw [(Registry.mem_defined_of_define known).2, declaredClasses_fileText]
    simp

end Generated

/-- A class that was generated with inflection, from a name and for a namespace that are made of identifiers, can
be loaded after it was written: it is the first class that its file declares, it is defined then, and it is not
loaded again. Names without the marker are never loaded. -/
theorem Autoloader.load_written (request : GenerateRequest) (settings : Settings) (blueprint : Blueprint)
    {text : String} {requested target : ClassName} {tree : Tree} {origin store after : FileStore}
    {path code : String} {directory : ClassDirectory} (named : ClassName.ofText text = .ok blueprint.name)
    (inflect : request.inflect = true)
    (asked : GenerateRequest.target { request with inflect := false } settings blueprint.name = .ok requested)
    (valid : ∀ segment ∈ requested.segments, Identifier.isValid segment = true)
    (space : ∀ segment ∈ settings.inflector.spaceSegments, Identifier.isValid segment = true)
    (finished : request.finish settings blueprint = .ok (target, tree)) (home : origin.working.IsProper)
    (chosen : ClassDirectory.ofPath origin path = .ok directory)
    (written : Printer.standard.write directory store tree = (.ok code, after)) (evaluates : Bool) :
    let loader : Autoloader := ⟨settings.inflector, directory⟩
    (∃ registry source others,
      loader.load { evaluates } after target.text = (.ok true, registry) ∧
        registry.isDefined target.text = true ∧
        after.readText (directory.pathOf target.text) = .ok source ∧
        declaredClasses (stripOpenTag source) = target.text :: others ∧
        loader.load registry after target.text = (.ok false, registry)) ∧
      ∀ name, settings.marker.text ∉ Inflector.segmentsOf name →
        ∀ registry store, loader.load registry store name = (.ok false, registry) := by
  intro loader
  have regular : settings.inflector.IsValid := ⟨Segment.trimmed_trim settings.space, space⟩
  have target_eq := GenerateRequest.target_of_finish finished
  have read := GenerateRequest.ofText_of_target inflect asked target_eq
  have made : settings.inflector.Makes target := by
    refine ⟨requested.text, request.options, ?_, read⟩
    have nonempty : requested.segments ≠ [] := List.concat_ne_nil _ _
    rw [Inflector.segmentsOf, ClassName.text, Identifier.trim_join nonempty valid,
      Identifier.split_join nonempty valid]
    exact valid
  have single : tree.IsClass target :=
    GenerateRequest.isClass_of_finish finished (ClassName.short_ne_empty named) (ClassName.short_ne_empty read)
  have proper := ClassDirectory.isProper_of_ofPath home chosen
  have free := made.slash_notMem regular
  have replaces := made.replaces_of_write regular single proper written
  obtain ⟨registry, loaded, known⟩ :=
    made.exists_load regular single proper written (made.isGenerated regular) free rfl evaluates
  obtain ⟨others, declared⟩ := made.exists_declaredClasses regular single
  have defined : registry.isDefined target.text = true := by
    rw [Registry.isDefined_iff_mem (made.trimmed regular), known, declared]
    exact List.mem_cons_self
  rw [← declaredClasses_fileText] at declared
  constructor
  · refine ⟨registry, _, others, loaded, defined, ?_, declared, load_of_isDefined defined⟩
    rw [directory.pathOf_eq free, FileStore.readText,
      replaces.locate_eq proper (ClassDirectory.isProper_fileName free), ok_bind]
    exact replaces.textAt_eq rfl
  · intro name plain registry store
    apply load_of_not_isGenerated
    rw [Inflector.isGenerated, List.contains_eq_mem]
    exact decide_eq_false plain

/-- Asks for a class next to the described one. -/
def wrapperRequest : GenerateRequest where
  blueprint := "user.json"
  disabled := ["save"]
  inflect := true
  options := [("lazy", .bool true)]

/-- A store with an empty directory. -/
def emptyStore : FileStore where
  root := [("out", .directory [])]

theorem Autoloader.load_written_wrapper :
    ∃ target tree code after registry,
      wrapperRequest.finish {} userBlueprint = .ok (target, tree) ∧
      Printer.standard.write ⟨["out"]⟩ emptyStore tree = (.ok code, after) ∧
      Autoloader.load ⟨Settings.inflector {}, ⟨["out"]⟩⟩ {} after target.text = (.ok true, registry) ∧
      registry.isDefined target.text = true := by
  have succeeds : ((wrapperRequest.finish {} userBlueprint).toOption.bind fun finished =>
      (Printer.standard.write ⟨["out"]⟩ emptyStore finished.2).1.toOption).isSome = true := by
    decide +kernel
  cases finished : wrapperRequest.finish {} userBlueprint with
  | error =>
    rw [finished] at succeeds
    cases succeeds
  | ok result =>
    rw [finished] at succeeds
    rcases written : Printer.standard.write ⟨["out"]⟩ emptyStore result.2 with ⟨_ | code, after⟩
    · simp [Except.toOption, written] at succeeds
    · have named : ClassName.ofText "App\\User" = .ok userBlueprint.name := rfl
      have asked : GenerateRequest.target { wrapperRequest with inflect := false } {} userBlueprint.name =
          .ok ⟨["App"], "User"⟩ := rfl
      have chosen : ClassDirectory.ofPath emptyStore "/out/." = .ok ⟨["out"]⟩ := rfl
      have space : (Settings.inflector {}).spaceSegments = ["GeneratedClasses"] := by decide +kernel
      obtain ⟨⟨registry, _, _, loaded, defined, _⟩, _⟩ := Autoloader.load_written wrapperRequest {} userBlueprint
        named rfl asked (by decide) (by rw [space]; decide) finished (by decide) chosen written true
      exact ⟨_, _, _, _, registry, rfl, written, loaded, defined⟩

end ClassForge
