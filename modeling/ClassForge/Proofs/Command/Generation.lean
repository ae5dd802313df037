import ClassForge.Command.Run
import ClassForge.Proofs.Blueprint.Building
import ClassForge.Proofs.Files.ClassFiles
import ClassForge.Proofs.Name.Grammar
import ClassForge.Proofs.Pass.SingleClass

/-! # What generation gives

The finished class is said here from the blueprint and the request alone, without passes: its name, its
head, and which methods stay or are disabled. The passes that a request asks for never fail on a class
that could be built, and give exactly that class in the namespace of its name. The file that it is
written to is the file of that name.
-/

namespace ClassForge

theorem ClassName.short_ne_empty {text : String} {name : ClassName} (read : ofText text = .ok name) :
    name.short ≠ "" := by
  obtain ⟨_, filled⟩ := Segment.ne_nil_of_parse (ofText_eq_ok_iff.mp read)
  intro empty
  apply filled
  rw [ClassName.segments, empty]
  exact List.mem_concat_self

namespace GenerateRequest

/-- Whether methods of this name are to be disabled; the case of ASCII letters does not count. -/
def disables (request : GenerateRequest) (name : String) : Bool :=
  request.disabled.any fun other => lowerAscii other == lowerAscii name

/-- Whether a method stays. -/
def keeps (request : GenerateRequest) (method : MethodBlueprint) : Bool :=
  !request.publicOnly || method.visibility == .pub

/-- A method that stays: the described one, or one that is disabled and no longer abstract. -/
def finishedMethod (request : GenerateRequest) (method : MethodBlueprint) : Except NameError Stmt := do
  let params ← method.parameters.mapM ParameterBlueprint.build
  let disabled := request.disables method.name
  return .method
    ⟨method.name, method.visibility, method.isStatic, method.isAbstract && !disabled, method.isFinal,
      method.returnsReference, params⟩
    (if disabled then some disabledBody else if method.isAbstract then none else some [])

/-- The names that a request mentions can be read, and are these. The target is what is asked for, or else
the name of the blueprint, and then inflected if that is asked for. -/
structure Names (request : GenerateRequest) (settings : Settings) (name target : ClassName)
    (parent : Option ClassName) (interfaces : List ClassName) : Prop where
  target : ∃ requested : ClassName,
    (match request.rename with
      | some text => ClassName.ofText text = .ok requested
      | none => requested = name) ∧
    if request.inflect then
      ClassName.ofText (settings.inflector.generatedName requested.text request.options) = .ok target
    else target = requested
  parent : request.extension.mapM ClassName.ofText = .ok parent
  interfaces : request.interfaces.mapM ClassName.ofText = .ok interfaces

end GenerateRequest

/-- The finished class of a blueprint: constants in the order of their names, properties, and the methods
that are left. A requested parent or requested interfaces take the place of the described ones. -/
def Blueprint.finishedClass (blueprint : Blueprint) (target : ClassName) (parent : Option ClassName)
    (interfaces : List ClassName) (methods : List Stmt) : Stmt :=
  .classDecl
    ⟨target.short, blueprint.isAbstract, blueprint.isFinal,
      (parent.or blueprint.parent).map ClassName.toAbsolute,
      if interfaces = [] then blueprint.interfaces.map ClassName.toAbsolute
      else interfaces.map ClassName.toSourceName⟩
    ((blueprint.constants.entries.map fun (name, value) => .constant ⟨name, value⟩) ++
      (blueprint.properties.map fun property => .property property.build) ++ methods)

/-- The finished class in the namespace of its name, or by itself if its name is global. -/
def Blueprint.finishedTree (blueprint : Blueprint) (target : ClassName) (parent : Option ClassName)
    (interfaces : List ClassName) (methods : List Stmt) : Tree :=
  let finished := blueprint.finishedClass target parent interfaces methods
  if target.path = [] then [finished] else [.space (some ⟨target.path, false⟩) [finished]]

/-- A tree is written to the file of the class that the resolver finds, and that file is reported. -/
theorem GenerateRequest.writeClass_eq_ok_iff {tree : Tree} {target : ClassName} {settings : Settings}
    {store after : FileStore} {message : String} (found : Printer.classOf tree = .ok target) :
    writeClass settings store target tree = (.ok message, after) ↔
      ∃ made directory, store.makeDirectories settings.directory = (.ok (), made) ∧
        settings.classDirectory made = .ok directory ∧
        made.replaceFile (directory.pathOf target.text) (Printer.fileText tree.source).toUTF8 = (.ok (), after) ∧
        message = "Wrote " ++ target.text ++ " to " ++ directory.pathOf target.text := by
  rw [writeClass]
  constructor
  · intro wrote
    split at wrote
    · cases wrote
    · rename_i made created
      split at wrote
      · cases wrote
      · rename_i directory chosen
        split at wrote
        · cases wrote
        · rename_i code left written
          cases wrote
          obtain ⟨name, same, rfl, replaced⟩ := Printer.write_eq_ok_iff.mp written
          obtain rfl := Except.ok.inj (found.symm.trans same)
          exact ⟨made, directory, created, chosen, replaced, rfl⟩
  · rintro ⟨made, directory, created, chosen, replaced, rfl⟩
    have written : Printer.standard.write directory made tree = (.ok tree.source, after) :=
      Printer.write_eq_ok_iff.mpr ⟨target, found, rfl, replaced⟩
    simp only [created, chosen, written]

/-! ## Names -/

section Names

variable {request : GenerateRequest} {settings : Settings} {name target : ClassName}
  {parent : Option ClassName} {interfaces : List ClassName}

private theorem parseClassName_eq {text : String} (read : ClassName.ofText text = .ok name) :
    Request.parseClassName text = .ok name := by
  rw [Request.parseClassName, read, mapError_ok]

private theorem ofText_of_parseClassName {text : String} (parsed : Request.parseClassName text = .ok name) :
    ClassName.ofText text = .ok name := by
  rw [Request.parseClassName] at parsed
  exact eq_ok_of_mapError parsed

private theorem mapM_parseClassName {texts : List String} {names : List ClassName}
    (read : texts.mapM ClassName.ofText = .ok names) : texts.mapM Request.parseClassName = .ok names := by
  induction texts generalizing names with
  | nil =>
    obtain rfl := Except.ok.inj read
    rfl
  | cons text rest ih =>
    obtain ⟨first, others, front, back, rfl⟩ := mapM_cons_eq_ok read
    rw [List.mapM_cons, parseClassName_eq front, ih back]
    rfl

private theorem GenerateRequest.Names.target_eq (names : request.Names settings name target parent interfaces) :
    request.target settings name = .ok target := by
  obtain ⟨requested, asked, inflected⟩ := names.target
  have finish : (if request.inflect then
      Request.parseClassName (settings.inflector.generatedName requested.text request.options)
      else pure requested) = .ok target := by
    split at inflected
    · rename_i inflect
      rw [if_pos inflect, parseClassName_eq inflected]
    · rename_i plain
      rw [if_neg plain, inflected]
      rfl
  rw [GenerateRequest.target]
  cases rename : request.rename with
  | none =>
    rw [rename] at asked
    obtain rfl : requested = name := asked
    exact finish
  | some text =>
    rw [rename] at asked
    simp only [parseClassName_eq asked]
    exact finish

private theorem GenerateRequest.Names.short_ne_empty
    (names : request.Names settings name target parent interfaces)
    (named : name.short ≠ "") : target.short ≠ "" := by
  obtain ⟨requested, asked, inflected⟩ := names.target
  split at inflected
  · exact ClassName.short_ne_empty inflected
  · rw [inflected]
    cases rename : request.rename with
    | none =>
      rw [rename] at asked
      obtain rfl : requested = name := asked
      exact named
    | some text =>
      rw [rename] at asked
      exact ClassName.short_ne_empty asked

private theorem GenerateRequest.Names.passes_eq (names : request.Names settings name target parent interfaces) :
    request.passes name target = .ok ((if target = name then [] else [.rename name target]) ++
      (parent.map (Pass.extend target)).toList ++
      (if interfaces = [] then [] else [.implement target interfaces]) ++
      (if request.publicOnly then [.publicOnly] else []) ++
      (if request.disabled = [] then [] else [.disable request.disabled])) := by
  have extension : request.extension.mapM Request.parseClassName = .ok parent := by
    have read := names.parent
    cases given : request.extension with
    | none =>
      rw [given] at read
      obtain rfl := Except.ok.inj read
      rfl
    | some text =>
      rw [given, Option.mapM_some] at read
      rw [Option.mapM_some]
      cases only : ClassName.ofText text with
      | error =>
        rw [only] at read
        cases read
      | ok found =>
        rw [only] at read
        rw [parseClassName_eq only, ← Except.ok.inj read]
        rfl
  rw [GenerateRequest.passes, extension, ok_bind, mapM_parseClassName names.interfaces, ok_bind]
  rfl

end Names

/-! ## Members -/

section Members

variable (request : GenerateRequest)

/-- The verdict on methods by their visibility. -/
private def visibilityVerdict (request : GenerateRequest) (head : MethodHead) : Verdict :=
  if request.publicOnly then Pass.publicVerdict head else .skip

/-- What the passes on methods leave of members. -/
private def remaining (request : GenerateRequest) (body : List Stmt) : List Stmt :=
  Tree.judged (Pass.namesVerdict request.disabled) (Tree.judged (visibilityVerdict request) body)

private theorem remaining_append (front back : List Stmt) :
    remaining request (front ++ back) = remaining request front ++ remaining request back := by
  simp only [remaining, Tree.judged_eq_flatMap, List.flatMap_append]

private theorem isInert_remaining {body : List Stmt} (inert : Tree.isInert body = true) :
    Tree.isInert (remaining request body) = true :=
  Tree.isInert_judged _ _ (Tree.isInert_judged _ body inert)

private theorem visibilityVerdict_eq {head : MethodHead} {method : MethodBlueprint}
    (same : head.visibility = method.visibility) :
    visibilityVerdict request head = if request.keeps method then .skip else .drop := by
  rw [visibilityVerdict, Pass.publicVerdict, GenerateRequest.keeps, same]
  cases request.publicOnly <;> simp

private theorem judged_built (verdict : MethodHead → Verdict) (head : MethodHead) (announced : Bool) :
    let stmt := Stmt.method head (if announced then none else some [])
    Tree.judged verdict [stmt] = ((verdict head).edit head).result stmt := by
  cases announced <;> simp [Tree.judged, Stmt.judged]

/-- What is left of one method. -/
private theorem remaining_method {method : MethodBlueprint} {stmt : Stmt} (built : method.build = .ok stmt) :
    if request.keeps method then
      ∃ finished, request.finishedMethod method = .ok finished ∧ remaining request [stmt] = [finished]
    else remaining request [stmt] = [] := by
  obtain ⟨params, read, rfl⟩ := MethodBlueprint.build_eq_ok built
  rw [remaining, judged_built, visibilityVerdict_eq request rfl]
  split
  · refine ⟨_, by rw [GenerateRequest.finishedMethod, read]; rfl, ?_⟩
    change Tree.judged _ [_] = _
    rw [judged_built, Pass.namesVerdict_eq]
    change (Verdict.edit _ (if request.disables method.name then _ else _)).result _ = _
    cases request.disables method.name <;> simp [Verdict.edit, Edit.result]
  · rfl

private theorem mapM_finishedMethod {methods : List MethodBlueprint} {built : List Stmt}
    (accepted : methods.mapM MethodBlueprint.build = .ok built) :
    (methods.filter request.keeps).mapM request.finishedMethod = .ok (remaining request built) := by
  induction methods generalizing built with
  | nil =>
    obtain rfl := Except.ok.inj accepted
    rfl
  | cons method rest ih =>
    obtain ⟨stmt, others, front, back, rfl⟩ := mapM_cons_eq_ok accepted
    have first := remaining_method request front
    have parts := remaining_append request [stmt] others
    rw [List.singleton_append] at parts
    rw [parts, List.filter_cons]
    split at first
    · rename_i kept
      obtain ⟨finished, read, left⟩ := first
      rw [if_pos kept, List.mapM_cons, read, ih back, left]
      rfl
    · rename_i dropped
      rw [if_neg dropped, ih back, first, List.nil_append]

private theorem judged_fixedMembers (verdict : MethodHead → Verdict) (blueprint : Blueprint) :
    Tree.judged verdict blueprint.fixedMembers = blueprint.fixedMembers := by
  simp [Blueprint.fixedMembers, Tree.judged_eq_flatMap, List.flatMap_map, Stmt.judged, ← List.map_eq_flatMap]

end Members

/-! ## Passes -/

section Passes

/-- A tree sent through passes one after the other. -/
private def send (passes : List Pass) (tree : Tree) : Except PassError Tree :=
  passes.foldlM (fun tree pass => pass.run tree) tree

private theorem send_append {front back : List Pass} {tree middle : Tree}
    (first : send front tree = .ok middle) :
    send (front ++ back) tree = send back middle := by
  rw [send, List.foldlM_append]
  change (send front tree >>= _) = _
  rw [first]
  rfl

private theorem send_single (pass : Pass) (tree : Tree) : send [pass] tree = pass.run tree := by
  rw [send, List.foldlM_cons]
  cases pass.run tree <;> rfl

variable {name target : ClassName} {head : ClassHead} {members : List Stmt}

private theorem send_rename (target : ClassName) (short : head.name = name.short) (named : name.short ≠ "")
    (inert : Tree.isInert members = true) :
    send (if target = name then [] else [.rename name target])
        (Blueprint.inSpace name (.classDecl head members)) =
      .ok (Blueprint.inSpace target (.classDecl { head with name := target.short } members)) := by
  split
  · rename_i same
    rw [same, ← short]
    rfl
  · rw [send_single, Pass.run_rename short named inert]

private theorem send_extend (parent : Option ClassName) (short : head.name = target.short)
    (named : target.short ≠ "") (inert : Tree.isInert members = true) :
    send (parent.map (Pass.extend target)).toList (Blueprint.inSpace target (.classDecl head members)) =
      .ok (Blueprint.inSpace target
        (.classDecl { head with parent := (parent.map ClassName.toAbsolute).or head.parent } members)) := by
  cases parent with
  | none => rfl
  | some parent => exact (send_single _ _).trans (Pass.run_extend parent short named inert)

private theorem send_implement (interfaces : List ClassName) (short : head.name = target.short)
    (named : target.short ≠ "") (inert : Tree.isInert members = true) :
    send (if interfaces = [] then [] else [.implement target interfaces])
        (Blueprint.inSpace target (.classDecl head members)) =
      .ok (Blueprint.inSpace target (.classDecl
        { head with
          interfaces := if interfaces = [] then head.interfaces else interfaces.map ClassName.toSourceName }
        members)) := by
  split
  · rfl
  · rw [send_single, Pass.run_implement interfaces short named inert]

private theorem send_publicOnly (request : GenerateRequest) (tree : Tree) :
    send (if request.publicOnly then [.publicOnly] else []) tree =
      .ok (Tree.judged (visibilityVerdict request) tree) := by
  split
  · rename_i asked
    have same : visibilityVerdict request = Pass.publicVerdict := funext fun _ => if_pos asked
    rw [same, send_single, Pass.run_publicOnly]
  · rename_i unasked
    have skips (head : MethodHead) : visibilityVerdict request head = .skip := if_neg unasked
    rw [Tree.judged_skip skips]
    rfl

private theorem send_disable (names : List String) (tree : Tree) :
    send (if names = [] then [] else [.disable names]) tree =
      .ok (Tree.judged (Pass.namesVerdict names) tree) := by
  split
  · rename_i none
    have skips (head : MethodHead) : Pass.namesVerdict names head = .skip := by rw [none]; rfl
    rw [Tree.judged_skip skips]
    rfl
  · rw [send_single, Pass.run_disable]

end Passes

/-- The passes of a request turn the class of a blueprint into the finished class. -/
private theorem send_passes (request : GenerateRequest) {blueprint : Blueprint} {methods : List Stmt}
    {target : ClassName} (parent : Option ClassName) (interfaces : List ClassName)
    (named : blueprint.name.short ≠ "") (short : target.short ≠ "") (inert : Tree.isInert methods = true) :
    send ((if target = blueprint.name then [] else [.rename blueprint.name target]) ++
        (parent.map (Pass.extend target)).toList ++
        (if interfaces = [] then [] else [.implement target interfaces]) ++
        (if request.publicOnly then [.publicOnly] else []) ++
        (if request.disabled = [] then [] else [.disable request.disabled]))
        (Blueprint.inSpace blueprint.name (.classDecl blueprint.head (blueprint.fixedMembers ++ methods))) =
      .ok (blueprint.finishedTree target parent interfaces (remaining request methods)) := by
  have idle := isInert_members blueprint inert
  have left : remaining request (blueprint.fixedMembers ++ methods) =
      blueprint.fixedMembers ++ remaining request methods := by
    rw [remaining_append, remaining, judged_fixedMembers, judged_fixedMembers]
  have renamed := send_rename target (rfl : blueprint.head.name = _) named idle
  have extended := (send_append renamed).trans (send_extend parent rfl short idle)
  have implemented := (send_append extended).trans (send_implement interfaces rfl short idle)
  have visible := (send_append implemented).trans (send_publicOnly request _)
  have disabled := (send_append visible).trans (send_disable request.disabled _)
  rw [disabled, Tree.judged_inSpace, Tree.judged_inSpace, Blueprint.finishedTree, ← Blueprint.inSpace_eq,
    Blueprint.finishedClass, Option.map_or]
  change Except.ok (Blueprint.inSpace target (.classDecl _ (remaining request _))) = _
  rw [left]
  rfl

private theorem classOf_finishedTree (blueprint : Blueprint) {target : ClassName} (parent : Option ClassName)
    (interfaces : List ClassName) {methods : List Stmt} (short : target.short ≠ "")
    (inert : Tree.isInert methods = true) :
    Printer.classOf (blueprint.finishedTree target parent interfaces methods) = .ok target := by
  rw [Blueprint.finishedTree, ← Blueprint.inSpace_eq]
  exact Printer.classOf_inSpace rfl short (isInert_members blueprint inert)

/-- What was generated is one class, and it has the name that was asked for. -/
theorem GenerateRequest.isClass_of_finish {request : GenerateRequest} {settings : Settings} {blueprint : Blueprint}
    {target : ClassName} {tree : Tree} (finished : request.finish settings blueprint = .ok (target, tree))
    (named : blueprint.name.short ≠ "") (short : target.short ≠ "") : tree.IsClass target := by
  rw [GenerateRequest.finish] at finished
  cases accepted : blueprint.build with
  | error =>
    rw [accepted] at finished
    cases finished
  | ok built =>
    rw [accepted, mapError_ok, ok_bind] at finished
    obtain ⟨found, _, finished⟩ := bind_eq_ok finished
    obtain ⟨passes, asked, finished⟩ := bind_eq_ok finished
    obtain ⟨sent, traversed, finished⟩ := bind_eq_ok finished
    obtain ⟨rfl, rfl⟩ := Prod.mk.inj (Except.ok.inj finished)
    rw [GenerateRequest.passes] at asked
    obtain ⟨parent, _, asked⟩ := bind_eq_ok asked
    obtain ⟨interfaces, _, asked⟩ := bind_eq_ok asked
    obtain ⟨methods, read, rfl⟩ := Blueprint.build_eq_ok accepted
    have inert := isInert_mapM_build read
    have result := send_passes request parent interfaces named short inert
    rw [send] at result
    rw [← Except.ok.inj asked, Pass.traverse_traverser, result, mapError_ok] at traversed
    rw [← Except.ok.inj traversed, Blueprint.finishedTree, ← Blueprint.inSpace_eq]
    exact ⟨_, _, rfl, isInert_members blueprint (isInert_remaining request inert), rfl⟩

theorem GenerateRequest.target_of_finish {request : GenerateRequest} {settings : Settings} {blueprint : Blueprint}
    {target : ClassName} {tree : Tree} (finished : request.finish settings blueprint = .ok (target, tree)) :
    request.target settings blueprint.name = .ok target := by
  rw [GenerateRequest.finish] at finished
  obtain ⟨_, _, finished⟩ := bind_eq_ok finished
  obtain ⟨found, asked, finished⟩ := bind_eq_ok finished
  obtain ⟨_, _, finished⟩ := bind_eq_ok finished
  obtain ⟨_, _, finished⟩ := bind_eq_ok finished
  rw [asked, (Prod.mk.inj (Except.ok.inj finished)).1]

/-- Inflection is applied to the name that the class would have without it. -/
theorem GenerateRequest.ofText_of_target {request : GenerateRequest} {settings : Settings}
    {name requested target : ClassName} (inflect : request.inflect = true)
    (asked : GenerateRequest.target { request with inflect := false } settings name = .ok requested)
    (found : request.target settings name = .ok target) :
    ClassName.ofText (settings.inflector.generatedName requested.text request.options) = .ok target := by
  rw [GenerateRequest.target] at asked found
  cases rename : request.rename with
  | none =>
    simp only [rename, inflect, if_true] at asked found
    obtain rfl := Except.ok.inj asked
    rw [pure_bind] at found
    exact ofText_of_parseClassName found
  | some text =>
    simp only [rename, inflect, if_true] at asked found
    obtain ⟨first, parsed, asked⟩ := bind_eq_ok asked
    obtain rfl := Except.ok.inj asked
    rw [parsed, ok_bind] at found
    exact ofText_of_parseClassName found

/-- Generation never fails on a blueprint that can be built, if all names of the request can be read, and
its result is the finished class, in a namespace of its own unless its name is global. The resolver finds the
name of the class, so that the file that is reported as written is the one that was. -/
theorem GenerateRequest.finish_eq_finishedTree (request : GenerateRequest) (settings : Settings)
    (blueprint : Blueprint) {text : String} {built : Tree} {target : ClassName} {parent : Option ClassName}
    {interfaces : List ClassName} (named : ClassName.ofText text = .ok blueprint.name)
    (accepted : blueprint.build = .ok built)
    (names : request.Names settings blueprint.name target parent interfaces) :
    ∃ methods, (blueprint.methods.filter request.keeps).mapM request.finishedMethod = .ok methods ∧
      let tree := blueprint.finishedTree target parent interfaces methods
      request.finish settings blueprint = .ok (target, tree) ∧ Printer.classOf tree = .ok target ∧
        ∀ store message after, writeClass settings store target tree = (.ok message, after) ↔
          ∃ made directory, store.makeDirectories settings.directory = (.ok (), made) ∧
            settings.classDirectory made = .ok directory ∧
            made.replaceFile (directory.pathOf target.text) (Printer.fileText tree.source).toUTF8 = (.ok (), after) ∧
            message = "Wrote " ++ target.text ++ " to " ++ directory.pathOf target.text := by
  obtain ⟨methods, read, same⟩ := Blueprint.build_eq_ok accepted
  have inert := isInert_mapM_build read
  have start := ClassName.short_ne_empty named
  have short := names.short_ne_empty start
  have sent := send_passes request parent interfaces start short inert
  have found := classOf_finishedTree blueprint parent interfaces short (isInert_remaining request inert)
  refine ⟨remaining request methods, mapM_finishedMethod request read, ?_, found,
    fun store message after => writeClass_eq_ok_iff found⟩
  rw [send] at sent
  rw [GenerateRequest.finish, accepted, same, mapError_ok, ok_bind, names.target_eq, ok_bind, names.passes_eq,
    ok_bind, Pass.traverse_traverser, sent, mapError_ok, ok_bind]
  rfl

/-- A class with constants out of order, a property, and methods of both kinds. -/
def userBlueprint : Blueprint where
  name := ⟨["App"], "User"⟩
  isAbstract := true
  constants := .ofEntries [("LIMIT", .int 3), ("BASE", .int 1)]
  properties := [{ name := "id", visibility := .priv, hasInitial := true }]
  methods := [
    { name := "hash", visibility := .prot },
    { name := "save", isAbstract := true,
      parameters := [{ name := "mode", fallback := some (.constant "App\\LAZY") }] },
    { name := "load" }]

/-- Moves the class, and hides what it does. -/
def proxyRequest : GenerateRequest where
  blueprint := "user.json"
  rename := some "\\Gen\\Proxy"
  extension := some "App\\User"
  interfaces := ["Countable"]
  disabled := ["SAVE"]
  publicOnly := true

theorem GenerateRequest.finish_eq_finishedTree_proxy :
    proxyRequest.finish {} userBlueprint = .ok (⟨["Gen"], "Proxy"⟩,
      [.space (some ⟨["Gen"], false⟩)
        [.classDecl ⟨"Proxy", true, false, some ⟨["App", "User"], true⟩, [⟨["Countable"], false⟩]⟩
          [.constant ⟨"BASE", .int 1⟩, .constant ⟨"LIMIT", .int 3⟩, .property ⟨"id", .priv, false, some .null⟩,
            .method ⟨"save", .pub, false, false, false, false,
              [⟨"mode", false, none, some (.constant ⟨["App", "LAZY"], false⟩)⟩]⟩ (some disabledBody),
            .method ⟨"load", .pub, false, false, false, false, []⟩ (some [])]]]) := by
  have named : ClassName.ofText "App\\User" = .ok userBlueprint.name := rfl
  have names : proxyRequest.Names {} userBlueprint.name ⟨["Gen"], "Proxy"⟩ (some ⟨["App"], "User"⟩)
      [⟨[], "Countable"⟩] :=
    ⟨⟨⟨["Gen"], "Proxy"⟩, rfl, rfl⟩, rfl, rfl⟩
  obtain ⟨methods, finished, result, _⟩ :=
    GenerateRequest.finish_eq_finishedTree proxyRequest {} userBlueprint named rfl names
  rw [result, ← Except.ok.inj finished]
  rfl

end ClassForge
