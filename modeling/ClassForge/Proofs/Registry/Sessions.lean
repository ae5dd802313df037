import ClassForge.Proofs.Registry.Runs

/-! # Calls on a registry

Source texts, files and classes are taken in by one call after the other, while files may change between any two of
them. Each call either keeps the registry, or adds what a source text declares, or adds what a file declares when
it is met for the first time. So the defined classes can be read off the calls that succeeded.
-/

namespace ClassForge

/-! ## What one call does -/

inductive Registry.Call where
  | evaluate (code : String)
  | require (path : String)
  | load (loader : Autoloader) (name : String)

/-- The path of the file that a call takes in. -/
def Registry.Call.path? : Registry.Call → Option String
  | .evaluate _ => none
  | .require path => some path
  | .load loader name => some (loader.directory.pathOf name)

/-- A call, and the files at the time of it. -/
structure Turn where
  store : FileStore
  call : Registry.Call

namespace Turn

/-- Whether something was taken in, and the registry afterwards. -/
def outcome (turn : Turn) (registry : Registry) : Except RegistryError Bool × Registry :=
  match turn.call with
  | .evaluate code => (registry.evaluate code).map (Except.map fun _ => true) id
  | .require path => registry.require turn.store path
  | .load loader name => loader.load registry turn.store name

/-- A source text is taken in. -/
def Evaluates (turn : Turn) (registry : Registry) (code : String) : Prop :=
  turn.call = .evaluate code ∧ (turn.outcome registry).1 = .ok true

/-- The file at a location is taken in, now or before. -/
def Reaches (turn : Turn) (registry : Registry) (location : Location) : Prop :=
  ∃ path, turn.call.path? = some path ∧ turn.store.resolve path = .ok location ∧
    (turn.outcome registry).1 = .ok true

end Turn

/-- Whatever a call returns, the next one is made on the registry that it leaves. -/
def Registry.step (registry : Registry) (turn : Turn) : Registry :=
  (turn.outcome registry).2

def Registry.after (start : Registry) (turns : List Turn) : Registry :=
  turns.foldl step start

/-- What the calls return. -/
def Registry.answers (start : Registry) : List Turn → List (Except RegistryError Bool)
  | [] => []
  | turn :: rest => (turn.outcome start).1 :: (start.step turn).answers rest

section Steps

variable {turn : Turn} {registry after : Registry} {location other : Location} {name code path : String}

theorem Turn.Reaches.unique (one : turn.Reaches registry location) (two : turn.Reaches registry other) :
    location = other := by
  obtain ⟨path, asked, found, _⟩ := one
  obtain ⟨_, again, same, _⟩ := two
  obtain rfl := Option.some.inj (asked.symm.trans again)
  exact Except.ok.inj (found.symm.trans same)

theorem Turn.Reaches.not_evaluates (reaches : turn.Reaches registry location) (code : String) :
    ¬turn.Evaluates registry code := by
  rintro ⟨evaluates, -⟩
  obtain ⟨path, asked, _⟩ := reaches
  rw [evaluates] at asked
  cases asked

theorem Turn.outcome_evaluate (call : turn.call = .evaluate code) (registry : Registry) :
    turn.outcome registry = (registry.evaluate code).map (Except.map fun _ => true) id := by
  rw [outcome, call]

/-- A call that takes in nothing leaves the registry as it is, whether that is a failure or not. -/
theorem Turn.kept_of_outcome {result : Except RegistryError Bool} (done : turn.outcome registry = (result, after))
    (other : result ≠ .ok true) : after = registry := by
  obtain ⟨store, call⟩ := turn
  cases call with
  | evaluate code =>
    rw [outcome_evaluate rfl] at done
    rcases evaluated : registry.evaluate code with ⟨cause | _, left⟩ <;> rw [evaluated] at done
    · obtain rfl := (Prod.mk.inj done).2
      exact Registry.kept_of_evaluate evaluated
    · exact absurd (Prod.mk.inj done).1.symm other
  | require => exact Registry.kept_of_require done other
  | load => exact Autoloader.kept_of_load done other

/-- A call that takes in a file does what requiring the file does. -/
theorem Turn.require_of_outcome (asked : turn.call.path? = some path)
    (done : turn.outcome registry = (.ok true, after)) : registry.require turn.store path = (.ok true, after) := by
  obtain ⟨store, call⟩ := turn
  cases call with
  | evaluate => cases asked
  | require =>
    obtain rfl := Option.some.inj asked
    exact done
  | load loader name =>
    obtain rfl := Option.some.inj asked
    exact (Autoloader.load_eq_true_iff.mp done).2.2.2

theorem Turn.Evaluates.define_eq (given : turn.Evaluates registry code) :
    registry.define code = (.ok (), registry.step turn) := by
  obtain ⟨call, done⟩ := given
  rw [outcome_evaluate call] at done
  rw [Registry.step, outcome_evaluate call]
  rcases evaluated : registry.evaluate code with ⟨cause | _, left⟩ <;> rw [evaluated] at done
  · cases done
  · rw [Registry.evaluate] at evaluated
    split at evaluated
    · exact evaluated
    · cases evaluated

/-- What may become of a registry by a call. -/
inductive Turn.Effect (turn : Turn) (registry : Registry) : Registry → Prop where
  | keeps (known : ∀ location, turn.Reaches registry location → location ∈ registry.required)
    (silent : ∀ code, ¬turn.Evaluates registry code) : Effect turn registry registry
  | evaluates {code : String} {after : Registry} (given : turn.Evaluates registry code)
    (defined : registry.define code = (.ok (), after)) : Effect turn registry after
  | reads {location : Location} {source : String} {after : Registry} (reaches : turn.Reaches registry location)
    (fresh : location ∉ registry.required) (there : turn.store.fileAt? location = some source.toUTF8)
    (defined : registry.define (stripOpenTag source) = (.ok (), after)) :
    Effect turn registry { after with required := location :: after.required }

/-- A call has one of these effects, and no other. -/
theorem Turn.effect_step (turn : Turn) (registry : Registry) : turn.Effect registry (registry.step turn) := by
  by_cases done : (turn.outcome registry).1 = .ok true
  · have whole : turn.outcome registry = (.ok true, registry.step turn) := Prod.ext done rfl
    cases asked : turn.call.path? with
    | none =>
      cases call : turn.call with
      | evaluate code =>
        have given : turn.Evaluates registry code := ⟨call, done⟩
        exact .evaluates given given.define_eq
      | require | load =>
        rw [call] at asked
        cases asked
    | some path =>
      obtain ⟨-, location, found, taken⟩ := Registry.require_eq_ok_iff.mp (require_of_outcome asked whole)
      have reaches : turn.Reaches registry location := ⟨path, asked, found, done⟩
      split at taken
      · rename_i known
        rw [taken]
        exact .keeps (fun other again => reaches.unique again ▸ known) reaches.not_evaluates
      · rename_i fresh
        obtain ⟨source, defined, read, made, made_eq⟩ := taken
        rw [made_eq]
        exact .reads reaches fresh (FileStore.textAt_eq_ok_iff.mp read) made
  · -- Where nothing is taken in, there is neither a source text nor a file.
    have whole : turn.outcome registry = ((turn.outcome registry).1, registry.step turn) := rfl
    rw [kept_of_outcome whole done]
    exact .keeps (fun _ ⟨_, _, _, taken⟩ => absurd taken done) fun _ ⟨_, taken⟩ => done taken

/-- The location of a file counts as taken in as soon as the file was. -/
theorem Registry.mem_required_step_iff :
    location ∈ (registry.step turn).required ↔ location ∈ registry.required ∨ turn.Reaches registry location := by
  generalize effect : registry.step turn = after
  cases effect ▸ turn.effect_step registry with
  | keeps known => exact ⟨.inl, fun taken => taken.elim id (known location)⟩
  | evaluates given defined =>
    rw [(mem_defined_of_define defined).1]
    exact ⟨.inl, fun taken => taken.elim id fun reaches => absurd given (reaches.not_evaluates _)⟩
  | reads reaches fresh there defined =>
    rw [List.mem_cons, (mem_defined_of_define defined).1, or_comm]
    exact or_congr_right ⟨fun same => same ▸ reaches, fun again => again.unique reaches⟩

/-- A call brings a class: that of a source text, or that of a file that is met for the first time. -/
def Turn.Brings (turn : Turn) (registry : Registry) (name : String) : Prop :=
  (∃ code, turn.Evaluates registry code ∧ name ∈ declaredClasses code) ∨
    ∃ location source, turn.Reaches registry location ∧ location ∉ registry.required ∧
      turn.store.fileAt? location = some source.toUTF8 ∧ name ∈ declaredClasses (stripOpenTag source)

theorem Registry.mem_defined_step_iff :
    name ∈ (registry.step turn).defined ↔ name ∈ registry.defined ∨ turn.Brings registry name := by
  generalize effect : registry.step turn = after
  cases effect ▸ turn.effect_step registry with
  | keeps known silent =>
    refine ⟨.inl, fun there => there.elim id ?_⟩
    rintro (⟨code, given, -⟩ | ⟨location, _, reaches, fresh, -⟩)
    · exact absurd given (silent code)
    · exact absurd (known location reaches) fresh
  | evaluates given defined =>
    rw [(mem_defined_of_define defined).2]
    refine or_congr_right ⟨fun declared => .inl ⟨_, given, declared⟩, ?_⟩
    rintro (⟨_, again, declared⟩ | ⟨_, _, reaches, -⟩)
    · obtain rfl := Call.evaluate.inj (given.1.symm.trans again.1)
      exact declared
    · exact absurd given (reaches.not_evaluates _)
  | reads reaches fresh there defined =>
    rw [(mem_defined_of_define defined).2]
    refine or_congr_right ⟨fun declared => .inr ⟨_, _, reaches, fresh, there, declared⟩, ?_⟩
    rintro (⟨_, given, -⟩ | ⟨_, _, again, _, same, declared⟩)
    · exact absurd given (reaches.not_evaluates _)
    · obtain rfl := reaches.unique again
      rw [String.toByteArray_inj.mp (Option.some.inj (there.symm.trans same))]
      exact declared

end Steps

/-! ## What many calls do -/

namespace Registry

variable {start : Registry} {turns : List Turn}

theorem after_append (start : Registry) (front back : List Turn) :
    start.after (front ++ back) = (start.after front).after back :=
  List.foldl_append

/-- Whatever is there after some calls was there at the start, or one of the calls brought it. -/
theorem after_iff (here : Registry → Prop) (brings : Turn → Registry → Prop)
    (step_iff : ∀ turn registry, here (registry.step turn) ↔ here registry ∨ brings turn registry)
    (start : Registry) (turns : List Turn) :
    here (start.after turns) ↔
      here start ∨ ∃ front turn back, turns = front ++ turn :: back ∧ brings turn (start.after front) := by
  induction turns generalizing start with
  | nil => simp [after]
  | cons first rest ih =>
    have later : start.after (first :: rest) = (start.step first).after rest := rfl
    rw [later, ih, step_iff, or_assoc]
    refine or_congr_right ⟨?_, ?_⟩
    · rintro (brought | ⟨front, turn, back, rfl, brought⟩)
      · exact ⟨[], first, rest, rfl, brought⟩
      · exact ⟨first :: front, turn, back, rfl, brought⟩
    · rintro ⟨front, turn, back, split, brought⟩
      cases front with
      | nil =>
        obtain ⟨rfl, rfl⟩ := List.cons.inj split
        exact .inl brought
      | cons _ front =>
        obtain ⟨rfl, rfl⟩ := List.cons.inj split
        exact .inr ⟨front, turn, back, rfl, brought⟩

theorem mem_required_after_iff {location : Location} :
    location ∈ (start.after turns).required ↔ location ∈ start.required ∨
      ∃ front turn back, turns = front ++ turn :: back ∧ turn.Reaches (start.after front) location :=
  after_iff (location ∈ ·.required) (·.Reaches · location) (fun _ _ => mem_required_step_iff) start turns

theorem mem_defined_after_iff {name : String} :
    name ∈ (start.after turns).defined ↔ name ∈ start.defined ∨
      ∃ front turn back, turns = front ++ turn :: back ∧ turn.Brings (start.after front) name :=
  after_iff (name ∈ ·.defined) (·.Brings · name) (fun _ _ => mem_defined_step_iff) start turns

theorem required_subset_after (start : Registry) (turns : List Turn) :
    start.required ⊆ (start.after turns).required :=
  fun _ member => mem_required_after_iff.mpr (.inl member)

theorem defined_subset_after (start : Registry) (turns : List Turn) : start.defined ⊆ (start.after turns).defined :=
  fun _ member => mem_defined_after_iff.mpr (.inl member)

end Registry

/-! ## Files that are not read again -/

/-- Two stores that differ in the bytes of files at some locations at most. -/
structure FileStore.SameBut (kept : List Location) (one two : FileStore) : Prop where
  working : one.working = two.working
  directories : ∀ location, one.isDirectory location = two.isDirectory location
  places : ∀ location, (one.fileAt? location).isSome = (two.fileAt? location).isSome
  files : ∀ location, location ∉ kept → one.fileAt? location = two.fileAt? location

namespace FileStore.SameBut

variable {kept more : List Location} {one two : FileStore} (same : SameBut kept one two)
include same

theorem mono (grown : kept ⊆ more) : SameBut more one two :=
  ⟨same.working, same.directories, same.places, fun location outside =>
    same.files location fun member => outside (grown member)⟩

theorem isSome_entry?_eq (location : Location) : (one.entry? location).isSome = (two.entry? location).isSome := by
  rw [FileStore.isSome_entry?_eq, FileStore.isSome_entry?_eq, same.directories, same.places]

/-- Names lead to the same location. -/
theorem follow_eq (fits : Location → Bool) (start : Location) (names : List String) :
    one.follow fits start names = two.follow fits start names := by
  induction names generalizing start with
  | nil => rfl
  | cons name rest ih =>
    have there := same.isSome_entry?_eq (start ++ [name])
    simp only [follow, ih, same.directories]
    cases first : one.entry? (start ++ [name]) <;> cases second : two.entry? (start ++ [name]) <;>
      simp_all

theorem startOf_eq (path : String) : one.startOf path = two.startOf path := by
  rw [startOf, startOf, same.working]

theorem resolve_eq (path : String) : one.resolve path = two.resolve path := by
  rw [resolve, resolve, same.startOf_eq, same.follow_eq]

theorem pathExists_eq (path : String) : one.pathExists path = two.pathExists path := by
  rw [pathExists, pathExists, locate, locate, same.startOf_eq, same.follow_eq]

theorem textAt_eq {location : Location} (outside : location ∉ kept) : one.textAt location = two.textAt location := by
  rw [textAt_eq_elim, textAt_eq_elim, same.files location outside, same.directories]

omit same in
/-- A file is written anew. -/
theorem of_put {directory : Location} {name : String} (inside : one.isDirectory directory = true)
    (there : (one.fileAt? (directory ++ [name])).isSome = true) (known : directory ++ [name] ∈ kept)
    (bytes : ByteArray) : SameBut kept one (one.put (directory ++ [name]) (.file bytes)) := by
  have vacant : one.isDirectory (directory ++ [name]) = false := by
    rw [fileAt?] at there
    rw [isDirectory]
    cases found : one.entry? (directory ++ [name]) with
    | none => rfl
    | some entry =>
      cases entry with
      | file => rfl
      | directory => simp [found, Entry.bytes?] at there
  refine ⟨(working_put _ _).symm, fun location => (isDirectory_put_file inside vacant bytes location).symm,
    fun location => ?_, fun location outside => ?_⟩
  · rw [fileAt?_put_file inside vacant]
    split
    · rename_i here
      rw [here, there]
      rfl
    · rfl
  · have elsewhere : location ≠ directory ++ [name] := fun here => outside (here ▸ known)
    rw [fileAt?_put_file inside vacant, if_neg elsewhere]

end FileStore.SameBut

section Unread

variable {kept : List Location} {registry : Registry} {one two : FileStore}

/-- A file that was taken in is not read again. -/
theorem Registry.require_sameBut (same : one.SameBut registry.required two) (path : String) :
    registry.require one path = registry.require two path := by
  rw [require, require, same.resolve_eq]
  cases two.resolve path with
  | error => rfl
  | ok location =>
    by_cases known : location ∈ registry.required
    · simp [known]
    · simp only [same.textAt_eq known]

theorem Turn.outcome_sameBut {turn other : Turn} (calls : turn.call = other.call)
    (same : turn.store.SameBut registry.required other.store) : turn.outcome registry = other.outcome registry := by
  rw [outcome, outcome, calls]
  cases other.call with
  | evaluate => rfl
  | require path => exact Registry.require_sameBut same path
  | load loader name => simp only [Autoloader.load, same.pathExists_eq, Registry.require_sameBut same]

/-- Calls on stores that differ in files that were taken in before return the same. -/
theorem Registry.after_sameBut {turns others : List Turn} (known : kept ⊆ registry.required)
    (same : List.Forall₂ (fun turn other => turn.call = other.call ∧ turn.store.SameBut kept other.store)
      turns others) :
    registry.after turns = registry.after others ∧ registry.answers turns = registry.answers others := by
  induction same generalizing registry with
  | nil => exact ⟨rfl, rfl⟩
  | cons first rest ih =>
    rename_i turn other turns others
    have outcome := Turn.outcome_sameBut first.1 (first.2.mono known)
    have step : registry.step turn = registry.step other := by rw [Registry.step, Registry.step, outcome]
    obtain ⟨registries, returned⟩ := @ih (registry.step other) fun location member =>
      mem_required_step_iff.mpr (.inl (known member))
    constructor
    · change (registry.step turn).after turns = (registry.step other).after others
      rw [step, registries]
    · rw [answers, answers, outcome, step, returned]

end Unread

/-- After any calls, while files change in any way between them, exactly those classes are defined that were so at
the start, that a source text declared that was taken in, or that a file declared when it was reached for the first
time. Classes and files only become more. A call that fails changes nothing, and what becomes of files
after they were taken in does not matter. -/
theorem Registry.after_calls (start : Registry) (turns : List Turn) :
    (∀ name, name ∈ (start.after turns).defined ↔ name ∈ start.defined ∨
      ∃ front turn back, turns = front ++ turn :: back ∧
        ((∃ code, turn.Evaluates (start.after front) code ∧ name ∈ declaredClasses code) ∨
          ∃ location source, turn.Reaches (start.after front) location ∧ location ∉ start.required ∧
            (∀ before earlier between, front = before ++ earlier :: between →
              ¬earlier.Reaches (start.after before) location) ∧
            turn.store.fileAt? location = some source.toUTF8 ∧ name ∈ declaredClasses (stripOpenTag source))) ∧
    (∀ location, location ∈ (start.after turns).required ↔ location ∈ start.required ∨
      ∃ front turn back, turns = front ++ turn :: back ∧ turn.Reaches (start.after front) location) ∧
    (∀ front back, turns = front ++ back → (start.after front).defined ⊆ (start.after turns).defined ∧
      (start.after front).required ⊆ (start.after turns).required) ∧
    (∀ front turn back cause, turns = front ++ turn :: back → (turn.outcome (start.after front)).1 = .error cause →
      start.after (front ++ [turn]) = start.after front) ∧
    ∀ front back others, turns = front ++ back →
      List.Forall₂ (fun turn other => turn.call = other.call ∧
        turn.store.SameBut (start.after front).required other.store) back others →
      start.after (front ++ others) = start.after turns ∧
        (start.after front).answers others = (start.after front).answers back := by
  refine ⟨fun name => ?_, fun location => mem_required_after_iff, ?_, ?_, ?_⟩
  · rw [mem_defined_after_iff]
    refine or_congr_right (exists_congr fun front => exists_congr fun turn => exists_congr fun back =>
      and_congr_right fun _ => or_congr_right (exists_congr fun location => exists_congr fun source =>
        and_congr_right fun _ => ?_))
    -- A file was not taken in before if no call before reached it.
    rw [mem_required_after_iff, not_or, and_assoc]
    simp only [not_exists, not_and]
  · rintro front back rfl
    rw [after_append]
    exact ⟨defined_subset_after _ back, required_subset_after _ back⟩
  · intro front turn back cause _ failed
    rw [after_append]
    exact Turn.kept_of_outcome (Prod.ext failed rfl) nofun
  · rintro front back others rfl same
    obtain ⟨registries, returned⟩ := after_sameBut (List.Subset.refl _) same
    rw [after_append, after_append]
    exact ⟨registries.symm, returned.symm⟩

/-- A store whose one file declares a class. -/
def singleStore : FileStore where
  root := [("A.php", .file "<?php class A \x7b\x7d".toUTF8)]

/-- The file was taken in, so a class that it declares later on is not defined. A source text without a class was
refused in between. -/
theorem Registry.after_calls_rewritten :
    let rewritten := singleStore.put ["A.php"] (.file "<?php class B \x7b\x7d".toUTF8)
    let registry := Registry.after {} [⟨singleStore, .require "A.php"⟩, ⟨singleStore, .evaluate "class"⟩,
      ⟨rewritten, .require "./A.php"⟩]
    registry.defined = ["A"] ∧ registry.required = [["A.php"]] := by
  intro rewritten registry
  let front : List Turn := [⟨singleStore, .require "A.php"⟩]
  let failing : Turn := ⟨singleStore, .evaluate "class"⟩
  let again : Turn := ⟨singleStore, .require "./A.php"⟩
  have first : Registry.after {} front = ⟨true, ["A"], [["A.php"]]⟩ := by decide +kernel
  have failed : (failing.outcome (Registry.after {} front)).1 = .error .nothingDeclared := by decide +kernel
  obtain ⟨-, -, -, errors, unread⟩ := after_calls {} (front ++ [failing] ++ [again])
  have unchanged := errors front failing [again] .nothingDeclared rfl failed
  have same : singleStore.SameBut (Registry.after {} (front ++ [failing])).required rewritten := by
    have inside : singleStore.isDirectory [] = true := rfl
    have there : (singleStore.fileAt? ([] ++ ["A.php"])).isSome = true := rfl
    rw [unchanged, first]
    exact .of_put inside there (List.mem_singleton.mpr rfl) _
  have kept : registry = Registry.after {} (front ++ [failing] ++ [again]) :=
    (unread (front ++ [failing]) [again] [⟨rewritten, .require "./A.php"⟩] rfl (.cons ⟨rfl, same⟩ .nil)).1
  have reached : (⟨true, ["A"], [["A.php"]]⟩ : Registry).step again = ⟨true, ["A"], [["A.php"]]⟩ := by decide +kernel
  have final : registry = ⟨true, ["A"], [["A.php"]]⟩ := by
    rw [kept, after_append, unchanged, first]
    exact reached
  rw [final]
  exact ⟨rfl, rfl⟩

end ClassForge
