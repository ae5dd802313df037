import ClassForge.Proofs.Literal.Numerals
import ClassForge.Proofs.Registry.Loading
import Mathlib.Data.List.Perm.Subperm
import Mathlib.Data.List.Nodup
import Mathlib.Data.Nat.Digits.Defs
import Mathlib.Data.Set.Basic
import Mathlib.Data.String.Basic

/-! # Taking in a source text directly or through a file

A registry that takes no source texts is given one in a file of its own, behind a tag and a line break. The scanner
does not see either of them, so the same classes are defined and the same failure is reported. For the file there is
always a free location that was not taken in before.
-/

namespace ClassForge

open Token

/-! ## The file of its own -/

namespace FileStore

/-- The names of files that source texts go through. -/
def scratchName (number : Nat) : String :=
  "scratch-" ++ toString number

theorem toList_scratchName (number : Nat) :
    (scratchName number).toList = "scratch-".toList ++ Nat.toDigits 10 number := by
  rw [scratchName, String.toList_append, Nat.toString_eq_repr, Nat.toList_repr]

theorem scratchName_injective : Function.Injective scratchName := by
  intro m n same
  have chars := congrArg String.toList same
  rw [toList_scratchName, toList_scratchName] at chars
  exact toDigits_inj.mp (List.append_cancel_left chars)

theorem isProper_scratchName (number : Nat) : Path.IsProper (scratchName number) := by
  have chars := toList_scratchName number
  have other {short : String} (first : short.toList.head? ≠ some 's') : scratchName number ≠ short := by
    intro same
    rw [← same, chars] at first
    exact first rfl
  refine ⟨?_, other (by decide), ?_⟩
  · rw [Path.isIdle, Bool.or_eq_false_iff, decide_eq_false_iff_not, decide_eq_false_iff_not]
    exact ⟨other (by decide), other (by decide)⟩
  · rw [chars, List.mem_append]
    rintro (inside | inside)
    · exact absurd inside (by decide)
    · exact absurd (Nat.isDigit_of_mem_toDigits (by decide) (by decide) inside) (by decide)

/-- Each digit takes one byte. -/
theorem size_scratchName_le {number digits : Nat} (positive : 0 < digits) (bound : number < 10 ^ digits) :
    (scratchName number).utf8ByteSize ≤ 8 + digits := by
  have ascii (chars : List Char) (plain : ∀ c ∈ chars, c.isDigit = true) : String.utf8Len chars = chars.length := by
    induction chars with
    | nil => rfl
    | cons c rest ih =>
      have one : c.utf8Size = 1 := by
        have digit := plain c List.mem_cons_self
        rw [Char.isDigit, Bool.and_eq_true, decide_eq_true_iff, decide_eq_true_iff] at digit
        exact Char.utf8Size_eq_one_iff.mpr (UInt32.le_trans digit.2 (by decide))
      rw [String.utf8Len_cons, ih fun d member => plain d (List.mem_cons_of_mem _ member), one, List.length_cons]
  have digit : ∀ c ∈ Nat.toDigits 10 number, c.isDigit = true := fun c member =>
    Nat.isDigit_of_mem_toDigits (by decide) (by decide) member
  have few := Nat.toDigits_length 10 number digits positive bound
  rw [← String.ofList_toList (s := scratchName number), toList_scratchName, String.utf8ByteSize_ofList,
    String.utf8Len_append, ascii _ digit]
  exact Nat.add_le_add_left few 8

/-- The path of a file whose name is short enough is a path. -/
theorem check_scratchName {number : Nat} (short : (scratchName number).utf8ByteSize ≤ Path.maxName) :
    Path.check (Location.text [scratchName number]) = .ok () := by
  have text : Location.text [scratchName number] = "/" ++ scratchName number := Location.text_concat [] _
  have plain : (Location.text [scratchName number]).toList.contains '\x00' = false := by
    rw [text, String.toList_append, toList_scratchName, List.contains_eq_mem, decide_eq_false_iff_not,
      List.mem_append, List.mem_append]
    rintro (inside | inside | inside)
    · exact absurd inside (by decide)
    · exact absurd inside (by decide)
    · exact absurd (Nat.isDigit_of_mem_toDigits (by decide) (by decide) inside) (by decide)
  have solid : Location.text [scratchName number] ≠ "" := by
    intro empty
    have first := congrArg String.toList empty
    rw [text, String.toList_append] at first
    cases first
  have fits : ¬Path.maxSize < (Location.text [scratchName number]).utf8ByteSize := by
    rw [text, String.utf8ByteSize_append, Nat.not_lt]
    exact Nat.le_trans (Nat.add_le_add_left short 1) (by decide)
  rw [Path.check, Path.checkText, plain, if_neg Bool.false_ne_true, if_neg solid, ok_bind, if_neg fits]

section Unused

variable (store : FileStore) (taken : List Location)

private theorem mem_names_of_isSome {name : String} (there : (store.entry? [name]).isSome = true) :
    [name] ∈ store.root.map fun entry => [entry.1] := by
  cases found : store.root.lookup name with
  | none =>
    rw [FileStore.entry?, Entry.find?, found] at there
    cases there
  | some entry =>
    obtain ⟨front, back, split, -⟩ := List.lookup_eq_some_iff.mp found
    exact List.mem_map.mpr ⟨(name, entry), by rw [split]; simp, rfl⟩

/-- There are more names than entries and taken locations, so one of them is free. -/
theorem exists_unusedLocation :
    ∃ number ≤ store.root.length + taken.length, store.unusedLocation taken = [scratchName number] ∧
      store.entry? [scratchName number] = none ∧ [scratchName number] ∉ taken := by
  let used : List Location := (store.root.map fun entry => [entry.1]) ++ taken
  let candidates : List Location :=
    (List.range (store.root.length + taken.length + 1)).map fun number => [scratchName number]
  have apart : candidates.Nodup :=
    List.nodup_range.map fun m n same => scratchName_injective (List.singleton_inj.mp same)
  cases found : candidates.find? fun location => (store.entry? location).isNone && !taken.contains location with
  | none =>
    have all : candidates ⊆ used := by
      intro location member
      have refused := List.find?_eq_none.mp found location member
      obtain ⟨number, -, rfl⟩ := List.mem_map.mp member
      by_cases there : (store.entry? [scratchName number]).isSome = true
      · exact List.mem_append_left _ (mem_names_of_isSome store there)
      · apply List.mem_append_right
        simpa [Option.not_isSome_iff_eq_none.mp there] using refused
    have fewer := (apart.subperm all).length_le
    simp [candidates, used] at fewer
  | some location =>
    obtain ⟨number, bound, rfl⟩ := List.mem_map.mp (List.mem_of_find?_eq_some found)
    have free := List.find?_some found
    simp only [Bool.and_eq_true, Option.isNone_iff_eq_none, Bool.not_eq_true', List.contains_eq_mem,
      decide_eq_false_iff_not] at free
    refine ⟨number, Nat.lt_succ_iff.mp (List.mem_range.mp bound), ?_, free.1, free.2⟩
    rw [unusedLocation]
    change (candidates.find? _).getD [] = _
    rw [found]
    rfl

/-- A file for a source text can be found by its path. -/
def HasScratch : Prop :=
  ∀ bytes, (store.put (store.unusedLocation taken) (.file bytes)).resolve (store.unusedLocation taken).text =
    .ok (store.unusedLocation taken)

variable {store taken}

/-- Names are limited in size, so a file can be found unless there are more entries than could ever be counted. -/
theorem hasScratch_of_lt (bound : store.root.length + taken.length < 10 ^ 247) : store.HasScratch taken := by
  intro bytes
  obtain ⟨number, small, chosen, free, -⟩ := store.exists_unusedLocation taken
  have short : (scratchName number).utf8ByteSize ≤ Path.maxName :=
    size_scratchName_le (by decide) (Nat.lt_of_le_of_lt small bound)
  have replaces : store.Replaces [] (scratchName number) bytes (store.put [scratchName number] (.file bytes)) := by
    refine ⟨fun front name back way => ?_, rfl, ?_, ?_, ?_, rfl⟩
    · cases front <;> cases way
    · rw [isDirectory, List.nil_append, free]
      rfl
    · rw [Path.checkName, if_neg (Nat.not_lt.mpr short)]
    · exact check_scratchName short
  rw [chosen]
  exact replaces.resolve_eq (fun _ member => absurd member List.not_mem_nil) (isProper_scratchName number)

end Unused

end FileStore

/-! ## Taking in -/

namespace Registry

variable {registry : Registry} {store : FileStore} {path : String} {location : Location}

/-- The names of the defined classes, in no order. -/
def names (registry : Registry) : Set String :=
  {name | name ∈ registry.defined}

/-- What comes of taking in a source text: one that declares nothing is refused and leaves the registry as it is,
and of any other one all that it declares is defined. -/
inductive Takes {α : Type} (registry : Registry) (code : String) (value : α) : Except RegistryError α × Registry → Prop
  | refused (nothing : declaredClasses code = []) : Takes registry code value (.error .nothingDeclared, registry)
  | defined {after : Registry} (something : declaredClasses code ≠ [])
      (names : after.names = registry.names ∪ {name | name ∈ declaredClasses code}) :
      Takes registry code value (.ok value, after)

theorem takes_define (registry : Registry) (code : String) : Takes registry code () (registry.define code) := by
  by_cases declared : declaredClasses code = []
  · have failed : registry.define code = (.error .nothingDeclared, registry) := by simp only [define, if_pos declared]
    rw [failed]
    exact .refused declared
  · obtain ⟨first, others, shape⟩ := List.exists_cons_of_ne_nil declared
    obtain ⟨after, done⟩ := exists_define shape registry
    rw [done]
    exact .defined declared (Set.ext (mem_defined_of_define done).2)

/-- A file that was not taken in before is taken in by its code, gaps behind the tag or not. -/
theorem takes_require (found : store.resolve path = .ok location) (fresh : location ∉ registry.required)
    {lead : String} (gaps : lead.toList.all isGap = true) {code : String}
    (there : store.fileAt? location = some (openTag ++ lead ++ code).toUTF8) :
    Takes registry code true (registry.require store path) := by
  have unread : registry.required.contains location = false := by
    rw [List.contains_eq_mem, decide_eq_false fresh]
  have same := declaredClasses_tagged gaps code
  have taken := registry.takes_define (stripOpenTag (openTag ++ lead ++ code))
  simp only [require, found, unread, Bool.false_eq_true, if_false, FileStore.textAt_eq_ok_iff.mpr there]
  -- The file is noted behind the classes, so what defining makes of its code is all that can fail.
  generalize registry.define (stripOpenTag (openTag ++ lead ++ code)) = outcome at taken ⊢
  cases taken with
  | refused nothing => exact .refused (same ▸ nothing)
  | defined something names => exact .defined (same ▸ something) (same ▸ names)

/-- So is a source text that goes through a file. -/
theorem takes_evaluateThroughFile (room : store.HasScratch registry.required) (code : String) :
    Takes registry code () (registry.evaluateThroughFile store code) := by
  obtain ⟨number, -, chosen, free, fresh⟩ := store.exists_unusedLocation registry.required
  have found := room (openTag ++ "\n" ++ code).toUTF8
  rw [chosen] at found
  have vacant : store.isDirectory ([] ++ [FileStore.scratchName number]) = false := by
    rw [FileStore.isDirectory, List.nil_append, free]
    rfl
  have there := FileStore.fileAt?_put_file rfl vacant (openTag ++ "\n" ++ code).toUTF8 [FileStore.scratchName number]
  rw [List.nil_append, if_pos rfl] at there
  have taken := takes_require found fresh (by decide) there
  simp only [evaluateThroughFile, chosen]
  generalize registry.require _ _ = outcome at taken ⊢
  cases taken with
  | refused nothing => exact .refused nothing
  | defined something names => exact .defined something names

end Registry

/-- Defining printed code gives the code, if it is taken in, and leaves the registry that taking it in leaves. -/
theorem Printer.define_eq_of_takes {printer : Printer} {tree : Tree} {registry : Registry} {store : FileStore}
    {outcome : Except RegistryError Unit × Registry}
    (chosen : (if registry.evaluates then registry.evaluate (printer tree)
      else registry.evaluateThroughFile store (printer tree)) = outcome)
    (taken : registry.Takes (printer tree) () outcome) :
    (printer.define registry store tree).map id Registry.names =
      if declaredClasses (printer tree) = [] then (.error (.registry .nothingDeclared), registry.names)
      else (.ok (printer tree), registry.names ∪ {name | name ∈ declaredClasses (printer tree)}) := by
  simp only [define, chosen]
  cases taken with
  | refused nothing => exact (if_pos nothing).symm
  | defined something names => exact (congrArg (Prod.mk _) names).trans (if_neg something).symm

/-- Printed code that a registry takes in directly or through a file leads to the same answer and the same classes: if
it declares some, they are defined, and if it declares none, both fail alike and define nothing. So does a file of code
behind the tag and one or two line breaks. -/
theorem Printer.define_directly_or_through_file (printer : Printer) (tree : Tree) (direct indirect : Registry)
    (store files : FileStore) (able : direct.evaluates = true) (unable : indirect.evaluates = false)
    (same : direct.names = indirect.names) (room : files.HasScratch indirect.required) :
    (printer.define direct store tree).map id Registry.names =
      (printer.define indirect files tree).map id Registry.names ∧
    (printer.define direct store tree).map id Registry.names =
      (if declaredClasses (printer tree) = [] then (.error (.registry .nothingDeclared), direct.names)
        else (.ok (printer tree), direct.names ∪ {name | name ∈ declaredClasses (printer tree)})) ∧
    ∀ (code lead : String) (registry : Registry) (store : FileStore) (path : String) (location : Location),
      lead = "\n" ∨ lead = "\n\n" → store.resolve path = .ok location → location ∉ registry.required →
      store.fileAt? location = some (openTag ++ lead ++ code).toUTF8 →
      if declaredClasses code = [] then registry.require store path = (.error .nothingDeclared, registry)
      else ∃ after, registry.require store path = (.ok true, after) ∧
        after.names = registry.names ∪ {name | name ∈ declaredClasses code} := by
  have evaluated : direct.evaluate (printer tree) = direct.define (printer tree) := if_pos able
  have directly : (printer.define direct store tree).map id Registry.names = _ :=
    define_eq_of_takes ((if_pos able).trans evaluated) (direct.takes_define _)
  have through : (printer.define indirect files tree).map id Registry.names = _ :=
    define_eq_of_takes (if_neg (Bool.eq_false_iff.mp unable)) (Registry.takes_evaluateThroughFile room _)
  refine ⟨?_, directly, fun code lead registry store path location broken found fresh there => ?_⟩
  · rw [directly, through, same]
  · have gaps : lead.toList.all isGap = true := by
      rcases broken with rfl | rfl <;> decide
    have taken := Registry.takes_require found fresh gaps there
    generalize registry.require store path = outcome at taken ⊢
    cases taken with
    | refused nothing =>
      rw [if_pos nothing]
    | defined something names =>
      rw [if_neg something]
      exact ⟨_, rfl, names⟩

/-- Prints code with a tag of its own. -/
def taggedPrinter : Printer :=
  fun _ => "<?php namespace App; class Foo \x7b\x7d"

/-- A tag in the code does no harm, and the first name for a file is taken. An empty code is refused both ways, and
nothing is forgotten over it. -/
theorem Printer.define_directly_or_through_file_tagged :
    (taggedPrinter.define {} emptyStore []).map id Registry.names = (.ok (taggedPrinter []), {"App\\Foo"}) ∧
    (taggedPrinter.define { evaluates := false, required := [["scratch-0"]] } emptyStore []).map id Registry.names =
      (.ok (taggedPrinter []), {"App\\Foo"}) ∧
    (Printer.define (fun _ => "") { evaluates := false, defined := ["Old"] } emptyStore []).map id Registry.names =
      (.error (.registry .nothingDeclared), {"Old"}) ∧
    ∃ after, Registry.require {} { root := [("Foo.php", .file (fileText (taggedPrinter [])).toUTF8)] } "Foo.php" =
      (.ok true, after) ∧ after.names = {"App\\Foo"} := by
  have declared : declaredClasses (taggedPrinter []) = ["App\\Foo"] := by decide +kernel
  have room (taken : List Location) (few : taken.length ≤ 1) : emptyStore.HasScratch taken :=
    FileStore.hasScratch_of_lt (Nat.lt_of_le_of_lt (Nat.add_le_add_left few 1) (by decide))
  have fresh : Registry.names {} ∪ {name | name ∈ ["App\\Foo"]} = {"App\\Foo"} := by
    ext name
    simp [Registry.names]
  have old : Registry.names { evaluates := true, defined := ["Old"] } = {"Old"} := by
    ext name
    simp [Registry.names]
  obtain ⟨same, defined, required⟩ := define_directly_or_through_file taggedPrinter [] {}
    { evaluates := false, required := [["scratch-0"]] } emptyStore emptyStore rfl rfl rfl (room _ (Nat.le_refl 1))
  obtain ⟨alike, refused, -⟩ := define_directly_or_through_file (fun _ => "") [] { defined := ["Old"] }
    { evaluates := false, defined := ["Old"] } emptyStore emptyStore rfl rfl rfl (room _ (Nat.zero_le 1))
  rw [declared, if_neg (List.cons_ne_nil _ _), fresh] at defined
  rw [if_pos (by decide +kernel), old] at refused
  refine ⟨defined, same.symm.trans defined, alike.symm.trans refused, ?_⟩
  have taken := required (taggedPrinter []) "\n\n" {}
    { root := [("Foo.php", .file (fileText (taggedPrinter [])).toUTF8)] } "Foo.php" ["Foo.php"] (.inr rfl)
    (by decide +kernel) List.not_mem_nil rfl
  rwa [declared, if_neg (List.cons_ne_nil _ _), fresh] at taken

end ClassForge
