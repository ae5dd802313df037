import ClassForge.Name.ClassName
import ClassForge.Proofs.Name.Segments
import ClassForge.Proofs.Outcome
import Mathlib.Data.List.SplitBy

/-! # Names and their texts

A text is no name if it has nothing but separators, or two adjacent ones between others. The segments of any other
text are its maximal runs of characters that are not separators. So a name is read back from its text exactly if its
parts are neither empty nor have separators, and the text of a name that was read is the given one without the
separators at its ends.
-/

namespace ClassForge

namespace Segment

/-! ## Runs -/

/-- The maximal runs of characters that are not separators, in order. -/
def runs (chars : List Char) : List (List Char) :=
  (chars.splitBy fun c d => (c == separator) == (d == separator)).filter fun run => separator ∉ run

private theorem runs_of_notMem {word : List Char} (filled : word ≠ []) (free : separator ∉ word) :
    runs word = [word] := by
  have chain : word.IsChain fun c d => ((c == separator) == (d == separator)) = true := by
    apply List.Pairwise.isChain
    apply List.pairwise_of_forall_mem_list
    intro c inside d other
    have first : c ≠ separator := fun same => free (same ▸ inside)
    have second : d ≠ separator := fun same => free (same ▸ other)
    simp [first, second]
  rw [runs, List.splitBy_of_isChain filled chain]
  simp [free]

private theorem runs_separators (count : Nat) {rest : List Char} (first : rest.head? ≠ some separator) :
    runs (List.replicate count separator ++ rest) = runs rest := by
  cases count with
  | zero => rfl
  | succ count =>
    have chain : (List.replicate (count + 1) separator).IsChain
        fun c d => ((c == separator) == (d == separator)) = true := by
      apply List.Pairwise.isChain
      simp [List.pairwise_replicate]
    have apart : ∀ c ∈ (List.replicate (count + 1) separator).getLast?, ∀ d ∈ rest.head?,
        ((c == separator) == (d == separator)) = false := by
      intro c last d next
      have other : d ≠ separator := by
        rintro rfl
        exact first next
      obtain rfl := List.eq_of_mem_replicate (List.mem_of_getLast? last)
      simp [other]
    rw [runs, List.splitBy_append apart, List.splitBy_of_isChain (by simp) chain, List.filter_append]
    simp [runs]

private theorem runs_separator_cons (rest : List Char) : runs (separator :: rest) = runs rest := by
  obtain ⟨count, parts⟩ := exists_trimFront rest
  have first := head?_trimFront rest
  have whole := runs_separators (count + 1) first
  rw [List.replicate_succ, List.cons_append, ← parts] at whole
  rw [whole, ← runs_separators count first, ← parts]

private theorem runs_append_separator {word : List Char} (free : separator ∉ word) (rest : List Char) :
    runs (word ++ separator :: rest) = runs word ++ runs rest := by
  have apart : ∀ c ∈ word.getLast?, ((c == separator) == (separator == separator)) = false := by
    intro c last
    have other : c ≠ separator := fun same => free (same ▸ List.mem_of_getLast? last)
    simp [other]
  rw [← runs_separator_cons rest, runs, List.splitBy_append_cons rest apart, List.filter_append]
  rfl

/-- A text has no separator, or it goes on behind the first one. -/
@[elab_as_elim]
theorem induction {motive : List Char → Prop} (single : ∀ word, separator ∉ word → motive word)
    (more : ∀ word rest, separator ∉ word → motive rest → motive (word ++ separator :: rest)) (chars : List Char) :
    motive chars := by
  by_cases member : separator ∈ chars
  · obtain ⟨word, rest, parts, free⟩ := List.eq_append_cons_of_mem member
    rw [parts]
    exact more word rest free (induction single more rest)
  · exact single chars member
termination_by chars.length
decreasing_by
  rw [parts, List.length_append, List.length_cons]
  omega

/-- The runs are the pieces between separators that are not empty. -/
theorem runs_eq_filter (chars : List Char) : runs chars = (chars.splitOn separator).filter (· ≠ []) := by
  have word {word : List Char} (free : separator ∉ word) : runs word = [word].filter (· ≠ []) := by
    by_cases filled : word = []
    · rw [filled]
      rfl
    · rw [runs_of_notMem filled free]
      simp [filled]
  induction chars using induction with
  | single chars free => rw [List.splitOn_eq_singleton free, word free]
  | more chars rest free later =>
    rw [runs_append_separator free, word free, later, List.splitOn_append_cons_self, List.splitOn_eq_singleton free,
      List.filter_append]

/-- Separators at the ends bring no runs. -/
theorem runs_trim (text : String) : runs (trim text).toList = runs text.toList := by
  obtain ⟨before, after, parts⟩ := exists_trim text
  have front (count : Nat) (chars : List Char) : runs (List.replicate count separator ++ chars) = runs chars := by
    induction count with
    | zero => rfl
    | succ count ih => rw [List.replicate_succ, List.cons_append, runs_separator_cons, ih]
  have back (count : Nat) (chars : List Char) : runs (chars ++ List.replicate count separator) = runs chars := by
    cases count with
    | zero => rw [List.replicate_zero, List.append_nil]
    | succ count =>
      have none : runs (List.replicate count separator) = [] := by
        have all := front count []
        rwa [List.append_nil] at all
      rw [runs_eq_filter, List.replicate_succ, List.splitOn_append_cons_self, List.filter_append, ← runs_eq_filter,
        ← runs_eq_filter, none, List.append_nil]
  rw [parts, front, back]

/-- An empty piece is at one of the ends, or between two adjacent separators. -/
private theorem adjacent_of_nil_mem {chars : List Char} (empty : [] ∈ chars.splitOn separator) :
    chars = [] ∨ chars.head? = some separator ∨ chars.getLast? = some separator ∨
      [separator, separator] <:+: chars := by
  induction chars using induction with
  | single word free =>
    rw [List.splitOn_eq_singleton free, List.mem_singleton] at empty
    exact .inl empty.symm
  | more word rest free later =>
    rw [List.splitOn_append_cons_self, List.splitOn_eq_singleton free, List.mem_append, List.mem_singleton] at empty
    rcases empty with rfl | empty
    · exact .inr (.inl rfl)
    rcases later empty with rfl | first | last | inside
    · exact .inr (.inr (.inl (by simp)))
    · obtain ⟨tail, rfl⟩ := List.head?_eq_some_iff.mp first
      exact .inr (.inr (.inr ⟨word, tail, by simp⟩))
    · refine .inr (.inr (.inl ?_))
      rw [List.getLast?_append, List.getLast?_cons, last]
      rfl
    · refine .inr (.inr (.inr (inside.trans ?_)))
      exact (List.suffix_append (word ++ [separator]) rest).isInfix.trans (by simp)

/-- A trimmed text has an empty piece exactly if two separators are adjacent. -/
theorem empty_mem_split_iff {text : String} (filled : text ≠ "") (trimmed : Trimmed text) :
    "" ∈ split text ↔ [separator, separator] <:+: text.toList := by
  have pieces : "" ∈ split text ↔ [] ∈ text.toList.splitOn separator := by
    rw [split, List.mem_map]
    constructor
    · rintro ⟨piece, member, same⟩
      rwa [String.ofList_eq_empty_iff.mp same] at member
    · exact fun member => ⟨[], member, rfl⟩
  rw [pieces]
  constructor
  · intro empty
    rcases adjacent_of_nil_mem empty with none | first | last | inside
    · exact absurd (String.toList_eq_nil_iff.mp none) filled
    · exact absurd first trimmed.1
    · exact absurd last trimmed.2
    · exact inside
  · rintro ⟨front, back, same⟩
    rw [← same, List.append_assoc, List.cons_append, List.splitOn_append_cons_self]
    apply List.mem_append_right
    rw [← List.nil_append ([separator] ++ back), List.singleton_append, List.splitOn_append_cons_self]
    exact List.mem_append_left _ (List.mem_singleton_self _)

/-! ## Reading -/

/-- A text without segments. -/
def OnlySeparators (text : String) : Prop :=
  ∀ c ∈ text.toList, c = separator

/-- A text with two adjacent separators between others. -/
def HasGap (text : String) : Prop :=
  [separator, separator] <:+: (trim text).toList

theorem trim_eq_empty_iff {text : String} : trim text = "" ↔ OnlySeparators text := by
  obtain ⟨before, after, parts⟩ := exists_trim text
  constructor
  · intro empty c member
    rw [parts, empty] at member
    rcases List.mem_append.mp member with member | member
    · exact List.eq_of_mem_replicate member
    · exact List.eq_of_mem_replicate member
  · intro only
    by_contra filled
    obtain ⟨c, rest, chars⟩ := List.exists_cons_of_ne_nil (mt String.toList_eq_nil_iff.mp filled)
    have inside : c ∈ text.toList := by
      rw [parts, chars]
      simp
    apply (trimmed_trim text).1
    rw [chars, List.head?_cons, only c inside]

theorem parse_of_onlySeparators {text : String} (only : OnlySeparators text) : parse text = .error .empty := by
  simp only [parse, if_pos (trim_eq_empty_iff.mpr only)]

section Filled

variable {text : String} (filled : ¬OnlySeparators text)
include filled

theorem parse_of_hasGap (gap : HasGap text) : parse text = .error (.emptySegment text) := by
  have inner : trim text ≠ "" := mt trim_eq_empty_iff.mp filled
  have hollow := (empty_mem_split_iff inner (trimmed_trim text)).mpr gap
  simp only [parse, if_neg inner, if_pos hollow]

/-- The segments of a text are its runs. -/
theorem parse_eq_runs (whole : ¬HasGap text) : parse text = .ok ((runs text.toList).map String.ofList) := by
  have inner : trim text ≠ "" := mt trim_eq_empty_iff.mp filled
  have solid := mt (empty_mem_split_iff inner (trimmed_trim text)).mp whole
  rw [parse_eq_ok_iff]
  refine ⟨inner, solid, ?_⟩
  have kept : ((trim text).toList.splitOn separator).filter (· ≠ []) = (trim text).toList.splitOn separator := by
    rw [List.filter_eq_self]
    intro piece member
    rw [decide_eq_true_eq]
    rintro rfl
    exact solid (List.mem_map_of_mem member)
  rw [← runs_trim, runs_eq_filter, kept, split]

end Filled

/-- A result that is refused where the text has no segments, and with the text itself where it has a gap. -/
structure Refuses {α : Type} (text : String) (result : Except NameError α) : Prop where
  empty : result = .error .empty ↔ OnlySeparators text
  emptySegment : result = .error (.emptySegment text) ↔ ¬OnlySeparators text ∧ HasGap text

/-- Whatever is made of the segments, the text is refused in the same way. -/
theorem refuses_parse {α : Type} (text : String) (make : List String → α) :
    Refuses text (parse text >>= fun segments => pure (make segments)) := by
  by_cases only : OnlySeparators text
  · rw [parse_of_onlySeparators only]
    exact ⟨iff_of_true rfl only, iff_of_false (nomatch ·) fun other => other.1 only⟩
  by_cases gap : HasGap text
  · rw [parse_of_hasGap only gap]
    exact ⟨iff_of_false (nomatch ·) only, iff_of_true rfl ⟨only, gap⟩⟩
  · rw [parse_eq_runs only gap]
    exact ⟨iff_of_false (nomatch ·) only, iff_of_false (nomatch ·) fun other => gap other.2⟩

/-! ## Reading back -/

/-- Parts that are neither empty nor have separators are read from any text that is their join but for separators at
its ends. -/
theorem parse_of_trim {parts : List String} (filled : parts ≠ [])
    (pieces : ∀ part ∈ parts, part.toList ≠ [] ∧ separator ∉ part.toList) {text : String}
    (trim : Segment.trim text = join parts) : parse text = .ok parts := by
  have split := split_join_of_separator_notMem filled fun part member => (pieces part member).2
  have solid : "" ∉ Segment.split (Segment.trim text) := by
    rw [trim, split]
    exact fun empty => (pieces "" empty).1 rfl
  rw [parse_of_solid solid, trim, split]

theorem pieces_of_parse {text : String} {segments : List String} (read : parse text = .ok segments) :
    ∀ segment ∈ segments, segment.toList ≠ [] ∧ separator ∉ segment.toList := by
  obtain ⟨_, solid, same⟩ := parse_eq_ok_iff.mp read
  rw [same]
  intro segment member
  refine ⟨fun empty => solid ?_, separator_notMem_of_mem_split member⟩
  rwa [← String.toList_eq_nil_iff.mp empty]

end Segment

namespace SourceName

theorem ofText_eq_ok_iff {text : String} {name : SourceName} :
    ofText text = .ok name ↔
      Segment.parse text = .ok name.parts ∧ name.absolute = (text.toList.head? == some separator) := by
  rw [ofText]
  cases Segment.parse text with
  | error cause => exact iff_of_false (nomatch ·) (nomatch ·.1)
  | ok segments =>
    constructor
    · intro read
      obtain rfl := Except.ok.inj read
      exact ⟨rfl, rfl⟩
    · rintro ⟨parts, absolute⟩
      rw [Except.ok.inj parts, ← absolute]
      rfl

/-- Whether a name can be told from its source: it has parts, and they are neither empty nor have separators. -/
def isLegible (name : SourceName) : Bool :=
  decide (name.parts ≠ [] ∧ ∀ part ∈ name.parts, part.toList ≠ [] ∧ separator ∉ part.toList)

theorem trim_absolute (text : String) : Segment.trim (String.singleton separator ++ text) = Segment.trim text := by
  have chars : (String.singleton separator ++ text).toList = separator :: text.toList := by simp
  rw [Segment.trim, Segment.trim, chars]
  rfl

variable {name : SourceName}

theorem ofText_source (legible : name.isLegible = true) : ofText name.source = .ok name := by
  obtain ⟨parts, absolute⟩ := name
  obtain ⟨filled, pieces⟩ := of_decide_eq_true legible
  have trimmed := Segment.trimmed_join_segments filled pieces
  rw [ofText_eq_ok_iff]
  cases absolute with
  | false =>
    have head : ((Segment.join parts).toList.head? == some separator) = false := beq_eq_false_iff_ne.mpr trimmed.1
    exact ⟨Segment.parse_of_trim filled pieces (Segment.trim_of_trimmed trimmed), head.symm⟩
  | true =>
    have inner : Segment.trim (String.singleton separator ++ Segment.join parts) = Segment.join parts :=
      (trim_absolute _).trans (Segment.trim_of_trimmed trimmed)
    exact ⟨Segment.parse_of_trim filled pieces inner, by simp [source]⟩

/-- Parts that are there and not empty come back exactly if they have no separators. -/
theorem ofText_source_iff (filled : name.parts ≠ []) (solid : "" ∉ name.parts) :
    ofText name.source = .ok name ↔ ∀ part ∈ name.parts, separator ∉ part.toList := by
  constructor
  · intro read part member
    exact (Segment.pieces_of_parse (ofText_eq_ok_iff.mp read).1 part member).2
  · intro free
    apply ofText_source
    apply decide_eq_true
    refine ⟨filled, fun part member => ⟨fun empty => solid ?_, free part member⟩⟩
    rwa [← String.toList_eq_nil_iff.mp empty]

theorem filled_of_ofParts {parts : List String} (made : ofParts parts = .ok name) :
    name.parts ≠ [] ∧ "" ∉ name.parts := by
  rw [ofParts] at made
  split at made
  · cases made
  · rename_i filled
    split at made
    · cases made
    · rename_i solid
      obtain rfl := Except.ok.inj made
      exact ⟨filled, solid⟩

/-- The source of a name that was read is the given text but for separators at its ends, of which one stays in front. -/
theorem source_of_ofText {text : String} (read : ofText text = .ok name) :
    name.source =
      if text.toList.head? = some separator then String.singleton separator ++ Segment.trim text
      else Segment.trim text := by
  obtain ⟨parsed, absolute⟩ := ofText_eq_ok_iff.mp read
  have joined : name.text = Segment.trim text := by
    rw [SourceName.text, (Segment.parse_eq_ok_iff.mp parsed).2.2, Segment.join_split]
  rw [source, absolute, joined]
  simp only [beq_iff_eq]

end SourceName

namespace ClassName

theorem ofText_eq_ok_iff {text : String} {name : ClassName} :
    ofText text = .ok name ↔ Segment.parse text = .ok name.segments := by
  constructor
  · intro read
    obtain ⟨pieces, parsed, made⟩ := bind_eq_ok read
    obtain rfl := Except.ok.inj made
    have whole : pieces.dropLast ++ [pieces.getLastD ""] = pieces := by
      have nonempty := (Segment.ne_nil_of_parse parsed).1
      rw [List.getLastD_eq_getLast?, List.getLast?_eq_some_getLast nonempty, Option.getD_some,
        List.dropLast_concat_getLast]
    rw [parsed, ClassName.segments, whole]
  · intro parsed
    rw [ofText, parsed, ok_bind, ClassName.segments, List.dropLast_concat, List.getLastD_concat]
    rfl

theorem exists_of_parse {text : String} {segments : List String} (parsed : Segment.parse text = .ok segments) :
    ∃ name, ofText text = .ok name ∧ name.segments = segments := by
  have read : ofText text = .ok ⟨segments.dropLast, segments.getLastD ""⟩ := by
    rw [ofText, parsed]
    rfl
  have same := ofText_eq_ok_iff.mp read
  rw [parsed] at same
  exact ⟨_, read, (Except.ok.inj same).symm⟩

theorem text_of_ofText {text : String} {name : ClassName} (read : ofText text = .ok name) :
    name.text = Segment.trim text := by
  rw [ClassName.text, (Segment.parse_eq_ok_iff.mp (ofText_eq_ok_iff.mp read)).2.2, Segment.join_split]

/-- A class name comes back from its text exactly if its segments are neither empty nor have separators. -/
theorem ofText_text_iff (name : ClassName) :
    ofText name.text = .ok name ↔ ∀ segment ∈ name.segments, segment ≠ "" ∧ separator ∉ segment.toList := by
  simp only [ofText_eq_ok_iff, ← String.toList_eq_nil_iff.not]
  constructor
  · exact Segment.pieces_of_parse
  · intro pieces
    have filled : name.segments ≠ [] := List.concat_ne_nil _ _
    apply Segment.parse_of_trim filled pieces
    exact Segment.trim_of_trimmed (Segment.trimmed_join_segments filled pieces)

end ClassName

/-- What is read as a name, and which names come back from their texts. -/
theorem names_and_texts_agree :
    (∀ text, Segment.Refuses text (SourceName.ofText text) ∧ Segment.Refuses text (ClassName.ofText text) ∧
      (¬Segment.OnlySeparators text → ¬Segment.HasGap text →
        (∃ name, SourceName.ofText text = .ok name ∧
          name.parts = (Segment.runs text.toList).map String.ofList ∧
          (name.absolute = true ↔ text.toList.head? = some separator)) ∧
        ∃ name, ClassName.ofText text = .ok name ∧
          name.segments = (Segment.runs text.toList).map String.ofList)) ∧
    (∀ name : SourceName, name.parts ≠ [] → "" ∉ name.parts →
      (SourceName.ofText name.source = .ok name ↔ ∀ part ∈ name.parts, separator ∉ part.toList)) ∧
    (∀ parts name, SourceName.ofParts parts = .ok name → name.parts ≠ [] ∧ "" ∉ name.parts) ∧
    (∀ name : ClassName, ClassName.ofText name.text = .ok name ↔
      ∀ segment ∈ name.segments, segment ≠ "" ∧ separator ∉ segment.toList) ∧
    (∀ text name, ClassName.ofText text = .ok name → name.text = Segment.trim text) ∧
    ∀ text name, SourceName.ofText text = .ok name → name.source =
      if text.toList.head? = some separator then String.singleton separator ++ Segment.trim text
      else Segment.trim text := by
  refine ⟨fun text => ⟨Segment.refuses_parse text _, Segment.refuses_parse text _, fun filled whole => ?_⟩,
    fun _ => SourceName.ofText_source_iff, fun _ _ => SourceName.filled_of_ofParts, ClassName.ofText_text_iff,
    fun _ _ => ClassName.text_of_ofText, fun _ _ => SourceName.source_of_ofText⟩
  have parsed := Segment.parse_eq_runs filled whole
  have read : SourceName.ofText text = .ok ⟨_, text.toList.head? == some separator⟩ :=
    SourceName.ofText_eq_ok_iff.mpr ⟨parsed, rfl⟩
  exact ⟨⟨_, read, rfl, beq_iff_eq⟩, ClassName.exists_of_parse parsed⟩

theorem names_and_texts_agree_slack :
    ∃ name, SourceName.ofText "\\\\App\\User\\" = .ok name ∧ name.parts = ["App", "User"] ∧
      name.absolute = true ∧ name.source = "\\App\\User" ∧ SourceName.ofText name.source = .ok name := by
  obtain ⟨reading, again, _, _, _, writing⟩ := names_and_texts_agree
  have filled : ¬Segment.OnlySeparators "\\\\App\\User\\" := by
    intro only
    exact absurd (only 'A' (by decide +kernel)) (by decide)
  have whole : ¬Segment.HasGap "\\\\App\\User\\" := by
    rw [Segment.HasGap]
    decide +kernel
  obtain ⟨name, read, parts, absolute⟩ := ((reading "\\\\App\\User\\").2.2 filled whole).1
  have runs : (Segment.runs "\\\\App\\User\\".toList).map String.ofList = ["App", "User"] := by decide +kernel
  rw [runs] at parts
  refine ⟨name, read, parts, absolute.mpr (by decide +kernel), (writing _ name read).trans (by decide +kernel), ?_⟩
  apply (again name (by simp [parts]) (by simp [parts])).mpr
  rw [parts]
  decide +kernel

end ClassForge
