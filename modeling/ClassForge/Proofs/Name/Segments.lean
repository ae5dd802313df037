import ClassForge.Inflection.Marker
import ClassForge.Name.Segment

/-! # Laws of splitting, joining and trimming

Splitting a text and joining its pieces gives the text back; splitting what was joined gives the pieces
of all parts in order. Trimming removes separators at the ends only, so it adds no segment and keeps
every segment that is not empty. Identifiers are segments that trimming and splitting leave alone.
-/

namespace ClassForge

namespace Segment

@[simp] theorem toList_join (segments : List String) :
    (join segments).toList = List.intercalate [separator] (segments.map String.toList) :=
  String.toList_ofList

theorem join_split (text : String) : join (split text) = text := by
  apply String.toList_injective
  rw [toList_join, split, List.map_map,
    show String.toList ∘ String.ofList = id from funext fun _ => String.toList_ofList, List.map_id,
    List.intercalate_splitOn]

theorem split_ne_nil (text : String) : split text ≠ [] := by
  simp [split]

theorem split_of_separator_notMem {text : String} (free : separator ∉ text.toList) :
    split text = [text] := by
  rw [split, List.splitOn_eq_singleton free, List.map_singleton, String.ofList_toList]

private theorem toList_join_cons_cons (first second : String) (rest : List String) :
    (join (first :: second :: rest)).toList =
      first.toList ++ separator :: (join (second :: rest)).toList := by
  simp [List.intercalate_cons_cons]

theorem join_concat {segments : List String} (nonempty : segments ≠ []) (last : String) :
    join (segments ++ [last]) = join segments ++ String.singleton separator ++ last := by
  apply String.toList_injective
  induction segments with
  | nil => contradiction
  | cons first rest ih =>
    cases rest with
    | nil => simp [List.intercalate_cons_cons]
    | cons second rest =>
      have tail := ih (List.cons_ne_nil _ _)
      rw [List.cons_append, List.cons_append, toList_join_cons_cons, ← List.cons_append, tail]
      simp [List.intercalate_cons_cons]

/-- Joining keeps all pieces of its parts, in order. -/
theorem split_join {segments : List String} (nonempty : segments ≠ []) :
    split (join segments) = segments.flatMap split := by
  induction segments with
  | nil => contradiction
  | cons first rest ih =>
    cases rest with
    | nil => simp [join]
    | cons second rest =>
      rw [List.flatMap_cons, ← ih (List.cons_ne_nil _ _), split, toList_join_cons_cons,
        List.splitOn_append_cons_self, List.map_append]
      rfl

/-- No piece of a split list holds what it was split at. -/
theorem notMem_of_mem_splitOn {mark : Char} {chars piece : List Char} (inside : piece ∈ chars.splitOn mark) :
    mark ∉ piece := by
  induction chars generalizing piece with
  | nil =>
    rw [List.splitOn_nil, List.mem_singleton] at inside
    simp [inside]
  | cons c chars ih =>
    rw [List.splitOn_cons_eq_if_modifyHead] at inside
    split at inside
    · rcases List.mem_cons.mp inside with rfl | inside
      · exact List.not_mem_nil
      · exact ih inside
    · rename_i different
      obtain ⟨head, tail, pieces⟩ := List.exists_cons_of_ne_nil (List.splitOn_ne_nil mark chars)
      rw [pieces, List.modifyHead_cons] at inside
      rw [pieces] at ih
      rcases List.mem_cons.mp inside with rfl | inside
      · have := ih List.mem_cons_self
        simp only [beq_iff_eq] at different
        simp [this, Ne.symm different]
      · exact ih (List.mem_cons_of_mem _ inside)

theorem separator_notMem_of_mem_split {text segment : String} (member : segment ∈ split text) :
    separator ∉ segment.toList := by
  obtain ⟨piece, inside, rfl⟩ := List.mem_map.mp member
  rw [String.toList_ofList]
  exact notMem_of_mem_splitOn inside

/-- Segments without separators, joined, split into the same segments. -/
theorem split_join_of_separator_notMem {segments : List String} (nonempty : segments ≠ [])
    (free : ∀ segment ∈ segments, separator ∉ segment.toList) : split (join segments) = segments := by
  rw [split_join nonempty]
  clear nonempty
  induction segments with
  | nil => rfl
  | cons first rest ih =>
    rw [List.flatMap_cons, split_of_separator_notMem (free first List.mem_cons_self),
      ih fun segment member => free segment (List.mem_cons_of_mem _ member)]
    rfl

/-- A text that neither starts nor ends with a separator. -/
def Trimmed (text : String) : Prop :=
  text.toList.head? ≠ some separator ∧ text.toList.getLast? ≠ some separator

theorem exists_trimFront (chars : List Char) :
    ∃ count, chars = List.replicate count separator ++ trimFront chars := by
  refine ⟨(chars.takeWhile (· == separator)).length, ?_⟩
  have separators := List.eq_replicate_of_mem (a := separator) (l := chars.takeWhile (· == separator))
    fun c member => eq_of_beq (List.all_eq_true.mp List.all_takeWhile c member)
  rw [← separators]
  exact List.takeWhile_append_dropWhile.symm

theorem head?_trimFront (chars : List Char) : (trimFront chars).head? ≠ some separator := by
  intro first
  have other := List.head?_dropWhile_not (· == separator) chars
  rw [trimFront] at first
  simp [first] at other

private theorem exists_trimBack (chars : List Char) :
    ∃ count, trimFront chars = trimChars chars ++ List.replicate count separator := by
  obtain ⟨count, parts⟩ := exists_trimFront (trimFront chars).reverse
  refine ⟨count, ?_⟩
  have reversed := congrArg List.reverse parts
  rwa [List.reverse_reverse, List.reverse_append, List.reverse_replicate] at reversed

/-- A text is what is left of it by trimming, with separators around. -/
theorem exists_trim (text : String) : ∃ before after, text.toList =
    List.replicate before separator ++ ((trim text).toList ++ List.replicate after separator) := by
  obtain ⟨before, front⟩ := exists_trimFront text.toList
  obtain ⟨after, back⟩ := exists_trimBack text.toList
  exact ⟨before, after, by rw [trim, String.toList_ofList, ← back, ← front]⟩

theorem trimmed_trim (text : String) : Trimmed (trim text) := by
  rw [Trimmed, trim, String.toList_ofList]
  constructor
  · obtain ⟨count, back⟩ := exists_trimBack text.toList
    have first := head?_trimFront text.toList
    cases inner : trimChars text.toList with
    | nil => simp
    | cons c rest =>
      rw [back, inner] at first
      simpa using first
  · rw [trimChars, List.getLast?_reverse]
    exact head?_trimFront _

theorem trimFront_of_head? {chars : List Char} (first : chars.head? ≠ some separator) : trimFront chars = chars := by
  cases chars with
  | nil => rfl
  | cons c rest =>
    have other : (c == separator) = false := beq_eq_false_iff_ne.mpr (by simpa using first)
    rw [trimFront, List.dropWhile_cons_of_neg (by simp [other])]

theorem trim_of_trimmed {text : String} (trimmed : Trimmed text) : trim text = text := by
  apply String.toList_injective
  rw [trim, String.toList_ofList, trimChars, trimFront_of_head? trimmed.1,
    trimFront_of_head? (by rw [List.head?_reverse]; exact trimmed.2), List.reverse_reverse]

theorem trim_trim (text : String) : trim (trim text) = trim text :=
  trim_of_trimmed (trimmed_trim text)

theorem split_append_separator (front back : List Char) :
    split (String.ofList (front ++ separator :: back)) =
      split (String.ofList front) ++ split (String.ofList back) := by
  simp only [split, String.toList_ofList]
  rw [List.splitOn_append_cons_self, List.map_append]

/-- Trimming adds no segment. -/
theorem mem_split_of_mem_split_trim {text segment : String} (member : segment ∈ split (trim text)) :
    segment ∈ split text := by
  obtain ⟨before, after, parts⟩ := exists_trim text
  have front : ∀ (count : Nat) (chars : List Char), segment ∈ split (String.ofList chars) →
      segment ∈ split (String.ofList (List.replicate count separator ++ chars)) := by
    intro count chars inside
    induction count with
    | zero => exact inside
    | succ count ih =>
      rw [List.replicate_succ, List.cons_append, ← List.nil_append (separator :: _),
        split_append_separator]
      exact List.mem_append_right _ ih
  have back : ∀ (count : Nat) (chars : List Char), segment ∈ split (String.ofList chars) →
      segment ∈ split (String.ofList (chars ++ List.replicate count separator)) := by
    intro count chars inside
    cases count with
    | zero => rwa [List.replicate_zero, List.append_nil]
    | succ count =>
      rw [List.replicate_succ, split_append_separator]
      exact List.mem_append_left _ inside
  rw [← String.ofList_toList (s := text), parts]
  exact front before _ (back after _ (by rwa [String.ofList_toList]))

/-- A joined text starts as its first part does and ends as its last one, if these are not empty. -/
theorem trimmed_join {first last : String} (between : List String)
    (start : first.toList ≠ [] ∧ first.toList.head? ≠ some separator)
    (stop : last.toList ≠ [] ∧ last.toList.getLast? ≠ some separator) :
    Trimmed (join (first :: (between ++ [last]))) := by
  have ends : ∀ segments : List String,
      (join (segments ++ [last])).toList.getLast? = last.toList.getLast? := by
    intro segments
    induction segments with
    | nil => simp
    | cons segment rest ih =>
      obtain ⟨next, tail, shape⟩ := List.exists_cons_of_ne_nil (l := rest ++ [last]) (by simp)
      rw [List.cons_append, shape, toList_join_cons_cons, List.getLast?_append, List.getLast?_cons,
        ← shape, ih]
      simp [List.getLast?_eq_some_getLast stop.1]
  constructor
  · obtain ⟨next, tail, shape⟩ := List.exists_cons_of_ne_nil (l := between ++ [last]) (by simp)
    rw [shape, toList_join_cons_cons, List.head?_append, List.head?_eq_some_head start.1, Option.some_or,
      ← List.head?_eq_some_head start.1]
    exact start.2
  · rw [← List.cons_append, ends]
    exact stop.2

/-- Joined segments that are neither empty nor hold a separator have no separator at the ends. -/
theorem trimmed_join_segments {segments : List String} (nonempty : segments ≠ [])
    (pieces : ∀ segment ∈ segments, segment.toList ≠ [] ∧ separator ∉ segment.toList) :
    Trimmed (join segments) := by
  have start : ∀ {segment : String}, segment ∈ segments → segment.toList.head? ≠ some separator :=
    fun member first => (pieces _ member).2 (List.mem_of_head? first)
  have stop : ∀ {segment : String}, segment ∈ segments → segment.toList.getLast? ≠ some separator :=
    fun member last => (pieces _ member).2 (List.mem_of_getLast? last)
  cases segments with
  | nil => contradiction
  | cons first rest =>
    rcases List.eq_nil_or_concat rest with rfl | ⟨between, last, rfl⟩
    · simpa [Trimmed] using And.intro (start List.mem_cons_self) (stop List.mem_cons_self)
    · rw [List.concat_eq_append] at *
      have ends : last ∈ first :: (between ++ [last]) := by simp
      exact trimmed_join between ⟨(pieces first List.mem_cons_self).1, start List.mem_cons_self⟩
        ⟨(pieces last ends).1, stop ends⟩

theorem mem_toList_join {segments : List String} {c : Char} (member : c ∈ (join segments).toList) :
    c = separator ∨ ∃ segment ∈ segments, c ∈ segment.toList := by
  induction segments with
  | nil => simp at member
  | cons first rest ih =>
    cases rest with
    | nil => exact .inr ⟨first, List.mem_cons_self, by simpa using member⟩
    | cons second rest =>
      rw [toList_join_cons_cons] at member
      rcases List.mem_append.mp member with member | member
      · exact .inr ⟨first, List.mem_cons_self, member⟩
      rcases List.mem_cons.mp member with same | member
      · exact .inl same
      rcases ih member with same | ⟨segment, inside, member⟩
      · exact .inl same
      · exact .inr ⟨segment, List.mem_cons_of_mem _ inside, member⟩

/-- A text is a name if it has segments and none of them is empty. -/
theorem parse_eq_ok_iff {text : String} {segments : List String} :
    parse text = .ok segments ↔
      trim text ≠ "" ∧ "" ∉ split (trim text) ∧ segments = split (trim text) := by
  simp only [parse]
  split
  · rename_i empty
    exact ⟨(nomatch ·), fun valid => absurd empty valid.1⟩
  · rename_i filled
    split
    · rename_i hollow
      exact ⟨(nomatch ·), fun valid => absurd hollow valid.2.1⟩
    · rename_i solid
      exact ⟨fun read => ⟨filled, solid, (Except.ok.inj read).symm⟩, fun valid => valid.2.2 ▸ rfl⟩

/-- A text of which no piece is empty is a name. -/
theorem parse_of_solid {text : String} (solid : "" ∉ split (trim text)) : parse text = .ok (split (trim text)) := by
  refine parse_eq_ok_iff.mpr ⟨fun empty => solid ?_, solid, rfl⟩
  rw [empty]
  exact List.mem_cons_self

theorem ne_nil_of_parse {text : String} {segments : List String} (read : parse text = .ok segments) :
    segments ≠ [] ∧ "" ∉ segments := by
  obtain ⟨_, filled, same⟩ := parse_eq_ok_iff.mp read
  rw [same]
  exact ⟨split_ne_nil _, filled⟩

end Segment

namespace Identifier

private theorem separator_not_isPart : isPart separator = false := by
  decide

theorem separator_notMem {text : String} (valid : isValid text = true) :
    separator ∉ text.toList := by
  intro member
  rw [isValid] at valid
  split at valid
  · simp_all
  · rename_i c rest chars
    simp only [Bool.and_eq_true] at valid
    rw [chars] at member
    rcases List.mem_cons.mp member with rfl | member
    · have part : isPart separator = true := by simp [isPart, valid.1.1]
      rw [separator_not_isPart] at part
      contradiction
    · have part := List.all_eq_true.mp valid.1.2 _ member
      rw [separator_not_isPart] at part
      contradiction

theorem ne_nil {text : String} (valid : isValid text = true) : text.toList ≠ [] := by
  intro empty
  rw [isValid, empty] at valid
  contradiction

end Identifier

end ClassForge
