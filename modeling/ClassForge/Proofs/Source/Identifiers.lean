import ClassForge.Name.SourceName
import ClassForge.Proofs.Name.Segments
import ClassForge.Proofs.Source.Phrases

/-! # Identifiers are words

The scanner takes an identifier for one word, and so it does with identifiers that are joined to a
qualified name.
-/

namespace ClassForge

open Token

namespace Identifier

private theorem isWordChar_of_isPart {c : Char} (part : isPart c = true) : isWordChar c = true := by
  simp only [isPart, isStart, isWordChar, Char.isAlphanum, Bool.or_eq_true, beq_iff_eq,
    decide_eq_true_eq] at part ⊢
  rcases part with ((letter | underscore) | high) | digit
  · exact .inl (.inl (.inl (.inl letter)))
  · exact .inl (.inl (.inr underscore))
  · exact .inr (by omega)
  · exact .inl (.inl (.inl (.inr digit)))

/-- The characters of an identifier. -/
theorem isPart_of_mem {text : String} (valid : isValid text = true) {c : Char} (member : c ∈ text.toList) :
    isPart c = true := by
  rw [isValid] at valid
  split at valid
  · contradiction
  · rename_i first rest chars
    simp only [Bool.and_eq_true] at valid
    rw [chars] at member
    rcases List.mem_cons.mp member with rfl | member
    · simp [isPart, valid.1.1]
    · exact List.all_eq_true.mp valid.1.2 c member

theorem isWord_of_isValid {text : String} (valid : isValid text = true) : IsWord text :=
  ⟨ne_nil valid, fun _ member => isWordChar_of_isPart (isPart_of_mem valid member)⟩

section Joined

variable {segments : List String} (nonempty : segments ≠ [])
  (valid : ∀ segment ∈ segments, isValid segment = true)
include nonempty valid

theorem split_join : Segment.split (Segment.join segments) = segments :=
  Segment.split_join_of_separator_notMem nonempty fun segment member => separator_notMem (valid segment member)

theorem trim_join : Segment.trim (Segment.join segments) = Segment.join segments := by
  apply Segment.trim_of_trimmed
  apply Segment.trimmed_join_segments nonempty
  intro segment member
  exact ⟨ne_nil (valid segment member), separator_notMem (valid segment member)⟩

/-- A joined text without a separator is the only segment. -/
theorem eq_singleton_of_join {text : String} (same : Segment.join segments = text) (free : separator ∉ text.toList) :
    segments = [text] := by
  rw [← split_join nonempty valid, same, Segment.split_of_separator_notMem free]

theorem isWord_join : IsWord (Segment.join segments) := by
  constructor
  · intro empty
    have single := eq_singleton_of_join nonempty valid rfl (by simp [empty])
    have named := ne_nil (valid _ (single ▸ List.mem_singleton_self _))
    exact named empty
  · intro c member
    rcases Segment.mem_toList_join member with rfl | ⟨segment, inside, member⟩
    · decide
    · exact (isWord_of_isValid (valid segment inside)).2 c member

end Joined

end Identifier

namespace SourceName

variable {name : SourceName}

theorem isWord_source (nonempty : name.parts ≠ []) (valid : ∀ part ∈ name.parts, Identifier.isValid part = true) :
    IsWord name.source := by
  have shape : IsWord name.text := Identifier.isWord_join nonempty valid
  rw [source]
  split
  · refine ⟨by simp, fun c member => ?_⟩
    rcases List.mem_cons.mp (by simpa using member) with rfl | member
    · decide
    · exact shape.2 c member
  · exact shape

/-- No reserved word has a separator. -/
theorem source_notMem_reserved_of_absolute (absolute : name.absolute = true) : name.source ∉ reserved := by
  intro member
  have free : ∀ word ∈ reserved, separator ∉ word.toList := by decide
  apply free _ member
  rw [source, if_pos absolute]
  simp

end SourceName

end ClassForge
