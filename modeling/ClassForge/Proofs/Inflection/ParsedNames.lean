import ClassForge.Proofs.Inflection.Generated

/-! # Inflection of names that were read

The inflector takes names apart as text. On a text that is a class name it sees the segments of that name, so it makes
no difference whether it is given the text or the text of the name. What it generates is a class name again unless the
namespace has an empty segment: the segments of the namespace, the marker and the user's name are its path, and the
fingerprint is its short name.
-/

namespace ClassForge

/-- No segment of a name that was read is empty. -/
theorem ClassName.solid_of_ofText {text : String} {name : ClassName} (read : ofText text = .ok name) :
    "" ∉ Inflector.segmentsOf text :=
  (Segment.parse_eq_ok_iff.mp (ofText_eq_ok_iff.mp read)).2.1

namespace Inflector

variable {inflector : Inflector}

theorem segmentsOf_trim (name : String) : segmentsOf (Segment.trim name) = segmentsOf name := by
  rw [segmentsOf, Segment.trim_trim, segmentsOf]

section Solid

variable {name : String} (solid : "" ∉ segmentsOf name)
include solid

/-- Trimming a name trims the user's name. -/
theorem userName_trim : inflector.userName (Segment.trim name) = Segment.trim (inflector.userName name) := by
  cases found : afterMarker inflector.marker.text (segmentsOf name) with
  | none =>
    have plain := afterMarker_eq_none_iff.mp found
    rw [userName_of_notMem plain]
    apply userName_of_notMem
    rwa [segmentsOf_trim]
  | some rest =>
    obtain ⟨front, parts, last⟩ := afterMarker_eq_some_iff.mp found
    rw [userName_of_last_marker parts last, userName_of_last_marker ((segmentsOf_trim name).trans parts) last]
    split
    · rfl
    · -- Behind the marker there are segments of the name alone, so nothing is left to trim.
      have between : rest.dropLast ⊆ segmentsOf name := by
        intro segment member
        rw [parts]
        exact List.mem_append_right _ (List.mem_cons_of_mem _ (List.dropLast_subset _ member))
      refine (Segment.trim_of_trimmed (Segment.trimmed_join_segments ?_ ?_)).symm
      · apply List.ne_nil_of_length_pos
        rw [List.length_dropLast]
        omega
      · intro segment member
        have inside := between member
        refine ⟨fun empty => solid ?_, Segment.separator_notMem_of_mem_split inside⟩
        rwa [← String.toList_eq_nil_iff.mp empty]

theorem generatedName_trim (options : Options) :
    inflector.generatedName (Segment.trim name) options = inflector.generatedName name options := by
  rw [generatedName, userName_trim solid, Segment.trim_trim]
  rfl

/-- What is generated for a name without empty segments is a name unless the namespace has one. -/
theorem solid_generatedName_iff (trimmed : Segment.Trimmed inflector.space) (options : Options) :
    "" ∉ segmentsOf (inflector.generatedName name options) ↔
      inflector.space = "" ∨ "" ∉ Segment.split inflector.space := by
  have user : "" ∉ Segment.split (Segment.trim (inflector.userName name)) :=
    fun empty => solid (mem_segmentsOf_of_mem_user empty)
  have behind : "" ∉ inflector.marker.text ::
      (Segment.split (Segment.trim (inflector.userName name)) ++ [options.fingerprint]) := by
    simp only [List.mem_cons, List.mem_append, List.not_mem_nil, or_false, not_or]
    refine ⟨fun empty => ?_, user, fun empty => ?_⟩
    · exact Identifier.ne_nil inflector.marker.isValid (String.toList_eq_nil_iff.mpr empty.symm)
    · exact options.fingerprint_ne_nil (String.toList_eq_nil_iff.mpr empty.symm)
  rw [segmentsOf_generatedName trimmed, List.mem_append, or_iff_left behind, spaceSegments]
  split
  · rename_i global
    exact iff_of_true List.not_mem_nil (.inl global)
  · rename_i named
    exact (or_iff_right named).symm

end Solid

/-- Names as text and names that were read are inflected alike. Every generated name is recognised as one, and what is
generated for a class name is a class name exactly if the namespace has no empty segment. -/
theorem inflection_of_read (space : String) (marker : Marker) (options : Options) :
    let inflector := Inflector.make space marker
    (∀ name, inflector.isGenerated (inflector.generatedName name options) = true) ∧
      (Identifier.isValid options.fingerprint = true ∧ options.fingerprint.length = 41) ∧
      ∀ text name, ClassName.ofText text = .ok name →
        inflector.isGenerated text = name.contains marker.text ∧
        inflector.generatedName text options = inflector.generatedName name.text options ∧
        inflector.userName name.text = Segment.trim (inflector.userName text) ∧
        ((∃ target, ClassName.ofText (inflector.generatedName text options) = .ok target) ↔
          inflector.space = "" ∨ "" ∉ Segment.split inflector.space) ∧
        ∀ target, ClassName.ofText (inflector.generatedName text options) = .ok target →
          ∃ user, ClassName.ofText (inflector.userName text) = .ok user ∧
            target.path = inflector.spaceSegments ++ marker.text :: user.segments ∧
            target.short = options.fingerprint := by
  intro inflector
  have trimmed : Segment.Trimmed inflector.space := Segment.trimmed_trim space
  refine ⟨fun name => isGenerated_generatedName trimmed name options,
    ⟨options.isValid_fingerprint, by rw [← String.length_toList, options.length_fingerprint]⟩, fun text name read => ?_⟩
  have solid := ClassName.solid_of_ofText read
  obtain ⟨segments, whole⟩ := ClassName.segments_of_ofText read
  rw [whole, userName_trim solid, generatedName_trim solid]
  refine ⟨?_, rfl, rfl, ?_, fun target made => ?_⟩
  · rw [isGenerated, ClassName.contains, segments]
    rfl
  · rw [← solid_generatedName_iff solid trimmed options]
    constructor
    · rintro ⟨target, made⟩
      exact ClassName.solid_of_ofText made
    · intro generated
      obtain ⟨target, made, _⟩ := ClassName.exists_of_parse (Segment.parse_of_solid generated)
      exact ⟨target, made⟩
  · have recovered : "" ∉ segmentsOf (inflector.userName text) := fun empty => solid (mem_segmentsOf_of_mem_user empty)
    obtain ⟨user, found, pieces⟩ := ClassName.exists_of_parse (Segment.parse_of_solid recovered)
    have parts := (ClassName.segments_of_ofText made).1
    rw [segmentsOf_generatedName trimmed, ← pieces, ClassName.segments, ← List.cons_append, ← List.append_assoc] at parts
    obtain ⟨path, short⟩ := List.append_inj' parts rfl
    exact ⟨user, found, path, (List.cons.inj short).1⟩

/-- A generated name with separators at its ends, whose user's name is inflected anew. -/
theorem inflection_of_read_again :
    let inflector := Inflector.make "\\Gen\\" Marker.standard
    let text := "\\Gen\\__PM__\\App\\User\\Old\\"
    ClassName.ofText text = .ok ⟨["Gen", "__PM__", "App", "User"], "Old"⟩ ∧ inflector.isGenerated text = true ∧
      ∃ target, ClassName.ofText (inflector.generatedName text []) = .ok target ∧
        target.path = ["Gen", "__PM__", "App", "User"] ∧ target.short = Options.fingerprint [] := by
  intro inflector text
  have read : ClassName.ofText text = .ok ⟨["Gen", "__PM__", "App", "User"], "Old"⟩ := by decide +kernel
  obtain ⟨_, _, alike⟩ := inflection_of_read "\\Gen\\" Marker.standard []
  obtain ⟨marked, _, _, readable, parts⟩ := alike text _ read
  obtain ⟨target, made⟩ := readable.mpr (.inr (by decide +kernel))
  obtain ⟨user, found, path, short⟩ := parts target made
  have recovered : ClassName.ofText (inflector.userName text) = .ok ⟨["App"], "User"⟩ := by decide +kernel
  obtain rfl := Except.ok.inj (found.symm.trans recovered)
  exact ⟨read, marked.trans (by decide +kernel), target, made, path, short⟩

end Inflector

end ClassForge
