import ClassForge.Name.ClassName
import ClassForge.Output.Directory
import ClassForge.Proofs.Inflection.Inversion
import ClassForge.Proofs.Name.Grammar
import ClassForge.Proofs.Source.Identifiers

/-! # Names of generated classes

A generated name is made of identifiers if the namespace and the user's name are, for the marker and the
fingerprint always are. Its file has the same name without separators. All fingerprints are equally long,
so two generated names share a file exactly if they have the same fingerprint and the user's names differ
in nothing but separators.
-/

namespace ClassForge

/-! ## Fingerprints -/

namespace Options

private theorem isPart_digitChar {n : Nat} (small : n < 16) : Identifier.isPart (Nat.digitChar n) = true := by
  have table : ∀ digit : Fin 16, Identifier.isPart (Nat.digitChar digit) = true := by decide
  exact table ⟨n, small⟩

private theorem isPart_of_mem_hex {bytes : List UInt8} {c : Char} (member : c ∈ Sha256.hex bytes) :
    Identifier.isPart c = true := by
  obtain ⟨byte, _, digit⟩ := List.mem_flatMap.mp member
  have small := byte.toNat_lt
  simp only [List.mem_cons, List.not_mem_nil, or_false] at digit
  rcases digit with rfl | rfl
  · exact isPart_digitChar (by omega)
  · exact isPart_digitChar (by omega)

theorem isValid_fingerprint (options : Options) : Identifier.isValid options.fingerprint = true := by
  have chars := toList_fingerprint options
  have start : fingerprintStart.toList = 'G' :: "enerated".toList := rfl
  rw [start, List.cons_append] at chars
  have size : 2 ≤ options.fingerprint.utf8ByteSize := by
    rw [fingerprint, String.utf8ByteSize_append]
    exact Nat.le_trans (by decide) (Nat.le_add_right fingerprintStart.utf8ByteSize _)
  rw [Identifier.isValid, chars]
  simp only [Bool.and_eq_true, List.all_eq_true, decide_eq_true_eq]
  refine ⟨⟨by decide, fun c member => ?_⟩, size⟩
  rcases List.mem_append.mp member with member | member
  · have letters : ∀ c ∈ "enerated".toList, Identifier.isPart c = true := List.all_eq_true.mp (by decide)
    exact letters c member
  · exact isPart_of_mem_hex (List.mem_of_mem_take member)

private theorem length_hex (bytes : List UInt8) : (Sha256.hex bytes).length = 2 * bytes.length := by
  induction bytes with
  | nil => rfl
  | cons byte rest ih =>
    rw [Sha256.hex, List.flatMap_cons, List.length_append]
    change 2 + (Sha256.hex rest).length = _
    rw [ih, List.length_cons]
    omega

private theorem length_digest (message : List UInt8) : (Sha256.digest message).length = 32 := by
  simp [Sha256.digest, Sha256.State.words, Sha256.bigEndian]

theorem length_fingerprint (options : Options) : options.fingerprint.toList.length = 41 := by
  rw [toList_fingerprint, List.length_append, List.length_take, length_hex, length_digest]
  rfl

end Options

/-- The segments of a name that was read are those of the text. -/
theorem ClassName.segments_of_ofText {text : String} {name : ClassName} (read : ofText text = .ok name) :
    name.segments = Inflector.segmentsOf text ∧ name.text = Segment.trim text := by
  have parsed := Segment.parse_eq_ok_iff.mp (ofText_eq_ok_iff.mp read)
  exact ⟨parsed.2.2, text_of_ofText read⟩

namespace Inflector

variable {inflector : Inflector} {name : String}

/-- The user's name is the name itself, or segments of it. -/
theorem isValid_user (valid : ∀ segment ∈ segmentsOf name, Identifier.isValid segment = true) :
    ∀ segment ∈ Segment.split (Segment.trim (inflector.userName name)), Identifier.isValid segment = true := by
  intro segment member
  exact valid segment (mem_segmentsOf_of_mem_user member)

/-- The namespace has no separators at its ends, and is made of identifiers. -/
structure IsValid (inflector : Inflector) : Prop where
  trimmed : Segment.Trimmed inflector.space
  space : ∀ segment ∈ inflector.spaceSegments, Identifier.isValid segment = true

section Valid

variable (regular : inflector.IsValid) (valid : ∀ segment ∈ segmentsOf name, Identifier.isValid segment = true)
  (options : Options)
include regular

/-- The namespace of a generated class has the marker and the user's name in it. -/
theorem path_ne_singleton {target : ClassName}
    (read : ClassName.ofText (inflector.generatedName name options) = .ok target) (word : String) :
    target.path ≠ [word] := by
  intro single
  have segments := (ClassName.segments_of_ofText read).1
  rw [segmentsOf_generatedName regular.trimmed, ClassName.segments, single] at segments
  have lengths := congrArg List.length segments
  have filled := List.length_pos_iff.mpr (Segment.split_ne_nil (Segment.trim (inflector.userName name)))
  simp only [List.length_append, List.length_cons, List.length_nil] at lengths
  omega

theorem text_eq_generatedName {target : ClassName}
    (read : ClassName.ofText (inflector.generatedName name options) = .ok target) :
    target.text = inflector.generatedName name options := by
  rw [(ClassName.segments_of_ofText read).2]
  exact Segment.trim_of_trimmed (trimmed_generatedName regular.trimmed name options)

include valid

theorem isValid_generatedName :
    ∀ segment ∈ segmentsOf (inflector.generatedName name options), Identifier.isValid segment = true := by
  rw [segmentsOf_generatedName regular.trimmed]
  intro segment member
  rcases List.mem_append.mp member with member | member
  · exact regular.space segment member
  · rcases List.mem_cons.mp member with rfl | member
    · exact inflector.marker.isValid
    · rcases List.mem_append.mp member with member | member
      · exact isValid_user valid segment member
      · rw [List.mem_singleton.mp member]
        exact options.isValid_fingerprint

theorem slash_notMem_generatedName : '/' ∉ (inflector.generatedName name options).toList := by
  intro member
  have whole := Segment.join_split (inflector.generatedName name options)
  have trim := Segment.trim_of_trimmed (trimmed_generatedName regular.trimmed name options)
  rw [← whole] at member
  rcases Segment.mem_toList_join member with same | ⟨segment, inside, member⟩
  · exact absurd same (by decide)
  · have segments := isValid_generatedName regular valid options segment
    rw [segmentsOf, trim] at segments
    have part := Identifier.isPart_of_mem (segments inside) member
    exact absurd part (by decide)

end Valid

/-! ## Shared files -/

/-- The characters of a name that the name of its file shows. -/
private def bare (text : String) : List Char :=
  text.toList.filter (· != separator)

private theorem bare_join (segments : List String) : bare (Segment.join segments) = segments.flatMap bare := by
  induction segments with
  | nil => rfl
  | cons first rest ih =>
    cases rest with
    | nil => simp [bare, List.intercalate]
    | cons second rest =>
      simp only [bare, Segment.toList_join, List.map_cons, List.intercalate_cons_cons, List.flatMap_cons] at ih ⊢
      rw [List.filter_append, List.filter_append, ih]
      simp

private theorem bare_of_notMem {text : String} (free : separator ∉ text.toList) : bare text = text.toList := by
  rw [bare, List.filter_eq_self]
  intro c member
  rw [bne_iff_ne]
  rintro rfl
  exact free member

private theorem fileName_eq_iff {text other : String} :
    ClassDirectory.fileName text = ClassDirectory.fileName other ↔ bare text = bare other := by
  rw [ClassDirectory.fileName, ClassDirectory.fileName, String.append_left_inj, String.ofList_inj]
  rfl

/-- The namespace, the marker, the user's name and the fingerprint, without separators. -/
private theorem bare_generatedName (inflector : Inflector) (name : String) (options : Options) :
    bare (inflector.generatedName name options) =
      bare inflector.space ++ bare inflector.marker.text ++ bare (Segment.trim (inflector.userName name)) ++
        options.fingerprint.toList := by
  rw [generatedName, bare_join]
  split
  · rename_i global
    simp [global, bare_of_notMem options.separator_notMem_fingerprint, show bare "" = [] from rfl]
  · simp [bare_of_notMem options.separator_notMem_fingerprint]

/-- Two generated names share a file exactly if their fingerprints are the same and the user's names differ
in nothing but separators. -/
theorem fileName_generatedName_eq_iff {other : String} {options others : Options} :
    ClassDirectory.fileName (inflector.generatedName name options) =
        ClassDirectory.fileName (inflector.generatedName other others) ↔
      ClassDirectory.fileName (Segment.trim (inflector.userName name)) =
          ClassDirectory.fileName (Segment.trim (inflector.userName other)) ∧
        options.fingerprint = others.fingerprint := by
  have lengths : options.fingerprint.toList.length = others.fingerprint.toList.length := by
    rw [Options.length_fingerprint, Options.length_fingerprint]
  rw [fileName_eq_iff, fileName_eq_iff, bare_generatedName, bare_generatedName]
  constructor
  · intro same
    obtain ⟨front, back⟩ := List.append_inj' same lengths
    exact ⟨List.append_cancel_left front, String.toList_injective back⟩
  · rintro ⟨user, fingerprint⟩
    rw [user, fingerprint]

end Inflector

end ClassForge
