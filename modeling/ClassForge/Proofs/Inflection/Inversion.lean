import ClassForge.Inflection.Inflector
import ClassForge.Proofs.Name.Segments

/-! # When inflection can be undone

The segments of a generated name are those of the namespace, the marker, those of the user's name and
the fingerprint. The user's name comes back from it unless the marker stands behind that first marker
once more, as a segment of the user's name or as the fingerprint. Only a name whose last marker is its
last segment or the one before it has a user's name that holds the marker.
-/

namespace ClassForge

namespace Options

private theorem digitChar_ne_separator {n : Nat} (small : n < 16) : Nat.digitChar n ≠ separator := by
  have table : ∀ d : Fin 16, Nat.digitChar d ≠ separator := by decide
  exact table ⟨n, small⟩

private theorem separator_notMem_hex (bytes : List UInt8) : separator ∉ Sha256.hex bytes := by
  intro member
  obtain ⟨byte, _, digit⟩ := List.mem_flatMap.mp member
  have small := byte.toNat_lt
  simp only [List.mem_cons, List.not_mem_nil, or_false] at digit
  rcases digit with high | low
  · exact digitChar_ne_separator (by omega) high.symm
  · exact digitChar_ne_separator (by omega) low.symm

theorem toList_fingerprint (options : Options) :
    options.fingerprint.toList =
      fingerprintStart.toList ++ (Sha256.hex (Sha256.digest options.canonical)).take 32 := by
  rw [fingerprint, String.toList_append, String.toList_ofList]

theorem separator_notMem_fingerprint (options : Options) : separator ∉ options.fingerprint.toList := by
  rw [toList_fingerprint, List.mem_append]
  rintro (start | digits)
  · exact absurd start (by decide)
  · exact separator_notMem_hex _ (List.mem_of_mem_take digits)

theorem fingerprint_ne_nil (options : Options) : options.fingerprint.toList ≠ [] := by
  rw [toList_fingerprint]
  exact List.append_ne_nil_of_left_ne_nil (by decide) _

end Options

namespace Inflector

theorem afterMarker_eq_none_iff {marker : String} {segments : List String} :
    afterMarker marker segments = none ↔ marker ∉ segments := by
  induction segments with
  | nil => simp [afterMarker]
  | cons segment rest ih =>
    rw [afterMarker, List.mem_cons, not_or, ← ih]
    cases afterMarker marker rest with
    | some found => simp
    | none => simp [eq_comm]

/-- What stands behind the last marker. -/
theorem afterMarker_eq_some_iff {marker : String} {segments rest : List String} :
    afterMarker marker segments = some rest ↔
      ∃ front, segments = front ++ marker :: rest ∧ marker ∉ rest := by
  induction segments with
  | nil => simp [afterMarker]
  | cons segment tail ih =>
    rw [afterMarker]
    constructor
    · intro found
      cases later : afterMarker marker tail with
      | some other =>
        rw [later] at found ih
        obtain ⟨front, parts, last⟩ := ih.mp found
        exact ⟨segment :: front, by rw [parts, List.cons_append], last⟩
      | none =>
        simp only [later] at found
        split at found
        · rename_i same
          obtain rfl := Option.some.inj found
          exact ⟨[], by rw [same, List.nil_append], afterMarker_eq_none_iff.mp later⟩
        · contradiction
    · rintro ⟨front, parts, last⟩
      cases front with
      | nil =>
        obtain ⟨rfl, rfl⟩ := List.cons.inj parts
        rw [afterMarker_eq_none_iff.mpr last]
        exact if_pos rfl
      | cons other front =>
        rw [ih.mpr ⟨front, (List.cons.inj parts).2, last⟩]

variable {inflector : Inflector}

theorem userName_of_notMem {name : String} (plain : inflector.marker.text ∉ segmentsOf name) :
    inflector.userName name = name := by
  rw [userName, afterMarker_eq_none_iff.mpr plain]

theorem userName_of_last_marker {name : String} {front rest : List String}
    (parts : segmentsOf name = front ++ inflector.marker.text :: rest)
    (last : inflector.marker.text ∉ rest) :
    inflector.userName name = if rest.length < 2 then name else Segment.join rest.dropLast := by
  rw [userName, afterMarker_eq_some_iff.mpr ⟨front, parts, last⟩]

/-- The segments between a marker and the last segment come back when they are joined. -/
private theorem split_between {name : String} {front rest : List String}
    (parts : segmentsOf name = front ++ inflector.marker.text :: rest) (long : 2 ≤ rest.length) :
    Segment.split (Segment.join rest.dropLast) = rest.dropLast := by
  apply Segment.split_join_of_separator_notMem
  · apply List.ne_nil_of_length_pos
    rw [List.length_dropLast]
    omega
  · intro segment member
    have later := List.mem_cons_of_mem inflector.marker.text (List.dropLast_subset _ member)
    have inside : segment ∈ segmentsOf name := parts ▸ List.mem_append_right front later
    exact Segment.separator_notMem_of_mem_split inside

/-- The user's name brings no segment of its own. -/
theorem mem_segmentsOf_of_mem_user {name segment : String} (member : segment ∈ segmentsOf (inflector.userName name)) :
    segment ∈ segmentsOf name := by
  cases found : afterMarker inflector.marker.text (segmentsOf name) with
  | none => rwa [userName_of_notMem (afterMarker_eq_none_iff.mp found)] at member
  | some rest =>
    obtain ⟨front, parts, last⟩ := afterMarker_eq_some_iff.mp found
    rw [userName_of_last_marker parts last] at member
    split at member
    · exact member
    · have inside := Segment.mem_split_of_mem_split_trim member
      rw [split_between parts (by omega)] at inside
      rw [parts]
      exact List.mem_append_right _ (List.mem_cons_of_mem _ (List.dropLast_subset _ inside))

/-- The segments in front of the marker of a generated name. -/
def spaceSegments (inflector : Inflector) : List String :=
  if inflector.space = "" then [] else Segment.split inflector.space

private theorem split_marker (marker : Marker) : Segment.split marker.text = [marker.text] :=
  Segment.split_of_separator_notMem (Identifier.separator_notMem marker.isValid)

theorem trimmed_generatedName (trimmed : Segment.Trimmed inflector.space) (name : String)
    (options : Options) : Segment.Trimmed (inflector.generatedName name options) := by
  have stop : options.fingerprint.toList ≠ [] ∧ options.fingerprint.toList.getLast? ≠ some separator :=
    ⟨options.fingerprint_ne_nil,
      fun last => options.separator_notMem_fingerprint (List.mem_of_getLast? last)⟩
  rw [generatedName]
  split
  · exact Segment.trimmed_join [_] ⟨Identifier.ne_nil inflector.marker.isValid,
      fun first => Identifier.separator_notMem inflector.marker.isValid (List.mem_of_head? first)⟩ stop
  · rename_i named
    exact Segment.trimmed_join [_, _] ⟨by simpa using named, trimmed.1⟩ stop

theorem segmentsOf_generatedName (trimmed : Segment.Trimmed inflector.space) (name : String)
    (options : Options) :
    segmentsOf (inflector.generatedName name options) =
      inflector.spaceSegments ++ inflector.marker.text ::
        (Segment.split (Segment.trim (inflector.userName name)) ++ [options.fingerprint]) := by
  rw [segmentsOf, Segment.trim_of_trimmed (trimmed_generatedName trimmed name options), generatedName,
    Segment.split_join (by split <;> exact List.cons_ne_nil _ _), spaceSegments]
  have fingerprint := Segment.split_of_separator_notMem options.separator_notMem_fingerprint
  split <;> simp [split_marker, fingerprint]

theorem isGenerated_generatedName (trimmed : Segment.Trimmed inflector.space) (name : String) (options : Options) :
    inflector.isGenerated (inflector.generatedName name options) = true := by
  rw [isGenerated, segmentsOf_generatedName trimmed]
  simp

/-- No user's name is as long as the name that is generated for it. -/
private theorem generatedName_ne_user (trimmed : Segment.Trimmed inflector.space) (name : String)
    (options : Options) :
    inflector.generatedName name options ≠ Segment.trim (inflector.userName name) := by
  intro same
  have segments := segmentsOf_generatedName trimmed name options
  rw [segmentsOf, Segment.trim_of_trimmed (trimmed_generatedName trimmed name options), same] at segments
  have lengths := congrArg List.length segments
  simp only [List.length_append, List.length_cons, List.length_nil] at lengths
  omega

/-- A fingerprint that is the marker is the last segment, so the generated name stays as it is. -/
private theorem userName_of_marker_fingerprint (trimmed : Segment.Trimmed inflector.space) (name : String)
    {options : Options} (marked : options.fingerprint = inflector.marker.text) :
    inflector.userName (inflector.generatedName name options) = inflector.generatedName name options := by
  have segments := segmentsOf_generatedName trimmed name options
  rw [marked, ← List.cons_append, ← List.append_assoc] at segments
  rw [userName_of_last_marker segments List.not_mem_nil]
  exact if_pos (by simp)

/-- What stands behind the last marker does not hold the marker, so it is no name that does. -/
private theorem userName_of_marker_inside (trimmed : Segment.Trimmed inflector.space) (name : String)
    {options : Options} (plain : options.fingerprint ≠ inflector.marker.text)
    (inside : inflector.marker.text ∈ Segment.split (Segment.trim (inflector.userName name))) :
    inflector.userName (inflector.generatedName name options) ≠
      Segment.trim (inflector.userName name) := by
  have segments := segmentsOf_generatedName trimmed name options
  have longer := generatedName_ne_user trimmed name options
  generalize Segment.trim (inflector.userName name) = user at *
  obtain ⟨rest, found⟩ := Option.ne_none_iff_exists'.mp
    fun none => afterMarker_eq_none_iff.mp none inside
  obtain ⟨front, parts, last⟩ := afterMarker_eq_some_iff.mp found
  have whole : segmentsOf (inflector.generatedName name options) =
      (inflector.spaceSegments ++ inflector.marker.text :: front) ++
        inflector.marker.text :: (rest ++ [options.fingerprint]) := by
    rw [segments, parts]
    simp
  rw [userName_of_last_marker whole (by simp [last, Ne.symm plain])]
  split
  · exact longer
  · rename_i long
    rw [List.dropLast_concat]
    intro same
    have nonempty : rest ≠ [] := by
      rintro rfl
      exact long (by simp)
    have free : ∀ segment ∈ rest, separator ∉ segment.toList := by
      intro segment member
      have inside : segment ∈ Segment.split user :=
        parts ▸ List.mem_append_right front (List.mem_cons_of_mem _ member)
      exact Segment.separator_notMem_of_mem_split inside
    have pieces := Segment.split_join_of_separator_notMem nonempty free
    rw [same] at pieces
    exact last (pieces ▸ inside)

/-- With no further marker behind the first one, the user's name comes back. -/
theorem userName_generatedName (trimmed : Segment.Trimmed inflector.space) (name : String)
    {options : Options}
    (outside : inflector.marker.text ∉ Segment.split (Segment.trim (inflector.userName name)))
    (plain : options.fingerprint ≠ inflector.marker.text) :
    inflector.userName (inflector.generatedName name options) =
      Segment.trim (inflector.userName name) := by
  have segments := segmentsOf_generatedName trimmed name options
  generalize Segment.trim (inflector.userName name) = user at *
  have last : inflector.marker.text ∉ Segment.split user ++ [options.fingerprint] := by
    simp [outside, Ne.symm plain]
  have nonempty := List.length_pos_iff.mpr (Segment.split_ne_nil user)
  have long : ¬(Segment.split user ++ [options.fingerprint]).length < 2 := by
    rw [List.length_append, List.length_singleton]
    omega
  rw [userName_of_last_marker segments last, if_neg long, List.dropLast_concat, Segment.join_split]

/-- The user's name comes back exactly if no further marker stands behind the first one. -/
theorem userName_generatedName_iff (trimmed : Segment.Trimmed inflector.space) (name : String)
    (options : Options) :
    inflector.userName (inflector.generatedName name options) =
        Segment.trim (inflector.userName name) ↔
      inflector.marker.text ∉ Segment.split (Segment.trim (inflector.userName name)) ∧
        options.fingerprint ≠ inflector.marker.text := by
  constructor
  · intro recovered
    have plain : options.fingerprint ≠ inflector.marker.text := by
      intro marked
      rw [userName_of_marker_fingerprint trimmed name marked] at recovered
      exact generatedName_ne_user trimmed name options recovered
    exact ⟨fun inside => userName_of_marker_inside trimmed name plain inside recovered, plain⟩
  · rintro ⟨outside, plain⟩
    exact userName_generatedName trimmed name outside plain

/-- The user's name holds the marker exactly if nothing but one segment stands behind the last marker. -/
theorem marker_mem_user_iff (name : String) :
    inflector.marker.text ∈ Segment.split (Segment.trim (inflector.userName name)) ↔
      ∃ front rest, segmentsOf name = front ++ inflector.marker.text :: rest ∧
        inflector.marker.text ∉ rest ∧ rest.length ≤ 1 := by
  cases found : afterMarker inflector.marker.text (segmentsOf name) with
  | none =>
    have plain := afterMarker_eq_none_iff.mp found
    rw [userName_of_notMem plain]
    refine ⟨fun inside => absurd inside plain, ?_⟩
    rintro ⟨front, rest, parts, _, _⟩
    exact absurd (parts ▸ List.mem_append_right _ List.mem_cons_self) plain
  | some rest =>
    obtain ⟨front, parts, last⟩ := afterMarker_eq_some_iff.mp found
    rw [userName_of_last_marker parts last]
    split
    · rename_i short
      refine ⟨fun _ => ⟨front, rest, parts, last, by omega⟩, fun _ => ?_⟩
      change inflector.marker.text ∈ segmentsOf name
      rw [parts]
      exact List.mem_append_right _ List.mem_cons_self
    · rename_i long
      constructor
      · intro inside
        have pieces := split_between parts (by omega)
        have member := Segment.mem_split_of_mem_split_trim inside
        rw [pieces] at member
        exact absurd (List.dropLast_subset _ member) last
      · rintro ⟨other, rest', parts', last', short⟩
        have again := afterMarker_eq_some_iff.mpr ⟨other, parts', last'⟩
        rw [found] at again
        obtain rfl := Option.some.inj again
        omega

/-- The exact inversion law. Behind its first marker, a generated name holds the trimmed user's name and
the fingerprint: the user's name comes back exactly if neither holds the marker, and then inflecting
again only exchanges the options. The user's name holds the marker exactly if the last marker of the
given name is its last segment or the one before it. -/
theorem generatedName_inversion (space : String) (marker : Marker) (name : String) (o₁ o₂ : Options) :
    let inflector := Inflector.make space marker
    let user := Segment.trim (inflector.userName name)
    let generated := inflector.generatedName name o₁
    (inflector.userName generated = user ↔
        marker.text ∉ Segment.split user ∧ o₁.fingerprint ≠ marker.text) ∧
      (marker.text ∉ Segment.split user ∧ o₁.fingerprint ≠ marker.text →
        inflector.generatedName generated o₂ = inflector.generatedName name o₂) ∧
      (marker.text ∈ Segment.split user ↔
        ∃ front rest, segmentsOf name = front ++ marker.text :: rest ∧ marker.text ∉ rest ∧
          rest.length ≤ 1) := by
  intro inflector user generated
  have trimmed : Segment.Trimmed inflector.space := Segment.trimmed_trim space
  refine ⟨userName_generatedName_iff trimmed name o₁, fun plain => ?_, marker_mem_user_iff name⟩
  have recovered := (userName_generatedName_iff trimmed name o₁).mpr plain
  rw [Inflector.generatedName, recovered, Segment.trim_trim]
  rfl

theorem generatedName_inversion_repeated :
    let inflector := Inflector.make "\\Gen\\" Marker.standard
    let generated := inflector.generatedName "\\Gen\\__PM__\\App\\User\\Old" [("lazy", .bool true)]
    inflector.userName generated = "App\\User" ∧
      inflector.generatedName generated [] = inflector.generatedName "\\Gen\\__PM__\\App\\User\\Old" [] := by
  intro inflector generated
  obtain ⟨recovery, repetition, _⟩ := generatedName_inversion "\\Gen\\" Marker.standard
    "\\Gen\\__PM__\\App\\User\\Old" [("lazy", .bool true)] []
  have user : Segment.trim (inflector.userName "\\Gen\\__PM__\\App\\User\\Old") = "App\\User" := by
    decide +kernel
  have free : Marker.standard.text ∉ Segment.split
      (Segment.trim (inflector.userName "\\Gen\\__PM__\\App\\User\\Old")) := by
    rw [user]
    decide +kernel
  have distinct : Options.fingerprint [("lazy", .bool true)] ≠ Marker.standard.text := by
    intro same
    have starts := congrArg String.toList same
    rw [Options.toList_fingerprint] at starts
    exact absurd (List.cons.inj starts).1 (by decide)
  exact ⟨(recovery.mpr ⟨free, distinct⟩).trans user, repetition ⟨free, distinct⟩⟩

end Inflector

end ClassForge
