import ClassForge.Proofs.Inflection.Generated
import ClassForge.Proofs.Literal.UniqueDecoding

/-! # When generated names are the same

All fingerprints are equally long, so a generated name shows where the user's name ends and the fingerprint begins,
whatever segments the user's name has. Different options can therefore share a name only where the digests of their
canonical bytes agree in what the fingerprint shows of them.
-/

namespace ClassForge

theorem Options.fingerprint_eq_iff {o₁ o₂ : Options} :
    o₁.fingerprint = o₂.fingerprint ↔
      (Sha256.hex (Sha256.digest o₁.canonical)).take 32 = (Sha256.hex (Sha256.digest o₂.canonical)).take 32 := by
  rw [← String.toList_inj, toList_fingerprint, toList_fingerprint, List.append_cancel_left_eq]

/-- Texts of which the last parts are equally long. -/
private theorem append_inj_of_length {front front' back back' : String}
    (lengths : back.toList.length = back'.toList.length) (same : front ++ back = front' ++ back') :
    front = front' ∧ back = back' := by
  have chars := congrArg String.toList same
  rw [String.toList_append, String.toList_append] at chars
  obtain ⟨early, late⟩ := List.append_inj' chars lengths
  exact ⟨String.toList_injective early, String.toList_injective late⟩

namespace Inflector

/-- What stands in front of the user's name. -/
def lead (inflector : Inflector) : List String :=
  if inflector.space = "" then [inflector.marker.text] else [inflector.space, inflector.marker.text]

theorem lead_ne_nil (inflector : Inflector) : inflector.lead ≠ [] := by
  rw [lead]
  split <;> exact List.cons_ne_nil _ _

theorem generatedName_eq (inflector : Inflector) (name : String) (options : Options) :
    inflector.generatedName name options =
      Segment.join inflector.lead ++ String.singleton separator ++ Segment.trim (inflector.userName name) ++
        String.singleton separator ++ options.fingerprint := by
  have parts : inflector.generatedName name options =
      Segment.join ((inflector.lead ++ [Segment.trim (inflector.userName name)]) ++ [options.fingerprint]) := by
    rw [generatedName, lead]
    split <;> rfl
  rw [parts, Segment.join_concat (List.concat_ne_nil _ _), Segment.join_concat inflector.lead_ne_nil]

/-- Two generated names are the same exactly if the user's names are, outer separators dropped, and the fingerprints.
Then different options have different canonical bytes, whose digests start with the same 32 digits. -/
theorem generatedName_collision (inflector : Inflector) (name other : String) (o₁ o₂ : Options) :
    (inflector.generatedName name o₁ = inflector.generatedName other o₂ ↔
        Segment.trim (inflector.userName name) = Segment.trim (inflector.userName other) ∧
          o₁.fingerprint = o₂.fingerprint) ∧
      (inflector.generatedName name o₁ = inflector.generatedName other o₂ → o₁ ≠ o₂ →
        o₁.canonical ≠ o₂.canonical ∧
          (Sha256.hex (Sha256.digest o₁.canonical)).take 32 = (Sha256.hex (Sha256.digest o₂.canonical)).take 32) := by
  have shared : inflector.generatedName name o₁ = inflector.generatedName other o₂ ↔
      Segment.trim (inflector.userName name) = Segment.trim (inflector.userName other) ∧
        o₁.fingerprint = o₂.fingerprint := by
    constructor
    · intro same
      rw [generatedName_eq, generatedName_eq] at same
      have lengths : o₁.fingerprint.toList.length = o₂.fingerprint.toList.length := by
        rw [Options.length_fingerprint, Options.length_fingerprint]
      obtain ⟨front, fingerprint⟩ := append_inj_of_length lengths same
      rw [String.append_left_inj, String.append_right_inj] at front
      exact ⟨front, fingerprint⟩
    · rintro ⟨user, fingerprint⟩
      rw [generatedName_eq, generatedName_eq, user, fingerprint]
  refine ⟨shared, fun same different => ⟨fun bytes => ?_, ?_⟩⟩
  · exact different (Options.canonical_inj.mp bytes)
  · exact Options.fingerprint_eq_iff.mp (shared.mp same).2

end Inflector

end ClassForge
