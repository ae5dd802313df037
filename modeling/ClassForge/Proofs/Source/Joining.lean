import ClassForge.Proofs.Source.Phrases

/-! # Texts that are joined at gaps

Printed source is made of words, quoted texts and gaps. A relation between texts and tokens that holds
of the pieces, and of a whole whose parts are joined by a gap, holds of everything that is printed. So
what a printer prints is looked at once, for all such relations. Two of them matter: a text is quiet,
and a text spells exactly the given tokens.
-/

namespace ClassForge

namespace Token

/-- The token of a word that no colon precedes. -/
def word (text : String) : Token :=
  ⟨text, false⟩

/-- What a relation between texts and tokens needs to hold of printed source. -/
structure Joinable (R : List Char → List Token → Prop) : Prop where
  /-- Words that are not reserved, and gaps between them. -/
  words : ∀ {text : List Char}, isQuiet text = true → R text (scan text)
  quote : ∀ text : String, R (Literal.quote text).toList []
  join : ∀ {s t : List Char} {a b : List Token} {gap : Char}, isGap gap = true → R s a → R t b →
    R (s ++ gap :: t) (a ++ b)

namespace Joinable

variable {R : List Char → List Token → Prop} (joinable : Joinable R) {s t text : List Char}
  {a b tokens : List Token}
include joinable

theorem nil : R [] [] :=
  joinable.words (rfl : isQuiet [] = true)

/-- Quiet words and a gap may stand in front. -/
theorem lead (checked : isLead text = true ∧ scan text = tokens) (behind : R t b) :
    R (text ++ t) (tokens ++ b) := by
  obtain ⟨checked, rfl⟩ := checked
  simp only [isLead, Bool.and_eq_true] at checked
  rcases List.eq_nil_or_concat text with rfl | ⟨words, gap, rfl⟩
  · exact behind
  · rw [List.concat_eq_append, List.getLast?_concat, Option.all_some, List.dropLast_concat] at checked
    have plain := (Bool.and_eq_true_iff.mp checked.2).1
    rw [List.concat_eq_append, scan_append_gap (List.all_eq_true.mp plain) checked.1, scan_nil, List.append_nil,
      List.append_assoc]
    exact joinable.join checked.1 (joinable.words checked.2) behind

/-- A gap and quiet words may follow. -/
theorem tail (checked : isTail text = true ∧ scan text = tokens) (front : R s a) :
    R (s ++ text) (a ++ tokens) := by
  obtain ⟨checked, rfl⟩ := checked
  cases text with
  | nil => simpa using front
  | cons gap words =>
    simp only [isTail, Bool.and_eq_true, List.head?_cons, Option.all_some, List.tail_cons] at checked
    rw [scan_gap checked.1]
    exact joinable.join checked.1 front (joinable.words checked.2)

theorem optional (present : Bool) {word : String} (checked : isLead word.toList = true ∧ scan word.toList = tokens)
    (behind : R t b) :
    R ((if present then word else "").toList ++ t) ((if present then tokens else []) ++ b) := by
  cases present with
  | false => exact behind
  | true => exact joinable.lead checked behind

/-- A gap, and quiet words if any, may stand between. -/
theorem glue (checked : isGlue text = true ∧ scan text = tokens) (front : R s a) (behind : R t b) :
    R (s ++ text ++ t) (a ++ tokens ++ b) := by
  obtain ⟨checked, rfl⟩ := checked
  cases text with
  | nil => contradiction
  | cons gap words =>
    simp only [isGlue, Bool.and_eq_true] at checked
    rw [scan_gap checked.1, List.append_assoc, List.append_assoc]
    exact joinable.join checked.1 front (joinable.lead ⟨checked.2, rfl⟩ behind)

end Joinable

theorem joinable_quiet : Joinable fun text _ => Quiet text where
  words := quiet_of_isQuiet
  quote text := (silent_quote text).quiet
  join passed front behind := front.tail (tail_gap passed behind)

/-- Up to any gap, the scanner finds exactly these tokens. -/
def Spells (text : List Char) (tokens : List Token) : Prop :=
  ∀ gap rest, isGap gap = true → scan (text ++ gap :: rest) = tokens ++ scan rest

theorem spells_of_plain {text : List Char} (plain : ∀ c ∈ text, isPlainChar c = true) :
    Spells text (scan text) :=
  fun _ rest passed => scan_append_gap plain passed rest

/-- A name is spelled as it is, reserved or not. -/
theorem IsWord.spells {text : String} (shape : IsWord text) : Spells text.toList [word text] := by
  rw [word, ← scan_word shape.1 shape.2]
  exact spells_of_plain shape.isPlain

private theorem Spells.join {s t : List Char} {a b : List Token} {gap : Char} (passed : isGap gap = true)
    (front : Spells s a) (behind : Spells t b) : Spells (s ++ gap :: t) (a ++ b) := by
  intro other rest passed'
  rw [List.append_assoc, List.cons_append, front gap _ passed, behind other rest passed', List.append_assoc]

theorem joinable_spells : Joinable Spells where
  words checked := spells_of_plain (List.all_eq_true.mp (Bool.and_eq_true_iff.mp checked).1)
  quote text := by
    intro gap rest passed
    rw [scan_quote, scan_gap passed, List.nil_append]
  join := Spells.join

end Token

end ClassForge
