import ClassForge.Literal.Basic
import ClassForge.Source.Token

/-! # How the scanner reads pieces of text

The scanner remembers nothing of what it has read except for the word it is in, and of the character
before that word only whether it was a colon. So a text can be scanned piece by piece: a gap ends a
word, a quoted text leaves no trace, and whatever follows is scanned as if it stood alone.
-/

namespace ClassForge

namespace Token

/-- Characters outside of words that the scanner passes over. The colon is kept apart. -/
def isGap (c : Char) : Bool :=
  !isWordChar c && c != '\'' && c != '"' && c != '\x7b' && c != ':'

/-- Characters of texts in which words and gaps alternate. -/
def isPlainChar (c : Char) : Bool :=
  isWordChar c || isGap c

private theorem isGap_of_plain {c : Char} (plain : isPlainChar c = true) (outside : ¬isWordChar c = true) :
    isGap c = true := by
  rw [isPlainChar, Bool.or_eq_true] at plain
  exact plain.resolve_left outside

private theorem scanFrom_congr {w v : Word} (letters : w.reversed = v.reversed)
    (colons : (w.before == ':') = (v.before == ':')) (mode : Mode) (chars : List Char) :
    scanFrom mode w chars = scanFrom mode v chars := by
  have tokens : ∀ {w v : Word}, w.reversed = v.reversed → (w.before == ':') = (v.before == ':') →
      w.tokens = v.tokens := by
    intro w v letters colons
    rw [Word.tokens, Word.tokens, letters, colons]
  induction chars generalizing mode w v with
  | nil => cases mode <;> exact tokens letters colons
  | cons c rest ih =>
    cases mode with
    | code =>
      rw [scanFrom, scanFrom, tokens letters colons,
        ih (w := w.push c) (v := v.push c) (congrArg (c :: ·) letters) colons]
    | quoted quote =>
      rw [scanFrom, scanFrom, ih letters colons, ih letters colons, ih letters colons]
    | escaped quote => rw [scanFrom, scanFrom, ih letters colons]

/-- Without a word, only a colon before the text matters. -/
theorem scanFrom_none {before : Char} (different : before ≠ ':') (chars : List Char) :
    scanFrom .code (Word.none before) chars = scan chars :=
  scanFrom_congr (w := Word.none before) (v := Word.none ' ') rfl (by simp [Word.none, different]) _ _

@[simp] theorem scan_nil : scan [] = [] := rfl

private theorem scanFrom_gap {gap : Char} (passed : isGap gap = true) (word : Word) (rest : List Char) :
    scanFrom .code word (gap :: rest) = word.tokens ++ scan rest := by
  simp only [isGap, Bool.and_eq_true, Bool.not_eq_true', bne_iff_ne, ne_eq] at passed
  obtain ⟨⟨⟨⟨outside, single⟩, double⟩, brace⟩, colon⟩ := passed
  rw [scanFrom, if_neg (by simp [outside]), if_neg (by simp [single, double]), if_neg brace,
    scanFrom_none colon]

theorem scan_gap {gap : Char} (passed : isGap gap = true) (rest : List Char) :
    scan (gap :: rest) = scan rest :=
  scanFrom_gap passed _ rest

theorem scan_brace (rest : List Char) : scan ('\x7b' :: rest) = brace :: scan rest := by
  rw [scan, scanFrom, if_neg (by decide), if_neg (by decide), if_pos rfl, scanFrom_none (by decide)]
  rfl

private theorem scanFrom_append_gap {text : List Char} {gap : Char}
    (plain : ∀ c ∈ text, isPlainChar c = true) (passed : isGap gap = true) (word : Word)
    (rest : List Char) :
    scanFrom .code word (text ++ gap :: rest) = scanFrom .code word text ++ scan rest := by
  induction text generalizing word with
  | nil => exact scanFrom_gap passed word rest
  | cons c text ih =>
    have tail := fun c member => plain c (List.mem_cons_of_mem _ member)
    by_cases letter : isWordChar c = true
    · rw [List.cons_append, scanFrom, scanFrom, if_pos letter, if_pos letter, ih tail]
    · have between := isGap_of_plain (plain c List.mem_cons_self) letter
      rw [List.cons_append, scanFrom_gap between, scanFrom_gap between, List.append_assoc]
      exact congrArg (word.tokens ++ ·) (ih tail _)

/-- A gap separates what is before it from what is behind. -/
theorem scan_append_gap {text : List Char} {gap : Char} (plain : ∀ c ∈ text, isPlainChar c = true)
    (passed : isGap gap = true) (rest : List Char) :
    scan (text ++ gap :: rest) = scan text ++ scan rest :=
  scanFrom_append_gap plain passed _ rest

theorem scan_word {word : String} (nonempty : word.toList ≠ [])
    (inWord : ∀ c ∈ word.toList, isWordChar c = true) : scan word.toList = [⟨word, false⟩] := by
  have letters : ∀ (letters : List Char) (begun : Word), (∀ c ∈ letters, isWordChar c = true) →
      scanFrom .code begun letters =
        Word.tokens { begun with reversed := letters.reverse ++ begun.reversed } := by
    intro letters
    induction letters with
    | nil => exact fun _ _ => rfl
    | cons c letters ih =>
      intro begun inWord
      rw [scanFrom, if_pos (inWord c List.mem_cons_self),
        ih _ fun c member => inWord c (List.mem_cons_of_mem _ member)]
      simp [Word.push]
  rw [scan, letters _ _ inWord, Word.tokens]
  simp [Word.none, nonempty]

private theorem scanFrom_escape (c : Char) (word : Word) (rest : List Char) :
    scanFrom (.quoted '\'') word (Literal.escape c ++ rest) = scanFrom (.quoted '\'') word rest := by
  rw [Literal.escape]
  split
  · rw [List.cons_append, List.cons_append, scanFrom, if_pos rfl, scanFrom]
    rfl
  · rename_i plain
    obtain ⟨backslash, single⟩ := not_or.mp plain
    rw [List.cons_append, scanFrom, if_neg backslash, if_neg single]
    rfl

/-- A quoted text ends the word before it and leaves no other trace, whatever it says. -/
theorem scanFrom_quote (word : Word) (text : String) (rest : List Char) :
    scanFrom .code word ((Literal.quote text).toList ++ rest) = word.tokens ++ scan rest := by
  have inside : ∀ (chars : List Char) (word : Word) (rest : List Char),
      scanFrom (.quoted '\'') word (chars.flatMap Literal.escape ++ rest) =
        scanFrom (.quoted '\'') word rest := by
    intro chars word rest
    induction chars with
    | nil => rfl
    | cons c chars ih => rw [List.flatMap_cons, List.append_assoc, scanFrom_escape, ih]
  rw [Literal.quote, String.toList_ofList, List.cons_append, scanFrom, if_neg (by decide),
    if_pos (.inl rfl), List.append_assoc, inside, List.cons_append, scanFrom, if_neg (by decide),
    if_pos rfl, List.nil_append, scanFrom_none (by decide)]

theorem scan_quote (text : String) (rest : List Char) :
    scan ((Literal.quote text).toList ++ rest) = scan rest :=
  scanFrom_quote _ text rest

private theorem mem_of_mem_tokens {word : Word} {token : Token} {c : Char} (member : token ∈ word.tokens)
    (inside : c ∈ token.text.toList) : c ∈ word.reversed := by
  rw [Word.tokens] at member
  split at member
  · cases member
  · obtain rfl := List.mem_singleton.mp member
    simpa using inside

private theorem mem_of_mem_scanFrom {text : List Char} {token : Token} {c : Char}
    (plain : ∀ c ∈ text, isPlainChar c = true) (word : Word) (member : token ∈ scanFrom .code word text)
    (inside : c ∈ token.text.toList) : c ∈ word.reversed ∨ c ∈ text := by
  induction text generalizing word with
  | nil => exact .inl (mem_of_mem_tokens member inside)
  | cons d text ih =>
    have tail := fun c member => plain c (List.mem_cons_of_mem _ member)
    by_cases letter : isWordChar d = true
    · rw [scanFrom, if_pos letter] at member
      rcases ih tail _ member with begun | new
      · rcases List.mem_cons.mp begun with rfl | begun
        · exact .inr List.mem_cons_self
        · exact .inl begun
      · exact .inr (List.mem_cons_of_mem _ new)
    · rw [scanFrom_gap (isGap_of_plain (plain d List.mem_cons_self) letter)] at member
      rcases List.mem_append.mp member with ended | later
      · exact .inl (mem_of_mem_tokens ended inside)
      · rcases ih tail _ later with begun | new
        · cases begun
        · exact .inr (List.mem_cons_of_mem _ new)

/-- The tokens of words and gaps are made of characters of the text. -/
theorem mem_of_mem_scan {text : List Char} {token : Token} {c : Char}
    (plain : ∀ c ∈ text, isPlainChar c = true) (member : token ∈ scan text)
    (inside : c ∈ token.text.toList) : c ∈ text :=
  (mem_of_mem_scanFrom plain _ member inside).resolve_left List.not_mem_nil

end Token

end ClassForge
