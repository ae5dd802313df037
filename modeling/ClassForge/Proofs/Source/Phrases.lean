import ClassForge.Proofs.Source.Scanning
import ClassForge.Source.Declared

/-! # What pieces of source declare

A passage is a text whose declarations do not depend on what follows, and behind which the search for
declarations goes on in a known namespace. A phrase becomes a passage when a gap follows. Passages and
phrases compose, so the declarations of a long text are found from those of its pieces. Most pieces
declare nothing: silent passages, quiet phrases, and tails that may stand behind any phrase.
-/

namespace ClassForge

namespace Token

/-- The words that the search for declarations reacts to. -/
def reserved : List String := ["class", "interface", "trait", "namespace", "new"]

theorem declaredFrom_skip {token : Token} (noSpace : token.startsSpace = false)
    (noClass : token.declares = false) (space : String) (previous : Option String) (rest : List Token) :
    declaredFrom space previous (token :: rest) = declaredFrom space (some token.text) rest := by
  cases rest with
  | nil => rfl
  | cons next rest => simp [declaredFrom, noSpace, noClass]

private theorem declaredFrom_of_notMem {token : Token} (plain : token.text ∉ reserved) (space : String)
    (previous : Option String) (rest : List Token) :
    declaredFrom space previous (token :: rest) = declaredFrom space (some token.text) rest := by
  simp only [reserved, List.mem_cons, List.not_mem_nil, or_false, not_or] at plain
  apply declaredFrom_skip
  · simp [startsSpace, plain]
  · simp [declares, plain]

/-- Read in the namespace `before`, the text declares `names` and leaves `after` as the namespace,
whatever follows. A `new` before it would not reach it, and none is left behind. -/
def Passage (before : String) (text : List Char) (names : List String) (after : String) : Prop :=
  ∀ (previous : Option String) (rest : List Char), previous ≠ some "new" →
    ∃ last, last ≠ some "new" ∧
      declaredFrom before previous (scan (text ++ rest)) = names ++ declaredFrom after last (scan rest)

/-- A text that any gap makes a passage. -/
def Phrase (before : String) (text : List Char) (names : List String) (after : String) : Prop :=
  ∀ gap, isGap gap = true → Passage before (text ++ [gap]) names after

/-- A passage that declares nothing. -/
def Silent (text : List Char) : Prop :=
  ∀ space, Passage space text [] space

/-- A phrase that declares nothing. -/
def Quiet (text : List Char) : Prop :=
  ∀ space, Phrase space text [] space

/-- A text that adds nothing to the phrase that it follows. -/
def Tail (text : List Char) : Prop :=
  ∀ {before : String} {phrase : List Char} {names : List String} {after : String},
    Phrase before phrase names after → Phrase before (phrase ++ text) names after

section Composition

variable {a b c : String} {s t : List Char} {m n : List String}

theorem Passage.append (first : Passage a s m b) (second : Passage b t n c) :
    Passage a (s ++ t) (m ++ n) c := by
  intro previous rest quiet
  obtain ⟨middle, quiet, front⟩ := first previous (t ++ rest) quiet
  obtain ⟨last, quiet, back⟩ := second middle rest quiet
  exact ⟨last, quiet, by rw [List.append_assoc, front, back, List.append_assoc]⟩

theorem Passage.phrase (first : Passage a s m b) (second : Phrase b t n c) :
    Phrase a (s ++ t) (m ++ n) c := by
  intro gap passed
  rw [List.append_assoc]
  exact first.append (second gap passed)

/-- What a passage declares is all that a text of nothing else declares. -/
theorem Passage.declaredFrom_eq (passage : Passage a s m b) :
    declaredFrom a none (scan s) = m := by
  obtain ⟨last, _, found⟩ := passage none [] (by simp)
  simpa [declaredFrom] using found

theorem silent_nil : Silent [] :=
  fun _ previous _ quiet => ⟨previous, quiet, rfl⟩

theorem silent_gap {gap : Char} (passed : isGap gap = true) : Silent [gap] :=
  fun _ previous rest quiet => ⟨previous, quiet, by
    rw [List.cons_append, scan_gap passed, List.nil_append, List.nil_append]⟩

theorem Silent.append (first : Silent s) (second : Silent t) : Silent (s ++ t) :=
  fun space => (first space).append (second space)

theorem quiet_nil : Quiet [] :=
  fun space _ passed => silent_gap passed space

theorem Silent.then (first : Silent s) (second : Phrase a t n b) : Phrase a (s ++ t) n b :=
  (first a).phrase second

theorem Silent.quiet (silent : Silent s) : Quiet s := by
  intro space
  simpa using (silent space).phrase (quiet_nil space)

theorem Silent.quietly (first : Silent s) (second : Quiet t) : Quiet (s ++ t) :=
  fun space => first.then (second space)

theorem Quiet.silent {gap : Char} (quiet : Quiet s) (passed : isGap gap = true) : Silent (s ++ [gap]) :=
  fun space => quiet space gap passed

theorem tail_nil : Tail [] := by
  intro before phrase names after shown
  rwa [List.append_nil]

theorem tail_gap {gap : Char} (passed : isGap gap = true) (quiet : Quiet t) : Tail (gap :: t) := by
  intro before phrase names after shown other passed'
  rw [show phrase ++ gap :: t ++ [other] = (phrase ++ [gap]) ++ (t ++ [other]) by simp]
  simpa using (shown gap passed).append (quiet after other passed')

theorem Phrase.tail (phrase : Phrase a s n b) (tail : Tail t) : Phrase a (s ++ t) n b :=
  tail phrase

theorem Quiet.tail (quiet : Quiet s) (tail : Tail t) : Quiet (s ++ t) :=
  fun space => tail (quiet space)

end Composition

section Plain

/-- A phrase of words that are not reserved, as can be seen from the text. -/
def isQuiet (text : List Char) : Bool :=
  text.all isPlainChar && (scan text).all fun token => !reserved.contains token.text

/-- Quiet words, and a gap behind them. -/
def isLead (text : List Char) : Bool :=
  text.getLast?.all isGap && isQuiet text.dropLast

/-- A gap, and quiet words behind it. -/
def isTail (text : List Char) : Bool :=
  text.head?.all isGap && isQuiet text.tail

/-- A gap, quiet words if any, and another gap or the same. -/
def isGlue (text : List Char) : Bool :=
  match text with
  | [] => false
  | gap :: rest => isGap gap && isLead rest

private theorem skip_all {tokens : List Token} (plain : ∀ token ∈ tokens, token.text ∉ reserved)
    (space : String) {previous : Option String} (quiet : previous ≠ some "new") (rest : List Token) :
    ∃ last, last ≠ some "new" ∧
      declaredFrom space previous (tokens ++ rest) = declaredFrom space last rest := by
  induction tokens generalizing previous with
  | nil => exact ⟨previous, quiet, rfl⟩
  | cons token tokens ih =>
    have first := plain token List.mem_cons_self
    rw [List.cons_append, declaredFrom_of_notMem first]
    refine ih (fun token member => plain token (List.mem_cons_of_mem _ member)) fun same => ?_
    rw [Option.some.inj same] at first
    exact first (by decide)

/-- Words and gaps are quiet if no word is reserved. -/
theorem quiet_of_plain {text : List Char} (plain : ∀ c ∈ text, isPlainChar c = true)
    (words : ∀ token ∈ scan text, token.text ∉ reserved) : Quiet text := by
  intro space gap passed previous rest quiet
  rw [List.append_assoc, List.singleton_append, scan_append_gap plain passed]
  exact skip_all words space quiet (scan rest)

theorem quiet_of_isQuiet {text : List Char} (checked : isQuiet text = true) : Quiet text := by
  simp only [isQuiet, Bool.and_eq_true, List.all_eq_true, Bool.not_eq_true',
    List.contains_eq_mem, decide_eq_false_iff_not] at checked
  exact quiet_of_plain checked.1 checked.2

theorem silent_of_isLead {text : List Char} (checked : isLead text = true) : Silent text := by
  simp only [isLead, Bool.and_eq_true] at checked
  cases last : text.getLast? with
  | none =>
    rw [List.getLast?_eq_none_iff.mp last]
    exact silent_nil
  | some gap =>
    obtain ⟨words, rfl⟩ := List.getLast?_eq_some_iff.mp last
    rw [last, List.dropLast_concat] at checked
    exact (quiet_of_isQuiet checked.2).silent checked.1

theorem tail_of_isTail {text : List Char} (checked : isTail text = true) : Tail text := by
  cases text with
  | nil => exact tail_nil
  | cons gap text =>
    simp only [isTail, Bool.and_eq_true, List.head?_cons, Option.all_some, List.tail_cons] at checked
    exact tail_gap checked.1 (quiet_of_isQuiet checked.2)

/-- Glue joins quiet text to the phrase before it. -/
theorem tail_glue {glue text : List Char} (checked : isGlue glue = true) (quiet : Quiet text) :
    Tail (glue ++ text) := by
  cases glue with
  | nil => contradiction
  | cons gap glue =>
    simp only [isGlue, Bool.and_eq_true] at checked
    exact tail_gap checked.1 ((silent_of_isLead checked.2).quietly quiet)

theorem Quiet.glue {s glue t : List Char} (first : Quiet s) (checked : isGlue glue = true)
    (second : Quiet t) : Quiet (s ++ glue ++ t) := by
  rw [List.append_assoc]
  exact first.tail (tail_glue checked second)

theorem silent_quote (text : String) : Silent (Literal.quote text).toList := by
  intro space previous rest quiet
  exact ⟨previous, quiet, by rw [scan_quote, List.nil_append]⟩

theorem silent_brace : Silent "\x7b".toList := by
  intro space previous rest _
  refine ⟨some "\x7b", by decide, ?_⟩
  rw [show "\x7b".toList = ['\x7b'] from rfl, List.cons_append, scan_brace,
    declaredFrom_skip (by decide) (by decide)]
  rfl

end Plain

section Words

/-- A text that the scanner takes for one word. -/
def IsWord (text : String) : Prop :=
  text.toList ≠ [] ∧ ∀ c ∈ text.toList, isWordChar c = true

variable {word : String}

theorem isWord_of_all (nonempty : word.toList ≠ []) (all : word.toList.all isWordChar = true) : IsWord word :=
  ⟨nonempty, List.all_eq_true.mp all⟩

theorem IsWord.isPlain (shape : IsWord word) : ∀ c ∈ word.toList, isPlainChar c = true := by
  intro c member
  simp [isPlainChar, shape.2 c member]

theorem IsWord.quiet (shape : IsWord word) (plain : word ∉ reserved) : Quiet word.toList := by
  apply quiet_of_plain shape.isPlain
  rw [scan_word shape.1 shape.2]
  simpa using plain

/-- Two words in a row, up to a gap. -/
private theorem scan_pair {first : String} (keyword : IsWord first) (shape : IsWord word) {gap : Char}
    (passed : isGap gap = true) (rest : List Char) :
    scan ((first ++ " ").toList ++ word.toList ++ [gap] ++ rest) =
      ⟨first, false⟩ :: ⟨word, false⟩ :: scan rest := by
  rw [String.toList_append, show " ".toList = [' '] from rfl, List.append_assoc, List.append_assoc,
    List.append_assoc, List.singleton_append, List.singleton_append,
    scan_append_gap keyword.isPlain (by decide), scan_append_gap shape.isPlain passed,
    scan_word keyword.1 keyword.2, scan_word shape.1 shape.2]
  rfl

/-- An object is made of a named class. -/
theorem IsWord.quiet_new (shape : IsWord word) (plain : word ∉ reserved) :
    Quiet ("new ".toList ++ word.toList) := by
  intro space gap passed previous rest _
  refine ⟨some word, fun same => plain (by rw [Option.some.inj same]; decide), ?_⟩
  rw [show "new " = "new" ++ " " from rfl, scan_pair (isWord_of_all (by decide) (by decide)) shape passed,
    declaredFrom_skip (by decide) (by decide), declaredFrom_of_notMem plain]
  rfl

/-- What follows a declaring word is declared, unless `new` stands before. -/
theorem declaredFrom_declares {token : Token} (declaring : token.declares = true) (space : String)
    (previous : Option String) (next : Token) (rest : List Token) :
    declaredFrom space previous (token :: next :: rest) =
      if previous = some "new" then declaredFrom space (some token.text) (next :: rest)
      else qualify space next.text :: declaredFrom space (some next.text) rest := by
  have noSpace : ¬token.startsSpace = true := by
    intro starts
    simp only [startsSpace, Bool.and_eq_true, Bool.not_eq_true', beq_iff_eq] at starts
    rw [declares, starts.1, starts.2] at declaring
    exact absurd declaring (by decide)
  rw [declaredFrom, if_neg noSpace, declaring, Bool.true_and]
  by_cases made : previous = some "new"
  · rw [if_pos made, if_neg (by simp [made])]
  · rw [if_neg made, if_pos (by simpa using made)]

/-- A word behind `namespace` is the name of the namespace, reserved or not. -/
theorem IsWord.declaredFrom_space (shape : IsWord word) (space : String) (previous : Option String)
    (rest : List Token) :
    declaredFrom space previous (⟨"namespace", false⟩ :: ⟨word, false⟩ :: rest) =
      declaredFrom (Segment.trim word) (some word) rest := by
  have named : ¬(word = "" ∨ (⟨word, false⟩ : Token) = brace) := by
    rintro (empty | opening)
    · exact shape.1 (by rw [empty]; rfl)
    · rw [(Token.mk.inj opening).1] at shape
      exact absurd (shape.2 '\x7b' (by decide)) (by decide)
  rw [declaredFrom, if_pos (by decide), if_neg named]

/-- A class is declared in the current namespace. -/
theorem IsWord.phrase_class (shape : IsWord word) (plain : word ∉ reserved) (space : String) :
    Phrase space ("class ".toList ++ word.toList) [qualify space word] space := by
  intro gap passed previous rest quiet
  refine ⟨some word, fun same => plain (by rw [Option.some.inj same]; decide), ?_⟩
  rw [show "class " = "class" ++ " " from rfl, scan_pair (isWord_of_all (by decide) (by decide)) shape passed,
    declaredFrom_declares (by decide), if_neg quiet]
  rfl

/-- A namespace lasts from its name on. -/
theorem IsWord.phrase_space (shape : IsWord word) (plain : word ∉ reserved) (space : String) :
    Phrase space ("namespace ".toList ++ word.toList) [] (Segment.trim word) := by
  intro gap passed previous rest _
  refine ⟨some word, fun same => plain (by rw [Option.some.inj same]; decide), ?_⟩
  rw [show "namespace " = "namespace" ++ " " from rfl,
    scan_pair (isWord_of_all (by decide) (by decide)) shape passed, shape.declaredFrom_space]
  rfl

/-- A brace right behind the keyword opens the global namespace. -/
theorem passage_globalSpace (space : String) :
    Passage space "namespace \x7b".toList [] "" := by
  intro previous rest _
  refine ⟨some "\x7b", by decide, ?_⟩
  have shape : IsWord "namespace" := isWord_of_all (by decide) (by decide)
  have tokens : scan ("namespace \x7b".toList ++ rest) =
      ⟨"namespace", false⟩ :: brace :: scan rest := by
    rw [show "namespace \x7b".toList = "namespace".toList ++ [' ', '\x7b'] from rfl, List.append_assoc,
      List.cons_append, scan_append_gap shape.isPlain (by decide), scan_word shape.1 shape.2,
      List.singleton_append, List.singleton_append, scan_brace]
  rw [tokens, declaredFrom, if_pos (by decide), if_pos (.inr rfl),
    declaredFrom_skip (by decide) (by decide)]
  rfl

end Words

end Token

end ClassForge
