import ClassForge.Proofs.Literal.Numerals
import ClassForge.Proofs.Source.Joining
import ClassForge.Tree.Source

/-! # The tokens of printed members

What a literal, a parameter, a property, a constant or the head of a method is printed to, in words.
The statements hold of every relation between texts and tokens that can be joined at gaps; all that is
left to say is that the relation holds of the names.
-/

namespace ClassForge

open Token

mutual

/-- The words of a literal. Quoted texts have none. -/
def Literal.tokens : Literal → List Token
  | .str _ => []
  | .list items => Literal.itemTokens items
  | .map entries => Literal.entryTokens entries
  | value => scan value.source.toList

def Literal.itemTokens : List Literal → List Token
  | [] => []
  | item :: rest => item.tokens ++ Literal.itemTokens rest

def Literal.entryTokens : List (String × Literal) → List Token
  | [] => []
  | (_, value) :: rest => value.tokens ++ Literal.entryTokens rest

end

mutual

/-- The words of an expression. -/
def Expr.tokens : Expr → List Token
  | .literal value => value.tokens
  | .constant name => [word name.source]
  | .new name args => word "new" :: word name.source :: Expr.argTokens args

def Expr.argTokens : List Expr → List Token
  | [] => []
  | arg :: rest => arg.tokens ++ Expr.argTokens rest

end

def Param.tokens (param : Param) : List Token :=
  param.hint.toList.map (fun hint => word hint.source) ++
    word param.name :: param.fallback.toList.flatMap Expr.tokens

def MethodHead.tokens (head : MethodHead) : List Token :=
  (if head.isFinal then [word "final"] else []) ++ (if head.isAbstract then [word "abstract"] else []) ++
    word head.visibility.word :: (if head.isStatic then [word "static"] else []) ++
    word "function" :: word head.name :: head.params.flatMap Param.tokens

def Property.tokens (property : Property) : List Token :=
  word property.visibility.word :: (if property.isStatic then [word "static"] else []) ++
    word property.name :: property.initial.toList.flatMap Literal.tokens

def Constant.tokens (constant : Constant) : List Token :=
  word "const" :: word constant.name :: constant.value.tokens

/-- A number makes no reserved word: each of these has a letter that numbers lack. -/
private theorem isQuiet_of_isNumberChar {text : List Char} (number : ∀ c ∈ text, Literal.isNumberChar c = true) :
    isQuiet text = true := by
  have plain : ∀ c ∈ text, isPlainChar c = true := by
    intro c member
    have kind := number c member
    simp only [Literal.isNumberChar, isNumeralChar, Bool.or_eq_true, beq_iff_eq] at kind
    rcases kind with (((digit | rfl) | rfl) | rfl) | upper
    · simp [isPlainChar, isWordChar, Char.isAlphanum, digit]
    · decide
    · decide
    · decide
    · have letter : c.isAlpha = true := Bool.or_eq_true_iff.mpr (.inl upper)
      simp [isPlainChar, isWordChar, Char.isAlphanum, letter]
  have letter : ∀ word ∈ reserved, word.toList.all Literal.isNumberChar = false := by decide
  simp only [isQuiet, Bool.and_eq_true, List.all_eq_true, Bool.not_eq_true', List.contains_eq_mem,
    decide_eq_false_iff_not]
  refine ⟨plain, fun token member listed => ?_⟩
  have other := letter token.text listed
  rw [List.all_eq_true.mpr fun c inside => number c (mem_of_mem_scan plain member inside)] at other
  cases other

section Printed

variable {R : List Char → List Token → Prop} (joinable : Joinable R)
include joinable

mutual

/-- Literals are quiet words and quoted texts. -/
theorem Literal.printed : (value : Literal) → R value.source.toList value.tokens
  | .null => joinable.words (by decide)
  | .bool true => joinable.words (by decide)
  | .bool false => joinable.words (by decide)
  | .int value => joinable.words (isQuiet_of_isNumberChar fun _ member =>
      isNumberChar_of_isNumeralChar (isNumeralChar_toString_int member))
  | .float _ => joinable.words (isQuiet_of_isNumberChar fun _ => isNumberChar_doubleSource)
  | .str value => joinable.quote value
  | .list items => by
    simp only [Literal.source, String.toList_append, Literal.tokens]
    have opened := joinable.lead (by decide : isLead "[".toList = true ∧ _ = []) (Literal.printed_items items)
    simpa using joinable.tail (by decide : isTail "]".toList = true ∧ _ = []) opened
  | .map entries => by
    simp only [Literal.source, String.toList_append, Literal.tokens]
    have opened := joinable.lead (by decide : isLead "[".toList = true ∧ _ = []) (Literal.printed_entries entries)
    simpa using joinable.tail (by decide : isTail "]".toList = true ∧ _ = []) opened

theorem Literal.printed_items : (items : List Literal) →
    R (Literal.itemsSource items).toList (Literal.itemTokens items)
  | [] => joinable.nil
  | [item] => by
    simpa [Literal.itemsSource, Literal.itemTokens] using Literal.printed item
  | item :: next :: rest => by
    have later := Literal.printed_items (next :: rest)
    rw [Literal.itemTokens]
    simp only [Literal.itemsSource, String.toList_append]
    simpa using joinable.glue (by decide : isGlue ", ".toList = true ∧ _ = []) (Literal.printed item) later

theorem Literal.printed_entries : (entries : List (String × Literal)) →
    R (Literal.entriesSource entries).toList (Literal.entryTokens entries)
  | [] => joinable.nil
  | [(key, value)] => by
    simp only [Literal.entriesSource, String.toList_append, Literal.entryTokens]
    simpa using joinable.glue (by decide : isGlue " => ".toList = true ∧ _ = []) (joinable.quote key)
      (Literal.printed value)
  | (key, value) :: next :: rest => by
    have later := Literal.printed_entries (next :: rest)
    have first := joinable.glue (by decide : isGlue " => ".toList = true ∧ _ = []) (joinable.quote key)
      (Literal.printed value)
    rw [Literal.entryTokens]
    simp only [Literal.entriesSource, String.toList_append]
    simpa using joinable.glue (by decide : isGlue ", ".toList = true ∧ _ = []) first later

end

theorem printed_commaSeparated {α : Type} {print : α → String} {tokens : α → List Token} {values : List α}
    (printed : ∀ value ∈ values, R (print value).toList (tokens value)) :
    R (commaSeparated (values.map print)).toList (values.flatMap tokens) := by
  induction values with
  | nil => exact joinable.nil
  | cons value rest ih =>
    have first := printed value List.mem_cons_self
    have later := ih fun value member => printed value (List.mem_cons_of_mem _ member)
    cases rest with
    | nil => simpa [commaSeparated] using first
    | cons next rest =>
      simp only [List.map_cons, commaSeparated, String.toList_append, List.flatMap_cons] at later ⊢
      simpa using joinable.glue (by decide : isGlue ", ".toList = true ∧ _ = []) first later

theorem Param.printed {param : Param} (named : R param.name.toList [word param.name])
    (hinted : ∀ hint ∈ param.hint, R hint.source.toList [word hint.source])
    (valued : ∀ value ∈ param.fallback, R value.source.toList value.tokens) :
    R param.source.toList param.tokens := by
  obtain ⟨name, byRef, hint, fallback⟩ := param
  have marked {text : List Char} {tokens : List Token} (shown : R text tokens) :=
    joinable.optional byRef (by decide : isLead "&".toList = true ∧ _ = [])
      (joinable.lead (by decide : isLead "$".toList = true ∧ _ = []) shown)
  cases fallback with
  | none =>
    cases hint with
    | none => simpa [Param.source, Param.tokens] using marked named
    | some hint =>
      have whole := joinable.join (by decide : isGap ' ' = true) (hinted hint rfl) (marked named)
      simpa [Param.source, Param.tokens] using whole
  | some value =>
    have shown := joinable.glue (by decide : isGlue " = ".toList = true ∧ _ = []) named (valued value rfl)
    cases hint with
    | none => simpa [Param.source, Param.tokens] using marked shown
    | some hint =>
      have whole := joinable.join (by decide : isGap ' ' = true) (hinted hint rfl) (marked shown)
      simpa [Param.source, Param.tokens] using whole

theorem Visibility.printed (visibility : Visibility) : R visibility.word.toList [Token.word visibility.word] := by
  cases visibility <;> exact joinable.words (by decide)

private theorem printed_static (visibility : Visibility) (isStatic : Bool) :
    R (visibility.word.toList ++ (if isStatic then " static" else "").toList)
      (word visibility.word :: if isStatic then [word "static"] else []) := by
  have visible := Visibility.printed joinable visibility
  cases isStatic with
  | false => simpa using visible
  | true => exact joinable.tail (by decide : isTail " static".toList = true ∧ _ = [word "static"]) visible

theorem MethodHead.printed {head : MethodHead} (named : R head.name.toList [word head.name])
    (params : ∀ param ∈ head.params, R param.source.toList param.tokens) :
    R head.source.toList head.tokens := by
  obtain ⟨name, visibility, isStatic, isAbstract, isFinal, byRef, params⟩ := head
  have listed := joinable.tail (by decide : isTail ")".toList = true ∧ _ = [])
    (joinable.glue (by decide : isGlue "(".toList = true ∧ _ = []) named (printed_commaSeparated joinable params))
  have marked := joinable.optional byRef (by decide : isLead "&".toList = true ∧ _ = []) listed
  have whole := joinable.glue (by decide : isGlue " function ".toList = true ∧ _ = [word "function"])
    (printed_static joinable visibility isStatic) marked
  have flagged := joinable.optional isFinal (by decide : isLead "final ".toList = true ∧ _ = [word "final"])
    (joinable.optional isAbstract (by decide : isLead "abstract ".toList = true ∧ _ = [word "abstract"]) whole)
  simpa [MethodHead.source, MethodHead.tokens] using flagged

theorem Property.printed {property : Property} (named : R property.name.toList [word property.name]) :
    R property.source.toList property.tokens := by
  obtain ⟨name, visibility, isStatic, initial⟩ := property
  have static := printed_static joinable visibility isStatic
  cases initial with
  | none =>
    have whole := joinable.glue (by decide : isGlue " $".toList = true ∧ _ = []) static named
    simpa [Property.source, Property.tokens] using
      joinable.tail (by decide : isTail ";".toList = true ∧ _ = []) whole
  | some value =>
    have valued := joinable.glue (by decide : isGlue " = ".toList = true ∧ _ = []) named
      (Literal.printed joinable value)
    have whole := joinable.glue (by decide : isGlue " $".toList = true ∧ _ = []) static valued
    simpa [Property.source, Property.tokens] using
      joinable.tail (by decide : isTail ";".toList = true ∧ _ = []) whole

theorem Constant.printed {constant : Constant} (named : R constant.name.toList [word constant.name]) :
    R constant.source.toList constant.tokens := by
  have valued := joinable.glue (by decide : isGlue " = ".toList = true ∧ _ = [])
    (joinable.lead (by decide : isLead "const ".toList = true ∧ _ = [word "const"]) named)
    (Literal.printed joinable constant.value)
  simpa [Constant.source, Constant.tokens] using joinable.tail (by decide : isTail ";".toList = true ∧ _ = []) valued

end Printed

end ClassForge
