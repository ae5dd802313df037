import ClassForge.Proofs.Source.Identifiers
import ClassForge.Proofs.Tree.Printing

/-! # Trees of plain names, and what their lines declare

A name is plain if it is an identifier that the search for declarations does not react to. Where all
names are plain, expressions, parameters and the heads of members declare nothing, whatever literals
they hold, and the head of a class declares exactly that class.
-/

namespace ClassForge

/-- An identifier, and none of the reserved words. -/
def Identifier.isPlain (text : String) : Bool :=
  isValid text && !Token.reserved.contains text

/-- A name of plain segments; there is at least one. -/
def SourceName.isPlain (name : SourceName) : Bool :=
  !name.parts.isEmpty && name.parts.all Identifier.isPlain

mutual

/-- Whether all names of an expression are plain. -/
def Expr.isPlain : Expr → Bool
  | .literal _ => true
  | .constant name => name.isPlain
  | .new name args => name.isPlain && Expr.allPlain args

def Expr.allPlain : List Expr → Bool
  | [] => true
  | arg :: rest => arg.isPlain && Expr.allPlain rest

end

def TypeHint.isPlain : TypeHint → Bool
  | .array => true
  | .callable => true
  | .named name => name.isPlain

def Param.isPlain (param : Param) : Bool :=
  Identifier.isPlain param.name && param.hint.all TypeHint.isPlain && param.fallback.all Expr.isPlain

def ClassHead.isPlain (head : ClassHead) : Bool :=
  Identifier.isPlain head.name && head.parent.all SourceName.isPlain &&
    head.interfaces.all SourceName.isPlain

def MethodHead.isPlain (head : MethodHead) : Bool :=
  Identifier.isPlain head.name && head.params.all Param.isPlain

mutual

/-- Whether all names of a statement, and of those inside, are plain. -/
def Stmt.isPlain : Stmt → Bool
  | .space name body => name.all SourceName.isPlain && Tree.isPlain body
  | .classDecl head body => head.isPlain && Tree.isPlain body
  | .method head none => head.isPlain
  | .method head (some body) => head.isPlain && Tree.isPlain body
  | .property value => Identifier.isPlain value.name
  | .constant value => Identifier.isPlain value.name
  | .throw value => value.isPlain
  | .expr value => value.isPlain

/-- Whether all names of a tree are plain. -/
def Tree.isPlain : List Stmt → Bool
  | [] => true
  | stmt :: rest => stmt.isPlain && Tree.isPlain rest

end

open Token

namespace Identifier

variable {text : String}

theorem isValid_of_isPlain (plain : isPlain text = true) : isValid text = true :=
  (Bool.and_eq_true_iff.mp plain).1

theorem notMem_reserved (plain : isPlain text = true) : text ∉ reserved := by
  simpa using (Bool.and_eq_true_iff.mp plain).2

theorem quiet (plain : isPlain text = true) : Quiet text.toList :=
  (isWord_of_isValid (isValid_of_isPlain plain)).quiet (notMem_reserved plain)

end Identifier

namespace SourceName

variable {name : SourceName}

theorem parts_ne_nil (plain : name.isPlain = true) : name.parts ≠ [] := by
  simpa using (Bool.and_eq_true_iff.mp plain).1

private theorem isPlain_part (plain : name.isPlain = true) {part : String} (member : part ∈ name.parts) :
    Identifier.isPlain part = true :=
  List.all_eq_true.mp (Bool.and_eq_true_iff.mp plain).2 part member

private theorem isValid_part (plain : name.isPlain = true) :
    ∀ part ∈ name.parts, Identifier.isValid part = true :=
  fun _ member => Identifier.isValid_of_isPlain (isPlain_part plain member)

theorem isWord_text (plain : name.isPlain = true) : IsWord name.text :=
  Identifier.isWord_join (parts_ne_nil plain) (isValid_part plain)

/-- A reserved word has one segment only, which would be the plain one. -/
theorem text_notMem_reserved (plain : name.isPlain = true) : name.text ∉ reserved := by
  intro member
  have free : ∀ word ∈ reserved, separator ∉ word.toList := by decide
  have single := Identifier.eq_singleton_of_join (parts_ne_nil plain) (isValid_part plain) rfl (free _ member)
  have inside : name.text ∈ name.parts := by
    rw [single]
    exact List.mem_singleton_self _
  exact Identifier.notMem_reserved (isPlain_part plain inside) member

theorem trim_text (plain : name.isPlain = true) : Segment.trim name.text = name.text :=
  Identifier.trim_join (parts_ne_nil plain) (isValid_part plain)

theorem source_notMem_reserved (plain : name.isPlain = true) : name.source ∉ reserved := by
  cases absolute : name.absolute with
  | true => exact source_notMem_reserved_of_absolute absolute
  | false =>
    rw [source, absolute]
    exact text_notMem_reserved plain

theorem isWord_source_of_isPlain (plain : name.isPlain = true) : IsWord name.source :=
  isWord_source (parts_ne_nil plain) (isValid_part plain)

theorem quiet (plain : name.isPlain = true) : Quiet name.source.toList :=
  (isWord_source_of_isPlain plain).quiet (source_notMem_reserved plain)

end SourceName

/-- Literals declare nothing, whatever they say. -/
theorem Literal.quiet (value : Literal) : Quiet value.source.toList :=
  Literal.printed joinable_quiet value

theorem quiet_commaSeparated {α : Type} {print : α → String} {values : List α}
    (quiet : ∀ value ∈ values, Quiet (print value).toList) :
    Quiet (commaSeparated (values.map print)).toList :=
  @printed_commaSeparated _ joinable_quiet α print (fun _ => []) values quiet

private theorem Expr.argsSource_eq_map (args : List Expr) : Expr.argsSource args = args.map Expr.source := by
  induction args with
  | nil => rw [Expr.argsSource, List.map_nil]
  | cons arg rest ih => rw [Expr.argsSource, ih, List.map_cons]

mutual

theorem Expr.quiet : (value : Expr) → value.isPlain = true → Quiet value.source.toList
  | .literal value, _ => by
    rw [Expr.source]
    exact value.quiet
  | .constant name, plain => by
    rw [Expr.source]
    exact SourceName.quiet plain
  | .new name args, plain => by
    rw [Expr.isPlain, Bool.and_eq_true] at plain
    have created := (SourceName.isWord_source_of_isPlain plain.1).quiet_new (SourceName.source_notMem_reserved plain.1)
    have arguments := quiet_commaSeparated (Expr.quiet_args args plain.2)
    rw [Expr.source, Expr.argsSource_eq_map]
    simp only [String.toList_append]
    exact (created.glue (by decide) arguments).tail (tail_of_isTail (by decide))

theorem Expr.quiet_args : (args : List Expr) → Expr.allPlain args = true →
    ∀ arg ∈ args, Quiet arg.source.toList
  | [], _, _, member => nomatch member
  | arg :: rest, plain, other, member => by
    rw [Expr.allPlain, Bool.and_eq_true] at plain
    rcases List.mem_cons.mp member with same | member
    · rw [same]
      exact Expr.quiet arg plain.1
    · exact Expr.quiet_args rest plain.2 other member

end

private theorem silent_optional (present : Bool) {word : String} (lead : isLead word.toList = true) :
    Silent (if present then word else "").toList := by
  cases present with
  | false => exact silent_nil
  | true => exact silent_of_isLead lead

theorem TypeHint.quiet {hint : TypeHint} (plain : hint.isPlain = true) : Quiet hint.source.toList := by
  cases hint with
  | array => exact quiet_of_isQuiet (by decide)
  | callable => exact quiet_of_isQuiet (by decide)
  | named name => exact SourceName.quiet plain

theorem Param.quiet {param : Param} (plain : param.isPlain = true) : Quiet param.source.toList := by
  simp only [Param.isPlain, Bool.and_eq_true, Option.all_eq_true] at plain
  obtain ⟨⟨named, hinted⟩, valued⟩ := plain
  apply Param.printed joinable_quiet (Identifier.quiet named)
  · intro hint present
    exact TypeHint.quiet (hinted hint present)
  · intro value present
    exact value.quiet (valued value present)

/-- The head of a class declares that class. -/
theorem ClassHead.phrase {head : ClassHead} (plain : head.isPlain = true) (space : String) :
    Phrase space head.source.toList [qualify space head.name] space := by
  obtain ⟨name, isAbstract, isFinal, parent, interfaces⟩ := head
  simp only [ClassHead.isPlain, Bool.and_eq_true] at plain
  obtain ⟨⟨named, extended⟩, implemented⟩ := plain
  have declared := (Identifier.isWord_of_isValid (Identifier.isValid_of_isPlain named)).phrase_class
    (Identifier.notMem_reserved named) space
  simp only [ClassHead.source, String.toList_append]
  refine Phrase.tail (Phrase.tail ?_ ?_) ?_
  · rw [List.append_assoc]
    exact ((silent_optional isAbstract (by decide)).append (silent_optional isFinal (by decide))).then
      declared
  · cases parent with
    | none => exact tail_nil
    | some parent =>
      rw [String.toList_append]
      exact tail_glue (by decide) (SourceName.quiet extended)
  · split
    · exact tail_nil
    · rw [String.toList_append]
      refine tail_glue (by decide) (quiet_commaSeparated fun name member => ?_)
      exact SourceName.quiet (List.all_eq_true.mp implemented name member)

theorem MethodHead.quiet {head : MethodHead} (plain : head.isPlain = true) :
    Quiet head.source.toList := by
  simp only [MethodHead.isPlain, Bool.and_eq_true, List.all_eq_true] at plain
  apply MethodHead.printed joinable_quiet (Identifier.quiet plain.1)
  intro param member
  exact Param.quiet (plain.2 param member)

theorem Property.quiet {property : Property} (plain : Identifier.isPlain property.name = true) :
    Quiet property.source.toList :=
  Property.printed joinable_quiet (Identifier.quiet plain)

theorem Constant.quiet {constant : Constant} (plain : Identifier.isPlain constant.name = true) :
    Quiet constant.source.toList :=
  Constant.printed joinable_quiet (Identifier.quiet plain)

end ClassForge
