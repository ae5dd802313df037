import ClassForge.Proofs.Literal.Numerals
import ClassForge.Proofs.Name.Segments
import ClassForge.Proofs.Source.Scanning
import ClassForge.Source.Declared
import ClassForge.Tree.Source
import Mathlib.Data.List.Forall2

/-! # Texts inside of a tree cannot declare anything

Two trees that differ only in what their texts say print to sources with the same tokens. The escapes
of the printer are those that the scanner undoes, so the scanner leaves every quoted text where the
printer ended it, and it leaves it in the same state whatever was quoted. The names of a tree stand
outside of quotes; all that is asked of them is that they hold no quote themselves.
-/

namespace ClassForge

/-! ## Trees without texts -/

mutual

/-- The literal with every text in it made empty, keys included. -/
def Literal.textless : Literal → Literal
  | .str _ => .str ""
  | .list items => .list (Literal.textlessItems items)
  | .map entries => .map (Literal.textlessEntries entries)
  | value => value

def Literal.textlessItems : List Literal → List Literal
  | [] => []
  | item :: rest => item.textless :: Literal.textlessItems rest

def Literal.textlessEntries : List (String × Literal) → List (String × Literal)
  | [] => []
  | (_, value) :: rest => ("", value.textless) :: Literal.textlessEntries rest

end

mutual

/-- The expression with every text in it made empty. -/
def Expr.textless : Expr → Expr
  | .literal value => .literal value.textless
  | .constant name => .constant name
  | .new name args => .new name (Expr.textlessArgs args)

def Expr.textlessArgs : List Expr → List Expr
  | [] => []
  | arg :: rest => arg.textless :: Expr.textlessArgs rest

end

def Param.textless (param : Param) : Param :=
  { param with fallback := param.fallback.map Expr.textless }

def MethodHead.textless (head : MethodHead) : MethodHead :=
  { head with params := head.params.map Param.textless }

mutual

/-- The statement with every text in it made empty. -/
def Stmt.textless : Stmt → Stmt
  | .space name body => .space name (Tree.textless body)
  | .classDecl head body => .classDecl head (Tree.textless body)
  | .method head none => .method head.textless none
  | .method head (some body) => .method head.textless (some (Tree.textless body))
  | .property value => .property { value with initial := value.initial.map Literal.textless }
  | .constant value => .constant { value with value := value.value.textless }
  | .throw value => .throw value.textless
  | .expr value => .expr value.textless

/-- The tree with every text in it made empty: the keys of maps and the values that are texts, in
constants, initial values, defaults and arguments. -/
def Tree.textless : List Stmt → List Stmt
  | [] => []
  | stmt :: rest => stmt.textless :: Tree.textless rest

end

/-! ## The names of a tree -/

mutual

/-- The parts of all names of an expression. -/
def Expr.names : Expr → List String
  | .literal _ => []
  | .constant name => name.parts
  | .new name args => name.parts ++ Expr.argNames args

def Expr.argNames : List Expr → List String
  | [] => []
  | arg :: rest => arg.names ++ Expr.argNames rest

end

def TypeHint.names : TypeHint → List String
  | .array => []
  | .callable => []
  | .named name => name.parts

def Param.names (param : Param) : List String :=
  param.name :: (param.hint.toList.flatMap TypeHint.names ++ param.fallback.toList.flatMap Expr.names)

def ClassHead.names (head : ClassHead) : List String :=
  head.name :: (head.parent.toList ++ head.interfaces).flatMap SourceName.parts

def MethodHead.names (head : MethodHead) : List String :=
  head.name :: head.params.flatMap Param.names

mutual

/-- The names that a statement holds, qualified ones by their parts. -/
def Stmt.names : Stmt → List String
  | .space name body => name.toList.flatMap SourceName.parts ++ Tree.names body
  | .classDecl head body => head.names ++ Tree.names body
  | .method head none => head.names
  | .method head (some body) => head.names ++ Tree.names body
  | .property value => [value.name]
  | .constant value => [value.name]
  | .throw value => value.names
  | .expr value => value.names

/-- All names of a tree, qualified ones by their parts. -/
def Tree.names : List Stmt → List String
  | [] => []
  | stmt :: rest => stmt.names ++ Tree.names rest

end

namespace Token

/-- Characters that do not start a quoted text. -/
def isUnquoting (c : Char) : Bool :=
  c != '\'' && c != '"'

/-- A text without quotes. -/
def Unquoted (text : String) : Prop :=
  ∀ c ∈ text.toList, isUnquoting c = true

instance (text : String) : Decidable (Unquoted text) :=
  decidable_of_iff (text.toList.all isUnquoting = true) List.all_eq_true

/-! ## Texts that the scanner cannot tell apart -/

/-- Outside of quotes, from any word that has begun, both texts give the same tokens and leave the
same word behind, again outside of quotes. -/
def Alike (s t : List Char) : Prop :=
  ∀ word, ∃ tokens after, ∀ rest,
    scanFrom .code word (s ++ rest) = tokens ++ scanFrom .code after rest ∧
    scanFrom .code word (t ++ rest) = tokens ++ scanFrom .code after rest

theorem Alike.scan_eq {s t : List Char} (alike : Alike s t) : scan s = scan t := by
  obtain ⟨tokens, after, same⟩ := alike (Word.none ' ')
  have whole := same []
  simp only [List.append_nil] at whole
  rw [scan, scan, whole.1, whole.2]

theorem alike_nil : Alike [] [] := by
  intro word
  exact ⟨[], word, fun rest => ⟨rfl, rfl⟩⟩

theorem Alike.append {s t s' t' : List Char} (front : Alike s t) (back : Alike s' t') :
    Alike (s ++ s') (t ++ t') := by
  intro word
  obtain ⟨first, middle, before⟩ := front word
  obtain ⟨second, after, behind⟩ := back middle
  refine ⟨first ++ second, after, fun rest => ?_⟩
  have start := before (s' ++ rest)
  have start' := before (t' ++ rest)
  have finish := behind rest
  constructor
  · rw [List.append_assoc, start.1, finish.1, List.append_assoc]
  · rw [List.append_assoc, start'.2, finish.2, List.append_assoc]

private theorem alike_singleton {c : Char} (free : isUnquoting c = true) : Alike [c] [c] := by
  intro word
  simp only [isUnquoting, Bool.and_eq_true, bne_iff_ne] at free
  by_cases letter : isWordChar c = true
  · refine ⟨[], word.push c, fun rest => ?_⟩
    simp [scanFrom, letter]
  · by_cases opening : c = '\x7b'
    · subst opening
      refine ⟨word.tokens ++ [brace], Word.none '\x7b', fun rest => ?_⟩
      simp [scanFrom, letter]
    · refine ⟨word.tokens, Word.none c, fun rest => ?_⟩
      simp [scanFrom, letter, free, opening]

/-- Where there is no quote, the scanner stays outside of quotes. -/
theorem alike_of_unquoted {text : String} (free : Unquoted text) : Alike text.toList text.toList := by
  rw [Unquoted] at free
  generalize text.toList = chars at free
  induction chars with
  | nil => exact alike_nil
  | cons c rest ih =>
    have first := alike_singleton (free c List.mem_cons_self)
    exact first.append (ih fun c member => free c (List.mem_cons_of_mem _ member))

/-- What is quoted does not matter. -/
theorem alike_quote (s t : String) : Alike (Literal.quote s).toList (Literal.quote t).toList := by
  intro word
  exact ⟨word.tokens, Word.none ' ', fun rest =>
    ⟨scanFrom_quote word s rest, scanFrom_quote word t rest⟩⟩

end Token

open Token

/-! ## Printed pieces -/

private theorem alike_literal (text : String) (free : Unquoted text := by decide) :
    Alike text.toList text.toList :=
  alike_of_unquoted free

private theorem alike_optional (present : Bool) (text : String) (free : Unquoted text := by decide) :
    Alike (if present then text else "").toList (if present then text else "").toList := by
  cases present with
  | false => exact alike_nil
  | true => exact alike_of_unquoted free

theorem unquoted_of_isNumberChar {text : String} (number : ∀ c ∈ text.toList, Literal.isNumberChar c = true) :
    Unquoted text := by
  intro c member
  have kind := number c member
  simp only [isUnquoting, Bool.and_eq_true, bne_iff_ne]
  constructor
  · rintro rfl
    exact absurd kind (by decide)
  · rintro rfl
    exact absurd kind (by decide)

namespace Literal

mutual

theorem alike : (value : Literal) → Alike value.source.toList value.textless.source.toList
  | .null => alike_literal _
  | .bool true => alike_literal _
  | .bool false => alike_literal _
  | .int value => alike_literal _ (unquoted_of_isNumberChar fun _ member =>
      isNumberChar_of_isNumeralChar (isNumeralChar_toString_int member))
  | .float value => alike_literal _ (unquoted_of_isNumberChar fun _ => isNumberChar_doubleSource)
  | .str value => alike_quote value ""
  | .list items => by
    simp only [textless, source, String.toList_append]
    exact ((alike_literal "[").append (alike_items items)).append (alike_literal "]")
  | .map entries => by
    simp only [textless, source, String.toList_append]
    exact ((alike_literal "[").append (alike_entries entries)).append (alike_literal "]")

theorem alike_items : (items : List Literal) →
    Alike (itemsSource items).toList (itemsSource (textlessItems items)).toList
  | [] => alike_nil
  | [item] => by
    simp only [textlessItems, itemsSource]
    exact alike item
  | item :: next :: rest => by
    have later := alike_items (next :: rest)
    simp only [textlessItems] at later
    simp only [textlessItems, itemsSource, String.toList_append]
    exact ((alike item).append (alike_literal ", ")).append later

theorem alike_entries : (entries : List (String × Literal)) →
    Alike (entriesSource entries).toList (entriesSource (textlessEntries entries)).toList
  | [] => alike_nil
  | [(key, value)] => by
    simp only [textlessEntries, entriesSource, String.toList_append]
    exact ((alike_quote key "").append (alike_literal " => ")).append (alike value)
  | (key, value) :: next :: rest => by
    have later := alike_entries (next :: rest)
    simp only [textlessEntries] at later
    simp only [textlessEntries, entriesSource, String.toList_append]
    exact ((((alike_quote key "").append (alike_literal " => ")).append (alike value)).append
      (alike_literal ", ")).append later

end

end Literal

theorem alike_commaSeparated {texts others : List String}
    (pieces : List.Forall₂ (fun s t : String => Alike s.toList t.toList) texts others) :
    Alike (commaSeparated texts).toList (commaSeparated others).toList := by
  induction pieces with
  | nil => exact alike_nil
  | @cons text other texts others first rest ih =>
    cases rest with
    | nil => exact first
    | cons =>
      simp only [commaSeparated, String.toList_append] at ih ⊢
      exact (first.append (alike_literal ", ")).append ih

theorem SourceName.alike_text {name : SourceName} (free : ∀ part ∈ name.parts, Unquoted part) :
    Alike name.text.toList name.text.toList := by
  apply alike_of_unquoted
  intro c member
  rcases Segment.mem_toList_join member with rfl | ⟨part, listed, member⟩
  · decide
  · exact free part listed c member

theorem SourceName.alike {name : SourceName} (free : ∀ part ∈ name.parts, Unquoted part) :
    Alike name.source.toList name.source.toList := by
  have inner := SourceName.alike_text free
  rw [source]
  split
  · rw [String.toList_append]
    exact (alike_literal (String.singleton separator)).append inner
  · exact inner

mutual

theorem Expr.alike : (value : Expr) → (∀ name ∈ value.names, Unquoted name) →
    Alike value.source.toList value.textless.source.toList
  | .literal value, _ => by
    simp only [Expr.textless, Expr.source]
    exact value.alike
  | .constant name, free => by
    simp only [Expr.textless, Expr.source]
    exact SourceName.alike free
  | .new name args, free => by
    simp only [Expr.names, List.mem_append] at free
    have named := SourceName.alike fun part member => free part (.inl member)
    have listed := alike_commaSeparated (Expr.alike_args args fun part member => free part (.inr member))
    simp only [Expr.textless, Expr.source, String.toList_append]
    exact ((((alike_literal "new ").append named).append (alike_literal "(")).append listed).append (alike_literal ")")

theorem Expr.alike_args : (args : List Expr) → (∀ name ∈ Expr.argNames args, Unquoted name) →
    List.Forall₂ (fun s t : String => Alike s.toList t.toList) (Expr.argsSource args)
      (Expr.argsSource (Expr.textlessArgs args))
  | [], _ => .nil
  | arg :: rest, free => by
    simp only [Expr.argNames, List.mem_append] at free
    have first := Expr.alike arg fun name member => free name (.inl member)
    exact .cons first (Expr.alike_args rest fun name member => free name (.inr member))

end

theorem TypeHint.alike {hint : TypeHint} (free : ∀ name ∈ hint.names, Unquoted name) :
    Alike hint.source.toList hint.source.toList := by
  cases hint with
  | array => exact alike_literal _
  | callable => exact alike_literal _
  | named name => exact SourceName.alike free

theorem Param.alike {param : Param} (free : ∀ name ∈ param.names, Unquoted name) :
    Alike param.source.toList param.textless.source.toList := by
  obtain ⟨name, byRef, hint, fallback⟩ := param
  simp only [Param.names, List.mem_cons, List.mem_append] at free
  have named : Unquoted name := free name (.inl rfl)
  simp only [Param.textless, Param.source, String.toList_append]
  refine (((Alike.append ?_ (alike_optional byRef "&")).append (alike_literal "$")).append
    (alike_of_unquoted named)).append ?_
  · cases hint with
    | none => exact alike_nil
    | some hint =>
      have hinted := TypeHint.alike fun part member => free part (.inr (.inl (by simpa using member)))
      rw [String.toList_append]
      exact hinted.append (alike_literal " ")
  · cases fallback with
    | none => exact alike_nil
    | some value =>
      have valued := value.alike fun part member => free part (.inr (.inr (by simpa using member)))
      simp only [Option.map_some, String.toList_append]
      exact (alike_literal " = ").append valued

theorem ClassHead.alike {head : ClassHead} (free : ∀ name ∈ head.names, Unquoted name) :
    Alike head.source.toList head.source.toList := by
  obtain ⟨name, isAbstract, isFinal, parent, interfaces⟩ := head
  have named : Unquoted name := free name List.mem_cons_self
  have referred : ∀ reference ∈ parent.toList ++ interfaces, Alike reference.source.toList reference.source.toList := by
    intro reference listed
    apply SourceName.alike
    intro part member
    exact free part (List.mem_cons_of_mem _ (List.mem_flatMap.mpr ⟨reference, listed, member⟩))
  simp only [ClassHead.source, String.toList_append]
  refine (((((alike_optional isAbstract "abstract ").append (alike_optional isFinal "final ")).append
    (alike_literal "class ")).append (alike_of_unquoted named)).append ?_).append ?_
  · cases parent with
    | none => exact alike_nil
    | some parent =>
      rw [String.toList_append]
      exact (alike_literal " extends ").append (referred parent (by simp))
  · split
    · exact alike_nil
    · rw [String.toList_append]
      refine (alike_literal " implements ").append (alike_commaSeparated ?_)
      rw [List.forall₂_map_left_iff, List.forall₂_map_right_iff, List.forall₂_same]
      intro interface listed
      exact referred interface (List.mem_append_right _ listed)

theorem MethodHead.alike {head : MethodHead} (free : ∀ name ∈ head.names, Unquoted name) :
    Alike head.source.toList head.textless.source.toList := by
  obtain ⟨name, visibility, isStatic, isAbstract, isFinal, byRef, params⟩ := head
  have named : Unquoted name := free name List.mem_cons_self
  have visible : Unquoted visibility.word := by cases visibility <;> decide
  have listed : Alike (commaSeparated (params.map Param.source)).toList
      (commaSeparated ((params.map Param.textless).map Param.source)).toList := by
    apply alike_commaSeparated
    rw [List.map_map, List.forall₂_map_left_iff, List.forall₂_map_right_iff, List.forall₂_same]
    intro param member
    apply Param.alike
    intro part inside
    exact free part (List.mem_cons_of_mem _ (List.mem_flatMap.mpr ⟨param, member, inside⟩))
  simp only [MethodHead.textless, MethodHead.source, String.toList_append]
  have flags := (alike_optional isFinal "final ").append (alike_optional isAbstract "abstract ")
  have words := ((flags.append (alike_of_unquoted visible)).append (alike_optional isStatic " static")).append
    (alike_literal " function ")
  exact ((((words.append (alike_optional byRef "&")).append (alike_of_unquoted named)).append
    (alike_literal "(")).append listed).append (alike_literal ")")

theorem Property.alike {property : Property} (free : Unquoted property.name) :
    Alike property.source.toList
      ({ property with initial := property.initial.map Literal.textless } : Property).source.toList := by
  obtain ⟨name, visibility, isStatic, initial⟩ := property
  have visible : Unquoted visibility.word := by cases visibility <;> decide
  simp only [Property.source, String.toList_append]
  have words := ((alike_of_unquoted visible).append (alike_optional isStatic " static")).append (alike_literal " $")
  refine ((words.append (alike_of_unquoted free)).append ?_).append (alike_literal ";")
  cases initial with
  | none => exact alike_nil
  | some value =>
    simp only [Option.map_some, String.toList_append]
    exact (alike_literal " = ").append value.alike

theorem Constant.alike {constant : Constant} (free : Unquoted constant.name) :
    Alike constant.source.toList
      ({ constant with value := constant.value.textless } : Constant).source.toList := by
  simp only [Constant.source, String.toList_append]
  have named := (alike_literal "const ").append (alike_of_unquoted free)
  exact ((named.append (alike_literal " = ")).append constant.value.alike).append (alike_literal ";")

/-! ## Printed trees -/

theorem alike_sourceLine {text other : String} (pieces : Alike text.toList other.toList) (depth : Nat) :
    Alike (sourceLine depth text).toList (sourceLine depth other).toList := by
  have blanks : Unquoted (indentation depth) := by
    intro c member
    rw [indentation, String.toList_ofList] at member
    rw [(List.mem_replicate.mp member).2]
    decide
  simp only [sourceLine, String.toList_append]
  exact ((alike_of_unquoted blanks).append pieces).append (alike_literal "\n")

/-- A head, and a body between braces. -/
private theorem alike_braced {head other : String} {body emptied : List Char}
    (opening : Alike head.toList other.toList) (inner : Alike body emptied) (depth : Nat) :
    Alike ((sourceLine depth head).toList ++ (sourceLine depth "\x7b").toList ++ body ++
        (sourceLine depth "\x7d").toList)
      ((sourceLine depth other).toList ++ (sourceLine depth "\x7b").toList ++ emptied ++
        (sourceLine depth "\x7d").toList) := by
  have brace := alike_sourceLine (alike_literal "\x7b") depth
  have closing := alike_sourceLine (alike_literal "\x7d") depth
  exact (((alike_sourceLine opening depth).append brace).append inner).append closing

mutual

theorem Stmt.alike : (stmt : Stmt) → (depth : Nat) → (∀ name ∈ stmt.names, Unquoted name) →
    Alike (Tree.stmtSource depth stmt).toList (Tree.stmtSource depth stmt.textless).toList
  | .space none body, depth, free => by
    have inner := Tree.alike body (depth + 1) true free
    have opening := alike_sourceLine (alike_literal "namespace \x7b") depth
    have closing := alike_sourceLine (alike_literal "\x7d") depth
    simp only [Stmt.textless, Tree.stmtSource, String.toList_append]
    exact (opening.append inner).append closing
  | .space (some name) body, depth, free => by
    simp only [Stmt.names, List.mem_append] at free
    have inner := Tree.alike body depth true fun part member => free part (.inr member)
    have named := SourceName.alike_text fun part member => free part (.inl (by simpa using member))
    have line : Alike ("namespace " ++ name.text ++ ";").toList ("namespace " ++ name.text ++ ";").toList := by
      simp only [String.toList_append]
      exact ((alike_literal "namespace ").append named).append (alike_literal ";")
    have empty : (Tree.textless body).isEmpty = body.isEmpty := by cases body <;> rfl
    have blank : Alike (if body.isEmpty then "" else "\n").toList (if body.isEmpty then "" else "\n").toList := by
      split <;> exact alike_literal _
    simp only [Stmt.textless, Tree.stmtSource, String.toList_append, empty]
    exact ((alike_sourceLine line depth).append blank).append inner
  | .classDecl head body, depth, free => by
    simp only [Stmt.names, List.mem_append] at free
    have opening := ClassHead.alike fun name member => free name (.inl member)
    have inner := Tree.alike body (depth + 1) true fun name member => free name (.inr member)
    simp only [Stmt.textless, Tree.stmtSource, String.toList_append]
    exact alike_braced opening inner depth
  | .method head none, depth, free => by
    have announced := (MethodHead.alike free).append (alike_literal ";")
    simp only [Stmt.textless, Tree.stmtSource]
    apply alike_sourceLine
    rw [String.toList_append, String.toList_append]
    exact announced
  | .method head (some body), depth, free => by
    simp only [Stmt.names, List.mem_append] at free
    have opening := MethodHead.alike fun name member => free name (.inl member)
    have inner := Tree.alike body (depth + 1) true fun name member => free name (.inr member)
    simp only [Stmt.textless, Tree.stmtSource, String.toList_append]
    exact alike_braced opening inner depth
  | .property value, depth, free => by
    simp only [Stmt.textless, Tree.stmtSource]
    exact alike_sourceLine (Property.alike (free _ List.mem_cons_self)) depth
  | .constant value, depth, free => by
    simp only [Stmt.textless, Tree.stmtSource]
    exact alike_sourceLine (Constant.alike (free _ List.mem_cons_self)) depth
  | .throw value, depth, free => by
    have thrown := ((alike_literal "throw ").append (value.alike free)).append (alike_literal ";")
    simp only [Stmt.textless, Tree.stmtSource]
    apply alike_sourceLine
    simp only [String.toList_append]
    exact thrown
  | .expr value, depth, free => by
    have shown := (value.alike free).append (alike_literal ";")
    simp only [Stmt.textless, Tree.stmtSource]
    apply alike_sourceLine
    simp only [String.toList_append]
    exact shown

theorem Tree.alike : (body : List Stmt) → (depth : Nat) → (first : Bool) →
    (∀ name ∈ Tree.names body, Unquoted name) →
    Alike (Tree.bodySource depth first body).toList (Tree.bodySource depth first (Tree.textless body)).toList
  | [], _, _, _ => alike_nil
  | stmt :: rest, depth, first, free => by
    simp only [Tree.names, List.mem_append] at free
    have front := Stmt.alike stmt depth fun name member => free name (.inl member)
    have back := Tree.alike rest depth false fun name member => free name (.inr member)
    have blank : Alike (if depth = 0 ∧ first = false then "\n" else "").toList
        (if depth = 0 ∧ first = false then "\n" else "").toList := by
      split <;> exact alike_literal _
    simp only [Tree.textless, Tree.bodySource, String.toList_append]
    exact (blank.append front).append back

end

/-- The texts of a tree leave no trace among the tokens of its source. -/
theorem Tree.scan_source_textless {tree : Tree} (free : ∀ name ∈ Tree.names tree, Unquoted name) :
    scan tree.source.toList = scan (Tree.source (Tree.textless tree)).toList :=
  (Tree.alike tree 0 true free).scan_eq

/-- Trees that differ only in what their texts say declare the same classes, if no name holds a quote. -/
theorem declaredClasses_eq_of_textless_eq (tree other : Tree)
    (free : ∀ name ∈ Tree.names tree, Unquoted name) (free' : ∀ name ∈ Tree.names other, Unquoted name)
    (same : Tree.textless tree = Tree.textless other) :
    declaredClasses tree.source = declaredClasses other.source := by
  rw [declaredClasses, declaredClasses, Tree.scan_source_textless free, Tree.scan_source_textless free', same]

/-- A class that holds a text, and a key, wherever a tree can hold one. -/
def posterTree (text key : String) : Tree :=
  [.space (some ⟨["App"], false⟩)
    [.classDecl ⟨"Poster", false, false, none, []⟩
      [.constant ⟨"TEXT", .list [.str text, .map [(key, .str text)]]⟩,
        .property ⟨"shown", .pub, true, some (.map [(key, .null)])⟩,
        .method ⟨"show", .pub, false, false, false, false, [⟨"text", false, none, some (.literal (.str text))⟩]⟩
          (some [.throw (.new ⟨["Failure"], true⟩ [.literal (.str text)])])]]]

theorem declaredClasses_eq_of_textless_eq_poster :
    (∀ name ∈ Tree.names (posterTree "' class Fake \x7b" "\\"), Unquoted name) ∧
      Tree.textless (posterTree "' class Fake \x7b" "\\") = Tree.textless (posterTree "namespace Other;\\'" "") ∧
      declaredClasses (posterTree "' class Fake \x7b" "\\").source =
        declaredClasses (posterTree "namespace Other;\\'" "").source := by
  have free : ∀ name ∈ Tree.names (posterTree "' class Fake \x7b" "\\"), Unquoted name := by decide +kernel
  have free' : ∀ name ∈ Tree.names (posterTree "namespace Other;\\'" ""), Unquoted name := by decide +kernel
  exact ⟨free, rfl, declaredClasses_eq_of_textless_eq _ _ free free' rfl⟩

end ClassForge
