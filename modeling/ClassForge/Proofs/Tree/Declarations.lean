import ClassForge.Pass.Scope
import ClassForge.Proofs.Tree.Plain

/-! # The printed source of a tree declares the classes of the tree

A named namespace has no end mark in source: it lasts until the next one. The classes found in printed
source are those of the tree, each in its namespace, as long as no namespace lies inside of another and
no class outside of all namespaces stands behind a named one.
-/

namespace ClassForge

open Token

mutual

/-- The full names of the classes of a statement, outer ones before inner ones. -/
def Stmt.classNames (scope : Scope) : Stmt → List ClassName
  | .space name body => Tree.classNamesIn ⟨some (spacePath name)⟩ body
  | .classDecl head body => scope.qualify head.name :: Tree.classNamesIn scope body
  | .method _ (some body) => Tree.classNamesIn scope body
  | _ => []

def Tree.classNamesIn (scope : Scope) : List Stmt → List ClassName
  | [] => []
  | stmt :: rest => stmt.classNames scope ++ Tree.classNamesIn scope rest

end

/-- The full names of all classes of a tree, in the order of the source. -/
def Tree.classNames (tree : Tree) : List ClassName :=
  Tree.classNamesIn {} tree

mutual

/-- Whether no namespace lies inside of another one. -/
def Stmt.isFlat (inside : Bool) : Stmt → Bool
  | .space _ body => !inside && Tree.isFlatIn true body
  | .classDecl _ body => Tree.isFlatIn inside body
  | .method _ (some body) => Tree.isFlatIn inside body
  | _ => true

def Tree.isFlatIn (inside : Bool) : List Stmt → Bool
  | [] => true
  | stmt :: rest => stmt.isFlat inside && Tree.isFlatIn inside rest

end

/-- Whether no namespace of the tree lies inside of another one. -/
def Tree.isFlat (tree : Tree) : Bool :=
  Tree.isFlatIn false tree

/-- What decides where a namespace has to end. -/
inductive Landmark where
  | namedSpace
  /-- A class outside of all namespaces. -/
  | globalClass
deriving DecidableEq, Repr

mutual

/-- The landmarks of a statement in the order of the source. -/
def Stmt.landmarks (inside : Bool) : Stmt → List Landmark
  | .space name body => (if name.isSome then [.namedSpace] else []) ++ Tree.landmarksIn true body
  | .classDecl _ body => (if inside then [] else [.globalClass]) ++ Tree.landmarksIn inside body
  | .method _ (some body) => Tree.landmarksIn inside body
  | _ => []

def Tree.landmarksIn (inside : Bool) : List Stmt → List Landmark
  | [] => []
  | stmt :: rest => stmt.landmarks inside ++ Tree.landmarksIn inside rest

end

/-- No class outside of all namespaces comes after a named namespace. -/
def Landmark.Ordered (marks : List Landmark) : Prop :=
  marks.Pairwise fun before after => ¬(before = .namedSpace ∧ after = .globalClass)

instance (marks : List Landmark) : Decidable (Landmark.Ordered marks) :=
  inferInstanceAs (Decidable (marks.Pairwise _))

/-- The landmarks of a tree in the order of the source. -/
def Tree.landmarks (tree : Tree) : List Landmark :=
  Tree.landmarksIn false tree

section Lines

variable {a b : String} {names : List String}

private theorem silent_indentation (depth : Nat) : Silent (indentation depth).toList := by
  rw [indentation, String.toList_ofList]
  induction 4 * depth with
  | zero => exact silent_nil
  | succ count ih =>
    rw [List.replicate_succ]
    exact (silent_gap (by decide)).append ih

private theorem passage_line {text : String} (phrase : Phrase a text.toList names b) (depth : Nat) :
    Passage a (sourceLine depth text).toList names b := by
  rw [sourceLine, String.toList_append, String.toList_append]
  exact (silent_indentation depth).then phrase '\n' (by decide)

private theorem silent_line {text : String} (quiet : Quiet text.toList) (depth : Nat) :
    Silent (sourceLine depth text).toList :=
  fun space => passage_line (quiet space) depth

/-- A head, and statements between braces. -/
private theorem passage_braces {head : String} {inner : List Char} {first rest : List String} {middle : String}
    (opening : Phrase a head.toList first middle) (body : Passage middle inner rest b) (depth : Nat) :
    Passage a ((sourceLine depth head).toList ++ (sourceLine depth "\x7b").toList ++ inner ++
      (sourceLine depth "\x7d").toList) (first ++ rest) b := by
  have brace := silent_line silent_brace.quiet depth
  have closing : Silent (sourceLine depth "\x7d").toList :=
    silent_line (quiet_of_isQuiet (by decide)) depth
  have whole := (((passage_line opening depth).append (brace middle)).append body).append (closing b)
  simpa using whole

end Lines

/-- The namespace of the scanner is that of the scope. -/
private def Agrees (scope : Scope) (space : String) : Prop :=
  ∀ short, qualify space short = (scope.qualify short).text

/-- The scanner is in the right namespace, or no class is left for which it matters. -/
private def Follows (scope : Scope) (space : String) (marks : List Landmark) : Prop :=
  Agrees scope space ∨ scope.inSpace = false ∧ .globalClass ∉ marks

/-- The namespace stays, unless there was another one on the way. -/
private def Leaves (scope : Scope) (space : String) (marks : List Landmark) (after : String) : Prop :=
  after = space ∨ scope.inSpace = false ∧ (after = "" ∨ .namedSpace ∈ marks)

private theorem agrees_global {scope : Scope} (outside : scope.path = []) : Agrees scope "" := by
  intro short
  apply String.toList_injective
  simp [qualify, Scope.qualify, outside, ClassName.text, ClassName.segments]

private theorem agrees_space {name : SourceName} (plain : name.isPlain = true) :
    Agrees ⟨some name.parts⟩ name.text := by
  intro short
  have named : name.text ≠ "" := by
    intro empty
    exact (SourceName.isWord_text plain).1 (by rw [empty]; rfl)
  rw [qualify, if_neg named, SourceName.text, ← Segment.join_concat (SourceName.parts_ne_nil plain)]
  rfl

/-- Behind a statement, the scanner is right for what comes next. -/
private theorem follows_after {scope : Scope} {space after : String} {front back : List Landmark}
    (ordered : Landmark.Ordered (front ++ back)) (follows : Follows scope space (front ++ back))
    (leaves : Leaves scope space front after) : Follows scope after back := by
  rcases leaves with rfl | ⟨outside, rfl | named⟩
  · rcases follows with agrees | ⟨outside, none⟩
    · exact .inl agrees
    · exact .inr ⟨outside, fun member => none (List.mem_append_right _ member)⟩
  · have path : scope.path = [] := by
      rw [Scope.inSpace, Option.isSome_eq_false_iff, Option.isNone_iff_eq_none] at outside
      rw [Scope.path, outside]
      rfl
    exact .inl (agrees_global path)
  · refine .inr ⟨outside, fun member => ?_⟩
    exact (List.pairwise_append.mp ordered).2.2 _ named _ member ⟨rfl, rfl⟩

private theorem Leaves.trans {scope : Scope} {space middle after : String} {front back : List Landmark}
    (first : Leaves scope space front middle) (second : Leaves scope middle back after) :
    Leaves scope space (front ++ back) after := by
  rcases second with rfl | ⟨outside, global | named⟩
  · rcases first with same | ⟨outside, global | named⟩
    · exact .inl same
    · exact .inr ⟨outside, .inl global⟩
    · exact .inr ⟨outside, .inr (List.mem_append_left _ named)⟩
  · exact .inr ⟨outside, .inl global⟩
  · exact .inr ⟨outside, .inr (List.mem_append_right _ named)⟩

/-- What the printed lines of statements declare, from a scope that the scanner follows. -/
private def Declares (scope : Scope) (space : String) (marks : List Landmark) (text : List Char)
    (names : List ClassName) : Prop :=
  ∃ after, Passage space text (names.map ClassName.text) after ∧ Leaves scope space marks after

private theorem declares_silent {scope : Scope} {space : String} {text : List Char} (silent : Silent text) :
    Declares scope space [] text [] :=
  ⟨space, silent space, .inl rfl⟩

/-- A class that is declared where it matters is in the right namespace. -/
private theorem agrees_of_classDecl {scope : Scope} {space : String} {rest : List Landmark}
    (follows : Follows scope space ((if scope.inSpace then [] else [.globalClass]) ++ rest)) :
    Agrees scope space := by
  rcases follows with agrees | ⟨outside, none⟩
  · exact agrees
  · rw [outside] at none
    exact absurd (List.mem_append_left _ List.mem_cons_self) none

mutual

private theorem declares_stmt : (stmt : Stmt) → (depth : Nat) → (scope : Scope) → (space : String) →
    stmt.isPlain = true → stmt.isFlat scope.inSpace = true →
    Landmark.Ordered (stmt.landmarks scope.inSpace) →
    Follows scope space (stmt.landmarks scope.inSpace) →
    Declares scope space (stmt.landmarks scope.inSpace) (Tree.stmtSource depth stmt).toList
      (stmt.classNames scope)
  | .space (some name) body, depth, scope, space, plain, flat, ordered, _ => by
    rw [Stmt.isPlain, Bool.and_eq_true] at plain
    rw [Stmt.isFlat, Bool.and_eq_true, Bool.not_eq_true'] at flat
    rw [Stmt.landmarks] at ordered ⊢
    obtain ⟨after, inner, leaves⟩ := declares_body body depth true ⟨some name.parts⟩ name.text plain.2
      flat.2 (List.pairwise_append.mp ordered).2.1 (.inl (agrees_space plain.1))
    obtain rfl : after = name.text := leaves.resolve_right fun other => Bool.noConfusion other.1
    have head := (SourceName.isWord_text plain.1).phrase_space (SourceName.text_notMem_reserved plain.1) space
    rw [SourceName.trim_text plain.1] at head
    have line : Phrase space ("namespace " ++ name.text ++ ";").toList [] name.text := by
      rw [String.toList_append, String.toList_append]
      exact head.tail (tail_of_isTail (by decide))
    have blank : Silent (if body.isEmpty then "" else "\n").toList := by
      split <;> exact silent_of_isLead (by decide)
    refine ⟨name.text, ?_, .inr ⟨flat.1, .inr (List.mem_append_left _ List.mem_cons_self)⟩⟩
    rw [Tree.stmtSource, String.toList_append, String.toList_append, Stmt.classNames]
    exact ((passage_line line depth).append (blank name.text)).append inner
  | .space none body, depth, scope, space, plain, flat, ordered, _ => by
    rw [Stmt.isPlain, Bool.and_eq_true] at plain
    rw [Stmt.isFlat, Bool.and_eq_true, Bool.not_eq_true'] at flat
    rw [Stmt.landmarks] at ordered ⊢
    obtain ⟨after, inner, leaves⟩ := declares_body body (depth + 1) true ⟨some []⟩ "" plain.2 flat.2
      (List.pairwise_append.mp ordered).2.1 (.inl (agrees_global rfl))
    obtain rfl : after = "" := leaves.resolve_right fun other => Bool.noConfusion other.1
    refine ⟨"", ?_, .inr ⟨flat.1, .inl rfl⟩⟩
    have head : Phrase space "namespace \x7b".toList [] "" := by
      simpa using (passage_globalSpace space).phrase (quiet_nil "")
    have closing := silent_line (quiet_of_isQuiet (by decide : isQuiet "\x7d".toList = true)) depth
    rw [Tree.stmtSource, String.toList_append, String.toList_append, Stmt.classNames]
    simpa [spacePath] using ((passage_line head depth).append inner).append (closing "")
  | .classDecl head body, depth, scope, space, plain, flat, ordered, follows => by
    rw [Stmt.isPlain, Bool.and_eq_true] at plain
    rw [Stmt.isFlat] at flat
    rw [Stmt.landmarks] at ordered follows ⊢
    have agrees := agrees_of_classDecl follows
    obtain ⟨after, inner, leaves⟩ := declares_body body (depth + 1) true scope space plain.2 flat
      (List.pairwise_append.mp ordered).2.1 (.inl agrees)
    refine ⟨after, ?_, Leaves.trans (.inl rfl) leaves⟩
    rw [Tree.stmtSource, String.toList_append, String.toList_append, String.toList_append,
      Stmt.classNames, List.map_cons, ← agrees head.name]
    exact passage_braces (ClassHead.phrase plain.1 space) inner depth
  | .method head none, depth, scope, space, plain, _, _, _ => by
    rw [Tree.stmtSource]
    apply declares_silent
    apply silent_line
    rw [String.toList_append]
    exact (MethodHead.quiet plain).tail (tail_of_isTail (by decide))
  | .method head (some body), depth, scope, space, plain, flat, ordered, follows => by
    rw [Stmt.isPlain, Bool.and_eq_true] at plain
    rw [Stmt.isFlat] at flat
    rw [Stmt.landmarks] at ordered follows ⊢
    obtain ⟨after, inner, leaves⟩ := declares_body body (depth + 1) true scope space plain.2 flat ordered
      follows
    refine ⟨after, ?_, leaves⟩
    rw [Tree.stmtSource, String.toList_append, String.toList_append, String.toList_append,
      Stmt.classNames]
    exact passage_braces (MethodHead.quiet plain.1 space) inner depth
  | .property value, depth, scope, space, plain, _, _, _ => by
    rw [Tree.stmtSource]
    exact declares_silent (silent_line (Property.quiet plain) depth)
  | .constant value, depth, scope, space, plain, _, _, _ => by
    rw [Tree.stmtSource]
    exact declares_silent (silent_line (Constant.quiet plain) depth)
  | .throw value, depth, scope, space, plain, _, _, _ => by
    rw [Tree.stmtSource]
    apply declares_silent
    apply silent_line
    rw [String.toList_append, String.toList_append]
    exact ((silent_of_isLead (by decide)).quietly (value.quiet plain)).tail (tail_of_isTail (by decide))
  | .expr value, depth, scope, space, plain, _, _, _ => by
    rw [Tree.stmtSource]
    apply declares_silent
    apply silent_line
    rw [String.toList_append]
    exact (value.quiet plain).tail (tail_of_isTail (by decide))

private theorem declares_body : (body : List Stmt) → (depth : Nat) → (first : Bool) → (scope : Scope) →
    (space : String) → Tree.isPlain body = true → Tree.isFlatIn scope.inSpace body = true →
    Landmark.Ordered (Tree.landmarksIn scope.inSpace body) →
    Follows scope space (Tree.landmarksIn scope.inSpace body) →
    Declares scope space (Tree.landmarksIn scope.inSpace body) (Tree.bodySource depth first body).toList
      (Tree.classNamesIn scope body)
  | [], _, _, _, _, _, _, _, _ => declares_silent silent_nil
  | stmt :: rest, depth, first, scope, space, plain, flat, ordered, follows => by
    rw [Tree.isPlain, Bool.and_eq_true] at plain
    rw [Tree.isFlatIn, Bool.and_eq_true] at flat
    rw [Tree.landmarksIn] at ordered follows ⊢
    have start : Follows scope space (stmt.landmarks scope.inSpace) := by
      rcases follows with agrees | ⟨outside, none⟩
      · exact .inl agrees
      · exact .inr ⟨outside, fun member => none (List.mem_append_left _ member)⟩
    obtain ⟨middle, front, leaves⟩ := declares_stmt stmt depth scope space plain.1 flat.1
      (List.pairwise_append.mp ordered).1 start
    obtain ⟨after, back, left⟩ := declares_body rest depth false scope middle plain.2 flat.2
      (List.pairwise_append.mp ordered).2.1 (follows_after ordered follows leaves)
    refine ⟨after, ?_, leaves.trans left⟩
    rw [Tree.bodySource, String.toList_append, String.toList_append, Tree.classNamesIn, List.map_append]
    refine Passage.append (Passage.append (m := []) ?_ front) back
    split <;> exact silent_of_isLead (by decide) _

end

/-- The printed source of a tree declares the classes of the tree, in order and each in its namespace:
if all names are plain, no namespace lies inside of another one, and no class outside of all namespaces
comes after a named namespace. -/
theorem declaredClasses_source (tree : Tree) (plain : Tree.isPlain tree = true)
    (flat : tree.isFlat = true) (ordered : Landmark.Ordered tree.landmarks) :
    declaredClasses tree.source = tree.classNames.map ClassName.text := by
  obtain ⟨after, passage, _⟩ := declares_body tree 0 true {} "" plain flat ordered (.inl (agrees_global rfl))
  exact passage.declaredFrom_eq

/-- A class outside of all namespaces, one inside of a method of another one, and one in the global
namespace, among texts that look like declarations. -/
def scatteredTree : Tree :=
  [.classDecl ⟨"First", false, true, some ⟨["Exception"], true⟩, []⟩
      [.constant ⟨"KIND", .str "class Fake \x7b namespace Other; '"⟩],
    .space (some ⟨["App", "Model"], false⟩)
      [.classDecl ⟨"User", true, false, none, [⟨["Countable"], false⟩]⟩
        [.property ⟨"ratio", .priv, false, some (.map [("new trait", .float ⟨4602678819172646912⟩)])⟩,
          .method ⟨"make", .pub, true, false, false, false, [⟨"classes", false, some .array, none⟩]⟩
            (some [.classDecl ⟨"Inner", false, false, none, []⟩ [],
              .throw (.new ⟨["Failure"], true⟩ [.literal (.str "interface")])])]],
    .space none [.classDecl ⟨"Last", false, false, none, []⟩ []]]

theorem declaredClasses_source_scattered :
    Tree.isPlain scatteredTree = true ∧ scatteredTree.isFlat = true ∧
      Landmark.Ordered scatteredTree.landmarks ∧
      declaredClasses scatteredTree.source = ["First", "App\\Model\\User", "App\\Model\\Inner", "Last"] := by
  have plain : Tree.isPlain scatteredTree = true := by decide +kernel
  have flat : scatteredTree.isFlat = true := by decide +kernel
  have ordered : Landmark.Ordered scatteredTree.landmarks := by decide +kernel
  refine ⟨plain, flat, ordered, ?_⟩
  rw [declaredClasses_source scatteredTree plain flat ordered]
  decide +kernel

end ClassForge
