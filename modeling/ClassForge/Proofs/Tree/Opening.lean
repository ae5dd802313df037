import ClassForge.Blueprint.Build
import ClassForge.Proofs.Pass.SingleClass
import ClassForge.Proofs.Source.Identifiers
import ClassForge.Proofs.Source.Joining
import ClassForge.Tree.Source

/-! # How the source of a single class begins

The source of a class in its namespace names the namespace, then the class. Nothing that stands behind
the name of the class can change how it is read, so the class is the first that the source declares,
with one exception: right behind a namespace called `new`, the word `class` is taken to make an object.
-/

namespace ClassForge

open Token

/-- What the declaration of a class says behind its name. -/
def ClassHead.clauses (head : ClassHead) : String :=
  head.parent.elim "" (fun parent => " extends " ++ parent.source) ++
    if head.interfaces = [] then ""
    else " implements " ++ commaSeparated (head.interfaces.map SourceName.source)

/-- The word `class` stands right behind a namespace called `new`. -/
def ClassHead.FollowsNew (head : ClassHead) (path : List String) : Prop :=
  path = ["new"] ∧ head.isAbstract = false ∧ head.isFinal = false

instance (head : ClassHead) (path : List String) : Decidable (head.FollowsNew path) :=
  inferInstanceAs (Decidable (_ ∧ _))

namespace Tree

/-- The source of a single class up to its name. -/
def opening (path : List String) (head : ClassHead) : String :=
  (if path = [] then "" else "namespace " ++ Segment.join path ++ ";\n\n") ++
    (if head.isAbstract then "abstract " else "") ++ (if head.isFinal then "final " else "") ++
    "class " ++ head.name

/-- The source of a single class from behind its name. -/
def remainder (head : ClassHead) (body : List Stmt) : String :=
  head.clauses ++ "\n" ++ sourceLine 0 "\x7b" ++ bodySource 1 true body ++ sourceLine 0 "\x7d"

/-- The words up to the name of the class. -/
def openingTokens (path : List String) (head : ClassHead) : List Token :=
  (if path = [] then [] else [word "namespace", word (Segment.join path)]) ++
    (if head.isAbstract then [word "abstract"] else []) ++ (if head.isFinal then [word "final"] else []) ++
    [word "class", word head.name]

variable {name : ClassName} {head : ClassHead} {body : List Stmt}

theorem source_inSpace (name : ClassName) (head : ClassHead) (body : List Stmt) :
    source (Blueprint.inSpace name (.classDecl head body)) = opening name.path head ++ remainder head body := by
  have line (text : String) : sourceLine 0 text = text ++ "\n" := by
    apply String.toList_injective
    simp [sourceLine, indentation]
  have declared : head.source = (if head.isAbstract then "abstract " else "") ++
      (if head.isFinal then "final " else "") ++ "class " ++ head.name ++ head.clauses := by
    rw [ClassHead.source, ClassHead.clauses]
    cases head.parent <;> simp [String.append_assoc]
  rw [Blueprint.inSpace_eq]
  apply String.toList_injective
  split
  · rename_i global
    simp [source, bodySource, stmtSource, opening, remainder, global, line, declared]
  · rename_i named
    simp [source, bodySource, stmtSource, opening, remainder, named, line, declared, SourceName.text]

section Scanning

variable {path : List String} (valid : ∀ segment ∈ path, Identifier.isValid segment = true)
include valid

theorem spells_opening (named : IsWord head.name) :
    Spells (opening path head).toList (openingTokens path head) := by
  have keyword : IsWord "class" := isWord_of_all (by decide) (by decide)
  have declared := joinable_spells.join (by decide : isGap ' ' = true) keyword.spells named.spells
  have flagged := joinable_spells.optional head.isAbstract
    (by decide : isLead "abstract ".toList = true ∧ _ = [word "abstract"])
    (joinable_spells.optional head.isFinal (by decide : isLead "final ".toList = true ∧ _ = [word "final"]) declared)
  by_cases global : path = []
  · simpa [opening, openingTokens, global] using flagged
  · have keyword : IsWord "namespace" := isWord_of_all (by decide) (by decide)
    have spaced := joinable_spells.join (by decide : isGap ';' = true) (Identifier.isWord_join global valid).spells
      (joinable_spells.lead (by decide : isLead "\n\n".toList = true ∧ _ = []) flagged)
    have whole := joinable_spells.join (by decide : isGap ' ' = true) keyword.spells spaced
    simpa [opening, openingTokens, global] using whole

/-- The name of the class ends before anything that follows. -/
theorem scan_source_inSpace {short : String} (named : IsWord head.name) :
    scan (source (Blueprint.inSpace ⟨path, short⟩ (.classDecl head body))).toList =
      openingTokens path head ++ scan (remainder head body).toList := by
  have first : ∃ gap, isGap gap = true ∧ (remainder head body).toList.head? = some gap := by
    rw [remainder, ClassHead.clauses]
    cases head.parent with
    | some parent => exact ⟨' ', by decide, by simp⟩
    | none =>
      by_cases plain : head.interfaces = []
      · exact ⟨'\n', by decide, by simp [plain]⟩
      · exact ⟨' ', by decide, by simp [plain]⟩
  obtain ⟨gap, passed, begins⟩ := first
  obtain ⟨rest, begins⟩ := List.head?_eq_some_iff.mp begins
  rw [source_inSpace, String.toList_append, begins, spells_opening valid named gap rest passed, scan_gap passed]

private theorem qualify_join (short : String) :
    qualify (Segment.join path) short = (⟨path, short⟩ : ClassName).text := by
  by_cases global : path = []
  · apply String.toList_injective
    simp [global, qualify, ClassName.text, ClassName.segments, Segment.join]
  · have filled : Segment.join path ≠ "" := by
      intro empty
      exact (Identifier.isWord_join global valid).1 (by rw [empty]; rfl)
    rw [qualify, if_neg filled, ← Segment.join_concat global]
    rfl

/-- The word before `class`. -/
private def beforeClass (path : List String) (head : ClassHead) : Option String :=
  if head.isFinal then some "final" else if head.isAbstract then some "abstract"
  else if path = [] then none else some (Segment.join path)

private theorem beforeClass_eq_new_iff : beforeClass path head = some "new" ↔ head.FollowsNew path := by
  rw [beforeClass, ClassHead.FollowsNew]
  cases head.isFinal with
  | true => simp
  | false =>
    cases head.isAbstract with
    | true => simp
    | false =>
      by_cases global : path = []
      · simp [global]
      · have single : Segment.join path = "new" ↔ path = ["new"] := by
          constructor
          · intro same
            exact Identifier.eq_singleton_of_join global valid same (by decide)
          · rintro rfl
            rfl
        simp [global, single]

private theorem declaredFrom_beforeClass (rest : List Token) :
    declaredFrom "" none (openingTokens path head ++ rest) =
      declaredFrom (Segment.join path) (beforeClass path head) (word "class" :: word head.name :: rest) := by
  have spaced (tokens : List Token) :
      declaredFrom "" none ((if path = [] then [] else [word "namespace", word (Segment.join path)]) ++ tokens) =
        declaredFrom (Segment.join path) (if path = [] then none else some (Segment.join path)) tokens := by
    by_cases global : path = []
    · simp [global, Segment.join]
    · have read := (Identifier.isWord_join global valid).declaredFrom_space "" none tokens
      rw [Identifier.trim_join global valid] at read
      rw [if_neg global, if_neg global]
      exact read
  rw [openingTokens, List.append_assoc, List.append_assoc, List.append_assoc, spaced, beforeClass]
  cases head.isAbstract <;> cases head.isFinal <;> simp [declaredFrom_skip, word, startsSpace, declares]

/-- A single class is the first that its source declares, unless it is taken for an object. -/
theorem declaredClasses_inSpace {short : String} (named : IsWord head.name) :
    declaredClasses (source (Blueprint.inSpace ⟨path, short⟩ (.classDecl head body))) =
      if head.FollowsNew path then
        declaredFrom "new" (some "class") (word head.name :: scan (remainder head body).toList)
      else (⟨path, head.name⟩ : ClassName).text ::
        declaredFrom (Segment.join path) (some head.name) (scan (remainder head body).toList) := by
  rw [declaredClasses, scan_source_inSpace valid named, declaredFrom_beforeClass valid]
  rw [declaredFrom_declares (by decide)]
  by_cases muted : head.FollowsNew path
  · rw [if_pos ((beforeClass_eq_new_iff valid).mpr muted), if_pos muted, muted.1]
    rfl
  · rw [if_neg (mt (beforeClass_eq_new_iff valid).mp muted), if_neg muted, ← qualify_join valid]
    rfl

end Scanning

end Tree

end ClassForge
