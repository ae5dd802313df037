import ClassForge.Proofs.Blueprint.Building
import ClassForge.Proofs.Tree.Opening
import ClassForge.Proofs.Tree.Printing
import ClassForge.Registry.Basic

/-! # What is recorded of a built class

The search for declarations sees words only, without the `$` of a property or the parentheses of a
method. A member that is called like a keyword is therefore taken for that keyword, and the word behind it
for a declared class. Here it is said when this happens to a class that was built from identifiers, and
when that class itself is missed.
-/

namespace ClassForge

open Token

/-! ## The names of a blueprint -/

def ParameterHint.names : ParameterHint → List String
  | .array => []
  | .callable => []
  | .named name => name.segments

def ParameterDefault.names : ParameterDefault → List String
  | .literal _ => []
  | .constant name => Segment.split (Segment.trim name)

def ParameterBlueprint.names (parameter : ParameterBlueprint) : List String :=
  parameter.name ::
    (parameter.hint.toList.flatMap ParameterHint.names ++ parameter.fallback.toList.flatMap ParameterDefault.names)

def MethodBlueprint.names (method : MethodBlueprint) : List String :=
  method.name :: method.parameters.flatMap ParameterBlueprint.names

/-- All names of a described class, qualified ones by their segments. -/
def Blueprint.names (blueprint : Blueprint) : List String :=
  blueprint.name.segments ++ (blueprint.parent.toList ++ blueprint.interfaces).flatMap ClassName.segments ++
    blueprint.constants.entries.map Prod.fst ++ blueprint.properties.map PropertyBlueprint.name ++
    blueprint.methods.flatMap MethodBlueprint.names

def ParameterDefault.memberNames : ParameterDefault → List String
  | .literal _ => []
  | .constant name => [Segment.trim name]

def ParameterBlueprint.memberNames (parameter : ParameterBlueprint) : List String :=
  parameter.name :: parameter.fallback.toList.flatMap ParameterDefault.memberNames

def MethodBlueprint.memberNames (method : MethodBlueprint) : List String :=
  method.name :: method.parameters.flatMap ParameterBlueprint.memberNames

/-- The names that are printed without a separator in front: of members, of parameters, and of constants
that are defaults. -/
def Blueprint.memberNames (blueprint : Blueprint) : List String :=
  blueprint.constants.entries.map Prod.fst ++ blueprint.properties.map PropertyBlueprint.name ++
    blueprint.methods.flatMap MethodBlueprint.memberNames

/-! ## The words of members -/

/-- The words of a constant, of a property, or of a method without statements. -/
def Stmt.memberTokens : Stmt → List Token
  | .constant value => value.tokens
  | .property value => value.tokens
  | .method head body => head.tokens ++ (if body.isSome then [brace] else [])
  | .space .. | .classDecl .. | .throw .. | .expr .. => []

namespace Token

/-- The text spells the tokens, and those of them that are reserved are among the given words. -/
def Writes (words : List String) (text : List Char) (tokens : List Token) : Prop :=
  Spells text tokens ∧ ∀ token ∈ tokens, token.text ∈ reserved → token.text ∈ words

theorem joinable_writes (words : List String) : Joinable (Writes words) where
  words checked := by
    refine ⟨joinable_spells.words checked, fun token member listed => ?_⟩
    have unlisted := List.all_eq_true.mp (Bool.and_eq_true_iff.mp checked).2 token member
    simp [listed] at unlisted
  quote text := ⟨joinable_spells.quote text, fun token member => absurd member List.not_mem_nil⟩
  join passed front behind := by
    refine ⟨joinable_spells.join passed front.1 behind.1, fun token member => ?_⟩
    rcases List.mem_append.mp member with member | member
    · exact front.2 token member
    · exact behind.2 token member

theorem IsWord.writes {words : List String} {text : String} (shape : IsWord text)
    (known : text ∈ reserved → text ∈ words) : Writes words text.toList [word text] := by
  refine ⟨shape.spells, fun token member listed => ?_⟩
  rw [List.mem_singleton.mp member] at listed ⊢
  exact known listed

/-- A line ends in a gap. -/
theorem Spells.line {text : String} {tokens : List Token} (spelled : Spells text.toList tokens) (depth : Nat)
    (rest : List Char) : scan ((sourceLine depth text).toList ++ rest) = tokens ++ scan rest := by
  have blanks (count : Nat) (chars : List Char) : scan (List.replicate count ' ' ++ chars) = scan chars := by
    induction count with
    | zero => rfl
    | succ count ih => rw [List.replicate_succ, List.cons_append, scan_gap (by decide), ih]
  have shown := spelled '\n' rest (by decide)
  simp only [sourceLine, indentation, String.toList_append, String.toList_ofList, List.append_assoc]
  rw [blanks]
  exact shown

private theorem scan_braceLine (depth : Nat) (rest : List Char) :
    scan ((sourceLine depth "\x7b").toList ++ rest) = brace :: scan rest := by
  have spelled : Spells "\x7b".toList [brace] := by
    intro gap rest passed
    rw [show "\x7b".toList = ['\x7b'] from rfl, List.cons_append, scan_brace, List.nil_append, scan_gap passed]
    rfl
  exact spelled.line depth rest

private theorem scan_closingLine (depth : Nat) (rest : List Char) :
    scan ((sourceLine depth "\x7d").toList ++ rest) = scan rest := by
  have spelled : Spells "\x7d".toList [] := joinable_spells.words (by decide)
  exact spelled.line depth rest

end Token

private theorem ClassName.writes_toAbsolute {name : ClassName}
    (valid : ∀ segment ∈ name.segments, Identifier.isValid segment = true) (words : List String) :
    Writes words name.toAbsolute.source.toList [word name.toAbsolute.source] := by
  have shape : IsWord name.toAbsolute.source := SourceName.isWord_source (List.concat_ne_nil _ _) valid
  apply shape.writes
  intro listed
  exact absurd listed (SourceName.source_notMem_reserved_of_absolute rfl)

section Members

variable {words : List String}

private theorem SourceName.writes_ofText {text : String} {name : SourceName} (read : ofText text = .ok name)
    (valid : ∀ part ∈ Segment.split (Segment.trim text), Identifier.isValid part = true)
    (listed : Segment.trim text ∈ words) : Writes words name.source.toList [word name.source] := by
  rw [ofText] at read
  obtain ⟨segments, parsed, made⟩ := bind_eq_ok read
  obtain ⟨-, -, same⟩ := Segment.parse_eq_ok_iff.mp parsed
  obtain rfl := Except.ok.inj made
  have nonempty := Segment.split_ne_nil (Segment.trim text)
  rw [← same] at valid nonempty
  apply (isWord_source nonempty valid).writes
  intro reserved
  cases absolute : text.toList.head? == some separator with
  | true =>
    rw [absolute] at reserved
    exact absurd reserved (source_notMem_reserved_of_absolute rfl)
  | false =>
    have bare : Segment.join segments = Segment.trim text := by rw [same, Segment.join_split]
    rw [← bare] at listed
    exact listed

private theorem ParameterDefault.writes {value : ParameterDefault} {expr : Expr} (built : value.build = .ok expr)
    (valid : ∀ name ∈ value.names, Identifier.isValid name = true) (listed : ∀ name ∈ value.memberNames, name ∈ words) :
    Writes words expr.source.toList expr.tokens := by
  cases value with
  | literal value =>
    obtain rfl := Except.ok.inj built
    exact Literal.printed (joinable_writes words) value
  | constant text =>
    cases read : SourceName.ofText text with
    | error =>
      rw [build, read] at built
      cases built
    | ok name =>
      rw [build, read] at built
      obtain rfl := Except.ok.inj built
      exact SourceName.writes_ofText read valid (listed _ (List.mem_singleton_self _))

private theorem ParameterBlueprint.writes {parameter : ParameterBlueprint} {param : Param}
    (built : parameter.build = .ok param) (valid : ∀ name ∈ parameter.names, Identifier.isValid name = true)
    (listed : ∀ name ∈ parameter.memberNames, name ∈ words) : Writes words param.source.toList param.tokens := by
  simp only [names, memberNames, List.mem_cons, List.mem_append, List.mem_flatMap, Option.mem_toList,
    forall_eq_or_imp] at valid listed
  obtain ⟨value, valued, rfl⟩ := build_eq_ok built
  apply Param.printed (joinable_writes words)
  · exact (Identifier.isWord_of_isValid valid.1).writes fun _ => listed.1
  · intro type hinted
    obtain ⟨kind, given, rfl⟩ := Option.map_eq_some_iff.mp hinted
    cases kind with
    | array => exact (joinable_writes words).words (by decide)
    | callable => exact (joinable_writes words).words (by decide)
    | named name =>
      exact ClassName.writes_toAbsolute (fun segment member => valid.2 segment (.inl ⟨_, given, member⟩)) words
  · intro expr chosen
    obtain rfl : value = some expr := chosen
    cases given : parameter.fallback with
    | none =>
      rw [given] at valued
      cases valued
    | some default =>
      rw [given, Option.rel_some_some] at valued
      exact ParameterDefault.writes valued (fun name member => valid.2 name (.inr ⟨_, given, member⟩))
        fun name member => listed.2 name ⟨_, given, member⟩

/-- The lines of a member show its words, and those that are reserved are among the given ones. -/
private def Stmt.Shows (words : List String) (stmt : Stmt) : Prop :=
  (∀ depth rest, scan ((Tree.stmtSource depth stmt).toList ++ rest) = stmt.memberTokens ++ scan rest) ∧
    ∀ token ∈ stmt.memberTokens, token.text ∈ reserved → token.text ∈ words

private theorem shows_constant {name : String} (value : Literal) (valid : Identifier.isValid name = true)
    (listed : name ∈ words) : Stmt.Shows words (.constant ⟨name, value⟩) := by
  have named := (Identifier.isWord_of_isValid valid).writes fun _ => listed
  have shown : Writes words (Constant.source ⟨name, value⟩).toList (Constant.tokens ⟨name, value⟩) :=
    Constant.printed (joinable_writes words) named
  exact ⟨shown.1.line, shown.2⟩

private theorem shows_property {property : PropertyBlueprint} (valid : Identifier.isValid property.name = true)
    (listed : property.name ∈ words) : Stmt.Shows words (.property property.build) := by
  have named := (Identifier.isWord_of_isValid valid).writes fun _ => listed
  have shown : Writes words property.build.source.toList property.build.tokens :=
    Property.printed (joinable_writes words) named
  exact ⟨shown.1.line, shown.2⟩

private theorem shows_head {head : MethodHead} (shown : Writes words head.source.toList head.tokens)
    (announced : Bool) : Stmt.Shows words (.method head (if announced then none else some [])) := by
  cases announced with
  | true =>
    have ended := (joinable_writes words).tail (by decide : isTail ";".toList = true ∧ _ = []) shown
    rw [List.append_nil, ← String.toList_append] at ended
    refine ⟨fun depth rest => ?_, by simpa [Stmt.memberTokens] using shown.2⟩
    simpa [Tree.stmtSource, Stmt.memberTokens] using ended.1.line depth rest
  | false =>
    constructor
    · intro depth rest
      simp only [Bool.false_eq_true, if_false, Tree.stmtSource, Tree.bodySource, String.toList_append,
        List.append_assoc]
      rw [shown.1.line, scan_braceLine, String.toList_empty, List.nil_append, scan_closingLine]
      simp [Stmt.memberTokens]
    · intro token member listed
      rcases List.mem_append.mp member with member | member
      · exact shown.2 token member listed
      · rw [List.mem_singleton.mp member] at listed
        exact absurd listed (by decide)

private theorem shows_method {method : MethodBlueprint} {stmt : Stmt} (built : method.build = .ok stmt)
    (valid : ∀ name ∈ method.names, Identifier.isValid name = true)
    (listed : ∀ name ∈ method.memberNames, name ∈ words) : stmt.Shows words := by
  simp only [MethodBlueprint.names, MethodBlueprint.memberNames, List.mem_cons, List.mem_flatMap,
    forall_eq_or_imp] at valid listed
  obtain ⟨params, read, rfl⟩ := MethodBlueprint.build_eq_ok built
  apply shows_head
  apply MethodHead.printed (joinable_writes words)
  · exact (Identifier.isWord_of_isValid valid.1).writes fun _ => listed.1
  · intro param member
    obtain ⟨parameter, described, built⟩ := exists_of_mem_mapM read member
    exact ParameterBlueprint.writes built (fun name inside => valid.2 name ⟨_, described, inside⟩)
      fun name inside => listed.2 name ⟨_, described, inside⟩

/-- Each member of a built class shows its words. -/
private theorem Blueprint.shows_members {blueprint : Blueprint} {methods : List Stmt}
    (built : blueprint.methods.mapM MethodBlueprint.build = .ok methods)
    (valid : ∀ name ∈ blueprint.names, Identifier.isValid name = true) :
    ∀ stmt ∈ blueprint.fixedMembers ++ methods, stmt.Shows blueprint.memberNames := by
  simp only [names, List.mem_append, List.mem_map, List.mem_flatMap] at valid
  intro stmt member
  rcases List.mem_append.mp member with member | member
  · rcases List.mem_append.mp member with member | member
    · obtain ⟨⟨name, value⟩, entered, rfl⟩ := List.mem_map.mp member
      apply shows_constant
      · exact valid name (.inl (.inl (.inr ⟨_, entered, rfl⟩)))
      · simp only [memberNames, List.mem_append, List.mem_map]
        exact .inl (.inl ⟨_, entered, rfl⟩)
    · obtain ⟨property, described, rfl⟩ := List.mem_map.mp member
      apply shows_property
      · exact valid property.name (.inl (.inr ⟨_, described, rfl⟩))
      · simp only [memberNames, List.mem_append, List.mem_map]
        exact .inl (.inr ⟨_, described, rfl⟩)
  · obtain ⟨method, described, made⟩ := exists_of_mem_mapM built member
    apply shows_method made
    · intro name inside
      exact valid name (.inr ⟨_, described, inside⟩)
    · intro name inside
      exact List.mem_append_right _ (List.mem_flatMap.mpr ⟨_, described, inside⟩)

private theorem scan_bodySource {body : List Stmt} (shows : ∀ stmt ∈ body, stmt.Shows words) (depth : Nat)
    (first : Bool) (rest : List Char) :
    scan ((Tree.bodySource (depth + 1) first body).toList ++ rest) =
      body.flatMap Stmt.memberTokens ++ scan rest := by
  induction body generalizing first with
  | nil => simp [Tree.bodySource]
  | cons stmt others ih =>
    have start := (shows stmt List.mem_cons_self).1
    have later := ih (fun stmt member => shows stmt (List.mem_cons_of_mem _ member)) false
    rw [Tree.bodySource, if_neg (by simp), String.empty_append, String.toList_append, List.append_assoc, start,
      later, List.flatMap_cons, List.append_assoc]

end Members

/-! ## The words of a built class -/

/-- What stands between the name of a class and its brace. -/
def ClassHead.clauseTokens (head : ClassHead) : List Token :=
  head.parent.toList.flatMap (fun parent => [word "extends", word parent.source]) ++
    (if head.interfaces = [] then []
      else word "implements" :: head.interfaces.flatMap fun name => [word name.source])

private theorem Blueprint.writes_clauses {blueprint : Blueprint}
    (valid : ∀ name ∈ blueprint.names, Identifier.isValid name = true) :
    Writes [] blueprint.head.clauses.toList blueprint.head.clauseTokens := by
  have joinable := joinable_writes []
  have named : ∀ name ∈ blueprint.parent.toList ++ blueprint.interfaces,
      Writes [] name.toAbsolute.source.toList [word name.toAbsolute.source] := by
    intro name member
    apply ClassName.writes_toAbsolute
    intro segment inside
    apply valid
    simp only [names, List.mem_append]
    exact .inl (.inl (.inl (.inr (List.mem_flatMap.mpr ⟨name, member, inside⟩))))
  have front : Writes [] (blueprint.head.parent.elim "" fun parent => " extends " ++ parent.source).toList
      (blueprint.head.parent.toList.flatMap fun parent => [word "extends", word parent.source]) := by
    cases parent : blueprint.parent with
    | none => simpa [head, parent] using joinable.nil
    | some name =>
      have shown := named name (by simp [parent])
      simpa [head, parent] using
        joinable.lead (by decide : isLead " extends ".toList = true ∧ _ = [word "extends"]) shown
  rw [ClassHead.clauses, ClassHead.clauseTokens, String.toList_append]
  by_cases alone : blueprint.head.interfaces = []
  · simpa [alone] using front
  · have listed : Writes [] (commaSeparated (blueprint.head.interfaces.map SourceName.source)).toList
        (blueprint.head.interfaces.flatMap fun name => [word name.source]) := by
      apply printed_commaSeparated joinable
      intro name member
      obtain ⟨described, inside, rfl⟩ := List.mem_map.mp member
      exact named described (List.mem_append_right _ inside)
    have whole := joinable.glue (by decide : isGlue " implements ".toList = true ∧ _ = [word "implements"])
      front listed
    simpa [alone] using whole

/-- Behind its name, a class shows its clauses, a brace, and its members. -/
private theorem Blueprint.scan_remainder {blueprint : Blueprint} {members : List Stmt} {words : List String}
    (valid : ∀ name ∈ blueprint.names, Identifier.isValid name = true)
    (shows : ∀ stmt ∈ members, stmt.Shows words) :
    scan (Tree.remainder blueprint.head members).toList =
      blueprint.head.clauseTokens ++ brace :: members.flatMap Stmt.memberTokens := by
  have clauses := (writes_clauses valid).1 '\n'
  have closing := scan_closingLine 0 []
  rw [List.append_nil, scan_nil] at closing
  simp only [Tree.remainder, String.toList_append, List.append_assoc]
  rw [show "\n".toList = ['\n'] from rfl, List.singleton_append, clauses _ (by decide), scan_braceLine,
    scan_bodySource shows, closing, List.append_nil]

/-! ## Tokens that declare nothing -/

namespace Token

theorem text_mem_reserved_of_declares {token : Token} (declaring : token.declares = true) : token.text ∈ reserved := by
  simp only [declares, Bool.and_eq_true, List.contains_eq_mem, decide_eq_true_eq] at declaring
  have known : ∀ text ∈ ["class", "interface", "trait"], text ∈ reserved := by decide
  exact known _ declaring.2

/-- The last token has nothing behind it to declare. -/
theorem declaredFrom_eq_nil (space : String) (previous : Option String) (tokens : List Token)
    (quiet : ∀ token ∈ tokens.dropLast, token.declares = false) : declaredFrom space previous tokens = [] := by
  fun_induction declaredFrom space previous tokens with
  | case1 => rfl
  | case2 => rfl
  | case3 space previous token next rest starts opened ih =>
    apply ih
    intro token member
    exact quiet token (List.mem_cons_of_mem _ member)
  | case4 space previous token next rest starts named ih =>
    apply ih
    intro token member
    apply quiet
    cases rest with
    | nil => cases member
    | cons => exact List.mem_cons_of_mem _ (List.mem_cons_of_mem _ member)
  | case5 space previous token next rest starts declaring ih =>
    rw [quiet token List.mem_cons_self] at declaring
    cases declaring
  | case6 space previous token next rest starts silent ih =>
    apply ih
    intro token member
    exact quiet token (List.mem_cons_of_mem _ member)

/-- Where no keyword interferes, every declaring token but the last declares something. -/
theorem declaredFrom_eq_nil_iff (space : String) {previous : Option String} {tokens : List Token}
    (ready : ∀ first ∈ tokens.head?, first.declares = true → previous ≠ some "new")
    (plain : ∀ token ∈ tokens, token.startsSpace = false ∧ token.text ≠ "new") :
    declaredFrom space previous tokens = [] ↔ ∀ token ∈ tokens.dropLast, token.declares = false := by
  refine ⟨?_, declaredFrom_eq_nil space previous tokens⟩
  induction tokens generalizing previous with
  | nil => simp
  | cons token rest ih =>
    cases rest with
    | nil => simp
    | cons next rest =>
      intro nothing
      have first := plain token List.mem_cons_self
      cases declaring : token.declares with
      | true =>
        rw [declaredFrom_declares declaring, if_neg (ready token rfl declaring)] at nothing
        cases nothing
      | false =>
        -- From here on the previous token is this one, and it is not `new`.
        rw [declaredFrom_skip first.1 declaring] at nothing
        have later := ih (fun _ _ _ same => first.2 (Option.some.inj same))
          (fun token member => plain token (List.mem_cons_of_mem _ member)) nothing
        intro other member
        rcases List.mem_cons.mp member with rfl | member
        · exact declaring
        · exact later other member

end Token

/-! ## Declarations of a built class -/

/-- Right behind its name, a class shows a clause or its brace. -/
private theorem exists_afterName (head : ClassHead) (tokens : List Token) :
    ∃ first others, head.clauseTokens ++ brace :: tokens = first :: others ∧
      first ∈ [word "extends", word "implements", brace] := by
  rw [ClassHead.clauseTokens]
  cases head.parent with
  | some parent => exact ⟨_, _, rfl, by simp⟩
  | none =>
    by_cases alone : head.interfaces = []
    · exact ⟨brace, tokens, by simp [alone], by simp⟩
    · exact ⟨word "implements", _, by simp only [alone]; rfl, by simp⟩

/-- A class that is taken for an object is not declared. Its name may declare what follows, but that is
no name of a class. -/
private theorem declaredFrom_followsNew (short : String) {tokens : List Token}
    (starts : ∃ first others, tokens = first :: others ∧ first ∈ [word "extends", word "implements", brace])
    (quiet : ∀ token ∈ tokens, token.declares = false) :
    declaredFrom "new" (some "class") (word short :: tokens) ≠ [(⟨["new"], short⟩ : ClassName).text] := by
  intro found
  cases declaring : (word short).declares with
  | false =>
    rw [declaredFrom_eq_nil] at found
    · cases found
    · intro token member
      rcases List.mem_cons.mp (List.dropLast_subset _ member) with rfl | member
      · exact declaring
      · exact quiet token member
  | true =>
    -- The name is a declaring word itself and takes the token behind it for a class.
    obtain ⟨first, others, rfl, known⟩ := starts
    rw [declaredFrom_declares declaring, if_neg (by decide)] at found
    have chars := congrArg String.toList (List.cons.inj found).1
    have same : first.text = short := by
      apply String.toList_injective
      simpa [qualify, ClassName.text, ClassName.segments, List.intercalate] using chars
    have silent : ∀ token ∈ [word "extends", word "implements", brace], (word token.text).declares = false := by decide
    rw [← same, silent first known] at declaring
    cases declaring

section Declared

variable {blueprint : Blueprint} {members : List Stmt}
  (valid : ∀ name ∈ blueprint.names, Identifier.isValid name = true)
include valid

private theorem Blueprint.declares_clauses {token : Token} (member : token ∈ blueprint.head.clauseTokens) :
    token.declares = false := by
  cases declaring : token.declares with
  | false => rfl
  | true =>
    have listed := (writes_clauses valid).2 token member (text_mem_reserved_of_declares declaring)
    cases listed

/-- Behind the name of a class, the words that matter are names of its members. -/
private theorem Blueprint.mem_memberNames (shows : ∀ stmt ∈ members, stmt.Shows blueprint.memberNames)
    {token : Token} (member : token ∈ blueprint.head.clauseTokens ++ brace :: members.flatMap Stmt.memberTokens)
    (listed : token.text ∈ reserved) : token.text ∈ blueprint.memberNames := by
  rcases List.mem_append.mp member with member | member
  · exact absurd ((writes_clauses valid).2 token member listed) List.not_mem_nil
  · rcases List.mem_cons.mp member with rfl | member
    · exact absurd listed (by decide)
    · obtain ⟨stmt, inside, member⟩ := List.mem_flatMap.mp member
      exact (shows stmt inside).2 token member listed

private theorem Blueprint.declares_remainder (shows : ∀ stmt ∈ members, stmt.Shows blueprint.memberNames)
    (free : ∀ name ∈ blueprint.memberNames, (word name).declares = false) :
    ∀ token ∈ blueprint.head.clauseTokens ++ brace :: members.flatMap Stmt.memberTokens,
      token.declares = false := by
  intro token member
  cases declaring : token.declares with
  | false => rfl
  | true =>
    have silent := free _ (mem_memberNames valid shows member (text_mem_reserved_of_declares declaring))
    simp only [declares, word, Bool.and_eq_true, Bool.not_false, Bool.true_and] at declaring silent
    rw [declaring.2] at silent
    cases silent

private theorem Blueprint.declaredClasses_members (shows : ∀ stmt ∈ members, stmt.Shows blueprint.memberNames) :
    declaredClasses (Tree.source (inSpace blueprint.name (.classDecl blueprint.head members))) =
      let tokens := blueprint.head.clauseTokens ++ brace :: members.flatMap Stmt.memberTokens
      if blueprint.head.FollowsNew blueprint.name.path then
        declaredFrom "new" (some "class") (word blueprint.name.short :: tokens)
      else blueprint.name.text ::
        declaredFrom (Segment.join blueprint.name.path) (some blueprint.name.short) tokens := by
  have segments : ∀ segment ∈ blueprint.name.segments, Identifier.isValid segment = true := by
    intro segment member
    apply valid
    simp only [names, List.mem_append]
    exact .inl (.inl (.inl (.inl member)))
  have short : IsWord blueprint.head.name :=
    Identifier.isWord_of_isValid (segments _ (List.mem_append_right _ List.mem_cons_self))
  have path : ∀ segment ∈ blueprint.name.path, Identifier.isValid segment = true :=
    fun segment member => segments segment (List.mem_append_left _ member)
  rw [← scan_remainder valid shows]
  exact Tree.declaredClasses_inSpace path short

/-- Where no name interferes, the tokens of the members decide. -/
private theorem Blueprint.declaredFrom_remainder_eq_nil_iff
    (shows : ∀ stmt ∈ members, stmt.Shows blueprint.memberNames) (made : "new" ∉ blueprint.memberNames)
    (spaced : "namespace" ∉ blueprint.memberNames) (space : String) (previous : Option String) :
    declaredFrom space previous (blueprint.head.clauseTokens ++ brace :: members.flatMap Stmt.memberTokens) = [] ↔
      ∀ token ∈ (members.flatMap Stmt.memberTokens).dropLast, token.declares = false := by
  have plain : ∀ token ∈ blueprint.head.clauseTokens ++ brace :: members.flatMap Stmt.memberTokens,
      token.startsSpace = false ∧ token.text ≠ "new" := by
    intro token member
    have known := mem_memberNames valid shows member
    constructor
    · have other : token.text ≠ "namespace" := fun same => spaced (same ▸ known (same ▸ by decide))
      simp [startsSpace, other]
    · intro same
      exact made (same ▸ known (same ▸ by decide))
  obtain ⟨first, others, shape, known⟩ := exists_afterName blueprint.head (members.flatMap Stmt.memberTokens)
  have silent : ∀ token ∈ [word "extends", word "implements", brace], token.declares = false := by decide
  rw [declaredFrom_eq_nil_iff space _ plain]
  · -- Without members, the brace is the last token.
    by_cases empty : members.flatMap Stmt.memberTokens = []
    · rw [empty, List.dropLast_concat]
      simpa using fun token member => declares_clauses valid member
    · rw [List.dropLast_append_of_ne_nil (List.cons_ne_nil _ _), List.dropLast_cons_of_ne_nil empty]
      constructor
      · intro quiet token member
        exact quiet token (List.mem_append_right _ (List.mem_cons_of_mem _ member))
      · intro quiet token member
        rcases List.mem_append.mp member with member | member
        · exact declares_clauses valid member
        · rcases List.mem_cons.mp member with rfl | member
          · decide
          · exact quiet token member
  · intro token leading declaring
    rw [shape] at leading
    obtain rfl := Option.some.inj leading
    rw [silent first known] at declaring
    cases declaring

end Declared

/-- The class of a blueprint of identifiers is recorded as that class and nothing else, with two exceptions.
A member, a parameter or a constant that is a default may be called like a declaring word; then the word
behind it is recorded, too, unless there is none. And in a namespace called `new`, a class that is neither
abstract nor final is missed. -/
theorem Blueprint.declaredClasses_build {blueprint : Blueprint} {tree : Tree} (built : blueprint.build = .ok tree)
    (valid : ∀ name ∈ blueprint.names, Identifier.isValid name = true) :
    ∃ members, tree = inSpace blueprint.name (.classDecl blueprint.head members) ∧
      ((∀ name ∈ blueprint.memberNames, (word name).declares = false) →
        (declaredClasses tree.source = [blueprint.name.text] ↔
          ¬blueprint.head.FollowsNew blueprint.name.path)) ∧
      (¬blueprint.head.FollowsNew blueprint.name.path →
        "new" ∉ blueprint.memberNames → "namespace" ∉ blueprint.memberNames →
        (declaredClasses tree.source = [blueprint.name.text] ↔
          ∀ token ∈ (members.flatMap Stmt.memberTokens).dropLast, token.declares = false)) ∧
      (declaredClasses tree.source = [blueprint.name.text] →
        ∀ registry : Registry, registry.evaluates = true →
          registry.evaluate tree.source =
            (.ok (), { registry with defined := Registry.note registry.defined blueprint.name.text })) := by
  obtain ⟨methods, read, rfl⟩ := build_eq_ok built
  have shows := shows_members read valid
  have declared := declaredClasses_members valid shows
  refine ⟨blueprint.fixedMembers ++ methods, rfl, fun free => ?_, fun unmuted made spaced => ?_,
    fun alone registry evaluates => ?_⟩
  · have quiet := declares_remainder valid shows free
    by_cases muted : blueprint.head.FollowsNew blueprint.name.path
    · have missed := declaredFrom_followsNew blueprint.name.short
        (exists_afterName blueprint.head ((blueprint.fixedMembers ++ methods).flatMap Stmt.memberTokens)) quiet
      have name : blueprint.name = ⟨["new"], blueprint.name.short⟩ := by rw [← muted.1]
      rw [declared, if_pos muted, iff_false_right (not_not_intro muted), name]
      exact missed
    · rw [declared, if_neg muted, iff_true_right muted,
        declaredFrom_eq_nil _ _ _ fun token member => quiet token (List.dropLast_subset _ member)]
  · rw [declared, if_neg unmuted, ← declaredFrom_remainder_eq_nil_iff valid shows made spaced
      (Segment.join blueprint.name.path) (some blueprint.name.short)]
    simp
  · rw [Registry.evaluate, if_pos evaluates, Registry.define, alone]
    rfl

/-- A class that refers to keywords where they do no harm. -/
def rosterBlueprint : Blueprint where
  name := ⟨["App", "new"], "trait"⟩
  parent := some ⟨[], "class"⟩
  interfaces := [⟨["interface"], "Countable"⟩]
  constants := .ofEntries [("KIND", .str "class Fake")]
  properties := [{ name := "namespace", hasInitial := true }]
  methods := [
    { name := "new", isStatic := true,
      parameters := [{ name := "mode", hint := some (.named ⟨[], "class"⟩), fallback := some (.constant "\\LAZY") }] },
    { name := "load", isAbstract := true }]

theorem Blueprint.declaredClasses_build_roster :
    ∃ tree, rosterBlueprint.build = .ok tree ∧ declaredClasses tree.source = ["App\\new\\trait"] := by
  have valid : ∀ name ∈ rosterBlueprint.names, Identifier.isValid name = true := by decide
  have free : ∀ name ∈ rosterBlueprint.memberNames, (word name).declares = false := by decide
  obtain ⟨_, _, recorded, _⟩ := Blueprint.declaredClasses_build (rfl : rosterBlueprint.build = .ok _) valid
  exact ⟨_, rfl, (recorded free).mpr (by decide)⟩

/-- A class with a property that is called like a keyword, and another one behind it. -/
def pupilBlueprint : Blueprint where
  name := ⟨["App"], "Pupil"⟩
  properties := [{ name := "class" }, { name := "id" }]

/-- A class is recorded that nobody declared. -/
theorem Blueprint.declaredClasses_build_pupil :
    (∀ name ∈ pupilBlueprint.names, Identifier.isValid name = true) ∧
      ∃ tree, pupilBlueprint.build = .ok tree ∧
        declaredClasses tree.source = ["App\\Pupil", "App\\public"] := by
  refine ⟨by decide, _, rfl, ?_⟩
  decide +kernel

end ClassForge
