import ClassForge.Proofs.Pass.Walk
import ClassForge.Proofs.Tree.Declarations

/-! # All statements of a tree

The statements of a tree at every depth, in the order of the source. Where the namespaces and classes of a
tree are, and what the classes are called, is read off this list: a tree with at most one namespace is flat,
and a class is named in the global namespace or in one of those that the tree has.
-/

namespace ClassForge

namespace Tree

/-- Every statement of a tree, in the order of the source. -/
def statements (tree : Tree) : List Stmt :=
  tree.outline.map Prod.snd

private theorem map_outlineAt (depth : Nat) (body : List Stmt) :
    (outlineAt depth body).map Prod.snd = statements body := by
  rw [statements, outline]
  generalize 0 = other
  induction body using Tree.induction generalizing depth other with
  | nil => rfl
  | space name body rest within later =>
    simp only [outlineAt, stmtOutline, List.cons_append, List.map_cons, List.map_append,
      within (depth + 1) (other + 1), later depth other]
  | classDecl head body rest within later =>
    simp only [outlineAt, stmtOutline, List.cons_append, List.map_cons, List.map_append,
      within (depth + 1) (other + 1), later depth other]
  | method head body rest within later =>
    simp only [outlineAt, stmtOutline, List.cons_append, List.map_cons, List.map_append,
      within (depth + 1) (other + 1), later depth other]
  | leaf stmt rest bare later =>
    have alone (depth : Nat) : stmtOutline depth stmt = [(depth, stmt)] := by
      cases stmt with
      | space | classDecl => cases bare
      | method => cases bare; rfl
      | property | constant | throw | expr => rfl
    simp only [outlineAt, alone, List.cons_append, List.nil_append, List.map_cons, later depth other]

@[simp] theorem statements_nil : statements [] = [] :=
  rfl

/-- A statement comes before those inside, and they come before those behind it. -/
theorem statements_cons (stmt : Stmt) (rest : List Stmt) :
    statements (stmt :: rest) = stmt :: (statements (stmt.body?.getD []) ++ statements rest) := by
  have split : statements (stmt :: rest) = (stmtOutline 0 stmt).map Prod.snd ++ statements rest := by
    rw [statements, outline, outlineAt, List.map_append]
    rfl
  rw [split, ← List.cons_append]
  congr 1
  cases stmt with
  | space | classDecl => exact congrArg _ (map_outlineAt 1 _)
  | method head body =>
    cases body with
    | none => rfl
    | some body => exact congrArg _ (map_outlineAt 1 body)
  | property | constant | throw | expr => rfl

theorem statements_append (front back : List Stmt) :
    statements (front ++ back) = statements front ++ statements back := by
  induction front with
  | nil => rfl
  | cons stmt rest ih =>
    rw [List.cons_append, statements_cons, statements_cons, ih, List.cons_append, List.append_assoc]

/-- What is picked from all statements comes in their order. -/
theorem filterMap_statements_cons {α : Type} (pick : Stmt → Option α) (stmt : Stmt) (rest : List Stmt) :
    (statements (stmt :: rest)).filterMap pick =
      (pick stmt).toList ++ (statements (stmt.body?.getD [])).filterMap pick ++ (statements rest).filterMap pick := by
  rw [statements_cons, List.filterMap_cons, List.filterMap_append]
  cases pick stmt <;> rfl

end Tree

/-! ## Namespaces and classes -/

/-- The path of a namespace. -/
def Stmt.spacePath? : Stmt → Option (List String)
  | .space name _ => some (spacePath name)
  | _ => none

/-- The name of a class as it stands in its head. -/
def Stmt.className? : Stmt → Option String
  | .classDecl head _ => some head.name
  | _ => none

theorem Stmt.mem_filterMap_className? {stmts : List Stmt} {name : String} :
    name ∈ stmts.filterMap Stmt.className? ↔ ∃ head body, .classDecl head body ∈ stmts ∧ head.name = name := by
  rw [List.mem_filterMap]
  constructor
  · rintro ⟨stmt, member, found⟩
    cases stmt with
    | classDecl head body => exact ⟨head, body, member, Option.some.inj found⟩
    | space | method | property | constant | throw | expr => cases found
  · rintro ⟨head, body, member, same⟩
    exact ⟨_, member, congrArg some same⟩

namespace Tree

/-- The paths of all namespaces, in the order of the source. -/
def spacePaths (tree : Tree) : List (List String) :=
  tree.statements.filterMap Stmt.spacePath?

/-- The names in the heads of all classes, in the order of the source. -/
def headNames (tree : Tree) : List String :=
  tree.statements.filterMap Stmt.className?

section Cons

variable (rest : List Stmt)

theorem spacePaths_cons (stmt : Stmt) :
    spacePaths (stmt :: rest) = stmt.spacePath?.toList ++ spacePaths (stmt.body?.getD []) ++ spacePaths rest :=
  filterMap_statements_cons Stmt.spacePath? stmt rest

theorem headNames_cons (stmt : Stmt) :
    headNames (stmt :: rest) = stmt.className?.toList ++ headNames (stmt.body?.getD []) ++ headNames rest :=
  filterMap_statements_cons Stmt.className? stmt rest

theorem notMem_headNames_cons {name : String} (stmt : Stmt) :
    name ∉ headNames (stmt :: rest) ↔
      (name ∉ stmt.className?.toList ∧ name ∉ headNames (stmt.body?.getD [])) ∧ name ∉ headNames rest := by
  rw [headNames_cons, List.mem_append, List.mem_append, not_or, not_or]

end Cons

theorem spacePaths_append (front back : List Stmt) :
    spacePaths (front ++ back) = spacePaths front ++ spacePaths back := by
  rw [spacePaths, statements_append, List.filterMap_append]
  rfl

end Tree

/-- A statement with nothing inside is no namespace and no class. -/
theorem Stmt.eq_none_of_bare {stmt : Stmt} (bare : stmt.body? = none) :
    stmt.spacePath? = none ∧ stmt.className? = none := by
  cases stmt with
  | space | classDecl => cases bare
  | method | property | constant | throw | expr => exact ⟨rfl, rfl⟩

theorem Stmt.classNames_of_bare {stmt : Stmt} (bare : stmt.body? = none) (scope : Scope) :
    stmt.classNames scope = [] := by
  cases stmt with
  | space | classDecl => cases bare
  | method => cases bare; rfl
  | property | constant | throw | expr => rfl

theorem Stmt.isFlat_of_bare {stmt : Stmt} (bare : stmt.body? = none) (inside : Bool) : stmt.isFlat inside = true := by
  cases stmt with
  | space | classDecl => cases bare
  | method => cases bare; rfl
  | property | constant | throw | expr => rfl

namespace Tree

/-- In whatever namespaces they are, classes have the names that stand in their heads. -/
theorem map_short_classNamesIn (scope : Scope) (body : List Stmt) :
    (classNamesIn scope body).map ClassName.short = headNames body := by
  induction body using Tree.induction generalizing scope with
  | nil => rfl
  | space name body rest within later =>
    rw [classNamesIn, Stmt.classNames, List.map_append, within, later, headNames_cons]
    rfl
  | classDecl head body rest within later =>
    rw [classNamesIn, Stmt.classNames, List.map_append, List.map_cons, within, later, headNames_cons]
    rfl
  | method head body rest within later =>
    rw [classNamesIn, Stmt.classNames, List.map_append, within, later, headNames_cons]
    rfl
  | leaf stmt rest bare later =>
    rw [classNamesIn, Stmt.classNames_of_bare bare, List.nil_append, later, headNames_cons,
      (Stmt.eq_none_of_bare bare).2, bare]
    rfl

/-- A class is in the namespace that everything is in, or in one of those inside. -/
theorem path_of_mem_classNamesIn {scope : Scope} {body : List Stmt} {name : ClassName}
    (member : name ∈ classNamesIn scope body) : name.path = scope.path ∨ name.path ∈ spacePaths body := by
  induction body using Tree.induction generalizing scope with
  | nil => cases member
  | space space body rest within later =>
    rw [classNamesIn, Stmt.classNames, List.mem_append] at member
    rw [spacePaths_cons]
    rcases member with member | member
    · rcases within member with same | inside
      · exact .inr (List.mem_append_left _ (List.mem_append_left _ (List.mem_singleton.mpr same)))
      · exact .inr (List.mem_append_left _ (List.mem_append_right _ inside))
    · exact (later member).imp_right (List.mem_append_right _)
  | classDecl head body rest within later =>
    rw [classNamesIn, Stmt.classNames, List.cons_append, List.mem_cons, List.mem_append] at member
    rw [spacePaths_cons]
    rcases member with rfl | member | member
    · exact .inl rfl
    · exact (within member).imp_right fun inside => List.mem_append_left _ (List.mem_append_right _ inside)
    · exact (later member).imp_right (List.mem_append_right _)
  | method head body rest within later =>
    rw [classNamesIn, Stmt.classNames, List.mem_append] at member
    rw [spacePaths_cons]
    rcases member with member | member
    · exact (within member).imp_right fun inside => List.mem_append_left _ (List.mem_append_right _ inside)
    · exact (later member).imp_right (List.mem_append_right _)
  | leaf stmt rest bare later =>
    rw [classNamesIn, Stmt.classNames_of_bare bare, List.nil_append] at member
    rw [spacePaths_cons]
    exact (later member).imp_right (List.mem_append_right _)

/-- Where there is room for the namespaces of a body, none of them lies inside of another one: a body that is in
none may have one. -/
theorem isFlatIn_of_length_le {inside : Bool} {body : List Stmt}
    (room : (spacePaths body).length ≤ if inside then 0 else 1) : isFlatIn inside body = true := by
  induction body using Tree.induction generalizing inside with
  | nil => rfl
  | space name body rest within later =>
    simp only [spacePaths_cons, Stmt.spacePath?, Option.toList_some, List.length_append, List.length_singleton] at room
    cases inside with
    | true => simp at room
    | false =>
      have empty : (spacePaths body).length = 0 ∧ (spacePaths rest).length = 0 := by
        simp only [Stmt.body?, Option.getD_some, Bool.false_eq_true, if_false] at room
        omega
      rw [isFlatIn, Stmt.isFlat, within (by simp [empty.1]), later (by simp [empty.2])]
      rfl
  | classDecl head body rest within later =>
    simp only [spacePaths_cons, List.length_append, Stmt.body?, Option.getD_some] at room
    rw [isFlatIn, Stmt.isFlat, within (by omega), later (by omega)]
    rfl
  | method head body rest within later =>
    simp only [spacePaths_cons, List.length_append, Stmt.body?, Option.getD_some] at room
    rw [isFlatIn, Stmt.isFlat, within (by omega), later (by omega)]
    rfl
  | leaf stmt rest bare later =>
    simp only [spacePaths_cons, List.length_append] at room
    rw [isFlatIn, Stmt.isFlat_of_bare bare, later (by omega)]
    rfl

theorem classNamesIn_append (scope : Scope) (front back : List Stmt) :
    classNamesIn scope (front ++ back) = classNamesIn scope front ++ classNamesIn scope back := by
  induction front with
  | nil => rfl
  | cons stmt rest ih => rw [List.cons_append, classNamesIn, ih, classNamesIn, List.append_assoc]

end Tree

/-! ## Statements without namespaces and classes -/

theorem Stmt.eq_none_of_inert {stmt : Stmt} (inert : stmt.isInert = true) :
    stmt.spacePath? = none ∧ stmt.className? = none := by
  cases stmt with
  | space | classDecl => cases inert
  | method | property | constant | throw | expr => exact ⟨rfl, rfl⟩

namespace Tree

/-- Inert statements have no namespace and no class at any depth. -/
theorem eq_nil_of_inert {body : List Stmt} (inert : isInert body = true) :
    spacePaths body = [] ∧ headNames body = [] := by
  induction body using Tree.induction with
  | nil => exact ⟨rfl, rfl⟩
  | space | classDecl => cases inert
  | method head body rest within later =>
    rw [isInert, Stmt.isInert, Bool.and_eq_true] at inert
    rw [spacePaths_cons, headNames_cons, (later inert.2).1, (later inert.2).2]
    change [] ++ spacePaths body ++ [] = [] ∧ [] ++ headNames body ++ [] = []
    rw [(within inert.1).1, (within inert.1).2]
    exact ⟨rfl, rfl⟩
  | leaf stmt rest bare later =>
    rw [isInert, Bool.and_eq_true] at inert
    rw [spacePaths_cons, headNames_cons, (Stmt.eq_none_of_bare bare).1, (Stmt.eq_none_of_bare bare).2, bare,
      (later inert.2).1, (later inert.2).2]
    exact ⟨rfl, rfl⟩

theorem classNamesIn_of_inert {body : List Stmt} (inert : isInert body = true) (scope : Scope) :
    classNamesIn scope body = [] := by
  apply List.map_eq_nil_iff.mp
  rw [map_short_classNamesIn, (eq_nil_of_inert inert).2]

theorem filter_isClass_of_inert {body : List Stmt} (inert : isInert body = true) : body.filter Stmt.isClass = [] := by
  rw [isInert_eq_all, List.all_eq_true] at inert
  rw [List.filter_eq_nil_iff]
  intro stmt member isClass
  have plain := inert stmt member
  cases stmt with
  | classDecl => cases plain
  | space | method | property | constant | throw | expr => cases isClass

end Tree

end ClassForge
