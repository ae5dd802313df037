import ClassForge.Proofs.Pass.Simulation

/-! # Verdicts on all methods of a tree

The passes on methods judge a method by its head. `Tree.judged` says what they leave of any tree: every
statement stays in its place, but for methods that are dropped or disabled. These passes never fail.
-/

namespace ClassForge

mutual

/-- What is left of a statement when a verdict was passed on every method. -/
def Stmt.judged (verdict : MethodHead → Verdict) : Stmt → List Stmt
  | .space name body => [.space name (Tree.judged verdict body)]
  | .classDecl head body => [.classDecl head (Tree.judged verdict body)]
  | .method head none => ((verdict head).edit head).result (.method head none)
  | .method head (some body) =>
    ((verdict head).edit head).result (.method head (some (Tree.judged verdict body)))
  | stmt => [stmt]

def Tree.judged (verdict : MethodHead → Verdict) : List Stmt → List Stmt
  | [] => []
  | stmt :: rest => stmt.judged verdict ++ Tree.judged verdict rest

end

theorem Tree.judged_eq_flatMap (verdict : MethodHead → Verdict) (body : List Stmt) :
    Tree.judged verdict body = body.flatMap (Stmt.judged verdict) := by
  induction body with
  | nil => rfl
  | cons stmt rest ih => rw [judged, ih, List.flatMap_cons]

theorem Tree.judged_append (verdict : MethodHead → Verdict) (front back : List Stmt) :
    Tree.judged verdict (front ++ back) = Tree.judged verdict front ++ Tree.judged verdict back := by
  rw [judged_eq_flatMap, judged_eq_flatMap, judged_eq_flatMap, List.flatMap_append]

theorem Stmt.judged_method (verdict : MethodHead → Verdict) (head : MethodHead) (body : Option (List Stmt)) :
    (Stmt.method head body).judged verdict =
      ((verdict head).edit head).result (.method head (body.map (Tree.judged verdict))) := by
  cases body <;> rfl

/-- Where every method is skipped, nothing changes. -/
theorem Tree.judged_skip {verdict : MethodHead → Verdict} (skips : ∀ head, verdict head = .skip) :
    (body : List Stmt) → Tree.judged verdict body = body
  | [] => rfl
  | stmt :: rest => by
    rw [Tree.judged, Tree.judged_skip skips rest]
    cases stmt with
    | space name body => rw [Stmt.judged, Tree.judged_skip skips body]; rfl
    | classDecl head body => rw [Stmt.judged, Tree.judged_skip skips body]; rfl
    | method head body =>
      cases body with
      | none => rw [Stmt.judged, skips]; rfl
      | some body => rw [Stmt.judged, skips, Tree.judged_skip skips body]; rfl
    | property | constant | throw | expr => rfl

/-- A judge that looks at heads alone judges every tree. -/
theorem rewrites_judged (verdict : MethodHead → Verdict) : (body : List Stmt) →
    (Verdict.visitor fun head _ => (return verdict head : StateM Unit Verdict)).Rewrites () body
      (Tree.judged verdict body) ()
  | [] => .nil
  | stmt :: rest => by
    have later := rewrites_judged verdict rest
    rw [Tree.judged]
    cases stmt with
    | space name body => exact .node rfl rfl (rewrites_judged verdict body) rfl rfl later
    | classDecl head body => exact .node rfl rfl (rewrites_judged verdict body) rfl rfl later
    | method head body =>
      cases body with
      | none => exact .leaf rfl rfl rfl rfl later
      | some body => exact .node rfl rfl (rewrites_judged verdict body) rfl rfl later
    | property | constant | throw | expr => exact .leaf rfl rfl rfl rfl later

private theorem isInert_edited (head : MethodHead) (body : Option (List Stmt)) (verdict : Verdict)
    (inert : (Stmt.method head body).isInert = true) :
    Tree.isInert ((verdict.edit head).result (.method head body)) = true := by
  cases verdict with
  | skip =>
    change Tree.isInert [.method head body] = true
    rw [Tree.isInert, inert]
    rfl
  | disable => rfl
  | drop => rfl

/-- Verdicts on methods bring no class and no namespace. -/
theorem Tree.isInert_judged (verdict : MethodHead → Verdict) : (body : List Stmt) →
    Tree.isInert body = true → Tree.isInert (Tree.judged verdict body) = true
  | [], _ => rfl
  | stmt :: rest, inert => by
    rw [Tree.isInert, Bool.and_eq_true] at inert
    rw [Tree.judged, Tree.isInert_eq_all, List.all_append, ← Tree.isInert_eq_all, ← Tree.isInert_eq_all,
      Tree.isInert_judged verdict rest inert.2, Bool.and_true]
    cases stmt with
    | space | classDecl => cases inert.1
    | method head body =>
      cases body with
      | none => exact isInert_edited head none _ rfl
      | some body => exact isInert_edited head _ _ (Tree.isInert_judged verdict body inert.1)
    | property | constant | throw | expr => rfl

namespace Pass

/-- The verdict on methods that are to be public. -/
def publicVerdict (head : MethodHead) : Verdict :=
  if head.visibility = .pub then .skip else .drop

/-- The verdict on methods of which some names are to be disabled. -/
def namesVerdict (names : List String) (head : MethodHead) : Verdict :=
  if (names.map lowerAscii).contains (lowerAscii head.name) then .disable else .skip

/-- Whether a method has one of the names, whatever the case of their ASCII letters. -/
def isNamed (names : List String) (head : MethodHead) : Bool :=
  names.any fun name => lowerAscii name == lowerAscii head.name

theorem namesVerdict_eq (names : List String) (head : MethodHead) :
    namesVerdict names head = if isNamed names head then .disable else .skip := by
  have same : (names.map lowerAscii).contains (lowerAscii head.name) = isNamed names head := by
    rw [isNamed, List.contains_eq_any_beq, List.any_map]
    simp only [Function.comp_def, Bool.beq_comm]
  rw [namesVerdict, same]

private theorem run_stateless (verdict : MethodHead → Verdict) (tree : Tree) :
    ((stateless (Verdict.visitor fun head _ => return verdict head)).traverse {} tree).1 =
      .ok (Tree.judged verdict tree) := by
  obtain ⟨total, run⟩ := (rewrites_judged verdict tree).traverse rfl rfl
  rw [stateless, Visitor.result_traverse_through isPart_unit, run]

theorem run_publicOnly (tree : Tree) : Pass.publicOnly.run tree = .ok (Tree.judged publicVerdict tree) :=
  run_stateless publicVerdict tree

theorem run_disable (names : List String) (tree : Tree) :
    (Pass.disable names).run tree = .ok (Tree.judged (namesVerdict names) tree) :=
  run_stateless (namesVerdict names) tree

end Pass

end ClassForge
