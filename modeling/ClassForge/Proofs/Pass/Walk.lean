import ClassForge.Pass.Visitor

/-! # Walks as derivations

`Visitor.Rewrites` says what a walk makes of statements by the answers of the visitor alone: no tallies
and no substitutions. A derivation is what the walk computes. Statements that a visitor ignores stay as they
are, at any depth.
-/

namespace ClassForge

namespace Step

variable {σ τ α β : Type}

@[simp]
theorem runFrom_pure (value : α) (state : σ) : (pure value : Step σ α).runFrom state = (.ok value, state) :=
  rfl

theorem runFrom_lift (value : α) (state : σ) :
    (liftM (.ok value : Except PassError α) : Step σ α).runFrom state = (.ok value, state) :=
  rfl

theorem runFrom_bind {step : Step σ α} {state middle : σ} {value : α}
    (first : step.runFrom state = (.ok value, middle)) (next : α → Step σ β) :
    (step >>= next).runFrom state = (next value).runFrom middle := by
  rw [runFrom] at first ⊢
  rw [ExceptT.run_bind, StateT.run_bind, first]
  rfl

theorem runFrom_bind_error {step : Step σ α} {state stop : σ} {cause : PassError}
    (first : step.runFrom state = (.error cause, stop)) (next : α → Step σ β) :
    (step >>= next).runFrom state = (.error cause, stop) := by
  rw [runFrom] at first ⊢
  rw [ExceptT.run_bind, StateT.run_bind, first]
  rfl

theorem runFrom_bind_eq_ok {step : Step σ α} {next : α → Step σ β} {state after : σ} {result : β}
    (success : (step >>= next).runFrom state = (.ok result, after)) :
    ∃ value middle, step.runFrom state = (.ok value, middle) ∧ (next value).runFrom middle = (.ok result, after) := by
  rcases run : step.runFrom state with ⟨cause | value, middle⟩
  · rw [runFrom_bind_error run] at success
    cases success
  · rw [runFrom_bind run] at success
    exact ⟨value, middle, rfl, success⟩

theorem runFrom_through {step : Step σ α} {part : τ → σ} {update : σ → τ → τ} {whole : τ} {state after : σ}
    {result : Except PassError α} (same : part whole = state) (run : step.runFrom state = (result, after)) :
    (step.through part update).runFrom whole = (result, update after whole) := by
  change ((step.runFrom (part whole)).1, update (step.runFrom (part whole)).2 whole) = (result, _)
  rw [same, run]

theorem runFrom_onFirst {step : Step σ α} {state after : σ} {result : Except PassError α}
    (run : step.runFrom state = (result, after)) (other : τ) :
    step.onFirst.runFrom (state, other) = (result, after, other) :=
  runFrom_through rfl run

theorem runFrom_discard {step : Step σ α} {state after : σ} {value : α}
    (run : step.runFrom state = (.ok value, after)) : (discard step).runFrom state = (.ok (), after) :=
  runFrom_bind run fun _ => pure ()

end Step

/-- A body is nothing, or it goes on behind a first statement, which is a namespace, a class, a method with
a body, or has nothing inside. -/
@[elab_as_elim]
theorem Tree.induction {motive : List Stmt → Prop} (nil : motive [])
    (space : ∀ name body rest, motive body → motive rest → motive (.space name body :: rest))
    (classDecl : ∀ head body rest, motive body → motive rest → motive (.classDecl head body :: rest))
    (method : ∀ head body rest, motive body → motive rest → motive (.method head (some body) :: rest))
    (leaf : ∀ stmt rest, stmt.body? = none → motive rest → motive (stmt :: rest)) :
    (body : List Stmt) → motive body
  | [] => nil
  | stmt :: rest => by
    have later := Tree.induction nil space classDecl method leaf rest
    cases stmt with
    | space name body =>
      exact space name body rest (Tree.induction nil space classDecl method leaf body) later
    | classDecl head body =>
      exact classDecl head body rest (Tree.induction nil space classDecl method leaf body) later
    | method head body =>
      cases body with
      | none => exact leaf _ rest rfl later
      | some body => exact method head body rest (Tree.induction nil space classDecl method leaf body) later
    | property | constant | throw | expr => exact leaf _ rest rfl later

/-- A body is nothing, or it goes on behind a first statement and what is inside of it. -/
@[elab_as_elim]
theorem Tree.induction_inside {motive : List Stmt → Prop} (nil : motive [])
    (cons : ∀ stmt rest, motive (stmt.body?.getD []) → motive rest → motive (stmt :: rest)) (body : List Stmt) :
    motive body := by
  induction body using Tree.induction with
  | nil => exact nil
  | space name body rest within later => exact cons _ rest within later
  | classDecl head body rest within later => exact cons _ rest within later
  | method head body rest within later => exact cons _ rest within later
  | leaf stmt rest bare later => exact cons stmt rest (bare ▸ nil) later

/-- The statement with other statements inside, if it can hold some. -/
def Stmt.withBody (body : List Stmt) : Stmt → Stmt
  | .space name _ => .space name body
  | .classDecl head _ => .classDecl head body
  | .method head _ => .method head (some body)
  | stmt => stmt

mutual

/-- Whether the statement is no class and no namespace, and neither is any inside. -/
def Stmt.isInert : Stmt → Bool
  | .space .. => false
  | .classDecl .. => false
  | .method _ (some body) => Tree.isInert body
  | _ => true

def Tree.isInert : List Stmt → Bool
  | [] => true
  | stmt :: rest => stmt.isInert && Tree.isInert rest

end

theorem Tree.isInert_eq_all (body : List Stmt) : Tree.isInert body = body.all Stmt.isInert := by
  induction body with
  | nil => rfl
  | cons stmt rest ih => rw [isInert, ih, List.all_cons]

/-- The statements that take the place of an edited one. -/
def Edit.result (stmt : Stmt) : Edit → List Stmt
  | .keep => [stmt]
  | .replace other => [other]
  | .splice others => others
  | .remove => []

/-- What is counted for an edit. -/
def Edit.tally : Edit → Tally
  | .keep => {}
  | .replace _ | .splice _ => .replacement
  | .remove => .removal

namespace Visitor

variable {σ : Type} {visitor : Visitor σ}

/-! ## Steps of a walk -/

/-- Walks what is inside of a statement. -/
def walkInside (visitor : Visitor σ) (substitute : Stmt → Walk σ Stmt) (stmt : Stmt) : Walk σ Stmt :=
  match stmt.body? with
  | none => return stmt
  | some body => return stmt.withBody (← visitor.walkBody substitute body)

theorem walkInside_leaf {stmt : Stmt} (bare : stmt.body? = none) (substitute : Stmt → Walk σ Stmt) :
    visitor.walkInside substitute stmt = pure stmt := by
  rw [walkInside, bare]

theorem walkInside_node {stmt : Stmt} {body : List Stmt} (holds : stmt.body? = some body)
    (substitute : Stmt → Walk σ Stmt) :
    visitor.walkInside substitute stmt = do return stmt.withBody (← visitor.walkBody substitute body) := by
  rw [walkInside, holds]

theorem walkStmt_eq (substitute : Stmt → Walk σ Stmt) (stmt : Stmt) :
    visitor.walkStmt substitute stmt = visitor.visit substitute stmt (visitor.walkInside substitute stmt) := by
  cases stmt with
  | space | classDecl => rw [walkStmt]; rfl
  | method head body =>
    cases body with
    | none => rfl
    | some body => rw [walkStmt]; rfl
  | property | constant | throw | expr => rfl

theorem walkSubstitute_succ (limit : Nat) (stmt : Stmt) :
    visitor.walkSubstitute (limit + 1) stmt = visitor.walkInside (visitor.walkSubstitute limit) stmt := by
  cases stmt with
  | method head body => cases body <;> rfl
  | space | classDecl | property | constant | throw | expr => rfl

theorem inspectStmt_eq (stmt : Stmt) :
    visitor.inspectStmt stmt = (do
      discard (visitor.enter stmt)
      visitor.inspectBody (stmt.body?.getD [])
      discard (visitor.leave stmt)) := by
  cases stmt with
  | method head body => cases body <;> rfl
  | space | classDecl | property | constant | throw | expr => rfl

theorem runFrom_count (tally total : Tally) (state : σ) :
    (count tally : Walk σ Unit).runFrom (state, total) = (.ok (), state, total.add tally) :=
  rfl

/-- What becomes of a statement that is left. -/
theorem runFrom_depart (stmt : Stmt) (state : σ) (tally : Tally) :
    (visitor.depart stmt).runFrom (state, tally) =
      match (visitor.leave stmt).runFrom state with
      | (.error cause, stop) => (.error cause, stop, tally)
      | (.ok edit, next) => (.ok (edit.result stmt), next, tally.add edit.tally) := by
  rcases left : (visitor.leave stmt).runFrom state with ⟨cause | edit, next⟩
  · exact Step.runFrom_bind_error (Step.runFrom_onFirst left _) _
  · rw [depart, Step.runFrom_bind (Step.runFrom_onFirst left _)]
    cases edit <;> rfl

/-- What becomes of a statement that is entered. -/
theorem runFrom_visit_eq (substitute : Stmt → Walk σ Stmt) (stmt : Stmt) (inside : Walk σ Stmt) (state : σ)
    (tally : Tally) :
    (visitor.visit substitute stmt inside).runFrom (state, tally) =
      match (visitor.enter stmt).runFrom state with
      | (.error cause, stop) => (.error cause, stop, tally.add .entry)
      | (.ok none, next) => (inside >>= visitor.depart).runFrom (next, tally.add .entry)
      | (.ok (some other), next) =>
        (substitute other >>= visitor.depart).runFrom (next, (tally.add .entry).add .replacement) := by
  rw [visit, Step.runFrom_bind (runFrom_count _ _ _)]
  rcases entered : (visitor.enter stmt).runFrom state with ⟨cause | other, next⟩
  · exact Step.runFrom_bind_error (Step.runFrom_onFirst entered _) _
  · rw [Step.runFrom_bind (Step.runFrom_onFirst entered _)]
    cases other with
    | none => rfl
    | some other => exact Step.runFrom_bind (runFrom_count _ _ _) _

/-- A visited statement that the visitor enters and leaves. -/
private theorem runFrom_visit {stmt other : Stmt} {state inside inner outside : σ} {edit : Edit}
    {walk : Walk σ Stmt} {tally within : Tally} (substitute : Stmt → Walk σ Stmt)
    (entered : (visitor.enter stmt).runFrom state = (.ok none, inside))
    (walked : walk.runFrom (inside, tally.add .entry) = (.ok other, inner, within))
    (left : (visitor.leave other).runFrom inner = (.ok edit, outside)) :
    (visitor.visit substitute stmt walk).runFrom (state, tally) =
      (.ok (edit.result other), outside, within.add edit.tally) := by
  rw [runFrom_visit_eq, entered]
  dsimp only
  rw [Step.runFrom_bind walked, runFrom_depart, left]

/-- The outcome of a walk over later statements, with what was made of earlier ones in front. -/
def behind {α : Type} (front : List Stmt) :
    Except PassError (List Stmt) × α → Except PassError (List Stmt) × α :=
  Prod.map (Except.map (front ++ ·)) id

theorem behind_ok {α : Type} (front back : List Stmt) (state : α) :
    behind front (.ok back, state) = (.ok (front ++ back), state) :=
  rfl

theorem behind_error {α : Type} (front : List Stmt) (cause : PassError) (state : α) :
    behind front (.error cause, state) = (.error cause, state) :=
  rfl

theorem behind_nil {α : Type} (outcome : Except PassError (List Stmt) × α) : behind [] outcome = outcome := by
  obtain ⟨_ | _, _⟩ := outcome <;> rfl

theorem behind_behind {α : Type} (first second : List Stmt) (outcome : Except PassError (List Stmt) × α) :
    behind first (behind second outcome) = behind (first ++ second) outcome := by
  obtain ⟨_ | _, _⟩ := outcome
  · rfl
  · rw [behind_ok, behind_ok, behind_ok, List.append_assoc]

theorem runFrom_walkBody_nil (substitute : Stmt → Walk σ Stmt) (start : σ × Tally) :
    (visitor.walkBody substitute []).runFrom start = (.ok [], start) :=
  rfl

private theorem runFrom_walkBody_cons {stmt : Stmt} {front : List Stmt} {substitute : Stmt → Walk σ Stmt}
    {start middle : σ × Tally} (first : (visitor.walkStmt substitute stmt).runFrom start = (.ok front, middle))
    (rest : List Stmt) :
    (visitor.walkBody substitute (stmt :: rest)).runFrom start =
      behind front ((visitor.walkBody substitute rest).runFrom middle) := by
  rw [walkBody, Step.runFrom_bind first]
  rcases second : (visitor.walkBody substitute rest).runFrom middle with ⟨_ | back, final⟩
  · rw [Step.runFrom_bind_error second]
    rfl
  · rw [Step.runFrom_bind second]
    rfl

theorem walkBody_append (substitute : Stmt → Walk σ Stmt) (front back : List Stmt) :
    visitor.walkBody substitute (front ++ back) = (do
      let first ← visitor.walkBody substitute front
      return first ++ (← visitor.walkBody substitute back)) := by
  induction front with
  | nil => simp [walkBody]
  | cons stmt rest ih =>
    rw [List.cons_append, walkBody, walkBody, ih]
    simp only [bind_assoc, pure_bind, List.append_assoc]

section Step

variable {stmt : Stmt} {state inside : σ} {substitute : Stmt → Walk σ Stmt} {tally : Tally}

/-- Past a statement with nothing inside. -/
theorem runFrom_walkBody_leaf {outside : σ} {edit : Edit} (bare : stmt.body? = none)
    (entered : (visitor.enter stmt).runFrom state = (.ok none, inside))
    (left : (visitor.leave stmt).runFrom inside = (.ok edit, outside)) (rest : List Stmt) :
    (visitor.walkBody substitute (stmt :: rest)).runFrom (state, tally) =
      behind (edit.result stmt)
        ((visitor.walkBody substitute rest).runFrom (outside, (tally.add .entry).add edit.tally)) := by
  apply runFrom_walkBody_cons
  rw [walkStmt_eq, walkInside_leaf bare]
  exact runFrom_visit substitute entered (Step.runFrom_pure _ _) left

/-- A walk stops where the visitor cannot enter a statement. -/
theorem runFrom_walkBody_refused {cause : PassError}
    (refused : (visitor.enter stmt).runFrom state = (.error cause, inside)) (rest : List Stmt) :
    (visitor.walkBody substitute (stmt :: rest)).runFrom (state, tally) =
      (.error cause, inside, tally.add .entry) := by
  rw [walkBody]
  apply Step.runFrom_bind_error
  rw [walkStmt_eq, runFrom_visit_eq, refused]

variable {body : List Stmt} (holds : stmt.body? = some body)
  (entered : (visitor.enter stmt).runFrom state = (.ok none, inside))
include holds entered

/-- Past a statement with others inside. -/
theorem runFrom_walkBody_node {inner outside : σ} {edit : Edit} {body' : List Stmt} {total : Tally}
    (within : (visitor.walkBody substitute body).runFrom (inside, tally.add .entry) = (.ok body', inner, total))
    (left : (visitor.leave (stmt.withBody body')).runFrom inner = (.ok edit, outside)) (rest : List Stmt) :
    (visitor.walkBody substitute (stmt :: rest)).runFrom (state, tally) =
      behind (edit.result (stmt.withBody body'))
        ((visitor.walkBody substitute rest).runFrom (outside, total.add edit.tally)) := by
  apply runFrom_walkBody_cons
  rw [walkStmt_eq, walkInside_node holds]
  exact runFrom_visit substitute entered (Step.runFrom_bind within fun body => pure (stmt.withBody body)) left

/-- A walk stops where it stops inside of a statement. -/
theorem runFrom_walkBody_inside {cause : PassError} {stop : σ × Tally}
    (within : (visitor.walkBody substitute body).runFrom (inside, tally.add .entry) = (.error cause, stop))
    (rest : List Stmt) :
    (visitor.walkBody substitute (stmt :: rest)).runFrom (state, tally) = (.error cause, stop) := by
  rw [walkBody]
  apply Step.runFrom_bind_error
  rw [walkStmt_eq, walkInside_node holds, runFrom_visit_eq, entered]
  exact Step.runFrom_bind_error (Step.runFrom_bind_error within _) _

/-- A walk stops where the visitor cannot leave a statement. -/
theorem runFrom_walkBody_left {inner outside : σ} {cause : PassError} {body' : List Stmt} {total : Tally}
    (within : (visitor.walkBody substitute body).runFrom (inside, tally.add .entry) = (.ok body', inner, total))
    (left : (visitor.leave (stmt.withBody body')).runFrom inner = (.error cause, outside)) (rest : List Stmt) :
    (visitor.walkBody substitute (stmt :: rest)).runFrom (state, tally) = (.error cause, outside, total) := by
  rw [walkBody]
  apply Step.runFrom_bind_error
  rw [walkStmt_eq, walkInside_node holds, runFrom_visit_eq, entered]
  dsimp only
  rw [Step.runFrom_bind (Step.runFrom_bind within fun body => pure (stmt.withBody body)), runFrom_depart, left]

end Step

/-- The walk over a whole tree behind the count of the run. -/
def walkCounted (visitor : Visitor σ) (tree : Tree) : Walk σ Tree := do
  let tree := (← (visitor.before tree).onFirst).getD tree
  let tree ← visitor.walkBody (visitor.walkSubstitute substitutionLimit) tree
  return (← (visitor.after tree).onFirst).getD tree

theorem traverse_eq (visitor : Visitor σ) (state : σ) (tree : Tree) :
    visitor.traverse state tree = (visitor.walkCounted tree).runFrom (state, .traversal) :=
  Step.runFrom_bind (runFrom_count .traversal {} state) _

section Runs

variable {start state : σ} {tree : Tree} (before : (visitor.before tree).runFrom start = (.ok none, state))
include before

/-- What a run makes of a tree, if the visitor puts none in its place before or after. -/
theorem traverse_of_walkBody {finish after : σ} {result : Tree} {total : Tally}
    (walked : (visitor.walkBody (visitor.walkSubstitute substitutionLimit) tree).runFrom (state, .traversal) =
      (.ok result, finish, total))
    (behind : (visitor.after result).runFrom finish = (.ok none, after)) :
    visitor.traverse start tree = (.ok result, after, total) := by
  rw [traverse_eq, walkCounted, Step.runFrom_bind (Step.runFrom_onFirst before _), Option.getD_none,
    Step.runFrom_bind walked, Step.runFrom_bind (Step.runFrom_onFirst behind _), Option.getD_none, Step.runFrom_pure]

/-- A run stops where its walk stops. -/
theorem traverse_of_walkBody_error {cause : PassError} {stop : σ × Tally}
    (walked : (visitor.walkBody (visitor.walkSubstitute substitutionLimit) tree).runFrom (state, .traversal) =
      (.error cause, stop)) :
    visitor.traverse start tree = (.error cause, stop) := by
  rw [traverse_eq, walkCounted, Step.runFrom_bind (Step.runFrom_onFirst before _), Option.getD_none]
  exact Step.runFrom_bind_error walked _

end Runs

/-! ## Walks that rewrite -/

/-- What a visitor that substitutes nothing makes of statements, and of its state. -/
inductive Rewrites (visitor : Visitor σ) : σ → List Stmt → List Stmt → σ → Prop
  | nil {state : σ} : Rewrites visitor state [] [] state
  | leaf {state inside outside after : σ} {stmt : Stmt} {edit : Edit} {front rest back : List Stmt}
      (bare : stmt.body? = none) (entered : (visitor.enter stmt).runFrom state = (.ok none, inside))
      (left : (visitor.leave stmt).runFrom inside = (.ok edit, outside)) (same : edit.result stmt = front)
      (later : Rewrites visitor outside rest back after) :
      Rewrites visitor state (stmt :: rest) (front ++ back) after
  | node {state inside inner outside after : σ} {stmt : Stmt} {edit : Edit}
      {body body' front rest back : List Stmt}
      (holds : stmt.body? = some body) (entered : (visitor.enter stmt).runFrom state = (.ok none, inside))
      (within : Rewrites visitor inside body body' inner)
      (left : (visitor.leave (stmt.withBody body')).runFrom inner = (.ok edit, outside))
      (same : edit.result (stmt.withBody body') = front) (later : Rewrites visitor outside rest back after) :
      Rewrites visitor state (stmt :: rest) (front ++ back) after

theorem Rewrites.single {state inside inner outside : σ} {stmt : Stmt} {edit : Edit}
    {body body' result : List Stmt} (holds : stmt.body? = some body)
    (entered : (visitor.enter stmt).runFrom state = (.ok none, inside))
    (within : Rewrites visitor inside body body' inner)
    (left : (visitor.leave (stmt.withBody body')).runFrom inner = (.ok edit, outside))
    (same : edit.result (stmt.withBody body') = result) : Rewrites visitor state [stmt] result outside := by
  rw [← List.append_nil result]
  exact .node holds entered within left same .nil

/-- One statement in the place of another. -/
theorem Rewrites.node_cons {state inside inner outside after : σ} {stmt other : Stmt} {edit : Edit}
    {body body' rest back : List Stmt} (holds : stmt.body? = some body)
    (entered : (visitor.enter stmt).runFrom state = (.ok none, inside))
    (within : Rewrites visitor inside body body' inner)
    (left : (visitor.leave (stmt.withBody body')).runFrom inner = (.ok edit, outside))
    (same : edit.result (stmt.withBody body') = [other]) (later : Rewrites visitor outside rest back after) :
    Rewrites visitor state (stmt :: rest) (other :: back) after :=
  .node holds entered within left same later

/-- A statement that is ignored. -/
theorem Rewrites.keep_cons {state after : σ} {stmt : Stmt} {rest back : List Stmt} (bare : stmt.body? = none)
    (entered : (visitor.enter stmt).runFrom state = (.ok none, state))
    (left : (visitor.leave stmt).runFrom state = (.ok .keep, state)) (later : Rewrites visitor state rest back after) :
    Rewrites visitor state (stmt :: rest) (stmt :: back) after :=
  .leaf bare entered left rfl later

theorem Rewrites.append {state middle after : σ} {front front' back back' : List Stmt}
    (first : Rewrites visitor state front front' middle) (second : Rewrites visitor middle back back' after) :
    Rewrites visitor state (front ++ back) (front' ++ back') after := by
  induction first with
  | nil => exact second
  | leaf bare entered left same _ later =>
    rw [List.cons_append, List.append_assoc]
    exact .leaf bare entered left same (later second)
  | node holds entered within left same _ _ later =>
    rw [List.cons_append, List.append_assoc]
    exact .node holds entered within left same (later second)

/-- A derivation is what the walk computes before it goes on. -/
theorem Rewrites.runFrom_walkBody_append {state after : σ} {body result : List Stmt}
    (rewrites : Rewrites visitor state body result after) (rest : List Stmt) (substitute : Stmt → Walk σ Stmt)
    (tally : Tally) :
    ∃ total, (visitor.walkBody substitute (body ++ rest)).runFrom (state, tally) =
      behind result ((visitor.walkBody substitute rest).runFrom (after, total)) := by
  induction rewrites generalizing tally rest with
  | nil => exact ⟨tally, (behind_nil _).symm⟩
  | @leaf _ _ _ _ _ edit _ _ _ bare entered left same _ later =>
    obtain ⟨total, walked⟩ := later rest ((tally.add .entry).add edit.tally)
    rw [List.cons_append, runFrom_walkBody_leaf bare entered left, same, walked, behind_behind]
    exact ⟨total, rfl⟩
  | @node _ _ _ _ _ _ edit body body' _ _ _ holds entered _ left same _ within later =>
    obtain ⟨middle, walked⟩ := within [] (tally.add .entry)
    rw [List.append_nil, runFrom_walkBody_nil, behind_ok, List.append_nil] at walked
    obtain ⟨total, finished⟩ := later rest (middle.add edit.tally)
    rw [List.cons_append, runFrom_walkBody_node holds entered walked left, same, finished, behind_behind]
    exact ⟨total, rfl⟩

theorem Rewrites.runFrom_walkBody {state after : σ} {body result : List Stmt}
    (rewrites : Rewrites visitor state body result after) (substitute : Stmt → Walk σ Stmt) (tally : Tally) :
    ∃ total, (visitor.walkBody substitute body).runFrom (state, tally) = (.ok result, after, total) := by
  obtain ⟨total, walked⟩ := rewrites.runFrom_walkBody_append [] substitute tally
  rw [List.append_nil, runFrom_walkBody_nil, behind_ok, List.append_nil] at walked
  exact ⟨total, walked⟩

/-- What a run makes of a tree by a derivation. -/
theorem Rewrites.traverse {start state finish after : σ} {tree result : Tree}
    (before : (visitor.before tree).runFrom start = (.ok none, state))
    (rewrites : Rewrites visitor state tree result finish)
    (behind : (visitor.after result).runFrom finish = (.ok none, after)) :
    ∃ total, visitor.traverse start tree = (.ok result, after, total) := by
  obtain ⟨total, walked⟩ := rewrites.runFrom_walkBody (visitor.walkSubstitute substitutionLimit) .traversal
  exact ⟨total, traverse_of_walkBody before walked behind⟩

/-! ## Statements that are ignored -/

/-- In this state, the visitor lets the statement be. -/
structure Ignores (visitor : Visitor σ) (state : σ) (stmt : Stmt) : Prop where
  enter : (visitor.enter stmt).runFrom state = (.ok none, state)
  leave : (visitor.leave stmt).runFrom state = (.ok .keep, state)

section Inert

variable {state : σ} (ignores : ∀ stmt : Stmt, stmt.isInert = true → visitor.Ignores state stmt)

include ignores

/-- Statements without classes and namespaces stay, if the visitor ignores all such statements. -/
theorem rewrites_inert : (body : List Stmt) → Tree.isInert body = true → Rewrites visitor state body body state
  | [], _ => .nil
  | stmt :: rest, inert => by
    rw [Tree.isInert, Bool.and_eq_true] at inert
    have ⟨entered, left⟩ := ignores stmt inert.1
    have later := rewrites_inert rest inert.2
    cases stmt with
    | space | classDecl => cases inert.1
    | method head body =>
      cases body with
      | none => exact .leaf rfl entered left rfl later
      | some body => exact .node rfl entered (rewrites_inert body inert.1) left rfl later
    | property | constant | throw | expr => exact .leaf rfl entered left rfl later

end Inert

end Visitor

end ClassForge
