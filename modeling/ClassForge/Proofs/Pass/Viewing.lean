import ClassForge.Pass.Resolver
import ClassForge.Proofs.Pass.Calls

/-! # Looking at a tree and walking it

A visitor may walk a tree, which its answers change, or look at it, which they do not. As long as no call asks for
a change, both make the same calls in the same order and leave the visitor in the same state; either both fail, and
for the same cause, or both come to the end and the walk gives the tree back.
-/

namespace ClassForge

namespace Visitor

open Step

variable {σ α β : Type}

/-- Unless a call asks for a change, the walk comes to this value or fails, and the look does as the walk does. -/
private def Agrees (value : α) (walk : Walk (σ × List Call) α) (look : Step (σ × List Call) Unit) : Prop :=
  ∀ start tally, (∀ call ∈ (walk.runFrom (start, tally)).2.1.2, call.isQuiet = true) →
    ∃ result : Except PassError Unit, (walk.runFrom (start, tally)).1 = result.map (fun _ => value) ∧
      look.runFrom start = (result, (walk.runFrom (start, tally)).2.1)

private theorem agrees_pure (value : α) : Agrees value (pure value : Walk (σ × List Call) α) (pure ()) :=
  fun _ _ _ => ⟨.ok (), rfl, rfl⟩

private theorem Agrees.bind {value : α} {other : β} {walk : Walk (σ × List Call) α}
    {look look' : Step (σ × List Call) Unit} {next : α → Walk (σ × List Call) β} (first : Agrees value walk look)
    (accounts : ∀ value, Accounts (next value)) (second : Agrees other (next value) look') :
    Agrees other (walk >>= next) (do look; look') := by
  intro start tally quiet
  have early := first start tally
  rcases run : walk.runFrom (start, tally) with ⟨cause | found, middle, total⟩ <;> rw [run] at early
  · rw [runFrom_bind_error run] at quiet ⊢
    obtain ⟨result, same, looked⟩ := early quiet
    cases result with
    | error other => exact ⟨.error cause, rfl, Except.error.inj same ▸ runFrom_bind_error looked _⟩
    | ok => cases same
  · rw [runFrom_bind run] at quiet ⊢
    -- What was noted so far stays noted, so it asks for no change either.
    obtain ⟨calls, log, -⟩ := accounts found (middle, total)
    obtain ⟨result, same, looked⟩ := early fun call member => quiet call (log ▸ List.mem_append_left calls member)
    cases result with
    | error => cases same
    | ok =>
      obtain rfl : found = value := Except.ok.inj same
      rw [runFrom_bind looked]
      exact second middle total quiet

private theorem Agrees.map {value : α} {walk : Walk (σ × List Call) α} {look : Step (σ × List Call) Unit}
    (agrees : Agrees value walk look) (turn : α → β) : Agrees (turn value) (do return turn (← walk)) look := by
  intro start tally quiet
  have early := agrees start tally
  rcases run : walk.runFrom (start, tally) with ⟨cause | found, middle, total⟩ <;> rw [run] at early
  · rw [runFrom_bind_error run] at quiet ⊢
    obtain ⟨result, same, looked⟩ := early quiet
    cases result with
    | error other => exact ⟨.error cause, rfl, Except.error.inj same ▸ looked⟩
    | ok => cases same
  · rw [runFrom_bind run] at quiet ⊢
    obtain ⟨result, same, looked⟩ := early quiet
    cases result with
    | error => cases same
    | ok =>
      obtain rfl : found = value := Except.ok.inj same
      exact ⟨.ok (), rfl, looked⟩

/-- A hook that may put something else in the place of what it is shown. -/
private theorem agrees_hook {step : Step σ (Option α)} {note : Except PassError (Option α) → Call}
    (loud : ∀ value, (note (.ok (some value))).isQuiet = false) :
    Agrees none (step.noted note).onFirst (discard (step.noted note)) := by
  rintro ⟨state, log⟩ tally quiet
  rcases run : step.runFrom state with ⟨cause | _ | value, next⟩ <;>
    rw [runFrom_onFirst (runFrom_noted run note log)] at quiet ⊢
  · exact ⟨.error cause, rfl, runFrom_bind_error (runFrom_noted run note log) _⟩
  · exact ⟨.ok (), rfl, runFrom_discard (runFrom_noted run note log)⟩
  · have still := quiet (note (.ok (some value))) (List.mem_append_right _ List.mem_cons_self)
    rw [loud value] at still
    cases still

section Walks

variable {visitor : Visitor σ} {substitute : Stmt → Walk (σ × List Call) Stmt}

private theorem agrees_depart (stmt : Stmt) :
    Agrees [stmt] (visitor.noting.depart stmt) (discard (visitor.noting.leave stmt)) := by
  rintro ⟨state, log⟩ tally quiet
  rcases left : (visitor.leave stmt).runFrom state with ⟨cause | edit, next⟩ <;>
    rw [runFrom_depart, runFrom_noting_leave left] at quiet ⊢
  · exact ⟨.error cause, rfl, runFrom_bind_error (runFrom_noting_leave left log) _⟩
  · have still := quiet (.leave stmt (.ok edit)) (List.mem_append_right _ List.mem_cons_self)
    cases edit with
    | keep => exact ⟨.ok (), rfl, runFrom_discard (runFrom_noting_leave left log)⟩
    | replace | splice | remove => cases still

private theorem agrees_visit (substitutes : ∀ stmt, Accounts (substitute stmt)) {stmt : Stmt}
    {inside : Walk (σ × List Call) Stmt} {look : Step (σ × List Call) Unit} (within : Agrees stmt inside look) :
    Agrees [stmt] (visitor.noting.visit substitute stmt inside) (do
      discard (visitor.noting.enter stmt)
      look
      discard (visitor.noting.leave stmt)) := by
  rintro ⟨state, log⟩ tally quiet
  rcases entered : (visitor.enter stmt).runFrom state with ⟨cause | _ | other, next⟩ <;>
    rw [runFrom_visit_eq, runFrom_noting_enter entered] at quiet ⊢
  · have stopped := runFrom_bind_error (runFrom_noting_enter entered log) fun _ => pure ()
    exact ⟨.error cause, rfl, runFrom_bind_error stopped _⟩
  · obtain ⟨result, same, looked⟩ := within.bind accounts_depart (agrees_depart stmt) _ _ quiet
    refine ⟨result, same, ?_⟩
    rw [runFrom_bind (runFrom_discard (runFrom_noting_enter entered log))]
    exact looked
  · -- The substitution was noted, and what follows keeps it.
    obtain ⟨calls, noted, -⟩ := (substitutes other).bind accounts_depart
      ((next, log ++ [.enter stmt (.ok (some other))]), (tally.add .entry).add .replacement)
    have member : Call.enter stmt (.ok (some other)) ∈ (log ++ [.enter stmt (.ok (some other))]) ++ calls := by simp
    cases quiet _ (noted ▸ member)

private theorem agrees_walkInside {stmt : Stmt}
    (within : Agrees (stmt.body?.getD []) (visitor.noting.walkBody substitute (stmt.body?.getD []))
      (visitor.noting.inspectBody (stmt.body?.getD []))) :
    Agrees stmt (visitor.noting.walkInside substitute stmt) (visitor.noting.inspectBody (stmt.body?.getD [])) := by
  cases holds : stmt.body? with
  | none =>
    rw [walkInside_leaf holds]
    exact agrees_pure stmt
  | some body =>
    rw [holds] at within
    have same : stmt.withBody body = stmt := by
      cases stmt with
      | space | classDecl | method => cases holds; rfl
      | property | constant | throw | expr => rfl
    have agrees := within.map stmt.withBody
    rwa [Option.getD_some, same, ← walkInside_node holds] at agrees

private theorem agrees_walkBody (substitutes : ∀ stmt, Accounts (substitute stmt)) (body : List Stmt) :
    Agrees body (visitor.noting.walkBody substitute body) (visitor.noting.inspectBody body) := by
  induction body using Tree.induction_inside with
  | nil => exact agrees_pure []
  | cons stmt rest within later =>
    rw [walkBody, walkStmt_eq, inspectBody, inspectStmt_eq]
    refine (agrees_visit substitutes (agrees_walkInside within)).bind (fun front => ?_) (later.map ([stmt] ++ ·))
    exact (accounts_walkBody substitutes rest).bind fun back => accounts_pure (front ++ back)

end Walks

/-- If no call of a walk asks for a change, looking at the tree has the outcome of the walk, which gives the tree back,
and makes the same calls. -/
theorem exists_result_of_isQuiet {visitor : Visitor σ} {state : σ} {tree : Tree}
    (quiet : ∀ call ∈ visitor.calls state tree, call.isQuiet = true) :
    ∃ result : Except PassError Unit, (visitor.traverse state tree).1 = result.map (fun _ => tree) ∧
      visitor.inspect state tree = (result, (visitor.traverse state tree).2.1) ∧
      visitor.viewings state tree = visitor.calls state tree := by
  have agrees : Agrees tree (visitor.noting.walkCounted tree) (visitor.noting.look tree) :=
    (agrees_hook fun _ => rfl).bind (fun _ => accounts_walked _) <|
      (agrees_walkBody (accounts_walkSubstitute _) tree).bind accounts_after
        ((agrees_hook fun _ => rfl).map (·.getD tree))
  have noted := traverse_noting visitor state tree
  rw [traverse_eq] at noted
  obtain ⟨result, same, looked⟩ := agrees (state, []) .traversal (by rw [noted]; exact quiet)
  rw [noted] at same looked
  have viewed := (inspect_noting visitor state tree).symm.trans looked
  rw [Prod.mk.injEq, Prod.mk.injEq] at viewed
  exact ⟨result, same, Prod.ext viewed.1 viewed.2.1, viewed.2.2⟩

/-- If no call of a walk asks for a change, looking at the tree makes the same calls in the same order and leaves
the same state. Either both fail for the same cause, or the walk gives the tree back and counts no change. -/
theorem traverse_agrees_inspect (visitor : Visitor σ) (state : σ) (tree : Tree)
    (quiet : ∀ call ∈ visitor.calls state tree, call.isQuiet = true) :
    visitor.viewings state tree = visitor.calls state tree ∧
      (visitor.inspect state tree).2 = (visitor.traverse state tree).2.1 ∧
      ((∃ cause, (visitor.traverse state tree).1 = .error cause ∧ (visitor.inspect state tree).1 = .error cause) ∨
        ((visitor.traverse state tree).1 = .ok tree ∧ (visitor.inspect state tree).1 = .ok () ∧
          (visitor.traverse state tree).2.2.replacements = 0 ∧ (visitor.traverse state tree).2.2.removals = 0)) := by
  obtain ⟨result, same, looked, viewed⟩ := exists_result_of_isQuiet quiet
  have counted := Call.total_of_isQuiet quiet
  rw [looked]
  refine ⟨viewed, rfl, ?_⟩
  cases result with
  | error cause => exact .inl ⟨cause, same, rfl⟩
  | ok =>
    rw [tally_traverse]
    exact .inr ⟨same, rfl, by simpa [Tally.add, Tally.traversal] using counted⟩

/-- A class with an announced method, and with a class inside of a method's body. -/
def helperTree : Tree :=
  [.space (some ⟨["App"], false⟩) [.classDecl { name := "User" } [
    .method { name := "id", isAbstract := true } none,
    .method { name := "make" } (some [.classDecl { name := "Helper" } []])]]]

theorem traverse_agrees_inspect_helper :
    (∀ call ∈ Resolver.visitor.calls {} helperTree, call.isQuiet = true) ∧
      Resolver.visitor.viewings {} helperTree = Resolver.visitor.calls {} helperTree ∧
      (Resolver.visitor.calls {} helperTree).length = 7 ∧
      Resolver.visitor.inspect {} helperTree =
        (.error (.ambiguous "multiple classes discovered"), ⟨some ["App"], some "User"⟩) := by
  have quiet : ∀ call ∈ Resolver.visitor.calls {} helperTree, call.isQuiet = true := by decide
  obtain ⟨same, state, failed | finished⟩ := traverse_agrees_inspect Resolver.visitor {} helperTree quiet
  · obtain ⟨cause, walked, looked⟩ := failed
    obtain rfl : .ambiguous "multiple classes discovered" = cause := Except.error.inj walked
    exact ⟨quiet, same, rfl, Prod.ext looked state⟩
  · cases finished.1

/-! ## Visitors that only watch -/

/-- A visitor whose hooks ask for no change, whatever they are shown. -/
structure Watches (visitor : Visitor σ) : Prop where
  before (tree : Tree) (state : σ) : (Call.before tree ((visitor.before tree).runFrom state).1).isQuiet = true
  enter (stmt : Stmt) (state : σ) : (Call.enter stmt ((visitor.enter stmt).runFrom state).1).isQuiet = true
  leave (stmt : Stmt) (state : σ) : (Call.leave stmt ((visitor.leave stmt).runFrom state).1).isQuiet = true
  after (tree : Tree) (state : σ) : (Call.after tree ((visitor.after tree).runFrom state).1).isQuiet = true

/-- Noting a step adds one call, which asks for no change if no answer of the step does. -/
private theorem simulates_noted_quiet {step : Step σ α} {note : Except PassError α → Call}
    (still : ∀ state, (note (step.runFrom state).1).isQuiet = true) :
    Simulates (fun noted state => noted.1 = state ∧ ∀ call ∈ noted.2, call.isQuiet = true) (step.noted note) step := by
  rintro ⟨_, log⟩ state ⟨rfl, quiet⟩
  refine ⟨rfl, rfl, fun call member => ?_⟩
  rcases List.mem_append.mp member with early | last
  · exact quiet call early
  · rw [List.mem_singleton.mp last]
    exact still _

theorem Watches.isQuiet_of_mem_calls {visitor : Visitor σ} (watches : visitor.Watches) (state : σ) (tree : Tree) :
    ∀ call ∈ visitor.calls state tree, call.isQuiet = true := by
  have mimics : Mimics (fun noted state => noted.1 = state ∧ ∀ call ∈ noted.2, call.isQuiet = true)
      visitor.noting visitor :=
    ⟨fun stmt => simulates_noted_quiet (watches.enter stmt), fun stmt => simulates_noted_quiet (watches.leave stmt),
      fun tree => simulates_noted_quiet (watches.after tree)⟩
  obtain ⟨-, ⟨-, quiet⟩, -⟩ :=
    mimics.traverse (simulates_noted_quiet (watches.before tree) (state, []) state ⟨rfl, nofun⟩)
  exact quiet

/-- A visitor that only watches may walk a tree or look at it. -/
theorem Watches.traverse_eq_inspect {visitor : Visitor σ} (watches : visitor.Watches) (state : σ) (tree : Tree) :
    (visitor.traverse state tree).1 = (visitor.inspect state tree).1.map (fun _ => tree) ∧
      (visitor.traverse state tree).2.1 = (visitor.inspect state tree).2 := by
  obtain ⟨result, same, looked, -⟩ := exists_result_of_isQuiet (watches.isQuiet_of_mem_calls state tree)
  rw [looked]
  exact ⟨same, rfl⟩

end Visitor

end ClassForge
