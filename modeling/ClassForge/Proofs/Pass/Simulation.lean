import ClassForge.Pass.Basic
import ClassForge.Proofs.Pass.Walk

/-! # Visitors side by side

Two visitors with states of their own answer alike as long as their states are related, and leave them related.
Then they make the same of every tree, stop at the same point and count the same. So a visitor does the same
when its state becomes part of a larger state, whether its walk succeeds or fails.
-/

namespace ClassForge

namespace Step

variable {σ τ γ α β : Type} {related : τ → σ → Prop}

/-- The same result, and related states behind it. -/
def Matches (related : τ → σ → Prop) (large : Except PassError α × τ) (small : Except PassError α × σ) : Prop :=
  large.1 = small.1 ∧ related large.2 small.2

/-- From related states, two steps have the same result and leave related states. -/
def Simulates (related : τ → σ → Prop) (large : Step τ α) (small : Step σ α) : Prop :=
  ∀ whole state, related whole state → Matches related (large.runFrom whole) (small.runFrom state)

/-- Related states beside the same value of something else. -/
def Beside (related : τ → σ → Prop) (whole : τ × γ) (state : σ × γ) : Prop :=
  related whole.1 state.1 ∧ whole.2 = state.2

theorem simulates_pure (value : α) : Simulates related (pure value) (pure value) :=
  fun _ _ same => ⟨rfl, same⟩

theorem simulates_throw (cause : PassError) : Simulates related (throw cause : Step τ α) (throw cause) :=
  fun _ _ same => ⟨rfl, same⟩

theorem Matches.bind {large : Step τ α} {small : Step σ α} {whole : τ} {state : σ} {next : α → Step τ β}
    {next' : α → Step σ β} (first : Matches related (large.runFrom whole) (small.runFrom state))
    (second : ∀ value, Simulates related (next value) (next' value)) :
    Matches related ((large >>= next).runFrom whole) ((small >>= next').runFrom state) := by
  obtain ⟨same, after⟩ := first
  rcases run' : large.runFrom whole with ⟨result, middle'⟩
  rcases run : small.runFrom state with ⟨result', middle⟩
  rw [run, run'] at same after
  obtain rfl : result = result' := same
  cases result with
  | error cause =>
    rw [runFrom_bind_error run, runFrom_bind_error run']
    exact ⟨rfl, after⟩
  | ok value =>
    rw [runFrom_bind run, runFrom_bind run']
    exact second value middle' middle after

theorem Simulates.bind {large : Step τ α} {small : Step σ α} {next : α → Step τ β} {next' : α → Step σ β}
    (first : Simulates related large small) (second : ∀ value, Simulates related (next value) (next' value)) :
    Simulates related (large >>= next) (small >>= next') :=
  fun whole state same => (first whole state same).bind second

theorem Simulates.discard {large : Step τ α} {small : Step σ α} (step : Simulates related large small) :
    Simulates related (discard large) (discard small) :=
  step.bind fun _ => simulates_pure ()

theorem Matches.onFirst {large : Step τ α} {small : Step σ α} {whole : τ} {state : σ}
    (hook : Matches related (large.runFrom whole) (small.runFrom state)) (other : γ) :
    Matches (Beside related) (large.onFirst.runFrom (whole, other)) (small.onFirst.runFrom (state, other)) :=
  ⟨hook.1, hook.2, rfl⟩

theorem Simulates.onFirst {large : Step τ α} {small : Step σ α} (hook : Simulates related large small) :
    Simulates (Beside (γ := γ) related) large.onFirst small.onFirst := by
  rintro ⟨whole, other⟩ ⟨state, _⟩ ⟨same, rfl⟩
  exact (hook whole state same).onFirst other

end Step

namespace Visitor

open Step

variable {σ τ : Type} {related : τ → σ → Prop} {large : Visitor τ} {small : Visitor σ}

/-- On related states, the hooks of two visitors do the same. -/
structure Mimics (related : τ → σ → Prop) (large : Visitor τ) (small : Visitor σ) : Prop where
  enter (stmt : Stmt) : Simulates related (large.enter stmt) (small.enter stmt)
  leave (stmt : Stmt) : Simulates related (large.leave stmt) (small.leave stmt)
  after (tree : Tree) : Simulates related (large.after tree) (small.after tree)

private theorem simulates_count (tally : Tally) :
    Simulates (Beside related) (count tally : Walk τ Unit) (count tally : Walk σ Unit) := by
  rintro ⟨whole, total⟩ ⟨state, _⟩ ⟨same, rfl⟩
  exact ⟨rfl, same, rfl⟩

variable {substitute : Stmt → Walk τ Stmt} {substitute' : Stmt → Walk σ Stmt}

private theorem simulates_walkInside {stmt : Stmt}
    (within : Simulates (Beside related) (large.walkBody substitute (stmt.body?.getD []))
      (small.walkBody substitute' (stmt.body?.getD []))) :
    Simulates (Beside related) (large.walkInside substitute stmt) (small.walkInside substitute' stmt) := by
  cases holds : stmt.body? with
  | none =>
    rw [walkInside_leaf holds, walkInside_leaf holds]
    exact simulates_pure stmt
  | some body =>
    rw [holds] at within
    rw [walkInside_node holds, walkInside_node holds]
    exact within.bind fun body => simulates_pure (stmt.withBody body)

section Mimics

variable (mimics : Mimics related large small)
include mimics

private theorem simulates_depart (stmt : Stmt) :
    Simulates (Beside related) (large.depart stmt) (small.depart stmt) := by
  refine (mimics.leave stmt).onFirst.bind fun edit => ?_
  cases edit with
  | keep => exact simulates_pure _
  | replace | splice | remove => exact (simulates_count _).bind fun _ => simulates_pure _

private theorem simulates_visit
    (substitutes : ∀ stmt, Simulates (Beside related) (substitute stmt) (substitute' stmt)) (stmt : Stmt)
    {inside : Walk τ Stmt} {inside' : Walk σ Stmt} (within : Simulates (Beside related) inside inside') :
    Simulates (Beside related) (large.visit substitute stmt inside) (small.visit substitute' stmt inside') := by
  refine (simulates_count _).bind fun _ => (mimics.enter stmt).onFirst.bind fun other => ?_
  cases other with
  | none => exact within.bind (simulates_depart mimics)
  | some other =>
    exact (simulates_count _).bind fun _ => (substitutes other).bind (simulates_depart mimics)

private theorem simulates_walkBody
    (substitutes : ∀ stmt, Simulates (Beside related) (substitute stmt) (substitute' stmt)) (body : List Stmt) :
    Simulates (Beside related) (large.walkBody substitute body) (small.walkBody substitute' body) := by
  induction body using Tree.induction_inside with
  | nil => exact simulates_pure []
  | cons stmt rest within later =>
    rw [walkBody, walkBody, walkStmt_eq, walkStmt_eq]
    have first := simulates_visit mimics substitutes stmt (simulates_walkInside within)
    exact first.bind fun front => later.bind fun back => simulates_pure (front ++ back)

private theorem simulates_walkSubstitute (limit : Nat) (stmt : Stmt) :
    Simulates (Beside related) (large.walkSubstitute limit stmt) (small.walkSubstitute limit stmt) := by
  induction limit generalizing stmt with
  | zero => exact simulates_throw _
  | succ limit ih =>
    rw [walkSubstitute_succ, walkSubstitute_succ]
    exact simulates_walkInside (simulates_walkBody mimics ih _)

/-- Visitors that do the same from the start on make the same of a tree and count the same. -/
theorem Mimics.traverse {whole : τ} {state : σ} {tree : Tree}
    (start : Matches related ((large.before tree).runFrom whole) ((small.before tree).runFrom state)) :
    Matches (Beside related) (large.traverse whole tree) (small.traverse state tree) := by
  rw [traverse_eq, traverse_eq]
  exact (start.onFirst _).bind fun _ =>
    (simulates_walkBody mimics (simulates_walkSubstitute mimics _) _).bind fun _ =>
      (mimics.after _).onFirst.bind fun _ => simulates_pure _

private theorem simulates_inspectBody (body : List Stmt) :
    Simulates related (large.inspectBody body) (small.inspectBody body) := by
  induction body using Tree.induction_inside with
  | nil => exact simulates_pure ()
  | cons stmt rest within later =>
    rw [inspectBody, inspectBody, inspectStmt_eq, inspectStmt_eq]
    have first := (mimics.enter stmt).discard.bind fun _ => within.bind fun _ => (mimics.leave stmt).discard
    exact first.bind fun _ => later

/-- Visitors that do the same from the start on are shown the same tree alike. -/
theorem Mimics.inspect {whole : τ} {state : σ} {tree : Tree}
    (start : Matches related ((large.before tree).runFrom whole) ((small.before tree).runFrom state)) :
    Matches related (large.inspect whole tree) (small.inspect state tree) :=
  (start.bind fun _ => simulates_pure ()).bind fun _ =>
    (simulates_inspectBody mimics tree).bind fun _ => (mimics.after tree).discard

end Mimics

/-! ## A part of a larger state -/

/-- A part of a larger state that can be changed by itself. -/
structure IsPart (part : τ → σ) (update : σ → τ → τ) : Prop where
  part_update (state : σ) (whole : τ) : part (update state whole) = state
  update_part (whole : τ) : update (part whole) whole = whole
  update_update (later earlier : σ) (whole : τ) : update later (update earlier whole) = update later whole

section Through

variable {part : τ → σ} {update : σ → τ → τ} {visitor : Visitor σ} (lawful : IsPart part update)
include lawful

private theorem simulates_through {α : Type} (step : Step σ α) (base : τ) :
    Simulates (fun whole state => whole = update state base) (step.through part update) step := by
  rintro _ state rfl
  have run : (step.through part update).runFrom (update state base) =
      ((step.runFrom state).1, update (step.runFrom state).2 (update state base)) :=
    runFrom_through (lawful.part_update state base) rfl
  rw [run]
  exact ⟨rfl, lawful.update_update _ _ _⟩

/-- A visitor does the same when its state is part of a larger one, of which the rest stays. -/
theorem traverse_through (whole : τ) (tree : Tree) :
    (visitor.through part update).traverse whole tree =
      Prod.map id (Prod.map (update · whole) id) (visitor.traverse (part whole) tree) := by
  have mimics : Mimics (fun large state => large = update state whole) (visitor.through part update) visitor :=
    ⟨fun _ => simulates_through lawful _ whole, fun _ => simulates_through lawful _ whole,
      fun _ => simulates_through lawful _ whole⟩
  have start := simulates_through lawful (visitor.before tree) whole whole (part whole) (lawful.update_part whole).symm
  obtain ⟨result, state, tally⟩ := mimics.traverse start
  exact Prod.ext result (Prod.ext state tally)

theorem result_traverse_through (whole : τ) (tree : Tree) :
    ((visitor.through part update).traverse whole tree).1 = (visitor.traverse (part whole) tree).1 := by
  rw [traverse_through lawful]
  rfl

end Through

/-- A visitor that forgets what it kept before each run. -/
def Forgets (visitor : Visitor σ) : Prop :=
  ∀ tree state other, (visitor.before tree).runFrom state = (visitor.before tree).runFrom other

theorem Forgets.traverse {visitor : Visitor σ} (forgets : visitor.Forgets) (state other : σ) (tree : Tree) :
    visitor.traverse state tree = visitor.traverse other tree := by
  have same {α : Type} (step : Step σ α) : Simulates Eq step step := by
    rintro state _ rfl
    exact ⟨rfl, rfl⟩
  have mimics : Mimics Eq visitor visitor := ⟨fun _ => same _, fun _ => same _, fun _ => same _⟩
  have start : Matches Eq ((visitor.before tree).runFrom state) ((visitor.before tree).runFrom other) := by
    rw [forgets tree state other]
    exact ⟨rfl, rfl⟩
  obtain ⟨result, after, tally⟩ := mimics.traverse start
  exact Prod.ext result (Prod.ext after tally)

end Visitor

/-! ## The parts that passes keep -/

namespace Pass

theorem isPart_scope : Visitor.IsPart PassState.scope fun scope (state : PassState) => { state with scope } :=
  ⟨fun _ _ => rfl, fun _ => rfl, fun _ _ _ => rfl⟩

theorem isPart_renamer : Visitor.IsPart PassState.renamer fun renamer (state : PassState) => { state with renamer } :=
  ⟨fun _ _ => rfl, fun _ => rfl, fun _ _ _ => rfl⟩

theorem isPart_resolver :
    Visitor.IsPart PassState.resolver fun resolver (state : PassState) => { state with resolver } :=
  ⟨fun _ _ => rfl, fun _ => rfl, fun _ _ _ => rfl⟩

theorem isPart_unit : Visitor.IsPart (fun _ : PassState => ()) fun _ state => state :=
  ⟨fun _ _ => rfl, fun _ => rfl, fun _ _ _ => rfl⟩

end Pass

end ClassForge
