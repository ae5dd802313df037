import ClassForge.Proofs.Pass.Simulation

/-! # The calls of a visitor's hooks

A visitor can note every call of its hooks, with what the hook was shown and how it answered. Noting changes
nothing about what the visitor does. The calls of a run amount to what the run counts, whether it succeeds or
fails: every call on entering is an entry, and the answers say what is replaced and removed.
-/

namespace ClassForge

namespace Tally

@[simp] theorem add_empty (tally : Tally) : tally.add {} = tally :=
  rfl

@[simp] theorem empty_add (tally : Tally) : Tally.add {} tally = tally := by
  simp [add]

theorem add_assoc (a b c : Tally) : (a.add b).add c = a.add (b.add c) := by
  simp [add, Nat.add_assoc]

end Tally

/-- A call of a hook: what it was shown, and its answer. -/
inductive Call where
  | before (tree : Tree) (answer : Except PassError (Option Tree))
  | enter (stmt : Stmt) (answer : Except PassError (Option Stmt))
  | leave (stmt : Stmt) (answer : Except PassError Edit)
  | after (tree : Tree) (answer : Except PassError (Option Tree))

namespace Call

/-- Whether the answer asks for no change. A failure asks for none. -/
def isQuiet : Call → Bool
  | .before _ (.ok (some _)) => false
  | .enter _ (.ok (some _)) => false
  | .leave _ (.ok (.replace _)) => false
  | .leave _ (.ok (.splice _)) => false
  | .leave _ (.ok .remove) => false
  | .after _ (.ok (some _)) => false
  | _ => true

/-- What is counted for a call. -/
def tally : Call → Tally
  | .enter _ (.ok (some _)) => Tally.entry.add .replacement
  | .enter _ _ => .entry
  | .leave _ (.ok edit) => edit.tally
  | _ => {}

/-- What is counted for calls. -/
def total (calls : List Call) : Tally :=
  calls.foldr (fun call rest => call.tally.add rest) {}

theorem total_append (front back : List Call) : total (front ++ back) = (total front).add (total back) := by
  induction front with
  | nil => simp [total]
  | cons call rest ih => exact (congrArg _ ih).trans (Tally.add_assoc _ _ _).symm

/-- Calls that ask for no change count as entries at most. -/
theorem total_of_isQuiet {calls : List Call} (quiet : ∀ call ∈ calls, call.isQuiet = true) :
    (total calls).replacements = 0 ∧ (total calls).removals = 0 := by
  induction calls with
  | nil => exact ⟨rfl, rfl⟩
  | cons call rest ih =>
    obtain ⟨replacements, removals⟩ := ih fun other member => quiet other (List.mem_cons_of_mem _ member)
    have own : call.tally.replacements = 0 ∧ call.tally.removals = 0 := by
      have still := quiet call List.mem_cons_self
      rcases call with ⟨_, _ | _ | _⟩ | ⟨_, _ | _ | _⟩ | ⟨_, _ | _ | _ | _ | _⟩ | ⟨_, _ | _ | _⟩ <;>
        first | exact ⟨rfl, rfl⟩ | cases still
    change call.tally.replacements + (total rest).replacements = 0 ∧ call.tally.removals + (total rest).removals = 0
    rw [own.1, own.2, replacements, removals]
    exact ⟨rfl, rfl⟩

end Call

/-- A step that is noted behind earlier calls, whatever comes out of it. -/
def Step.noted {σ α : Type} (step : Step σ α) (note : Except PassError α → Call) : Step (σ × List Call) α :=
  Step.ofFunction fun (state, calls) =>
    let (result, state) := step.runFrom state
    (result, state, calls ++ [note result])

namespace Visitor

open Step

variable {σ α β : Type}

/-- The visitor, noting every call of its hooks. -/
def noting (visitor : Visitor σ) : Visitor (σ × List Call) where
  name := visitor.name
  before tree := (visitor.before tree).noted (.before tree)
  enter stmt := (visitor.enter stmt).noted (.enter stmt)
  leave stmt := (visitor.leave stmt).noted (.leave stmt)
  after tree := (visitor.after tree).noted (.after tree)

/-- The calls of a visitor's hooks while it makes something of a tree. -/
def calls (visitor : Visitor σ) (state : σ) (tree : Tree) : List Call :=
  (visitor.noting.traverse (state, []) tree).2.1.2

/-- The calls of a visitor's hooks while it is shown a tree. -/
def viewings (visitor : Visitor σ) (state : σ) (tree : Tree) : List Call :=
  (visitor.noting.inspect (state, []) tree).2.2

theorem runFrom_noted {step : Step σ α} {state after : σ} {result : Except PassError α}
    (run : step.runFrom state = (result, after)) (note : Except PassError α → Call) (log : List Call) :
    (step.noted note).runFrom (state, log) = (result, after, log ++ [note result]) := by
  change ((step.runFrom state).1, (step.runFrom state).2, log ++ [note (step.runFrom state).1]) = _
  rw [run]

/-! ## Noting changes nothing -/

private theorem simulates_noted (step : Step σ α) (note : Except PassError α → Call) :
    Simulates (fun noted state => noted.1 = state) (step.noted note) step := by
  rintro ⟨_, log⟩ state rfl
  exact ⟨rfl, rfl⟩

private theorem mimics_noting (visitor : Visitor σ) :
    Mimics (fun noted state => noted.1 = state) visitor.noting visitor :=
  ⟨fun _ => simulates_noted _ _, fun _ => simulates_noted _ _, fun _ => simulates_noted _ _⟩

theorem traverse_noting (visitor : Visitor σ) (state : σ) (tree : Tree) :
    visitor.noting.traverse (state, []) tree =
      ((visitor.traverse state tree).1, ((visitor.traverse state tree).2.1, visitor.calls state tree),
        (visitor.traverse state tree).2.2) := by
  obtain ⟨result, after, tally⟩ :=
    (mimics_noting visitor).traverse (simulates_noted (visitor.before tree) (.before tree) (state, []) state rfl)
  exact Prod.ext result (Prod.ext (Prod.ext after rfl) tally)

theorem inspect_noting (visitor : Visitor σ) (state : σ) (tree : Tree) :
    visitor.noting.inspect (state, []) tree =
      ((visitor.inspect state tree).1, (visitor.inspect state tree).2, visitor.viewings state tree) := by
  obtain ⟨result, after⟩ :=
    (mimics_noting visitor).inspect (simulates_noted (visitor.before tree) (.before tree) (state, []) state rfl)
  exact Prod.ext result (Prod.ext after rfl)

/-! ## Calls account for what is counted -/

/-- Between two points of a run, calls were noted, and they amount to what was counted. -/
def Leads (start finish : (σ × List Call) × Tally) : Prop :=
  ∃ calls, finish.1.2 = start.1.2 ++ calls ∧ finish.2 = start.2.add (Call.total calls)

theorem Leads.refl (start : (σ × List Call) × Tally) : Leads start start :=
  ⟨[], (List.append_nil _).symm, rfl⟩

theorem Leads.trans {start middle finish : (σ × List Call) × Tally} (first : Leads start middle)
    (second : Leads middle finish) : Leads start finish := by
  obtain ⟨front, log, tally⟩ := first
  obtain ⟨back, log', tally'⟩ := second
  refine ⟨front ++ back, by rw [log', log, List.append_assoc], ?_⟩
  rw [tally', tally, Call.total_append, Tally.add_assoc]

theorem Leads.of_call {state next : σ} {log : List Call} {tally total : Tally} (call : Call)
    (same : total = tally.add call.tally) : Leads ((state, log), tally) ((next, log ++ [call]), total) :=
  ⟨[call], rfl, same⟩

/-- A walk that notes what it counts, whatever comes out of it. -/
def Accounts (walk : Walk (σ × List Call) α) : Prop :=
  ∀ start, Leads start (walk.runFrom start).2

theorem accounts_pure (value : α) : Accounts (pure value : Walk (σ × List Call) α) :=
  fun start => .refl start

theorem Accounts.bind {walk : Walk (σ × List Call) α} {next : α → Walk (σ × List Call) β} (first : Accounts walk)
    (second : ∀ value, Accounts (next value)) : Accounts (walk >>= next) := by
  intro start
  have early := first start
  rcases run : walk.runFrom start with ⟨cause | value, middle⟩ <;> rw [run] at early
  · rw [runFrom_bind_error run]
    exact early
  · rw [runFrom_bind run]
    exact early.trans (second value middle)

section Walks

variable {visitor : Visitor σ} {substitute : Stmt → Walk (σ × List Call) Stmt}

theorem runFrom_noting_enter {stmt : Stmt} {state next : σ} {answer : Except PassError (Option Stmt)}
    (entered : (visitor.enter stmt).runFrom state = (answer, next)) (log : List Call) :
    (visitor.noting.enter stmt).runFrom (state, log) = (answer, next, log ++ [.enter stmt answer]) :=
  runFrom_noted entered _ log

theorem runFrom_noting_leave {stmt : Stmt} {state next : σ} {answer : Except PassError Edit}
    (left : (visitor.leave stmt).runFrom state = (answer, next)) (log : List Call) :
    (visitor.noting.leave stmt).runFrom (state, log) = (answer, next, log ++ [.leave stmt answer]) :=
  runFrom_noted left _ log

theorem accounts_depart (stmt : Stmt) : Accounts (visitor.noting.depart stmt) := by
  rintro ⟨⟨state, log⟩, tally⟩
  rcases left : (visitor.leave stmt).runFrom state with ⟨cause | edit, next⟩
  · rw [runFrom_depart, runFrom_noting_leave left]
    exact .of_call (.leave stmt (.error cause)) rfl
  · rw [runFrom_depart, runFrom_noting_leave left]
    exact .of_call (.leave stmt (.ok edit)) rfl

theorem accounts_visit (substitutes : ∀ stmt, Accounts (substitute stmt)) (stmt : Stmt)
    {inside : Walk (σ × List Call) Stmt} (within : Accounts inside) :
    Accounts (visitor.noting.visit substitute stmt inside) := by
  rintro ⟨⟨state, log⟩, tally⟩
  rcases entered : (visitor.enter stmt).runFrom state with ⟨cause | _ | other, next⟩
  · rw [runFrom_visit_eq, runFrom_noting_enter entered]
    exact .of_call (.enter stmt (.error cause)) rfl
  · rw [runFrom_visit_eq, runFrom_noting_enter entered]
    exact (Leads.of_call (.enter stmt (.ok none)) rfl).trans (within.bind accounts_depart _)
  · rw [runFrom_visit_eq, runFrom_noting_enter entered]
    refine (Leads.of_call (.enter stmt (.ok (some other))) ?_).trans ((substitutes other).bind accounts_depart _)
    exact Tally.add_assoc _ _ _

theorem accounts_walkInside {stmt : Stmt}
    (within : Accounts (visitor.noting.walkBody substitute (stmt.body?.getD []))) :
    Accounts (visitor.noting.walkInside substitute stmt) := by
  cases holds : stmt.body? with
  | none =>
    rw [walkInside_leaf holds]
    exact accounts_pure stmt
  | some body =>
    rw [holds] at within
    rw [walkInside_node holds]
    exact within.bind fun body => accounts_pure (stmt.withBody body)

theorem accounts_walkBody (substitutes : ∀ stmt, Accounts (substitute stmt)) (body : List Stmt) :
    Accounts (visitor.noting.walkBody substitute body) := by
  induction body using Tree.induction_inside with
  | nil => exact accounts_pure []
  | cons stmt rest within later =>
    rw [walkBody, walkStmt_eq]
    exact (accounts_visit substitutes stmt (accounts_walkInside within)).bind fun front =>
      later.bind fun back => accounts_pure (front ++ back)

theorem accounts_walkSubstitute (limit : Nat) (stmt : Stmt) : Accounts (visitor.noting.walkSubstitute limit stmt) := by
  induction limit generalizing stmt with
  | zero => exact fun start => .refl start
  | succ limit ih =>
    rw [walkSubstitute_succ]
    exact accounts_walkInside (accounts_walkBody ih _)

theorem accounts_after (tree : Tree) :
    Accounts do return (← (visitor.noting.after tree).onFirst).getD tree := by
  refine Accounts.bind ?_ fun _ => accounts_pure _
  rintro ⟨⟨state, log⟩, tally⟩
  exact .of_call (.after tree ((visitor.after tree).runFrom state).1) rfl

/-- What follows the first call of a run. -/
theorem accounts_walked (tree : Tree) : Accounts do
    let tree ← visitor.noting.walkBody (visitor.noting.walkSubstitute substitutionLimit) tree
    return (← (visitor.noting.after tree).onFirst).getD tree :=
  (accounts_walkBody (accounts_walkSubstitute _) tree).bind accounts_after

theorem accounts_walkCounted (tree : Tree) : Accounts (visitor.noting.walkCounted tree) := by
  refine Accounts.bind ?_ fun _ => accounts_walked _
  rintro ⟨⟨state, log⟩, tally⟩
  exact .of_call (.before tree ((visitor.before tree).runFrom state).1) rfl

end Walks

/-- What a run counts is the run itself and what its calls amount to. -/
theorem tally_traverse (visitor : Visitor σ) (state : σ) (tree : Tree) :
    (visitor.traverse state tree).2.2 = Tally.traversal.add (Call.total (visitor.calls state tree)) := by
  have noted := traverse_noting visitor state tree
  rw [traverse_eq] at noted
  obtain ⟨calls, log, total⟩ := accounts_walkCounted tree ((state, []), .traversal)
  rw [noted] at log total
  exact total.trans (congrArg (fun calls => Tally.traversal.add (Call.total calls)) log.symm)

end Visitor

end ClassForge
