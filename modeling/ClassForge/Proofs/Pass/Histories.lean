import ClassForge.Proofs.Pass.Calls

/-! # Traversers with a past

A traverser is used again and again: visitors are added, trees are walked, some of them only up to a failure, and
what was counted is cleared. Whatever happened to it, the next walk gives what the same visitors would give if they
were new, and what is counted under a name is what the visitors of that name did since the last clearing.
-/

namespace ClassForge

namespace Tally

/-- All of what was counted. -/
def sum (tallies : List Tally) : Tally :=
  tallies.foldr add {}

theorem sum_append (front back : List Tally) : sum (front ++ back) = (sum front).add (sum back) := by
  induction front with
  | nil => exact (empty_add _).symm
  | cons tally rest ih => exact (congrArg tally.add ih).trans (add_assoc _ _ _).symm

end Tally

namespace Tallies

theorem lookup_add (tallies : Tallies) (name other : String) (tally : Tally) :
    (tallies.add name tally).lookup other =
      if other = name then some (((tallies.lookup name).getD {}).add tally) else tallies.lookup other := by
  induction tallies with
  | nil => by_cases same : other = name <;> simp [add, List.lookup_cons, same, beq_eq_false_iff_ne.mpr]
  | cons entry rest ih =>
    obtain ⟨label, total⟩ := entry
    rw [add]
    by_cases labelled : label = name
    · subst labelled
      by_cases same : other = label <;> simp [List.lookup_cons, same, beq_eq_false_iff_ne.mpr]
    · rw [if_neg labelled, List.lookup_cons, ih, List.lookup_cons, List.lookup_cons,
        beq_eq_false_iff_ne.mpr (Ne.symm labelled)]
      by_cases same : other = label
      · subst same
        simp [labelled]
      · rw [beq_eq_false_iff_ne.mpr same]

theorem lookup_clear (tallies : Tallies) (name : String) :
    tallies.clear.lookup name = (tallies.lookup name).map fun _ => {} := by
  induction tallies with
  | nil => rfl
  | cons entry rest ih =>
    rw [clear, List.map_cons, List.lookup_cons, List.lookup_cons]
    cases name == entry.1 with
    | true => rfl
    | false => exact ih

end Tallies

/-! ## The visitors of this library -/

/-- A pass of this library, or its filter of methods with any verdict. -/
inductive Recruit where
  | pass (standard : Pass)
  | filter (verdict : MethodHead → Option (List Stmt) → Verdict)

namespace Recruit

def visitor : Recruit → Visitor PassState
  | .pass standard => standard.visitor
  | .filter verdict => Pass.stateless (Verdict.visitor fun head body => return verdict head body)

/-- What a new visitor makes of a tree. -/
def run (recruit : Recruit) (tree : Tree) : Except PassError Tree :=
  (recruit.visitor.traverse {} tree).1

/-- What new visitors make of a tree, from left to right and up to the first that fails. -/
def relay (recruits : List Recruit) (tree : Tree) : Except PassError Tree :=
  recruits.foldlM (fun tree recruit => recruit.run tree) tree

/-- The names of the visitors that start in a relay, up to the first that fails, each with the calls of its hooks. -/
def started : List Recruit → Tree → List (String × List Call)
  | [], _ => []
  | recruit :: rest, tree =>
    (recruit.visitor.name, recruit.visitor.calls {} tree) ::
      match recruit.run tree with
      | .ok tree => started rest tree
      | .error _ => []

end Recruit

/-! ## Visitors start anew -/

section Anew

theorem Resolver.forgets_visitor : Resolver.visitor.Forgets :=
  fun _ _ _ => rfl

theorem Renaming.forgets_visitor (matched target : ClassName) : (Renaming.visitor matched target).Forgets :=
  fun _ _ _ => rfl

theorem forgets_classEditor (name : String) (matched : ClassName) (edit : ClassHead → ClassHead) :
    (classEditor name matched edit).Forgets :=
  fun _ _ _ => rfl

/-- A visitor that keeps nothing has nothing to forget. -/
theorem Visitor.forgets_of_unit (visitor : Visitor Unit) : visitor.Forgets :=
  fun _ _ _ => rfl

variable {σ : Type} {part : PassState → σ} {update : σ → PassState → PassState} {visitor : Visitor σ}

/-- What a visitor makes of a tree and counts does not depend on what it kept. -/
private theorem traverse_eq_new (lawful : Visitor.IsPart part update) (forgets : visitor.Forgets) (state : PassState)
    (tree : Tree) :
    ((visitor.through part update).traverse state tree).1 = ((visitor.through part update).traverse {} tree).1 ∧
      ((visitor.through part update).traverse state tree).2.2 =
        ((visitor.through part update).traverse {} tree).2.2 := by
  rw [Visitor.traverse_through lawful, Visitor.traverse_through lawful, forgets.traverse _ (part {})]
  exact ⟨rfl, rfl⟩

/-- Each visitor starts anew, from whatever an earlier run left. -/
theorem Recruit.traverse_visitor (recruit : Recruit) (state : PassState) (tree : Tree) :
    (recruit.visitor.traverse state tree).1 = recruit.run tree ∧
      (recruit.visitor.traverse state tree).2.2 =
        Tally.traversal.add (Call.total (recruit.visitor.calls {} tree)) := by
  rw [← Visitor.tally_traverse]
  cases recruit with
  | pass standard =>
    cases standard with
    | resolve => exact traverse_eq_new Pass.isPart_resolver Resolver.forgets_visitor state tree
    | rename matched target =>
      exact traverse_eq_new Pass.isPart_renamer (Renaming.forgets_visitor matched target) state tree
    | extend matched parent => exact traverse_eq_new Pass.isPart_scope (forgets_classEditor _ matched _) state tree
    | implement matched interfaces =>
      exact traverse_eq_new Pass.isPart_scope (forgets_classEditor _ matched _) state tree
    | publicOnly => exact traverse_eq_new Pass.isPart_unit (Visitor.forgets_of_unit _) state tree
    | disable methods => exact traverse_eq_new Pass.isPart_unit (Visitor.forgets_of_unit _) state tree
  | filter verdict => exact traverse_eq_new Pass.isPart_unit (Visitor.forgets_of_unit _) state tree

end Anew

/-! ## What happens to a traverser -/

/-- Something that is done with a traverser. A visitor that is added need not be new. -/
inductive Traverser.Action where
  | add (recruit : Recruit) (state : PassState)
  | traverse (tree : Tree)
  | clear

def Traverser.Action.perform (traverser : Traverser PassState) : Action → Traverser PassState
  | .add recruit state => traverser.add recruit.visitor state
  | .traverse tree => (traverser.traverse tree).2
  | .clear => traverser.clearTallies

/-- The visitors of a traverser, and those that started since the last clearing, with the calls of their hooks. -/
structure Ledger where
  recruits : List Recruit := []
  started : List (String × List Call) := []

namespace Ledger

/-- What a ledger says after something was done. -/
def record (ledger : Ledger) : Traverser.Action → Ledger
  | .add recruit _ => { ledger with recruits := ledger.recruits ++ [recruit] }
  | .traverse tree => { ledger with started := ledger.started ++ Recruit.started ledger.recruits tree }
  | .clear => { ledger with started := [] }

def names (ledger : Ledger) : List String :=
  ledger.recruits.map (·.visitor.name)

/-- One run for each visitor of the name that started, and what the calls of its hooks amount to. -/
def total (started : List (String × List Call)) (name : String) : Tally :=
  .sum ((started.filter (·.1 = name)).map fun entry => Tally.traversal.add (Call.total entry.2))

theorem total_append (front back : List (String × List Call)) (name : String) :
    total (front ++ back) name = (total front name).add (total back name) := by
  rw [total, List.filter_append, List.map_append, Tally.sum_append, total, total]

end Ledger

/-- What was counted under the given names, and only under them, is what was done. -/
structure Tallies.Records (tallies : Tallies) (names : List String) (started : List (String × List Call)) :
    Prop where
  lookup (name : String) : tallies.lookup name = if name ∈ names then some (Ledger.total started name) else none
  listed : ∀ entry ∈ started, entry.1 ∈ names

namespace Tallies.Records

variable {tallies : Tallies} {names : List String} {started : List (String × List Call)}

theorem enlist (records : tallies.Records names started) (name : String) :
    (tallies.add name {}).Records (names ++ [name]) started := by
  refine ⟨fun other => ?_, fun entry member => List.mem_append_left _ (records.listed entry member)⟩
  rw [lookup_add, Tally.add_empty, records.lookup, records.lookup]
  by_cases same : other = name
  · subst same
    rw [if_pos rfl, if_pos (List.mem_append_right _ List.mem_cons_self)]
    split
    · rfl
    · -- A name that is not listed did not start.
      rename_i fresh
      have unstarted : started.filter (·.1 = other) = [] := by
        refine List.filter_eq_nil_iff.mpr fun entry member same => fresh ?_
        exact of_decide_eq_true same ▸ records.listed entry member
      rw [Ledger.total, unstarted]
      rfl
  · simp [same]

theorem start (records : tallies.Records names started) {name : String} (listed : name ∈ names) (calls : List Call) :
    (tallies.add name (Tally.traversal.add (Call.total calls))).Records names (started ++ [(name, calls)]) := by
  refine ⟨fun other => ?_, fun other member => ?_⟩
  · rw [lookup_add, Ledger.total_append, records.lookup, records.lookup, if_pos listed]
    by_cases same : other = name
    · subst same
      rw [if_pos rfl, if_pos listed]
      simp [Ledger.total, Tally.sum]
    · rw [if_neg same]
      simp [Ledger.total, Tally.sum, Ne.symm same]
  · rcases List.mem_append.mp member with earlier | last
    · exact records.listed other earlier
    · rwa [List.mem_singleton.mp last]

theorem clear (records : tallies.Records names started) : tallies.clear.Records names [] := by
  refine ⟨fun name => ?_, fun _ => (nomatch ·)⟩
  rw [lookup_clear, records.lookup]
  split <;> rfl

end Tallies.Records

/-- A walk gives what new visitors give, keeps the visitors, and counts what those that start do. -/
private theorem runAll_recruits {visitors : List (Enlisted PassState)} {recruits : List Recruit} {names : List String}
    {started : List (String × List Call)} {tallies : Tallies}
    (same : visitors.map Enlisted.visitor = recruits.map Recruit.visitor) (records : tallies.Records names started)
    (listed : ∀ recruit ∈ recruits, recruit.visitor.name ∈ names) (tree : Tree) :
    (Traverser.runAll visitors tallies tree).1 = Recruit.relay recruits tree ∧
      (Traverser.runAll visitors tallies tree).2.visitors.map Enlisted.visitor = recruits.map Recruit.visitor ∧
      (Traverser.runAll visitors tallies tree).2.tallies.Records names
        (started ++ Recruit.started recruits tree) := by
  induction recruits generalizing visitors started tallies tree with
  | nil =>
    obtain rfl := List.map_eq_nil_iff.mp same
    rw [Recruit.started, List.append_nil]
    exact ⟨rfl, rfl, records⟩
  | cons recruit rest ih =>
    rcases visitors with _ | ⟨⟨visitor, state⟩, others⟩
    · cases same
    obtain ⟨rfl, later⟩ := List.cons.inj same
    have counted := records.start (listed recruit List.mem_cons_self) (recruit.visitor.calls {} tree)
    obtain ⟨ran, tallied⟩ := recruit.traverse_visitor state tree
    rw [Recruit.started, Recruit.relay, List.foldlM_cons, ← ran, Traverser.runAll]
    rw [← tallied] at counted
    rcases walked : recruit.visitor.traverse state tree with ⟨cause | next, after, tally⟩ <;> rw [walked] at counted
    · exact ⟨rfl, congrArg (recruit.visitor :: ·) later, counted⟩
    · obtain ⟨result, kept, recorded⟩ :=
        ih later counted (fun other member => listed other (List.mem_cons_of_mem _ member)) next
      rw [List.append_assoc] at recorded
      exact ⟨result, congrArg (recruit.visitor :: ·) kept, recorded⟩

namespace Traverser

/-- A traverser that is as a ledger says. -/
structure Follows (traverser : Traverser PassState) (ledger : Ledger) : Prop where
  visitors : traverser.visitors.map Enlisted.visitor = ledger.recruits.map Recruit.visitor
  tallies : traverser.tallies.Records ledger.names ledger.started

theorem Follows.traverse {traverser : Traverser PassState} {ledger : Ledger} (follows : traverser.Follows ledger)
    (tree : Tree) :
    (traverser.traverse tree).1 = Recruit.relay ledger.recruits tree ∧
      (traverser.traverse tree).2.Follows (ledger.record (.traverse tree)) := by
  obtain ⟨result, kept, recorded⟩ :=
    runAll_recruits follows.visitors follows.tallies (fun _ member => List.mem_map_of_mem member) tree
  exact ⟨result, kept, recorded⟩

/-- Whatever is done, the ledger keeps up with it. -/
theorem Follows.perform {traverser : Traverser PassState} {ledger : Ledger} (follows : traverser.Follows ledger)
    (action : Action) : (action.perform traverser).Follows (ledger.record action) := by
  cases action with
  | add recruit state =>
    refine ⟨?_, ?_⟩
    · change (traverser.visitors ++ [_]).map Enlisted.visitor = (ledger.recruits ++ [recruit]).map Recruit.visitor
      rw [List.map_append, List.map_append, follows.visitors]
      rfl
    · have names : (ledger.record (.add recruit state)).names = ledger.names ++ [recruit.visitor.name] :=
        List.map_append
      rw [names]
      exact follows.tallies.enlist recruit.visitor.name
  | traverse tree => exact (follows.traverse tree).2
  | clear => exact ⟨follows.visitors, follows.tallies.clear⟩

theorem Follows.foldl {traverser : Traverser PassState} {ledger : Ledger} (follows : traverser.Follows ledger)
    (history : List Action) :
    (history.foldl Action.perform traverser).Follows (history.foldl Ledger.record ledger) := by
  induction history generalizing traverser ledger with
  | nil => exact follows
  | cons action rest ih => exact ih (follows.perform action)

/-- Whatever was done with a traverser, the next walk gives what new visitors give, and what was counted under a
name is the sum over the visitors of that name that started since the last clearing. -/
theorem traverse_and_tallies_after (history : List Action) :
    let traverser := history.foldl Action.perform {}
    let ledger := history.foldl Ledger.record {}
    (∀ tree, (traverser.traverse tree).1 = Recruit.relay ledger.recruits tree) ∧
      ∀ name, traverser.tallies.lookup name =
        if name ∈ ledger.names then some (Ledger.total ledger.started name) else none := by
  intro traverser ledger
  have new : Traverser.Follows {} {} := ⟨rfl, fun _ => rfl, fun _ => (nomatch ·)⟩
  have follows : traverser.Follows ledger := new.foldl history
  exact ⟨fun tree => (follows.traverse tree).1, follows.tallies.lookup⟩

end Traverser

end ClassForge
