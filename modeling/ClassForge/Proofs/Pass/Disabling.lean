import ClassForge.Proofs.Outcome
import ClassForge.Proofs.Pass.Judged
import ClassForge.Proofs.Tree.Statements

/-! # Laws of verdicts on methods

Whatever a judge says, a pass on methods never fails and leaves all other statements in their places. A judge that goes
by heads keeps exactly the methods that are not inside of one that it drops or disables. Verdicts are ordered by how much
they take away, and passing two verdicts on a method one after the other comes to the heavier one: so passes by names add
up, the order of passes does not matter, and a second run changes nothing.
-/

namespace ClassForge

/-! ## Methods at any depth -/

/-- The head of a method. -/
def Stmt.methodHead? : Stmt → Option MethodHead
  | .method head _ => some head
  | _ => none

mutual

/-- Every method of a statement, after the methods that it is inside of, the innermost first. -/
def Stmt.nestedMethods (outer : List MethodHead) : Stmt → List (List MethodHead × MethodHead)
  | .space _ body => Tree.nestedMethodsIn outer body
  | .classDecl _ body => Tree.nestedMethodsIn outer body
  | .method head none => [(outer, head)]
  | .method head (some body) => (outer, head) :: Tree.nestedMethodsIn (head :: outer) body
  | _ => []

def Tree.nestedMethodsIn (outer : List MethodHead) : List Stmt → List (List MethodHead × MethodHead)
  | [] => []
  | stmt :: rest => stmt.nestedMethods outer ++ Tree.nestedMethodsIn outer rest

end

namespace Tree

/-- The heads of all methods, in the order of the source. -/
def methodHeads (tree : Tree) : List MethodHead :=
  tree.statements.filterMap Stmt.methodHead?

/-- All methods in the order of the source, each of them after the methods that it is inside of. -/
def nestedMethods (tree : Tree) : List (List MethodHead × MethodHead) :=
  nestedMethodsIn [] tree

theorem methodHeads_cons (stmt : Stmt) (rest : List Stmt) :
    methodHeads (stmt :: rest) = stmt.methodHead?.toList ++ methodHeads (stmt.body?.getD []) ++ methodHeads rest :=
  filterMap_statements_cons Stmt.methodHead? stmt rest

/-- A method counts before those inside, and it is around them. -/
theorem nestedMethodsIn_cons (outer : List MethodHead) (stmt : Stmt) (rest : List Stmt) :
    nestedMethodsIn outer (stmt :: rest) =
      stmt.methodHead?.toList.map (Prod.mk outer) ++
          nestedMethodsIn (stmt.methodHead?.toList ++ outer) (stmt.body?.getD []) ++ nestedMethodsIn outer rest := by
  rw [nestedMethodsIn]
  cases stmt with
  | method head body => cases body <;> rfl
  | space | classDecl | property | constant | throw | expr => rfl

/-- Every method is there once. -/
theorem map_snd_nestedMethodsIn (outer : List MethodHead) (body : List Stmt) :
    (nestedMethodsIn outer body).map Prod.snd = methodHeads body := by
  induction body using Tree.induction generalizing outer with
  | nil => rfl
  | space name body rest within later =>
    rw [nestedMethodsIn_cons, methodHeads_cons, List.map_append, later]
    exact congrArg (· ++ _) (within outer)
  | classDecl head body rest within later =>
    rw [nestedMethodsIn_cons, methodHeads_cons, List.map_append, later]
    exact congrArg (· ++ _) (within outer)
  | method head body rest within later =>
    rw [nestedMethodsIn_cons, methodHeads_cons, List.map_append, later]
    exact congrArg (head :: · ++ _) (within (head :: outer))
  | leaf stmt rest bare later =>
    rw [nestedMethodsIn_cons, methodHeads_cons, bare, List.map_append, later]
    cases stmt.methodHead? <;> rfl

end Tree

/-! ## What verdicts leave -/

namespace Verdict

/-- What is left of statements after verdicts that the methods allow: every statement stays in its place, with what is
left inside, but for methods that are disabled or dropped. -/
inductive Passed (allowed : MethodHead → Verdict → Prop) : List Stmt → List Stmt → Prop
  | nil : Passed allowed [] []
  | leaf {stmt : Stmt} {rest rest' : List Stmt} (bare : stmt.body? = none)
      (spared : ∀ head ∈ stmt.methodHead?, allowed head .skip) (later : Passed allowed rest rest') :
      Passed allowed (stmt :: rest) (stmt :: rest')
  | node {stmt : Stmt} {body body' rest rest' : List Stmt} (holds : stmt.body? = some body)
      (spared : ∀ head ∈ stmt.methodHead?, allowed head .skip) (within : Passed allowed body body')
      (later : Passed allowed rest rest') : Passed allowed (stmt :: rest) (stmt.withBody body' :: rest')
  | disabled {head : MethodHead} {body : Option (List Stmt)} {rest rest' : List Stmt} (verdict : allowed head .disable)
      (later : Passed allowed rest rest') :
      Passed allowed (.method head body :: rest)
        (.method { head with isAbstract := false } (some disabledBody) :: rest')
  | dropped {head : MethodHead} {body : Option (List Stmt)} {rest rest' : List Stmt} (verdict : allowed head .drop)
      (later : Passed allowed rest rest') : Passed allowed (.method head body :: rest) rest'

section Method

variable {allowed : MethodHead → Verdict → Prop} {verdict : Verdict} {head : MethodHead} {rest rest' : List Stmt}
  (permitted : allowed head verdict) (later : Passed allowed rest rest')
include permitted later

private theorem Passed.announced :
    Passed allowed (.method head none :: rest) ((verdict.edit head).result (.method head none) ++ rest') := by
  cases verdict with
  | skip => exact .leaf rfl (fun _ same => Option.some.inj same ▸ permitted) later
  | disable => exact .disabled permitted later
  | drop => exact .dropped permitted later

private theorem Passed.method {body body' : List Stmt} (within : Passed allowed body body') :
    Passed allowed (.method head (some body) :: rest)
      ((verdict.edit head).result (.method head (some body')) ++ rest') := by
  cases verdict with
  | skip => exact .node rfl (fun _ same => Option.some.inj same ▸ permitted) within later
  | disable => exact .disabled permitted later
  | drop => exact .dropped permitted later

end Method

/-- A judge that goes by heads leaves what its verdicts allow. -/
theorem passed_judged (verdict : MethodHead → Verdict) (body : List Stmt) :
    Passed (fun head given => given = verdict head) body (Tree.judged verdict body) := by
  have spared (head : MethodHead) (absent : head ∈ (none : Option MethodHead)) : Verdict.skip = verdict head :=
    absurd absent (Option.not_mem_none _)
  induction body using Tree.induction with
  | nil => exact .nil
  | space name body rest within later => exact .node rfl spared within later
  | classDecl head body rest within later => exact .node rfl spared within later
  | method head body rest within later => exact .method rfl later within
  | leaf stmt rest bare later =>
    cases stmt with
    | space | classDecl => cases bare
    | method head body =>
      cases bare
      exact .announced rfl later
    | property | constant | throw | expr => exact .leaf rfl spared later

/-- The walk of any judge succeeds, whatever it keeps in mind. -/
private theorem exists_rewrites {σ : Type} (judge : Judge σ) (state : σ) (body : List Stmt) :
    ∃ result after, (visitor judge).Rewrites state body result after ∧ Passed (fun _ _ => True) body result := by
  induction body using Tree.induction generalizing state with
  | nil => exact ⟨[], state, .nil, .nil⟩
  | space name body rest within later =>
    obtain ⟨body', inner, walked, left⟩ := within state
    obtain ⟨rest', after, behind, others⟩ := later inner
    exact ⟨_, after, .node rfl rfl walked rfl rfl behind, .node rfl (fun _ _ => trivial) left others⟩
  | classDecl head body rest within later =>
    obtain ⟨body', inner, walked, left⟩ := within state
    obtain ⟨rest', after, behind, others⟩ := later inner
    exact ⟨_, after, .node rfl rfl walked rfl rfl behind, .node rfl (fun _ _ => trivial) left others⟩
  | method head body rest within later =>
    obtain ⟨body', inner, walked, left⟩ := within state
    obtain ⟨rest', after, behind, others⟩ := later ((judge head (some body')).run inner).2
    exact ⟨_, after, .node rfl rfl walked rfl rfl behind, .method trivial others left⟩
  | leaf stmt rest bare later =>
    cases stmt with
    | space | classDecl => cases bare
    | method head body =>
      cases bare
      obtain ⟨rest', after, behind, others⟩ := later ((judge head none).run state).2
      exact ⟨_, after, .leaf rfl rfl rfl rfl behind, .announced trivial others⟩
    | property | constant | throw | expr =>
      obtain ⟨rest', after, behind, others⟩ := later state
      exact ⟨_, after, .leaf rfl rfl rfl rfl behind, .leaf rfl (fun _ _ => trivial) others⟩

/-- A pass on methods never fails. -/
theorem exists_traverse {σ : Type} (judge : Judge σ) (state : σ) (tree : Tree) :
    ∃ result after, (visitor judge).traverse state tree = (.ok result, after) ∧
      Passed (fun _ _ => True) tree result := by
  obtain ⟨result, finish, walked, left⟩ := exists_rewrites judge state tree
  obtain ⟨total, run⟩ := walked.traverse rfl rfl
  exact ⟨result, _, run, left⟩

/-! ## The methods that are left -/

/-- What a verdict leaves of the head of a method. -/
def head? (head : MethodHead) : Verdict → Option MethodHead
  | .skip => some head
  | .disable => some { head with isAbstract := false }
  | .drop => none

/-- What verdicts leave of a method, given after the methods that it is inside of: it is gone with the first of them
that is not skipped. -/
def left (verdict : MethodHead → Verdict) (nested : List MethodHead × MethodHead) : Option MethodHead :=
  if nested.1.all (verdict · = .skip) then (verdict nested.2).head? nested.2 else none

section Left

variable {verdict : MethodHead → Verdict} {outer : List MethodHead}

private theorem left_of_spared (spared : ∀ head ∈ outer, verdict head = .skip) (head : MethodHead) :
    left verdict (outer, head) = (verdict head).head? head := by
  apply if_pos
  simpa using spared

/-- Nothing is left inside of a method that is not skipped. -/
private theorem filterMap_left_of_lost {lost : MethodHead} (around : lost ∈ outer) (judged : verdict lost ≠ .skip)
    (body : List Stmt) : (Tree.nestedMethodsIn outer body).filterMap (left verdict) = [] := by
  have gone {outer : List MethodHead} (around : lost ∈ outer) (head : MethodHead) :
      left verdict (outer, head) = none := by
    apply if_neg
    rw [List.all_eq_true]
    exact fun spared => judged (of_decide_eq_true (spared lost around))
  induction body using Tree.induction generalizing outer with
  | nil => rfl
  | space name body rest within later =>
    rw [Tree.nestedMethodsIn_cons, List.filterMap_append, later around, List.append_nil]
    exact within around
  | classDecl head body rest within later =>
    rw [Tree.nestedMethodsIn_cons, List.filterMap_append, later around, List.append_nil]
    exact within around
  | method head body rest within later =>
    rw [Tree.nestedMethodsIn_cons, List.filterMap_append, later around, List.append_nil]
    change List.filterMap _ ((outer, head) :: Tree.nestedMethodsIn (head :: outer) body) = []
    rw [List.filterMap_cons_none (gone around head)]
    exact within (List.mem_cons_of_mem _ around)
  | leaf stmt rest bare later =>
    rw [Tree.nestedMethodsIn_cons, bare, List.filterMap_append, later around, List.append_nil]
    cases stmt.methodHead? with
    | none => rfl
    | some head => exact List.filterMap_cons_none (gone around head)

/-- Of a method that is not skipped, its head may be left. -/
private theorem filterMap_left_cons (spared : ∀ head ∈ outer, verdict head = .skip) {head : MethodHead}
    (judged : verdict head ≠ .skip) (body : Option (List Stmt)) (rest : List Stmt) :
    (Tree.nestedMethodsIn outer (.method head body :: rest)).filterMap (left verdict) =
      ((verdict head).head? head).toList ++ (Tree.nestedMethodsIn outer rest).filterMap (left verdict) := by
  have inside : (Tree.nestedMethodsIn (head :: outer) (body.getD [])).filterMap (left verdict) = [] :=
    filterMap_left_of_lost List.mem_cons_self judged _
  have own : [(outer, head)].filterMap (left verdict) = ((verdict head).head? head).toList := by
    rw [← left_of_spared spared head, List.filterMap_cons]
    cases left verdict (outer, head) <;> rfl
  rw [Tree.nestedMethodsIn_cons, List.filterMap_append, List.filterMap_append]
  simp only [Stmt.methodHead?, Stmt.body?, Option.toList_some, List.map_cons, List.map_nil, List.singleton_append]
  rw [inside, own, List.append_nil]

/-- A method that is skipped is left with its head. -/
private theorem filterMap_left_of_skip (spared : ∀ head ∈ outer, verdict head = .skip) {found : Option MethodHead}
    (skipped : ∀ head ∈ found, Verdict.skip = verdict head) :
    (found.toList.map (Prod.mk outer)).filterMap (left verdict) = found.toList := by
  cases found with
  | none => rfl
  | some head =>
    apply List.filterMap_cons_some
    rw [left_of_spared spared, ← skipped head rfl]
    rfl

private theorem spared_append (spared : ∀ head ∈ outer, verdict head = .skip) {found : Option MethodHead}
    (skipped : ∀ head ∈ found, Verdict.skip = verdict head) :
    ∀ head ∈ found.toList ++ outer, verdict head = .skip := by
  intro head member
  rw [List.mem_append, Option.mem_toList] at member
  exact member.elim (fun own => (skipped head own).symm) (spared head)

/-- The methods that are left are those that are in none that was not skipped, in their order. -/
theorem Passed.methodHeads {body result : List Stmt}
    (passed : Passed (fun head given => given = verdict head) body result)
    (spared : ∀ head ∈ outer, verdict head = .skip) :
    Tree.methodHeads result = (Tree.nestedMethodsIn outer body).filterMap (left verdict) := by
  -- Only skipped methods are entered by the induction, so all methods around stay skipped.
  induction passed generalizing outer with
  | nil => rfl
  | leaf bare skipped _ later =>
    rw [Tree.methodHeads_cons, Tree.nestedMethodsIn_cons, bare, later spared, List.filterMap_append,
      List.filterMap_append, filterMap_left_of_skip spared skipped]
    rfl
  | @node stmt body body' rest rest' holds skipped _ _ within later =>
    have same : (stmt.withBody body').methodHead? = stmt.methodHead? ∧ (stmt.withBody body').body? = some body' := by
      cases stmt with
      | space | classDecl | method => exact ⟨rfl, rfl⟩
      | property | constant | throw | expr => cases holds
    rw [Tree.methodHeads_cons, Tree.nestedMethodsIn_cons, same.1, same.2, holds, later spared, List.filterMap_append,
      List.filterMap_append, filterMap_left_of_skip spared skipped, Option.getD_some, Option.getD_some,
      within (spared_append spared skipped)]
  | @disabled head body rest rest' judged _ later =>
    rw [filterMap_left_cons spared (by simp [← judged]), ← judged, ← later spared, Tree.methodHeads_cons]
    rfl
  | dropped judged _ later =>
    rw [filterMap_left_cons spared (by simp [← judged]), ← judged, ← later spared]
    rfl

/-- A verdict that does not change when the method is no longer abstract. -/
def Steady (verdict : MethodHead → Verdict) : Prop :=
  ∀ head, verdict { head with isAbstract := false } = verdict head

/-- The methods that are left are skipped or disabled already. -/
theorem Passed.settled (steady : Steady verdict) {body result : List Stmt}
    (passed : Passed (fun head given => given = verdict head) body result) {head : MethodHead}
    {inner : Option (List Stmt)} (member : .method head inner ∈ Tree.statements result) :
    verdict head = .skip ∨ verdict head = .disable ∧ head.isAbstract = false ∧ inner = some disabledBody := by
  induction passed with
  | nil => cases member
  | leaf bare skipped _ later =>
    rw [Tree.statements_cons, bare, List.mem_cons] at member
    rcases member with rfl | behind
    · exact .inl (skipped head rfl).symm
    · exact later behind
  | @node stmt body body' rest rest' holds skipped _ _ within later =>
    rw [Tree.statements_cons, List.mem_cons, List.mem_append] at member
    cases stmt with
    | space | classDecl =>
      rcases member with other | inside | behind
      · cases other
      · exact within inside
      · exact later behind
    | method =>
      rcases member with same | inside | behind
      · cases same
        exact .inl (skipped _ rfl).symm
      · exact within inside
      · exact later behind
    | property | constant | throw | expr => cases holds
  | @disabled other body rest rest' judged _ later =>
    rw [Tree.statements_cons, List.mem_cons, List.mem_append] at member
    rcases member with same | inside | behind
    · -- The head that is left is no longer abstract, which the verdict does not look at.
      cases same
      exact .inr ⟨(steady other).trans judged.symm, rfl, rfl⟩
    · change Stmt.method head inner ∈ [Stmt.throw _] at inside
      cases List.mem_singleton.mp inside
    · exact later behind
  | dropped _ _ later => exact later member

end Left

end Verdict

/-! ## Two verdicts on a method -/

namespace Verdict

/-- The heavier of two verdicts. -/
def join : Verdict → Verdict → Verdict
  | .skip, other => other
  | .disable, .drop => .drop
  | .disable, _ => .disable
  | .drop, _ => .drop

theorem join_comm (first second : Verdict) : first.join second = second.join first := by
  cases first <;> cases second <;> rfl

theorem join_self (verdict : Verdict) : verdict.join verdict = verdict := by
  cases verdict <;> rfl

end Verdict

namespace Tree

section Twice

variable {second : MethodHead → Verdict} (steady : Verdict.Steady second)
include steady

/-- A verdict on what another one left of a method. -/
private theorem judged_edited (first : Verdict) (head : MethodHead) (body : Option (List Stmt)) :
    judged second ((first.edit head).result (.method head body)) =
      ((first.join (second head)).edit head).result (.method head (body.map (judged second))) := by
  cases first with
  | skip =>
    change (Stmt.method head body).judged second ++ [] = _
    rw [Stmt.judged_method, List.append_nil]
    rfl
  | disable =>
    change (Stmt.method { head with isAbstract := false } (some disabledBody)).judged second ++ [] = _
    rw [Stmt.judged_method, steady, List.append_nil]
    cases second head <;> rfl
  | drop => rfl

/-- Two verdicts on all methods come to the heavier one on each. -/
theorem judged_judged (first : MethodHead → Verdict) (body : List Stmt) :
    judged second (judged first body) = judged (fun head => (first head).join (second head)) body := by
  induction body using Tree.induction with
  | nil => rfl
  | space name body rest within later =>
    rw [judged, judged_append, later, judged]
    simp only [Stmt.judged, judged, within, List.append_nil]
  | classDecl head body rest within later =>
    rw [judged, judged_append, later, judged]
    simp only [Stmt.judged, judged, within, List.append_nil]
  | method head body rest within later =>
    rw [judged, judged_append, later, judged, Stmt.judged_method, Stmt.judged_method, judged_edited steady]
    simp only [Option.map_some, within]
  | leaf stmt rest bare later =>
    rw [judged, judged_append, later, judged]
    congr 1
    cases stmt with
    | space | classDecl => cases bare
    | method head body =>
      cases bare
      rw [Stmt.judged_method, Stmt.judged_method]
      exact judged_edited steady _ head none
    | property | constant | throw | expr => rfl

end Twice

end Tree

/-! ## Passes by visibility and by names -/

namespace Pass

open Verdict

theorem steady_publicVerdict : Steady publicVerdict :=
  fun _ => rfl

theorem steady_namesVerdict (names : List String) : Steady (namesVerdict names) :=
  fun _ => rfl

private theorem left_publicVerdict (nested : List MethodHead × MethodHead) :
    left publicVerdict nested =
      if (nested.2 :: nested.1).all (·.visibility = .pub) then some nested.2 else none := by
  have same (head : MethodHead) : (publicVerdict head = .skip) = (head.visibility = .pub) := by
    rw [publicVerdict]
    split <;> simp_all
  simp only [left, same, List.all_cons]
  by_cases isPublic : nested.2.visibility = .pub <;> simp [publicVerdict, isPublic, head?]

private theorem left_namesVerdict (names : List String) (nested : List MethodHead × MethodHead) :
    left (namesVerdict names) nested =
      if nested.1.any (isNamed names) then none
      else some (if isNamed names nested.2 then { nested.2 with isAbstract := false } else nested.2) := by
  have same (head : MethodHead) : decide (namesVerdict names head = .skip) = !isNamed names head := by
    rw [namesVerdict_eq]
    cases isNamed names head <;> rfl
  have all : nested.1.all (namesVerdict names · = .skip) = !nested.1.any (isNamed names) := by
    simp only [same, List.not_any_eq_all_not]
  rw [left, all, namesVerdict_eq]
  cases nested.1.any (isNamed names) <;> cases isNamed names nested.2 <;> rfl

/-- Names of either list, together, come to the heavier of their verdicts. -/
private theorem namesVerdict_union {first second both : List String}
    (union : ∀ name, name ∈ both ↔ name ∈ first ∨ name ∈ second) (head : MethodHead) :
    namesVerdict both head = (namesVerdict first head).join (namesVerdict second head) := by
  have named : isNamed both head = (isNamed first head || isNamed second head) := by
    rw [Bool.eq_iff_iff, Bool.or_eq_true, isNamed, isNamed, isNamed, List.any_eq_true, List.any_eq_true,
      List.any_eq_true, ← exists_or]
    simp only [union, or_and_right]
  rw [namesVerdict_eq, namesVerdict_eq, namesVerdict_eq, named]
  cases isNamed first head <;> cases isNamed second head <;> rfl

/-- What is left where methods that are not public are dropped: no such method, and every public one that is in none of
them, in order. -/
structure KeepsPublic (tree result : Tree) : Prop where
  passed : Passed (fun head given => given = if head.visibility = .pub then .skip else .drop) tree result
  isPublic : ∀ head body, .method head body ∈ result.statements → head.visibility = .pub
  heads : result.methodHeads = tree.nestedMethods.filterMap fun nested =>
    if (nested.2 :: nested.1).all (·.visibility = .pub) then some nested.2 else none

/-- What is left where methods of some names are disabled: the methods that are in none of them, in order, and those of
the names are disabled, with all else in their heads as it was. -/
structure DisablesNamed (names : List String) (tree result : Tree) : Prop where
  passed : Passed (fun head given => given = if isNamed names head then .disable else .skip) tree result
  disabled : ∀ head body, .method head body ∈ result.statements → isNamed names head = true →
    head.isAbstract = false ∧ body = some disabledBody
  heads : result.methodHeads = tree.nestedMethods.filterMap fun nested =>
    if nested.1.any (isNamed names) then none
    else some (if isNamed names nested.2 then { nested.2 with isAbstract := false } else nested.2)

theorem keepsPublic_judged (tree : Tree) : KeepsPublic tree (Tree.judged publicVerdict tree) := by
  have passed := passed_judged publicVerdict tree
  refine ⟨passed, fun head body member => ?_, ?_⟩
  · have settled := passed.settled steady_publicVerdict member
    rw [publicVerdict] at settled
    split at settled
    · assumption
    · simp at settled
  · rw [passed.methodHeads (List.forall_mem_nil _), funext left_publicVerdict]
    rfl

theorem disablesNamed_judged (names : List String) (tree : Tree) :
    DisablesNamed names tree (Tree.judged (namesVerdict names) tree) := by
  have passed := passed_judged (namesVerdict names) tree
  refine ⟨?_, fun head body member named => ?_, ?_⟩
  · simpa only [namesVerdict_eq] using passed
  · have settled := passed.settled (steady_namesVerdict names) member
    rw [namesVerdict_eq, if_pos named] at settled
    exact (settled.resolve_left (by decide)).2
  · rw [passed.methodHeads (List.forall_mem_nil _), funext (left_namesVerdict names)]
    rfl

/-- What passes on methods do to any tree. No judge makes a run fail, and all but the methods stays in its place. Passes
by visibility and by names leave just the methods that are in none which they drop or disable. Names add up over passes,
the order of both passes does not matter, and a second run changes nothing. -/
theorem disabling_laws {first second both : List String}
    (union : ∀ name, name ∈ both ↔ name ∈ first ∨ name ∈ second) (tree : Tree) :
    tree.nestedMethods.map Prod.snd = tree.methodHeads ∧
    (∀ (σ : Type) (judge : Judge σ) (state : σ), ∃ result after,
      (Verdict.visitor judge).traverse state tree = (.ok result, after) ∧ Passed (fun _ _ => True) tree result) ∧
    (∃ result, Pass.publicOnly.run tree = .ok result ∧ KeepsPublic tree result) ∧
    (∃ result, (Pass.disable first).run tree = .ok result ∧ DisablesNamed first tree result) ∧
    ((Pass.disable first).run tree >>= (Pass.disable second).run) = (Pass.disable both).run tree ∧
    ((Pass.disable first).run tree >>= Pass.publicOnly.run) =
      (Pass.publicOnly.run tree >>= (Pass.disable first).run) ∧
    ((Pass.disable first).run tree >>= (Pass.disable first).run) = (Pass.disable first).run tree ∧
    (Pass.publicOnly.run tree >>= Pass.publicOnly.run) = Pass.publicOnly.run tree := by
  have steady := steady_namesVerdict
  refine ⟨Tree.map_snd_nestedMethodsIn [] tree, fun σ judge state => exists_traverse judge state tree,
    ⟨_, run_publicOnly tree, keepsPublic_judged tree⟩, ⟨_, run_disable first tree, disablesNamed_judged first tree⟩,
    ?_, ?_, ?_, ?_⟩
  · rw [run_disable, ok_bind, run_disable, run_disable, Tree.judged_judged (steady second),
      funext (namesVerdict_union union)]
  · rw [run_disable, run_publicOnly, ok_bind, ok_bind, run_disable, run_publicOnly,
      Tree.judged_judged (steady first), Tree.judged_judged steady_publicVerdict]
    simp only [join_comm]
  · rw [run_disable, ok_bind, run_disable, Tree.judged_judged (steady first)]
    simp only [join_self]
  · rw [run_publicOnly, ok_bind, run_publicOnly, Tree.judged_judged steady_publicVerdict]
    simp only [join_self]

/-- A public method holds a class with methods of its own. -/
def layered : Tree :=
  [.classDecl { name := "Outer" }
    [.method { name := "open" } (some
      [.classDecl { name := "Inner" }
        [.method { name := "OPEN", visibility := .priv } none, .method { name := "close", isAbstract := true } none]])]]

theorem disabling_laws_layered :
    (∀ name, name ∈ ["close", "open"] ↔ name ∈ ["open"] ∨ name ∈ ["close"]) ∧
      layered.methodHeads.length = 3 ∧
      (∃ result, Pass.publicOnly.run layered = .ok result ∧
        result.methodHeads = [{ name := "open" }, { name := "close", isAbstract := true }]) ∧
      ((Pass.disable ["open"]).run layered >>= (Pass.disable ["close"]).run) =
        (Pass.disable ["close", "open"]).run layered := by
  have union (name : String) : name ∈ ["close", "open"] ↔ name ∈ ["open"] ∨ name ∈ ["close"] := by
    simp [or_comm]
  obtain ⟨-, -, ⟨result, run, kept⟩, -, added, -⟩ := disabling_laws union layered
  exact ⟨union, rfl, ⟨result, run, kept.heads⟩, added⟩

end Pass

end ClassForge
