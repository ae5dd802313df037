import ClassForge.Blueprint.Build
import ClassForge.Proofs.Json.Records
import ClassForge.Proofs.Literal.RoundTrip
import ClassForge.Proofs.Name.Grammar
import ClassForge.Proofs.Outcome
import ClassForge.Proofs.Tree.Statements

/-! # Trees that are read back

The JSON text of a tree is read as the tree again, if its names and literals can be told from their texts and it is
not nested too deeply. One thing is lost: a property that starts as `null` is written like one that starts as
nothing, and is read as the latter.
-/

namespace ClassForge

open Json.Fields

/-! ## Names -/

theorem SourceName.ofJson_toJson {name : SourceName} (legible : name.isLegible = true) :
    ofJson name.toJson = .ok name :=
  Json.readChecked_str (ofText_source legible)

theorem Visibility.ofJson_toJson (visibility : Visibility) : ofJson visibility.toJson = .ok visibility := by
  cases visibility <;> rfl

/-! ## Expressions -/

namespace Expr

mutual

/-- Whether the names and literals of an expression can be told from their texts. -/
def isLegible : Expr → Bool
  | .literal value => value.isLegible
  | .constant name => name.isLegible
  | .new name args => name.isLegible && argsLegible args

def argsLegible : List Expr → Bool
  | [] => true
  | arg :: rest => arg.isLegible && argsLegible rest

end

theorem argsLegible_eq_all (args : List Expr) : argsLegible args = args.all isLegible := by
  induction args with
  | nil => rfl
  | cons arg rest ih => rw [argsLegible, ih, List.all_cons]

theorem argsToJson_eq_map (args : List Expr) : argsToJson args = args.map toJson := by
  induction args with
  | nil => rfl
  | cons arg rest ih => rw [argsToJson, ih, List.map_cons]

theorem ofJson_toJson {fuel : Nat} {e : Expr} (legible : e.isLegible = true) (shallow : e.toJson.depth ≤ fuel) :
    ofJson (fuel + 1) e.toJson = .ok e := by
  induction fuel generalizing e with
  | zero =>
    cases e <;> rw [toJson, Json.depth_tagged] at shallow <;> omega
  | succ fuel ih =>
    cases e with
    | literal value =>
      rw [toJson, ofJson, Json.readTagged_tagged rfl rfl, Literal.ofJson_toJson value legible]
      rfl
    | constant name =>
      rw [toJson, ofJson, Json.readTagged_tagged rfl rfl, SourceName.ofJson_toJson legible]
      rfl
    | new name args =>
      rw [isLegible, Bool.and_eq_true, argsLegible_eq_all, List.all_eq_true] at legible
      rw [toJson, argsToJson_eq_map, Json.depth_tagged] at shallow
      have inObject : (Json.arr (args.map toJson)).depth <
          (Json.object [("class", name.toJson), ("args", .arr (args.map toJson))]).depth :=
        Json.depth_lt_object "args" (by simp)
      rw [toJson, argsToJson_eq_map, ofJson, Json.readTagged_tagged rfl rfl]
      have inner : Json.readList (ofJson (fuel + 1)) (.arr (args.map toJson)) = .ok (args.map id) := by
        refine Json.readList_map fun arg member => ih (legible.2 arg member) ?_
        have listed := Json.depth_lt_arr_map toJson member
        omega
      rw [List.map_id] at inner
      exact ((spells_required (SourceName.ofJson_toJson legible.1)).map Expr.new |>.and
        (spells_required inner)).record (by simp)

theorem read_toJson {e : Expr} (legible : e.isLegible = true) (shallow : e.toJson.depth ≤ Json.maxDepth) :
    read e.toJson = .ok e :=
  ofJson_toJson legible shallow

theorem toJson_ne_null (e : Expr) : e.toJson ≠ .null := by
  cases e <;> nofun

mutual

theorem isReadable_toJson : (e : Expr) → e.isLegible = true → e.toJson.isReadable = true
  | .literal value, legible => by
    rw [toJson, Json.isReadable_tagged]
    exact value.isReadable_toJson legible
  | .constant name, _ => rfl
  | .new name args, legible => by
    rw [isLegible, Bool.and_eq_true] at legible
    rw [toJson, Json.isReadable_tagged, Json.isReadable_object]
    simp only [List.all_cons, List.all_nil, Json.isReadable, argsReadable_toJson args legible.2]
    rfl

theorem argsReadable_toJson : (args : List Expr) → argsLegible args = true →
    Json.itemsReadable (argsToJson args) = true
  | [], _ => rfl
  | arg :: rest, legible => by
    rw [argsLegible, Bool.and_eq_true] at legible
    rw [argsToJson, Json.itemsReadable, isReadable_toJson arg legible.1, argsReadable_toJson rest legible.2]
    rfl

end

end Expr

/-! ## Parts of declarations -/

def TypeHint.isLegible : TypeHint → Bool
  | .named name => name.isLegible
  | _ => true

theorem TypeHint.ofJson_toJson {hint : TypeHint} (legible : hint.isLegible = true) : ofJson hint.toJson = .ok hint := by
  cases hint with
  | array | callable => rfl
  | named name =>
    rw [toJson, ofJson, Json.readTagged_tagged rfl rfl, SourceName.ofJson_toJson legible]
    rfl

def Param.isLegible (param : Param) : Bool :=
  param.hint.all TypeHint.isLegible && param.fallback.all Expr.isLegible

theorem Param.ofJson_toJson {param : Param} (legible : param.isLegible = true)
    (shallow : param.toJson.depth ≤ Json.maxDepth) : ofJson param.toJson = .ok param := by
  rw [isLegible, Bool.and_eq_true, Option.all_eq_true, Option.all_eq_true] at legible
  have hint : Json.readOption TypeHint.ofJson (Json.ofOption TypeHint.toJson param.hint) = .ok param.hint :=
    Json.readOption_ofOption fun own member => ⟨TypeHint.ofJson_toJson (legible.1 own member), by cases own <;> nofun⟩
  have fallback : Json.readOption Expr.read (Json.ofOption Expr.toJson param.fallback) = .ok param.fallback := by
    refine Json.readOption_ofOption fun own member => ⟨Expr.read_toJson (legible.2 own member) ?_, own.toJson_ne_null⟩
    have within : (Json.ofOption Expr.toJson param.fallback).depth < param.toJson.depth :=
      Json.depth_lt_object "default" (by simp)
    rw [Option.mem_def.mp member, Json.ofOption] at within
    omega
  exact ((spells_string "name" param.name).map Param.mk |>.and (spells_bool "by_ref" param.byRef)
    |>.and (spells_nullable hint) |>.and (spells_nullable fallback)).record (by simp)

theorem Param.isReadable_toJson {param : Param} (legible : param.isLegible = true) :
    param.toJson.isReadable = true := by
  rw [isLegible, Bool.and_eq_true, Option.all_eq_true, Option.all_eq_true] at legible
  have hint : (Json.ofOption TypeHint.toJson param.hint).isReadable = true :=
    Json.isReadable_ofOption fun own _ => by cases own <;> rfl
  have fallback : (Json.ofOption Expr.toJson param.fallback).isReadable = true :=
    Json.isReadable_ofOption fun own member => own.isReadable_toJson (legible.2 own member)
  rw [toJson, Json.isReadable_object]
  simp only [List.all_cons, List.all_nil, Json.isReadable, hint, fallback]
  rfl

/-- The property, which starts as nothing if it started as `null`. -/
def Property.unsetNull (property : Property) : Property :=
  { property with
    initial := match property.initial with
      | some .null => none
      | given => given }

theorem Property.ofJson_toJson {property : Property} (legible : property.initial.all Literal.isLegible = true) :
    ofJson property.toJson = .ok property.unsetNull := by
  have initial : Json.readOption Literal.ofJson (Json.ofOption Literal.toJson property.initial) =
      .ok property.unsetNull.initial := by
    rw [unsetNull]
    split
    case h_1 null => rw [null]; rfl
    case h_2 given solid =>
      refine Json.readOption_ofOption fun own member => ⟨own.ofJson_toJson ?_, ?_⟩
      · exact (Option.all_eq_true _ _).mp legible own member
      · intro null
        cases own with
        | null => exact solid member
        | _ => cases null
  exact ((spells_string "name" property.name).map Property.mk
    |>.and (spells_required (Visibility.ofJson_toJson property.visibility))
    |>.and (spells_bool "is_static" property.isStatic) |>.and (spells_nullable initial)).record (by simp)

theorem Constant.ofJson_toJson {constant : Constant} (legible : constant.value.isLegible = true) :
    ofJson constant.toJson = .ok constant :=
  ((spells_string "name" constant.name).map Constant.mk
    |>.and (spells_required (constant.value.ofJson_toJson legible))).record (by simp)

/-! ## Statements -/

/-- Whether the names and literals of a statement, those inside of it apart, can be told from their texts. -/
def Stmt.isLegible : Stmt → Bool
  | .space name _ => name.all SourceName.isLegible
  | .classDecl head _ => head.parent.all SourceName.isLegible && head.interfaces.all SourceName.isLegible
  | .method head _ => head.params.all Param.isLegible
  | .property value => value.initial.all Literal.isLegible
  | .constant value => value.value.isLegible
  | .throw value | .expr value => value.isLegible

mutual

/-- The statement with every property inside that starts as `null` starting as nothing. -/
def Stmt.unsetNulls : Stmt → Stmt
  | .space name body => .space name (Tree.unsetNulls body)
  | .classDecl head body => .classDecl head (Tree.unsetNulls body)
  | .method head none => .method head none
  | .method head (some body) => .method head (some (Tree.unsetNulls body))
  | .property value => .property value.unsetNull
  | .constant value => .constant value
  | .throw value => .throw value
  | .expr value => .expr value

/-- The tree with every property that starts as `null` starting as nothing. -/
def Tree.unsetNulls : Tree → Tree
  | [] => []
  | stmt :: rest => stmt.unsetNulls :: Tree.unsetNulls rest

end

namespace Tree

theorem unsetNulls_eq_map (body : List Stmt) : unsetNulls body = body.map Stmt.unsetNulls := by
  induction body with
  | nil => rfl
  | cons stmt rest ih => rw [unsetNulls, ih, List.map_cons]

theorem bodyToJson_eq_map (body : List Stmt) : bodyToJson body = body.map stmtToJson := by
  induction body with
  | nil => rfl
  | cons stmt rest ih => rw [bodyToJson, ih, List.map_cons]

/-- Whether all names and literals of a tree can be told from their texts. -/
def isLegible (tree : Tree) : Bool :=
  tree.statements.all Stmt.isLegible

theorem isLegible_cons (stmt : Stmt) (rest : List Stmt) :
    isLegible (stmt :: rest) = (stmt.isLegible && (isLegible (stmt.body?.getD []) && isLegible rest)) := by
  rw [isLegible, statements_cons, List.all_cons, List.all_append]
  rfl

theorem isLegible_of_mem {stmt : Stmt} {body : List Stmt} (member : stmt ∈ body) (legible : isLegible body = true) :
    stmt.isLegible = true ∧ isLegible (stmt.body?.getD []) = true := by
  induction body with
  | nil => cases member
  | cons first rest ih =>
    rw [isLegible_cons, Bool.and_eq_true, Bool.and_eq_true] at legible
    rcases List.mem_cons.mp member with rfl | later
    · exact ⟨legible.1, legible.2.1⟩
    · exact ih later legible.2.2

section Heads

variable {readBody : Json → Except Json.Rejection (List Stmt)} {content : Json}

theorem readOption_sourceName {name : Option SourceName} (legible : name.all SourceName.isLegible = true) :
    Json.readOption SourceName.ofJson (Json.ofOption SourceName.toJson name) = .ok name :=
  Json.readOption_ofOption fun own member =>
    ⟨SourceName.ofJson_toJson ((Option.all_eq_true _ _).mp legible own member), nofun⟩

theorem readSpace_object {name : Option SourceName} {body : List Stmt}
    (legible : name.all SourceName.isLegible = true) (success : readBody content = .ok body) :
    readSpace readBody (Json.object [("name", Json.ofOption SourceName.toJson name), ("stmts", content)]) =
      .ok (.space name body) :=
  ((spells_nullable (readOption_sourceName legible)).map Stmt.space |>.and (spells_required success)).record (by simp)

theorem readClass_toJson {head : ClassHead} {body : List Stmt} (legible : (Stmt.classDecl head body).isLegible = true)
    (success : readBody content = .ok body) :
    readClass readBody (head.toJson content) = .ok (.classDecl head body) := by
  rw [Stmt.isLegible, Bool.and_eq_true, List.all_eq_true] at legible
  have interfaces : Json.readList SourceName.ofJson (.arr (head.interfaces.map SourceName.toJson)) =
      .ok (head.interfaces.map id) :=
    Json.readList_map fun name member => SourceName.ofJson_toJson (legible.2 name member)
  rw [List.map_id] at interfaces
  exact ((spells_string "name" head.name).map _ |>.and (spells_bool "is_abstract" head.isAbstract)
    |>.and (spells_bool "is_final" head.isFinal) |>.and (spells_nullable (readOption_sourceName legible.1))
    |>.and (spells_required interfaces) |>.and (spells_required success)).record (by simp)

theorem readMethod_toJson {head : MethodHead} {body : Option (List Stmt)}
    (legible : (Stmt.method head body).isLegible = true) (shallow : (head.toJson content).depth ≤ Json.maxDepth)
    (success : Json.readOption readBody content = .ok body) :
    readMethod readBody (head.toJson content) = .ok (.method head body) := by
  rw [Stmt.isLegible, List.all_eq_true] at legible
  have params : Json.readList Param.ofJson (.arr (head.params.map Param.toJson)) = .ok (head.params.map id) := by
    refine Json.readList_map fun param member => Param.ofJson_toJson (legible param member) ?_
    have listed := Json.depth_lt_arr_map Param.toJson member
    have within : (Json.arr (head.params.map Param.toJson)).depth < (head.toJson content).depth :=
      Json.depth_lt_object "params" (by simp)
    omega
  rw [List.map_id] at params
  exact ((spells_string "name" head.name).map _ |>.and (spells_required (Visibility.ofJson_toJson head.visibility))
    |>.and (spells_bool "is_static" head.isStatic) |>.and (spells_bool "is_abstract" head.isAbstract)
    |>.and (spells_bool "is_final" head.isFinal) |>.and (spells_bool "by_ref" head.byRef)
    |>.and (spells_required params) |>.and (spells_nullable success)).record (by simp)

end Heads

/-! ## Reading back -/

theorem readList_bodyToJson {read : Json → Except Json.Rejection Stmt} {body : List Stmt}
    (success : ∀ stmt ∈ body, read (stmtToJson stmt) = .ok stmt.unsetNulls) :
    Json.readList read (.arr (bodyToJson body)) = .ok (unsetNulls body) := by
  rw [bodyToJson_eq_map, unsetNulls_eq_map]
  exact Json.readList_map success

theorem depth_stmtToJson_pos (stmt : Stmt) : 0 < (stmtToJson stmt).depth := by
  cases stmt with
  | method head body =>
    cases body <;> rw [stmtToJson, Json.depth_tagged] <;> exact Nat.succ_pos _
  | _ =>
    rw [stmtToJson, Json.depth_tagged]
    exact Nat.succ_pos _

theorem depth_bodyToJson_lt {stmt : Stmt} {body : List Stmt} (holds : stmt.body? = some body) :
    (Json.arr (bodyToJson body)).depth < (stmtToJson stmt).depth := by
  cases stmt with
  | space | classDecl | method =>
    cases holds
    rw [stmtToJson, Json.depth_tagged]
    exact Nat.lt_succ_of_lt (Json.depth_lt_object "stmts" (by simp))
  | property | constant | throw | expr => cases holds

theorem stmtOfJson_stmtToJson {fuel : Nat} {stmt : Stmt} (fits : fuel ≤ Json.maxDepth)
    (legible : stmt.isLegible = true) (inside : isLegible (stmt.body?.getD []) = true)
    (shallow : (stmtToJson stmt).depth ≤ fuel) : stmtOfJson (fuel + 1) (stmtToJson stmt) = .ok stmt.unsetNulls := by
  induction fuel generalizing stmt with
  | zero =>
    have tagged := depth_stmtToJson_pos stmt
    omega
  | succ fuel ih =>
    -- the statements inside are read with one fuel less, and they are nested that much less
    have content {body : List Stmt} (holds : stmt.body? = some body) :
        Json.readList (stmtOfJson (fuel + 1)) (.arr (bodyToJson body)) = .ok (unsetNulls body) := by
      rw [holds] at inside
      have outer := depth_bodyToJson_lt holds
      rw [bodyToJson_eq_map] at outer
      refine readList_bodyToJson fun inner member => ?_
      obtain ⟨own, within⟩ := isLegible_of_mem member inside
      have deeper := Json.depth_lt_arr_map stmtToJson member
      exact ih (by omega) own within (by omega)
    cases stmt with
    | space name body =>
      rw [stmtToJson, stmtOfJson, Json.readTagged_tagged rfl rfl]
      exact readSpace_object legible (content rfl)
    | classDecl head body =>
      rw [stmtToJson, stmtOfJson, Json.readTagged_tagged rfl rfl]
      exact readClass_toJson legible (content rfl)
    | method head body =>
      cases body with
      | none =>
        rw [stmtToJson, Json.depth_tagged] at shallow
        rw [stmtToJson, stmtOfJson, Json.readTagged_tagged rfl rfl]
        exact readMethod_toJson legible (by omega) rfl
      | some body =>
        rw [stmtToJson, Json.depth_tagged] at shallow
        rw [stmtToJson, stmtOfJson, Json.readTagged_tagged rfl rfl]
        refine readMethod_toJson legible (by omega) ?_
        change some <$> Json.readList _ _ = _
        rw [content rfl]
        rfl
    | property value =>
      rw [stmtToJson, stmtOfJson, Json.readTagged_tagged rfl rfl, Property.ofJson_toJson legible]
      rfl
    | constant value =>
      rw [stmtToJson, stmtOfJson, Json.readTagged_tagged rfl rfl, Constant.ofJson_toJson legible]
      rfl
    | throw value | expr value =>
      rw [stmtToJson, Json.depth_tagged] at shallow
      rw [stmtToJson, stmtOfJson, Json.readTagged_tagged rfl rfl, Expr.read_toJson legible (by omega)]
      rfl

section Readable

variable {content : Json}

private theorem isReadable_sourceName (name : Option SourceName) :
    (Json.ofOption SourceName.toJson name).isReadable = true :=
  Json.isReadable_ofOption fun _ _ => rfl

private theorem isReadable_visibility (visibility : Visibility) : visibility.toJson.isReadable = true :=
  rfl

theorem isReadable_classHead (head : ClassHead) (readable : content.isReadable = true) :
    (head.toJson content).isReadable = true := by
  have interfaces : (Json.arr (head.interfaces.map SourceName.toJson)).isReadable = true :=
    Json.isReadable_arr_map fun _ _ => rfl
  rw [ClassHead.toJson, Json.isReadable_object]
  simp only [List.all_cons, List.all_nil, isReadable_sourceName, interfaces, readable]
  rfl

theorem isReadable_methodHead {head : MethodHead} (legible : head.params.all Param.isLegible = true)
    (readable : content.isReadable = true) : (head.toJson content).isReadable = true := by
  have params : (Json.arr (head.params.map Param.toJson)).isReadable = true :=
    Json.isReadable_arr_map fun param member => Param.isReadable_toJson (List.all_eq_true.mp legible param member)
  rw [MethodHead.toJson, Json.isReadable_object]
  simp only [List.all_cons, List.all_nil, isReadable_visibility, params, readable]
  rfl

theorem isReadable_stmtToJson {stmt : Stmt} (legible : stmt.isLegible = true)
    (inside : (Json.arr (bodyToJson (stmt.body?.getD []))).isReadable = true) :
    (stmtToJson stmt).isReadable = true := by
  cases stmt with
  | space name body =>
    have content : (Json.arr (bodyToJson body)).isReadable = true := inside
    rw [stmtToJson, Json.isReadable_tagged, Json.isReadable_object]
    simp only [List.all_cons, List.all_nil, isReadable_sourceName, content]
    rfl
  | classDecl head body =>
    rw [stmtToJson, Json.isReadable_tagged]
    exact isReadable_classHead head inside
  | method head body =>
    cases body with
    | none =>
      rw [stmtToJson, Json.isReadable_tagged]
      exact isReadable_methodHead legible rfl
    | some body =>
      rw [stmtToJson, Json.isReadable_tagged]
      exact isReadable_methodHead legible inside
  | property value =>
    have initial : (Json.ofOption Literal.toJson value.initial).isReadable = true :=
      Json.isReadable_ofOption fun own member => own.isReadable_toJson ((Option.all_eq_true _ _).mp legible own member)
    rw [stmtToJson, Json.isReadable_tagged, Property.toJson, Json.isReadable_object]
    simp only [List.all_cons, List.all_nil, isReadable_visibility, initial]
    rfl
  | constant value =>
    rw [stmtToJson, Json.isReadable_tagged, Constant.toJson, Json.isReadable_object]
    simp only [List.all_cons, List.all_nil, value.value.isReadable_toJson legible]
    rfl
  | throw value | expr value =>
    rw [stmtToJson, Json.isReadable_tagged, value.isReadable_toJson legible]

end Readable

theorem isReadable_toJson {tree : Tree} (legible : tree.isLegible = true) : tree.toJson.isReadable = true := by
  rw [toJson]
  induction tree using Tree.induction_inside with
  | nil => rfl
  | cons stmt rest within later =>
    rw [isLegible_cons, Bool.and_eq_true, Bool.and_eq_true] at legible
    obtain ⟨own, inside, behind⟩ := legible
    have readable := later behind
    rw [Json.isReadable] at readable ⊢
    rw [bodyToJson, Json.itemsReadable, isReadable_stmtToJson own (within inside), readable]
    rfl

/-- A tree whose names and literals can be told from their texts is read back as it was, but for the properties that
start as `null`. -/
theorem ofText_json_eq_unsetNulls {tree : Tree} (legible : tree.isLegible = true)
    (shallow : tree.toJson.depth ≤ Json.maxDepth) : ofText tree.json = .ok tree.unsetNulls := by
  rw [ofText, json, Json.decode_render _ (isReadable_toJson legible) shallow]
  refine readList_bodyToJson fun stmt member => ?_
  obtain ⟨own, inside⟩ := isLegible_of_mem member legible
  rw [toJson, bodyToJson_eq_map] at shallow
  have deeper := Json.depth_lt_arr_map stmtToJson member
  exact stmtOfJson_stmtToJson Nat.le.refl own inside (by omega)

/-! ## What is lost -/

private theorem unsetNull_eq_self_iff {property : Property} :
    property.unsetNull = property ↔ property.initial ≠ some .null := by
  obtain ⟨name, visibility, isStatic, initial⟩ := property
  simp only [Property.unsetNull, Property.mk.injEq, true_and]
  split
  case h_1 => simp
  case h_2 given solid => simpa using solid

theorem stmtUnsetNulls_eq_self_iff {stmt : Stmt} : stmt.unsetNulls = stmt ↔
    (∀ property, stmt = .property property → property.initial ≠ some .null) ∧
      unsetNulls (stmt.body?.getD []) = stmt.body?.getD [] := by
  cases stmt with
  | space | classDecl => simp [Stmt.unsetNulls, Stmt.body?]
  | method head body => cases body <;> simp [Stmt.unsetNulls, Stmt.body?, unsetNulls]
  | property value => simp [Stmt.unsetNulls, Stmt.body?, unsetNulls, unsetNull_eq_self_iff]
  | constant | throw | expr => simp [Stmt.unsetNulls, Stmt.body?, unsetNulls]

theorem unsetNulls_eq_self_iff {tree : Tree} :
    tree.unsetNulls = tree ↔ ∀ property, Stmt.property property ∈ tree.statements → property.initial ≠ some .null := by
  induction tree using Tree.induction_inside with
  | nil => simp [unsetNulls]
  | cons stmt rest within later =>
    rw [unsetNulls, List.cons.injEq, stmtUnsetNulls_eq_self_iff, within, later, statements_cons]
    simp only [List.mem_cons, List.mem_append, or_imp, forall_and, eq_comm, and_assoc]

/-- A tree whose names and literals can be told from their texts, and that is nested no deeper than JSON texts are
read, is read from its JSON text as it was but for the properties that start as `null`: they start as nothing. So
the same tree is read if and only if there is no such property at any depth. -/
theorem ofText_json {tree : Tree} (legible : tree.isLegible = true) (shallow : tree.toJson.depth ≤ Json.maxDepth) :
    ofText tree.json = .ok tree.unsetNulls ∧
      (ofText tree.json = .ok tree ↔
        ∀ property, Stmt.property property ∈ tree.statements → property.initial ≠ some .null) := by
  have reading := ofText_json_eq_unsetNulls legible shallow
  refine ⟨reading, ?_⟩
  rw [reading, Except.ok.injEq, unsetNulls_eq_self_iff]

/-- A class in a namespace that has a property with this initial value, a constant and a method. -/
def postTree (initial : Option Literal) : Tree :=
  [.space (some ⟨["App", "Model"], false⟩) [
    .classDecl ⟨"Post", false, true, some ⟨["Base"], true⟩, [⟨["App", "Saved"], true⟩]⟩ [
      .property ⟨"title", .prot, false, initial⟩,
      .constant ⟨"LIMITS", .map [("low", .int (-1)), ("high", .list [.float ⟨0x4002000000000000⟩, .null])]⟩,
      .method ⟨"save", .pub, false, false, false, true, [⟨"into", false, some .array, some (.literal .null)⟩]⟩
        (some [.throw (.new ⟨["Exception"], true⟩ [.literal (.str "'no'\n")])])]]]

theorem ofText_json_post :
    (postTree (some (.str "new"))).isLegible = true ∧
      (postTree (some (.str "new"))).toJson.depth ≤ Json.maxDepth ∧
      ofText (postTree (some (.str "new"))).json = .ok (postTree (some (.str "new"))) := by
  have legible : (postTree (some (.str "new"))).isLegible = true := by decide +kernel
  have shallow : (postTree (some (.str "new"))).toJson.depth ≤ Json.maxDepth := by decide +kernel
  exact ⟨legible, shallow, (ofText_json legible shallow).1⟩

/-- A described property whose initial value is declared and missing starts as `null` in the tree that is built, and
as nothing in the tree that is read from its text: the source of the class is no longer the same. -/
theorem ofText_json_null :
    ∃ tree other, Blueprint.build { name := ⟨[], "Post"⟩, properties := [{ name := "x", hasInitial := true }] } =
        .ok tree ∧
      tree.isLegible = true ∧ tree.toJson.depth ≤ Json.maxDepth ∧ ofText tree.json = .ok other ∧
      tree.source = "class Post\n\x7b\n    public $x = null;\n\x7d\n" ∧
      other.source = "class Post\n\x7b\n    public $x;\n\x7d\n" := by
  have legible : Tree.isLegible [.classDecl ⟨"Post", false, false, none, []⟩
      [.property ⟨"x", .pub, false, some .null⟩]] = true := by decide +kernel
  refine ⟨_, _, rfl, legible, by decide +kernel, ofText_json_eq_unsetNulls legible (by decide +kernel), ?_, ?_⟩
  · decide +kernel
  · decide +kernel

end Tree

end ClassForge
