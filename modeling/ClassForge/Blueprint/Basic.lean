import ClassForge.Name.ClassName
import ClassForge.Tree.Basic

/-! # Blueprints of classes

A blueprint is the reflected shape of a class: its name, parent, interfaces, constants, properties
and method signatures. Constants are kept in the order of their names.
-/

namespace ClassForge

/-- Constants in strictly increasing order of their names. -/
structure ConstantTable where
  entries : List (String × Literal)
  sorted : entries.Pairwise fun a b => a.1 < b.1

namespace ConstantTable

def empty : ConstantTable := ⟨[], .nil⟩

/-- Gives a name a value, at the place where the name belongs. -/
def insertEntry (name : String) (value : Literal) :
    List (String × Literal) → List (String × Literal)
  | [] => [(name, value)]
  | (other, old) :: rest =>
    if name < other then (name, value) :: (other, old) :: rest
    else if name = other then (name, value) :: rest
    else (other, old) :: insertEntry name value rest

theorem mem_insertEntry {name : String} {value : Literal} {entries : List (String × Literal)}
    {entry : String × Literal} (member : entry ∈ insertEntry name value entries) :
    entry = (name, value) ∨ entry ∈ entries := by
  induction entries with
  | nil => simpa [insertEntry] using member
  | cons head rest ih =>
    obtain ⟨other, old⟩ := head
    simp only [insertEntry] at member
    split at member
    · simpa using member
    · split at member
      · rcases List.mem_cons.mp member with h | h
        · exact .inl h
        · exact .inr (List.mem_cons_of_mem _ h)
      · rcases List.mem_cons.mp member with h | h
        · exact .inr (h ▸ List.mem_cons_self)
        · exact (ih h).imp id (List.mem_cons_of_mem _)

theorem pairwise_insertEntry (name : String) (value : Literal)
    {entries : List (String × Literal)} (sorted : entries.Pairwise fun a b => a.1 < b.1) :
    (insertEntry name value entries).Pairwise fun a b => a.1 < b.1 := by
  induction entries with
  | nil => simp [insertEntry]
  | cons head rest ih =>
    obtain ⟨other, old⟩ := head
    obtain ⟨above, tail⟩ := List.pairwise_cons.mp sorted
    simp only [insertEntry]
    split
    · rename_i before
      refine List.pairwise_cons.mpr ⟨fun entry member => ?_, sorted⟩
      rcases List.mem_cons.mp member with rfl | h
      · exact before
      · exact String.lt_trans before (above entry h)
    · split
      · rename_i same
        subst same
        exact List.pairwise_cons.mpr ⟨above, tail⟩
      · rename_i notBefore different
        refine List.pairwise_cons.mpr ⟨fun entry member => ?_, ih tail⟩
        rcases mem_insertEntry member with rfl | h
        · exact Std.lt_of_le_of_ne (Std.not_lt.mp notBefore) (Ne.symm different)
        · exact above entry h

/-- Gives a name a value. -/
def insert (name : String) (value : Literal) (table : ConstantTable) : ConstantTable :=
  ⟨insertEntry name value table.entries, pairwise_insertEntry name value table.sorted⟩

/-- The table that results from giving the names their values one after the other. -/
def ofEntries (entries : List (String × Literal)) : ConstantTable :=
  entries.foldl (fun table (name, value) => table.insert name value) empty

end ConstantTable

/-- The type of a parameter. -/
inductive ParameterHint where
  | array
  | callable
  | named (name : ClassName)
deriving DecidableEq, Repr

/-- The default of a parameter: a value, or the constant that has it. -/
inductive ParameterDefault where
  | literal (value : Literal)
  | constant (name : String)

/-- A parameter of a described method. -/
structure ParameterBlueprint where
  name : String
  byReference : Bool := false
  hint : Option ParameterHint := none
  fallback : Option ParameterDefault := none

/-- A described method. -/
structure MethodBlueprint where
  name : String
  visibility : Visibility := .pub
  isStatic : Bool := false
  isAbstract : Bool := false
  isFinal : Bool := false
  returnsReference : Bool := false
  parameters : List ParameterBlueprint := []

/-- A described property. Its initial value counts only if it is declared to have one; if that is
missing, it is null. -/
structure PropertyBlueprint where
  name : String
  visibility : Visibility := .pub
  isStatic : Bool := false
  hasInitial : Bool := false
  initial : Option Literal := none

/-- A described class. -/
structure Blueprint where
  name : ClassName
  isAbstract : Bool := false
  isFinal : Bool := false
  parent : Option ClassName := none
  interfaces : List ClassName := []
  constants : ConstantTable := ConstantTable.empty
  properties : List PropertyBlueprint := []
  methods : List MethodBlueprint := []

end ClassForge
