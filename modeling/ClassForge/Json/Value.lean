import ClassForge.Double.Basic

/-! # JSON values

A `Json` is what a reader can make of a text. Objects keep their members in the order of the text,
repeated keys included. Where the text cannot be used, the value holds a `fault`; a reader of
records takes the first fault it meets, and passes over those in members it does not know.
-/

namespace ClassForge

/-- Why a part of a text gives no value. -/
inductive Json.Fault where
  /-- The text breaks off or is not JSON from here on. -/
  | malformed
  /-- A string holds half of a surrogate pair. -/
  | unpaired
  /-- A number lies beyond all finite doubles. -/
  | tooLarge
  /-- Arrays and objects are nested too deeply. -/
  | tooDeep
deriving DecidableEq, Repr

/-- A JSON value. A key is absent if it holds half of a surrogate pair, or if the text breaks off in
front of it. -/
inductive Json where
  | null
  | bool (value : Bool)
  | int (value : Int64)
  | float (value : Double)
  | str (value : String)
  | arr (items : List Json)
  | obj (members : List (Option String × Json))
  | fault (cause : Json.Fault)

namespace Json

/-- An object all of whose keys are known. -/
def object (members : List (String × Json)) : Json :=
  .obj (members.map fun (key, value) => (some key, value))

mutual

/-- Whether the text can be read past this value. -/
def isPassable : Json → Bool
  | .fault .malformed => false
  | .arr items => allPassable items
  | .obj members => membersPassable members
  | _ => true

def allPassable : List Json → Bool
  | [] => true
  | item :: rest => item.isPassable && allPassable rest

def membersPassable : List (Option String × Json) → Bool
  | [] => true
  | (_, value) :: rest => value.isPassable && membersPassable rest

end

mutual

/-- How many arrays and objects lie inside one another. -/
def depth : Json → Nat
  | .arr items => depthItems items + 1
  | .obj members => depthMembers members + 1
  | _ => 0

def depthItems : List Json → Nat
  | [] => 0
  | item :: rest => max item.depth (depthItems rest)

def depthMembers : List (Option String × Json) → Nat
  | [] => 0
  | (_, value) :: rest => max value.depth (depthMembers rest)

end

mutual

/-- Replaces arrays and objects below the given number of levels by a fault. Where the text breaks
off inside of such a value, it stays malformed. -/
def limit : (levels : Nat) → Json → Json
  | 0, .arr items => .fault (if allPassable items then .tooDeep else .malformed)
  | 0, .obj members => .fault (if membersPassable members then .tooDeep else .malformed)
  | levels + 1, .arr items => .arr (limitItems levels items)
  | levels + 1, .obj members => .obj (limitMembers levels members)
  | _, value => value

def limitItems (levels : Nat) : List Json → List Json
  | [] => []
  | item :: rest => item.limit levels :: limitItems levels rest

def limitMembers (levels : Nat) : List (Option String × Json) → List (Option String × Json)
  | [] => []
  | (key, value) :: rest => (key, value.limit levels) :: limitMembers levels rest

end

end Json

end ClassForge
