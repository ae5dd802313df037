import ClassForge.Json.Parse

/-! # From JSON to records

Readers turn a `Json` into a value of the domain. A record is written as an object, whose members
may come in any order, or as an array of its fields in order. Of several faults the one that stands
first in the text is reported, so a reader of records tells where each fault lies.
-/

namespace ClassForge

namespace Json

/-- Why a text was rejected. -/
inductive Rejection where
  /-- It is no JSON, or not of the expected form. -/
  | shape
  /-- A text in it is not what it should be. -/
  | invalid (message : String)
deriving DecidableEq, Repr

/-- The deepest nesting of arrays and objects that is read. -/
def maxDepth : Nat := 127

/-- Reads a whole text. -/
def decode {α : Type} (read : Json → Except Rejection α) (text : String) :
    Except Rejection α := do
  let (json, rest) := scan text.toList
  let value ← read (json.limit maxDepth)
  if skipBlanks rest = [] then return value else .error .shape

/-! ## Plain values -/

def readString : Json → Except Rejection String
  | .str text => .ok text
  | _ => .error .shape

def readBool : Json → Except Rejection Bool
  | .bool value => .ok value
  | _ => .error .shape

/-- Reads an array item by item. -/
def readList {α : Type} (read : Json → Except Rejection α) : Json → Except Rejection (List α)
  | .arr items => items.mapM read
  | _ => .error .shape

/-- Reads a value that may be `null`. -/
def readOption {α : Type} (read : Json → Except Rejection α) : Json → Except Rejection (Option α)
  | .null => .ok none
  | json => some <$> read json

/-- Reads a text and checks it. -/
def readChecked {ε α : Type} (check : String → Except ε α) (message : ε → String) (json : Json) :
    Except Rejection α := do
  match check (← readString json) with
  | .ok value => return value
  | .error cause => .error (.invalid (message cause))

/-! ## Records -/

/-- What a record is read from: its members in the order of the text, and whether they were given by
position. -/
structure Members where
  entries : List (Option String × Json)
  byPosition : Bool

/-- A rejection and the number of members before its place. -/
structure Located where
  index : Nat
  cause : Rejection

/-- The rejection that stands first. -/
def Located.first (a b : Located) : Located :=
  if b.index < a.index then b else a

/-- A reader of some of the fields of a record, in their order. -/
structure Fields (α : Type) where
  names : List String
  read : Members → Except Located α

namespace Fields

def map {α β : Type} (f : α → β) (fields : Fields α) : Fields β where
  names := fields.names
  read members := f <$> fields.read members

/-- Reads further fields; of two faults the first in the text counts. -/
def and {α β : Type} (front : Fields (α → β)) (back : Fields α) : Fields β where
  names := front.names ++ back.names
  read members :=
    match front.read members, back.read members with
    | .ok f, .ok a => .ok (f a)
    | .error e, .ok _ => .error e
    | .ok _, .error e => .error e
    | .error e, .error e' => .error (e.first e')

/-- One field; `absent` says what a record without it holds, given whether its fields came by
position. -/
def field {α : Type} (name : String) (absent : Bool → Option α)
    (read : Json → Except Rejection α) : Fields α where
  names := [name]
  read members :=
    match members.entries.findIdx? (·.1 == some name) with
    | some index =>
      match members.entries[index]? with
      | some (_, json) => (read json).mapError (Located.mk index)
      | none => .error ⟨index, .shape⟩
    | none =>
      match absent members.byPosition with
      | some value => .ok value
      | none => .error ⟨members.entries.length, .shape⟩

/-- A field that must be there. -/
def required {α : Type} (name : String) (read : Json → Except Rejection α) : Fields α :=
  field name (fun _ => none) read

/-- A field with a value to fall back on. -/
def defaulted {α : Type} (name : String) (value : α) (read : Json → Except Rejection α) :
    Fields α :=
  field name (fun _ => some value) read

/-- A field that may be `null`, and may be left out of an object. -/
def nullable {α : Type} (name : String) (read : Json → Except Rejection α) : Fields (Option α) :=
  field name (fun byPosition => if byPosition then none else some none) (readOption read)

/-- The first member that no field accounts for: one with an unreadable key, with a key that came
before, or with an unknown key and a value that reading cannot get past. -/
def oddity? (names : List String) : (index : Nat) → (seen : List String) →
    List (Option String × Json) → Option Located
  | _, _, [] => none
  | index, _, (none, _) :: _ => some ⟨index, .shape⟩
  | index, seen, (some key, value) :: rest =>
    if names.contains key then
      if seen.contains key then some ⟨index, .shape⟩
      else oddity? names (index + 1) (key :: seen) rest
    else if value.isPassable then oddity? names (index + 1) seen rest
    else some ⟨index, .shape⟩

/-- Reads the fields and accounts for every member. -/
def run {α : Type} (fields : Fields α) (members : Members) : Except Located α :=
  match oddity? fields.names 0 [] members.entries, fields.read members with
  | none, result => result
  | some e, .ok _ => .error e
  | some e, .error e' => .error (e.first e')

/-- Reads a record. An array gives the fields by position, and may not be longer than their list. -/
def record {α : Type} (fields : Fields α) : Json → Except Rejection α
  | .obj members => (fields.run ⟨members, false⟩).mapError Located.cause
  | .arr items => do
    let named := (fields.names.map some).zip items
    let value ← (fields.run ⟨named, true⟩).mapError Located.cause
    if items.length ≤ fields.names.length then return value else .error .shape
  | _ => .error .shape

end Fields

/-! ## Tagged values -/

/-- Reads one of several alternatives: a tag alone, or an object with the tag as its only key. A tag
without content may also be the key of a `null`. -/
def readTagged {α : Type} (plain : String → Option α)
    (tagged : String → Option (Json → Except Rejection α)) : Json → Except Rejection α
  | .str tag => (plain tag).elim (.error .shape) .ok
  | .obj ((some tag, content) :: rest) => do
    let value ←
      match plain tag, tagged tag, content with
      | some value, _, .null => pure value
      | none, some read, content => read content
      | _, _, _ => .error .shape
    if rest.isEmpty then return value else .error .shape
  | _ => .error .shape

end Json

end ClassForge
