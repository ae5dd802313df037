import ClassForge.Proofs.Literal.Numerals
import ClassForge.Tree.Source

/-! # Printed literals can be read in one way only

A literal without doubles can be split off the front of a source text: its first character tells the kind, a quote
or a bracket tells where it ends, and a number ends at the comma or the bracket behind it. Lists and maps are both
printed as cells between brackets, where the cells of a map have keys. So nothing is lost but whether an empty pair of
brackets was a list or a map.
-/

namespace ClassForge

namespace Literal

mutual

/-- Whether there is no double in the literal, at any depth. -/
def isFloatFree : Literal → Bool
  | .float _ => false
  | .list items => itemsFloatFree items
  | .map entries => entriesFloatFree entries
  | _ => true

def itemsFloatFree : List Literal → Bool
  | [] => true
  | item :: rest => item.isFloatFree && itemsFloatFree rest

def entriesFloatFree : List (String × Literal) → Bool
  | [] => true
  | (_, value) :: rest => value.isFloatFree && entriesFloatFree rest

end

theorem itemsFloatFree_eq_all (items : List Literal) : itemsFloatFree items = items.all isFloatFree := by
  induction items with
  | nil => rfl
  | cons item rest ih => rw [itemsFloatFree, ih, List.all_cons]

theorem entriesFloatFree_eq_all (entries : List (String × Literal)) :
    entriesFloatFree entries = entries.all fun entry => entry.2.isFloatFree := by
  induction entries with
  | nil => rfl
  | cons entry rest ih => rw [entriesFloatFree, ih, List.all_cons]

mutual

/-- The literal with every empty map in it, at any depth, exchanged for an empty list. -/
def settled : Literal → Literal
  | .list items => .list (itemsSettled items)
  | .map [] => .list []
  | .map (entry :: rest) => .map (entriesSettled (entry :: rest))
  | literal => literal

def itemsSettled : List Literal → List Literal
  | [] => []
  | item :: rest => item.settled :: itemsSettled rest

def entriesSettled : List (String × Literal) → List (String × Literal)
  | [] => []
  | (key, value) :: rest => (key, value.settled) :: entriesSettled rest

end

theorem itemsSettled_eq_map (items : List Literal) : itemsSettled items = items.map settled := by
  induction items with
  | nil => rfl
  | cons item rest ih => rw [itemsSettled, ih, List.map_cons]

theorem entriesSettled_eq_map (entries : List (String × Literal)) :
    entriesSettled entries = entries.map fun entry => (entry.1, entry.2.settled) := by
  induction entries with
  | nil => rfl
  | cons entry rest ih => rw [entriesSettled, ih, List.map_cons]

/-! ## Cells between brackets -/

/-- What stands between two commas: an item, or a value behind its key. -/
abbrev Cell := Option String × Literal

def Cell.source : Cell → String
  | (none, value) => value.source
  | (some key, value) => quote key ++ " => " ++ value.source

/-- What stands between the brackets of a list or a map. -/
def cells : Literal → Option (List Cell)
  | .list items => some (items.map fun item => (none, item))
  | .map entries => some (entries.map fun entry => (some entry.1, entry.2))
  | _ => none

theorem itemsSource_eq (items : List Literal) : itemsSource items = commaSeparated (items.map source) := by
  induction items with
  | nil => rfl
  | cons item rest ih =>
    cases rest with
    | nil => rfl
    | cons => exact congrArg (item.source ++ ", " ++ ·) ih

theorem entriesSource_eq (entries : List (String × Literal)) :
    entriesSource entries = commaSeparated (entries.map fun entry => quote entry.1 ++ " => " ++ entry.2.source) := by
  induction entries with
  | nil => rfl
  | cons entry rest ih =>
    cases rest with
    | nil => rfl
    | cons => exact congrArg (quote entry.1 ++ " => " ++ entry.2.source ++ ", " ++ ·) ih

/-- Lists and maps are printed alike, cell by cell. -/
theorem source_of_cells {literal : Literal} {cells : List Cell} (between : literal.cells = some cells) :
    literal.source = "[" ++ commaSeparated (cells.map Cell.source) ++ "]" := by
  cases literal with
  | list items =>
    obtain rfl := Option.some.inj between
    rw [source, itemsSource_eq, List.map_map]
    rfl
  | map entries =>
    obtain rfl := Option.some.inj between
    rw [source, entriesSource_eq, List.map_map]
    rfl
  | null | bool | int | float | str => cases between

/-- A literal is a scalar, or it has cells. -/
@[elab_as_elim]
theorem induction_cells {motive : Literal → Prop} (scalar : ∀ literal, literal.cells = none → motive literal)
    (bracketed : ∀ literal cells, literal.cells = some cells → (∀ cell ∈ cells, motive cell.2) → motive literal)
    (literal : Literal) : motive literal := by
  cases literal with
  | list items =>
    refine bracketed _ _ rfl fun cell member => ?_
    obtain ⟨item, inside, rfl⟩ := List.mem_map.mp member
    have smaller := List.sizeOf_lt_of_mem inside
    exact induction_cells scalar bracketed item
  | map entries =>
    refine bracketed _ _ rfl fun cell member => ?_
    obtain ⟨⟨key, value⟩, inside, rfl⟩ := List.mem_map.mp member
    have smaller : sizeOf value < sizeOf entries := by
      have pair := List.sizeOf_lt_of_mem inside
      rw [Prod.mk.sizeOf_spec] at pair
      omega
    exact induction_cells scalar bracketed value
  | null | bool | int | float | str => exact scalar _ rfl
termination_by sizeOf literal

theorem isFloatFree_of_mem_cells {literal : Literal} {cells : List Cell} (free : literal.isFloatFree = true)
    (between : literal.cells = some cells) : ∀ cell ∈ cells, cell.2.isFloatFree = true := by
  intro cell member
  cases literal with
  | list items =>
    obtain rfl := Option.some.inj between
    obtain ⟨item, inside, rfl⟩ := List.mem_map.mp member
    rw [isFloatFree, itemsFloatFree_eq_all, List.all_eq_true] at free
    exact free item inside
  | map entries =>
    obtain rfl := Option.some.inj between
    obtain ⟨entry, inside, rfl⟩ := List.mem_map.mp member
    rw [isFloatFree, entriesFloatFree_eq_all, List.all_eq_true] at free
    exact free entry inside
  | null | bool | int | float | str => cases between

/-- The cell with its value settled. -/
def Cell.settled (cell : Cell) : Cell :=
  (cell.1, cell.2.settled)

theorem cells_settled {literal : Literal} {cells : List Cell} (between : literal.cells = some cells) :
    literal.settled.cells = some (cells.map Cell.settled) := by
  cases literal with
  | list items =>
    obtain rfl := Option.some.inj between
    simp [settled, itemsSettled_eq_map, Literal.cells, Cell.settled, Function.comp_def]
  | map entries =>
    obtain rfl := Option.some.inj between
    cases entries <;> simp [settled, entriesSettled_eq_map, Literal.cells, Cell.settled, Function.comp_def]
  | null | bool | int | float | str => cases between

/-- The literal of these cells. A key in the first cell makes it a map. -/
def ofCells : List Cell → Literal
  | [] => .list []
  | (none, value) :: rest => .list (value :: rest.map Prod.snd)
  | (some key, value) :: rest => .map ((key, value) :: rest.map fun cell => (cell.1.getD "", cell.2))

/-- Cells tell a list from a map, unless there are none. -/
theorem settled_of_cells {literal : Literal} {cells : List Cell} (between : literal.cells = some cells) :
    literal.settled = ofCells (cells.map Cell.settled) := by
  cases literal with
  | list items =>
    obtain rfl := Option.some.inj between
    cases items <;> simp [settled, itemsSettled_eq_map, ofCells, Cell.settled, Function.comp_def]
  | map entries =>
    obtain rfl := Option.some.inj between
    cases entries <;> simp [settled, entriesSettled_eq_map, ofCells, Cell.settled, Function.comp_def]
  | null | bool | int | float | str => cases between

/-! ## Reading a text from its front -/

/-- Text that may follow a literal: none, or a comma or a bracket first. -/
def Stops (text : List Char) : Prop :=
  ∀ c ∈ text.head?, c = ',' ∨ c = ']'

theorem stops_nil : Stops [] := by
  intro c first
  cases first

private theorem escape_append_inj {c d : Char} {r s : List Char} (same : escape c ++ r = escape d ++ s) :
    c = d ∧ r = s := by
  rw [escape, escape] at same
  split at same <;> split at same
  · exact List.cons.inj (List.cons.inj same).2
  · rename_i plain
    exact absurd (.inl (List.cons.inj same).1.symm) plain
  · rename_i plain _
    exact absurd (.inl (List.cons.inj same).1) plain
  · exact List.cons.inj same

/-- An escaped character does not look like the end of a text. -/
private theorem escape_ne_quote {c : Char} {r s : List Char} : escape c ++ r ≠ '\'' :: s := by
  intro same
  rw [escape] at same
  split at same
  · exact absurd (List.cons.inj same).1 (by decide)
  · rename_i plain
    exact plain (.inr (List.cons.inj same).1)

private theorem flatMap_escape_append_inj {a b r s : List Char}
    (same : a.flatMap escape ++ '\'' :: r = b.flatMap escape ++ '\'' :: s) : a = b ∧ r = s := by
  induction a generalizing b with
  | nil =>
    cases b with
    | nil => exact ⟨rfl, (List.cons.inj same).2⟩
    | cons d b =>
      rw [List.flatMap_cons, List.append_assoc] at same
      exact absurd same.symm escape_ne_quote
  | cons c a ih =>
    cases b with
    | nil =>
      rw [List.flatMap_cons, List.append_assoc] at same
      exact absurd same escape_ne_quote
    | cons d b =>
      rw [List.flatMap_cons, List.flatMap_cons, List.append_assoc, List.append_assoc] at same
      obtain ⟨rfl, rest⟩ := escape_append_inj same
      obtain ⟨rfl, after⟩ := ih rest
      exact ⟨rfl, after⟩

/-- A quoted text ends where its quote ends. -/
theorem quote_append_inj {a b : String} {r s : List Char}
    (same : (quote a).toList ++ r = (quote b).toList ++ s) : a = b ∧ r = s := by
  simp only [quote, String.toList_ofList, List.cons_append, List.append_assoc, List.nil_append] at same
  obtain ⟨texts, after⟩ := flatMap_escape_append_inj (List.cons.inj same).2
  exact ⟨String.toList_inj.mp texts, after⟩

private theorem takeWhile_numeral_append {m r : List Char} (numeral : ∀ c ∈ m, isNumeralChar c = true)
    (stops : Stops r) : (m ++ r).takeWhile isNumeralChar = m := by
  rw [List.takeWhile_append_of_pos numeral]
  cases r with
  | nil => simp
  | cons c r =>
    have other : isNumeralChar c = false := by
      rcases stops c rfl with rfl | rfl <;> rfl
    simp [other]

/-- A number ends where its numeral ends. -/
theorem numeral_append_inj {m n : Int} {r s : List Char} (stops : Stops r) (stops' : Stops s)
    (same : (toString m).toList ++ r = (toString n).toList ++ s) : m = n ∧ r = s := by
  have digits := congrArg (List.takeWhile isNumeralChar) same
  rw [takeWhile_numeral_append (fun _ => isNumeralChar_toString_int) stops,
    takeWhile_numeral_append (fun _ => isNumeralChar_toString_int) stops'] at digits
  rw [digits] at same
  exact ⟨toString_int_inj.mp digits, List.append_cancel_left same⟩

/-- What is left of texts with commas between them when the first of them is read. -/
def following (r : List Char) : List String → List Char
  | [] => ']' :: r
  | text :: rest => ',' :: ' ' :: (text.toList ++ following r rest)

theorem commaSeparated_append (text : String) (rest : List String) (r : List Char) :
    (commaSeparated (text :: rest)).toList ++ ']' :: r = text.toList ++ following r rest := by
  induction rest generalizing text with
  | nil => rfl
  | cons next rest ih =>
    rw [commaSeparated, String.toList_append, String.toList_append, List.append_assoc, List.append_assoc, ih]
    · rfl
    · exact List.cons_ne_nil _ _

theorem stops_following (r : List Char) (texts : List String) : Stops (following r texts) := by
  intro c first
  cases texts with
  | nil => exact .inr (Option.some.inj first).symm
  | cons => exact .inl (Option.some.inj first).symm

section Separated

variable {α β : Type} {print : α → String} {view : α → β} {values others : List α} {r s : List Char}

/-- Printed values that are each followed by a comma or a bracket can be read one by one. -/
private theorem map_eq_of_following
    (readable : ∀ value ∈ values, ∀ other ∈ others, ∀ r s, Stops r → Stops s →
      (print value).toList ++ r = (print other).toList ++ s → view value = view other ∧ r = s)
    (same : following r (values.map print) = following s (others.map print)) :
    values.map view = others.map view ∧ r = s := by
  induction values generalizing others with
  | nil =>
    cases others with
    | nil => exact ⟨rfl, (List.cons.inj same).2⟩
    | cons => exact absurd (List.cons.inj same).1 (by decide)
  | cons value values ih =>
    cases others with
    | nil => exact absurd (List.cons.inj same).1 (by decide)
    | cons other others =>
      obtain ⟨first, rest⟩ := readable value List.mem_cons_self other List.mem_cons_self _ _
        (stops_following _ _) (stops_following _ _) (List.cons.inj (List.cons.inj same).2).2
      obtain ⟨later, after⟩ := ih (fun value member other member' =>
        readable value (List.mem_cons_of_mem _ member) other (List.mem_cons_of_mem _ member')) rest
      exact ⟨by rw [List.map_cons, List.map_cons, first, later], after⟩

/-- Printed values between a comma and a comma can be read one by one, up to the closing bracket, if none of them starts
like it. -/
theorem map_eq_of_commaSeparated
    (readable : ∀ value ∈ values, ∀ other ∈ others, ∀ r s, Stops r → Stops s →
      (print value).toList ++ r = (print other).toList ++ s → view value = view other ∧ r = s)
    (opens : ∀ value ∈ values ++ others, ∀ r s, (print value).toList ++ r ≠ ']' :: s)
    (same : (commaSeparated (values.map print)).toList ++ ']' :: r =
      (commaSeparated (others.map print)).toList ++ ']' :: s) :
    values.map view = others.map view ∧ r = s := by
  cases values with
  | nil =>
    cases others with
    | nil => exact ⟨rfl, (List.cons.inj same).2⟩
    | cons other others =>
      rw [List.map_cons, commaSeparated_append] at same
      exact absurd same.symm (opens other List.mem_cons_self _ _)
  | cons value values =>
    cases others with
    | nil =>
      rw [List.map_cons, commaSeparated_append] at same
      exact absurd same (opens value List.mem_cons_self _ _)
    | cons other others =>
      rw [List.map_cons, List.map_cons, commaSeparated_append, commaSeparated_append] at same
      exact map_eq_of_following readable (congrArg (fun text => ',' :: ' ' :: text) same)

end Separated

/-! ## Reading a literal -/

/-- What the first character of a literal without doubles is, where `0` stands for what numbers start with. -/
def lead : Literal → Char
  | .null => 'n'
  | .bool value => if value then 't' else 'f'
  | .int _ | .float _ => '0'
  | .str _ => '\''
  | .list _ | .map _ => '['

/-- The kind of literal that a character starts. -/
def leadOf (c : Char) : Char :=
  if isNumeralChar c then '0' else c

theorem exists_source_eq_cons {a : Literal} (free : a.isFloatFree = true) :
    ∃ c rest, a.source.toList = c :: rest ∧ leadOf c = a.lead := by
  cases a with
  | null => exact ⟨'n', _, rfl, rfl⟩
  | bool value => cases value <;> exact ⟨_, _, rfl, rfl⟩
  | int value =>
    cases text : (toString value.toInt).toList with
    | nil =>
      rw [toList_toString_int] at text
      split at text
      · exact absurd text Nat.toDigits_ne_nil
      · cases text
    | cons c rest =>
      refine ⟨c, rest, text, if_pos (isNumeralChar_toString_int (n := value.toInt) ?_)⟩
      rw [text]
      exact List.mem_cons_self
  | float => cases free
  | str value => exact ⟨'\'', _, String.toList_ofList, rfl⟩
  | list items => exact ⟨'[', _, by rw [source, String.toList_append, String.toList_append]; rfl, rfl⟩
  | map entries => exact ⟨'[', _, by rw [source, String.toList_append, String.toList_append]; rfl, rfl⟩

/-- Texts that start alike are of literals of the same kind. -/
private theorem lead_eq {a b : Literal} (free : a.isFloatFree = true) (free' : b.isFloatFree = true)
    {r s : List Char} (same : a.source.toList ++ r = b.source.toList ++ s) : a.lead = b.lead := by
  obtain ⟨c, rest, text, kind⟩ := exists_source_eq_cons free
  obtain ⟨d, rest', text', kind'⟩ := exists_source_eq_cons free'
  rw [text, text'] at same
  rw [← kind, ← kind', (List.cons.inj same).1]

private theorem exists_cells_of_lead {a : Literal} (bracket : a.lead = '[') : ∃ cells, a.cells = some cells := by
  cases a with
  | list | map => exact ⟨_, rfl⟩
  | bool value => cases value <;> exact absurd bracket (by simp [lead])
  | null | int | float | str => exact absurd bracket (by simp [lead])

private theorem lead_of_cells {a : Literal} {cells : List Cell} (between : a.cells = some cells) : a.lead = '[' := by
  cases a with
  | list | map => rfl
  | null | bool | int | float | str => cases between

/-- An item does not go on like a key. -/
private theorem source_append_ne_key {a : Literal} (free : a.isFloatFree = true) {r : List Char} (stops : Stops r)
    (key : String) (rest : List Char) : a.source.toList ++ r ≠ (quote key).toList ++ (" => ".toList ++ rest) := by
  intro same
  have kind : a.lead = '\'' := lead_eq (b := .str key) free rfl same
  cases a with
  | str text =>
    obtain ⟨-, rfl⟩ := quote_append_inj same
    rcases stops ' ' rfl with comma | bracket
    · exact absurd comma (by decide)
    · exact absurd bracket (by decide)
  | bool value => cases value <;> exact absurd kind (by simp [lead])
  | null | int | float | list | map => exact absurd kind (by simp [lead])

/-- A cell does not start with a closing bracket. -/
private theorem Cell.source_append_ne_bracket {cell : Cell} (free : cell.2.isFloatFree = true) (r s : List Char) :
    cell.source.toList ++ r ≠ ']' :: s := by
  intro same
  obtain ⟨key | key, value⟩ := cell
  · obtain ⟨c, rest, text, kind⟩ := exists_source_eq_cons free
    rw [Cell.source, text] at same
    rw [(List.cons.inj same).1] at kind
    cases value with
    | bool value => cases value <;> exact absurd kind (by decide)
    | null | int | float | str | list | map => exact absurd kind (by simp only [lead]; decide)
  · rw [Cell.source, quote, String.toList_append, String.toList_append, String.toList_ofList] at same
    exact absurd (List.cons.inj same).1 (by decide)

/-- Cells can be read if their values can. -/
private theorem Cell.source_append_inj {cell other : Cell} (free : cell.2.isFloatFree = true)
    (free' : other.2.isFloatFree = true)
    (readable : ∀ r s, Stops r → Stops s → cell.2.source.toList ++ r = other.2.source.toList ++ s →
      cell.2.settled = other.2.settled ∧ r = s)
    {r s : List Char} (stops : Stops r) (stops' : Stops s)
    (same : cell.source.toList ++ r = other.source.toList ++ s) : cell.settled = other.settled ∧ r = s := by
  obtain ⟨key | key, value⟩ := cell <;> obtain ⟨key' | key', value'⟩ := other <;>
    simp only [Cell.source, String.toList_append, List.append_assoc] at same
  · obtain ⟨values, after⟩ := readable r s stops stops' same
    exact ⟨congrArg (Prod.mk none) values, after⟩
  · exact absurd same (source_append_ne_key free stops key' _)
  · exact absurd same.symm (source_append_ne_key free' stops' key _)
  · obtain ⟨rfl, rest⟩ := quote_append_inj same
    obtain ⟨values, after⟩ := readable r s stops stops' (List.append_cancel_left rest)
    exact ⟨congrArg (Prod.mk (some key)) values, after⟩

/-- Scalars can be read off. -/
private theorem source_append_inj_of_scalar {a b : Literal} (scalar : a.cells = none) (free : a.isFloatFree = true)
    (free' : b.isFloatFree = true) {r s : List Char} (stops : Stops r) (stops' : Stops s)
    (same : a.source.toList ++ r = b.source.toList ++ s) : a = b ∧ r = s := by
  have kind := lead_eq free free' same
  cases a with
  | null =>
    cases b with
    | null => exact ⟨rfl, List.append_cancel_left same⟩
    | bool value => cases value <;> exact absurd kind (by simp [lead])
    | int | float | str | list | map => exact absurd kind (by simp [lead])
  | bool value =>
    cases b with
    | bool other =>
      obtain rfl : value = other := by cases value <;> cases other <;> simp [lead] at kind ⊢
      exact ⟨rfl, List.append_cancel_left same⟩
    | null | int | float | str | list | map => cases value <;> exact absurd kind (by simp [lead])
  | int value =>
    cases b with
    | int other =>
      obtain ⟨numbers, after⟩ := numeral_append_inj stops stops' same
      exact ⟨congrArg Literal.int (Int64.toInt_inj.mp numbers), after⟩
    | bool value => cases value <;> exact absurd kind (by simp [lead])
    | float => cases free'
    | null | str | list | map => exact absurd kind (by simp [lead])
  | float => cases free
  | str text =>
    cases b with
    | str other =>
      obtain ⟨rfl, after⟩ := quote_append_inj same
      exact ⟨rfl, after⟩
    | bool value => cases value <;> exact absurd kind (by simp [lead])
    | null | int | float | list | map => exact absurd kind (by simp [lead])
  | list | map => cases scalar

/-- The source of a literal without doubles determines the literal, up to empty lists and maps, and where it ends. -/
theorem source_append_inj (a : Literal) {b : Literal} (free : a.isFloatFree = true) (free' : b.isFloatFree = true)
    {r s : List Char} (stops : Stops r) (stops' : Stops s) (same : a.source.toList ++ r = b.source.toList ++ s) :
    a.settled = b.settled ∧ r = s := by
  -- the text behind has to be read too: inside of brackets it holds the cells that come next
  induction a using induction_cells generalizing b r s with
  | scalar a scalar =>
    obtain ⟨rfl, after⟩ := source_append_inj_of_scalar scalar free free' stops stops' same
    exact ⟨rfl, after⟩
  | bracketed a cells between readable =>
    have kind : b.lead = '[' := (lead_eq free free' same).symm.trans (lead_of_cells between)
    obtain ⟨others, between'⟩ := exists_cells_of_lead kind
    have floatless := isFloatFree_of_mem_cells free between
    have floatless' := isFloatFree_of_mem_cells free' between'
    simp only [source_of_cells between, source_of_cells between', String.toList_append, List.append_assoc] at same
    obtain ⟨settled, after⟩ : cells.map Cell.settled = others.map Cell.settled ∧ r = s := by
      refine map_eq_of_commaSeparated (fun cell member other member' r s stops stops' => ?_) (fun cell member => ?_)
        (List.append_cancel_left same)
      · exact Cell.source_append_inj (floatless cell member) (floatless' other member')
          (fun r s => readable cell member (floatless cell member) (floatless' other member')) stops stops'
      · exact Cell.source_append_ne_bracket ((List.mem_append.mp member).elim (floatless cell) (floatless' cell))
    exact ⟨by rw [settled_of_cells between, settled_of_cells between', settled], after⟩

/-- Exchanging empty maps for empty lists does not show in source. -/
theorem source_settled (a : Literal) : a.settled.source = a.source := by
  induction a using induction_cells with
  | scalar a scalar =>
    cases a with
    | null | bool | int | float | str => rfl
    | list | map => cases scalar
  | bracketed a cells between same =>
    have texts : (cells.map Cell.settled).map Cell.source = cells.map Cell.source := by
      rw [List.map_map]
      refine List.map_congr_left fun cell member => ?_
      obtain ⟨key | key, value⟩ := cell
      · exact same _ member
      · exact congrArg (quote key ++ " => " ++ ·) (same _ member)
    rw [source_of_cells (cells_settled between), source_of_cells between, texts]

/-- Printed literals are uniquely readable: without doubles, literals have the same source exactly if they are the same
up to exchanging empty lists with empty maps at any depth. -/
theorem source_uniquely_readable (a b : Literal) (free : a.isFloatFree = true) (free' : b.isFloatFree = true) :
    a.source = b.source ↔ a.settled = b.settled := by
  constructor
  · intro same
    have texts : a.source.toList ++ [] = b.source.toList ++ [] := by rw [same]
    exact (source_append_inj a free free' stops_nil stops_nil texts).1
  · intro same
    rw [← source_settled a, same, source_settled b]

/-- A text that looks like an entry, and an empty list or map. -/
def deceptive (inner : Literal) : Literal :=
  .map [("key", .list [.str "a' => [", .int (-3), inner])]

theorem source_uniquely_readable_deceptive :
    (deceptive (.list [])).source = (deceptive (.map [])).source ∧
      (deceptive (.list [])).source ≠ (deceptive (.list [.list []])).source ∧
      (Literal.list [.str "a' => 'b"]).source ≠ (Literal.map [("a", .str "b")]).source := by
  refine ⟨(source_uniquely_readable _ _ rfl rfl).mpr rfl, fun same => ?_, fun same => ?_⟩
  · have equal := (source_uniquely_readable _ _ rfl rfl).mp same
    simp [deceptive, settled, itemsSettled, entriesSettled] at equal
  · have equal := (source_uniquely_readable _ _ rfl rfl).mp same
    simp [settled] at equal

end Literal

end ClassForge
