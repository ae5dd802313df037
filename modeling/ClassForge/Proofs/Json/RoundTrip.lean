import ClassForge.Json.Read
import ClassForge.Proofs.Json.Numbers

/-! # JSON text is read back

The text of a value without faults is read as that value, and reading stops right behind it. Strings are read
character by character, as they were escaped; values by the recursion that wrote them. The fuel of the reader is
enough for every text, so it never shows.
-/

namespace ClassForge

namespace Json

/-! ## Strings -/

/-- The characters that have a short escape besides the quote and the backslash. -/
def shortControls : List Char :=
  ['\x08', '\x0c', '\n', '\x0d', '\t']

/-- How a character is given in a string: control characters without a short escape by their code. -/
def unitOf (c : Char) : TextUnit :=
  if c.toNat < 0x20 ∧ c ∉ shortControls then .code c.toNat else .char c

/-- A character that stands for itself. -/
private theorem scanString_plain {c : Char} (quote : c ≠ '"') (slash : c ≠ '\\') (above : ¬c.toNat < 0x20)
    (tail : List Char) :
    scanString (c :: tail) = (scanString tail).map fun (units, rest) => (.char c :: units, rest) := by
  have plain : ¬(c = '\\' ∨ c.toNat < 0x20) := not_or.mpr ⟨slash, above⟩
  rw [scanString, if_neg plain]
  · cases scanString tail <;> rfl
  · exact quote
  · exact fun _ _ _ _ _ same _ => slash same
  · exact fun _ _ same _ => slash same

private theorem scanString_short {c d : Char} (other : c ≠ 'u') (stands : shortEscape? c = some d) (tail : List Char) :
    scanString ('\\' :: c :: tail) = (scanString tail).map fun (units, rest) => (.char d :: units, rest) := by
  rw [scanString, stands]
  · cases scanString tail <;> rfl
  · exact fun _ _ _ _ _ same _ => other same

private theorem scanString_code {a b c d : Char} {n : Nat} (stands : hexCode? a b c d = some n) (tail : List Char) :
    scanString ('\\' :: 'u' :: a :: b :: c :: d :: tail) =
      (scanString tail).map fun (units, rest) => (.code n :: units, rest) := by
  rw [scanString, stands]
  cases scanString tail <;> rfl

/-- The escape of a control character tells its code. -/
private theorem hexCode?_control {n : Nat} (small : n < 0x20) :
    hexCode? '0' '0' (Nat.digitChar (n / 16)) (Nat.digitChar (n % 16)) = some n := by
  have table : ∀ n : Fin 0x20,
      hexCode? '0' '0' (Nat.digitChar (n.val / 16)) (Nat.digitChar (n.val % 16)) = some n.val := by decide
  exact table ⟨n, small⟩

theorem scanString_escape (c : Char) (tail : List Char) :
    scanString (escape c ++ tail) = (scanString tail).map fun (units, rest) => (unitOf c :: units, rest) := by
  by_cases quote : c = '"'
  · subst quote
    exact scanString_short (by decide) rfl tail
  by_cases slash : c = '\\'
  · subst slash
    exact scanString_short (by decide) rfl tail
  by_cases short : c ∈ shortControls
  · simp only [shortControls, List.mem_cons, List.not_mem_nil, or_false] at short
    rcases short with rfl | rfl | rfl | rfl | rfl <;> exact scanString_short (by decide) rfl tail
  have others := short
  simp only [shortControls, List.mem_cons, List.not_mem_nil, or_false, not_or] at others
  obtain ⟨backspace, feed, line, carriage, tab⟩ := others
  rw [escape, if_neg quote, if_neg slash, if_neg backspace, if_neg feed, if_neg line, if_neg carriage, if_neg tab]
  by_cases control : c.toNat < 0x20
  · rw [if_pos control, unitOf, if_pos ⟨control, short⟩]
    exact scanString_code (hexCode?_control control) tail
  · rw [if_neg control, unitOf, if_neg fun low => control low.1]
    exact scanString_plain quote slash control tail

theorem scanString_flatMap (chars rest : List Char) :
    scanString (chars.flatMap escape ++ '"' :: rest) = some (chars.map unitOf, rest) := by
  induction chars with
  | nil => rfl
  | cons c chars ih => rw [List.flatMap_cons, List.append_assoc, scanString_escape, ih, Option.map_some, List.map_cons]

private theorem joinUnits_cons (c : Char) (units : List TextUnit) :
    joinUnits (unitOf c :: units) = (joinUnits units).map (c :: ·) := by
  rw [unitOf]
  split
  · rename_i control
    have high : isHighSurrogate c.toNat = false := decide_eq_false (by omega)
    have low : isLowSurrogate c.toNat = false := decide_eq_false (by omega)
    rcases units with _ | ⟨other | other, units⟩ <;> simp [joinUnits, high, low, Option.map_eq_bind]
  · rw [joinUnits]
    cases joinUnits units <;> rfl

theorem joinUnits_map (chars : List Char) : joinUnits (chars.map unitOf) = some chars := by
  induction chars with
  | nil => rfl
  | cons c chars ih => rw [List.map_cons, joinUnits_cons, ih, Option.map_some]

/-- A text in quotes is read back, and reading stops behind the closing quote. -/
theorem scanText_quote (text : String) (rest : List Char) :
    ∃ body, (quote text).toList = '"' :: body ∧ scanText (body ++ rest) = some (some text, rest) := by
  refine ⟨text.toList.flatMap escape ++ ['"'], String.toList_ofList, ?_⟩
  rw [scanText, List.append_assoc, List.singleton_append, scanString_flatMap]
  simp only [Option.bind_eq_bind, Option.bind_some, joinUnits_map, Option.map_some, String.ofList_toList]
  rfl

/-! ## Numbers among other values -/

theorem endsNumber_nil : EndsNumber [] :=
  ⟨nofun, nofun, nofun, nofun⟩

/-- A comma or a closing bracket ends a number. -/
theorem endsNumber_cons {c : Char} (mark : c ∈ [',', ']', '\x7d']) (rest : List Char) : EndsNumber (c :: rest) := by
  obtain ⟨digit, point, lower, upper⟩ : c.isDigit = false ∧ c ≠ '.' ∧ c ≠ 'e' ∧ c ≠ 'E' := by
    simp only [List.mem_cons, List.not_mem_nil, or_false] at mark
    rcases mark with rfl | rfl | rfl <;> decide
  refine ⟨?_, fun same => point ?_, fun same => lower ?_, fun same => upper ?_⟩
  · rintro _ ⟨⟩
    exact digit
  all_goals exact Option.some.inj same

theorem isBlank_of_isDigit {c : Char} (digit : c.isDigit = true) : isBlank c = false := by
  by_contra blank
  simp only [isBlank, Bool.not_eq_false, Bool.or_eq_true, beq_iff_eq] at blank
  rcases blank with ((rfl | rfl) | rfl) | rfl <;> cases digit

theorem skipBlanks_cons {c : Char} (solid : isBlank c = false) (tail : List Char) :
    skipBlanks (c :: tail) = c :: tail :=
  List.dropWhile_cons_of_neg (by simp [solid])

private theorem scanValue_digit {c : Char} (digit : c.isDigit = true) (fuel : Nat) (tail : List Char) :
    scanValue (fuel + 1) (c :: tail) = (scanNumber false (c :: tail)).getD broken := by
  rw [scanValue, skipBlanks_cons (isBlank_of_isDigit digit)]
  split <;> first | rfl | (rename_i same; cases same; cases digit)

/-- A number starts with a digit. -/
theorem exists_digit_of_scanNumber {negative : Bool} {chars : List Char} {result : Json × List Char}
    (scanned : scanNumber negative chars = some result) : ∃ c tail, chars = c :: tail ∧ c.isDigit = true := by
  cases chars with
  | nil => cases scanned
  | cons c tail =>
    refine ⟨c, tail, rfl, ?_⟩
    by_contra other
    have stuck : scanDigits (c :: tail) = none := by
      rw [scanDigits, List.span_eq_takeWhile_dropWhile, List.takeWhile_cons_of_neg other]
    rw [scanNumber, stuck] at scanned
    cases scanned

theorem scanValue_number {negative : Bool} {body rest : List Char} {value : Json}
    (scanned : scanNumber negative (body ++ rest) = some (value, rest)) (fuel : Nat) :
    scanValue (fuel + 1) ((if negative then ['-'] else []) ++ body ++ rest) = (value, rest) := by
  cases negative with
  | true =>
    change (scanNumber true (body ++ rest)).getD broken = _
    rw [scanned, Option.getD_some]
  | false =>
    obtain ⟨c, tail, chars, digit⟩ := exists_digit_of_scanNumber scanned
    rw [chars] at scanned
    change scanValue (fuel + 1) (body ++ rest) = _
    rw [chars, scanValue_digit digit, scanned, Option.getD_some]

/-! ## Values -/

mutual

/-- Whether a value has a text that stands for it: no fault, no unknown key, and only finite numbers. -/
def isReadable : Json → Bool
  | .float value => value.isFinite
  | .arr items => itemsReadable items
  | .obj members => membersReadable members
  | .fault _ => false
  | _ => true

def itemsReadable : List Json → Bool
  | [] => true
  | item :: rest => item.isReadable && itemsReadable rest

def membersReadable : List (Option String × Json) → Bool
  | [] => true
  | (key, value) :: rest => key.isSome && value.isReadable && membersReadable rest

end

private theorem toList_renderItems_cons (item : Json) {rest : List Json} (more : rest ≠ []) :
    (renderItems (item :: rest)).toList = item.render.toList ++ ',' :: (renderItems rest).toList := by
  obtain ⟨next, others, rfl⟩ := List.exists_cons_of_ne_nil more
  rw [renderItems, String.toList_append, String.toList_append, List.append_assoc]
  · rfl
  · exact more

private theorem toList_renderMembers_singleton (key : String) (value : Json) :
    (renderMembers [(some key, value)]).toList = (quote key).toList ++ ':' :: value.render.toList := by
  simp [renderMembers]

private theorem toList_renderMembers_cons (key : String) (value : Json) {rest : List (Option String × Json)}
    (more : rest ≠ []) :
    (renderMembers ((some key, value) :: rest)).toList =
      (quote key).toList ++ ':' :: (value.render.toList ++ ',' :: (renderMembers rest).toList) := by
  obtain ⟨next, others, rfl⟩ := List.exists_cons_of_ne_nil more
  rw [renderMembers]
  · simp
  · exact more

private theorem toList_render_int (value : Int64) :
    (render (.int value)).toList =
      (if decide (value.toInt < 0) then ['-'] else []) ++ Nat.toDigits 10 value.toInt.natAbs := by
  rw [render, toList_toString_int]
  by_cases negative : value.toInt < 0
  · have size : (-value.toInt).toNat = value.toInt.natAbs := by omega
    rw [if_neg (by omega), size, decide_eq_true negative]
    rfl
  · have size : value.toInt.toNat = value.toInt.natAbs := by omega
    rw [if_pos (by omega), size, decide_eq_false negative]
    rfl

private theorem scanNumber_int (value : Int64) {rest : List Char} (stop : EndsNumber rest) :
    scanNumber (decide (value.toInt < 0)) (Nat.toDigits 10 value.toInt.natAbs ++ rest) = some (.int value, rest) := by
  rw [scanNumber_toDigits _ stop, ofWhole_toInt]

private theorem toList_render_float {value : Double} (finite : value.isFinite = true) :
    (render (.float value)).toList = (if value.isNegative then ['-'] else []) ++ doubleBody value := by
  rw [render, if_pos finite, toList_text_numberLayout]

/-- The text of a number starts with a sign or a digit. -/
private theorem exists_number_start {negative : Bool} {body : List Char} {result : Json × List Char}
    (scanned : scanNumber negative (body ++ []) = some result) :
    ∃ c tail, (if negative then ['-'] else []) ++ body = c :: tail ∧ isBlank c = false ∧ c ≠ ']' := by
  cases negative with
  | true => exact ⟨'-', body, rfl, rfl, by decide⟩
  | false =>
    obtain ⟨c, tail, chars, digit⟩ := exists_digit_of_scanNumber scanned
    refine ⟨c, tail, (List.append_nil body).symm.trans chars, isBlank_of_isDigit digit, ?_⟩
    rintro rfl
    cases digit

/-- The text of a value starts with a character that opens it. -/
private theorem exists_start {json : Json} (readable : json.isReadable = true) :
    ∃ c tail, json.render.toList = c :: tail ∧ isBlank c = false ∧ c ≠ ']' := by
  cases json with
  | null => exact ⟨'n', _, rfl, rfl, by decide⟩
  | bool value =>
    cases value with
    | true => exact ⟨'t', _, rfl, rfl, by decide⟩
    | false => exact ⟨'f', _, rfl, rfl, by decide⟩
  | int value =>
    rw [toList_render_int]
    exact exists_number_start (scanNumber_int value endsNumber_nil)
  | float value =>
    rw [toList_render_float readable]
    exact exists_number_start (scanNumber_doubleBody readable endsNumber_nil)
  | str value =>
    rw [render, quote, String.toList_ofList]
    exact ⟨'"', _, rfl, rfl, by decide⟩
  | arr items =>
    rw [render, String.toList_append, String.toList_append]
    exact ⟨'[', _, rfl, rfl, by decide⟩
  | obj members =>
    rw [render, String.toList_append, String.toList_append]
    exact ⟨'\x7b', _, rfl, rfl, by decide⟩
  | fault cause => cases readable

private theorem exists_items_start {items : List Json} (filled : items ≠ []) (readable : itemsReadable items = true) :
    ∃ c tail, (renderItems items).toList = c :: tail ∧ isBlank c = false ∧ c ≠ ']' := by
  obtain ⟨item, rest, rfl⟩ := List.exists_cons_of_ne_nil filled
  rw [itemsReadable, Bool.and_eq_true] at readable
  obtain ⟨c, tail, text, solid, other⟩ := exists_start readable.1
  cases rest with
  | nil => exact ⟨c, tail, text, solid, other⟩
  | cons next others =>
    rw [toList_renderItems_cons item (List.cons_ne_nil next others), text]
    exact ⟨c, _, rfl, solid, other⟩

private theorem exists_members_start {members : List (Option String × Json)} (filled : members ≠ []) :
    ∃ tail, (renderMembers members).toList = '"' :: tail := by
  obtain ⟨⟨key, value⟩, rest, rfl⟩ := List.exists_cons_of_ne_nil filled
  cases rest with
  | nil =>
    rw [renderMembers, quote]
    simp
  | cons =>
    rw [renderMembers, quote]
    · simp
    · exact List.cons_ne_nil _ _

/-- An object that does not close at once. -/
private theorem scanValue_members (fuel : Nat) (tail : List Char) :
    scanValue (fuel + 1) ('\x7b' :: '"' :: tail) =
      (.obj (scanMembers fuel ('"' :: tail)).1, (scanMembers fuel ('"' :: tail)).2) :=
  rfl

/-- An array that does not close at once. -/
private theorem scanValue_items {c : Char} (solid : isBlank c = false) (other : c ≠ ']') (fuel : Nat)
    (tail : List Char) : scanValue (fuel + 1) ('[' :: c :: tail) =
      (.arr (scanItems fuel (c :: tail)).1, (scanItems fuel (c :: tail)).2) := by
  rw [scanValue.eq_def]
  simp only [skipBlanks_cons (c := '[') (by decide), skipBlanks_cons solid]
  split
  · rename_i same
    exact absurd (List.cons.inj same).1 other
  · rfl

private theorem scanValue_quote (text : String) (fuel : Nat) (rest : List Char) :
    scanValue (fuel + 1) ((quote text).toList ++ rest) = (.str text, rest) := by
  obtain ⟨body, chars, scanned⟩ := scanText_quote text rest
  rw [chars, List.cons_append, scanValue.eq_def]
  simp only [skipBlanks_cons (c := '"') (by decide), scanned]

section Steps

variable {fuel : Nat} {chars rest after : List Char} {item value : Json} {items : List Json} {key : String}
  {members : List (Option String × Json)}

private theorem scanItems_last (scanned : scanValue fuel chars = (item, ']' :: rest)) :
    scanItems (fuel + 1) chars = ([item], rest) := by
  rw [scanItems, scanned]
  rfl

private theorem scanItems_more (scanned : scanValue fuel chars = (item, ',' :: rest))
    (more : scanItems fuel rest = (items, after)) : scanItems (fuel + 1) chars = (item :: items, after) := by
  have step : scanItems (fuel + 1) chars = (item :: (scanItems fuel rest).1, (scanItems fuel rest).2) := by
    rw [scanItems, scanned]
    rfl
  rw [step, more]

private theorem scanMembers_key (key : String) (fuel : Nat) (chars : List Char) :
    scanMembers (fuel + 1) ((quote key).toList ++ ':' :: chars) =
      match skipBlanks (scanValue fuel chars).2 with
      | '\x7d' :: rest => ([(some key, (scanValue fuel chars).1)], rest)
      | ',' :: rest => ((some key, (scanValue fuel chars).1) :: (scanMembers fuel rest).1, (scanMembers fuel rest).2)
      | _ => ([(some key, (scanValue fuel chars).1), (none, .fault .malformed)], []) := by
  obtain ⟨body, quoted, scanned⟩ := scanText_quote key (':' :: chars)
  rw [quoted, List.cons_append, scanMembers, skipBlanks_cons rfl]
  simp only [scanned]
  rw [skipBlanks_cons rfl]
  rfl

private theorem scanMembers_last (scanned : scanValue fuel chars = (value, '\x7d' :: rest)) :
    scanMembers (fuel + 1) ((quote key).toList ++ ':' :: chars) = ([(some key, value)], rest) := by
  rw [scanMembers_key, scanned]
  rfl

private theorem scanMembers_more (scanned : scanValue fuel chars = (value, ',' :: rest))
    (more : scanMembers fuel rest = (members, after)) :
    scanMembers (fuel + 1) ((quote key).toList ++ ':' :: chars) = ((some key, value) :: members, after) := by
  have step : scanMembers (fuel + 1) ((quote key).toList ++ ':' :: chars) =
      ((some key, value) :: (scanMembers fuel rest).1, (scanMembers fuel rest).2) := by
    rw [scanMembers_key, scanned]
    rfl
  rw [step, more]

end Steps

/-- A text that is not empty leaves fuel for a step. -/
private theorem exists_fuel {json : Json} (readable : json.isReadable = true) {fuel : Nat}
    (enough : 2 * json.render.toList.length ≤ fuel) : ∃ spare, fuel = spare + 1 := by
  obtain ⟨c, tail, text, -⟩ := exists_start readable
  rw [text, List.length_cons] at enough
  exact Nat.exists_eq_add_one_of_ne_zero (by omega)

mutual

/-- The text of a value is read as that value, whatever follows that does not go on with a number. -/
theorem scanValue_render : (json : Json) → json.isReadable = true → ∀ {fuel : Nat} {rest : List Char},
    2 * json.render.toList.length ≤ fuel → EndsNumber rest →
    scanValue fuel (json.render.toList ++ rest) = (json, rest)
  | .null => by
    intro readable _ _ enough _
    obtain ⟨fuel, rfl⟩ := exists_fuel readable enough
    rfl
  | .bool value => by
    intro readable _ _ enough _
    obtain ⟨fuel, rfl⟩ := exists_fuel readable enough
    cases value <;> rfl
  | .int value => by
    intro readable _ _ enough stop
    obtain ⟨fuel, rfl⟩ := exists_fuel readable enough
    rw [toList_render_int]
    exact scanValue_number (scanNumber_int value stop) fuel
  | .float value => by
    intro finite _ _ enough stop
    obtain ⟨fuel, rfl⟩ := exists_fuel finite enough
    rw [toList_render_float finite]
    exact scanValue_number (scanNumber_doubleBody finite stop) fuel
  | .str value => by
    intro readable _ rest enough _
    obtain ⟨fuel, rfl⟩ := exists_fuel readable enough
    exact scanValue_quote value fuel rest
  | .arr items => by
    intro readable _ rest enough _
    obtain ⟨fuel, rfl⟩ := exists_fuel readable enough
    have text : (render (.arr items)).toList ++ rest = '[' :: ((renderItems items).toList ++ ']' :: rest) := by
      rw [render, String.toList_append, String.toList_append]
      simp
    have length := congrArg List.length text
    simp only [List.length_append, List.length_cons] at length
    rw [text]
    by_cases filled : items = []
    · rw [filled]
      rfl
    · have scanned : scanItems fuel ((renderItems items).toList ++ ']' :: rest) = (items, rest) :=
        scanItems_render items filled readable (by omega)
      obtain ⟨c, tail, start, solid, other⟩ := exists_items_start filled readable
      rw [start, List.cons_append] at scanned ⊢
      rw [scanValue_items solid other, scanned]
  | .obj members => by
    intro readable _ rest enough _
    obtain ⟨fuel, rfl⟩ := exists_fuel readable enough
    have text : (render (.obj members)).toList ++ rest =
        '\x7b' :: ((renderMembers members).toList ++ '\x7d' :: rest) := by
      rw [render, String.toList_append, String.toList_append]
      simp
    have length := congrArg List.length text
    simp only [List.length_append, List.length_cons] at length
    rw [text]
    by_cases filled : members = []
    · rw [filled]
      rfl
    · have scanned : scanMembers fuel ((renderMembers members).toList ++ '\x7d' :: rest) = (members, rest) :=
        scanMembers_render members filled readable (by omega)
      obtain ⟨tail, start⟩ := exists_members_start filled
      rw [start, List.cons_append] at scanned ⊢
      rw [scanValue_members, scanned]
  | .fault _ => nofun

theorem scanItems_render : (items : List Json) → items ≠ [] → itemsReadable items = true →
    ∀ {fuel : Nat} {rest : List Char}, 2 * (renderItems items).toList.length < fuel →
    scanItems fuel ((renderItems items).toList ++ ']' :: rest) = (items, rest)
  | [] => fun filled => absurd rfl filled
  | [item] => by
    intro _ readable fuel rest enough
    rw [itemsReadable, itemsReadable, Bool.and_true] at readable
    obtain ⟨fuel, rfl⟩ := Nat.exists_eq_add_one_of_ne_zero (Nat.ne_zero_of_lt enough)
    rw [renderItems] at enough ⊢
    exact scanItems_last (scanValue_render item readable (by omega) (endsNumber_cons (by decide) rest))
  | item :: next :: items => by
    intro _ readable fuel rest enough
    rw [itemsReadable, Bool.and_eq_true] at readable
    obtain ⟨fuel, rfl⟩ := Nat.exists_eq_add_one_of_ne_zero (Nat.ne_zero_of_lt enough)
    rw [toList_renderItems_cons item (List.cons_ne_nil next items)] at enough ⊢
    rw [List.length_append, List.length_cons] at enough
    rw [List.append_assoc, List.cons_append]
    exact scanItems_more (scanValue_render item readable.1 (by omega) (endsNumber_cons (by decide) _))
      (scanItems_render (next :: items) (List.cons_ne_nil next items) readable.2 (by omega))

theorem scanMembers_render : (members : List (Option String × Json)) → members ≠ [] → membersReadable members = true →
    ∀ {fuel : Nat} {rest : List Char}, 2 * (renderMembers members).toList.length < fuel →
    scanMembers fuel ((renderMembers members).toList ++ '\x7d' :: rest) = (members, rest)
  | [] => fun filled => absurd rfl filled
  | [(key, value)] => by
    intro _ readable fuel rest enough
    rw [membersReadable, membersReadable, Bool.and_true, Bool.and_eq_true] at readable
    obtain ⟨key, rfl⟩ := Option.isSome_iff_exists.mp readable.1
    obtain ⟨fuel, rfl⟩ := Nat.exists_eq_add_one_of_ne_zero (Nat.ne_zero_of_lt enough)
    rw [toList_renderMembers_singleton] at enough ⊢
    rw [List.length_append, List.length_cons] at enough
    rw [List.append_assoc, List.cons_append]
    exact scanMembers_last (scanValue_render value readable.2 (by omega) (endsNumber_cons (by decide) rest))
  | (key, value) :: next :: members => by
    intro _ readable fuel rest enough
    rw [membersReadable, Bool.and_eq_true, Bool.and_eq_true] at readable
    obtain ⟨key, rfl⟩ := Option.isSome_iff_exists.mp readable.1.1
    obtain ⟨fuel, rfl⟩ := Nat.exists_eq_add_one_of_ne_zero (Nat.ne_zero_of_lt enough)
    rw [toList_renderMembers_cons key value (List.cons_ne_nil next members)] at enough ⊢
    rw [List.length_append, List.length_cons, List.length_append, List.length_cons] at enough
    rw [List.append_assoc, List.cons_append, List.append_assoc, List.cons_append]
    exact scanMembers_more (scanValue_render value readable.1.2 (by omega) (endsNumber_cons (by decide) _))
      (scanMembers_render (next :: members) (List.cons_ne_nil next members) readable.2 (by omega))

end

/-! ## Whole texts -/

mutual

/-- Values that are not nested too deeply stay as they are. -/
theorem limit_of_depth : (json : Json) → (levels : Nat) → json.depth ≤ levels → json.limit levels = json
  | .null, _, _ | .bool _, _, _ | .int _, _, _ | .float _, _, _ | .str _, _, _ | .fault _, _, _ => by
    rw [limit]
    all_goals nofun
  | .arr items, 0, shallow => by
    rw [depth] at shallow
    omega
  | .arr items, levels + 1, shallow => by
    rw [depth] at shallow
    rw [limit, limitItems_of_depth items levels (by omega)]
  | .obj members, 0, shallow => by
    rw [depth] at shallow
    omega
  | .obj members, levels + 1, shallow => by
    rw [depth] at shallow
    rw [limit, limitMembers_of_depth members levels (by omega)]

theorem limitItems_of_depth : (items : List Json) → (levels : Nat) → depthItems items ≤ levels →
    limitItems levels items = items
  | [], _, _ => rfl
  | item :: rest, levels, shallow => by
    rw [depthItems] at shallow
    rw [limitItems, limit_of_depth item levels (by omega), limitItems_of_depth rest levels (by omega)]

theorem limitMembers_of_depth : (members : List (Option String × Json)) → (levels : Nat) →
    depthMembers members ≤ levels → limitMembers levels members = members
  | [], _, _ => rfl
  | (key, value) :: rest, levels, shallow => by
    rw [depthMembers] at shallow
    rw [limitMembers, limit_of_depth value levels (by omega), limitMembers_of_depth rest levels (by omega)]

end

/-- Reading the text of a value is reading the value. -/
theorem decode_render {α : Type} (read : Json → Except Rejection α) {json : Json} (readable : json.isReadable = true)
    (shallow : json.depth ≤ maxDepth) : decode read json.render = read json := by
  have scanned := scanValue_render json readable (Nat.le_add_right _ 2) endsNumber_nil
  rw [List.append_nil] at scanned
  rw [decode, scan, scanned]
  simp only [limit_of_depth json maxDepth shallow]
  cases read json <;> rfl

end Json

end ClassForge
