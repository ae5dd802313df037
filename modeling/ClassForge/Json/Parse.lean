import ClassForge.Double.Decimal
import ClassForge.Json.Value

/-! # Reading JSON text

The grammar is strict: no trailing commas, no leading zeros, no raw control characters in strings.
A whole number that fits 64 signed bits is an `int`, except `-0`; every other number is the nearest
double. Reading is assumed to be exact in this: a reader that scales the digits by a rounded power of
ten may miss the nearest double where there are many digits. Reading goes as far as the text allows
and puts a fault where it stops.
-/

namespace ClassForge

namespace Json

/-- The characters that may stand between tokens. -/
def isBlank (c : Char) : Bool :=
  c == ' ' || c == '\t' || c == '\n' || c == '\x0d'

def skipBlanks (chars : List Char) : List Char :=
  chars.dropWhile isBlank

/-! ## Strings -/

/-- What a string is written with: characters, and 16-bit codes given by escapes. -/
inductive TextUnit where
  | char (c : Char)
  | code (n : Nat)

/-- The value of a hexadecimal digit of either case. -/
def hexValue? (c : Char) : Option Nat :=
  if c.isDigit then some (c.toNat - '0'.toNat)
  else if 'a' ≤ c ∧ c ≤ 'f' then some (c.toNat - 'a'.toNat + 10)
  else if 'A' ≤ c ∧ c ≤ 'F' then some (c.toNat - 'A'.toNat + 10)
  else none

/-- The code given by four hexadecimal digits. -/
def hexCode? (a b c d : Char) : Option Nat := do
  let a ← hexValue? a
  let b ← hexValue? b
  let c ← hexValue? c
  let d ← hexValue? d
  return ((a * 16 + b) * 16 + c) * 16 + d

/-- The character that a short escape stands for. -/
def shortEscape? (c : Char) : Option Char :=
  if c = '"' ∨ c = '\\' ∨ c = '/' then some c
  else if c = 'b' then some '\x08'
  else if c = 'f' then some '\x0c'
  else if c = 'n' then some '\n'
  else if c = 'r' then some '\x0d'
  else if c = 't' then some '\t'
  else none

/-- The units up to the closing quote, and what follows it. -/
def scanString : List Char → Option (List TextUnit × List Char)
  | [] => none
  | '"' :: rest => some ([], rest)
  | '\\' :: 'u' :: a :: b :: c :: d :: rest => do
    let code ← hexCode? a b c d
    let (units, rest) ← scanString rest
    return (.code code :: units, rest)
  | '\\' :: c :: rest => do
    let c ← shortEscape? c
    let (units, rest) ← scanString rest
    return (.char c :: units, rest)
  | c :: rest =>
    if c = '\\' ∨ c.toNat < 0x20 then none
    else do
      let (units, rest) ← scanString rest
      return (.char c :: units, rest)

def isHighSurrogate (n : Nat) : Bool :=
  decide (0xd800 ≤ n ∧ n < 0xdc00)

def isLowSurrogate (n : Nat) : Bool :=
  decide (0xdc00 ≤ n ∧ n < 0xe000)

/-- Joins surrogate pairs; `none` if a half stands alone. -/
def joinUnits : List TextUnit → Option (List Char)
  | [] => some []
  | .char c :: rest => do return c :: (← joinUnits rest)
  | .code high :: .code low :: rest =>
    if isHighSurrogate high then
      if isLowSurrogate low then do
        return Char.ofNat (0x10000 + (high - 0xd800) * 0x400 + (low - 0xdc00)) :: (← joinUnits rest)
      else none
    else if isLowSurrogate high then none
    else do return Char.ofNat high :: (← joinUnits (.code low :: rest))
  | .code n :: rest =>
    if isHighSurrogate n || isLowSurrogate n then none
    else do return Char.ofNat n :: (← joinUnits rest)

/-- The text of a string, if it has one, and what follows. -/
def scanText (chars : List Char) : Option (Option String × List Char) := do
  let (units, rest) ← scanString chars
  return ((joinUnits units).map String.ofList, rest)

/-! ## Numbers -/

/-- The number that a row of digits stands for. -/
def digitsValue (digits : List Char) : Nat :=
  digits.foldl (fun n c => n * 10 + (c.toNat - '0'.toNat)) 0

/-- The leading digits, at least one, and what follows. -/
def scanDigits (chars : List Char) : Option (List Char × List Char) :=
  match chars.span Char.isDigit with
  | ([], _) => none
  | (digits, rest) => some (digits, rest)

/-- The digits after a point, if there is one. -/
def scanFraction : List Char → Option (List Char × List Char)
  | '.' :: rest => scanDigits rest
  | rest => some ([], rest)

/-- The exponent, if there is one. -/
def scanExponent : List Char → Option (Option Int × List Char)
  | [] => some (none, [])
  | c :: rest =>
    if c = 'e' ∨ c = 'E' then do
      let (negative, rest) := match rest with
        | '+' :: rest => (false, rest)
        | '-' :: rest => (true, rest)
        | rest => (false, rest)
      let (digits, rest) ← scanDigits rest
      let size : Int := digitsValue digits
      return (some (if negative then -size else size), rest)
    else some (none, c :: rest)

/-- The nearest double, or the fault that there is none. -/
def ofDecimal (negative : Bool) (d : Decimal) : Json :=
  match d.toDouble? negative with
  | some value => .float value
  | none => .fault .tooLarge

/-- How many whole numbers from zero on are an `int`. -/
def intRange : Nat := 0x8000000000000000

/-- A whole number: an `int` if it fits and is no negative zero. -/
def ofWhole (negative : Bool) (n : Nat) : Json :=
  if negative then
    if 0 < n ∧ n ≤ intRange then .int (Int64.ofInt (-n)) else ofDecimal true ⟨n, 0⟩
  else if n < intRange then .int (Int64.ofInt n)
  else ofDecimal false ⟨n, 0⟩

/-- A number from its first digit on. -/
def scanNumber (negative : Bool) (chars : List Char) : Option (Json × List Char) := do
  let (whole, rest) ← scanDigits chars
  if whole.head? = some '0' ∧ 1 < whole.length then none
  else
    let (fraction, rest) ← scanFraction rest
    let (exponent, rest) ← scanExponent rest
    if fraction.isEmpty ∧ exponent.isNone then
      return (ofWhole negative (digitsValue whole), rest)
    else
      let digits := digitsValue (whole ++ fraction)
      return (ofDecimal negative ⟨digits, exponent.getD 0 - fraction.length⟩, rest)

/-! ## Values -/

/-- A value that reading cannot get past. -/
def broken : Json × List Char := (.fault .malformed, [])

mutual

/-- The value at the front, blanks skipped, and what follows it. -/
def scanValue : (fuel : Nat) → List Char → Json × List Char
  | 0, _ => broken
  | fuel + 1, chars =>
    match skipBlanks chars with
    | 'n' :: 'u' :: 'l' :: 'l' :: rest => (.null, rest)
    | 't' :: 'r' :: 'u' :: 'e' :: rest => (.bool true, rest)
    | 'f' :: 'a' :: 'l' :: 's' :: 'e' :: rest => (.bool false, rest)
    | '"' :: rest =>
      match scanText rest with
      | some (some text, rest) => (.str text, rest)
      | some (none, rest) => (.fault .unpaired, rest)
      | none => broken
    | '[' :: rest =>
      match skipBlanks rest with
      | ']' :: rest => (.arr [], rest)
      | rest =>
        let (items, rest) := scanItems fuel rest
        (.arr items, rest)
    | '{' :: rest =>
      match skipBlanks rest with
      | '}' :: rest => (.obj [], rest)
      | rest =>
        let (members, rest) := scanMembers fuel rest
        (.obj members, rest)
    | '-' :: rest => (scanNumber true rest).getD broken
    | rest => (scanNumber false rest).getD broken

/-- The items of an array from the first one on, and what follows the closing bracket. -/
def scanItems : (fuel : Nat) → List Char → List Json × List Char
  | 0, _ => ([.fault .malformed], [])
  | fuel + 1, chars =>
    let (item, rest) := scanValue fuel chars
    match skipBlanks rest with
    | ']' :: rest => ([item], rest)
    | ',' :: rest =>
      let (items, rest) := scanItems fuel rest
      (item :: items, rest)
    | _ => ([item, .fault .malformed], [])

/-- The members of an object from the first one on, and what follows the closing brace. -/
def scanMembers : (fuel : Nat) → List Char → List (Option String × Json) × List Char
  | 0, _ => ([(none, .fault .malformed)], [])
  | fuel + 1, chars =>
    match skipBlanks chars with
    | '"' :: rest =>
      match scanText rest with
      | some (key, rest) =>
        match skipBlanks rest with
        | ':' :: rest =>
          let (value, rest) := scanValue fuel rest
          match skipBlanks rest with
          | '}' :: rest => ([(key, value)], rest)
          | ',' :: rest =>
            let (members, rest) := scanMembers fuel rest
            ((key, value) :: members, rest)
          | _ => ([(key, value), (none, .fault .malformed)], [])
        | _ => ([(none, .fault .malformed)], [])
      | none => ([(none, .fault .malformed)], [])
    | _ => ([(none, .fault .malformed)], [])

end

/-- The value at the front of a text, and what follows it. Every step takes a character or opens a
value, so twice the length is enough. -/
def scan (chars : List Char) : Json × List Char :=
  scanValue (2 * chars.length + 2) chars

end Json

end ClassForge
