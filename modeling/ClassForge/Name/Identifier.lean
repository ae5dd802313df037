/-! # Identifiers

An identifier starts with a letter, an underscore or a character from U+007F on, goes on with such
characters and digits, and takes at least two bytes. A single character beyond U+007F is therefore
long enough, a single letter is not.
-/

namespace ClassForge

namespace Identifier

/-- Characters that may start an identifier. -/
def isStart (c : Char) : Bool :=
  c.isAlpha || c == '_' || 0x7f ≤ c.toNat

/-- Characters that may follow. -/
def isPart (c : Char) : Bool :=
  isStart c || c.isDigit

/-- Whether the text is an identifier. -/
def isValid (text : String) : Bool :=
  match text.toList with
  | [] => false
  | c :: rest => isStart c && rest.all isPart && decide (2 ≤ text.utf8ByteSize)

/-- The rule of `isValid` as a regular expression on bytes. -/
def format : String :=
  "(?-u)^[a-zA-Z_\\x7F-\\xFF][a-zA-Z0-9_\\x7F-\\xFF]+$"

/-- What stands in for a name that is no identifier. -/
def fallback : String := "g"

/-- The lower-case digit of a number below sixteen. -/
def hexDigit (n : Nat) : Char :=
  Nat.digitChar (n % 16)

/-- The lowest `count` hexadecimal digits of a number, highest first. -/
def hexDigits (count n : Nat) : List Char :=
  (List.range count).reverse.map fun i => hexDigit (n / Nat.pow 16 i)

/-- The 32 digits of a random universally unique identifier: the thirteenth tells version 4, the
seventeenth has the variant's two leading bits. -/
def uniqueDigits (random : Nat) : List Char :=
  (hexDigits 32 random).mapIdx fun i digit =>
    if i = 12 then '4' else if i = 16 then hexDigit (8 + random / Nat.pow 16 15 % 4) else digit

/-- An identifier that starts with the name, if that is one, and ends in 32 random digits. -/
def unique (name : String) (random : Nat) : String :=
  (if isValid name then name else fallback) ++ String.ofList (uniqueDigits random)

end Identifier

end ClassForge
