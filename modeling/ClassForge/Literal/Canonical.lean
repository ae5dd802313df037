import ClassForge.Digest.Sha256
import ClassForge.Literal.Basic

/-! # Canonical bytes and fingerprints of options

The canonical form tags every value and puts the length in front of texts, lists and maps, so that
different options have different bytes. The fingerprint of options is a class name made of the
first 32 hexadecimal digits of the digest of these bytes.
-/

namespace ClassForge

namespace Literal

/-- The bytes of an ASCII text. -/
def ascii (text : List Char) : List UInt8 :=
  text.map fun c => UInt8.ofNat c.toNat

/-- A tag, a number and a mark after it. -/
def header (tag : Char) (number : List Char) (stop : Char) : List UInt8 :=
  ascii (tag :: (number ++ [stop]))

/-- A text, with its length in bytes in front. -/
def textBytes (text : String) : List UInt8 :=
  header 's' (Nat.toDigits 10 text.utf8ByteSize) ':' ++ text.toUTF8.data.toList

/-- The sixteen hexadecimal digits of a bit pattern. -/
def bitDigits (bits : UInt64) : List Char :=
  (List.range 16).reverse.map fun i => Nat.digitChar (bits.toNat / Nat.pow 16 i % 16)

mutual

/-- The canonical bytes of a literal. -/
def canonical : Literal → List UInt8
  | .null => ascii ['n']
  | .bool value => ascii ['b', if value then '1' else '0']
  | .int value => header 'i' (toString value.toInt).toList ';'
  | .float value => ascii ('f' :: bitDigits value.bits)
  | .str value => textBytes value
  | .list items => header 'l' (Nat.toDigits 10 items.length) ':' ++ canonicalItems items
  | .map entries => header 'm' (Nat.toDigits 10 entries.length) ':' ++ canonicalEntries entries

def canonicalItems : List Literal → List UInt8
  | [] => []
  | item :: rest => item.canonical ++ canonicalItems rest

def canonicalEntries : List (String × Literal) → List UInt8
  | [] => []
  | (key, value) :: rest => textBytes key ++ value.canonical ++ canonicalEntries rest

end

end Literal

namespace Options

/-- The canonical bytes of options are those of the map they form. -/
def canonical (options : Options) : List UInt8 :=
  (Literal.map options).canonical

/-- What fingerprints start with. -/
def fingerprintStart : String := "Generated"

/-- The class name that stands for the options. -/
def fingerprint (options : Options) : String :=
  fingerprintStart ++ String.ofList ((Sha256.hex (Sha256.digest options.canonical)).take 32)

end Options

end ClassForge
