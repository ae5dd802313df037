/-! # Texts from arbitrary bytes

Bytes that are no UTF-8 are shown with U+FFFD in place of each longest piece that starts a
character and does not finish it, and of each byte that starts none.
-/

namespace ClassForge

namespace Lossy

/-- What stands for bytes that make no character. -/
def replacement : Char := '�'

/-- A byte that goes on with a character. -/
def isNext (byte : UInt8) : Bool :=
  0x80 ≤ byte && byte ≤ 0xbf

/-- Whether a byte may be the second of a character that starts with the first. -/
def isSecond (first byte : UInt8) : Bool :=
  if first = 0xe0 then 0xa0 ≤ byte && byte ≤ 0xbf
  else if first = 0xed then 0x80 ≤ byte && byte ≤ 0x9f
  else if first = 0xf0 then 0x90 ≤ byte && byte ≤ 0xbf
  else if first = 0xf4 then 0x80 ≤ byte && byte ≤ 0x8f
  else isNext byte

/-- The number that the payload of a byte adds to what came before it. -/
def join (value : Nat) (byte : UInt8) : Nat :=
  value * 64 + (byte.toNat - 0x80)

/-- The characters of a text, with replacements. -/
def decode : List UInt8 → List Char
  | [] => []
  | a :: rest =>
    if a < 0x80 then Char.ofNat a.toNat :: decode rest
    else if 0xc2 ≤ a && a ≤ 0xdf then
      match rest with
      | [] => [replacement]
      | b :: rest =>
        if isNext b then Char.ofNat (join (a.toNat - 0xc0) b) :: decode rest
        else replacement :: decode (b :: rest)
    else if 0xe0 ≤ a && a ≤ 0xef then
      match rest with
      | [] => [replacement]
      | b :: rest =>
        if isSecond a b then
          match rest with
          | [] => [replacement]
          | c :: rest =>
            if isNext c then Char.ofNat (join (join (a.toNat - 0xe0) b) c) :: decode rest
            else replacement :: decode (c :: rest)
        else replacement :: decode (b :: rest)
    else if 0xf0 ≤ a && a ≤ 0xf4 then
      match rest with
      | [] => [replacement]
      | b :: rest =>
        if isSecond a b then
          match rest with
          | [] => [replacement]
          | c :: rest =>
            if isNext c then
              match rest with
              | [] => [replacement]
              | d :: rest =>
                if isNext d then
                  Char.ofNat (join (join (join (a.toNat - 0xf0) b) c) d) :: decode rest
                else replacement :: decode (d :: rest)
            else replacement :: decode (c :: rest)
        else replacement :: decode (b :: rest)
    else replacement :: decode rest

/-- The text that bytes show. -/
def text (bytes : ByteArray) : String :=
  String.ofList (decode bytes.data.toList)

end Lossy

end ClassForge
