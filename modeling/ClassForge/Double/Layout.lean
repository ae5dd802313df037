import ClassForge.Double.Decimal

/-! # Text of doubles

A `NumberLayout` says how a finite double is written: which powers of ten of the leading digit are
written out in positions, what marks a positive exponent, and which of two equally short and
equally close digit strings is taken.
-/

namespace ClassForge

/-- The choices of a text format for finite doubles. -/
structure NumberLayout where
  /-- The least power of ten of a leading digit that is written in positions. -/
  leastPlain : Int
  /-- The first power of ten that no longer is. -/
  endPlain : Int
  /-- What stands between `e` and a positive exponent. -/
  positiveSign : String
  /-- Which of two equally close digit strings is taken. -/
  tie : Tie
deriving DecidableEq, Repr

namespace NumberLayout

/-- The digits of a whole number. -/
def digitText (n : Nat) : List Char :=
  Nat.toDigits 10 n

/-- Digits with a point after the first `whole` of them, and at least one digit on either side. -/
def pointed (digits : List Char) (whole : Int) : List Char :=
  if whole ≤ 0 then
    '0' :: '.' :: (List.replicate (-whole).toNat '0' ++ digits)
  else
    let front := digits.take whole.toNat ++ List.replicate (whole.toNat - digits.length) '0'
    let back := digits.drop whole.toNat
    front ++ '.' :: (if back.isEmpty then ['0'] else back)

/-- Digits with a point after the first one, which is left out if nothing follows. -/
def leading : List Char → List Char
  | [] => []
  | [d] => [d]
  | d :: rest => d :: '.' :: rest

/-- The text of a decimal number without its sign. -/
def decimalText (layout : NumberLayout) (d : Decimal) : List Char :=
  let digits := digitText d.digits
  let top := d.leadingExponent
  if layout.leastPlain ≤ top ∧ top < layout.endPlain then pointed digits (top + 1)
  else
    let sign := if top < 0 then ['-'] else layout.positiveSign.toList
    leading digits ++ 'e' :: (sign ++ digitText top.natAbs)

/-- The text of a finite double. Zero is written `0.0`, with its sign. -/
def text (layout : NumberLayout) (d : Double) : String :=
  let sign := if d.isNegative then ['-'] else []
  let body :=
    if d.magnitude = 0 then ['0', '.', '0']
    else layout.decimalText (d.magnitude |> Double.shortest layout.tie)
  String.ofList (sign ++ body)

end NumberLayout

end ClassForge
