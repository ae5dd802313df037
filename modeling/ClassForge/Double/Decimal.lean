import ClassForge.Double.Basic

/-! # Decimal numbers and doubles

A `Decimal` is a whole number times a power of ten. Reading one as a double rounds to the nearest,
a half to even; writing a double takes the fewest digits that read back as the same number.
-/

namespace ClassForge

/-- The number `digits * 10 ^ exponent`. -/
structure Decimal where
  digits : Nat
  exponent : Int
deriving DecidableEq, Repr

namespace Decimal

/-- How many decimal digits a number has. -/
def digitCount (n : Nat) : Nat :=
  (Nat.toDigits 10 n).length

/-- The power of ten of the leading digit. -/
def leadingExponent (d : Decimal) : Int :=
  d.exponent + digitCount d.digits - 1

/-- The magnitude closest to the number; `none` if that is not finite. Numbers whose leading digit
is far outside of the range of doubles are settled without computing their powers. -/
def magnitude? (d : Decimal) : Option Nat :=
  if d.digits = 0 ∨ d.leadingExponent < -400 then some 0
  else if 400 < d.leadingExponent then none
  else
    let m := Double.nearest (d.digits * Nat.pow 10 d.exponent.toNat) (Nat.pow 10 (-d.exponent).toNat)
    if m < Double.infinityMagnitude then some m else none

/-- The closest double; `none` if that is not finite. -/
def toDouble? (negative : Bool) (d : Decimal) : Option Double :=
  d.magnitude?.map (Double.ofMagnitude negative)

/-- Moves trailing zeros into the exponent, at most `fuel` of them. -/
def dropZeros : (fuel : Nat) → Decimal → Decimal
  | 0, d => d
  | fuel + 1, d =>
    if d.digits % 10 = 0 then dropZeros fuel ⟨d.digits / 10, d.exponent + 1⟩ else d

/-- The same number without trailing zeros; zero has exponent zero. -/
def normalize (d : Decimal) : Decimal :=
  if d.digits = 0 then ⟨0, 0⟩ else dropZeros (digitCount d.digits) d

end Decimal

/-- Which of two equally close neighbours is taken. -/
inductive Tie where
  | up
  | toEven
deriving DecidableEq, Repr

namespace Double

/-- The value of a finite magnitude, in full. -/
def exactDecimal (magnitude : Nat) : Decimal :=
  ⟨significand magnitude * Nat.pow 2 (scale magnitude) * Nat.pow 5 1074, -1074⟩

/-- Whether the upper of two neighbours is closer than the lower one, which misses `rest` parts out
of `unit`. -/
def prefersUpper (tie : Tie) (lower rest unit : Nat) : Bool :=
  decide (unit < 2 * rest) ||
    (decide (2 * rest = unit) && (tie == .up || lower % 2 == 1))

/-- The closest decimal with the leading `count` digits that reads back as the magnitude. -/
def roundTo? (tie : Tie) (magnitude count : Nat) : Option Decimal :=
  let exact := exactDecimal magnitude
  let dropped := Decimal.digitCount exact.digits - count
  let unit := Nat.pow 10 dropped
  let lower : Decimal := ⟨exact.digits / unit, exact.exponent + dropped⟩
  let upper : Decimal := ⟨exact.digits / unit + 1, exact.exponent + dropped⟩
  let ordered :=
    if prefersUpper tie lower.digits (exact.digits % unit) unit then [upper, lower]
    else [lower, upper]
  ordered.find? fun d => d.magnitude? == some magnitude

/-- The first success among the attempts `count`, `count + 1`, …, at most `fuel` of them. -/
def firstFrom {α : Type} (attempt : Nat → Option α) : (fuel count : Nat) → Option α
  | 0, _ => none
  | fuel + 1, count =>
    match attempt count with
    | some found => some found
    | none => firstFrom attempt fuel (count + 1)

/-- The fewest digits that read back as the magnitude, the closest of them, without trailing zeros.
All digits of the exact value do read back, so the search ends. -/
def shortest (tie : Tie) (magnitude : Nat) : Decimal :=
  let exact := exactDecimal magnitude
  ((firstFrom (roundTo? tie magnitude) (Decimal.digitCount exact.digits) 1).getD exact).normalize

end Double

end ClassForge
