/-! # Double-precision numbers

A `Double` is a 64-bit pattern: a sign, eleven exponent bits and 52 fraction bits. Patterns are
compared bit by bit, so the two zeros differ and every NaN payload is a value of its own.

The lower 63 bits, read as a number, are the *magnitude*. Magnitudes are ordered as the values they
stand for. A finite magnitude `k * 2 ^ 52 + m` with `m < 2 ^ 53` stands for `m * 2 ^ k / 2 ^ 1074`
(with `2 ^ 52 ≤ m` unless `k = 0`), which is how `nearest` writes its result down.
-/

namespace ClassForge

/-- A double-precision number, given by its bits. -/
structure Double where
  bits : UInt64
deriving DecidableEq, Repr

namespace Double

/-- The weight of the exponent's lowest bit. -/
def fractionRange : Nat := 0x10000000000000

/-- The weight of the sign. -/
def signWeight : Nat := 0x8000000000000000

/-- The magnitude of infinity; what lies above is no number. -/
def infinityMagnitude : Nat := 0x7ff * fractionRange

/-- The pattern without its sign. -/
def magnitude (d : Double) : Nat :=
  d.bits.toNat % signWeight

/-- Whether the sign is set. -/
def isNegative (d : Double) : Bool :=
  decide (signWeight ≤ d.bits.toNat)

/-- Neither an infinity nor a NaN. -/
def isFinite (d : Double) : Bool :=
  decide (d.magnitude < infinityMagnitude)

/-- Not a number. -/
def isNaN (d : Double) : Bool :=
  decide (infinityMagnitude < d.magnitude)

/-- The number with this sign and magnitude. -/
def ofMagnitude (negative : Bool) (magnitude : Nat) : Double :=
  ⟨UInt64.ofNat (magnitude % signWeight + if negative then signWeight else 0)⟩

/-- The power of two that scales the significand, counted from `2 ^ (-1074)`. -/
def scale (magnitude : Nat) : Nat :=
  magnitude / fractionRange - 1

/-- The whole number that, scaled, gives the value of a finite magnitude. -/
def significand (magnitude : Nat) : Nat :=
  magnitude - scale magnitude * fractionRange

/-- The quotient rounded to the nearest whole number, a half to the even one. -/
def roundHalfEven (num den : Nat) : Nat :=
  let quotient := num / den
  let twice := 2 * (num % den)
  if den < twice ∨ (twice = den ∧ quotient % 2 = 1) then quotient + 1 else quotient

/-- The magnitude closest to a quotient, a half to the one with an even pattern. A quotient too
large for a finite magnitude gives one from `infinityMagnitude` on. -/
def nearest (num den : Nat) : Nat :=
  let scaled := num * Nat.pow 2 1074
  let k := (scaled / den).log2 - 52
  k * fractionRange + roundHalfEven scaled (den * Nat.pow 2 k)

end Double

end ClassForge
