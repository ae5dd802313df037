import ClassForge.Double.Decimal
import Mathlib.Algebra.Order.Ring.Nat

/-! # Decimals that read back

A decimal is read as the magnitude closest to it. That depends on its value alone, so trailing zeros may be moved
into the exponent. The exact decimal of a finite magnitude reads back, hence the search for the shortest one that
does always has a result to fall back on.
-/

namespace ClassForge

namespace Double

theorem roundHalfEven_mul {c : Nat} (positive : 0 < c) (num den : Nat) :
    roundHalfEven (c * num) (c * den) = roundHalfEven num den := by
  have twice : 2 * (c * (num % den)) = c * (2 * (num % den)) := Nat.mul_left_comm 2 c _
  simp only [roundHalfEven, Nat.mul_div_mul_left _ _ positive, Nat.mul_mod_mul_left, twice,
    Nat.mul_lt_mul_left positive, Nat.mul_right_inj positive.ne']

theorem roundHalfEven_mul_self {den : Nat} (positive : 0 < den) (n : Nat) : roundHalfEven (n * den) den = n := by
  have whole : n * den / den = n := Nat.mul_div_cancel n positive
  have rest : n * den % den = 0 := Nat.mul_mod_left n den
  simp only [roundHalfEven, whole, rest]
  exact if_neg (by omega)

theorem nearest_mul {c : Nat} (positive : 0 < c) (num den : Nat) : nearest (c * num) (c * den) = nearest num den := by
  simp only [nearest, Nat.pow_eq]
  rw [Nat.mul_assoc, Nat.mul_div_mul_left _ _ positive, Nat.mul_assoc, roundHalfEven_mul positive]

/-! ## Exact decimals -/

theorem significand_lt (magnitude : Nat) : significand magnitude < 2 ^ 53 := by
  simp only [significand, scale, fractionRange]
  omega

/-- Only the lowest magnitudes have a small significand. -/
theorem le_significand {magnitude : Nat} (scaled : 0 < scale magnitude) : 2 ^ 52 ≤ significand magnitude := by
  simp only [significand, scale, fractionRange] at scaled ⊢
  omega

theorem scale_mul_add_significand (magnitude : Nat) :
    scale magnitude * fractionRange + significand magnitude = magnitude := by
  simp only [significand, scale, fractionRange]
  omega

/-- The scale of a magnitude can be told from its value. -/
private theorem log2_scaled (magnitude : Nat) :
    (significand magnitude * 2 ^ scale magnitude).log2 - 52 = scale magnitude := by
  have below := significand_lt magnitude
  rcases Nat.eq_zero_or_pos (scale magnitude) with zero | scaled
  · rw [zero, Nat.pow_zero, Nat.mul_one]
    rcases Nat.eq_zero_or_pos (significand magnitude) with empty | positive
    · rw [empty]
      rfl
    · have small := (Nat.log2_lt positive.ne').mpr below
      omega
  · have above := le_significand scaled
    have positive : significand magnitude * 2 ^ scale magnitude ≠ 0 :=
      (Nat.mul_pos (by omega) (Nat.two_pow_pos _)).ne'
    have exponent : (significand magnitude * 2 ^ scale magnitude).log2 = 52 + scale magnitude := by
      rw [Nat.log2_eq_iff positive, Nat.pow_add, show 52 + scale magnitude + 1 = 53 + scale magnitude by omega,
        Nat.pow_add]
      exact ⟨Nat.mul_le_mul_right _ above, Nat.mul_lt_mul_of_pos_right below (Nat.two_pow_pos _)⟩
    omega

/-- The digits of an exact decimal. The number of places stays a variable, so that no power of it is computed. -/
private theorem exists_digits_exactDecimal (magnitude : Nat) : ∃ places, places = 1074 ∧
    (exactDecimal magnitude).digits = significand magnitude * 2 ^ scale magnitude * 5 ^ places :=
  ⟨1074, rfl, by simp only [exactDecimal, Nat.pow_eq, -Nat.reducePow]⟩

theorem nearest_exactDecimal (magnitude : Nat) :
    nearest (exactDecimal magnitude).digits (Nat.pow 10 1074) = magnitude := by
  obtain ⟨places, same, digits⟩ := exists_digits_exactDecimal magnitude
  have ten : significand magnitude * 2 ^ scale magnitude * 5 ^ places * 2 ^ places =
      significand magnitude * 2 ^ scale magnitude * 10 ^ places := by
    rw [Nat.mul_assoc, ← Nat.mul_pow]
  have positive : 0 < 10 ^ places := Nat.pow_pos (by decide)
  simp only [nearest, digits, ← same, Nat.pow_eq, ten, Nat.mul_div_cancel _ positive, log2_scaled]
  rw [Nat.mul_assoc, Nat.mul_comm (2 ^ scale magnitude),
    roundHalfEven_mul_self (Nat.mul_pos positive (Nat.two_pow_pos _)), scale_mul_add_significand]

end Double

namespace Decimal

theorem digitCount_le_iff {n count : Nat} (positive : 0 < count) : digitCount n ≤ count ↔ n < 10 ^ count :=
  Nat.length_toDigits_le_iff (by decide) positive

theorem digitCount_mul_ten {n : Nat} (positive : 0 < n) : digitCount (n * 10) = digitCount n + 1 := by
  rw [digitCount, Nat.toDigits_of_base_le (by decide) (by omega), Nat.mul_div_cancel n (by decide),
    List.length_append]
  rfl

/-- A trailing zero may be moved into the exponent. -/
theorem magnitude?_mul_ten {n : Nat} (positive : 0 < n) (e : Int) :
    magnitude? ⟨n * 10, e⟩ = magnitude? ⟨n, e + 1⟩ := by
  have leading : leadingExponent ⟨n * 10, e⟩ = leadingExponent ⟨n, e + 1⟩ := by
    simp only [leadingExponent, digitCount_mul_ten positive]
    omega
  have close : Double.nearest (n * 10 * Nat.pow 10 e.toNat) (Nat.pow 10 (-e).toNat) =
      Double.nearest (n * Nat.pow 10 (e + 1).toNat) (Nat.pow 10 (-(e + 1)).toNat) := by
    simp only [Nat.pow_eq]
    rcases Int.lt_or_le e 0 with below | above
    · obtain ⟨k, rfl⟩ : ∃ k : Nat, e = -(k + 1 : Int) := ⟨(-e - 1).toNat, by omega⟩
      have up : (-(k + 1 : Int)).toNat = 0 ∧ (-(-(k + 1 : Int))).toNat = k + 1 := by omega
      have down : (-(k + 1 : Int) + 1).toNat = 0 ∧ (-(-(k + 1 : Int) + 1)).toNat = k := by omega
      rw [up.1, up.2, down.1, down.2, Nat.pow_zero, Nat.mul_one, Nat.mul_one, Nat.pow_succ, Nat.mul_comm n,
        Nat.mul_comm (10 ^ k), Double.nearest_mul (by decide)]
    · have up : (e + 1).toNat = e.toNat + 1 ∧ (-e).toNat = 0 ∧ (-(e + 1)).toNat = 0 := by omega
      rw [up.1, up.2.1, up.2.2, Nat.mul_assoc, ← Nat.pow_succ']
  simp only [magnitude?, leading, close]
  have zero : n * 10 = 0 ↔ n = 0 := by omega
  simp only [zero]

theorem magnitude?_mul_pow {n : Nat} (positive : 0 < n) (e : Int) (count : Nat) :
    magnitude? ⟨n * 10 ^ count, e⟩ = magnitude? ⟨n, e + count⟩ := by
  induction count generalizing e with
  | zero => simp
  | succ count ih =>
    have filled : 0 < n * 10 ^ count := Nat.mul_pos positive (Nat.pow_pos (by decide))
    rw [Nat.pow_succ, ← Nat.mul_assoc, magnitude?_mul_ten filled, ih]
    congr 2
    omega

theorem magnitude?_dropZeros (fuel : Nat) {d : Decimal} (positive : 0 < d.digits) :
    (dropZeros fuel d).magnitude? = d.magnitude? := by
  induction fuel generalizing d with
  | zero => rfl
  | succ fuel ih =>
    rw [dropZeros]
    split
    · rename_i trailing
      have whole : d.digits / 10 * 10 = d.digits := by omega
      rw [ih (show 0 < d.digits / 10 by omega), ← magnitude?_mul_ten (by omega), whole]
    · rfl

theorem magnitude?_normalize (d : Decimal) : d.normalize.magnitude? = d.magnitude? := by
  rw [normalize]
  split
  · rename_i zero
    simp [magnitude?, zero]
  · rename_i filled
    exact magnitude?_dropZeros _ (by omega)

/-- A number of moderate size is computed. -/
theorem magnitude?_of_leadingExponent {n places : Nat} (filled : n ≠ 0) (least : -400 ≤ leadingExponent ⟨n, -places⟩)
    (most : leadingExponent ⟨n, -places⟩ ≤ 400)
    (finite : Double.nearest n (Nat.pow 10 places) < Double.infinityMagnitude) :
    magnitude? ⟨n, -places⟩ = some (Double.nearest n (Nat.pow 10 places)) := by
  have exponents : (-(places : Int)).toNat = 0 ∧ (-(-(places : Int))).toNat = places := by omega
  have whole : n * Nat.pow 10 0 = n := Nat.mul_one n
  simp only [magnitude?, exponents.1, exponents.2, whole]
  rw [if_neg (by omega), if_neg (by omega), if_pos finite]

end Decimal

namespace Double

private theorem ten_pow_le_five_pow {a b : Nat} (n : Nat) (left : a ≤ 2 * n) (right : 3 * n ≤ b) : 10 ^ a ≤ 5 ^ b :=
  calc 10 ^ a
    _ ≤ 10 ^ (2 * n) := Nat.pow_le_pow_right (by decide) left
    _ = (10 ^ 2) ^ n := Nat.pow_mul 10 2 n
    _ ≤ (5 ^ 3) ^ n := Nat.pow_le_pow_left (by decide) n
    _ = 5 ^ (3 * n) := (Nat.pow_mul 5 3 n).symm
    _ ≤ 5 ^ b := Nat.pow_le_pow_right (by decide) right

private theorem scaled_lt_ten_pow {n k a b : Nat} (small : n < 2 ^ 53) (bounded : 53 + k ≤ 3 * b + a) :
    n * 2 ^ k * 5 ^ a < 10 ^ (b + a) :=
  calc n * 2 ^ k * 5 ^ a
    _ < 2 ^ 53 * 2 ^ k * 5 ^ a :=
      Nat.mul_lt_mul_of_pos_right (Nat.mul_lt_mul_of_pos_right small (Nat.two_pow_pos k)) (Nat.pow_pos (by decide))
    _ = 2 ^ (53 + k) * 5 ^ a := by rw [← Nat.pow_add]
    _ ≤ 2 ^ (3 * b + a) * 5 ^ a := Nat.mul_le_mul_right _ (Nat.pow_le_pow_right (by decide) bounded)
    _ = (2 ^ 3) ^ b * (2 * 5) ^ a := by rw [Nat.pow_add, Nat.pow_mul, Nat.mul_pow, Nat.mul_assoc]
    _ ≤ 10 ^ b * 10 ^ a := Nat.mul_le_mul_right _ (Nat.pow_le_pow_left (by decide) b)
    _ = 10 ^ (b + a) := (Nat.pow_add 10 b a).symm

private theorem significand_pos {magnitude : Nat} (positive : 0 < magnitude) : 0 < significand magnitude := by
  simp only [significand, scale, fractionRange]
  omega

/-- The leading digit of a positive finite magnitude is far from the bounds within which numbers are computed. -/
private theorem leadingExponent_exactDecimal {magnitude : Nat} (positive : 0 < magnitude)
    (finite : magnitude < infinityMagnitude) :
    -400 ≤ (exactDecimal magnitude).leadingExponent ∧ (exactDecimal magnitude).leadingExponent ≤ 400 := by
  obtain ⟨places, same, digits⟩ := exists_digits_exactDecimal magnitude
  have small : scale magnitude ≤ 2045 := by
    simp only [scale, infinityMagnitude, fractionRange] at finite ⊢
    omega
  have many : 700 < Decimal.digitCount (exactDecimal magnitude).digits := by
    rw [← Nat.not_le, Decimal.digitCount_le_iff (by decide), Nat.not_lt, digits]
    refine (ten_pow_le_five_pow 350 (by decide) (by omega)).trans (Nat.le_mul_of_pos_left _ ?_)
    exact Nat.mul_pos (significand_pos positive) (Nat.two_pow_pos _)
  have few : Decimal.digitCount (exactDecimal magnitude).digits ≤ 342 + places := by
    rw [Decimal.digitCount_le_iff (by omega), digits]
    exact scaled_lt_ten_pow (significand_lt magnitude) (by omega)
  have exponent : (exactDecimal magnitude).exponent = -1074 := rfl
  rw [Decimal.leadingExponent, exponent]
  omega

theorem magnitude?_exactDecimal {magnitude : Nat} (positive : 0 < magnitude)
    (finite : magnitude < infinityMagnitude) : (exactDecimal magnitude).magnitude? = some magnitude := by
  obtain ⟨least, most⟩ := leadingExponent_exactDecimal positive finite
  have close := nearest_exactDecimal magnitude
  have filled : (exactDecimal magnitude).digits ≠ 0 := by
    obtain ⟨places, -, digits⟩ := exists_digits_exactDecimal magnitude
    rw [digits]
    exact (Nat.mul_pos (Nat.mul_pos (significand_pos positive) (Nat.two_pow_pos _)) (Nat.pow_pos (by decide))).ne'
  rw [← close] at finite
  exact (Decimal.magnitude?_of_leadingExponent filled least most finite).trans (congrArg some close)

/-! ## Shortest decimals -/

private theorem magnitude?_roundTo? {tie : Tie} {magnitude count : Nat} {d : Decimal}
    (found : roundTo? tie magnitude count = some d) : d.magnitude? = some magnitude := by
  obtain ⟨ordered, same⟩ : ∃ ordered : List Decimal,
      roundTo? tie magnitude count = ordered.find? (·.magnitude? == some magnitude) := ⟨_, rfl⟩
  rw [same] at found
  have read := List.find?_some found
  exact eq_of_beq read

private theorem exists_of_firstFrom {α : Type} {attempt : Nat → Option α} {fuel count : Nat} {value : α}
    (found : firstFrom attempt fuel count = some value) : ∃ index, attempt index = some value := by
  induction fuel generalizing count with
  | zero => cases found
  | succ fuel ih =>
    rw [firstFrom] at found
    split at found
    · rename_i other success
      exact ⟨count, success.trans found⟩
    · exact ih found

/-- What is written for a positive finite magnitude is read as that magnitude. -/
theorem magnitude?_shortest (tie : Tie) {magnitude : Nat} (positive : 0 < magnitude)
    (finite : magnitude < infinityMagnitude) : (shortest tie magnitude).magnitude? = some magnitude := by
  obtain ⟨fuel, same⟩ : ∃ fuel, shortest tie magnitude =
      ((firstFrom (roundTo? tie magnitude) fuel 1).getD (exactDecimal magnitude)).normalize := ⟨_, rfl⟩
  rw [same, Decimal.magnitude?_normalize]
  cases found : firstFrom (roundTo? tie magnitude) fuel 1 with
  | none =>
    rw [Option.getD_none]
    exact magnitude?_exactDecimal positive finite
  | some d =>
    obtain ⟨count, rounded⟩ := exists_of_firstFrom found
    exact magnitude?_roundTo? rounded

theorem digits_shortest_pos (tie : Tie) {magnitude : Nat} (positive : 0 < magnitude)
    (finite : magnitude < infinityMagnitude) : 0 < (shortest tie magnitude).digits := by
  refine Nat.pos_of_ne_zero fun zero => ?_
  have read := magnitude?_shortest tie positive finite
  rw [Decimal.magnitude?, if_pos (.inl zero)] at read
  exact positive.ne (Option.some.inj read)

theorem ofMagnitude_magnitude (d : Double) : ofMagnitude d.isNegative d.magnitude = d := by
  have range : d.bits.toNat < 2 ^ 64 := d.bits.toNat_lt
  have same : d.magnitude % signWeight + (if d.isNegative then signWeight else 0) = d.bits.toNat := by
    rw [magnitude, isNegative]
    by_cases negative : signWeight ≤ d.bits.toNat
    · rw [decide_eq_true negative, if_pos rfl]
      rw [signWeight] at negative ⊢
      omega
    · rw [decide_eq_false negative, if_neg Bool.false_ne_true]
      rw [signWeight] at negative ⊢
      omega
  rw [ofMagnitude, same, UInt64.ofNat_toNat]

end Double

end ClassForge
