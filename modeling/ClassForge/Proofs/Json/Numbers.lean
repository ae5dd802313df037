import ClassForge.Json.Parse
import ClassForge.Json.Text
import ClassForge.Proofs.Double.Reading
import ClassForge.Proofs.Literal.Numerals
import Mathlib.Data.List.Basic
import Mathlib.Data.List.TakeDrop

/-! # Numbers in JSON text

What is written for a whole number is read as that number, and what is written for a finite double as that double,
as long as nothing follows that could belong to the number. A double may be written in positions or with an
exponent; either way the text has the digits of the shortest decimal, and perhaps zeros behind them.
-/

namespace ClassForge

namespace Json

/-! ## Digits -/

private theorem digitsValue_eq (digits : List Char) : digitsValue digits = Nat.ofDigitChars 10 digits 0 := by
  rw [Nat.ofDigitChars_eq_foldl]
  exact congrArg (fun step => digits.foldl step 0) (funext₂ fun n c => by rw [Nat.mul_comm])

theorem digitsValue_append (front back : List Char) :
    digitsValue (front ++ back) = digitsValue front * 10 ^ back.length + digitsValue back := by
  rw [digitsValue_eq, digitsValue_eq, digitsValue_eq, Nat.ofDigitChars_append,
    Nat.ofDigitChars_eq_ofDigitChars_zero, Nat.mul_comm]

theorem digitsValue_toDigits (n : Nat) : digitsValue (Nat.toDigits 10 n) = n := by
  rw [digitsValue_eq, Nat.ofDigitChars_ten_toDigits]

theorem digitsValue_zeros (count : Nat) : digitsValue (List.replicate count '0') = 0 := by
  induction count with
  | zero => rfl
  | succ count ih =>
    rw [List.replicate_succ', digitsValue_append, ih, Nat.zero_mul]
    rfl

/-- No digit stands at the front. -/
def EndsDigits (rest : List Char) : Prop :=
  ∀ c ∈ rest.head?, c.isDigit = false

theorem scanDigits_append {digits rest : List Char} (filled : digits ≠ []) (own : ∀ c ∈ digits, c.isDigit = true)
    (stop : EndsDigits rest) : scanDigits (digits ++ rest) = some (digits, rest) := by
  have taken : rest.takeWhile Char.isDigit = [] ∧ rest.dropWhile Char.isDigit = rest := by
    cases rest with
    | nil => exact ⟨rfl, rfl⟩
    | cons c rest => simp [stop c rfl]
  rw [scanDigits, List.span_eq_takeWhile_dropWhile, List.takeWhile_append_of_pos own,
    List.dropWhile_append_of_pos own, taken.1, taken.2, List.append_nil]
  cases digits with
  | nil => contradiction
  | cons => rfl

theorem isDigit_toDigits {n : Nat} {c : Char} (member : c ∈ Nat.toDigits 10 n) : c.isDigit = true :=
  Nat.isDigit_of_mem_toDigits (by decide) (by decide) member

theorem scanDigits_toDigits (n : Nat) {rest : List Char} (stop : EndsDigits rest) :
    scanDigits (Nat.toDigits 10 n ++ rest) = some (Nat.toDigits 10 n, rest) :=
  scanDigits_append Nat.toDigits_ne_nil (fun _ => isDigit_toDigits) stop

/-- A positive number has no leading zero. -/
theorem head?_toDigits_ne {n : Nat} (positive : 0 < n) : (Nat.toDigits 10 n).head? ≠ some '0' := by
  induction n using Nat.strong_induction_on with
  | _ n ih =>
    rcases Nat.lt_or_ge n 10 with small | large
    · have table : ∀ digit : Fin 10, 0 < digit.val → Nat.digitChar digit ≠ '0' := by decide
      rw [Nat.toDigits_of_lt_base small, List.head?_cons]
      exact fun same => table ⟨n, small⟩ positive (Option.some.inj same)
    · rw [Nat.toDigits_of_base_le (by decide) large, List.head?_append_of_ne_nil _ Nat.toDigits_ne_nil]
      exact ih (n / 10) (by omega) (by omega)

/-! ## Parts of a number -/

/-- Nothing at the front could go on with a number. -/
structure EndsNumber (rest : List Char) : Prop where
  digits : EndsDigits rest
  point : rest.head? ≠ some '.'
  exponent : rest.head? ≠ some 'e' ∧ rest.head? ≠ some 'E'

theorem scanFraction_of_ne {rest : List Char} (other : rest.head? ≠ some '.') :
    scanFraction rest = some ([], rest) := by
  unfold scanFraction
  split
  · exact absurd rfl other
  · rfl

theorem scanExponent_of_ne {rest : List Char} (other : rest.head? ≠ some 'e' ∧ rest.head? ≠ some 'E') :
    scanExponent rest = some (none, rest) := by
  cases rest with
  | nil => rfl
  | cons c rest =>
    have apart : ¬(c = 'e' ∨ c = 'E') := by
      rintro (rfl | rfl)
      · exact other.1 rfl
      · exact other.2 rfl
    unfold scanExponent
    exact if_neg apart

/-- An exponent as it is written, with a sign. -/
theorem scanExponent_signed (exponent : Int) {rest : List Char} (stop : EndsDigits rest) :
    scanExponent ('e' :: ((if exponent < 0 then ['-'] else ['+']) ++ Nat.toDigits 10 exponent.natAbs ++ rest)) =
      some (some exponent, rest) := by
  have scanned := scanDigits_toDigits exponent.natAbs stop
  by_cases negative : exponent < 0
  · have value : -(exponent.natAbs : Int) = exponent := by omega
    generalize exponent.natAbs = size at scanned value
    simp [scanExponent, negative, scanned, digitsValue_toDigits, value]
  · have value : (exponent.natAbs : Int) = exponent := by omega
    generalize exponent.natAbs = size at scanned value
    simp [scanExponent, negative, scanned, digitsValue_toDigits, value]

/-- A number without leading zeros is made of its parts. -/
theorem scanNumber_of_parts {chars whole fraction rest rest' rest'' : List Char} {exponent : Option Int}
    (first : scanDigits chars = some (whole, rest)) (bare : whole.head? = some '0' → whole.length = 1)
    (second : scanFraction rest = some (fraction, rest')) (third : scanExponent rest' = some (exponent, rest''))
    (negative : Bool) :
    scanNumber negative chars = some
      (if fraction.isEmpty ∧ exponent.isNone then ofWhole negative (digitsValue whole)
        else ofDecimal negative ⟨digitsValue (whole ++ fraction), exponent.getD 0 - fraction.length⟩, rest'') := by
  have plain : ¬(whole.head? = some '0' ∧ 1 < whole.length) := fun zeros => by
    have single := bare zeros.1
    omega
  rw [scanNumber, first]
  simp only [Option.bind_eq_bind, Option.bind_some, if_neg plain, second, third]
  split <;> rfl

/-- A number that is written with a point and nothing behind its digits. -/
theorem scanNumber_pointed {whole fraction rest : List Char} (own : ∀ c ∈ whole ++ fraction, c.isDigit = true)
    (filled : whole ≠ [] ∧ fraction ≠ []) (bare : whole.head? = some '0' → whole.length = 1) (stop : EndsNumber rest)
    (negative : Bool) :
    scanNumber negative (whole ++ '.' :: fraction ++ rest) =
      some (ofDecimal negative ⟨digitsValue (whole ++ fraction), -fraction.length⟩, rest) := by
  have first : scanDigits (whole ++ '.' :: fraction ++ rest) = some (whole, '.' :: fraction ++ rest) := by
    rw [List.append_assoc]
    refine scanDigits_append filled.1 (fun c member => own c (List.mem_append_left _ member)) ?_
    rintro _ ⟨⟩
    rfl
  have second : scanFraction ('.' :: fraction ++ rest) = some (fraction, rest) :=
    scanDigits_append filled.2 (fun c member => own c (List.mem_append_right _ member)) stop.digits
  rw [scanNumber_of_parts first bare second (scanExponent_of_ne stop.exponent)]
  simp [filled.2]

/-- A number that is written with an exponent, its point behind the first digit. -/
theorem scanNumber_leading {d : Char} {fraction tail rest : List Char} {exponent : Int}
    (own : ∀ c ∈ d :: fraction, c.isDigit = true) (third : scanExponent tail = some (some exponent, rest))
    (stop : EndsDigits tail) (point : tail.head? ≠ some '.') (negative : Bool) :
    scanNumber negative (NumberLayout.leading (d :: fraction) ++ tail) =
      some (ofDecimal negative ⟨digitsValue (d :: fraction), exponent - fraction.length⟩, rest) := by
  have digit : ∀ c ∈ [d], c.isDigit = true := by
    intro c member
    rw [List.mem_singleton.mp member]
    exact own d List.mem_cons_self
  have single : [d].head? = some '0' → [d].length = 1 := fun _ => rfl
  cases fraction with
  | nil =>
    have first : scanDigits ([d] ++ tail) = some ([d], tail) := scanDigits_append (List.cons_ne_nil d []) digit stop
    rw [NumberLayout.leading, scanNumber_of_parts first single (scanFraction_of_ne point) third]
    simp
  | cons c more =>
    have first : scanDigits ([d] ++ '.' :: (c :: more ++ tail)) = some ([d], '.' :: (c :: more ++ tail)) := by
      refine scanDigits_append (List.cons_ne_nil d []) digit ?_
      rintro _ ⟨⟩
      rfl
    have second : scanFraction ('.' :: (c :: more ++ tail)) = some (c :: more, tail) :=
      scanDigits_append (List.cons_ne_nil c more) (fun c member => own c (List.mem_cons_of_mem d member)) stop
    have parts := scanNumber_of_parts first single second third negative
    simpa [NumberLayout.leading] using parts

/-! ## Doubles -/

/-- Decimals that are read as the same magnitude are read as the same double. -/
theorem ofDecimal_congr {d d' : Decimal} (same : d.magnitude? = d'.magnitude?) (negative : Bool) :
    ofDecimal negative d = ofDecimal negative d' := by
  rw [ofDecimal, ofDecimal, Decimal.toDouble?, Decimal.toDouble?, same]

private theorem isDigit_zeros {count : Nat} {c : Char} (member : c ∈ List.replicate count '0') : c.isDigit = true := by
  rw [(List.mem_replicate.mp member).2]
  rfl

section Positions

variable {digits rest : List Char} (own : ∀ c ∈ digits, c.isDigit = true) (filled : digits ≠ [])
  (stop : EndsNumber rest) (negative : Bool)
include own filled stop

private theorem scanNumber_zeros_front (count : Nat) :
    scanNumber negative ('0' :: '.' :: (List.replicate count '0' ++ digits) ++ rest) =
      some (ofDecimal negative ⟨digitsValue digits, -(count + digits.length : Nat)⟩, rest) := by
  have joined : ['0'] ++ (List.replicate count '0' ++ digits) = List.replicate (count + 1) '0' ++ digits := rfl
  have digit : ∀ c ∈ ['0'] ++ (List.replicate count '0' ++ digits), c.isDigit = true := by
    rw [joined]
    exact fun c member => (List.mem_append.mp member).elim isDigit_zeros (own c)
  have value : digitsValue (['0'] ++ (List.replicate count '0' ++ digits)) = digitsValue digits := by
    rw [joined, digitsValue_append, digitsValue_zeros, Nat.zero_mul, Nat.zero_add]
  have parts := scanNumber_pointed digit ⟨List.cons_ne_nil _ _, by simp [filled]⟩ (fun _ => rfl) stop negative
  rw [value, List.length_append, List.length_replicate] at parts
  exact parts

variable (lead : digits.head? ≠ some '0')
include lead

private theorem scanNumber_zeros_behind (count : Nat) :
    scanNumber negative (digits ++ List.replicate count '0' ++ '.' :: ['0'] ++ rest) =
      some (ofDecimal negative ⟨digitsValue digits * 10 ^ (count + 1), -1⟩, rest) := by
  have digit : ∀ c ∈ digits ++ List.replicate count '0' ++ ['0'], c.isDigit = true := by
    intro c member
    rw [List.append_assoc, ← List.replicate_succ'] at member
    exact (List.mem_append.mp member).elim (own c) isDigit_zeros
  have value : digitsValue (digits ++ List.replicate count '0' ++ ['0']) = digitsValue digits * 10 ^ (count + 1) := by
    rw [List.append_assoc, ← List.replicate_succ', digitsValue_append, digitsValue_zeros, List.length_replicate,
      Nat.add_zero]
  have bare : (digits ++ List.replicate count '0').head? = some '0' →
      (digits ++ List.replicate count '0').length = 1 := by
    rw [List.head?_append_of_ne_nil _ filled]
    exact fun zero => absurd zero lead
  have parts := scanNumber_pointed digit ⟨by simp [filled], List.cons_ne_nil _ _⟩ bare stop negative
  rw [value] at parts
  exact parts

private theorem scanNumber_inside {count : Nat} (started : 0 < count) (few : count < digits.length) :
    scanNumber negative (digits.take count ++ '.' :: digits.drop count ++ rest) =
      some (ofDecimal negative ⟨digitsValue digits, -(digits.length - count : Nat)⟩, rest) := by
  have digit : ∀ c ∈ digits.take count ++ digits.drop count, c.isDigit = true := by
    rwa [List.take_append_drop]
  have bare : (digits.take count).head? = some '0' → (digits.take count).length = 1 := by
    rw [List.head?_take, if_neg started.ne']
    exact fun zero => absurd zero lead
  have parts := scanNumber_pointed digit ⟨by simp [filled, started.ne'], by simp [few]⟩ bare stop negative
  rw [List.take_append_drop, List.length_drop] at parts
  exact parts

end Positions

/-- Digits that are written in positions, with zeros in front or behind where there are none. -/
private theorem scanNumber_positions {n : Nat} (positive : 0 < n) (e : Int) {rest : List Char} (stop : EndsNumber rest)
    (negative : Bool) :
    scanNumber negative (NumberLayout.pointed (Nat.toDigits 10 n) (e + Decimal.digitCount n) ++ rest) =
      some (ofDecimal negative ⟨n, e⟩, rest) := by
  have own : ∀ c ∈ Nat.toDigits 10 n, c.isDigit = true := fun _ => isDigit_toDigits
  have filled : Nat.toDigits 10 n ≠ [] := Nat.toDigits_ne_nil
  have lead := head?_toDigits_ne positive
  rw [Decimal.digitCount, NumberLayout.pointed]
  by_cases front : e + (Nat.toDigits 10 n).length ≤ 0
  · have scanned := scanNumber_zeros_front own filled stop negative (-(e + (Nat.toDigits 10 n).length)).toNat
    have places : -(((-(e + (Nat.toDigits 10 n).length)).toNat + (Nat.toDigits 10 n).length : Nat) : Int) = e := by
      omega
    rw [digitsValue_toDigits, places] at scanned
    rw [if_pos front]
    exact scanned
  · rw [if_neg front]
    dsimp only
    generalize width : (e + (Nat.toDigits 10 n).length).toNat = count
    rcases Int.lt_or_le e 0 with inside | behind
    · have few : count < (Nat.toDigits 10 n).length := by omega
      have scanned := scanNumber_inside own filled stop negative lead (by omega) few
      have places : -(((Nat.toDigits 10 n).length - count : Nat) : Int) = e := by omega
      rw [digitsValue_toDigits, places] at scanned
      rw [Nat.sub_eq_zero_of_le few.le, List.replicate_zero, List.append_nil, if_neg (by simp [few])]
      exact scanned
    · have scanned := scanNumber_zeros_behind own filled stop negative lead e.toNat
      have many : (Nat.toDigits 10 n).length ≤ count := by omega
      have zeros : count - (Nat.toDigits 10 n).length = e.toNat := by omega
      have exponent : -1 + ((e.toNat + 1 : Nat) : Int) = e := by omega
      rw [digitsValue_toDigits, ofDecimal_congr (Decimal.magnitude?_mul_pow positive (-1) (e.toNat + 1)) negative,
        exponent] at scanned
      rw [List.take_of_length_le many, zeros, List.drop_of_length_le many]
      exact scanned

/-- Digits that are written with an exponent. -/
private theorem scanNumber_exponent (n : Nat) (e : Int) {rest : List Char} (stop : EndsNumber rest) (negative : Bool) :
    scanNumber negative (NumberLayout.leading (Nat.toDigits 10 n) ++ 'e' ::
        ((if e + Decimal.digitCount n - 1 < 0 then ['-'] else ['+']) ++
          Nat.toDigits 10 (e + Decimal.digitCount n - 1).natAbs) ++ rest) =
      some (ofDecimal negative ⟨n, e⟩, rest) := by
  have third := scanExponent_signed (e + Decimal.digitCount n - 1) stop.digits
  have mark : EndsDigits ('e' :: ((if e + Decimal.digitCount n - 1 < 0 then ['-'] else ['+']) ++
      Nat.toDigits 10 (e + Decimal.digitCount n - 1).natAbs ++ rest)) := by
    rintro _ ⟨⟩
    rfl
  rw [List.append_assoc, List.cons_append]
  cases digits : Nat.toDigits 10 n with
  | nil => exact absurd digits Nat.toDigits_ne_nil
  | cons d fraction =>
    have own : ∀ c ∈ d :: fraction, c.isDigit = true := digits ▸ fun _ => isDigit_toDigits
    have value : digitsValue (d :: fraction) = n := digits ▸ digitsValue_toDigits n
    have places : e + Decimal.digitCount n - 1 - fraction.length = e := by
      rw [Decimal.digitCount, digits, List.length_cons]
      omega
    have scanned := scanNumber_leading own third mark (by simp) negative
    rw [value, places] at scanned
    exact scanned

/-- What is written for a positive decimal is read as that number. -/
theorem scanNumber_decimalText {d : Decimal} (positive : 0 < d.digits) {rest : List Char} (stop : EndsNumber rest)
    (negative : Bool) :
    scanNumber negative (numberLayout.decimalText d ++ rest) = some (ofDecimal negative d, rest) := by
  obtain ⟨n, e⟩ := d
  rw [NumberLayout.decimalText]
  split
  · have whole : Decimal.leadingExponent ⟨n, e⟩ + 1 = e + Decimal.digitCount n := by
      simp only [Decimal.leadingExponent]
      omega
    rw [whole]
    exact scanNumber_positions positive e stop negative
  · exact scanNumber_exponent n e stop negative

/-- What is written for a finite double, behind its sign. -/
def doubleBody (d : Double) : List Char :=
  if d.magnitude = 0 then ['0', '.', '0'] else numberLayout.decimalText (Double.shortest numberLayout.tie d.magnitude)

theorem toList_text_numberLayout (d : Double) :
    (numberLayout.text d).toList = (if d.isNegative then ['-'] else []) ++ doubleBody d :=
  String.toList_ofList

theorem scanNumber_doubleBody {d : Double} (finite : d.isFinite = true) {rest : List Char} (stop : EndsNumber rest) :
    scanNumber d.isNegative (doubleBody d ++ rest) = some (.float d, rest) := by
  have read {decimal : Decimal} (same : decimal.magnitude? = some d.magnitude) :
      ofDecimal d.isNegative decimal = .float d := by
    rw [ofDecimal, Decimal.toDouble?, same, Option.map_some, Double.ofMagnitude_magnitude]
  rw [doubleBody]
  split
  · rename_i zero
    have digit : ∀ c ∈ ['0'], c.isDigit = true := List.forall_mem_singleton.mpr rfl
    have scanned := scanNumber_zeros_front digit (List.cons_ne_nil _ _) stop d.isNegative 0
    have same : Decimal.magnitude? ⟨digitsValue ['0'], -((0 + 1 : Nat) : Int)⟩ = some d.magnitude := by
      rw [zero]
      exact if_pos (.inl rfl)
    exact scanned.trans (by rw [← read same]; rfl)
  · rename_i nonzero
    have bounded : d.magnitude < Double.infinityMagnitude := of_decide_eq_true finite
    have positive := Nat.pos_of_ne_zero nonzero
    rw [scanNumber_decimalText (Double.digits_shortest_pos _ positive bounded) stop,
      read (Double.magnitude?_shortest _ positive bounded)]

/-! ## Whole numbers -/

theorem scanNumber_toDigits (n : Nat) {rest : List Char} (stop : EndsNumber rest) (negative : Bool) :
    scanNumber negative (Nat.toDigits 10 n ++ rest) = some (ofWhole negative n, rest) := by
  have first := scanDigits_toDigits n stop.digits
  have bare : (Nat.toDigits 10 n).head? = some '0' → (Nat.toDigits 10 n).length = 1 := by
    rcases Nat.eq_zero_or_pos n with rfl | positive
    · exact fun _ => rfl
    · exact fun zero => absurd zero (head?_toDigits_ne positive)
  rw [scanNumber_of_parts first bare (scanFraction_of_ne stop.point) (scanExponent_of_ne stop.exponent),
    digitsValue_toDigits]
  rfl

theorem ofWhole_toInt (value : Int64) : ofWhole (decide (value.toInt < 0)) value.toInt.natAbs = .int value := by
  have least := value.le_toInt
  have most := value.toInt_lt
  have range : intRange = 2 ^ 63 := rfl
  rw [ofWhole]
  by_cases negative : value.toInt < 0
  · have size : (value.toInt.natAbs : Int) = -value.toInt := by omega
    rw [decide_eq_true negative, if_pos rfl, if_pos (by omega), size, Int.neg_neg, Int64.ofInt_toInt]
  · have size : (value.toInt.natAbs : Int) = value.toInt := by omega
    rw [decide_eq_false negative, if_neg Bool.false_ne_true, if_pos (by omega), size, Int64.ofInt_toInt]

end Json

end ClassForge
