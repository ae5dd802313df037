import ClassForge.Literal.Canonical

/-! # Texts of numbers

Whole numbers are written in decimal digits, bit patterns in sixteen hexadecimal ones. Either text
determines the number, and the characters of a decimal numeral are digits and a minus sign, so a mark
that is neither ends it. Doubles in source have points, exponents and capital letters besides.
-/

namespace ClassForge

/-- The characters of a decimal numeral. -/
def isNumeralChar (c : Char) : Bool :=
  c.isDigit || c == '-'

theorem toDigits_inj {m n : Nat} : Nat.toDigits 10 m = Nat.toDigits 10 n ↔ m = n := by
  constructor
  · intro same
    rw [← Nat.ofDigitChars_ten_toDigits (n := m), same, Nat.ofDigitChars_ten_toDigits]
  · exact congrArg (Nat.toDigits 10)

theorem isNumeralChar_toDigits {n : Nat} {c : Char} (member : c ∈ Nat.toDigits 10 n) :
    isNumeralChar c = true := by
  simp [isNumeralChar, Nat.isDigit_of_mem_toDigits (by decide) (by decide) member]

private theorem minus_notMem_toDigits (n : Nat) : '-' ∉ Nat.toDigits 10 n := by
  intro member
  exact absurd (Nat.isDigit_of_mem_toDigits (by decide) (by decide) member) (by decide)

/-- The digits of a whole number, behind a minus sign for a negative one. -/
theorem toList_toString_int (n : Int) :
    (toString n).toList = if 0 ≤ n then Nat.toDigits 10 n.toNat else '-' :: Nat.toDigits 10 (-n).toNat := by
  rw [Int.toString_eq_repr, Int.repr_eq_if]
  split
  · exact Nat.toList_repr
  · rw [String.toList_append, Nat.toList_repr]
    rfl

theorem toString_int_inj {m n : Int} : (toString m).toList = (toString n).toList ↔ m = n := by
  constructor
  · intro same
    rw [toList_toString_int, toList_toString_int] at same
    split at same <;> split at same
    · have := toDigits_inj.mp same
      omega
    · exact absurd (same ▸ List.mem_cons_self) (minus_notMem_toDigits _)
    · exact absurd (same ▸ List.mem_cons_self) (minus_notMem_toDigits _)
    · have := toDigits_inj.mp (List.cons.inj same).2
      omega
  · rintro rfl
    rfl

theorem isNumeralChar_toString_int {n : Int} {c : Char} (member : c ∈ (toString n).toList) :
    isNumeralChar c = true := by
  rw [toList_toString_int] at member
  split at member
  · exact isNumeralChar_toDigits member
  · rcases List.mem_cons.mp member with rfl | member
    · rfl
    · exact isNumeralChar_toDigits member

namespace Literal

private theorem digitChar_inj {m n : Nat} (hm : m < 16) (hn : n < 16)
    (same : Nat.digitChar m = Nat.digitChar n) : m = n := by
  have table : ∀ a b : Fin 16, Nat.digitChar a = Nat.digitChar b → a = b := by decide
  exact congrArg Fin.val (table ⟨m, hm⟩ ⟨n, hn⟩ same)

/-- Numbers that agree in their lowest `count` hexadecimal digits agree up to that power. -/
private theorem mod_eq_of_digits {m n : Nat} (count : Nat)
    (same : ∀ i < count, m / Nat.pow 16 i % 16 = n / Nat.pow 16 i % 16) :
    m % Nat.pow 16 count = n % Nat.pow 16 count := by
  induction count with
  | zero => exact (Nat.mod_one m).trans (Nat.mod_one n).symm
  | succ count ih =>
    have split (k : Nat) : k % Nat.pow 16 (count + 1) =
        k % Nat.pow 16 count + Nat.pow 16 count * (k / Nat.pow 16 count % 16) := Nat.mod_pow_succ
    rw [split m, split n, ih fun i below => same i (by omega), same count (Nat.lt_succ_self count)]

theorem length_bitDigits (bits : UInt64) : (bitDigits bits).length = 16 := by
  simp [bitDigits]

theorem bitDigits_inj {a b : UInt64} : bitDigits a = bitDigits b ↔ a = b := by
  constructor
  · intro same
    have digits : ∀ i < 16, a.toNat / Nat.pow 16 i % 16 = b.toNat / Nat.pow 16 i % 16 := by
      intro i below
      have digit := List.map_inj_left.mp same i (by simpa using below)
      exact digitChar_inj (Nat.mod_lt _ (by decide)) (Nat.mod_lt _ (by decide)) digit
    have whole := mod_eq_of_digits 16 digits
    have below (bits : UInt64) : bits.toNat < Nat.pow 16 16 := bits.toNat_lt
    rw [Nat.mod_eq_of_lt (below a), Nat.mod_eq_of_lt (below b)] at whole
    exact UInt64.toNat_inj.mp whole
  · exact congrArg bitDigits

theorem isAscii_bitDigits {bits : UInt64} {c : Char} (member : c ∈ bitDigits bits) :
    c.toNat < 128 := by
  obtain ⟨i, _, rfl⟩ := List.mem_map.mp member
  have table : ∀ d : Fin 16, (Nat.digitChar d).toNat < 128 := by decide
  exact table ⟨_, Nat.mod_lt _ (by decide)⟩

/-- The characters of numbers in source. -/
def isNumberChar (c : Char) : Bool :=
  isNumeralChar c || c == '.' || c == 'e' || c.isUpper

theorem isNumberChar_of_isNumeralChar {c : Char} (numeral : isNumeralChar c = true) :
    isNumberChar c = true := by
  simp [isNumberChar, numeral]

private theorem isNumberChar_pointed {digits : List Char} {whole : Int} {c : Char}
    (own : ∀ c ∈ digits, isNumberChar c = true) (member : c ∈ NumberLayout.pointed digits whole) :
    isNumberChar c = true := by
  have zero : ∀ {count : Nat}, c ∈ List.replicate count '0' → isNumberChar c = true := by
    intro count member
    rw [(List.mem_replicate.mp member).2]
    rfl
  rw [NumberLayout.pointed] at member
  split at member
  · rcases List.mem_cons.mp member with rfl | member
    · rfl
    rcases List.mem_cons.mp member with rfl | member
    · rfl
    rcases List.mem_append.mp member with member | member
    · exact zero member
    · exact own c member
  · rcases List.mem_append.mp member with member | member
    · rcases List.mem_append.mp member with member | member
      · exact own c (List.mem_of_mem_take member)
      · exact zero member
    rcases List.mem_cons.mp member with rfl | member
    · rfl
    split at member
    · rw [List.mem_singleton.mp member]
      rfl
    · exact own c (List.mem_of_mem_drop member)

private theorem isNumberChar_leading {digits : List Char} {c : Char}
    (own : ∀ c ∈ digits, isNumberChar c = true) (member : c ∈ NumberLayout.leading digits) :
    isNumberChar c = true := by
  cases digits with
  | nil => exact own c member
  | cons first rest =>
    cases rest with
    | nil => exact own c member
    | cons second rest =>
      rcases List.mem_cons.mp member with rfl | member
      · exact own c List.mem_cons_self
      rcases List.mem_cons.mp member with rfl | member
      · rfl
      · exact own c (List.mem_cons_of_mem _ member)

private theorem isNumberChar_decimalText {d : Decimal} {c : Char}
    (member : c ∈ numberLayout.decimalText d) : isNumberChar c = true := by
  have digits : ∀ {n : Nat}, ∀ c ∈ NumberLayout.digitText n, isNumberChar c = true :=
    fun c member => isNumberChar_of_isNumeralChar (isNumeralChar_toDigits member)
  rw [NumberLayout.decimalText] at member
  split at member
  · exact isNumberChar_pointed digits member
  · rcases List.mem_append.mp member with member | member
    · exact isNumberChar_leading digits member
    rcases List.mem_cons.mp member with rfl | member
    · rfl
    rcases List.mem_append.mp member with member | member
    · split at member
      · rw [List.mem_singleton.mp member]
        rfl
      · cases member
    · exact digits c member

/-- A double in source has nothing but the characters of numbers. -/
theorem isNumberChar_doubleSource {d : Double} {c : Char} (member : c ∈ (doubleSource d).toList) :
    isNumberChar c = true := by
  have capitals : ∀ name ∈ ["NAN", "-INF", "INF"], name.toList.all isNumberChar = true := by decide
  rw [doubleSource] at member
  split at member
  · rw [NumberLayout.text, String.toList_ofList] at member
    rcases List.mem_append.mp member with member | member
    · split at member
      · rw [List.mem_singleton.mp member]
        rfl
      · cases member
    · split at member
      · exact List.all_eq_true.mp (by decide : ['0', '.', '0'].all isNumberChar = true) c member
      · exact isNumberChar_decimalText member
  · split at member
    · exact List.all_eq_true.mp (capitals _ (by decide)) c member
    · split at member <;> exact List.all_eq_true.mp (capitals _ (by decide)) c member

end Literal

end ClassForge
