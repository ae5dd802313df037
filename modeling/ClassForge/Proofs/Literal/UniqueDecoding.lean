import ClassForge.Proofs.Literal.Numerals

/-! # Canonical bytes can be read in one way only

The canonical form of a literal can be split off the front of any longer run of bytes: the first byte
tells the kind, a number in front of texts, lists and maps tells where they end, and the remaining
kinds have a mark at their end or a fixed length. Options are maps, so different options never share
their bytes, whatever their keys.
-/

namespace ClassForge

namespace Literal

/-- The first character of the canonical form. -/
def tag : Literal → Char
  | .null => 'n'
  | .bool _ => 'b'
  | .int _ => 'i'
  | .float _ => 'f'
  | .str _ => 's'
  | .list _ => 'l'
  | .map _ => 'm'

private theorem byte_inj {c d : Char} (hc : c.toNat < 128) (hd : d.toNat < 128)
    (same : UInt8.ofNat c.toNat = UInt8.ofNat d.toNat) : c = d := by
  have bytes := congrArg UInt8.toNat same
  rw [UInt8.toNat_ofNat_of_lt' (by change _ < 256; omega),
    UInt8.toNat_ofNat_of_lt' (by change _ < 256; omega)] at bytes
  exact Char.toNat_inj.mp bytes

private theorem bit_inj : ∀ v w : Bool,
    UInt8.ofNat (if v then '1' else '0').toNat = UInt8.ofNat (if w then '1' else '0').toNat → v = w := by
  decide

private theorem ascii_inj {m n : List Char} (hm : ∀ c ∈ m, c.toNat < 128) (hn : ∀ c ∈ n, c.toNat < 128)
    (same : ascii m = ascii n) : m = n := by
  induction m generalizing n with
  | nil => exact (List.map_eq_nil_iff.mp same.symm).symm
  | cons c m ih =>
    cases n with
    | nil => exact absurd same (by simp [ascii])
    | cons d n =>
      obtain ⟨front, rest⟩ := List.cons.inj same
      rw [byte_inj (hm c List.mem_cons_self) (hn d List.mem_cons_self) front,
        ih (fun c member => hm c (List.mem_cons_of_mem _ member))
          (fun d member => hn d (List.mem_cons_of_mem _ member)) rest]

private theorem toNat_lt_of_isNumeralChar {c : Char} (numeral : isNumeralChar c = true) :
    c.toNat < 128 := by
  rcases Bool.or_eq_true_iff.mp numeral with digit | minus
  · have bounds := Char.isDigit_iff_toNat.mp digit
    have : '9'.toNat = 57 := rfl
    omega
  · rw [eq_of_beq minus]
    decide

/-- A numeral ends where the first mark stands that is no part of numerals. -/
private theorem header_append_inj {kind mark : Char} {m n : List Char} {r s : List UInt8}
    (hm : ∀ c ∈ m, isNumeralChar c = true) (hn : ∀ c ∈ n, isNumeralChar c = true)
    (small : mark.toNat < 128) (ends : isNumeralChar mark = false)
    (same : header kind m mark ++ r = header kind n mark ++ s) : m = n ∧ r = s := by
  replace same := (List.cons.inj same).2
  change ascii (m ++ [mark]) ++ r = ascii (n ++ [mark]) ++ s at same
  induction m generalizing n with
  | nil =>
    cases n with
    | nil => exact ⟨rfl, (List.cons.inj same).2⟩
    | cons d n =>
      have numeral := hn d List.mem_cons_self
      have front := byte_inj small (toNat_lt_of_isNumeralChar numeral) (List.cons.inj same).1
      rw [← front, ends] at numeral
      cases numeral
  | cons c m ih =>
    have numeral := hm c List.mem_cons_self
    cases n with
    | nil =>
      have front := byte_inj (toNat_lt_of_isNumeralChar numeral) small (List.cons.inj same).1
      rw [front, ends] at numeral
      cases numeral
    | cons d n =>
      obtain ⟨front, rest⟩ := List.cons.inj same
      obtain ⟨rfl, after⟩ := ih (fun c member => hm c (List.mem_cons_of_mem _ member))
        (fun d member => hn d (List.mem_cons_of_mem _ member)) rest
      have first := byte_inj (toNat_lt_of_isNumeralChar numeral)
        (toNat_lt_of_isNumeralChar (hn d List.mem_cons_self)) front
      exact ⟨congrArg (· :: m) first, after⟩

/-- A length in front of a text, a list or a map determines itself. -/
private theorem length_header_inj {kind : Char} {m n : Nat} {r s : List UInt8}
    (same : header kind (Nat.toDigits 10 m) ':' ++ r = header kind (Nat.toDigits 10 n) ':' ++ s) :
    m = n ∧ r = s := by
  obtain ⟨digits, rest⟩ := header_append_inj (fun _ => isNumeralChar_toDigits)
    (fun _ => isNumeralChar_toDigits) (by decide) (by decide) same
  exact ⟨toDigits_inj.mp digits, rest⟩

theorem textBytes_append_inj {a b : String} {r s : List UInt8}
    (same : textBytes a ++ r = textBytes b ++ s) : a = b ∧ r = s := by
  simp only [textBytes, List.append_assoc] at same
  obtain ⟨sizes, rest⟩ := length_header_inj same
  obtain ⟨bytes, after⟩ := List.append_inj rest (by simpa using sizes)
  exact ⟨String.toByteArray_inj.mp (ByteArray.ext (Array.toList_inj.mp bytes)), after⟩

private theorem canonical_eq_cons (a : Literal) :
    ∃ rest, a.canonical = UInt8.ofNat a.tag.toNat :: rest := by
  cases a <;> exact ⟨_, rfl⟩

private theorem tag_eq {a b : Literal} {r s : List UInt8} (same : a.canonical ++ r = b.canonical ++ s) :
    a.tag = b.tag := by
  obtain ⟨front, ha⟩ := canonical_eq_cons a
  obtain ⟨back, hb⟩ := canonical_eq_cons b
  rw [ha, hb] at same
  have small : ∀ c : Literal, c.tag.toNat < 128 := by
    intro c
    cases c <;> simp only [tag] <;> decide
  exact byte_inj (small a) (small b) (List.cons.inj same).1

mutual

/-- The canonical form of a literal determines the literal and where it ends. -/
theorem canonical_append_inj : (a b : Literal) → {r s : List UInt8} →
    a.canonical ++ r = b.canonical ++ s → a = b ∧ r = s
  | .null, b, _, _, same => by
    cases b with
    | null => exact ⟨rfl, (List.cons.inj same).2⟩
    | _ => exact absurd (tag_eq same) (by simp [tag])
  | .bool v, b, _, _, same => by
    cases b with
    | bool w =>
      obtain ⟨front, rest⟩ := List.cons.inj (List.cons.inj same).2
      exact ⟨congrArg Literal.bool (bit_inj v w front), rest⟩
    | _ => exact absurd (tag_eq same) (by simp [tag])
  | .int v, b, _, _, same => by
    cases b with
    | int w =>
      obtain ⟨digits, rest⟩ := header_append_inj (fun _ => isNumeralChar_toString_int)
        (fun _ => isNumeralChar_toString_int) (by decide) (by decide) same
      exact ⟨congrArg Literal.int (Int64.toInt_inj.mp (toString_int_inj.mp digits)), rest⟩
    | _ => exact absurd (tag_eq same) (by simp [tag])
  | .float v, b, _, _, same => by
    cases b with
    | float w =>
      obtain ⟨digits, rest⟩ := List.append_inj (List.cons.inj same).2
        (by simp [length_bitDigits])
      have bits := bitDigits_inj.mp
        (ascii_inj (fun _ => isAscii_bitDigits) (fun _ => isAscii_bitDigits) digits)
      exact ⟨congrArg (Literal.float ∘ Double.mk) bits, rest⟩
    | _ => exact absurd (tag_eq same) (by simp [tag])
  | .str v, b, _, _, same => by
    cases b with
    | str w =>
      obtain ⟨text, rest⟩ := textBytes_append_inj same
      exact ⟨congrArg Literal.str text, rest⟩
    | _ => exact absurd (tag_eq same) (by simp [tag])
  | .list items, b, _, _, same => by
    cases b with
    | list others =>
      simp only [canonical, List.append_assoc] at same
      obtain ⟨lengths, rest⟩ := length_header_inj same
      obtain ⟨equal, after⟩ := canonicalItems_append_inj items others lengths rest
      exact ⟨congrArg Literal.list equal, after⟩
    | _ => exact absurd (tag_eq same) (by simp [tag])
  | .map entries, b, _, _, same => by
    cases b with
    | map others =>
      simp only [canonical, List.append_assoc] at same
      obtain ⟨lengths, rest⟩ := length_header_inj same
      obtain ⟨equal, after⟩ := canonicalEntries_append_inj entries others lengths rest
      exact ⟨congrArg Literal.map equal, after⟩
    | _ => exact absurd (tag_eq same) (by simp [tag])

theorem canonicalItems_append_inj : (items others : List Literal) → {r s : List UInt8} →
    items.length = others.length →
    canonicalItems items ++ r = canonicalItems others ++ s → items = others ∧ r = s
  | [], [], _, _, _, same => ⟨rfl, same⟩
  | item :: items, other :: others, _, _, lengths, same => by
    simp only [canonicalItems, List.append_assoc] at same
    obtain ⟨first, rest⟩ := canonical_append_inj item other same
    obtain ⟨equal, after⟩ := canonicalItems_append_inj items others (Nat.succ.inj lengths) rest
    exact ⟨by rw [first, equal], after⟩

theorem canonicalEntries_append_inj : (entries others : List (String × Literal)) → {r s : List UInt8} →
    entries.length = others.length →
    canonicalEntries entries ++ r = canonicalEntries others ++ s → entries = others ∧ r = s
  | [], [], _, _, _, same => ⟨rfl, same⟩
  | (key, value) :: entries, (name, other) :: others, _, _, lengths, same => by
    simp only [canonicalEntries, List.append_assoc] at same
    obtain ⟨keys, rest⟩ := textBytes_append_inj same
    obtain ⟨values, rest⟩ := canonical_append_inj value other rest
    obtain ⟨equal, after⟩ := canonicalEntries_append_inj entries others (Nat.succ.inj lengths) rest
    exact ⟨by rw [keys, values, equal], after⟩

end

end Literal

theorem Options.canonical_inj {o₁ o₂ : Options} : o₁.canonical = o₂.canonical ↔ o₁ = o₂ := by
  constructor
  · intro same
    have maps := Literal.canonical_append_inj (.map o₁) (.map o₂) (congrArg (· ++ []) same)
    exact Literal.map.inj maps.1
  · exact congrArg Options.canonical

/-- Canonical bytes are uniquely readable: followed by anything, they determine the literal and what
follows; and options with the same canonical bytes are the same, in the same order. -/
theorem Literal.canonical_uniquely_readable :
    (∀ (a b : Literal) (r s : List UInt8), a.canonical ++ r = b.canonical ++ s ↔ a = b ∧ r = s) ∧
      ∀ o₁ o₂ : Options, o₁.canonical = o₂.canonical ↔ o₁ = o₂ := by
  refine ⟨fun a b r s => ⟨canonical_append_inj a b, ?_⟩, fun o₁ o₂ => Options.canonical_inj⟩
  rintro ⟨rfl, rfl⟩
  rfl

end ClassForge
