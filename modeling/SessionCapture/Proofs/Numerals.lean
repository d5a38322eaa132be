import SessionCapture.Numeral

/-!
# Characters and values of numerals

Every character of a numeral is a digit, so a character that is no digit stands
in none.  A decimal numeral states its number, however far it is filled up with
zeros.
-/

namespace SessionCapture

namespace Numeral

/-- Not a digit of any base up to sixteen. -/
def NoDigit (c : Char) : Prop :=
  ∀ digit < 16, c ≠ Nat.digitChar digit

instance (c : Char) : Decidable (NoDigit c) :=
  inferInstanceAs (Decidable (∀ digit < 16, c ≠ Nat.digitChar digit))

private theorem exists_digitChar_of_mem_toDigits {base number : Nat}
    (large : 1 < base) {c : Char} (member : c ∈ Nat.toDigits base number) :
    ∃ digit < base, c = digit.digitChar := by
  induction number using Nat.strongRecOn with
  | ind number induction =>
      rw [Nat.toDigits_eq_if large] at member
      split at member
      · next single =>
          exact ⟨number, single, List.mem_singleton.mp member⟩
      · next several =>
          rcases List.mem_append.mp member with front | last
          · exact induction (number / base)
              (Nat.div_lt_self (by omega) large) front
          · exact ⟨number % base, Nat.mod_lt _ (by omega),
              List.mem_singleton.mp last⟩

section Characters

variable {c : Char} (noDigit : NoDigit c)

include noDigit

theorem notMem_toDigits {base : Nat} (large : 1 < base) (small : base ≤ 16)
    (number : Nat) : c ∉ Nat.toDigits base number := by
  intro member
  obtain ⟨digit, below, same⟩ := exists_digitChar_of_mem_toDigits large member
  exact noDigit digit (Nat.lt_of_lt_of_le below small) same

theorem notMem_nat (number : Nat) : c ∉ (toString number).toList := by
  rw [Nat.toString_eq_repr, Nat.toList_repr]
  exact notMem_toDigits noDigit (by omega) (by omega) number

theorem notMem_word (word : UInt16) : c ∉ (toString word).toList :=
  notMem_nat noDigit word.toNat

theorem notMem_dword (value : UInt32) : c ∉ (toString value).toList :=
  notMem_nat noDigit value.toNat

theorem notMem_padded {base : Nat} (large : 1 < base) (small : base ≤ 16)
    (width number : Nat) : c ∉ (padded base width number).toList := by
  rw [padded, String.toList_ofList, List.leftpad, List.mem_append,
    List.mem_replicate]
  rintro (⟨_, zero⟩ | digit)
  · exact noDigit 0 (by omega) zero
  · exact notMem_toDigits noDigit large small number digit

theorem notMem_tenDigits (number : Nat) : c ∉ (tenDigits number).toList :=
  notMem_padded noDigit (by omega) (by omega) 10 number

theorem notMem_hex (width number : Nat) : c ∉ (hex width number).toList :=
  notMem_padded noDigit (by omega) (by omega) width number

end Characters

/-- The number that decimal digits state. -/
def value (digits : List Char) : Nat :=
  Nat.ofDigitChars 10 digits 0

theorem value_nat (number : Nat) : value (toString number).toList = number := by
  rw [value, Nat.toString_eq_repr, Nat.toList_repr,
    Nat.ofDigitChars_ten_toDigits]

theorem value_word (word : UInt16) :
    value (toString word).toList = word.toNat :=
  value_nat word.toNat

theorem value_dword (dword : UInt32) :
    value (toString dword).toList = dword.toNat :=
  value_nat dword.toNat

/-- Zeros in front of a number change nothing. -/
theorem value_tenDigits (number : Nat) :
    value (tenDigits number).toList = number := by
  rw [value, tenDigits, padded, String.toList_ofList, List.leftpad,
    Nat.ofDigitChars_append, Nat.ofDigitChars_replicate_zero, Nat.mul_zero,
    Nat.ofDigitChars_ten_toDigits]

theorem isDigit_of_mem_tenDigits {number : Nat} {c : Char}
    (member : c ∈ (tenDigits number).toList) : c.isDigit = true := by
  rw [tenDigits, padded, String.toList_ofList, List.leftpad, List.mem_append,
    List.mem_replicate] at member
  rcases member with ⟨_, rfl⟩ | digit
  · decide
  · exact Nat.isDigit_of_mem_toDigits (by omega) (by omega) digit

end Numeral

end SessionCapture
