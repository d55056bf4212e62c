import Mathlib.Algebra.Group.Nat.Defs
import Bitfont.Proofs.Text.Lines
import Bitfont.Text.Numeral

namespace Bitfont.Numeral

def hexDigit? (c : Char) : Option Nat :=
  if '0' ≤ c ∧ c ≤ '9' then some (c.toNat - '0'.toNat)
  else if 'a' ≤ c ∧ c ≤ 'f' then some (10 + (c.toNat - 'a'.toNat))
  else if 'A' ≤ c ∧ c ≤ 'F' then some (10 + (c.toNat - 'A'.toNat))
  else none

def ofHexadecimal (digits : Text) : Nat :=
  digits.foldl (fun value c => 16 * value + (hexDigit? c).getD 0) 0

def readDecimal (text : Text) : Option (Nat × Text) :=
  match text.takeWhile Text.isAsciiDigit with
  | [] => none
  | digits => some (Nat.ofDigitChars 10 digits 0, text.dropWhile Text.isAsciiDigit)

def LetterCase.spell : LetterCase → Char → Char
  | .lower => id
  | .upper => Char.toUpper

theorem hexadecimal_eq_map (letters : LetterCase) (width n : Nat) :
    hexadecimal letters width n = ((Nat.toDigits 16 n).leftpad width '0').map letters.spell := by
  cases letters with
  | lower => exact (List.map_id _).symm
  | upper => rfl

theorem hex_digit?_spell (letters : LetterCase) {d : Nat} (small : d < 16) :
    hexDigit? (letters.spell d.digitChar) = some d := by
  have lower : ∀ d < 16, hexDigit? (Nat.digitChar d) = some d := by decide
  have upper : ∀ d < 16, hexDigit? (Nat.digitChar d).toUpper = some d := by decide
  cases letters with
  | lower => exact lower d small
  | upper => exact upper d small

theorem digit_of_mem_to_digits {n : Nat} {c : Char} (member : c ∈ Nat.toDigits 16 n) :
    ∃ d < 16, c = Nat.digitChar d := by
  induction n using Nat.strongRecOn with
  | ind n ih =>
      by_cases small : n < 16
      · rw [Nat.toDigits_of_lt_base small, List.mem_singleton] at member
        exact ⟨n, small, member⟩
      · rw [Nat.toDigits_of_base_le (by decide) (by omega), List.mem_append] at member
        cases member with
        | inl high => exact ih (n / 16) (by omega) high
        | inr low => exact ⟨n % 16, by omega, List.mem_singleton.mp low⟩

theorem digit_of_mem_hexadecimal {letters : LetterCase} {width n : Nat} {c : Char}
    (member : c ∈ hexadecimal letters width n) : ∃ d < 16, c = letters.spell (Nat.digitChar d) := by
  rw [hexadecimal_eq_map] at member
  obtain ⟨digit, inDigits, rfl⟩ := List.mem_map.mp member
  cases List.mem_append.mp inDigits with
  | inl padding => exact ⟨0, by decide, congrArg _ (List.mem_replicate.mp padding).2⟩
  | inr significant =>
      obtain ⟨d, small, rfl⟩ := digit_of_mem_to_digits significant
      exact ⟨d, small, rfl⟩

theorem is_some_hex_digit?_of_mem {letters : LetterCase} {width n : Nat} {c : Char}
    (member : c ∈ hexadecimal letters width n) : (hexDigit? c).isSome := by
  obtain ⟨d, small, rfl⟩ := digit_of_mem_hexadecimal member
  rw [hex_digit?_spell letters small]
  rfl

def LetterCase.alphabet : LetterCase → Text
  | .lower => "0123456789abcdef".toList
  | .upper => "0123456789ABCDEF".toList

theorem mem_alphabet_of_mem {letters : LetterCase} {width n : Nat} {c : Char}
    (member : c ∈ hexadecimal letters width n) : c ∈ letters.alphabet := by
  have lower : ∀ d < 16, Nat.digitChar d ∈ LetterCase.lower.alphabet := by decide
  have upper : ∀ d < 16, (Nat.digitChar d).toUpper ∈ LetterCase.upper.alphabet := by decide
  obtain ⟨d, small, rfl⟩ := digit_of_mem_hexadecimal member
  cases letters with
  | lower => exact lower d small
  | upper => exact upper d small

theorem hexadecimal_length (letters : LetterCase) {width n : Nat} (positive : 0 < width)
    (fits : n < 16 ^ width) : (hexadecimal letters width n).length = width := by
  have short := (Nat.length_toDigits_le_iff (by decide) positive).mpr fits
  rw [hexadecimal_eq_map, List.length_map, List.length_leftpad]
  exact Nat.max_eq_left short

theorem hexadecimal_ne_nil (letters : LetterCase) (width n : Nat) :
    hexadecimal letters width n ≠ [] := by
  rw [hexadecimal_eq_map]
  simp [List.leftpad]

theorem of_hexadecimal_append (front back : Text) :
    ofHexadecimal (front ++ back) =
      back.foldl (fun value c => 16 * value + (hexDigit? c).getD 0) (ofHexadecimal front) :=
  List.foldl_append

theorem of_hexadecimal_to_digits (letters : LetterCase) (n : Nat) :
    ofHexadecimal ((Nat.toDigits 16 n).map letters.spell) = n := by
  -- All digits but the last are those of `n / 16`.
  induction n using Nat.strongRecOn with
  | ind n ih =>
      by_cases small : n < 16
      · rw [Nat.toDigits_of_lt_base small]
        simp [ofHexadecimal, hex_digit?_spell letters small]
      · have last : n % 16 < 16 := by omega
        rw [Nat.toDigits_of_base_le (by decide) (by omega), List.map_append, of_hexadecimal_append,
          ih (n / 16) (by omega)]
        simp only [List.map_cons, List.map_nil, List.foldl_cons, List.foldl_nil,
          hex_digit?_spell letters last, Option.getD_some]
        omega

theorem of_hexadecimal_zeros (count : Nat) : ofHexadecimal (List.replicate count '0') = 0 := by
  induction count with
  | zero => rfl
  | succ count ih =>
      rw [List.replicate_succ', of_hexadecimal_append, ih]
      rfl

theorem of_hexadecimal_hexadecimal (letters : LetterCase) (width n : Nat) :
    ofHexadecimal (hexadecimal letters width n) = n := by
  have zero : letters.spell '0' = '0' := by cases letters <;> rfl
  rw [hexadecimal_eq_map, List.leftpad, List.map_append, List.map_replicate, zero,
    of_hexadecimal_append, of_hexadecimal_zeros]
  exact of_hexadecimal_to_digits letters n

theorem is_ascii_digit_of_mem_decimal {n : Nat} {c : Char} (member : c ∈ decimal n) :
    Text.isAsciiDigit c = true := by
  have digit := Nat.isDigit_of_mem_toDigits (by decide) (by decide) member
  simpa [Text.isAsciiDigit, Char.isDigit, Char.le_def] using digit

theorem decimal_ne_nil (n : Nat) : decimal n ≠ [] := Nat.toDigits_ne_nil

theorem read_decimal_decimal (n : Nat) {rest : Text}
    (ends : ∀ c ∈ rest.head?, Text.isAsciiDigit c = false) :
    readDecimal (decimal n ++ rest) = some (n, rest) := by
  have digits : ∀ c ∈ decimal n, Text.isAsciiDigit c = true := fun c => is_ascii_digit_of_mem_decimal
  unfold readDecimal
  rw [Text.take_while_span digits ends, Text.drop_while_span digits ends]
  split
  · next empty => exact absurd empty (decimal_ne_nil n)
  · rw [decimal, Nat.ofDigitChars_ten_toDigits]

section Limited

variable {limit : Nat}

theorem le_of_digit_chars (digits : Text) (value : Nat) : value ≤ Nat.ofDigitChars 10 digits value := by
  induction digits generalizing value with
  | nil => exact Nat.le_refl value
  | cons c digits ih =>
      have later := ih (10 * value + (c.toNat - '0'.toNat))
      rw [Nat.ofDigitChars_cons]
      omega

-- No number on the way is above the last one, so the limit stops none of them.
theorem magnitude_digits {excess : Fault} {digits : Text} {value : Nat}
    (decimals : ∀ c ∈ digits, Text.isAsciiDigit c = true)
    (fits : Nat.ofDigitChars 10 digits value ≤ limit) :
    magnitude limit excess value digits = .ok (Nat.ofDigitChars 10 digits value) := by
  induction digits generalizing value with
  | nil => rfl
  | cons c digits ih =>
      have digit := decimals c List.mem_cons_self
      have others := fun d member => decimals d (List.mem_cons_of_mem c member)
      rw [Nat.ofDigitChars_cons] at fits ⊢
      have first := Nat.le_trans (le_of_digit_chars digits _) fits
      rw [magnitude, if_pos digit]
      dsimp only
      rw [if_pos first]
      exact ih others fits

theorem magnitude_decimal {excess : Fault} {n : Nat} (fits : n ≤ limit) :
    magnitude limit excess 0 (decimal n) = .ok n := by
  have value : Nat.ofDigitChars 10 (decimal n) 0 = n := Nat.ofDigitChars_ten_toDigits
  have read : magnitude limit excess 0 (decimal n) = .ok (Nat.ofDigitChars 10 (decimal n) 0) :=
    magnitude_digits (fun c => is_ascii_digit_of_mem_decimal) (value.symm ▸ fits)
  rwa [value] at read

theorem decimal_unsigned {sign : Char} (noDigit : Text.isAsciiDigit sign = false) (n : Nat)
    (rest : Text) : decimal n ≠ sign :: rest := by
  intro signed
  have digit : Text.isAsciiDigit sign = true :=
    is_ascii_digit_of_mem_decimal (signed ▸ List.mem_cons_self)
  exact Bool.false_ne_true (noDigit.symm.trans digit)

theorem read_natural_decimal {n : Nat} (fits : n ≤ limit) : readNatural limit (decimal n) = .ok n := by
  unfold readNatural
  split
  · next empty => exact absurd empty (decimal_ne_nil n)
  · next sign => exact absurd sign (decimal_unsigned rfl n _)
  · next sign => exact absurd sign (decimal_unsigned rfl n _)
  · exact magnitude_decimal fits

theorem read_positive_decimal {n : Nat} (positive : 0 < n) (fits : n ≤ limit) :
    readPositive limit (decimal n) = .ok n := by
  rw [readPositive, read_natural_decimal fits]
  exact if_neg (Nat.ne_of_gt positive)

theorem read_integer_decimal {n : Nat} (fits : n ≤ maxInteger) :
    readInteger (decimal n) = .ok (Int.ofNat n) := by
  unfold readInteger
  split
  · next empty => exact absurd empty (decimal_ne_nil n)
  · next sign => exact absurd sign (decimal_unsigned rfl n _)
  · next sign => exact absurd sign (decimal_unsigned rfl n _)
  · next sign => exact absurd sign (decimal_unsigned rfl n _)
  · next sign => exact absurd sign (decimal_unsigned rfl n _)
  · rw [magnitude_decimal fits]
    rfl

end Limited

end Bitfont.Numeral
