import Bitfont.Literal
import Bitfont.Proofs.Numeral

namespace Bitfont.Literal

inductive Token where
  | opening
  | closing
  | comma
  | numeral (digits : Text)
deriving DecidableEq

-- What has been begun: nothing, a numeral's zero, or a numeral with some digits after its `x`.
inductive Pending where
  | nothing
  | zero
  | digits (taken : Text)

def bracket? : Language → Char → Option Token
  | .c, '\x7b' => some .opening
  | .c, '\x7d' => some .closing
  | .rust, '[' => some .opening
  | .rust, ']' => some .closing
  | _, _ => none

def mark? (language : Language) (c : Char) : Option (List Token) :=
  if Text.isBlank c then some []
  else if c = ',' then some [.comma]
  else (bracket? language c).map ([·])

def prepend (tokens : List Token) (rest : Option (List Token)) : Option (List Token) :=
  rest.map (tokens ++ ·)

def scan (language : Language) : Pending → Text → Option (List Token)
  | .nothing, [] => some []
  | .nothing, c :: rest =>
      if c = '0' then scan language .zero rest
      else (mark? language c).bind (prepend · (scan language .nothing rest))
  | .zero, 'x' :: rest => scan language (.digits []) rest
  | .zero, _ => none
  | .digits [], [] => none
  | .digits taken, [] => some [.numeral taken]
  | .digits taken, c :: rest =>
      if (Numeral.hexDigit? c).isSome then scan language (.digits (taken ++ [c])) rest
      else if taken = [] then none
      else (mark? language c).bind fun marks =>
        prepend (.numeral taken :: marks) (scan language .nothing rest)

def EndsNumeral (text : Text) : Prop := ∀ c ∈ text.head?, Numeral.hexDigit? c = none

@[simp] theorem prepend_nil (rest : Option (List Token)) : prepend [] rest = rest := by
  cases rest <;> rfl

@[simp] theorem prepend_prepend (front back : List Token) (rest : Option (List Token)) :
    prepend front (prepend back rest) = prepend (front ++ back) rest := by
  cases rest <;> simp [prepend]

theorem mark_not_zero {language : Language} {c : Char} {marks : List Token}
    (mark : mark? language c = some marks) : c ≠ '0' := by
  have numeral : mark? language '0' = none := by cases language <;> rfl
  rintro rfl
  rw [numeral] at mark
  contradiction

theorem scan_mark {language : Language} {c : Char} {marks : List Token}
    (mark : mark? language c = some marks) (rest : Text) :
    scan language .nothing (c :: rest) = prepend marks (scan language .nothing rest) := by
  rw [scan, if_neg (mark_not_zero mark), mark]
  rfl

theorem scan_marks {language : Language} {marks : Text} {tokens : List Token}
    (noNumeral : '0' ∉ marks) (scanned : scan language .nothing marks = some tokens) (rest : Text) :
    scan language .nothing (marks ++ rest) = prepend tokens (scan language .nothing rest) := by
  induction marks generalizing tokens with
  | nil =>
      obtain rfl : [] = tokens := Option.some.inj scanned
      exact (prepend_nil _).symm
  | cons c marks ih =>
      obtain ⟨other, later⟩ := not_or.mp (mt List.mem_cons.mpr noNumeral)
      rw [scan, if_neg (Ne.symm other)] at scanned
      obtain ⟨first, mark, others⟩ := Option.bind_eq_some_iff.mp scanned
      obtain ⟨following, scannedLater, rfl⟩ := Option.map_eq_some_iff.mp others
      rw [List.cons_append, scan_mark mark, ih later scannedLater, prepend_prepend]

theorem scan_digits_stop (language : Language) {taken rest : Text} {c : Char}
    (begun : taken ≠ []) (stops : Numeral.hexDigit? c = none) :
    scan language (.digits taken) (c :: rest) =
      prepend [.numeral taken] (scan language .nothing (c :: rest)) := by
  have notZero : c ≠ '0' := by
    rintro rfl
    exact absurd stops (by decide)
  simp only [scan, stops, if_neg begun, if_neg notZero, Option.isSome_none, Bool.false_eq_true,
    if_false]
  cases mark? language c with
  | none => rfl
  | some marks => exact (prepend_prepend [.numeral taken] marks _).symm

theorem scan_digits (language : Language) {digits taken rest : Text}
    (hex : ∀ c ∈ digits, (Numeral.hexDigit? c).isSome) (begun : taken ++ digits ≠ [])
    (ends : EndsNumeral rest) :
    scan language (.digits taken) (digits ++ rest) =
      prepend [.numeral (taken ++ digits)] (scan language .nothing rest) := by
  -- The scanner keeps what it has taken, so the digits move from the text into its state.
  induction digits generalizing taken with
  | nil =>
      rw [List.append_nil] at begun ⊢
      cases rest with
      | nil =>
          obtain ⟨first, others, rfl⟩ := List.exists_cons_of_ne_nil begun
          rfl
      | cons c rest => exact scan_digits_stop language begun (ends c rfl)
  | cons c digits ih =>
      have digit := hex c List.mem_cons_self
      have others := fun d member => hex d (List.mem_cons_of_mem c member)
      rw [List.cons_append, scan, if_pos digit, ih others (by simp)]
      rw [List.append_assoc, List.singleton_append]

theorem scan_value (language : Language) (style : Style) (row : Nat) {rest : Text}
    (ends : EndsNumeral rest) :
    scan language .nothing (value style row ++ rest) =
      prepend [.numeral (Numeral.hexadecimal style.letterCase style.element.hexDigits row)]
        (scan language .nothing rest) := by
  have hex : ∀ c ∈ Numeral.hexadecimal style.letterCase style.element.hexDigits row,
      (Numeral.hexDigit? c).isSome := by
    intro c member
    exact Numeral.is_some_hex_digit?_of_mem member
  have begun := Numeral.hexadecimal_ne_nil style.letterCase style.element.hexDigits row
  exact scan_digits language hex begun ends

end Bitfont.Literal
