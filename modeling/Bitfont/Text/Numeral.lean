import Bitfont.Text

namespace Bitfont.Numeral

def decimal (n : Nat) : Text := Nat.toDigits 10 n

inductive LetterCase where
  | lower
  | upper
deriving DecidableEq, Repr

def hexadecimal (letters : LetterCase) (width n : Nat) : Text :=
  let digits := (Nat.toDigits 16 n).leftpad width '0'
  match letters with
  | .lower => digits
  | .upper => digits.map Char.toUpper

inductive Fault where
  | empty
  | invalidDigit
  | tooLarge
  | tooSmall
  | zero
deriving DecidableEq, Repr

def Fault.message : Fault → String
  | .empty => "cannot parse integer from empty string"
  | .invalidDigit => "invalid digit found in string"
  | .tooLarge => "number too large to fit in target type"
  | .tooSmall => "number too small to fit in target type"
  | .zero => "number would be zero for non-zero type"

-- The magnitude of a digit string. Digits are taken one by one, so of a bad digit and an excess the
-- one further left is reported.
def magnitude (limit : Nat) (excess : Fault) : (value : Nat) → Text → Except Fault Nat
  | value, [] => .ok value
  | value, c :: rest =>
      if Text.isAsciiDigit c then
        let next := 10 * value + (c.toNat - '0'.toNat)
        if next ≤ limit then magnitude limit excess next rest else .error excess
      else .error .invalidDigit

def readNatural (limit : Nat) : Text → Except Fault Nat
  | [] => .error .empty
  | ['+'] => .error .invalidDigit
  | '+' :: digits => magnitude limit .tooLarge 0 digits
  | digits => magnitude limit .tooLarge 0 digits

def maxInteger : Nat := 0x7FFFFFFFFFFFFFFF

def readInteger : Text → Except Fault Int
  | [] => .error .empty
  | ['+'] | ['-'] => .error .invalidDigit
  | '+' :: digits => (magnitude maxInteger .tooLarge 0 digits).map Int.ofNat
  | '-' :: digits =>
      (magnitude (maxInteger + 1) .tooSmall 0 digits).map fun value => -Int.ofNat value
  | digits => (magnitude maxInteger .tooLarge 0 digits).map Int.ofNat

def readPositive (limit : Nat) (text : Text) : Except Fault Nat := do
  let value ← readNatural limit text
  if value = 0 then .error .zero else .ok value

end Bitfont.Numeral
