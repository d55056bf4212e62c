import Bitfont.Binary32
import Bitfont.Text.Numeral

namespace Bitfont.Binary32

inductive Fault where
  | empty
  | invalid
deriving DecidableEq, Repr

def Fault.message : Fault → String
  | .empty => "cannot parse float from empty string"
  | .invalid => "invalid float literal"

structure Scientific where
  digits : Nat
  exponent : Int
deriving DecidableEq, Repr

def powerOfTen (exponent : Nat) : Nat := Nat.pow 10 exponent

namespace Scientific

-- The number nearest to a decimal. Magnitudes far outside the range are settled by the count of
-- their digits.
def round (negative : Bool) (decimal : Scientific) : Binary32 :=
  let leading := (Numeral.decimal decimal.digits).length + decimal.exponent
  if decimal.digits = 0 ∨ leading ≤ -46 then finite negative 0 0
  else if 40 ≤ leading then infinite negative
  else if 0 ≤ decimal.exponent then
    ofRatio negative (decimal.digits * powerOfTen decimal.exponent.toNat) 1
  else ofRatio negative decimal.digits (powerOfTen (-decimal.exponent).toNat)

def text (decimal : Scientific) : Text :=
  let digits := Numeral.decimal decimal.digits
  if 0 ≤ decimal.exponent then digits ++ List.replicate decimal.exponent.toNat '0'
  else
    let places := (-decimal.exponent).toNat
    let padded := digits.leftpad (places + 1) '0'
    padded.take (padded.length - places) ++ '.' :: padded.drop (padded.length - places)

end Scientific

def digitsValue (digits : Text) : Nat :=
  digits.foldl (fun value c => 10 * value + (c.toNat - '0'.toNat)) 0

def readExponent : Text → Option Int
  | [] => some 0
  | c :: rest =>
      if c = 'e' ∨ c = 'E' then
        let (negative, digits) :=
          match rest with
          | '-' :: digits => (true, digits)
          | '+' :: digits => (false, digits)
          | digits => (false, digits)
        if digits.isEmpty ∨ !digits.all Text.isAsciiDigit then none
        else some (if negative then -(digitsValue digits : Int) else digitsValue digits)
      else none

def readScientific (text : Text) : Option Scientific :=
  let whole := text.takeWhile Text.isAsciiDigit
  let (places, rest) :=
    match text.dropWhile Text.isAsciiDigit with
    | '.' :: rest => (rest.takeWhile Text.isAsciiDigit, rest.dropWhile Text.isAsciiDigit)
    | rest => ([], rest)
  if (whole ++ places).isEmpty then none
  else
    (readExponent rest).map fun exponent =>
      ⟨digitsValue (whole ++ places), exponent - places.length⟩

def readMagnitude (negative : Bool) (text : Text) : Except Fault Binary32 :=
  match readScientific text with
  | some decimal => .ok (decimal.round negative)
  | none =>
      let name := text.map Char.toLower
      if name = "inf".toList ∨ name = "infinity".toList then .ok (infinite negative)
      else if name = "nan".toList then .ok nan
      else .error .invalid

def read : Text → Except Fault Binary32
  | [] => .error .empty
  | '-' :: rest => readMagnitude true rest
  | '+' :: rest => readMagnitude false rest
  | text => readMagnitude false text

-- The power of ten next above `num / den`, which must be a positive finite number.
def leadingPower (num den : Nat) : Int :=
  if den ≤ num then (Numeral.decimal (num / den)).length
  else
    match (List.range 46).find? fun k => den ≤ num * powerOfTen k with
    | some k => 1 - k
    | none => -45

def neighbours (num den count : Nat) : List Scientific :=
  let exponent := leadingPower num den - count
  let (num, den) :=
    if 0 ≤ exponent then (num, den * powerOfTen exponent.toNat)
    else (num * powerOfTen (-exponent).toNat, den)
  let below := num / den
  if den ≤ 2 * (num % den) then [⟨below + 1, exponent⟩, ⟨below, exponent⟩]
  else [⟨below, exponent⟩, ⟨below + 1, exponent⟩]

def dropZero (decimal : Scientific) : Scientific :=
  if decimal.exponent < 0 ∧ decimal.digits % 10 = 0 then
    ⟨decimal.digits / 10, decimal.exponent + 1⟩
  else decimal

-- The decimal with the fewest digits that reads back as the positive finite number given; nine
-- digits are always enough.
def shortest (significand exponent : Nat) : Scientific :=
  let num := significand <<< exponent
  let candidates := (List.range' 1 9).flatMap (neighbours num unitsPerOne)
  match candidates.find? fun decimal => decimal.round false = finite false significand exponent with
  | some decimal => dropZero decimal
  | none => ⟨0, 0⟩

def magnitudeText (significand exponent : Nat) : Text :=
  if significand = 0 then ['0'] else (shortest significand exponent).text

def text : Binary32 → String
  | nan => "NaN"
  | infinite negative => if negative then "-inf" else "inf"
  | finite negative significand exponent =>
      (if negative then "-" else "") ++ String.ofList (magnitudeText significand exponent)

end Bitfont.Binary32
