namespace Bitfont

inductive Binary32 where
  | nan
  | infinite (negative : Bool)
  -- The magnitude is `significand * 2 ^ exponent / 2 ^ 149`.
  | finite (negative : Bool) (significand exponent : Nat)
deriving DecidableEq, Repr

namespace Binary32

def unitsPerOne : Nat := 1 <<< 149

def maxExponent : Nat := 253

def normalSignificand : Nat := 0x800000

-- Sign, eight bits of exponent and 23 of fraction, from the highest bit down.
def ofBits (bits : Nat) : Binary32 :=
  let negative := bits.testBit 31
  let exponent := bits / normalSignificand % 256
  let fraction := bits % normalSignificand
  if exponent = 255 then if fraction = 0 then infinite negative else nan
  else if exponent = 0 then finite negative fraction 0
  else finite negative (normalSignificand + fraction) (exponent - 1)

def signBit (negative : Bool) : Nat := if negative then 0x80000000 else 0

def toBits : Binary32 → Nat
  | nan => 0x7FC00000
  | infinite negative => signBit negative + 0x7F800000
  | finite negative significand exponent =>
      signBit negative +
        if significand < normalSignificand then significand
        else exponent * normalSignificand + significand

def value? : Binary32 → Option Rat
  | finite negative significand exponent =>
      let magnitude := mkRat (significand <<< exponent : Nat) unitsPerOne
      some (if negative then -magnitude else magnitude)
  | _ => none

def divideEven (num den : Nat) : Nat :=
  let quotient := num / den
  let rest := num % den
  if 2 * rest < den then quotient
  else if den < 2 * rest then quotient + 1
  else quotient + quotient % 2

def bounded (negative : Bool) (significand exponent : Nat) : Binary32 :=
  if maxExponent < exponent then infinite negative else finite negative significand exponent

-- The number nearest to `num / den` units. The exponent is the least for which the significand keeps
-- to 24 bits.
def ofUnits (negative : Bool) (num den : Nat) : Binary32 :=
  let exponent := (num / den).log2 - 23
  let significand := divideEven num (den <<< exponent)
  if significand = 2 * normalSignificand then bounded negative normalSignificand (exponent + 1)
  else bounded negative significand exponent

def ofRatio (negative : Bool) (num den : Nat) : Binary32 := ofUnits negative (num * unitsPerOne) den

def ofRat (value : Rat) : Binary32 := ofRatio (value < 0) value.num.natAbs value.den

end Binary32
end Bitfont
