import Bitfont.Text.Numeral

namespace Bitfont.Literal

export Numeral (LetterCase)

inductive Language where
  | c
  | rust
deriving DecidableEq, Repr

inductive Layout where
  | flat
  | grouped
deriving DecidableEq, Repr

inductive Element where
  | u8
  | u16
deriving DecidableEq, Repr

namespace Element

def bits : Element → Nat
  | .u8 => 8
  | .u16 => 16

def hexDigits : Element → Nat
  | .u8 => 2
  | .u16 => 4

def narrowest (width : Nat) : Option Element :=
  if width ≤ 8 then some .u8 else if width ≤ 16 then some .u16 else none

def spelling (stdint : Bool) : Language → Element → String
  | .c, .u8 => if stdint then "uint8_t" else "unsigned char"
  | .c, .u16 => if stdint then "uint16_t" else "unsigned short"
  | .rust, .u8 => "u8"
  | .rust, .u16 => "u16"

end Element

structure Style where
  symbol : Text
  language : Language
  layout : Layout
  element : Element
  letterCase : LetterCase
  wrap : Option Nat
  constant : Bool
  stdint : Bool
  origin : Option Text
deriving DecidableEq, Repr

namespace Style

def grouped (symbol : Text) : Style where
  symbol := symbol
  language := .c
  layout := .grouped
  element := .u8
  letterCase := .upper
  wrap := none
  constant := false
  stdint := false
  origin := none

def flat (symbol : Text) : Style where
  symbol := symbol
  language := .c
  layout := .flat
  element := .u8
  letterCase := .lower
  wrap := some 12
  constant := true
  stdint := true
  origin := none

end Style
end Bitfont.Literal
