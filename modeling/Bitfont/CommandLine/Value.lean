import Bitfont.Binary32.Decimal
import Bitfont.Literal.Style
import Bitfont.SizedFont
import Bitfont.Text.Utf8

namespace Bitfont.CommandLine

inductive ValueFault where
  | notAllowed
  | notUtf8
  | rejected (message : String)
deriving DecidableEq, Repr

abbrev ValueReader (α : Type) := Octets → Except ValueFault α

namespace ValueReader

def into {α δ : Type} (reader : ValueReader α) (store : α → δ → δ) : ValueReader (δ → δ) :=
  fun value => (reader value).map store

def path : ValueReader Octets := fun value =>
  if value.isEmpty then .error .notAllowed else .ok value

def text : ValueReader Text := fun value =>
  match Utf8.decode? value with
  | none => .error .notUtf8
  | some text => .ok text

def word {α : Type} (words : List (String × α)) : ValueReader α := fun value =>
  match words.find? fun word => some word.1.toList = Utf8.decode? value with
  | none => .error .notAllowed
  | some word => .ok word.2

def integer (low high : Nat) : ValueReader Nat := fun value => do
  match Numeral.readInteger (← text value) with
  | .error fault => .error (.rejected fault.message)
  | .ok number =>
      if low ≤ number ∧ number ≤ high then .ok number.toNat
      else .error (.rejected s!"{number} is not in {low}..={high}")

def maxCount : Nat := 0xFFFFFFFFFFFFFFFF

def count : ValueReader Nat := fun value => do
  (Numeral.readNatural maxCount (← text value)).mapError fun fault => .rejected fault.message

def positiveCount : ValueReader Nat := fun value => do
  (Numeral.readPositive maxCount (← text value)).mapError fun fault => .rejected fault.message

def size : ValueReader Binary32 := fun value => do
  match Binary32.read (← text value) with
  | .error fault => .error (.rejected fault.message)
  | .ok size =>
      if SizedFont.isRenderableSize size then .ok size
      else .error (.rejected s!"expected a size between {SizedFont.smallestSize} and {SizedFont.largestSize}")

def language : ValueReader Literal.Language := word [("c", .c), ("rust", .rust)]
def layout : ValueReader Literal.Layout := word [("flat", .flat), ("grouped", .grouped)]
def element : ValueReader Literal.Element := word [("u8", .u8), ("u16", .u16)]
def letterCase : ValueReader Literal.LetterCase := word [("lower", .lower), ("upper", .upper)]

end ValueReader
end Bitfont.CommandLine
