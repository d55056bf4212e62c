import Bitfont.PackedGlyphs

namespace Bitfont

def maxCode : Nat := 0xFFFFFFFF

structure CodeRange where
  first : Nat
  last : Nat
deriving DecidableEq, Repr

namespace CodeRange

def size (codes : CodeRange) : Nat := codes.last - codes.first

def text (codes : CodeRange) : String := s!"{codes.first}..{codes.last}"

end CodeRange

structure Strike where
  first : Nat
  cell : Cell
  data : Array UInt8
deriving DecidableEq

namespace Strike

def empty (first : Nat) (cell : Cell) : Except CellFault Strike :=
  if maxRowWidth < cell.width then .error (.tooWide cell.width)
  else .ok ⟨first, cell, #[]⟩

def push (strike : Strike) (image : GlyphImage) : Except CellFault Strike := do
  let rows ← image.pack strike.cell
  let bytes := rows.flatMap (PackedRow.toBytes strike.cell.rowBytes)
  return { strike with data := strike.data ++ bytes }

def glyphs (strike : Strike) : PackedGlyphs := ⟨strike.cell, strike.data⟩

def size (strike : Strike) : Nat := strike.glyphs.glyphCount

def isEmpty (strike : Strike) : Bool := strike.data.isEmpty

-- The end of the range stays within the character codes.
def codes (strike : Strike) : CodeRange :=
  ⟨strike.first, min (strike.first + min strike.size maxCode) maxCode⟩

def glyph? (strike : Strike) (code : Nat) : Option Glyph :=
  if strike.first ≤ code then strike.glyphs.glyph? (code - strike.first) else none

def image? (strike : Strike) (code : Nat) : Option GlyphImage :=
  (strike.glyph? code).map fun glyph =>
    GlyphImage.ofFn strike.cell fun x y => (glyph.pixel? x y).getD false

end Strike
end Bitfont
