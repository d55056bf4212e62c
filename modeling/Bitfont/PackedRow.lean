import Bitfont.GlyphImage

namespace Bitfont

def maxRowWidth : Nat := 16

inductive CellFault where
  | mismatch (expected actual : Cell)
  | tooWide (width : Nat)
deriving DecidableEq, Repr

def CellFault.message : CellFault → String
  | .mismatch expected actual =>
      s!"invalid glyph dimensions: expected {expected.text} but got {actual.text}"
  | .tooWide width =>
      s!"unsupported glyph width: {width} pixels exceeds the maximum of {maxRowWidth}"

namespace PackedRow

def ofPixels (pixels : List Bool) : Nat := pixels.foldl (fun value on => 2 * value + on.toNat) 0

def pack (pixels : List Bool) : Except CellFault Nat :=
  if maxRowWidth < pixels.length then .error (.tooWide pixels.length)
  else .ok (ofPixels pixels)

-- Pixel `x` of a row of `width` pixels; positions past the sixteenth bit are background.
def pixel (width value x : Nat) : Bool := value.testBit (width - 1 - x)

def pixels (width value : Nat) : List Bool := (List.range width).map (pixel width value)

-- The low sixteen bits of the big-endian number that the bytes spell.
def ofBytes (bytes : List UInt8) : Nat :=
  bytes.foldl (fun value byte => (value * 256 + byte.toNat) % 0x10000) 0

def toBytes (byteCount value : Nat) : List UInt8 :=
  (List.range byteCount).map fun i => UInt8.ofNat (value >>> (8 * (byteCount - 1 - i)))

end PackedRow

def GlyphImage.pack (image : GlyphImage) (cell : Cell) : Except CellFault (List Nat) :=
  if image.cell ≠ cell then .error (.mismatch cell image.cell)
  else if maxRowWidth < cell.width then .error (.tooWide cell.width)
  else image.rows.mapM PackedRow.pack

end Bitfont
