import Bitfont.PackedRow
import Bitfont.Word

namespace Bitfont

def Cell.rowBytes (cell : Cell) : Nat := (cell.width + 7) / 8
def Cell.glyphBytes (cell : Cell) : Nat := cell.rowBytes * cell.height

structure Scanline where
  width : Nat
  bytes : List UInt8
deriving DecidableEq

namespace Scanline

def value (row : Scanline) : Nat := PackedRow.ofBytes row.bytes
def pixels (row : Scanline) : List Bool := PackedRow.pixels row.width row.value

end Scanline

structure Glyph where
  cell : Cell
  data : Array UInt8
deriving DecidableEq

namespace Glyph

def row? (glyph : Glyph) (y : Nat) : Option Scanline :=
  if y < glyph.cell.height then
    (slice? glyph.data (glyph.cell.rowBytes * y) glyph.cell.rowBytes).map (⟨glyph.cell.width, ·⟩)
  else none

def rows (glyph : Glyph) : List Scanline := (List.range glyph.cell.height).filterMap glyph.row?

def pixel? (glyph : Glyph) (x y : Nat) : Option Bool := do (← glyph.row? y).pixels[x]?

end Glyph

structure PackedGlyphs where
  cell : Cell
  data : Array UInt8
deriving DecidableEq

namespace PackedGlyphs

def glyphCount (glyphs : PackedGlyphs) : Nat := glyphs.data.size / glyphs.cell.glyphBytes

def rowCount (glyphs : PackedGlyphs) : Nat := glyphs.data.size / glyphs.cell.rowBytes

-- Counts a short last group as a group; zero when a glyph has no rows.
def groupCount (glyphs : PackedGlyphs) : Nat :=
  (glyphs.rowCount + glyphs.cell.height - 1) / glyphs.cell.height

def leftoverRows (glyphs : PackedGlyphs) : Nat :=
  glyphs.rowCount - glyphs.glyphCount * glyphs.cell.height

def row? (glyphs : PackedGlyphs) (index : Nat) : Option Nat :=
  (slice? glyphs.data (index * glyphs.cell.rowBytes) glyphs.cell.rowBytes).map PackedRow.ofBytes

-- The same row by offsets of 64 bits. One that does not fit ends the lookup.
def wordRow? (glyphs : PackedGlyphs) (index : UInt64) : Option Nat := do
  let rowBytes := UInt64.ofNat glyphs.cell.rowBytes
  let start ← Offset.times? index rowBytes
  let stop ← Offset.plus? start rowBytes
  (Offset.slice? glyphs.data start stop).map PackedRow.ofBytes

def glyph? (glyphs : PackedGlyphs) (index : Nat) : Option Glyph :=
  if index < glyphs.glyphCount then
    let size := glyphs.cell.glyphBytes
    some ⟨glyphs.cell, glyphs.data.extract (index * size) (index * size + size)⟩
  else none

def glyphs (glyphs : PackedGlyphs) : List Glyph :=
  (List.range glyphs.glyphCount).filterMap glyphs.glyph?

end PackedGlyphs
end Bitfont
