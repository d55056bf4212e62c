import Bitfont.FontLibrary
import Bitfont.Raster.Sweep
import Bitfont.Sfnt.Font

namespace Bitfont.Sfnt

def pixelsPerUnit (font : Font) (size : Binary32) : Rat := (size.value?.getD 0) / font.unitsPerEm

-- Rounded twice, as products of numbers with 32 bits are.
def ascent (font : Font) (size : Binary32) : Binary32 :=
  let scale := Binary32.ofRat (pixelsPerUnit font size)
  Binary32.ofRat ((scale.value?.getD 0) * font.ascender)

def outline (font : Font) (index : UInt16) (size : Binary32) : List Raster.Polygon :=
  let scale := pixelsPerUnit font size
  (font.contours index.toNat).map fun contour =>
    contour.map fun point => ⟨point.1 * scale, -(point.2 * scale)⟩

-- Rows are counted downwards in the area, and upwards in the metrics.
def rasterize (font : Font) (index : UInt16) (size : Binary32) : Metrics × Array UInt8 :=
  let area := Raster.Area.ofPolygons (outline font index size)
  ({ width := UInt64.ofNat area.width
     height := UInt64.ofNat area.height
     xmin := Int32.ofIntClamp area.left
     ymin := Int32.ofIntClamp (-(area.top + area.height)) },
   area.coverage)

def library : FontLibrary where
  Font := Font
  parse data _ := (Font.parse data).mapError LoadError.message
  ascent? font size := some (ascent font size)
  glyphIndex font c := UInt16.ofNat ((font.glyph? c.toNat).getD 0)
  rasterize := rasterize

end Bitfont.Sfnt
