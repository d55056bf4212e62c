import Bitfont.GlyphImage
import Bitfont.Word

namespace Bitfont

structure Bitmap where
  -- Row by row; a missing value counts as zero.
  coverage : Array UInt8
  width : UInt64
  height : UInt64
  -- The column and the row of the cell that hold the first column and the first row.
  left : Int32
  top : Int32
deriving DecidableEq

namespace Bitmap

-- An overflow anywhere on the way gives `none`, here and below.
def valueAt? (bitmap : Bitmap) (column row : UInt64) : Option UInt8 :=
  if column < bitmap.width ∧ row < bitmap.height then do
    let start ← Offset.times? row bitmap.width
    let index ← Offset.plus? start column
    return bitmap.coverage[index.toNat]?.getD 0
  else some 0

def sample? (bitmap : Bitmap) (x y : Nat) : Option UInt8 := do
  let column ← Place.minus? (Int32.ofNat x) bitmap.left
  let row ← Place.minus? (Int32.ofNat y) bitmap.top
  if 0 ≤ column ∧ 0 ≤ row then
    bitmap.valueAt? (UInt64.ofNat column.toNatClampNeg) (UInt64.ofNat row.toNatClampNeg)
  else some 0

def draw? (bitmap : Bitmap) (cell : Cell) : Option GlyphImage :=
  GlyphImage.ofFn? cell fun x y => (bitmap.sample? x y).map (0 < ·)

end Bitmap
end Bitfont
