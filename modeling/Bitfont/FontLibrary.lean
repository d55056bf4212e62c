import Bitfont.Binary32

namespace Bitfont

structure Metrics where
  width : UInt64
  height : UInt64
  -- The lower left corner, to the right of the origin and above the baseline.
  xmin : Int32
  ymin : Int32
deriving DecidableEq

structure FontLibrary where
  Font : Type
  parse : (data : Array UInt8) → (size : Binary32) → Except String Font
  ascent? : Font → (size : Binary32) → Option Binary32
  -- Zero is the glyph that stands for missing ones.
  glyphIndex : Font → Char → UInt16
  rasterize : Font → (index : UInt16) → (size : Binary32) → Metrics × Array UInt8

end Bitfont
