import Bitfont.Text

-- The area of a polygon inside a pixel is the sum of what lies to the right of its edges there, with the
-- direction of each edge. Opposite directions cancel, so a contour inside another cuts a hole when it runs the
-- other way round.

namespace Bitfont.Raster

def lesser (a b : Rat) : Rat := if a ≤ b then a else b
def greater (a b : Rat) : Rat := if a ≤ b then b else a

structure Point where
  x : Rat
  y : Rat
deriving DecidableEq

abbrev Polygon := List Point

structure Edge where
  start : Point
  stop : Point
deriving DecidableEq

namespace Edge

def isLevel (edge : Edge) : Bool := edge.start.y = edge.stop.y

def descent (edge : Edge) : Rat := edge.stop.y - edge.start.y

def atHeight (edge : Edge) (y : Rat) : Point :=
  let slope := (edge.stop.x - edge.start.x) / edge.descent
  ⟨edge.start.x + slope * (y - edge.start.y), y⟩

def withinRow? (row : Rat) (edge : Edge) : Option Edge :=
  let low := greater (lesser edge.start.y edge.stop.y) row
  let high := lesser (greater edge.start.y edge.stop.y) (row + 1)
  if high ≤ low then none
  else if edge.start.y < edge.stop.y then some ⟨edge.atHeight low, edge.atHeight high⟩
  else some ⟨edge.atHeight high, edge.atHeight low⟩

-- The area under `min 1 (max 0 u)` from zero to `u`.
def clampArea (u : Rat) : Rat := if u ≤ 0 then 0 else if u ≤ 1 then u * u / 2 else u - 1 / 2

-- The mean of `min 1 (max 0 u)` as `u` goes from `a` to `b`.
def clampMean (a b : Rat) : Rat :=
  if a = b then greater 0 (lesser 1 a) else (clampArea b - clampArea a) / (b - a)

-- The area in the pixel column that ends at `border` to the right of the line, negative for a line
-- that goes upwards.
def areaBefore (border : Rat) (edge : Edge) : Rat :=
  edge.descent * clampMean (border - edge.start.x) (border - edge.stop.x)

end Edge

def Polygon.edges (corners : Polygon) : List Edge :=
  (corners.zip (corners.drop 1 ++ corners.take 1)).map fun (start, stop) => ⟨start, stop⟩

end Bitfont.Raster
