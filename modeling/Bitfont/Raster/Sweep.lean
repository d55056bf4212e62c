import Bitfont.Raster.Polygon

namespace Bitfont.Raster

structure Crossing where
  edge : Edge
  first : Int
  last : Int

def Crossing.ofEdge (edge : Edge) : Crossing where
  edge := edge
  first := (lesser edge.start.x edge.stop.x).floor
  last := (greater edge.start.x edge.stop.x).ceil

structure Sweep where
  -- The summed descents of the crossings that lie to the left of the column.
  passed : Rat
  active : List Crossing
  waiting : List Crossing

namespace Sweep

def ofEdges (edges : List Edge) : Sweep where
  passed := 0
  active := []
  waiting := (edges.map Crossing.ofEdge).mergeSort fun a b => a.first ≤ b.first

def sum (values : List Rat) : Rat := values.foldl (· + ·) 0

def moveTo (column : Int) (sweep : Sweep) : Sweep :=
  let (reached, waiting) := sweep.waiting.span (·.first ≤ column)
  let (left, active) := (reached ++ sweep.active).partition (·.last ≤ column)
  { passed := sweep.passed + sum (left.map (·.edge.descent)), active, waiting }

def area (column : Int) (sweep : Sweep) : Rat :=
  sweep.passed + sum (sweep.active.map fun crossing => crossing.edge.areaBefore (column + 1 : Int))

end Sweep

-- Full coverage is 255; a share below 1/255.9 of a pixel counts as none.
def coverageOfArea (area : Rat) : UInt8 :=
  UInt8.ofNat (min 255 (greater area (-area) * 2559 / 10).floor.toNat)

def rowCoverage : (count : Nat) → (column : Int) → Sweep → List UInt8
  | 0, _, _ => []
  | count + 1, column, sweep =>
      let sweep := sweep.moveTo column
      coverageOfArea (sweep.area column) :: rowCoverage count (column + 1) sweep

def extent : List Rat → Int × Nat
  | [] => (0, 0)
  | first :: rest =>
      let low := (rest.foldl lesser first).floor
      (low, ((rest.foldl greater first).ceil - low).toNat)

structure Area where
  left : Int
  top : Int
  width : Nat
  height : Nat
  coverage : Array UInt8

def Area.ofPolygons (polygons : List Polygon) : Area :=
  let corners := polygons.flatten
  let edges := (polygons.flatMap Polygon.edges).filter (!·.isLevel)
  let (left, width) := extent (corners.map (·.x))
  let (top, height) := extent (corners.map (·.y))
  let rows := (List.range height).map fun row : Nat =>
    rowCoverage width left (.ofEdges (edges.filterMap (Edge.withinRow? ((top + row : Int) : Rat))))
  { left, top, width, height, coverage := rows.flatten.toArray }

end Bitfont.Raster
