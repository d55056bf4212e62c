import Bitfont.Sfnt.Words

-- Simple glyphs alone, whose points are joined by straight lines.

namespace Bitfont.Sfnt

abbrev Point := Int × Int

abbrev Contour := List Point

structure Axis where
  shortBit : Nat
  sameBit : Nat

def Axis.x : Axis := ⟨1, 4⟩
def Axis.y : Axis := ⟨2, 5⟩

def repeatBit : Nat := 3

def repetition? (data : Array UInt8) (flag position : Nat) : Option (Nat × Nat) :=
  if flag.testBit repeatBit then
    (word8? data (position + 1)).map fun more => (more + 1, position + 2)
  else some (1, position + 1)

def flags? (data : Array UInt8) (count position : Nat) : Option (List Nat × Nat) :=
  if count = 0 then some ([], position)
  else
    match word8? data position with
    | none => none
    | some flag =>
        match repetition? data flag position with
        | none => none
        | some (times, next) =>
            if times = 0 ∨ count < times then none
            else
              (flags? data (count - times) next).map fun (rest, stop) =>
                (List.replicate times flag ++ rest, stop)
termination_by count
decreasing_by omega

def step? (data : Array UInt8) (axis : Axis) (flag position : Nat) : Option (Int × Nat) :=
  let same := flag.testBit axis.sameBit
  if flag.testBit axis.shortBit then
    (word8? data position).map fun size => (if same then (size : Int) else -size, position + 1)
  else if same then some (0, position)
  else (word16? data position).map fun word => (signed16 word, position + 2)

-- One coordinate per flag, kept to 16 bits, and the position after the last.
def coordinates? (data : Array UInt8) (axis : Axis) :
    (flags : List Nat) → (position : Nat) → (last : Int) → Option (List Int × Nat)
  | [], position, _ => some ([], position)
  | flag :: flags, position, last => do
      let (step, next) ← step? data axis flag position
      let value := Int.bmod (last + step) 0x10000
      let (rest, stop) ← coordinates? data axis flags next value
      return (value :: rest, stop)

def contours : (start : Nat) → (ends : List Nat) → List Point → List Contour
  | _, [], _ => []
  | start, stop :: ends, points =>
      points.take (stop + 1 - start) :: contours (stop + 1) ends (points.drop (stop + 1 - start))

def maxPointCount : Nat := 0xFFFF

-- The outline in a glyph's data. A glyph made of others has none here.
def outline? (data : Array UInt8) : Option (List Contour) := do
  let contourCount := signed16 (← word16? data 0)
  if contourCount ≤ 0 then none
  let count := contourCount.toNat
  let ends ← words16? data 10 count
  let pointCount := (← ends.getLast?) + 1
  if maxPointCount < pointCount then none
  let instructions ← word16? data (10 + 2 * count)
  let (flags, afterFlags) ← flags? data pointCount (12 + 2 * count + instructions)
  let (xs, afterXs) ← coordinates? data .x flags afterFlags 0
  let (ys, _) ← coordinates? data .y flags afterXs 0
  return contours 0 ends (xs.zip ys)

end Bitfont.Sfnt
