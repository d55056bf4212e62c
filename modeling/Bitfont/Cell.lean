namespace Bitfont

structure Cell where
  width : Nat
  height : Nat
deriving DecidableEq, Repr

namespace Cell

def area (cell : Cell) : Nat := cell.width * cell.height

def text (cell : Cell) : String := s!"{cell.width}x{cell.height}"

theorem index_lt_area {cell : Cell} {x y : Nat} (hx : x < cell.width) (hy : y < cell.height) :
    y * cell.width + x < cell.area := by
  have rowEnd : (y + 1) * cell.width ≤ cell.height * cell.width := Nat.mul_le_mul_right _ hy
  rw [Nat.succ_mul, Nat.mul_comm cell.height] at rowEnd
  unfold area
  omega

end Cell
end Bitfont
