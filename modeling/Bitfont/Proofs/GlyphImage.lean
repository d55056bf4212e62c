import Mathlib.Data.List.Basic
import Bitfont.GlyphImage

namespace Bitfont.GlyphImage

variable (image : GlyphImage)

theorem pixel?_eq_some {x y : Nat} (hx : x < image.cell.width) (hy : y < image.cell.height) :
    ∃ on, image.pixel? x y = some on := by
  rw [pixel?_inside image hx hy]
  exact ⟨_, Vector.getElem?_eq_getElem (Cell.index_lt_area hx hy)⟩

def line (y : Nat) : List Bool :=
  (List.range image.cell.width).map fun x => (image.pixel? x y).getD false

@[simp] theorem line_length (y : Nat) : (image.line y).length = image.cell.width := by simp [line]

theorem line_get_elem? {x y : Nat} (hx : x < image.cell.width) (hy : y < image.cell.height) :
    (image.line y)[x]? = image.pixel? x y := by
  obtain ⟨on, pixel⟩ := image.pixel?_eq_some hx hy
  simp [line, hx, pixel]

theorem row?_eq_line {y : Nat} (hy : y < image.cell.height) : image.row? y = some (image.line y) := by
  have rowEnd : y * image.cell.width + image.cell.width ≤ image.cell.area := by
    have step : (y + 1) * image.cell.width ≤ image.cell.height * image.cell.width :=
      Nat.mul_le_mul_right _ hy
    rw [Nat.succ_mul, Nat.mul_comm image.cell.height] at step
    exact step
  rw [row?, if_pos hy, slice?, if_pos (by simpa only [Vector.size_toArray] using rowEnd)]
  refine congrArg some (List.ext_getElem? ?_)
  intro x
  by_cases hx : x < image.cell.width
  · rw [line_get_elem? image hx hy, pixel?_inside image hx hy]
    simp only [Array.getElem?_toList, Array.getElem?_extract, Vector.getElem?_toArray]
    rw [if_pos (by simp only [Vector.size_toArray]; omega)]
  · have short : (image.line y).length ≤ x := by
      rw [line_length]
      omega
    rw [List.getElem?_eq_none short, List.getElem?_eq_none]
    simp only [Array.length_toList, Array.size_extract, Vector.size_toArray]
    omega

theorem rows_eq_map_line : image.rows = (List.range image.cell.height).map image.line := by
  apply List.filterMap_eq_map_iff_forall_eq_some.mpr
  intro y member
  exact image.row?_eq_line (List.mem_range.mp member)

theorem set_cell (x y : Nat) (on : Bool) : (image.set x y on).1.cell = image.cell := by
  unfold set
  split <;> rfl

theorem ext_pixel? {image other : GlyphImage} (sameCell : image.cell = other.cell)
    (samePixels : ∀ x y, x < image.cell.width → y < image.cell.height →
      image.pixel? x y = other.pixel? x y) : image = other := by
  obtain ⟨cell, pixels⟩ := image
  obtain ⟨cell', pixels'⟩ := other
  obtain rfl : cell = cell' := sameCell
  congr 1
  apply Vector.ext
  intro index inside
  have positive : 0 < cell.width := by
    apply Nat.pos_of_ne_zero
    intro zero
    simp [Cell.area, zero] at inside
  have column := Nat.mod_lt index positive
  have line : index / cell.width < cell.height := Nat.div_lt_of_lt_mul inside
  have same := samePixels (index % cell.width) (index / cell.width) column line
  rw [pixel?_inside _ column line, pixel?_inside _ column line] at same
  have whole : index / cell.width * cell.width + index % cell.width = index :=
    Nat.div_add_mod' index cell.width
  simpa [whole, inside] using same

theorem eq_of_fn {image : GlyphImage} {cell : Cell} {on : Nat → Nat → Bool} (sized : image.cell = cell)
    (shown : ∀ x y, x < cell.width → y < cell.height → image.pixel? x y = some (on x y)) :
    image = ofFn cell on := by
  apply ext_pixel? sized
  intro x y hx hy
  rw [sized] at hx hy
  exact (shown x y hx hy).trans (pixel?_of_fn cell on hx hy).symm

theorem of_fn?_eq_some {cell : Cell} {on? : Nat → Nat → Option Bool} {on : Nat → Nat → Bool}
    (shown : ∀ x y, x < cell.width → y < cell.height → on? x y = some (on x y)) :
    ofFn? cell on? = some (ofFn cell on) := by
  have all : ∀ y < cell.height, ∀ x < cell.width, (on? x y).isSome := by
    intro y hy x hx
    rw [shown x y hx hy]
    rfl
  rw [ofFn?, if_pos all]
  refine congrArg some (eq_of_fn rfl ?_)
  intro x y hx hy
  rw [pixel?_of_fn cell _ hx hy, shown x y hx hy, Option.getD_some]

theorem is_some_of_of_fn? {cell : Cell} {on? : Nat → Nat → Option Bool} {image : GlyphImage}
    (drawn : ofFn? cell on? = some image) {x y : Nat} (hx : x < cell.width) (hy : y < cell.height) :
    (on? x y).isSome := by
  unfold ofFn? at drawn
  split at drawn
  · next all => exact all y hy x hx
  · contradiction

theorem pixel?_of_of_fn? {cell : Cell} {on? : Nat → Nat → Option Bool} {image : GlyphImage}
    (drawn : ofFn? cell on? = some image) {x y : Nat} (hx : x < cell.width) (hy : y < cell.height) :
    image.pixel? x y = on? x y := by
  obtain ⟨on, shown⟩ := Option.isSome_iff_exists.mp (is_some_of_of_fn? drawn hx hy)
  unfold ofFn? at drawn
  split at drawn
  · obtain rfl := Option.some.inj drawn
    rw [pixel?_of_fn cell _ hx hy, shown, Option.getD_some]
  · contradiction

theorem cell_of_of_fn? {cell : Cell} {on? : Nat → Nat → Option Bool} {image : GlyphImage}
    (drawn : ofFn? cell on? = some image) : image.cell = cell := by
  unfold ofFn? at drawn
  split at drawn
  · obtain rfl := Option.some.inj drawn
    rfl
  · contradiction

end Bitfont.GlyphImage
