import Bitfont.Cell
import Bitfont.Slice

namespace Bitfont

structure GlyphImage where
  cell : Cell
  pixels : Vector Bool cell.area
deriving DecidableEq

namespace GlyphImage

def blank (cell : Cell) : GlyphImage := ⟨cell, Vector.replicate cell.area false⟩

def ofFn (cell : Cell) (on : (x y : Nat) → Bool) : GlyphImage :=
  ⟨cell, Vector.ofFn fun i => on (i.val % cell.width) (i.val / cell.width)⟩

def ofFn? (cell : Cell) (on? : (x y : Nat) → Option Bool) : Option GlyphImage :=
  if ∀ y < cell.height, ∀ x < cell.width, (on? x y).isSome then
    some (ofFn cell fun x y => (on? x y).getD false)
  else none

def ofCoverage? (cell : Cell) (coverage : Array UInt8) : Option GlyphImage :=
  if sized : coverage.size = cell.area then
    some ⟨cell, (Vector.mk coverage sized).map (0 < ·)⟩
  else none

def pixel? (image : GlyphImage) (x y : Nat) : Option Bool :=
  if x < image.cell.width ∧ y < image.cell.height then image.pixels[y * image.cell.width + x]?
  else none

def set (image : GlyphImage) (x y : Nat) (on : Bool) : GlyphImage × Bool :=
  if x < image.cell.width ∧ y < image.cell.height then
    ({ image with pixels := image.pixels.setIfInBounds (y * image.cell.width + x) on }, true)
  else (image, false)

def row? (image : GlyphImage) (y : Nat) : Option (List Bool) :=
  if y < image.cell.height then
    slice? image.pixels.toArray (y * image.cell.width) image.cell.width
  else none

def rows (image : GlyphImage) : List (List Bool) :=
  (List.range image.cell.height).filterMap image.row?

theorem pixel?_outside (image : GlyphImage) {x y : Nat}
    (outside : ¬ (x < image.cell.width ∧ y < image.cell.height)) : image.pixel? x y = none := by
  rw [pixel?, if_neg outside]

theorem pixel?_inside (image : GlyphImage) {x y : Nat} (hx : x < image.cell.width)
    (hy : y < image.cell.height) : image.pixel? x y = image.pixels[y * image.cell.width + x]? := by
  rw [pixel?, if_pos ⟨hx, hy⟩]

theorem pixel?_blank (cell : Cell) {x y : Nat} (hx : x < cell.width) (hy : y < cell.height) :
    (blank cell).pixel? x y = some false := by
  have bound := Cell.index_lt_area hx hy
  rw [pixel?_inside (blank cell) hx hy]
  change (Vector.replicate cell.area false)[y * cell.width + x]? = some false
  rw [Vector.getElem?_replicate, if_pos bound]

theorem pixel?_of_fn (cell : Cell) (on : Nat → Nat → Bool) {x y : Nat} (hx : x < cell.width)
    (hy : y < cell.height) : (ofFn cell on).pixel? x y = some (on x y) := by
  have bound := Cell.index_lt_area hx hy
  have column : (y * cell.width + x) % cell.width = x := by
    rw [Nat.add_comm, Nat.add_mul_mod_self_right, Nat.mod_eq_of_lt hx]
  have line : (y * cell.width + x) / cell.width = y := by
    rw [Nat.add_comm, Nat.add_mul_div_right _ _ (by omega), Nat.div_eq_of_lt hx, Nat.zero_add]
  rw [pixel?_inside (ofFn cell on) hx hy]
  change (Vector.ofFn _)[y * cell.width + x]? = some (on x y)
  rw [Vector.getElem?_ofFn, dif_pos bound, column, line]

theorem set_outside (image : GlyphImage) (on : Bool) {x y : Nat}
    (outside : ¬ (x < image.cell.width ∧ y < image.cell.height)) :
    image.set x y on = (image, false) := by
  rw [set, if_neg outside]

theorem pixel?_set_self (image : GlyphImage) (on : Bool) {x y : Nat} (hx : x < image.cell.width)
    (hy : y < image.cell.height) : (image.set x y on).1.pixel? x y = some on := by
  have bound := Cell.index_lt_area hx hy
  rw [set, if_pos ⟨hx, hy⟩]
  dsimp only
  rw [pixel?, if_pos ⟨hx, hy⟩, Vector.getElem?_setIfInBounds_self_of_lt bound]

theorem index_injective {width x y column line : Nat} (hx : x < width) (hc : column < width)
    (same : y * width + x = line * width + column) : x = column ∧ y = line := by
  have columns := congrArg (· % width) same
  have lines := congrArg (· / width) same
  simp only [Nat.mul_comm _ width, Nat.mul_add_mod, Nat.mod_eq_of_lt hx, Nat.mod_eq_of_lt hc,
    Nat.mul_add_div (Nat.zero_lt_of_lt hx), Nat.div_eq_of_lt hx, Nat.div_eq_of_lt hc]
    at columns lines
  omega

theorem pixel?_set_other (image : GlyphImage) (on : Bool) {x y column line : Nat}
    (other : ¬ (x = column ∧ y = line)) :
    (image.set x y on).1.pixel? column line = image.pixel? column line := by
  unfold set
  split
  · next inside =>
      unfold pixel?
      dsimp only
      split
      · next also =>
          have apart : y * image.cell.width + x ≠ line * image.cell.width + column :=
            fun same => other (index_injective inside.1 also.1 same)
          exact Vector.getElem?_setIfInBounds_ne apart
      · rfl
  · rfl

end GlyphImage
end Bitfont
