import Bitfont.Proofs.PackedGlyphs

namespace Bitfont.GlyphImage

structure Dot where
  x : Nat
  y : Nat
  on : Bool

def setAll : GlyphImage → List Dot → GlyphImage
  | image, [] => image
  | image, dot :: later => (image.set dot.x dot.y dot.on).1.setAll later

def dotted (on : Nat → Nat → Bool) (dots : List Dot) (x y : Nat) : Bool :=
  ((dots.reverse.find? fun dot => dot.x = x ∧ dot.y = y).map Dot.on).getD (on x y)

def covered (cell : Cell) (coverage : Array UInt8) (x y : Nat) : Bool :=
  coverage[y * cell.width + x]?.any (· ≠ 0)

-- The images in which nothing has been set yet, with what they show. A function with a state of its own is
-- asked once for each pixel, so that its answers are a function of the pixel, too.
inductive Made (cell : Cell) : GlyphImage → (Nat → Nat → Bool) → Prop where
  | blank : Made cell (blank cell) fun _ _ => false
  | ofFn (on : Nat → Nat → Bool) : Made cell (ofFn cell on) on
  | ofCoverage {coverage : Array UInt8} {image : GlyphImage}
      (accepted : ofCoverage? cell coverage = some image) : Made cell image (covered cell coverage)

structure SetsPixel (image after : GlyphImage) (x y : Nat) (on : Bool) : Prop where
  cell : after.cell = image.cell
  here : after.pixel? x y = some on
  elsewhere : ∀ column line, ¬ (x = column ∧ y = line) →
    after.pixel? column line = image.pixel? column line
  rows : ∀ line, line ≠ y → after.row? line = image.row? line

section Rows

variable (image : GlyphImage)

theorem pixel?_is_some_iff (x y : Nat) :
    (image.pixel? x y).isSome ↔ x < image.cell.width ∧ y < image.cell.height := by
  by_cases inside : x < image.cell.width ∧ y < image.cell.height
  · obtain ⟨on, pixel⟩ := image.pixel?_eq_some inside.1 inside.2
    simp [pixel, inside]
  · simp [image.pixel?_outside inside, inside]

theorem row?_eq (y : Nat) :
    image.row? y = if y < image.cell.height then some (image.line y) else none := by
  by_cases inside : y < image.cell.height
  · rw [if_pos inside, image.row?_eq_line inside]
  · rw [if_neg inside, row?, if_neg inside]

theorem map_some_line {y : Nat} (hy : y < image.cell.height) :
    (image.line y).map some = (List.range image.cell.width).map fun x => image.pixel? x y := by
  rw [line, List.map_map]
  apply List.map_congr_left
  intro x member
  obtain ⟨on, pixel⟩ := image.pixel?_eq_some (List.mem_range.mp member) hy
  simp [pixel]

theorem pixels_eq_lines :
    image.pixels.toList = (List.range image.cell.height).flatMap image.line := by
  let stored (index : Nat) : Bool := image.pixels[index]?.getD false
  have lines : (List.range image.cell.height).flatMap image.line =
      (List.range ((List.range image.cell.height).length * image.cell.width)).map stored := by
    apply flat_map_eq_map_range
    intro index y found
    obtain ⟨hy, rfl⟩ : index < image.cell.height ∧ index = y := by
      simpa [List.getElem?_eq_some_iff] using found
    apply List.map_congr_left
    intro x member
    rw [image.pixel?_inside (List.mem_range.mp member) hy]
  have size : (List.range image.cell.height).length * image.cell.width = image.cell.area := by
    rw [List.length_range, Nat.mul_comm, Cell.area]
  rw [lines, size]
  apply List.ext_getElem (by simp)
  intro index inside _
  simp only [Vector.length_toList] at inside
  simp [stored, inside]

theorem set_eq (x y : Nat) (on : Bool) :
    if x < image.cell.width ∧ y < image.cell.height then
      ∃ after, image.set x y on = (after, true) ∧ image.SetsPixel after x y on
    else image.set x y on = (image, false) := by
  by_cases inside : x < image.cell.width ∧ y < image.cell.height
  · rw [if_pos inside]
    have accepted : (image.set x y on).2 = true := by rw [set, if_pos inside]
    refine ⟨(image.set x y on).1, Prod.ext rfl accepted, image.set_cell x y on,
      image.pixel?_set_self on inside.1 inside.2, fun _ _ => image.pixel?_set_other on, ?_⟩
    intro line other
    have same : (image.set x y on).1.line line = image.line line := by
      rw [GlyphImage.line, image.set_cell]
      apply List.map_congr_left
      intro column _
      rw [image.pixel?_set_other on fun both => other both.2.symm]
    rw [row?_eq, row?_eq, image.set_cell, same]
  · rw [if_neg inside, image.set_outside on inside]

end Rows

section Function

variable {cell : Cell} {on : Nat → Nat → Bool}

theorem line_of_fn {y : Nat} (hy : y < cell.height) :
    (ofFn cell on).line y = (List.range cell.width).map fun x => on x y := by
  apply List.map_congr_left
  intro x member
  rw [pixel?_of_fn cell on (List.mem_range.mp member) hy]
  rfl

theorem pixels_of_fn (cell : Cell) (on : Nat → Nat → Bool) : (ofFn cell on).pixels.toList =
    (List.range cell.height).flatMap fun y => (List.range cell.width).map fun x => on x y := by
  rw [pixels_eq_lines]
  apply List.flatMap_congr
  intro y member
  exact line_of_fn (List.mem_range.mp member)

theorem of_coverage?_is_some_iff (coverage : Array UInt8) :
    (ofCoverage? cell coverage).isSome ↔ coverage.size = cell.width * cell.height := by
  rw [← Cell.area]
  by_cases sized : coverage.size = cell.area
  · simp [ofCoverage?, sized]
  · simp [ofCoverage?, sized]

theorem pixel?_of_coverage {coverage : Array UInt8} {image : GlyphImage}
    (accepted : ofCoverage? cell coverage = some image) : image.cell = cell ∧
      ∀ x y, x < cell.width → y < cell.height → ∃ byte,
        coverage[y * cell.width + x]? = some byte ∧ image.pixel? x y = some (decide (byte ≠ 0)) := by
  unfold ofCoverage? at accepted
  split at accepted
  · next sized =>
      obtain rfl := Option.some.inj accepted
      refine ⟨rfl, ?_⟩
      intro x y hx hy
      have inside := sized ▸ Cell.index_lt_area hx hy
      refine ⟨coverage[y * cell.width + x], Array.getElem?_eq_getElem inside, ?_⟩
      rw [pixel?_inside _ hx hy]
      simp [inside, UInt8.pos_iff_ne_zero]
  · contradiction

theorem of_coverage_eq_of_fn {coverage : Array UInt8} {image : GlyphImage}
    (accepted : ofCoverage? cell coverage = some image) :
    image = ofFn cell (covered cell coverage) := by
  obtain ⟨sized, bytes⟩ := pixel?_of_coverage accepted
  apply eq_of_fn sized
  intro x y hx hy
  obtain ⟨byte, found, pixel⟩ := bytes x y hx hy
  rw [pixel, covered, found]
  rfl

theorem Made.eq_of_fn {made : GlyphImage} (start : Made cell made on) : made = .ofFn cell on := by
  cases start with
  | blank => exact GlyphImage.eq_of_fn rfl fun _ _ hx hy => pixel?_blank cell hx hy
  | ofFn => rfl
  | ofCoverage accepted => exact of_coverage_eq_of_fn accepted

theorem dotted_cons (dot : Dot) (later : List Dot) :
    dotted on (dot :: later) = dotted (dotted on [dot]) later := by
  funext x y
  simp only [dotted, List.reverse_cons, List.find?_append]
  cases later.reverse.find? fun dot => dot.x = x ∧ dot.y = y with
  | none => rfl
  | some last => rfl

-- A dot outside of the cell is a dot all the same, on a pixel that the image does not show.
theorem set_of_fn (dot : Dot) :
    ((ofFn cell on).set dot.x dot.y dot.on).1 = ofFn cell (dotted on [dot]) := by
  apply eq_of_fn (set_cell ..)
  intro x y hx hy
  by_cases here : dot.x = x ∧ dot.y = y
  · obtain ⟨rfl, rfl⟩ := here
    rw [pixel?_set_self (ofFn cell on) dot.on hx hy]
    simp [dotted]
  · rw [pixel?_set_other (ofFn cell on) dot.on here, pixel?_of_fn cell on hx hy]
    simp [dotted, here]

theorem set_all_of_fn (dots : List Dot) : (ofFn cell on).setAll dots = ofFn cell (dotted on dots) := by
  induction dots generalizing on with
  | nil => rfl
  | cons dot later ih => rw [setAll, set_of_fn, ih, dotted_cons dot later]

end Function

theorem dots_reach_every_pixel {cell : Cell} {made : GlyphImage} {on : Nat → Nat → Bool}
    (start : Made cell made on) (dots : List Dot) :
    let image := made.setAll dots
    image = ofFn cell (dotted on dots) ∧ image.cell = cell ∧
    image.pixels.toList = ((List.range cell.height).flatMap fun y =>
      (List.range cell.width).map fun x => dotted on dots x y) ∧
    image.pixels.toList.length = cell.width * cell.height ∧
    (∀ x y, (image.pixel? x y).isSome ↔ x < cell.width ∧ y < cell.height) ∧
    (∀ x y value,
      if x < cell.width ∧ y < cell.height then
        ∃ after, image.set x y value = (after, true) ∧ image.SetsPixel after x y value
      else image.set x y value = (image, false)) ∧
    (∀ y, (image.row? y).isSome ↔ y < cell.height) ∧
    (∀ y row, image.row? y = some row →
      row.map some = (List.range cell.width).map fun x => image.pixel? x y) ∧
    ∀ coverage : Array UInt8,
      ((ofCoverage? cell coverage).isSome ↔ coverage.size = cell.width * cell.height) ∧
      ∀ image, ofCoverage? cell coverage = some image →
        image = ofFn cell (covered cell coverage) ∧
        ∀ x y, x < cell.width → y < cell.height → ∃ byte,
          coverage[y * cell.width + x]? = some byte ∧ image.pixel? x y = some (decide (byte ≠ 0)) := by
  intro image
  have whole : image = ofFn cell (dotted on dots) := by
    rw [← set_all_of_fn, ← start.eq_of_fn]
  have sized : image.cell = cell := congrArg GlyphImage.cell whole
  refine ⟨whole, sized, ?_, ?_, ?_, ?_, ?_, ?_, ?_⟩
  · rw [whole, pixels_of_fn]
  · rw [Vector.length_toList, sized, Cell.area]
  · simpa only [sized] using image.pixel?_is_some_iff
  · simpa only [sized] using image.set_eq
  · intro y
    rw [row?_eq, sized]
    simp
  · intro y row found
    rw [row?_eq] at found
    by_cases hy : y < image.cell.height
    · rw [if_pos hy] at found
      obtain rfl := Option.some.inj found
      rw [image.map_some_line hy, sized]
    · rw [if_neg hy] at found
      contradiction
  · intro coverage
    exact ⟨of_coverage?_is_some_iff coverage, fun image accepted =>
      ⟨of_coverage_eq_of_fn accepted, (pixel?_of_coverage accepted).2⟩⟩

-- One pixel is set twice, and one dot lies to the right of the first row, where the second one must not
-- change.
theorem dots_on_covered_image :
    let cell : Cell := ⟨3, 2⟩
    let coverage : Array UInt8 := #[0, 1, 0, 0, 0, 255]
    let dots : List Dot := [⟨2, 1, false⟩, ⟨3, 0, true⟩, ⟨0, 0, true⟩, ⟨2, 1, true⟩, ⟨1, 0, false⟩]
    ∃ made, ofCoverage? cell coverage = some made ∧
      let image := made.setAll dots
      image.pixels.toList = [true, false, false, false, false, true] ∧
      image.set 3 0 true = (image, false) ∧
      ∃ after, image.set 1 1 true = (after, true) ∧ after.row? 0 = image.row? 0 := by
  intro cell coverage dots
  obtain ⟨made, accepted⟩ : ∃ made, ofCoverage? cell coverage = some made := ⟨_, rfl⟩
  obtain ⟨-, -, stored, -, -, sets, -⟩ := dots_reach_every_pixel (.ofCoverage accepted) dots
  obtain ⟨after, inside, changed⟩ := sets 1 1 true
  exact ⟨made, accepted, stored, sets 3 0 true, after, inside, changed.rows 0 (by decide)⟩

end Bitfont.GlyphImage
