import Mathlib.Algebra.Order.Floor.Div
import Mathlib.GroupTheory.GroupAction.Ring
import Bitfont.Strike
import Bitfont.Proofs.PackedGlyphs

namespace Bitfont.Strike

variable {strike next : Strike} {image : GlyphImage} {images : List GlyphImage}

structure Holds (strike : Strike) (images : List GlyphImage) : Prop where
  cells : ∀ image ∈ images, image.cell = strike.cell
  bytes : strike.data.toList =
    (images.flatMap GlyphImage.packedRows).flatMap (PackedRow.toBytes strike.cell.rowBytes)

-- Pushes one image after the other. A refused image leaves the strike as it was; the second part is
-- the images that were not refused.
def pushAll : Strike → List GlyphImage → Strike × List GlyphImage
  | strike, [] => (strike, [])
  | strike, image :: later =>
      match strike.push image with
      | .error _ => strike.pushAll later
      | .ok next => ((next.pushAll later).1, image :: (next.pushAll later).2)

theorem push_mismatch (different : image.cell ≠ strike.cell) :
    strike.push image = .error (.mismatch strike.cell image.cell) := by
  rw [push, image.pack_mismatch different]
  rfl

theorem push_eq_ok (narrow : strike.cell.width ≤ maxRowWidth) (same : image.cell = strike.cell) :
    strike.push image = .ok { strike with
      data := strike.data ++ image.packedRows.flatMap (PackedRow.toBytes strike.cell.rowBytes) } := by
  have packed := image.pack_eq_ok (same ▸ narrow)
  rw [push, ← same, packed]
  rfl

theorem push_eq_error_iff (narrow : strike.cell.width ≤ maxRowWidth) (fault : CellFault) :
    strike.push image = .error fault ↔
      image.cell ≠ strike.cell ∧ fault = .mismatch strike.cell image.cell := by
  by_cases same : image.cell = strike.cell
  · simp [push_eq_ok narrow same, same]
  · simp [push_mismatch same, same, eq_comm]

theorem push_eq_ok_iff (narrow : strike.cell.width ≤ maxRowWidth) :
    strike.push image = .ok next ↔ image.cell = strike.cell ∧ next = { strike with
      data := strike.data ++ image.packedRows.flatMap (PackedRow.toBytes strike.cell.rowBytes) } := by
  by_cases same : image.cell = strike.cell
  · simp [push_eq_ok narrow same, same, eq_comm]
  · simp [push_mismatch same, same]

theorem push_frame (narrow : strike.cell.width ≤ maxRowWidth) (pushed : strike.push image = .ok next) :
    next.first = strike.first ∧ next.cell = strike.cell := by
  obtain ⟨-, rfl⟩ := (push_eq_ok_iff narrow).mp pushed
  exact ⟨rfl, rfl⟩

theorem Holds.push (holds : strike.Holds images) (narrow : strike.cell.width ≤ maxRowWidth)
    (pushed : strike.push image = .ok next) : next.Holds (images ++ [image]) := by
  obtain ⟨same, rfl⟩ := (push_eq_ok_iff narrow).mp pushed
  constructor
  · intro other member
    cases List.mem_append.mp member with
    | inl old => exact holds.cells other old
    | inr new => rwa [List.mem_singleton.mp new]
  · simp [holds.bytes, List.flatMap_append]

theorem Holds.push_all (holds : strike.Holds images) (narrow : strike.cell.width ≤ maxRowWidth)
    (pushed : List GlyphImage) :
    (strike.pushAll pushed).1.Holds (images ++ (strike.pushAll pushed).2) := by
  -- Each step either keeps the strike or moves one image from those to come to those held.
  induction pushed generalizing strike images with
  | nil => rwa [Strike.pushAll, List.append_nil]
  | cons image later ih =>
      rw [Strike.pushAll]
      cases outcome : strike.push image with
      | error fault => exact ih holds narrow
      | ok next =>
          have sameCell := (push_frame narrow outcome).2
          have allHold := ih (holds.push narrow outcome) (sameCell ▸ narrow)
          rwa [List.append_assoc] at allHold

theorem push_all_frame (strike : Strike) (narrow : strike.cell.width ≤ maxRowWidth)
    (pushed : List GlyphImage) :
    (strike.pushAll pushed).1.first = strike.first ∧ (strike.pushAll pushed).1.cell = strike.cell := by
  induction pushed generalizing strike with
  | nil => exact ⟨rfl, rfl⟩
  | cons image later ih =>
      rw [pushAll]
      cases outcome : strike.push image with
      | error fault => exact ih strike narrow
      | ok next =>
          obtain ⟨sameFirst, sameCell⟩ := push_frame narrow outcome
          obtain ⟨first, cell⟩ := ih next (sameCell ▸ narrow)
          exact ⟨first.trans sameFirst, cell.trans sameCell⟩

theorem push_all_fresh (first : Nat) {cell : Cell} (narrow : cell.width ≤ maxRowWidth)
    (pushed : List GlyphImage) :
    (pushAll ⟨first, cell, #[]⟩ pushed).1.Holds (pushAll ⟨first, cell, #[]⟩ pushed).2 ∧
      (pushAll ⟨first, cell, #[]⟩ pushed).1.first = first ∧
      (pushAll ⟨first, cell, #[]⟩ pushed).1.cell = cell := by
  have fresh : Holds ⟨first, cell, #[]⟩ [] := ⟨by simp, rfl⟩
  exact ⟨fresh.push_all narrow pushed, push_all_frame ⟨first, cell, #[]⟩ narrow pushed⟩

theorem push_all_taken (strike : Strike) (narrow : strike.cell.width ≤ maxRowWidth)
    (pushed : List GlyphImage) :
    (strike.pushAll pushed).2 = pushed.filter fun image => image.cell = strike.cell := by
  induction pushed generalizing strike with
  | nil => rfl
  | cons image later ih =>
      rw [pushAll]
      cases outcome : strike.push image with
      | error fault =>
          have different := ((push_eq_error_iff narrow fault).mp outcome).1
          simpa [different] using ih strike narrow
      | ok next =>
          have same := ((push_eq_ok_iff narrow).mp outcome).1
          have sameCell := (push_frame narrow outcome).2
          have rest := ih next (sameCell ▸ narrow)
          rw [sameCell] at rest
          simp [same, rest]

theorem push_all_append (pushed later : List GlyphImage) :
    strike.pushAll (pushed ++ later) =
      (((strike.pushAll pushed).1.pushAll later).1,
        (strike.pushAll pushed).2 ++ ((strike.pushAll pushed).1.pushAll later).2) := by
  induction pushed generalizing strike with
  | nil => rfl
  | cons image pushed ih =>
      rw [List.cons_append, pushAll, pushAll]
      cases strike.push image with
      | error fault => exact ih
      | ok next =>
          dsimp only
          rw [ih]
          rfl

section Lookup

variable (holds : strike.Holds images)

include holds

theorem Holds.glyphs : strike.glyphs.Holds (images.flatMap GlyphImage.packedRows) where
  bytes := holds.bytes
  fits := by
    intro value member
    obtain ⟨image, inside, packed⟩ := List.mem_flatMap.mp member
    have bound := image.lt_of_mem_packed_rows packed
    rwa [holds.cells image inside] at bound

theorem Holds.packed_rows_length :
    ∀ image ∈ images, image.packedRows.length = strike.cell.height := by
  intro image member
  rw [image.packed_rows_length, holds.cells image member]

theorem Holds.data_size : strike.data.size = images.length * strike.cell.glyphBytes := by
  have rows := length_flat_map_sized holds.packed_rows_length
  have size : strike.data.size = _ := holds.glyphs.size
  rw [size, rows, Nat.mul_assoc, Cell.glyphBytes, Nat.mul_comm strike.cell.height]
  rfl

variable (wide : 0 < strike.cell.width)

include wide

theorem Holds.row? (narrow : strike.cell.width ≤ maxRowWidth) {index y : Nat}
    (found : images[index]? = some image) (hy : y < strike.cell.height) :
    strike.glyphs.row? (index * strike.cell.height + y) =
      some (PackedRow.ofPixels (image.line y)) := by
  have sameCell := holds.cells image (List.mem_of_getElem? found)
  rw [holds.glyphs.row? wide narrow, get_elem?_flat_map_sized holds.packed_rows_length found hy]
  exact image.packed_rows_get_elem? (sameCell ▸ hy)

variable (tall : 0 < strike.cell.height)

include tall

theorem Holds.size : strike.size = images.length := by
  change strike.data.size / strike.cell.glyphBytes = images.length
  rw [holds.data_size, Nat.mul_div_cancel _ (Cell.glyph_bytes_pos wide tall)]

theorem Holds.is_empty_iff : strike.isEmpty = true ↔ images.length = 0 := by
  have glyphBytes := Cell.glyph_bytes_pos wide tall
  rw [isEmpty, Array.isEmpty_iff_size_eq_zero, holds.data_size, Nat.mul_eq_zero]
  omega

theorem Holds.lt_size_iff (index : Nat) :
    index < strike.glyphs.glyphCount ↔ index < images.length := by
  have count : strike.glyphs.glyphCount = images.length := holds.size wide tall
  rw [count]

theorem Holds.image? (narrow : strike.cell.width ≤ maxRowWidth) (code : Nat) :
    strike.image? code = if strike.first ≤ code then images[code - strike.first]? else none := by
  unfold Strike.image? glyph?
  by_cases after : strike.first ≤ code
  · have count := holds.lt_size_iff wide tall (code - strike.first)
    rw [if_pos after, if_pos after]
    cases found : images[code - strike.first]? with
    | none =>
        have beyond := mt count.mp (Nat.not_lt.mpr (List.getElem?_eq_none_iff.mp found))
        rw [PackedGlyphs.glyph?, if_neg beyond]
        rfl
    | some image =>
        have inside := count.mpr (List.getElem?_eq_some_iff.mp found).1
        have sameCell := holds.cells image (List.mem_of_getElem? found)
        obtain ⟨glyph, present⟩ := PackedGlyphs.glyph?_inside inside
        rw [present, Option.map_some]
        refine congrArg some (GlyphImage.eq_of_fn sameCell ?_).symm
        intro x y hx hy
        have row := holds.row? wide narrow found hy
        have pixel := PackedGlyphs.glyph_pixel? present hx hy row
        have drawn := image.test_bit_packed_row (sameCell.symm ▸ hx) (sameCell.symm ▸ hy)
        rw [sameCell] at drawn
        rw [pixel, drawn]
        rfl
  · rw [if_neg after, if_neg after]
    rfl

end Lookup

theorem empty_eq_ok (first : Nat) {cell : Cell} (narrow : cell.width ≤ maxRowWidth) :
    empty first cell = .ok ⟨first, cell, #[]⟩ := by
  rw [empty, if_neg (Nat.not_lt.mpr narrow)]

-- After any run of pushes: what the next push does, and what the strike holds. Only an image of
-- another size is refused, since the cell is never wider than a row.
theorem pushes_keep_images (first : Nat) (cell : Cell) (wide : 1 ≤ cell.width)
    (narrow : cell.width ≤ 16) (tall : 1 ≤ cell.height) :
    ∃ fresh, empty first cell = .ok fresh ∧ ∀ pushed : List GlyphImage,
      let strike := (fresh.pushAll pushed).1
      let taken := (fresh.pushAll pushed).2
      (∀ image fault, strike.push image = .error fault ↔
        image.cell ≠ cell ∧ fault = .mismatch cell image.cell) ∧
      (∀ image, fresh.pushAll (pushed ++ [image]) =
        match strike.push image with
        | .error _ => (strike, taken)
        | .ok next => (next, taken ++ [image])) ∧
      taken = (pushed.filter fun image => image.cell = cell) ∧
      strike.data.size = taken.length * (cell.height * (cell.width ⌈/⌉ 8)) ∧
      strike.size = taken.length ∧
      (strike.isEmpty = true ↔ taken.length = 0) ∧
      (∀ index value, strike.glyphs.row? index = some value → value < 2 ^ cell.width) ∧
      ∀ code, strike.image? code = if first ≤ code then taken[code - first]? else none := by
  refine ⟨_, empty_eq_ok first narrow, ?_⟩
  intro pushed strike taken
  obtain ⟨holds, sameFirst, sameCell⟩ :
      strike.Holds taken ∧ strike.first = first ∧ strike.cell = cell :=
    push_all_fresh first narrow pushed
  rw [← sameCell] at wide narrow tall
  have bytes : cell.width ⌈/⌉ 8 = cell.rowBytes := rfl
  refine ⟨?_, ?_, ?_, ?_, holds.size wide tall, holds.is_empty_iff wide tall, ?_, ?_⟩
  · intro image fault
    rw [push_eq_error_iff narrow, sameCell]
  · intro image
    rw [push_all_append]
    change ((strike.pushAll [image]).1, taken ++ (strike.pushAll [image]).2) = _
    rw [pushAll]
    cases strike.push image with
    | error fault => rw [pushAll, List.append_nil]
    | ok next => rfl
  · exact push_all_taken ⟨first, cell, #[]⟩ (sameCell ▸ narrow) pushed
  · rw [bytes, holds.data_size, sameCell, Cell.glyphBytes, Nat.mul_comm cell.height]
  · intro index value row
    rw [holds.glyphs.row? wide narrow] at row
    rw [← sameCell]
    exact holds.glyphs.fits value (List.mem_of_getElem? row)
  · intro code
    rw [holds.image? wide tall narrow, sameFirst]

-- The second of three images is refused, so the third one gets the second code.
theorem images_found_after_refusal :
    let cell : Cell := ⟨9, 2⟩
    let bar := GlyphImage.ofFn cell fun x _ => x = 8
    let dot := GlyphImage.ofFn cell fun x y => x = 0 ∧ y = 1
    (1 ≤ cell.width ∧ cell.width ≤ 16 ∧ 1 ≤ cell.height) ∧
      ∃ fresh, empty 65 cell = .ok fresh ∧
        let strike := (fresh.pushAll [bar, .blank ⟨8, 2⟩, dot]).1
        strike.size = 2 ∧ strike.image? 65 = some bar ∧ strike.image? 66 = some dot ∧
          strike.image? 67 = none := by
  intro cell bar dot
  refine ⟨by decide, ?_⟩
  obtain ⟨fresh, made, run⟩ := pushes_keep_images 65 cell (by decide) (by decide) (by decide)
  obtain ⟨-, -, taken, -, size, -, -, found⟩ := run [bar, .blank ⟨8, 2⟩, dot]
  have two : (fresh.pushAll [bar, .blank ⟨8, 2⟩, dot]).2 = [bar, dot] := taken
  rw [two] at size found
  exact ⟨fresh, made, size, found 65, found 66, found 67⟩

end Bitfont.Strike
