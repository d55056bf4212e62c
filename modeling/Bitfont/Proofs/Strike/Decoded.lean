import Bitfont.Proofs.Strike

namespace Bitfont

namespace GlyphImage

def drawRow (y : Nat) : GlyphImage → (x : Nat) → List Bool → GlyphImage
  | image, _, [] => image
  | image, x, on :: later => drawRow y (image.set x y on).1 (x + 1) later

def drawRows : GlyphImage → (y : Nat) → List Scanline → GlyphImage
  | image, _, [] => image
  | image, y, row :: later => drawRows (drawRow y image 0 row.pixels) (y + 1) later

theorem draw_row_cell (image : GlyphImage) (x y : Nat) (pixels : List Bool) :
    (drawRow y image x pixels).cell = image.cell := by
  induction pixels generalizing image x with
  | nil => rfl
  | cons on later ih => exact (ih _ (x + 1)).trans (set_cell image x y on)

theorem draw_rows_cell (image : GlyphImage) (y : Nat) (rows : List Scanline) :
    (drawRows image y rows).cell = image.cell := by
  induction rows generalizing image y with
  | nil => rfl
  | cons row later ih => exact (ih _ (y + 1)).trans (draw_row_cell image 0 y row.pixels)

theorem draw_row_other (image : GlyphImage) {x y column line : Nat} (pixels : List Bool)
    (other : line ≠ y ∨ column < x) :
    (drawRow y image x pixels).pixel? column line = image.pixel? column line := by
  induction pixels generalizing image x with
  | nil => rfl
  | cons on later ih =>
      have apart : ¬ (x = column ∧ y = line) := by omega
      exact (ih _ (by omega)).trans (pixel?_set_other image on apart)

theorem draw_row_drawn (image : GlyphImage) {x y offset : Nat} {pixels : List Bool} {on : Bool}
    (hx : x + offset < image.cell.width) (hy : y < image.cell.height)
    (pixel : pixels[offset]? = some on) :
    (drawRow y image x pixels).pixel? (x + offset) y = some on := by
  induction pixels generalizing image x offset with
  | nil => contradiction
  | cons first later ih =>
      cases offset with
      | zero =>
          obtain rfl : first = on := Option.some.inj pixel
          exact (draw_row_other _ later (.inr (Nat.lt_add_one x))).trans
            (pixel?_set_self image first hx hy)
      | succ offset =>
          rw [← Nat.succ_add_eq_add_succ] at hx ⊢
          rw [← set_cell image x y first] at hx hy
          exact ih _ hx hy pixel

theorem draw_rows_earlier (image : GlyphImage) {y column line : Nat} (rows : List Scanline)
    (earlier : line < y) : (drawRows image y rows).pixel? column line = image.pixel? column line := by
  induction rows generalizing image y with
  | nil => rfl
  | cons row later ih =>
      exact (ih _ (by omega)).trans (draw_row_other image row.pixels (.inl (by omega)))

theorem draw_rows_drawn (image : GlyphImage) {y column offset : Nat} {rows : List Scanline}
    {row : Scanline} {on : Bool} (hx : column < image.cell.width)
    (hy : y + offset < image.cell.height) (found : rows[offset]? = some row)
    (pixel : row.pixels[column]? = some on) :
    (drawRows image y rows).pixel? column (y + offset) = some on := by
  induction rows generalizing image y offset with
  | nil => contradiction
  | cons first later ih =>
      cases offset with
      | zero =>
          obtain rfl : first = row := Option.some.inj found
          have drawn := draw_row_drawn image (x := 0) (by rwa [Nat.zero_add]) hy pixel
          rw [Nat.zero_add] at drawn
          exact (draw_rows_earlier _ later (Nat.lt_add_one y)).trans drawn
      | succ offset =>
          rw [← Nat.succ_add_eq_add_succ] at hy ⊢
          rw [← draw_row_cell image 0 y first.pixels] at hx hy
          exact ih _ hx hy found

theorem of_pixels_line_of_bits (image : GlyphImage) {y value : Nat} (hy : y < image.cell.height)
    (bits : ∀ x, x < image.cell.width →
      image.pixel? x y = some (value.testBit (image.cell.width - 1 - x))) :
    PackedRow.ofPixels (image.line y) = value % 2 ^ image.cell.width := by
  have bound := PackedRow.of_pixels_lt (image.line y)
  rw [line_length] at bound
  apply Nat.eq_of_testBit_eq
  intro bit
  rw [Nat.testBit_mod_two_pow]
  by_cases used : bit < image.cell.width
  · have hx : image.cell.width - 1 - bit < image.cell.width := by omega
    have same := (image.test_bit_packed_row hx hy).symm.trans (bits _ hx)
    have position : image.cell.width - 1 - (image.cell.width - 1 - bit) = bit := by omega
    rw [position] at same
    simpa [used] using same
  · have high : PackedRow.ofPixels (image.line y) < 2 ^ bit :=
      Nat.lt_of_lt_of_le bound (Nat.pow_le_pow_right (by decide) (Nat.not_lt.mp used))
    simp [used, Nat.testBit_lt_two_pow high]

end GlyphImage

def Glyph.image (glyph : Glyph) : GlyphImage := (GlyphImage.blank glyph.cell).drawRows 0 glyph.rows

namespace PackedGlyphs

variable {glyphs : PackedGlyphs} {index : Nat} {glyph : Glyph}

theorem image_cell (found : glyphs.glyph? index = some glyph) : glyph.image.cell = glyphs.cell :=
  (GlyphImage.draw_rows_cell _ 0 glyph.rows).trans (glyph?_cell found)

theorem image_pixel? (found : glyphs.glyph? index = some glyph) {x y value : Nat}
    (hx : x < glyphs.cell.width) (hy : y < glyphs.cell.height)
    (row : glyphs.row? (index * glyphs.cell.height + y) = some value) :
    glyph.image.pixel? x y = some (value.testBit (glyphs.cell.width - 1 - x)) := by
  obtain ⟨scanline, line, pixel⟩ := Option.bind_eq_some_iff.mp (glyph_pixel? found hx hy row)
  have listed : glyph.rows[y]? = some scanline := (glyph_rows_get_elem? found y).trans line
  rw [← glyph?_cell found] at hx hy
  have drawn := (GlyphImage.blank glyph.cell).draw_rows_drawn hx (by rwa [Nat.zero_add]) listed pixel
  rwa [Nat.zero_add] at drawn

theorem image_line (found : glyphs.glyph? index = some glyph) {y value : Nat}
    (hy : y < glyphs.cell.height)
    (row : glyphs.row? (index * glyphs.cell.height + y) = some value) :
    PackedRow.ofPixels (glyph.image.line y) = value % 2 ^ glyphs.cell.width := by
  have cell := image_cell found
  rw [← cell]
  apply glyph.image.of_pixels_line_of_bits (cell ▸ hy)
  intro x hx
  rw [cell] at hx ⊢
  exact image_pixel? found hx hy row

def images (glyphs : PackedGlyphs) : List GlyphImage := glyphs.glyphs.map Glyph.image

theorem images_get_elem? (inside : index < glyphs.glyphCount) :
    ∃ glyph, glyphs.glyph? index = some glyph ∧ glyphs.images[index]? = some glyph.image := by
  obtain ⟨glyph, found⟩ := glyph?_inside inside
  refine ⟨glyph, found, ?_⟩
  rw [images, List.getElem?_map, glyphs_get_elem?, found, Option.map_some]

theorem images_length (glyphs : PackedGlyphs) : glyphs.images.length = glyphs.glyphCount := by
  rw [images, List.length_map, glyphs_length]

theorem cell_of_mem_images {image : GlyphImage} (member : image ∈ glyphs.images) :
    image.cell = glyphs.cell := by
  obtain ⟨glyph, listed, rfl⟩ := List.mem_map.mp member
  obtain ⟨index, found⟩ := List.mem_iff_getElem?.mp listed
  exact image_cell ((glyphs_get_elem? index).symm.trans found)

theorem row?_of_slice? (short : glyphs.cell.rowBytes ≤ 2) {bytes : List UInt8}
    (found : slice? glyphs.data (index * glyphs.cell.rowBytes) glyphs.cell.rowBytes = some bytes) :
    glyphs.row? index = some (PackedRow.bigEndian bytes) := by
  have length := slice?_length found
  rw [row?, found, Option.map_some, PackedRow.of_bytes_eq_big_endian (length ▸ short)]

theorem slice?_of_row? (short : glyphs.cell.rowBytes ≤ 2) {value : Nat}
    (row : glyphs.row? index = some value) :
    ∃ bytes, slice? glyphs.data (index * glyphs.cell.rowBytes) glyphs.cell.rowBytes = some bytes ∧
      PackedRow.bigEndian bytes = value := by
  obtain ⟨bytes, found, rfl⟩ := Option.map_eq_some_iff.mp row
  have length := slice?_length found
  exact ⟨bytes, found, (PackedRow.of_bytes_eq_big_endian (length ▸ short)).symm⟩

end PackedGlyphs

theorem low_bits_eq_iff {data lowBits : Array UInt8} {size width : Nat} (positive : 0 < size)
    (sameSize : lowBits.size = data.size) (whole : size ∣ data.size)
    (rows : ∀ index bytes, slice? data (index * size) size = some bytes →
      ∃ low, slice? lowBits (index * size) size = some low ∧
        PackedRow.bigEndian low = PackedRow.bigEndian bytes % 2 ^ width) :
    lowBits = data ↔ ∀ index bytes, slice? data (index * size) size = some bytes →
      ∀ bit, width ≤ bit → (PackedRow.bigEndian bytes).testBit bit = false := by
  constructor
  · rintro rfl index bytes found bit unused
    obtain ⟨low, same, cut⟩ := rows index bytes found
    obtain rfl := Option.some.inj (same.symm.trans found)
    rw [cut, Nat.testBit_mod_two_pow]
    simp [Nat.not_lt.mpr unused]
  · intro unused
    symm
    apply eq_of_slices positive sameSize.symm whole
    intro index bytes found
    obtain ⟨low, present, cut⟩ := rows index bytes found
    have small := Nat.lt_pow_two_of_testBit _ fun bit high => unused index bytes found bit high
    rw [Nat.mod_eq_of_lt small] at cut
    have sameLength := (slice?_length present).trans (slice?_length found).symm
    rw [present, PackedRow.big_endian_injective sameLength cut]

namespace Strike

variable {strike : Strike} {glyphs : PackedGlyphs}

section Decoded

variable (holds : strike.Holds glyphs.images) (sameCell : strike.cell = glyphs.cell)
  (wide : 0 < glyphs.cell.width) (narrow : glyphs.cell.width ≤ maxRowWidth)

include holds sameCell wide narrow

theorem Holds.decoded_row? {index value : Nat}
    (complete : index < glyphs.glyphCount * glyphs.cell.height)
    (row : glyphs.row? index = some value) :
    strike.glyphs.row? index = some (value % 2 ^ glyphs.cell.width) := by
  have tall : 0 < glyphs.cell.height := Nat.pos_of_lt_mul_left complete
  have inside := (Nat.div_lt_iff_lt_mul tall).mpr complete
  have hy := Nat.mod_lt index tall
  have position : index / glyphs.cell.height * glyphs.cell.height + index % glyphs.cell.height = index :=
    Nat.div_add_mod' index glyphs.cell.height
  obtain ⟨glyph, found, listed⟩ := PackedGlyphs.images_get_elem? inside
  have line := PackedGlyphs.image_line found hy (position.symm ▸ row)
  have packed := holds.row? (sameCell ▸ wide) (sameCell ▸ narrow) listed (sameCell ▸ hy)
  rwa [sameCell, line, position] at packed

theorem Holds.decoded_slice? {index : Nat} {bytes : List UInt8}
    (complete : index < glyphs.glyphCount * glyphs.cell.height)
    (found : slice? glyphs.data (index * glyphs.cell.rowBytes) glyphs.cell.rowBytes = some bytes) :
    ∃ packed, slice? strike.data (index * glyphs.cell.rowBytes) glyphs.cell.rowBytes = some packed ∧
      PackedRow.bigEndian packed = PackedRow.bigEndian bytes % 2 ^ glyphs.cell.width := by
  have short := Cell.row_bytes_le_two narrow
  have row := holds.decoded_row? sameCell wide narrow complete (PackedGlyphs.row?_of_slice? short found)
  have cell : strike.glyphs.cell = glyphs.cell := sameCell
  have packed := PackedGlyphs.slice?_of_row? (cell.symm ▸ short) row
  rwa [cell] at packed

end Decoded

-- The bits past the width are the padding of a row: they are read as part of its bytes, but no pixel
-- shows them.
theorem decoding_keeps_low_bits (first : Nat) (cell : Cell) (wide : 1 ≤ cell.width)
    (narrow : cell.width ≤ 16) (tall : 1 ≤ cell.height) (count : Nat) (data : Array UInt8)
    (whole : data.size = count * (cell.height * (cell.width ⌈/⌉ 8))) :
    let rowBytes := cell.width ⌈/⌉ 8
    let images := PackedGlyphs.images ⟨cell, data⟩
    ∃ fresh, empty first cell = .ok fresh ∧
      let strike := (fresh.pushAll images).1
      images.length = count ∧ (fresh.pushAll images).2 = images ∧
      strike.data.size = data.size ∧
      (∀ index bytes, slice? data (index * rowBytes) rowBytes = some bytes →
        ∃ packed, slice? strike.data (index * rowBytes) rowBytes = some packed ∧
          PackedRow.bigEndian packed = PackedRow.bigEndian bytes % 2 ^ cell.width) ∧
      (strike.data = data ↔ ∀ index bytes, slice? data (index * rowBytes) rowBytes = some bytes →
        ∀ bit, cell.width ≤ bit → (PackedRow.bigEndian bytes).testBit bit = false) := by
  intro rowBytes images
  refine ⟨_, empty_eq_ok first narrow, ?_⟩
  intro strike
  have positive : 0 < rowBytes := Cell.row_bytes_pos wide
  have glyphBytes : cell.height * rowBytes = cell.glyphBytes := Nat.mul_comm _ _
  have glyphCount : PackedGlyphs.glyphCount ⟨cell, data⟩ = count := by
    rw [PackedGlyphs.glyphCount, whole, glyphBytes, Nat.mul_div_cancel _ (Cell.glyph_bytes_pos wide tall)]
  have length : images.length = count := (PackedGlyphs.images_length _).trans glyphCount
  have taken : (pushAll ⟨first, cell, #[]⟩ images).2 = images := by
    rw [push_all_taken ⟨first, cell, #[]⟩ narrow]
    exact List.filter_eq_self.mpr fun image member =>
      decide_eq_true (PackedGlyphs.cell_of_mem_images member)
  obtain ⟨holds, -, sameCell⟩ := push_all_fresh first narrow images
  rw [taken] at holds
  have sameSize : strike.data.size = data.size := by
    rw [holds.data_size, length, sameCell, whole, glyphBytes]
  have rowsWhole : data.size = rowBytes * (count * cell.height) := by
    rw [whole, ← Nat.mul_assoc, Nat.mul_comm]
  have rows : ∀ index bytes, slice? data (index * rowBytes) rowBytes = some bytes →
      ∃ packed, slice? strike.data (index * rowBytes) rowBytes = some packed ∧
        PackedRow.bigEndian packed = PackedRow.bigEndian bytes % 2 ^ cell.width := by
    intro index bytes found
    have complete : index < PackedGlyphs.glyphCount ⟨cell, data⟩ * cell.height := by
      have inside := (slice?_eq_some found).1
      have room : rowBytes * (index + 1) ≤ rowBytes * (count * cell.height) := by
        rw [← rowsWhole, Nat.mul_succ, Nat.mul_comm]
        exact inside
      rw [glyphCount]
      exact Nat.le_of_mul_le_mul_left room positive
    exact holds.decoded_slice? sameCell wide narrow complete found
  exact ⟨length, taken, sameSize, rows, low_bits_eq_iff positive sameSize ⟨_, rowsWhole⟩ rows⟩

-- Rows of nine pixels in two bytes. The first glyph has all its padding set, the second has none.
theorem set_padding_is_lost :
    let cell : Cell := ⟨9, 1⟩
    let data : Array UInt8 := #[0xFF, 0x01, 0x01, 0x80]
    ∃ fresh, empty 0 cell = .ok fresh ∧
      (fresh.pushAll (PackedGlyphs.images ⟨cell, data⟩)).1.data.size = 4 ∧
      (fresh.pushAll (PackedGlyphs.images ⟨cell, data⟩)).1.data ≠ data := by
  intro cell data
  obtain ⟨fresh, made, -, -, size, -, same⟩ :=
    decoding_keeps_low_bits 0 cell (by decide) (by decide) (by decide) 2 data (by decide)
  refine ⟨fresh, made, size, ?_⟩
  intro unchanged
  have padding := same.mp unchanged 0 [0xFF, 0x01] (by decide) 9 (by decide)
  exact absurd padding (by decide)

end Strike

end Bitfont
