import Mathlib.Algebra.Group.Nat.Defs
import Mathlib.Data.List.Induction
import Bitfont.PackedGlyphs
import Bitfont.Proofs.GlyphImage

namespace Bitfont

namespace PackedRow

theorem of_pixels_append (front : List Bool) (on : Bool) :
    ofPixels (front ++ [on]) = 2 * ofPixels front + on.toNat :=
  List.foldl_append

theorem of_pixels_lt (pixels : List Bool) : ofPixels pixels < 2 ^ pixels.length := by
  induction pixels using List.reverseRecOn with
  | nil => exact Nat.one_pos
  | append_singleton front on ih =>
      have bit : on.toNat < 2 := Bool.toNat_lt on
      rw [of_pixels_append, List.length_append, List.length_singleton, Nat.pow_succ]
      omega

theorem test_bit_of_pixels {pixels : List Bool} {x : Nat} {on : Bool} (pixel : pixels[x]? = some on) :
    (ofPixels pixels).testBit (pixels.length - 1 - x) = on := by
  induction pixels using List.reverseRecOn with
  | nil => contradiction
  | append_singleton front last ih =>
      have bit : last.toNat < 2 := Bool.toNat_lt last
      have inside : x < (front ++ [last]).length := (List.getElem?_eq_some_iff.mp pixel).1
      rw [List.length_append, List.length_singleton] at inside ⊢
      rw [of_pixels_append]
      by_cases isLast : x = front.length
      · obtain rfl : last = on := by simpa [isLast] using pixel
        have lowest : front.length + 1 - 1 - x = 0 := by omega
        rw [lowest, Nat.testBit_zero]
        -- The number before it is doubled, so it does not reach the lowest bit.
        cases last with
        | false => simp
        | true => simp
      · have earlier : x < front.length := by omega
        rw [List.getElem?_append_left earlier] at pixel
        have higher : front.length + 1 - 1 - x = (front.length - 1 - x) + 1 := by omega
        have half : (2 * ofPixels front + last.toNat) / 2 = ofPixels front := by omega
        rw [higher, Nat.testBit_succ, half]
        exact ih pixel

theorem pack_eq_ok {pixels : List Bool} (narrow : pixels.length ≤ maxRowWidth) :
    pack pixels = .ok (ofPixels pixels) := by
  rw [pack, if_neg (Nat.not_lt.mpr narrow)]

@[simp] theorem to_bytes_length (byteCount value : Nat) :
    (toBytes byteCount value).length = byteCount := by simp [toBytes]

theorem of_bytes_to_bytes {byteCount value : Nat} (short : byteCount ≤ 2)
    (fits : value < 2 ^ (8 * byteCount)) : ofBytes (toBytes byteCount value) = value := by
  obtain rfl | rfl | rfl : byteCount = 0 ∨ byteCount = 1 ∨ byteCount = 2 := by omega
  · obtain rfl : value = 0 := by omega
    rfl
  · have byte : (UInt8.ofNat value).toNat = value := Nat.mod_eq_of_lt fits
    change (0 * 256 + (UInt8.ofNat value).toNat) % 0x10000 = value
    omega
  · have high : (UInt8.ofNat (value >>> 8)).toNat = value / 256 := by
      rw [Nat.shiftRight_eq_div_pow]
      exact Nat.mod_eq_of_lt (by omega)
    have low : (UInt8.ofNat value).toNat = value % 256 := rfl
    change ((0 * 256 + (UInt8.ofNat (value >>> 8)).toNat) % 0x10000 * 256 +
      (UInt8.ofNat value).toNat) % 0x10000 = value
    rw [high, low]
    omega

def bigEndian (bytes : List UInt8) : Nat := bytes.foldl (fun value byte => 256 * value + byte.toNat) 0

theorem big_endian_append (front : List UInt8) (byte : UInt8) :
    bigEndian (front ++ [byte]) = 256 * bigEndian front + byte.toNat :=
  List.foldl_append

theorem big_endian_lt (bytes : List UInt8) : bigEndian bytes < 256 ^ bytes.length := by
  induction bytes using List.reverseRecOn with
  | nil => exact Nat.one_pos
  | append_singleton front byte ih =>
      have bound : byte.toNat < 256 := byte.toNat_lt
      rw [big_endian_append, List.length_append, List.length_singleton, Nat.pow_succ]
      omega

-- Each byte shifts the bits before it, and what comes out at the top is lost.
theorem of_bytes_eq_mod (bytes : List UInt8) : ofBytes bytes = bigEndian bytes % 2 ^ 16 := by
  induction bytes using List.reverseRecOn with
  | nil => rfl
  | append_singleton front byte ih =>
      have last : ofBytes (front ++ [byte]) = (ofBytes front * 256 + byte.toNat) % 0x10000 :=
        List.foldl_append
      rw [last, big_endian_append, ih]
      omega

theorem of_bytes_lt (bytes : List UInt8) : ofBytes bytes < 2 ^ 16 := by
  rw [of_bytes_eq_mod]
  exact Nat.mod_lt _ (Nat.two_pow_pos 16)

theorem test_bit_of_bytes (bytes : List UInt8) (bit : Nat) :
    (ofBytes bytes).testBit bit = (decide (bit < 16) && (bigEndian bytes).testBit bit) := by
  rw [of_bytes_eq_mod, Nat.testBit_mod_two_pow]

theorem of_bytes_eq_big_endian {bytes : List UInt8} (short : bytes.length ≤ 2) :
    ofBytes bytes = bigEndian bytes := by
  have bound : bigEndian bytes < 2 ^ 16 :=
    calc bigEndian bytes
        < 256 ^ bytes.length := big_endian_lt bytes
      _ ≤ 256 ^ 2 := Nat.pow_le_pow_right (by decide) short
  rw [of_bytes_eq_mod, Nat.mod_eq_of_lt bound]

theorem big_endian_injective {bytes other : List UInt8} (sameLength : bytes.length = other.length)
    (same : bigEndian bytes = bigEndian other) : bytes = other := by
  induction bytes using List.reverseRecOn generalizing other with
  | nil => exact (List.eq_nil_of_length_eq_zero sameLength.symm).symm
  | append_singleton front byte ih =>
      cases other using List.reverseRecOn with
      | nil => simp at sameLength
      | append_singleton otherFront otherByte =>
          have bound : byte.toNat < 256 := byte.toNat_lt
          have otherBound : otherByte.toNat < 256 := otherByte.toNat_lt
          rw [big_endian_append, big_endian_append] at same
          obtain rfl : byte = otherByte := UInt8.toNat_inj.mp (by omega)
          rw [ih (by simpa using sameLength) (by omega)]

end PackedRow

namespace Cell

theorem row_bytes_le_two {cell : Cell} (narrow : cell.width ≤ maxRowWidth) : cell.rowBytes ≤ 2 := by
  unfold rowBytes
  unfold maxRowWidth at narrow
  omega

theorem row_bytes_pos {cell : Cell} (wide : 0 < cell.width) : 0 < cell.rowBytes := by
  unfold rowBytes
  omega

theorem glyph_bytes_pos {cell : Cell} (wide : 0 < cell.width) (tall : 0 < cell.height) :
    0 < cell.glyphBytes :=
  Nat.mul_pos (row_bytes_pos wide) tall

theorem two_pow_width_le (cell : Cell) : 2 ^ cell.width ≤ 2 ^ (8 * cell.rowBytes) := by
  apply Nat.pow_le_pow_right (by decide)
  unfold rowBytes
  omega

end Cell

namespace GlyphImage

variable (image : GlyphImage)

def packedRows : List Nat := image.rows.map PackedRow.ofPixels

@[simp] theorem packed_rows_length : image.packedRows.length = image.cell.height := by
  simp [packedRows, rows_eq_map_line]

theorem packed_rows_get_elem? {y : Nat} (hy : y < image.cell.height) :
    image.packedRows[y]? = some (PackedRow.ofPixels (image.line y)) := by
  simp [packedRows, rows_eq_map_line, hy]

theorem lt_of_mem_packed_rows {value : Nat} (member : value ∈ image.packedRows) :
    value < 2 ^ image.cell.width := by
  rw [packedRows, rows_eq_map_line, List.map_map] at member
  obtain ⟨y, -, rfl⟩ := List.mem_map.mp member
  have bound := PackedRow.of_pixels_lt (image.line y)
  rwa [line_length] at bound

theorem test_bit_packed_row {x y : Nat} (hx : x < image.cell.width) (hy : y < image.cell.height) :
    image.pixel? x y =
      some ((PackedRow.ofPixels (image.line y)).testBit (image.cell.width - 1 - x)) := by
  obtain ⟨on, pixel⟩ := image.pixel?_eq_some hx hy
  have bit := PackedRow.test_bit_of_pixels ((image.line_get_elem? hx hy).trans pixel)
  rw [line_length] at bit
  rw [pixel, bit]

theorem pack_mismatch {cell : Cell} (different : image.cell ≠ cell) :
    image.pack cell = .error (.mismatch cell image.cell) := by
  rw [pack, if_pos different]

theorem pack_too_wide (wide : maxRowWidth < image.cell.width) :
    image.pack image.cell = .error (.tooWide image.cell.width) := by
  rw [pack, if_neg (not_not_intro rfl), if_pos wide]

theorem pack_eq_ok (narrow : image.cell.width ≤ maxRowWidth) :
    image.pack image.cell = .ok image.packedRows := by
  have every : ∀ rows : List (List Bool), (∀ row ∈ rows, row.length ≤ maxRowWidth) →
      rows.mapM PackedRow.pack = .ok (rows.map PackedRow.ofPixels) := by
    intro rows
    induction rows with
    | nil => exact fun _ => rfl
    | cons row rows ih =>
        intro short
        have first := PackedRow.pack_eq_ok (short row List.mem_cons_self)
        have others := ih fun row member => short row (List.mem_cons_of_mem _ member)
        rw [List.mapM_cons, first, others]
        rfl
  rw [pack, if_neg (not_not_intro rfl), if_neg (Nat.not_lt.mpr narrow)]
  apply every
  intro row member
  rw [rows_eq_map_line] at member
  obtain ⟨y, -, rfl⟩ := List.mem_map.mp member
  rwa [line_length]

structure PackedAs (values : List Nat) : Prop where
  length : values.length = image.cell.height
  fits : ∀ value ∈ values, value < 2 ^ image.cell.width
  bits : ∀ x y, x < image.cell.width → y < image.cell.height → ∃ value, values[y]? = some value ∧
    image.pixel? x y = some (value.testBit (image.cell.width - 1 - x))

theorem packed_rows_packed_as : image.PackedAs image.packedRows where
  length := image.packed_rows_length
  fits := fun _ => image.lt_of_mem_packed_rows
  bits := fun _ _ hx hy => ⟨_, image.packed_rows_get_elem? hy, image.test_bit_packed_row hx hy⟩

variable {image}

theorem PackedAs.unique {other : GlyphImage} {values : List Nat} (packed : image.PackedAs values)
    (also : other.PackedAs values) (sameCell : image.cell = other.cell) : image = other := by
  apply ext_pixel? sameCell
  intro x y hx hy
  obtain ⟨value, row, pixel⟩ := packed.bits x y hx hy
  obtain ⟨otherValue, otherRow, otherPixel⟩ := also.bits x y (sameCell ▸ hx) (sameCell ▸ hy)
  obtain rfl : value = otherValue := Option.some.inj (row.symm.trans otherRow)
  rw [pixel, otherPixel, sameCell]

theorem pack_cases (image : GlyphImage) (cell : Cell) :
    image.cell ≠ cell ∧ image.pack cell = .error (.mismatch cell image.cell) ∨
      image.cell = cell ∧ maxRowWidth < cell.width ∧ image.pack cell = .error (.tooWide cell.width) ∨
      image.cell = cell ∧ cell.width ≤ maxRowWidth ∧ image.pack cell = .ok image.packedRows := by
  by_cases same : image.cell = cell
  · subst same
    by_cases wide : maxRowWidth < image.cell.width
    · exact .inr (.inl ⟨rfl, wide, image.pack_too_wide wide⟩)
    · have narrow := Nat.not_lt.mp wide
      exact .inr (.inr ⟨rfl, narrow, image.pack_eq_ok narrow⟩)
  · exact .inl ⟨same, image.pack_mismatch same⟩

theorem pack_eq_error_iff {cell : Cell} {fault : CellFault} :
    image.pack cell = .error fault ↔
      image.cell ≠ cell ∧ fault = .mismatch cell image.cell ∨
        image.cell = cell ∧ maxRowWidth < cell.width ∧ fault = .tooWide cell.width := by
  obtain ⟨different, packed⟩ | ⟨sized, wide, packed⟩ | ⟨sized, narrow, packed⟩ := image.pack_cases cell
  · simp [packed, different, eq_comm]
  · simp [packed, sized, wide, eq_comm]
  · simp [packed, sized, Nat.not_lt.mpr narrow]

theorem packed_as_of_pack {cell : Cell} {values : List Nat} (packed : image.pack cell = .ok values) :
    image.cell = cell ∧ image.PackedAs values := by
  obtain ⟨-, refused⟩ | ⟨-, -, refused⟩ | ⟨sized, -, rows⟩ := image.pack_cases cell
  · exact nomatch packed.symm.trans refused
  · exact nomatch packed.symm.trans refused
  · obtain rfl := Except.ok.inj (packed.symm.trans rows)
    exact ⟨sized, image.packed_rows_packed_as⟩

-- What packing an image of any origin into any cell gives. The size is looked at before the width, and an
-- image of the right size loses nothing.
theorem pack_keeps_pixels (image : GlyphImage) (cell : Cell) :
    (∀ fault, image.pack cell = .error fault ↔
      image.cell ≠ cell ∧ fault = .mismatch cell image.cell ∨
        image.cell = cell ∧ 16 < cell.width ∧ fault = .tooWide cell.width) ∧
    (image.cell = cell → cell.width ≤ 16 →
      ∃ values, image.pack cell = .ok values ∧ image.PackedAs values) ∧
    ∀ (other : GlyphImage) (values : List Nat),
      image.pack cell = .ok values → other.pack cell = .ok values → image = other := by
  refine ⟨fun fault => pack_eq_error_iff, ?_, ?_⟩
  · rintro rfl narrow
    exact ⟨_, image.pack_eq_ok narrow, image.packed_rows_packed_as⟩
  · intro other values packed otherPacked
    obtain ⟨sized, imageRows⟩ := packed_as_of_pack packed
    obtain ⟨otherSized, otherRows⟩ := packed_as_of_pack otherPacked
    exact imageRows.unique otherRows (sized.trans otherSized.symm)

-- The widest row: its first pixel is the highest of sixteen bits. Without columns there still are rows.
theorem sixteen_columns_packed :
    let cell : Cell := ⟨16, 2⟩
    let corners := ofFn cell fun x y => x = 0 ∨ (x = 15 ∧ y = 1)
    let dotted := ((((blank cell).set 0 0 true).1.set 0 1 true).1.set 15 1 true).1
    cell.width ≤ 16 ∧ corners.pack cell = .ok [0x8000, 0x8001] ∧ corners.PackedAs [0x8000, 0x8001] ∧
      dotted.pack cell = .ok [0x8000, 0x8001] ∧ corners = dotted ∧
      (blank ⟨0, 2⟩).pack ⟨0, 2⟩ = .ok [0, 0] := by
  intro cell corners dotted
  have narrow : cell.width ≤ 16 := by decide
  have rows : corners.pack cell = .ok [0x8000, 0x8001] := by decide
  have drawn : dotted.pack cell = .ok [0x8000, 0x8001] := by decide
  obtain ⟨-, packs, injective⟩ := pack_keeps_pixels corners cell
  obtain ⟨values, packed, packedAs⟩ := packs rfl narrow
  obtain rfl := Except.ok.inj (packed.symm.trans rows)
  exact ⟨narrow, rows, packedAs, drawn, injective dotted _ rows drawn, by decide⟩

end GlyphImage

end Bitfont
