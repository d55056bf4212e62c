import Bitfont.Proofs.PackedGlyphs

namespace Bitfont.PackedGlyphs

variable {glyphs : PackedGlyphs}

theorem map_some_glyph_values {index : Nat} {glyph : Glyph} (found : glyphs.glyph? index = some glyph) :
    (glyph.rows.map Scanline.value).map some =
      (List.range glyphs.cell.height).map fun y => glyphs.row? (index * glyphs.cell.height + y) := by
  apply List.ext_getElem?
  intro y
  by_cases hy : y < glyphs.cell.height
  · obtain ⟨bytes, line, row⟩ := glyph_row? found hy
    simp only [List.getElem?_map, glyph_rows_get_elem? found, line, List.getElem?_range hy, Option.map_some,
      row, Scanline.value]
  · have few := glyph_rows_length found
    rw [List.getElem?_eq_none, List.getElem?_eq_none]
    · simpa using hy
    · simpa [few] using hy

theorem map_some_values (glyphs : PackedGlyphs) :
    (glyphs.glyphs.flatMap fun glyph => glyph.rows.map Scanline.value).map some =
      (List.range (glyphs.glyphCount * glyphs.cell.height)).map glyphs.row? := by
  rw [List.map_flatMap, ← glyphs_length]
  apply flat_map_eq_map_range
  intro index glyph listed
  exact map_some_glyph_values ((glyphs_get_elem? index).symm.trans listed)

theorem map_some_leftover (glyphs : PackedGlyphs) :
    ∃ values : List Nat, values.map some = (List.range glyphs.leftoverRows).map fun offset =>
      glyphs.row? (glyphs.glyphCount * glyphs.cell.height + offset) := by
  refine ⟨_, map_some_filter_map ?_⟩
  intro offset member
  apply row?_inside
  rw [← rows_of_glyphs]
  exact Nat.add_lt_add_left (List.mem_range.mp member) _

-- The glyphs hold the first rows, in order, and the leftover rows are those after them. The first
-- statement holds of all data and every cell: the subtraction in the count of leftover rows is exact.
theorem rows_are_glyphs_and_leftover (glyphs : PackedGlyphs) :
    glyphs.glyphCount * glyphs.cell.height ≤ glyphs.rowCount ∧
    (1 ≤ glyphs.cell.width → 1 ≤ glyphs.cell.height →
      (∀ index, (glyphs.glyph? index).isSome ↔ index < glyphs.glyphCount) ∧
      glyphs.glyphs.length = glyphs.glyphCount ∧
      (∀ index, glyphs.glyphs[index]? = glyphs.glyph? index) ∧
      (∀ glyph ∈ glyphs.glyphs, glyph.rows.length = glyphs.cell.height) ∧
      (∀ index < glyphs.glyphCount, ∀ y < glyphs.cell.height, ∃ glyph row,
        glyphs.glyph? index = some glyph ∧ glyph.row? y = some row ∧ glyph.rows[y]? = some row ∧
        glyphs.row? (index * glyphs.cell.height + y) = some row.value) ∧
      (∃ leftover : List Nat,
        leftover.map some = (List.range glyphs.leftoverRows).map (fun offset =>
          glyphs.row? (glyphs.glyphCount * glyphs.cell.height + offset)) ∧
        ((glyphs.glyphs.flatMap fun glyph => glyph.rows.map Scanline.value) ++ leftover).map some =
          (List.range glyphs.rowCount).map glyphs.row?) ∧
      glyphs.leftoverRows < glyphs.cell.height ∧
      glyphs.groupCount = glyphs.glyphCount + if 0 < glyphs.leftoverRows then 1 else 0) := by
  refine ⟨glyphs.glyph_count_mul_le, ?_⟩
  intro wide tall
  refine ⟨glyph?_is_some_iff, glyphs.glyphs_length, glyphs_get_elem?, ?_, ?_, ?_,
    glyphs.leftover_rows_lt tall, glyphs.group_count_eq tall⟩
  · intro glyph member
    obtain ⟨index, listed⟩ := List.mem_iff_getElem?.mp member
    exact glyph_rows_length ((glyphs_get_elem? index).symm.trans listed)
  · intro index inside y hy
    obtain ⟨glyph, found⟩ := glyph?_inside inside
    obtain ⟨bytes, line, row⟩ := glyph_row? found hy
    exact ⟨glyph, _, found, line, (glyph_rows_get_elem? found y).trans line, row⟩
  · obtain ⟨leftover, after⟩ := glyphs.map_some_leftover
    refine ⟨leftover, after, ?_⟩
    rw [List.map_append, map_some_values, after, ← rows_of_glyphs, List.range_add, List.map_append,
      List.map_map]
    rfl

-- Two rows of two bytes make a glyph. Eleven bytes are two glyphs, one more row, and a byte that belongs to
-- no row.
theorem row_and_byte_after_last_glyph :
    let glyphs : PackedGlyphs := ⟨⟨9, 2⟩, #[1, 0, 2, 0, 3, 0, 4, 0, 5, 0, 6]⟩
    (1 ≤ glyphs.cell.width ∧ 1 ≤ glyphs.cell.height) ∧
      glyphs.glyphs.length = 2 ∧ glyphs.groupCount = 3 ∧
      ((glyphs.glyphs.flatMap fun glyph => glyph.rows.map Scanline.value) ++ [0x500] : List Nat).map some =
        (List.range 5).map glyphs.row? := by
  intro glyphs
  refine ⟨by decide, ?_⟩
  obtain ⟨-, agree⟩ := rows_are_glyphs_and_leftover glyphs
  obtain ⟨-, length, -, -, -, ⟨leftover, after, rows⟩, -, groups⟩ := agree (by decide) (by decide)
  have two : glyphs.glyphCount = 2 := by decide
  have one : glyphs.leftoverRows = 1 := by decide
  have five : glyphs.rowCount = 5 := by decide
  have fifth : glyphs.row? (2 * glyphs.cell.height) = some 0x500 := by decide
  obtain rfl : leftover = [0x500] := by simpa [two, one, fifth] using after
  rw [five] at rows
  rw [two, one] at groups
  exact ⟨length.trans two, groups, rows⟩

end Bitfont.PackedGlyphs
