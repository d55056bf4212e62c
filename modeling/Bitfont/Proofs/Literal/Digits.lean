import Bitfont.Proofs.Literal.Rows
import Bitfont.Proofs.PackedGlyphs

namespace Bitfont

namespace Literal

section Numerals

variable (source : RowSequence) (style : Style)

def numeral (row : Nat) : Text :=
  Numeral.hexadecimal style.letterCase style.element.hexDigits row

theorem group_digits_eq_map (group : Nat) :
    groupDigits source style group =
      (groupValues source style.language group).map (numeral style) := by
  rw [group_values_eq_range, List.map_map]
  rfl

theorem numerals_of_body (nonempty : source.rowCount ≠ 0) :
    ∃ runs count, readDigits style (body source style) = some runs ∧
      source.rowCount ≤ count ∧
      runs.flatten = (List.range count).map fun index => numeral style (source.row index) := by
  cases layout : style.layout with
  | flat =>
      have digits := read_digits_flat source style layout nonempty
      refine ⟨_, source.rowCount, digits, Nat.le_refl _, ?_⟩
      simp [runDigits, numeral]
  | grouped =>
      have values := flatten_group_values source style.language
      have whole : source.rowCount ≤ groupedLength source style.language := by
        cases style.language with
        | c => exact Nat.le_refl _
        | rust => exact row_count_le_groups source
      refine ⟨_, groupedLength source style.language, read_digits_grouped source style layout, whole, ?_⟩
      have numerals : groupDigits source style =
          fun group => (groupValues source style.language group).map (numeral style) :=
        funext (group_digits_eq_map source style)
      have mapped := congrArg (List.map (numeral style)) values
      rw [List.map_flatten, List.map_map, List.map_map] at mapped
      rw [numerals]
      exact mapped

theorem Element.bits_eq_digits (element : Element) : element.bits = 4 * element.hexDigits := by
  cases element <;> rfl

theorem Element.bits_cases (element : Element) : element.bits = 8 ∨ element.bits = 16 := by
  cases element with
  | u8 => exact .inl rfl
  | u16 => exact .inr rfl

theorem numeral_length {row : Nat} (fits : row < 2 ^ style.element.bits) :
    (numeral style row).length = style.element.hexDigits := by
  have positive : 0 < style.element.hexDigits := by cases style.element <;> decide
  rw [Element.bits_eq_digits, Nat.pow_mul] at fits
  exact Numeral.hexadecimal_length style.letterCase positive fits

end Numerals

theorem Element.row_bytes_le {element : Element} {cell : Cell} (narrow : cell.width ≤ element.bits) :
    8 * cell.rowBytes ≤ element.bits := by
  have bits := element.bits_cases
  unfold Cell.rowBytes
  omega

end Literal

namespace PackedGlyphs

variable {glyphs : PackedGlyphs} {element : Literal.Element}

theorem row?_eq_big_endian (narrow : glyphs.cell.width ≤ element.bits) (index : Nat) :
    glyphs.row? index =
      (slice? glyphs.data (index * glyphs.cell.rowBytes) glyphs.cell.rowBytes).map
        PackedRow.bigEndian := by
  have few : glyphs.cell.rowBytes ≤ 2 := by
    have bytes := Literal.Element.row_bytes_le narrow
    have bits := element.bits_cases
    omega
  rw [row?]
  cases found : slice? glyphs.data (index * glyphs.cell.rowBytes) glyphs.cell.rowBytes with
  | none => rfl
  | some bytes =>
      have length := slice?_length found
      exact congrArg some (PackedRow.of_bytes_eq_big_endian (length ▸ few))

theorem row_lt (narrow : glyphs.cell.width ≤ element.bits) (index : Nat) :
    glyphs.rowSequence.row index < 2 ^ element.bits := by
  change (glyphs.row? index).getD 0 < 2 ^ element.bits
  rw [row?_eq_big_endian narrow]
  cases found : slice? glyphs.data (index * glyphs.cell.rowBytes) glyphs.cell.rowBytes with
  | none => exact Nat.two_pow_pos _
  | some bytes =>
      calc PackedRow.bigEndian bytes
          < 256 ^ bytes.length := PackedRow.big_endian_lt bytes
        _ = 2 ^ (8 * glyphs.cell.rowBytes) := by rw [slice?_length found, Nat.pow_mul]
        _ ≤ 2 ^ element.bits :=
            Nat.pow_le_pow_right (by decide) (Literal.Element.row_bytes_le narrow)

theorem row_eq_big_endian (narrow : glyphs.cell.width ≤ element.bits) {index : Nat}
    (inside : index < glyphs.rowCount) :
    index * glyphs.cell.rowBytes + glyphs.cell.rowBytes ≤ glyphs.data.size ∧
      glyphs.rowSequence.row index = PackedRow.bigEndian
        ((glyphs.data.toList.drop (index * glyphs.cell.rowBytes)).take glyphs.cell.rowBytes) := by
  have rowEnd := row_end_le inside
  refine ⟨rowEnd, ?_⟩
  change (glyphs.row? index).getD 0 = _
  rw [row?_eq_big_endian narrow, slice?_inside rowEnd]
  rfl

end PackedGlyphs

namespace Literal

-- The literal of any packed glyphs that is written at all: an element that is wide enough for the
-- pixels of a row is wide enough for its bytes, the unused bits included.
theorem literal_cuts_no_row (glyphs : PackedGlyphs) (style : Style) (literal : Text)
    (made : text glyphs.rowSequence style = .ok literal) :
    let rowBytes := glyphs.cell.width ⌈/⌉ 8
    ∃ body runs,
      literal = preamble style ++ declaration style (dimensions glyphs.rowSequence style.layout) ++
        body ++ closing style.language ∧
      readDigits style body = some runs ∧
      (∀ run ∈ runs, ∀ digits ∈ run,
        digits.length = (match style.element with | .u8 => 2 | .u16 => 4) ∧
        (∀ c ∈ digits, c ∈ style.letterCase.alphabet) ∧
        Numeral.ofHexadecimal digits < 2 ^ style.element.bits) ∧
      ∀ index < glyphs.rowCount, ∃ digits, runs.flatten[index]? = some digits ∧
        index * rowBytes + rowBytes ≤ glyphs.data.size ∧
        Numeral.ofHexadecimal digits =
          PackedRow.bigEndian ((glyphs.data.toList.drop (index * rowBytes)).take rowBytes) := by
  intro rowBytes
  have bytes : rowBytes = glyphs.cell.rowBytes := Nat.ceilDiv_eq_add_pred_div _ _
  obtain ⟨nonempty, narrow, parts⟩ := (text_eq_ok_iff _ style literal).mp made
  obtain ⟨runs, count, read, whole, flat⟩ := numerals_of_body glyphs.rowSequence style nonempty
  refine ⟨_, runs, parts.symm, read, ?_, ?_⟩
  · intro run inRuns digits inRun
    have member : digits ∈ runs.flatten := List.mem_flatten.mpr ⟨run, inRuns, inRun⟩
    rw [flat] at member
    obtain ⟨index, -, rfl⟩ := List.mem_map.mp member
    have fits := PackedGlyphs.row_lt narrow index
    refine ⟨?_, fun c => Numeral.mem_alphabet_of_mem, ?_⟩
    · rw [numeral_length style fits]
      cases style.element <;> rfl
    · rw [numeral, Numeral.of_hexadecimal_hexadecimal]
      exact fits
  · intro index inside
    obtain ⟨rowEnd, value⟩ := PackedGlyphs.row_eq_big_endian narrow inside
    have before : index < count := Nat.lt_of_lt_of_le inside whole
    refine ⟨numeral style (glyphs.rowSequence.row index), ?_, bytes ▸ rowEnd, ?_⟩
    · rw [flat, List.getElem?_map, List.getElem?_range before]
      rfl
    · rw [numeral, Numeral.of_hexadecimal_hexadecimal, value, bytes]

-- Rows of twelve pixels: the four bits before the pixels are set in two of the three rows, and stand in
-- the literal.
theorem unused_bits_are_written :
    let glyphs : PackedGlyphs := ⟨⟨12, 2⟩, #[0xF1, 0x23, 0x00, 0x07, 0xAB, 0xCD]⟩
    let style := { Style.grouped "T".toList with language := .rust, element := .u16 }
    let literal := ("static T: [[u16; 2]; 2] = [\n    [0xF123, 0x0007],\n" ++
      "    [0xABCD, 0x0000],\n];\n").toList
    text glyphs.rowSequence style = .ok literal ∧
      ∃ body runs digits, readDigits style body = some runs ∧ runs.flatten[2]? = some digits ∧
        digits.length = 4 ∧ Numeral.ofHexadecimal digits = 0xABCD := by
  intro glyphs style literal
  have made : text glyphs.rowSequence style = .ok literal := by
    rw [text_eq_ok_iff]
    exact ⟨by decide, by decide, by decide⟩
  obtain ⟨body, runs, -, read, shaped, rows⟩ := literal_cuts_no_row glyphs style literal made
  obtain ⟨digits, found, -, value⟩ := rows 2 (by decide)
  obtain ⟨run, inRuns, inRun⟩ := List.mem_flatten.mp (List.mem_of_getElem? found)
  exact ⟨made, body, runs, digits, read, found, (shaped run inRuns digits inRun).1,
    value.trans (by decide)⟩

end Literal
end Bitfont
