import Bitfont.Typeface
import Bitfont.Proofs.Literal.Rows
import Bitfont.Proofs.Strike.Build

namespace Bitfont

namespace Strike

variable {strike : Strike} {images : List GlyphImage}

section Groups

variable (holds : strike.Holds images) (wide : 0 < strike.cell.width)
  (narrow : strike.cell.width ≤ maxRowWidth)

include holds wide

theorem Holds.row_sequence_row_count :
    strike.rowSequence.rowCount = images.length * strike.cell.height := by
  have count : strike.rowSequence.rowCount = (images.flatMap GlyphImage.packedRows).length :=
    holds.glyphs.row_count wide
  rw [count, length_flat_map_sized holds.packed_rows_length]

include narrow

theorem Holds.group_values (tall : 0 < strike.cell.height) (language : Literal.Language)
    {index : Nat} {image : GlyphImage} (found : images[index]? = some image) :
    Literal.groupValues strike.rowSequence language index = image.packedRows := by
  have sameCell := holds.cells image (List.mem_of_getElem? found)
  have size : Literal.groupSize strike.rowSequence = strike.cell.height := Nat.max_eq_left tall
  have inside : (index + 1) * strike.cell.height ≤ images.length * strike.cell.height :=
    Nat.mul_le_mul_right _ (List.getElem?_eq_some_iff.mp found).1
  have written : Literal.writtenRows strike.rowSequence (index * strike.cell.height) language =
      strike.cell.height := by
    cases language with
    | c =>
        rw [Nat.succ_mul] at inside
        rw [Literal.writtenRows, size, holds.row_sequence_row_count wide]
        omega
    | rust => exact size
  rw [Literal.group_values_eq_range, size, written, GlyphImage.packedRows,
    GlyphImage.rows_eq_map_line, List.map_map, sameCell]
  apply List.map_congr_left
  intro y member
  have row := holds.row? wide narrow found (List.mem_range.mp member)
  exact congrArg (Option.getD · 0) row

theorem Holds.denotes (tall : 0 < strike.cell.height) (style : Literal.Style)
    (layout : style.layout = .grouped) {literal : Text}
    (written : Literal.text strike.rowSequence style = .ok literal) :
    Literal.Denotes style literal [images.length, strike.cell.height]
      (images.map GlyphImage.packedRows) := by
  have denotes := Literal.denotes_grouped strike.rowSequence style layout written
  have size : Literal.groupSize strike.rowSequence = strike.cell.height := Nat.max_eq_left tall
  have count : images.length * strike.cell.height ⌈/⌉ strike.cell.height = images.length := by
    rw [Nat.ceilDiv_eq_add_pred_div, Nat.add_sub_assoc tall, Nat.add_comm,
      Nat.add_mul_div_right _ _ tall, Nat.div_eq_of_lt (by omega), Nat.zero_add]
  have groups : (List.range images.length).map
      (Literal.groupValues strike.rowSequence style.language) =
        images.map GlyphImage.packedRows := by
    apply List.ext_getElem (by simp)
    intro index _ inside
    have found := List.getElem?_eq_getElem (by simpa using inside)
    simpa using holds.group_values wide narrow tall style.language found
  rw [size, holds.row_sequence_row_count wide, count, groups] at denotes
  exact denotes

end Groups

end Strike

namespace Typeface

variable {σ ε : Type}

theorem narrowest_of_le {width : Nat} (narrow : width ≤ 16) :
    ∃ element, Literal.Element.narrowest width = some element ∧ width ≤ element.bits := by
  unfold Literal.Element.narrowest
  by_cases oneByte : width ≤ 8
  · exact ⟨.u8, if_pos oneByte, oneByte⟩
  · exact ⟨.u16, by rw [if_neg oneByte, if_pos narrow], narrow⟩

theorem chosen_element_holds {format : Format} (narrow : format.cell.width ≤ 16)
    (enough : ∀ element, format.element = some element → format.cell.width ≤ element.bits) :
    ∃ element, format.chosenElement = some element ∧ format.cell.width ≤ element.bits := by
  unfold Format.chosenElement
  cases given : format.element with
  | none => exact narrowest_of_le narrow
  | some element => exact ⟨element, rfl, enough element given⟩

theorem convert_build_error {render : Renderer σ ε} {format : Format} {origin : Option Text} {state : σ}
    {failure : CodeFailure ε}
    (failed : (Strike.build render format.codes format.cell state).result = .error failure) :
    (convert render format origin state).result = .error (.build failure) := by
  simp only [convert, failed]

theorem convert_result {render : Renderer σ ε} {format : Format} {origin : Option Text} {state : σ}
    {strike : Strike} {element : Literal.Element} {literal : Text}
    (built : (Strike.build render format.codes format.cell state).result = .ok strike)
    (chosen : format.chosenElement = some element)
    (written : Literal.text strike.rowSequence (format.literalStyle element origin) = .ok literal) :
    (convert render format origin state).result = .ok literal := by
  simp only [convert, built, Format.write, chosen, written]
  rfl

theorem text_of_strike {strike : Strike} {images : List GlyphImage} (holds : strike.Holds images)
    (wide : 0 < strike.cell.width) (tall : 0 < strike.cell.height) (nonempty : 0 < images.length)
    (style : Literal.Style) (fits : strike.cell.width ≤ style.element.bits) :
    ∃ literal, Literal.text strike.rowSequence style = .ok literal := by
  have rows : strike.rowSequence.rowCount ≠ 0 := by
    rw [holds.row_sequence_row_count wide]
    exact Nat.ne_of_gt (Nat.mul_pos nonempty tall)
  exact ⟨_, (Literal.text_eq_ok_iff strike.rowSequence style _).mpr ⟨rows, fits, rfl⟩⟩

-- The renderer may keep a state from call to call; the images are those that it gives when it is
-- asked for code after code.
theorem convert_denotes_images (render : Renderer σ ε) (format : Format) (origin : Option Text)
    (state : σ) (images : Nat → GlyphImage) (wide : 1 ≤ format.cell.width)
    (narrow : format.cell.width ≤ 16) (tall : 1 ≤ format.cell.height)
    (ordered : format.codes.first < format.codes.last)
    (enough : ∀ element, format.element = some element → format.cell.width ≤ element.bits)
    (renders : Renderer.Renders render format.cell format.codes.first format.codes.last state images) :
    ∃ element literal groups, format.chosenElement = some element ∧
      (convert render format origin state).result = .ok literal ∧
      Literal.Denotes (format.literalStyle element origin) literal
        [format.codes.last - format.codes.first, format.cell.height] groups ∧
      groups.length = format.codes.last - format.codes.first ∧
      (∀ group ∈ groups, group.length = format.cell.height ∧
        ∀ value ∈ group, value < 2 ^ format.cell.width) ∧
      ∀ code x y, format.codes.first ≤ code → code < format.codes.last →
        x < format.cell.width → y < format.cell.height →
        ∃ group value, groups[code - format.codes.first]? = some group ∧ group[y]? = some value ∧
          (images code).pixel? x y = some (value.testBit (format.cell.width - 1 - x)) := by
  obtain ⟨element, chosen, fits⟩ := chosen_element_holds narrow enough
  obtain ⟨strike, built, sameCell, holds⟩ := Strike.build_holds narrow renders
  have count : ((List.Ico format.codes.first format.codes.last).map images).length =
      format.codes.last - format.codes.first := by simp
  have member : ∀ image ∈ (List.Ico format.codes.first format.codes.last).map images,
      image.cell = format.cell := fun image inside => (holds.cells image inside).trans sameCell
  rw [← sameCell] at wide narrow tall fits
  obtain ⟨literal, written⟩ :=
    text_of_strike holds wide tall (by omega) (format.literalStyle element origin) fits
  have denotes := holds.denotes wide narrow tall (format.literalStyle element origin) rfl written
  rw [count, sameCell] at denotes
  refine ⟨element, literal, _, chosen, convert_result built chosen written, denotes, by simp, ?_, ?_⟩
  · intro group inside
    obtain ⟨image, rendered, rfl⟩ := List.mem_map.mp inside
    rw [← member image rendered]
    exact ⟨image.packed_rows_length, fun value packed => image.lt_of_mem_packed_rows packed⟩
  · intro code x y above below hx hy
    have found : ((List.Ico format.codes.first format.codes.last).map images)[code -
        format.codes.first]? = some (images code) := by
      have shift : format.codes.first + (code - format.codes.first) = code := by omega
      have inside : code - format.codes.first < format.codes.last - format.codes.first := by omega
      simp [List.Ico, inside, shift]
    -- The group is the packed rows of the image, of which each bit is a pixel.
    have size := (renders code above below).2
    rw [← size] at hx hy ⊢
    refine ⟨(images code).packedRows, _, ?_, (images code).packed_rows_get_elem? hy,
      (images code).test_bit_packed_row hx hy⟩
    rw [List.getElem?_map, found, Option.map_some]

-- A renderer that draws its bar one column further right at each call: the second image, whose rows
-- take two bytes, has its bar in column 1.
theorem moving_bar_read_back :
    let render : Renderer Nat Unit := fun _ cell calls =>
      { result := .ok (GlyphImage.ofFn cell fun x _ => x = calls), state := calls + 1 }
    let format : Format := ⟨⟨65, 67⟩, ⟨9, 2⟩, "f".toList, none, .rust, .upper, some 1⟩
    ∃ element literal groups group value, (convert render format none 0).result = .ok literal ∧
      Literal.Denotes (format.literalStyle element none) literal [2, 2] groups ∧
      groups[1]? = some group ∧ group[0]? = some value ∧ value.testBit 7 = true := by
  intro render format
  have renders : Renderer.Renders render format.cell 65 67 0
      fun code => GlyphImage.ofFn format.cell fun x _ => x = code - 65 := by
    intro code above below
    obtain rfl | rfl : code = 65 ∨ code = 66 := by omega
    · exact ⟨rfl, rfl⟩
    · exact ⟨rfl, rfl⟩
  obtain ⟨element, literal, groups, -, converted, denotes, -, -, pixels⟩ :=
    convert_denotes_images render format none 0 _ (by decide) (by decide) (by decide) (by decide)
      (fun _ given => nomatch given) renders
  obtain ⟨group, value, second, top, pixel⟩ := pixels 66 1 0 (by decide) (by decide) (by decide)
    (by decide)
  have bar := GlyphImage.pixel?_of_fn format.cell (fun x _ => x = 66 - 65) (x := 1) (y := 0)
    (by decide) (by decide)
  have bit : true = value.testBit 7 := Option.some.inj (bar.symm.trans pixel)
  exact ⟨element, literal, groups, group, value, converted, denotes, second, top, bit.symm⟩

end Typeface

end Bitfont
