import Bitfont.Proofs.PackedRow

namespace Bitfont

theorem slice?_eq (data : Array UInt8) (start count : Nat) :
    slice? data start count =
      if start + count ≤ data.size then some ((data.toList.drop start).take count) else none := by
  unfold slice?
  rw [Array.toList_extract, List.extract_eq_take_drop, Nat.add_sub_cancel_left]

theorem slice?_inside {data : Array UInt8} {start count : Nat} (inside : start + count ≤ data.size) :
    slice? data start count = some ((data.toList.drop start).take count) := by
  rw [slice?_eq, if_pos inside]

theorem slice?_extract {data : Array UInt8} {start size offset count : Nat}
    (part : start + size ≤ data.size) (inside : offset + count ≤ size) :
    slice? (data.extract start (start + size)) offset count = slice? data (start + offset) count := by
  have whole : (data.extract start (start + size)).size = size := by
    rw [Array.size_extract]
    omega
  have enough : count ≤ size - offset := by omega
  rw [slice?_inside (by omega), slice?_inside (by omega), Array.toList_extract,
    List.extract_eq_take_drop, Nat.add_sub_cancel_left, List.drop_take, List.take_take,
    List.drop_drop, Nat.min_eq_left enough]

theorem slice?_eq_some {data : Array UInt8} {start count : Nat} {bytes : List UInt8}
    (found : slice? data start count = some bytes) :
    start + count ≤ data.size ∧ bytes = (data.toList.drop start).take count := by
  rw [slice?_eq] at found
  split at found
  · next inside => exact ⟨inside, (Option.some.inj found).symm⟩
  · contradiction

theorem slice?_length {data : Array UInt8} {start count : Nat} {bytes : List UInt8}
    (found : slice? data start count = some bytes) : bytes.length = count := by
  obtain ⟨inside, rfl⟩ := slice?_eq_some found
  rw [List.length_take, List.length_drop, Array.length_toList]
  omega

theorem eq_of_slices {data other : Array UInt8} {size : Nat} (positive : 0 < size)
    (sameSize : data.size = other.size) (whole : size ∣ data.size)
    (same : ∀ index bytes, slice? data (index * size) size = some bytes →
      slice? other (index * size) size = some bytes) : data = other := by
  apply Array.ext sameSize
  intro position inData inOther
  obtain ⟨count, whole⟩ := whole
  have row : position / size < count := Nat.div_lt_of_lt_mul (whole ▸ inData)
  have rowEnd : (position / size + 1) * size ≤ count * size := Nat.mul_le_mul_right size row
  rw [Nat.succ_mul, Nat.mul_comm count, ← whole] at rowEnd
  have bytes := (same _ _ (slice?_inside rowEnd)).symm.trans (slice?_inside (sameSize ▸ rowEnd))
  have offset := Nat.mod_lt position positive
  have byte := congrArg (·[position % size]?) (Option.some.inj bytes)
  simpa [List.getElem?_take_of_lt offset, Nat.div_add_mod', inData, inOther] using byte

section Sized

variable {α β : Type} {part : α → List β} {size : Nat} {items : List α}

theorem length_flat_map_sized (sized : ∀ item ∈ items, (part item).length = size) :
    (items.flatMap part).length = items.length * size := by
  induction items with
  | nil => exact (Nat.zero_mul size).symm
  | cons first items ih =>
      have later := ih fun item member => sized item (List.mem_cons_of_mem _ member)
      rw [List.flatMap_cons, List.length_append, later, sized first List.mem_cons_self,
        List.length_cons, Nat.succ_mul, Nat.add_comm]

theorem take_drop_flat_map (sized : ∀ item ∈ items, (part item).length = size) {index : Nat}
    {item : α} (found : items[index]? = some item) :
    ((items.flatMap part).drop (index * size)).take size = part item := by
  induction items generalizing index with
  | nil => contradiction
  | cons first items ih =>
      have firstSize := sized first List.mem_cons_self
      cases index with
      | zero =>
          obtain rfl : first = item := Option.some.inj found
          rw [Nat.zero_mul, List.drop_zero, List.flatMap_cons, ← firstSize, List.take_left]
      | succ index =>
          have shift : (index + 1) * size = (part first).length + index * size := by
            rw [firstSize, Nat.succ_mul, Nat.add_comm]
          rw [List.flatMap_cons, shift, ← List.drop_drop, List.drop_left]
          exact ih (fun item member => sized item (List.mem_cons_of_mem _ member)) found

theorem get_elem?_flat_map_sized (sized : ∀ item ∈ items, (part item).length = size) {index : Nat}
    {item : α} (found : items[index]? = some item) {offset : Nat} (inside : offset < size) :
    (items.flatMap part)[index * size + offset]? = (part item)[offset]? := by
  rw [← take_drop_flat_map sized found, List.getElem?_take_of_lt inside, List.getElem?_drop]

theorem flat_map_eq_map_range {value : Nat → β}
    (each : ∀ index item, items[index]? = some item →
      part item = (List.range size).map fun offset => value (index * size + offset)) :
    items.flatMap part = (List.range (items.length * size)).map value := by
  induction items using List.reverseRecOn with
  | nil => simp
  | append_singleton front last ih =>
      have earlier := ih fun index item found => by
        have inside := (List.getElem?_eq_some_iff.mp found).1
        exact each index item ((List.getElem?_append_left inside).trans found)
      have final := each front.length last (by simp)
      rw [List.flatMap_append, List.flatMap_singleton, earlier, final, List.length_append,
        List.length_singleton, Nat.succ_mul, List.range_add, List.map_append, List.map_map]
      rfl

end Sized

section Complete

variable {α : Type} {part : Nat → Option α}

theorem map_some_filter_map {indices : List Nat} (every : ∀ index ∈ indices, ∃ item, part index = some item) :
    (indices.filterMap part).map some = indices.map part := by
  induction indices with
  | nil => rfl
  | cons index indices ih =>
      obtain ⟨item, found⟩ := every index List.mem_cons_self
      have later := ih fun index member => every index (List.mem_cons_of_mem _ member)
      rw [List.filterMap_cons_some found, List.map_cons, List.map_cons, later, found]

variable {count : Nat} (complete : ∀ index, (part index).isSome ↔ index < count)

include complete

theorem map_some_filter_map_range :
    ((List.range count).filterMap part).map some = (List.range count).map part := by
  apply map_some_filter_map
  intro index member
  exact Option.isSome_iff_exists.mp ((complete index).mpr (List.mem_range.mp member))

theorem length_filter_map_range : ((List.range count).filterMap part).length = count := by
  have lengths := congrArg List.length (map_some_filter_map_range complete)
  rwa [List.length_map, List.length_map, List.length_range] at lengths

theorem get_elem?_filter_map_range (index : Nat) :
    ((List.range count).filterMap part)[index]? = part index := by
  by_cases inside : index < count
  · have here := congrArg (·[index]?) (map_some_filter_map_range complete)
    obtain ⟨item, found⟩ := Option.isSome_iff_exists.mp ((complete index).mpr inside)
    simp only [List.getElem?_map, List.getElem?_range inside, Option.map_some, found,
      Option.map_eq_some_iff, Option.some_inj, exists_eq_right] at here
    rw [here, found]
  · have beyond := mt (complete index).mp inside
    rw [List.getElem?_eq_none (by rw [length_filter_map_range complete]; exact Nat.not_lt.mp inside)]
    rw [Option.not_isSome_iff_eq_none] at beyond
    exact beyond.symm

end Complete

namespace PackedGlyphs

variable {glyphs : PackedGlyphs}

structure Holds (glyphs : PackedGlyphs) (values : List Nat) : Prop where
  bytes : glyphs.data.toList = values.flatMap (PackedRow.toBytes glyphs.cell.rowBytes)
  fits : ∀ value ∈ values, value < 2 ^ glyphs.cell.width

theorem Holds.size {values : List Nat} (holds : glyphs.Holds values) :
    glyphs.data.size = values.length * glyphs.cell.rowBytes := by
  rw [← Array.length_toList, holds.bytes]
  exact length_flat_map_sized fun value _ => PackedRow.to_bytes_length _ value

theorem Holds.row? {values : List Nat} (holds : glyphs.Holds values) (wide : 0 < glyphs.cell.width)
    (narrow : glyphs.cell.width ≤ maxRowWidth) (index : Nat) :
    glyphs.row? index = values[index]? := by
  have positive := Cell.row_bytes_pos wide
  have bound : index * glyphs.cell.rowBytes + glyphs.cell.rowBytes ≤
      values.length * glyphs.cell.rowBytes ↔ index < values.length := by
    rw [← Nat.succ_mul]
    exact Nat.mul_le_mul_right_iff positive
  rw [PackedGlyphs.row?, slice?_eq, holds.size]
  by_cases inside : index < values.length
  · have found := List.getElem?_eq_getElem inside
    have member : values[index] ∈ values := List.getElem_mem inside
    have fits : values[index] < 2 ^ (8 * glyphs.cell.rowBytes) :=
      Nat.lt_of_lt_of_le (holds.fits _ member) glyphs.cell.two_pow_width_le
    have bytes := take_drop_flat_map
      (fun value _ => PackedRow.to_bytes_length glyphs.cell.rowBytes value) found
    rw [if_pos (bound.mpr inside), holds.bytes, bytes, found, Option.map_some,
      PackedRow.of_bytes_to_bytes (Cell.row_bytes_le_two narrow) fits]
  · rw [if_neg (mt bound.mp inside), List.getElem?_eq_none (Nat.not_lt.mp inside)]
    rfl

theorem Holds.row_count {values : List Nat} (holds : glyphs.Holds values)
    (wide : 0 < glyphs.cell.width) : glyphs.rowCount = values.length := by
  rw [PackedGlyphs.rowCount, holds.size, Nat.mul_div_cancel _ (Cell.row_bytes_pos wide)]

section Counts

variable (glyphs : PackedGlyphs)

-- A glyph takes the bytes of its rows. This includes glyphs of no bytes, which do not count.
theorem glyph_count_eq_div : glyphs.glyphCount = glyphs.rowCount / glyphs.cell.height :=
  (Nat.div_div_eq_div_mul _ _ _).symm

theorem glyph_count_mul_le : glyphs.glyphCount * glyphs.cell.height ≤ glyphs.rowCount := by
  rw [glyph_count_eq_div]
  exact Nat.div_mul_le_self _ _

theorem leftover_rows_eq_mod : glyphs.leftoverRows = glyphs.rowCount % glyphs.cell.height := by
  rw [leftoverRows, glyph_count_eq_div, Nat.mod_eq_sub_div_mul]

theorem rows_of_glyphs :
    glyphs.glyphCount * glyphs.cell.height + glyphs.leftoverRows = glyphs.rowCount :=
  Nat.add_sub_cancel' glyphs.glyph_count_mul_le

theorem leftover_rows_lt (tall : 0 < glyphs.cell.height) :
    glyphs.leftoverRows < glyphs.cell.height := by
  rw [leftover_rows_eq_mod]
  exact Nat.mod_lt _ tall

theorem group_count_eq (tall : 0 < glyphs.cell.height) :
    glyphs.groupCount = glyphs.glyphCount + if 0 < glyphs.leftoverRows then 1 else 0 := by
  have few := glyphs.leftover_rows_lt tall
  rw [groupCount, ← rows_of_glyphs]
  split
  · next short =>
      apply Nat.div_eq_of_lt_le
      · rw [Nat.succ_mul]
        omega
      · rw [Nat.succ_mul, Nat.succ_mul]
        omega
  · next complete =>
      rw [Nat.add_zero]
      apply Nat.div_eq_of_lt_le
      · omega
      · rw [Nat.succ_mul]
        omega

variable {glyphs}

theorem row_end_le {index : Nat} (inside : index < glyphs.rowCount) :
    index * glyphs.cell.rowBytes + glyphs.cell.rowBytes ≤ glyphs.data.size := by
  rw [← Nat.succ_mul]
  exact Nat.le_trans (Nat.mul_le_mul_right _ inside) (Nat.div_mul_le_self _ _)

theorem row?_inside {index : Nat} (inside : index < glyphs.rowCount) :
    ∃ value, glyphs.row? index = some value := by
  rw [row?, slice?_inside (row_end_le inside)]
  exact ⟨_, rfl⟩

theorem row?_eq_none {index : Nat}
    (beyond : glyphs.data.size < index * glyphs.cell.rowBytes + glyphs.cell.rowBytes) :
    glyphs.row? index = none := by
  rw [row?, slice?, if_neg (Nat.not_le.mpr beyond)]
  rfl

theorem row?_is_some_iff (positive : 0 < glyphs.cell.rowBytes) (index : Nat) :
    (glyphs.row? index).isSome ↔ index < glyphs.rowCount := by
  by_cases inside : index < glyphs.rowCount
  · obtain ⟨value, found⟩ := row?_inside inside
    simp [found, inside]
  · have dataEnd : glyphs.data.size < (index + 1) * glyphs.cell.rowBytes :=
      (Nat.div_lt_iff_lt_mul positive).mp (Nat.lt_succ_of_le (Nat.not_lt.mp inside))
    rw [Nat.succ_mul] at dataEnd
    simp [row?_eq_none dataEnd, inside]

end Counts

theorem glyph?_is_some_iff (index : Nat) :
    (glyphs.glyph? index).isSome ↔ index < glyphs.glyphCount := by
  unfold glyph?
  split
  · next inside => exact iff_of_true rfl inside
  · next outside => exact iff_of_false nofun outside

theorem glyph?_inside {index : Nat} (inside : index < glyphs.glyphCount) :
    ∃ glyph, glyphs.glyph? index = some glyph :=
  Option.isSome_iff_exists.mp ((glyph?_is_some_iff index).mpr inside)

theorem glyph?_cell {index : Nat} {glyph : Glyph} (found : glyphs.glyph? index = some glyph) :
    glyph.cell = glyphs.cell := by
  unfold glyph? at found
  split at found
  · obtain rfl := Option.some.inj found
    rfl
  · contradiction

theorem glyphs_get_elem? (index : Nat) : glyphs.glyphs[index]? = glyphs.glyph? index :=
  get_elem?_filter_map_range glyph?_is_some_iff index

theorem glyphs_length (glyphs : PackedGlyphs) : glyphs.glyphs.length = glyphs.glyphCount :=
  length_filter_map_range glyph?_is_some_iff

theorem glyph_row_slice {index y : Nat} {glyph : Glyph} (found : glyphs.glyph? index = some glyph)
    (hy : y < glyphs.cell.height) :
    ∃ bytes, glyph.row? y = some ⟨glyphs.cell.width, bytes⟩ ∧
      slice? glyphs.data ((index * glyphs.cell.height + y) * glyphs.cell.rowBytes)
        glyphs.cell.rowBytes = some bytes := by
  unfold glyph? at found
  split at found
  next inside =>
    obtain rfl := Option.some.inj found
    have rowEnd : glyphs.cell.rowBytes * y + glyphs.cell.rowBytes ≤ glyphs.cell.glyphBytes :=
      Nat.mul_le_mul_left glyphs.cell.rowBytes hy
    have glyphEnd : index * glyphs.cell.glyphBytes + glyphs.cell.glyphBytes ≤ glyphs.data.size := by
      rw [← Nat.succ_mul]
      exact Nat.le_trans (Nat.mul_le_mul_right _ inside) (Nat.div_mul_le_self _ _)
    -- The row starts at the same byte, counted in rows or in glyphs and the rows of the last.
    have start : (index * glyphs.cell.height + y) * glyphs.cell.rowBytes =
        index * glyphs.cell.glyphBytes + glyphs.cell.rowBytes * y := by
      rw [Cell.glyphBytes, Nat.add_mul, Nat.mul_assoc, Nat.mul_comm glyphs.cell.height,
        Nat.mul_comm y]
    have inside : (index * glyphs.cell.height + y) * glyphs.cell.rowBytes + glyphs.cell.rowBytes ≤
        glyphs.data.size := by omega
    have bytes := slice?_inside inside
    refine ⟨_, ?_, bytes⟩
    rw [Glyph.row?, if_pos hy]
    dsimp only
    rw [slice?_extract glyphEnd rowEnd, ← start, bytes]
    rfl
  next => contradiction

theorem glyph_row? {index y : Nat} {glyph : Glyph} (found : glyphs.glyph? index = some glyph)
    (hy : y < glyphs.cell.height) :
    ∃ bytes, glyph.row? y = some ⟨glyphs.cell.width, bytes⟩ ∧
      glyphs.row? (index * glyphs.cell.height + y) = some (PackedRow.ofBytes bytes) := by
  obtain ⟨bytes, line, slice⟩ := glyph_row_slice found hy
  exact ⟨bytes, line, congrArg (Option.map PackedRow.ofBytes) slice⟩

theorem glyph_row?_is_some_iff {index : Nat} {glyph : Glyph} (found : glyphs.glyph? index = some glyph)
    (y : Nat) : (glyph.row? y).isSome ↔ y < glyph.cell.height := by
  constructor
  · intro present
    by_contra outside
    rw [Glyph.row?, if_neg outside] at present
    contradiction
  · intro hy
    obtain ⟨bytes, line, -⟩ := glyph_row? found (glyph?_cell found ▸ hy)
    rw [line]
    rfl

theorem glyph_rows_get_elem? {index : Nat} {glyph : Glyph} (found : glyphs.glyph? index = some glyph)
    (y : Nat) : glyph.rows[y]? = glyph.row? y :=
  get_elem?_filter_map_range (glyph_row?_is_some_iff found) y

theorem glyph_rows_length {index : Nat} {glyph : Glyph} (found : glyphs.glyph? index = some glyph) :
    glyph.rows.length = glyphs.cell.height :=
  (length_filter_map_range (glyph_row?_is_some_iff found)).trans
    (congrArg Cell.height (glyph?_cell found))

theorem glyph_pixel? {index x y value : Nat} {glyph : Glyph}
    (found : glyphs.glyph? index = some glyph) (hx : x < glyphs.cell.width)
    (hy : y < glyphs.cell.height)
    (row : glyphs.row? (index * glyphs.cell.height + y) = some value) :
    glyph.pixel? x y = some (value.testBit (glyphs.cell.width - 1 - x)) := by
  obtain ⟨bytes, line, same⟩ := glyph_row? found hy
  obtain rfl : PackedRow.ofBytes bytes = value := Option.some.inj (same.symm.trans row)
  simp [Glyph.pixel?, line, Scanline.pixels, Scanline.value, PackedRow.pixels, PackedRow.pixel, hx]

end PackedGlyphs

end Bitfont
