import Bitfont.Proofs.Literal.Rows
import Bitfont.Proofs.PackedGlyphs

namespace Bitfont.Literal

def before? (back text : Text) : Option Text :=
  if back.isSuffixOf text then some (text.take (text.length - back.length)) else none

def filled (count size : Nat) (groups : List (List Nat)) : Language → Option (List (List Nat))
  | .c =>
      if groups.length ≤ count ∧ ∀ group ∈ groups, group.length ≤ size then
        some ((groups.map (List.rightpad size 0)).rightpad count (List.replicate size 0))
      else none
  | .rust =>
      if groups.length = count ∧ ∀ group ∈ groups, group.length = size then some groups else none

-- The array as its compiler sees it; `none` for what is no grouped literal in this style.
def array? (style : Style) (literal : Text) : Option (List (List Nat)) := do
  let text ← after? (preamble style) literal
  let text ← after? (declarationHead style) text
  let (sizes, text) ← readDimensions style text
  let text ← after? (declarationEnd style.language) text
  let body ← before? (closing style.language) text
  let groups ← readBody style body
  match sizes with
  | [count, size] => filled count size groups style.language
  | _ => none

def matrix (count size : Nat) (element : Nat → Nat) : List (List Nat) :=
  (List.range count).map fun group => (List.range size).map fun index => element (group * size + index)

theorem before?_append (front back : Text) : before? back (front ++ back) = some front := by
  rw [before?, if_pos (List.isSuffixOf_iff_suffix.mpr (List.suffix_append front back)),
    List.length_append, Nat.add_sub_cancel, List.take_left]

theorem read_dimensions_append (style : Style) {sizes : List Nat}
    (depth : sizes.length = style.layout.depth) (rest : Text) :
    ∃ dimensions, declaration style sizes =
        declarationHead style ++ (dimensions ++ declarationEnd style.language) ∧
      readDimensions style (dimensions ++ rest) = some (sizes, rest) := by
  cases language : style.language with
  | c =>
      refine ⟨cDimensions sizes, language ▸ declaration_c style sizes language, ?_⟩
      rw [readDimensions, language, ← depth]
      exact read_sizes_c_dimensions sizes rest
  | rust =>
      refine ⟨rustType (elementText style) sizes, language ▸ declaration_rust style sizes language, ?_⟩
      rw [readDimensions, language, ← depth]
      exact read_nested_rust_type (elementText style) sizes rest

theorem array?_of_denotes {style : Style} (layout : style.layout = .grouped) {literal : Text}
    {count size : Nat} {groups : List (List Nat)}
    (denotes : Denotes style literal [count, size] groups) :
    array? style literal = filled count size groups style.language := by
  obtain ⟨line, body, rfl, rfl, -, values⟩ := denotes
  have depth : [count, size].length = style.layout.depth := by
    rw [layout]
    rfl
  obtain ⟨dimensions, split, read⟩ := read_dimensions_append style depth
    (declarationEnd style.language ++ (body ++ closing style.language))
  have parts : preamble style ++ declaration style [count, size] ++ body ++ closing style.language =
      preamble style ++ (declarationHead style ++ (dimensions ++
        (declarationEnd style.language ++ (body ++ closing style.language)))) := by
    rw [split]
    simp only [List.append_assoc]
  simp only [array?, parts, after?_append, before?_append, read, values, Option.bind_eq_bind,
    Option.bind_some]

theorem matrix_eq_iff (count size : Nat) (element other : Nat → Nat) :
    matrix count size element = matrix count size other ↔
      ∀ index, index < count * size → element index = other index := by
  simp only [matrix, List.map_inj_left, List.mem_range]
  constructor
  · intro same index inside
    have positive : 0 < size := Nat.pos_of_lt_mul_left inside
    have element := same (index / size) ((Nat.div_lt_iff_lt_mul positive).mpr inside) (index % size)
      (Nat.mod_lt index positive)
    rwa [Nat.div_add_mod'] at element
  · intro same group below index inside
    have groupEnd : (group + 1) * size ≤ count * size := Nat.mul_le_mul_right size below
    rw [Nat.succ_mul] at groupEnd
    exact same (group * size + index) (by omega)

section Filled

variable (source : RowSequence)

theorem length_group_values_le (language : Language) (group : Nat) :
    (groupValues source language group).length ≤ groupSize source := by
  rw [group_values_eq_range, List.length_map, List.length_range]
  cases language with
  | c => exact Nat.min_le_left _ _
  | rust => exact Nat.le_refl _

theorem rightpad_group_values (group : Nat) :
    (groupValues source .c group).rightpad (groupSize source) 0 =
      (List.range (groupSize source)).map fun index =>
        if group * groupSize source + index < source.rowCount then
          source.row (group * groupSize source + index) else 0 := by
  have short := length_group_values_le source .c group
  have length : (groupValues source .c group).length =
      writtenRows source (group * groupSize source) .c := by
    rw [group_values_eq_range, List.length_map, List.length_range]
  unfold List.rightpad
  apply List.ext_getElem
  · simp only [List.length_append, List.length_replicate, List.length_map, List.length_range]
    omega
  · intro index _ inside
    have below : index < groupSize source := by simpa using inside
    have written : index < (groupValues source .c group).length ↔
        group * groupSize source + index < source.rowCount := by
      rw [length]
      dsimp only [writtenRows]
      omega
    rw [List.getElem_map, List.getElem_range]
    by_cases row : group * groupSize source + index < source.rowCount
    · rw [if_pos row, List.getElem_append_left (written.mpr row)]
      simp [group_values_eq_range]
    · rw [if_neg row, List.getElem_append_right (Nat.not_lt.mp (mt written.mp row))]
      simp

theorem filled_group_values (language : Language) :
    filled (groupCount source) (groupSize source)
        ((List.range (groupCount source)).map (groupValues source language)) language =
      some (matrix (groupCount source) (groupSize source) (match language with
        | .c => fun index => if index < source.rowCount then source.row index else 0
        | .rust => source.row)) := by
  cases language with
  | c =>
      have fits : ∀ group ∈ (List.range (groupCount source)).map (groupValues source .c),
          group.length ≤ groupSize source := by
        intro group member
        obtain ⟨index, -, rfl⟩ := List.mem_map.mp member
        exact length_group_values_le source .c index
      have complete : ((List.range (groupCount source)).map (groupValues source .c)).length =
          groupCount source := by simp
      rw [filled, if_pos ⟨Nat.le_of_eq complete, fits⟩, List.rightpad, List.length_map, complete,
        Nat.sub_self, List.replicate_zero, List.append_nil, List.map_map]
      exact congrArg some (List.map_congr_left fun group _ => rightpad_group_values source group)
  | rust =>
      have full : ∀ group ∈ (List.range (groupCount source)).map (groupValues source .rust),
          group.length = groupSize source := by
        intro group member
        obtain ⟨index, -, rfl⟩ := List.mem_map.mp member
        rw [group_values_eq_range, List.length_map, List.length_range, writtenRows]
      rw [filled, if_pos ⟨by simp, full⟩]
      exact congrArg some (List.map_congr_left fun group _ => group_values_eq_range source .rust group)

theorem array?_of_written {style : Style} (layout : style.layout = .grouped) {literal : Text}
    (written : Written source style literal) :
    array? style literal = some (matrix (groupCount source) (groupSize source)
      (match style.language with
        | .c => fun index => if index < source.rowCount then source.row index else 0
        | .rust => source.row)) := by
  have whole := (written_iff source style literal).mp written
  have denotes := denotes_grouped source style layout whole
  rw [← group_count_eq_ceil_div] at denotes
  rw [array?_of_denotes layout denotes, filled_group_values]

theorem row_past_packed_glyphs {glyphs : PackedGlyphs} (nonempty : glyphs.rowCount ≠ 0) {index : Nat}
    (past : glyphs.rowCount ≤ index) : glyphs.rowSequence.row index = 0 := by
  have positive : 0 < glyphs.cell.rowBytes := by
    apply Nat.pos_of_ne_zero
    intro none
    exact nonempty (by rw [PackedGlyphs.rowCount, none, Nat.div_zero])
  have missing := mt (PackedGlyphs.row?_is_some_iff positive index).mp (Nat.not_lt.mpr past)
  rw [Option.not_isSome_iff_eq_none] at missing
  exact congrArg (Option.getD · 0) missing

end Filled

-- The languages disagree about a source that gives rows past its count: C leaves them out of the last
-- group, and Rust writes them. The array is the same exactly when such rows are zero, as the missing
-- ones of packed glyphs are.
theorem grouped_arrays_agree_iff (source : RowSequence) (style : Style) :
    let size := max source.glyphHeight 1
    let count := source.rowCount ⌈/⌉ size
    let c := { style with language := .c, layout := .grouped }
    let rust := { style with language := .rust, layout := .grouped }
    (∀ fault, text source c = .error fault ↔ text source rust = .error fault) ∧
    ∀ cText rustText, Written source c cText → Written source rust rustText →
      array? c cText = some (matrix count size fun index =>
        if index < source.rowCount then source.row index else 0) ∧
      array? rust rustText = some (matrix count size source.row) ∧
      (array? c cText = array? rust rustText ↔
        ∀ index, source.rowCount ≤ index → index < count * size → source.row index = 0) ∧
      ∀ glyphs : PackedGlyphs, source = glyphs.rowSequence → array? c cText = array? rust rustText := by
  intro size count c rust
  refine ⟨fun fault => by rw [text_eq_error_iff, text_eq_error_iff], ?_⟩
  intro cText rustText cWritten rustWritten
  have sameCount : groupCount source = count := group_count_eq_ceil_div source
  have cArray : array? c cText = some (matrix count size fun index =>
      if index < source.rowCount then source.row index else 0) := by
    rw [← sameCount]
    exact array?_of_written source rfl cWritten
  have rustArray : array? rust rustText = some (matrix count size source.row) := by
    rw [← sameCount]
    exact array?_of_written source rfl rustWritten
  have agree : array? c cText = array? rust rustText ↔
      ∀ index, source.rowCount ≤ index → index < count * size → source.row index = 0 := by
    rw [cArray, rustArray, Option.some_inj, matrix_eq_iff]
    constructor
    · intro same index past inside
      have element := same index inside
      rw [if_neg (Nat.not_lt.mpr past)] at element
      exact element.symm
    · intro zero index inside
      by_cases row : index < source.rowCount
      · rw [if_pos row]
      · rw [if_neg row, zero index (Nat.not_lt.mp row) inside]
  refine ⟨cArray, rustArray, agree, ?_⟩
  rintro glyphs rfl
  have nonempty := ((text_eq_ok_iff _ c cText).mp ((written_iff _ c cText).mp cWritten)).1
  exact agree.mpr fun index past _ => row_past_packed_glyphs nonempty past

-- One row is counted, and the source gives a second one, which only Rust writes.
theorem uncounted_row_differs :
    let source : RowSequence := ⟨8, 2, 1, fun index => [1, 2][index]?⟩
    let c := Style.grouped "f".toList
    let rust := { c with language := .rust }
    let cText := "static unsigned char f[1][2] = \x7b\n    \x7b 0x01 \x7d,\n\x7d;\n".toList
    let rustText := "static f: [[u8; 2]; 1] = [\n    [0x01, 0x02],\n];\n".toList
    text source c = .ok cText ∧ text source rust = .ok rustText ∧
      array? c cText = some [[1, 0]] ∧ array? rust rustText = some [[1, 2]] := by
  intro source c rust cText rustText
  have cWritten : text source c = .ok cText := by
    rw [text_eq_ok_iff]
    exact ⟨by decide, by decide, by decide⟩
  have rustWritten : text source rust = .ok rustText := by
    rw [text_eq_ok_iff]
    exact ⟨by decide, by decide, by decide⟩
  have cArray := array?_of_written source rfl (.inl cWritten)
  have rustArray := array?_of_written source rfl (.inl rustWritten)
  exact ⟨cWritten, rustWritten, cArray.trans (by decide), rustArray.trans (by decide)⟩

end Bitfont.Literal
