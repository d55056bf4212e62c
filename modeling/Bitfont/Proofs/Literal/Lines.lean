import Bitfont.Proofs.Literal.Breaks

namespace Bitfont.Literal

variable (source : RowSequence) (style : Style)

def unbrokenRun (start count : Nat) : Text := run source { style with wrap := none } [] start count

theorem line_feed_not_mem_value (row : Nat) : '\n' ∉ value style row := by
  intro inside
  rcases List.mem_append.mp inside with hexMark | digit
  · exact absurd hexMark (by decide)
  · exact absurd (Numeral.is_some_hex_digit?_of_mem digit) (by decide)

theorem line_feed_not_mem_unbroken_run (start count : Nat) : '\n' ∉ unbrokenRun source style start count := by
  have noSeparator : ∀ index, '\n' ∉ separator none [] index := by
    intro index
    by_cases first : index = 0 <;> simp [separator, first]
  simp [unbrokenRun, run, noSeparator, line_feed_not_mem_value]

theorem line_values_unbroken_run {language : Language} {before after : Text} (opens : IsMargin language before)
    (closes : IsMargin language after) (ends : EndsNumeral after) (start count : Nat) :
    lineValues language (before ++ (unbrokenRun source style start count ++ after)) =
      some ((List.range count).map fun index => source.row (start + index)) := by
  obtain ⟨opening, scannedOpening, noOpening⟩ := opens.scanned
  obtain ⟨closing, scannedClosing, noClosing⟩ := closes.scanned
  rw [lineValues, scan_marks opens.noNumeral scannedOpening, unbrokenRun,
    scan_run List.not_mem_nil rfl start count ends, scannedClosing]
  simp [prepend, noOpening, noClosing, digits_run_tokens, values_run_digits]

theorem separator_restarts (indent : Text) {perLine offset : Nat} (inside : offset < perLine) (index : Nat) :
    separator (some perLine) indent (index * perLine + offset) =
      (if offset = 0 then lineBreak indent index else []) ++ separator none [] offset := by
  have positive : perLine ≠ 0 := by omega
  by_cases first : offset = 0
  · simp [separator, lineBreak, first, positive]
  · simp [separator, first, Nat.mod_eq_of_lt inside]

theorem flat_map_after_first {before : Text} {part : Nat → Text} {count : Nat} (nonempty : 0 < count) :
    ((List.range count).flatMap fun index => (if index = 0 then before else []) ++ part index) =
      before ++ (List.range count).flatMap part := by
  cases count with
  | zero => contradiction
  | succ count => simp [List.range_succ_eq_map, List.flatMap_map]

theorem run_broken (indent : Text) (start count : Nat) {perLine : Nat} (positive : 0 < perLine) :
    run source { style with wrap := some perLine } indent start count =
      (List.range (count ⌈/⌉ perLine)).flatMap fun index => lineBreak indent index ++
        unbrokenRun source style (start + index * perLine) (min perLine (count - index * perLine)) := by
  let shown (index : Nat) : Text := value style (source.row (start + index))
  have stretches := flat_map_stretches perLine count (count ⌈/⌉ perLine)
  have whole : min (count ⌈/⌉ perLine * perLine) count = count := by
    have beyond := mt (lt_ceil_div_iff positive count (count ⌈/⌉ perLine)).mpr (Nat.lt_irrefl _)
    omega
  rw [whole] at stretches
  change (List.range count).flatMap (fun index => separator (some perLine) indent index ++ shown index) = _
  rw [← stretches, List.flatMap_assoc]
  refine List.flatMap_congr fun index member => ?_
  have reached := (lt_ceil_div_iff positive count index).mp (List.mem_range.mp member)
  let size := min perLine (count - index * perLine)
  have stretch : List.Ico (index * perLine) (min (index * perLine + perLine) count) =
      (List.range size).map (index * perLine + ·) := by
    have length : min (index * perLine + perLine) count - index * perLine = size := by
      dsimp only [size]
      omega
    rw [List.Ico, length, List.range'_eq_map_range]
  have onLine : ∀ offset ∈ List.range size,
      separator (some perLine) indent (index * perLine + offset) ++ shown (index * perLine + offset) =
        (if offset = 0 then lineBreak indent index else []) ++
          (separator none [] offset ++ shown (index * perLine + offset)) := by
    intro offset inside
    have short : offset < perLine := by
      have bound := List.mem_range.mp inside
      omega
    rw [separator_restarts indent short, List.append_assoc]
  have nonempty : 0 < size := by omega
  rw [stretch, List.flatMap_map, List.flatMap_congr onLine, flat_map_after_first nonempty]
  simp [unbrokenRun, run, shown, size, Nat.add_assoc, value]

variable (front indent back : Text) (start count : Nat)

def runLines : List Text :=
  let perLine := style.wrap.getD count
  brokenLines front indent back (fun index =>
    unbrokenRun source style (start + index * perLine) (min perLine (count - index * perLine)))
    (count ⌈/⌉ perLine - 1)

theorem run_getd_wrap : run source style indent start count =
    run source { style with wrap := some (style.wrap.getD count) } indent start count := by
  cases wrap : style.wrap with
  | some perLine => simp [run, wrap, value]
  | none =>
      simp only [run, wrap, Option.getD_none]
      refine List.flatMap_congr fun index member => ?_
      have inside := List.mem_range.mp member
      by_cases first : index = 0
      · simp [separator, first, value]
      · simp [separator, first, Nat.mod_eq_of_lt inside, value]

variable {style count} {language : Language} {front indent back}

theorem per_line_pos (positive : ∀ perLine, style.wrap = some perLine → 0 < perLine) (nonempty : 0 < count) :
    0 < style.wrap.getD count := by
  cases wrap : style.wrap with
  | some perLine => exact positive perLine wrap
  | none => exact nonempty

theorem run_eq_lines (positive : ∀ perLine, style.wrap = some perLine → 0 < perLine) (nonempty : 0 < count) :
    front ++ (run source style indent start count ++ (back ++ ['\n'])) =
      (runLines source style front indent back start count).flatMap (· ++ ['\n']) := by
  have room := per_line_pos positive nonempty
  have first := (lt_ceil_div_iff room count 0).mpr (by omega)
  have last : count ⌈/⌉ style.wrap.getD count = count ⌈/⌉ style.wrap.getD count - 1 + 1 := by omega
  rw [run_getd_wrap, run_broken source style indent start count room, last, broken_lines_text]
  rfl

theorem drop_take_range {f : Nat → Nat} (count size first : Nat) :
    (((List.range count).map f).drop first).take size =
      (List.range (min size (count - first))).map fun index => f (first + index) := by
  apply List.ext_getElem?
  intro index
  by_cases inside : index < size
  · by_cases reached : first + index < count
    · have bound : index < count - first := by omega
      simp [inside, bound]
    · have bound : ¬ index < count - first := by omega
      simp [inside, bound]
  · simp [inside]

theorem run_lines_fills_lines (margins : Margins language front indent back)
    (positive : ∀ perLine, style.wrap = some perLine → 0 < perLine) (nonempty : 0 < count) :
    FillsLines language (style.wrap.getD count) ((List.range count).map fun index => source.row (start + index))
      (runLines source style front indent back start count) := by
  let perLine := style.wrap.getD count
  let values := (List.range count).map fun index => source.row (start + index)
  have length : values.length = count := by simp [values]
  have room : 0 < perLine := per_line_pos positive nonempty
  let part (index : Nat) : Text :=
    unbrokenRun source style (start + index * perLine) (min perLine (count - index * perLine))
  have fills : FillsLines language perLine values
      (brokenLines front indent back part (values.length ⌈/⌉ perLine - 1)) := by
    apply broken_lines_fills_lines margins room (by omega)
    · intro index
      exact line_feed_not_mem_unbroken_run source style _ _
    · intro index before after opens closes ends
      rw [line_values_unbroken_run source style opens closes ends, drop_take_range]
      simp [Nat.add_assoc]
  rw [length] at fills
  exact fills

section Blocks

variable {source} (positive : ∀ perLine, style.wrap = some perLine → 0 < perLine)

theorem flat_margins (language : Language) : Margins language indentation indentation [] := by
  have blanks : IsMargin language indentation := by cases language <;> exact ⟨by decide, by decide, rfl⟩
  have nothing : IsMargin language [] := by cases language <;> exact ⟨by decide, by decide, rfl⟩
  exact ⟨blanks, blanks, nothing, by simp [EndsNumeral]⟩

def flatBlock (source : RowSequence) (style : Style) : List Text :=
  runLines source style indentation indentation [] 0 source.rowCount

include positive in
theorem flat_body_eq_lines (nonempty : 0 < source.rowCount) :
    flatBody source style = (flatBlock source style).flatMap (· ++ ['\n']) := by
  rw [flatBlock, ← run_eq_lines source 0 positive nonempty]
  simp [flatBody]

include positive in
theorem flat_block_fills_lines (nonempty : 0 < source.rowCount) :
    let values := (List.range source.rowCount).map source.row
    FillsLines style.language (style.wrap.getD values.length) values (flatBlock source style) := by
  simpa [flatBlock] using run_lines_fills_lines source 0 (flat_margins style.language) positive nonempty

def groupFront (language : Language) : Text := indentation ++ opening language

def groupBack (language : Language) : Text := ending language ++ [',']

theorem group_margins (language : Language) :
    Margins language (groupFront language) (continuation language) (groupBack language) := by
  have ends : EndsNumeral (groupBack language) := by
    cases language <;> rintro c ⟨⟩ <;> rfl
  cases language <;> exact ⟨⟨by decide, by decide, rfl⟩, ⟨by decide, by decide, rfl⟩, ⟨by decide, by decide, rfl⟩, ends⟩

def groupBlock (source : RowSequence) (style : Style) (group : Nat) : List Text :=
  let start := group * groupSize source
  runLines source style (groupFront style.language) (continuation style.language) (groupBack style.language) start
    (writtenRows source start style.language)

theorem group_line_eq_run (group : Nat) :
    let start := group * groupSize source
    groupLine source style group = groupFront style.language ++
      (run source style (continuation style.language) start (writtenRows source start style.language) ++
        (groupBack style.language ++ ['\n'])) := by
  simp [groupLine, groupFront, groupBack]

theorem written_rows_pos (language : Language) {group : Nat} (inside : group < groupCount source) :
    0 < writtenRows source (group * groupSize source) language := by
  have nonempty := group_values_ne_nil source language inside
  rw [group_values_eq_range] at nonempty
  simpa [Nat.pos_iff_ne_zero] using nonempty

include positive

theorem group_line_eq_lines {group : Nat} (inside : group < groupCount source) :
    groupLine source style group = (groupBlock source style group).flatMap (· ++ ['\n']) := by
  rw [group_line_eq_run, run_eq_lines source _ positive (written_rows_pos style.language inside)]
  rfl

theorem group_block_fills_lines {group : Nat} (inside : group < groupCount source) :
    FillsLines style.language (style.wrap.getD (groupValues source style.language group).length)
      (groupValues source style.language group) (groupBlock source style group) := by
  have fills := run_lines_fills_lines source (group * groupSize source) (group_margins style.language) positive
    (written_rows_pos style.language inside)
  simpa [group_values_eq_range, groupBlock] using fills

end Blocks

def blocks (source : RowSequence) (style : Style) : List (List Text) :=
  match style.layout with
  | .flat => [flatBlock source style]
  | .grouped => (List.range (groupCount source)).map (groupBlock source style)

theorem body_eq_blocks {source : RowSequence} {style : Style}
    (positive : ∀ perLine, style.wrap = some perLine → 0 < perLine) (nonempty : 0 < source.rowCount) :
    body source style = (blocks source style).flatten.flatMap (· ++ ['\n']) := by
  unfold body blocks
  cases style.layout with
  | flat => simpa using flat_body_eq_lines positive nonempty
  | grouped =>
      rw [groupedBody, ← List.flatMap_def, List.flatMap_assoc]
      refine List.flatMap_congr fun group member => ?_
      exact group_line_eq_lines positive (List.mem_range.mp member)

theorem runs_fill_lines (source : RowSequence) (style : Style)
    (positive : ∀ perLine, style.wrap = some perLine → 0 < perLine) (literal : Text)
    (written : Written source style literal) :
    let runs :=
      match style.layout with
      | .flat => [(List.range source.rowCount).map source.row]
      | .grouped =>
          (List.range (source.rowCount ⌈/⌉ max source.glyphHeight 1)).map (groupValues source style.language)
    ∃ blocks : List (List Text),
      literal = preamble style ++ declaration style (dimensions source style.layout) ++
        blocks.flatten.flatMap (· ++ ['\n']) ++ closing style.language ∧
      List.Forall₂ (fun values lines =>
        FillsLines style.language (style.wrap.getD values.length) values lines ∧
          (style.wrap = none → lines.length = 1)) runs blocks := by
  intro runs
  obtain ⟨nonempty, -, rfl⟩ := (text_eq_ok_iff source style literal).mp ((written_iff source style literal).mp written)
  have rows : 0 < source.rowCount := Nat.pos_of_ne_zero nonempty
  refine ⟨blocks source style, by rw [body_eq_blocks positive rows], ?_⟩
  dsimp only [runs]
  unfold blocks
  cases style.layout with
  | flat =>
      have fills := flat_block_fills_lines positive rows
      exact .cons ⟨fills, fills.length_eq_one (by simpa using nonempty)⟩ .nil
  | grouped =>
      rw [← groupSize, ← group_count_eq_ceil_div, List.forall₂_map_left_iff, List.forall₂_map_right_iff,
        List.forall₂_same]
      intro group member
      have inside := List.mem_range.mp member
      have fills := group_block_fills_lines positive inside
      exact ⟨fills, fills.length_eq_one (group_values_ne_nil source style.language inside)⟩

-- Five rows in groups of three, two values on a line: the second group is short and fills its one line.
theorem five_rows_fill_lines :
    let source : RowSequence := ⟨8, 3, 5, some⟩
    let style : Style := { Style.grouped "T".toList with wrap := some 2 }
    let literal := ("static unsigned char T[2][3] = \x7b\n    \x7b 0x00, 0x01,\n      0x02 \x7d,\n" ++
      "    \x7b 0x03, 0x04 \x7d,\n\x7d;\n").toList
    (∀ perLine, style.wrap = some perLine → 0 < perLine) ∧ Written source style literal ∧
      ∃ blocks : List (List Text), List.Forall₂ (FillsLines .c 2) [[0, 1, 2], [3, 4]] blocks ∧
        blocks.map List.length = [2, 1] := by
  intro source style literal
  have positive : ∀ perLine, style.wrap = some perLine → 0 < perLine := by
    rintro perLine ⟨⟩
    decide
  have written : Written source style literal := by
    left
    rw [text_eq_ok_iff]
    exact ⟨by decide, by decide, by decide⟩
  obtain ⟨blocks, -, fill⟩ := runs_fill_lines source style positive literal written
  have runs : (List.range (source.rowCount ⌈/⌉ max source.glyphHeight 1)).map
      (groupValues source style.language) = [[0, 1, 2], [3, 4]] := by decide
  have filled : List.Forall₂ (FillsLines .c 2) [[0, 1, 2], [3, 4]] blocks := by
    rw [← runs]
    exact fill.imp fun values lines => And.left
  refine ⟨positive, written, blocks, filled, ?_⟩
  obtain _ | ⟨first, _ | ⟨second, ⟨⟩⟩⟩ := filled
  have lengths : 3 ⌈/⌉ 2 = 2 ∧ 2 ⌈/⌉ 2 = 1 := by decide
  simpa [first.count, second.count] using lengths

end Bitfont.Literal
