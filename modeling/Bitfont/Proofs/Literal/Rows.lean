import Mathlib.Algebra.Order.Floor.Div
import Mathlib.Data.List.Intervals
import Bitfont.Proofs.Literal.Reader

namespace Bitfont.Literal

def Written (source : RowSequence) (style : Style) (literal : Text) : Prop :=
  text source style = .ok literal ∨ ∃ room, writeLimited room source style = (literal, .ok ())

def groupValues (source : RowSequence) (language : Language) (group : Nat) : List Nat :=
  let start := group * groupSize source
  let stop :=
    match language with
    | .c => min (start + groupSize source) source.rowCount
    | .rust => start + groupSize source
  (List.Ico start stop).map source.row

theorem lt_ceil_div_iff {perLine : Nat} (positive : 0 < perLine) (count index : Nat) :
    index < count ⌈/⌉ perLine ↔ index * perLine < count := by
  have covered : count ⌈/⌉ perLine ≤ index ↔ count ≤ perLine * index := ceilDiv_le_iff_le_smul positive
  rw [Nat.mul_comm perLine] at covered
  omega

section Groups

variable (source : RowSequence)

theorem group_size_pos : 0 < groupSize source := Nat.lt_of_lt_of_le Nat.one_pos (Nat.le_max_right _ _)

theorem group_count_eq_ceil_div : groupCount source = source.rowCount ⌈/⌉ groupSize source := by
  rw [Nat.ceilDiv_eq_add_pred_div]
  rfl

theorem lt_group_count_iff (group : Nat) :
    group < groupCount source ↔ group * groupSize source < source.rowCount := by
  rw [group_count_eq_ceil_div]
  exact lt_ceil_div_iff (group_size_pos source) source.rowCount group

theorem row_count_le_groups : source.rowCount ≤ groupCount source * groupSize source := by
  have beyond := mt (lt_group_count_iff source (groupCount source)).mpr (Nat.lt_irrefl _)
  omega

theorem group_values_eq_range (language : Language) (group : Nat) :
    groupValues source language group =
      (List.range (writtenRows source (group * groupSize source) language)).map
        fun index => source.row (group * groupSize source + index) := by
  have size : ∀ start stop : Nat, (List.Ico start stop).map source.row =
      (List.range (stop - start)).map fun index => source.row (start + index) := by
    intro start stop
    rw [List.Ico, List.range'_eq_map_range, List.map_map]
    rfl
  unfold groupValues
  rw [size]
  congr 2
  cases language with
  | c =>
      dsimp only [writtenRows]
      omega
  | rust => exact Nat.add_sub_cancel_left _ _

theorem group_values_ne_nil (language : Language) {group : Nat} (inside : group < groupCount source) :
    groupValues source language group ≠ [] := by
  have start := (lt_group_count_iff source group).mp inside
  have positive := group_size_pos source
  have nonempty : writtenRows source (group * groupSize source) language ≠ 0 := by
    cases language with
    | c =>
        dsimp only [writtenRows]
        omega
    | rust => exact Nat.ne_of_gt positive
  rw [group_values_eq_range]
  simpa using nonempty

theorem flat_map_stretches (size limit count : Nat) :
    ((List.range count).flatMap fun group =>
      List.Ico (group * size) (min (group * size + size) limit)) =
        List.range (min (count * size) limit) := by
  induction count with
  | zero => simp
  | succ count ih =>
      have next : (count + 1) * size = count * size + size := Nat.succ_mul count size
      have joined : List.Ico 0 (min (count * size) limit) ++
          List.Ico (count * size) (min (count * size + size) limit) =
            List.Ico 0 (min (count * size + size) limit) := by
        by_cases before : count * size ≤ limit
        · rw [Nat.min_eq_left before]
          exact List.Ico.append_consecutive (Nat.zero_le _) (by omega)
        · -- The stretch starts past the limit.
          have empty : List.Ico (count * size) (min (count * size + size) limit) = [] :=
            List.Ico.eq_nil_of_le (by omega)
          have same : min (count * size) limit = min (count * size + size) limit := by omega
          rw [empty, List.append_nil, same]
      rw [List.range_succ, List.flatMap_append, ih, List.flatMap_singleton, next,
        ← List.Ico.zero_bot, ← List.Ico.zero_bot, joined]

def groupedLength (source : RowSequence) : Language → Nat
  | .c => source.rowCount
  | .rust => groupCount source * groupSize source

theorem flatten_group_values (language : Language) :
    ((List.range (groupCount source)).map (groupValues source language)).flatten =
      (List.range (groupedLength source language)).map source.row := by
  have whole := row_count_le_groups source
  have stretches := flat_map_stretches (groupSize source) (groupedLength source language)
    (groupCount source)
  have limit : min (groupCount source * groupSize source) (groupedLength source language) =
      groupedLength source language := by
    cases language with
    | c => exact Nat.min_eq_right whole
    | rust => exact Nat.min_self _
  -- Both languages cut the rows at their limit, which no group of Rust reaches beyond.
  have values : ∀ group ∈ List.range (groupCount source), groupValues source language group =
      (List.Ico (group * groupSize source) (min (group * groupSize source + groupSize source)
        (groupedLength source language))).map source.row := by
    intro group member
    have inside : (group + 1) * groupSize source ≤ groupCount source * groupSize source :=
      Nat.mul_le_mul_right _ (List.mem_range.mp member)
    rw [Nat.succ_mul] at inside
    cases language with
    | c => rfl
    | rust =>
        rw [groupedLength, Nat.min_eq_left inside]
        rfl
  rw [limit] at stretches
  rw [List.map_congr_left values, ← stretches, List.map_flatMap]
  rfl

end Groups

section Body

variable (source : RowSequence) (style : Style)

theorem scan_flat_body : scan style.language .nothing (flatBody source style) =
    some (runTokens (runDigits source style 0 source.rowCount)) := by
  have blank : scan style.language .nothing indentation = some [] := by
    cases style.language <;> rfl
  have newline : scan style.language .nothing ['\n'] = some [] := by cases style.language <;> rfl
  have ends : EndsNumeral ['\n'] := by
    rintro c ⟨⟩
    rfl
  rw [flatBody, List.append_assoc, scan_marks (by decide) blank, prepend_nil,
    scan_run (by decide) blank 0 source.rowCount ends, newline]
  simp [prepend]

theorem read_digits_flat (layout : style.layout = .flat) (nonempty : source.rowCount ≠ 0) :
    readDigits style (body source style) = some [runDigits source style 0 source.rowCount] := by
  have digits : runDigits source style 0 source.rowCount ≠ [] := by simpa [runDigits] using nonempty
  rw [readDigits, body, layout, scan_flat_body, Option.bind_some, readNumerals,
    read_run_run_tokens _ digits]
  rfl

theorem read_body_flat (layout : style.layout = .flat) (nonempty : source.rowCount ≠ 0) :
    readBody style (body source style) = some [(List.range source.rowCount).map source.row] := by
  have values := values_run_digits source style 0 source.rowCount
  simp only [Nat.zero_add] at values
  rw [read_body_eq_map, read_digits_flat source style layout nonempty]
  simp [values]

def groupDigits (group : Nat) : List Text :=
  let start := group * groupSize source
  runDigits source style start (writtenRows source start style.language)

theorem scan_enclosed {language : Language} {before indent after : Text}
    (plainBefore : '0' ∉ before) (opens : scan language .nothing before = some [.opening])
    (plainIndent : '0' ∉ indent) (blank : scan language .nothing indent = some [])
    (plainAfter : '0' ∉ after) (closes : scan language .nothing after = some [.closing, .comma])
    (start count : Nat) {rest : Text} (ends : EndsNumeral (after ++ rest)) :
    scan language .nothing
        (before ++ (run source style indent start count ++ (after ++ rest))) =
      prepend (groupTokens (runDigits source style start count)) (scan language .nothing rest) := by
  rw [scan_marks plainBefore opens, scan_run plainIndent blank start count ends,
    scan_marks plainAfter closes, prepend_prepend, prepend_prepend]
  simp [groupTokens]

theorem scan_group_line (group : Nat) (rest : Text) :
    scan style.language .nothing (groupLine source style group ++ rest) =
      prepend (groupTokens (groupDigits source style group)) (scan style.language .nothing rest) := by
  unfold groupLine groupDigits
  dsimp only
  rw [List.append_assoc, List.append_assoc]
  cases style.language with
  | c =>
      have ends : EndsNumeral (ending .c ++ ",\n".toList ++ rest) := by
        rintro c ⟨⟩
        rfl
      exact scan_enclosed source style (by decide) rfl (by decide) rfl (by decide) rfl _ _ ends
  | rust =>
      have ends : EndsNumeral (ending .rust ++ ",\n".toList ++ rest) := by
        rintro c ⟨⟩
        rfl
      exact scan_enclosed source style (by decide) rfl (by decide) rfl (by decide) rfl _ _ ends

theorem scan_group_lines (groups : List Nat) :
    scan style.language .nothing (groups.flatMap fun group => groupLine source style group) =
      some ((groups.map (groupDigits source style)).flatMap groupTokens) := by
  induction groups with
  | nil => rfl
  | cons group groups ih =>
      rw [List.flatMap_cons, scan_group_line, ih]
      rfl

theorem values_group_digits (group : Nat) :
    (groupDigits source style group).map Numeral.ofHexadecimal =
      groupValues source style.language group := by
  rw [groupDigits, values_run_digits, group_values_eq_range]

theorem read_digits_grouped (layout : style.layout = .grouped) :
    readDigits style (body source style) =
      some ((List.range (groupCount source)).map (groupDigits source style)) := by
  have nonempty : ∀ run ∈ (List.range (groupCount source)).map (groupDigits source style),
      run ≠ [] := by
    intro run member
    obtain ⟨group, inside, rfl⟩ := List.mem_map.mp member
    have values := group_values_ne_nil source style.language (List.mem_range.mp inside)
    rw [← values_group_digits] at values
    exact mt (congrArg (List.map Numeral.ofHexadecimal)) values
  rw [readDigits, body, layout]
  dsimp only
  rw [groupedBody, scan_group_lines, Option.bind_some, readNumerals,
    read_groups_group_tokens _ nonempty]

theorem read_body_grouped (layout : style.layout = .grouped) :
    readBody style (body source style) =
      some ((List.range (groupCount source)).map (groupValues source style.language)) := by
  rw [read_body_eq_map, read_digits_grouped source style layout]
  simp [values_group_digits]

theorem text_eq_ok_iff (literal : Text) :
    text source style = .ok literal ↔
      source.rowCount ≠ 0 ∧ source.rowWidth ≤ style.element.bits ∧
        preamble style ++ declaration style (dimensions source style.layout) ++ body source style ++
          closing style.language = literal := by
  rw [text_eq, ← whole]
  by_cases empty : source.rowCount = 0
  · simp [empty]
  · by_cases wide : style.element.bits < source.rowWidth
    · simp [empty, wide]
    · simp [empty, wide, Nat.le_of_not_lt wide]

theorem text_eq_error_iff (fault : Fault) :
    text source style = .error fault ↔
      source.rowCount = 0 ∧ fault = .noRows ∨
        source.rowCount ≠ 0 ∧ style.element.bits < source.rowWidth ∧
          fault = .rowTooWide source.rowWidth style.element.bits := by
  rw [text_eq]
  by_cases empty : source.rowCount = 0
  · simp [empty, eq_comm]
  · by_cases wide : style.element.bits < source.rowWidth
    · simp [empty, wide, eq_comm]
    · simp [empty, wide]

theorem write_to_of_error {σ : Type} {fault : Fault} (failed : text source style = .error fault)
    (put : Writer σ) (state : σ) : writeTo source style put state = (state, .error fault) := by
  obtain ⟨empty, rfl⟩ | ⟨nonempty, wide, rfl⟩ := (text_eq_error_iff source style fault).mp failed
  · exact write_to_of_no_rows source style empty put state
  · exact write_to_of_too_wide source style nonempty wide put state

theorem write_to_of_ok {σ : Type} {literal : Text} (made : text source style = .ok literal)
    {put : Writer σ} (seamless : Writer.Seamless put) (state : σ) :
    writeTo source style put state =
      ((put literal state).1, if (put literal state).2 then .ok () else .error .full) := by
  obtain ⟨nonempty, fits, parts⟩ := (text_eq_ok_iff source style literal).mp made
  rw [← whole] at parts
  rw [write_to_whole source style nonempty fits seamless, parts]
  rfl

theorem write_limited_of_error {fault : Fault} (failed : text source style = .error fault) (room : Nat) :
    writeLimited room source style = ([], .error fault) := by
  rw [writeLimited, write_to_of_error source style failed]

theorem write_limited_of_ok {literal : Text} (made : text source style = .ok literal) (room : Nat) :
    writeLimited room source style =
      (literal.take room, if literal.length ≤ room then .ok () else .error .full) := by
  rw [writeLimited, write_to_of_ok source style made Writer.limited_seamless]
  simp [Writer.limited]

theorem write_limited_eq_ok_iff (room : Nat) (literal : Text) :
    writeLimited room source style = (literal, .ok ()) ↔
      text source style = .ok literal ∧ literal.length ≤ room := by
  cases made : text source style with
  | error fault => simp [write_limited_of_error source style made]
  | ok whole =>
      rw [write_limited_of_ok source style made]
      by_cases fits : whole.length ≤ room
      · simp only [fits, if_true, List.take_of_length_le, Prod.mk.injEq, Except.ok.injEq, and_true]
        constructor
        · rintro rfl
          exact ⟨rfl, fits⟩
        · exact And.left
      · simp only [fits, if_false, Prod.mk.injEq, reduceCtorEq, and_false, Except.ok.injEq, false_iff,
          not_and]
        rintro rfl
        exact fits

theorem written_iff (literal : Text) :
    Written source style literal ↔ text source style = .ok literal := by
  constructor
  · rintro (whole | ⟨room, taken⟩)
    · exact whole
    · exact ((write_limited_eq_ok_iff source style room literal).mp taken).1
  · exact Or.inl

theorem denotes_of_read_body {literal : Text} {groups : List (List Nat)}
    (whole : text source style = .ok literal)
    (values : readBody style (body source style) = some groups) :
    Denotes style literal (dimensions source style.layout) groups := by
  obtain ⟨-, -, parts⟩ := (text_eq_ok_iff source style literal).mp whole
  have depth : (dimensions source style.layout).length = style.layout.depth := by
    cases style.layout <;> rfl
  exact ⟨_, _, parts.symm, rfl, read_declaration_declaration style _ depth, values⟩

theorem denotes_flat {literal : Text} (layout : style.layout = .flat)
    (whole : text source style = .ok literal) :
    Denotes style literal [source.rowCount] [(List.range source.rowCount).map source.row] := by
  have nonempty := ((text_eq_ok_iff source style literal).mp whole).1
  have denotes := denotes_of_read_body source style whole (read_body_flat source style layout nonempty)
  rw [layout] at denotes
  exact denotes

theorem denotes_grouped {literal : Text} (layout : style.layout = .grouped)
    (whole : text source style = .ok literal) :
    Denotes style literal [source.rowCount ⌈/⌉ groupSize source, groupSize source]
      ((List.range (source.rowCount ⌈/⌉ groupSize source)).map
        (groupValues source style.language)) := by
  have denotes := denotes_of_read_body source style whole (read_body_grouped source style layout)
  rw [layout] at denotes
  rw [← group_count_eq_ceil_div]
  exact denotes

end Body

-- A literal is written for every sequence that has rows and whose rows fit in the elements. A group
-- of C may be short, but none is empty, and all of them together are the rows from first to last.
theorem literal_denotes_rows (source : RowSequence) (style : Style) :
    ((∃ literal, Written source style literal) ↔
      source.rowCount ≠ 0 ∧ source.rowWidth ≤ style.element.bits) ∧
    ∀ literal, Written source style literal →
      match style.layout with
      | .flat => Denotes style literal [source.rowCount] [(List.range source.rowCount).map source.row]
      | .grouped =>
          let size := max source.glyphHeight 1
          let groups := (List.range (source.rowCount ⌈/⌉ size)).map (groupValues source style.language)
          Denotes style literal [source.rowCount ⌈/⌉ size, size] groups ∧
            (∀ group ∈ groups, group ≠ []) ∧
            groups.flatten = (List.range (match style.language with
              | .c => source.rowCount
              | .rust => source.rowCount ⌈/⌉ size * size)).map source.row := by
  constructor
  · simp only [written_iff, text_eq_ok_iff]
    constructor
    · rintro ⟨literal, nonempty, narrow, -⟩
      exact ⟨nonempty, narrow⟩
    · rintro ⟨nonempty, narrow⟩
      exact ⟨_, nonempty, narrow, rfl⟩
  · intro literal written
    have whole := (written_iff source style literal).mp written
    cases layout : style.layout with
    | flat => exact denotes_flat source style layout whole
    | grouped =>
        refine ⟨denotes_grouped source style layout whole, ?_, ?_⟩
        · intro group member
          obtain ⟨index, inside, rfl⟩ := List.mem_map.mp member
          rw [← groupSize, ← group_count_eq_ceil_div] at inside
          exact group_values_ne_nil source style.language (List.mem_range.mp inside)
        · have flat := flatten_group_values source style.language
          rw [group_count_eq_ceil_div] at flat
          rw [← groupSize, flat]
          unfold groupedLength
          rw [group_count_eq_ceil_div]

-- Three rows, the middle one not given, in groups of two; the fourth row is past the count.
theorem short_group_denotes_rows :
    let source : RowSequence := ⟨8, 2, 3, fun index => if index = 1 then none else some (index + 9)⟩
    let style : Style := { Style.grouped "T".toList with language := .rust, wrap := some 1 }
    let literal := ("static T: [[u8; 2]; 2] = [\n    [0x09,\n     0x00],\n" ++
      "    [0x0B,\n     0x0C],\n];\n").toList
    Written source style literal ∧ Denotes style literal [2, 2] [[9, 0], [11, 12]] := by
  intro source style literal
  have written : Written source style literal := by
    left
    rw [text_eq_ok_iff]
    exact ⟨by decide, by decide, by decide⟩
  have groups : (List.range 2).map (groupValues source style.language) = [[9, 0], [11, 12]] := by
    decide
  have count : source.rowCount ⌈/⌉ max source.glyphHeight 1 = 2 := by decide
  have denotes := ((literal_denotes_rows source style).2 literal written).1
  rw [count, groups] at denotes
  exact ⟨written, denotes⟩

end Bitfont.Literal
