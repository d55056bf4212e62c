import Bitfont.Proofs.Literal.Rows

namespace Bitfont.Literal

def Token.digits? : Token → Option Text
  | .numeral digits => some digits
  | _ => none

theorem digits_run_tokens (run : List Text) : (runTokens run).filterMap Token.digits? = run := by
  have later : ∀ others : List Text,
      (others.flatMap fun digits => [Token.comma, .numeral digits]).filterMap Token.digits? = others := by
    intro others
    induction others with
    | nil => rfl
    | cons digits others ih => simp [List.filterMap_cons, Token.digits?, ih]
  cases run with
  | nil => rfl
  | cons first others => simp [runTokens, Token.digits?, later]

def lineValues (language : Language) (line : Text) : Option (List Nat) :=
  (scan language .nothing line).map fun tokens => (tokens.filterMap Token.digits?).map Numeral.ofHexadecimal

-- The values on the lines, at most `perLine` on each. The comma is the last character before the line feed.
structure FillsLines (language : Language) (perLine : Nat) (values : List Nat) (lines : List Text) : Prop where
  count : lines.length = values.length ⌈/⌉ perLine
  unbroken : ∀ line ∈ lines, '\n' ∉ line
  held : ∀ index line, lines[index]? = some line →
    lineValues language line = some ((values.drop (index * perLine)).take perLine)
  full : ∀ index line, lines[index]? = some line → index + 1 < lines.length →
    (lineValues language line).map List.length = some perLine ∧ line.getLast? = some ','
  rest : ∀ line ∈ lines.getLast?,
    ∃ held, lineValues language line = some held ∧ 1 ≤ held.length ∧ held.length ≤ perLine

theorem FillsLines.length_eq_one {language : Language} {wrap : Option Nat} {values : List Nat}
    {lines : List Text} (fills : FillsLines language (wrap.getD values.length) values lines)
    (nonempty : values ≠ []) (unwrapped : wrap = none) : lines.length = 1 := by
  have positive := List.length_pos_iff.mpr nonempty
  have count := fills.count
  have first := lt_ceil_div_iff positive values.length 0
  have second := lt_ceil_div_iff positive values.length 1
  rw [unwrapped, Option.getD_none] at count
  omega

structure IsMargin (language : Language) (margin : Text) : Prop where
  noLineFeed : '\n' ∉ margin
  noNumeral : '0' ∉ margin
  noValues : lineValues language margin = some []

theorem IsMargin.scanned {language : Language} {margin : Text} (isMargin : IsMargin language margin) :
    ∃ tokens, scan language .nothing margin = some tokens ∧ tokens.filterMap Token.digits? = [] := by
  obtain ⟨tokens, scanned, noNumbers⟩ := Option.map_eq_some_iff.mp isMargin.noValues
  exact ⟨tokens, scanned, List.map_eq_nil_iff.mp noNumbers⟩

theorem comma_is_margin (language : Language) : IsMargin language [','] := by
  cases language <;> exact ⟨by decide, by decide, rfl⟩

structure Margins (language : Language) (front indent back : Text) : Prop where
  opens : IsMargin language front
  continues : IsMargin language indent
  closes : IsMargin language back
  ends : EndsNumeral back

section Breaks

variable (front indent back : Text) (part : Nat → Text)

def lineStart (index : Nat) : Text := if index = 0 then front else indent

def lineBreak (index : Nat) : Text := if index = 0 then [] else ",\n".toList ++ indent

def lineEnd (last index : Nat) : Text := if index = last then back else [',']

def brokenLines (last : Nat) : List Text :=
  (List.range (last + 1)).map fun index => lineStart front indent index ++ (part index ++ lineEnd back last index)

theorem broken_lines_succ (last : Nat) : brokenLines front indent back part (last + 1) =
    brokenLines front indent [','] part last ++ [indent ++ (part (last + 1) ++ back)] := by
  have earlier : ∀ index ∈ List.range (last + 1), lineEnd back (last + 1) index = lineEnd [','] last index := by
    intro index member
    have other : index ≠ last + 1 := Nat.ne_of_lt (List.mem_range.mp member)
    simp [lineEnd, other]
  rw [brokenLines, List.range_succ, List.map_append, brokenLines]
  congr 1
  · exact List.map_congr_left fun index member => by rw [earlier index member]
  · simp [lineStart, lineEnd]

-- Up to the line before, the text is a text of its own that ends with a comma.
theorem broken_lines_text (last : Nat) :
    front ++ ((List.range (last + 1)).flatMap (fun index => lineBreak indent index ++ part index) ++
        (back ++ ['\n'])) = (brokenLines front indent back part last).flatMap (· ++ ['\n']) := by
  induction last generalizing back with
  | zero => simp [brokenLines, lineStart, lineBreak, lineEnd]
  | succ last ih =>
      have broken : lineBreak indent (last + 1) = [',', '\n'] ++ indent := rfl
      rw [broken_lines_succ, List.flatMap_append, ← ih, List.range_succ, List.flatMap_append,
        List.flatMap_singleton, List.flatMap_singleton, broken]
      simp

variable {front indent back part} {language : Language}

theorem broken_lines_get_elem? {last index : Nat} {line : Text}
    (found : (brokenLines front indent back part last)[index]? = some line) :
    index ≤ last ∧ line = lineStart front indent index ++ (part index ++ lineEnd back last index) := by
  rw [brokenLines, List.getElem?_map] at found
  obtain ⟨other, inRange, rfl⟩ := Option.map_eq_some_iff.mp found
  obtain ⟨bound, rfl⟩ := List.getElem?_eq_some_iff.mp inRange
  simpa [Nat.lt_succ_iff] using bound

theorem Margins.line_start (margins : Margins language front indent back) (index : Nat) :
    IsMargin language (lineStart front indent index) := by
  by_cases first : index = 0
  · simpa [Literal.lineStart, first] using margins.opens
  · simpa [Literal.lineStart, first] using margins.continues

theorem Margins.line_end (margins : Margins language front indent back) (last index : Nat) :
    IsMargin language (lineEnd back last index) ∧ EndsNumeral (lineEnd back last index) := by
  by_cases final : index = last
  · simpa [Literal.lineEnd, final] using And.intro margins.closes margins.ends
  · have comma : EndsNumeral [','] := by
      rintro c ⟨⟩
      rfl
    simpa [Literal.lineEnd, final] using And.intro (comma_is_margin language) comma

theorem broken_lines_fills_lines (margins : Margins language front indent back) {values : List Nat} {perLine : Nat}
    (room : 0 < perLine) (nonempty : 0 < values.length) (noLineFeed : ∀ index, '\n' ∉ part index)
    (holds : ∀ index before after, IsMargin language before → IsMargin language after → EndsNumeral after →
      lineValues language (before ++ (part index ++ after)) =
        some ((values.drop (index * perLine)).take perLine)) :
    FillsLines language perLine values
      (brokenLines front indent back part (values.length ⌈/⌉ perLine - 1)) := by
  have first := (lt_ceil_div_iff room values.length 0).mpr (by omega)
  obtain ⟨last, isLast⟩ : ∃ last, values.length ⌈/⌉ perLine = last + 1 :=
    Nat.exists_eq_add_one.mpr first
  have reached : ∀ index, index ≤ last ↔ index * perLine < values.length := by
    intro index
    have bound := lt_ceil_div_iff room values.length index
    omega
  have length : (brokenLines front indent back part last).length = last + 1 := by simp [brokenLines]
  have held : ∀ index line, (brokenLines front indent back part last)[index]? = some line →
      lineValues language line = some ((values.drop (index * perLine)).take perLine) := by
    intro index line found
    obtain ⟨-, rfl⟩ := broken_lines_get_elem? found
    obtain ⟨closes, ends⟩ := margins.line_end last index
    exact holds index _ _ (margins.line_start index) closes ends
  have heldLength : ∀ index, ((values.drop (index * perLine)).take perLine).length =
      min perLine (values.length - index * perLine) := by simp
  rw [isLast, Nat.add_sub_cancel]
  refine ⟨length.trans isLast.symm, ?_, held, ?_, ?_⟩
  · intro line member
    obtain ⟨index, found⟩ := List.mem_iff_getElem?.mp member
    obtain ⟨-, rfl⟩ := broken_lines_get_elem? found
    simp [(margins.line_start index).noLineFeed, noLineFeed index, (margins.line_end last index).1.noLineFeed]
  · intro index line found before
    rw [length] at before
    have next := (reached (index + 1)).mp (by omega)
    have size := heldLength index
    rw [Nat.succ_mul] at next
    rw [held index line found, Option.map_some, size]
    refine ⟨congrArg some (by omega), ?_⟩
    obtain ⟨-, rfl⟩ := broken_lines_get_elem? found
    have other : index ≠ last := by omega
    simp [lineEnd, other]
  · intro line final
    rw [Option.mem_def, List.getLast?_eq_getElem?, length, Nat.add_sub_cancel] at final
    have before := (reached last).mp (Nat.le_refl last)
    have size := heldLength last
    exact ⟨_, held last line final, by omega, by omega⟩

end Breaks

end Bitfont.Literal
