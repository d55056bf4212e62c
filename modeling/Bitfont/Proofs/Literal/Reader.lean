import Bitfont.Proofs.Literal.Scanner
import Bitfont.Proofs.Literal.Declaration

-- The reader knows the language and the layout, but nothing of separators, indents and line breaks, which are
-- blanks to it.

namespace Bitfont.Literal

def readRun : List Token → Option (List Text)
  | [.numeral digits] => some [digits]
  | .numeral digits :: .comma :: rest => (readRun rest).map (digits :: ·)
  | _ => none

-- Bracketed runs with a comma after each; the first argument is the run that is open.
def readGroups : Option (List Text) → List Token → Option (List (List Text))
  | none, [] => some []
  | none, .opening :: .numeral digits :: rest => readGroups (some [digits]) rest
  | some run, .comma :: .numeral digits :: rest => readGroups (some (run ++ [digits])) rest
  | some run, .closing :: .comma :: rest => (readGroups none rest).map (run :: ·)
  | _, _ => none

def readNumerals : Layout → List Token → Option (List (List Text))
  | .flat, tokens => (readRun tokens).map ([·])
  | .grouped, tokens => readGroups none tokens

def readDigits (style : Style) (body : Text) : Option (List (List Text)) :=
  (scan style.language .nothing body).bind (readNumerals style.layout)

def readBody (style : Style) (body : Text) : Option (List (List Nat)) :=
  ((scan style.language .nothing body).bind (readNumerals style.layout)).map
    fun runs => runs.map fun run => run.map Numeral.ofHexadecimal

theorem read_body_eq_map (style : Style) (body : Text) :
    readBody style body =
      (readDigits style body).map fun runs => runs.map fun run => run.map Numeral.ofHexadecimal :=
  rfl

-- The text is a literal in this style. Its declaration states `sizes` and its body reads as
-- `groups`.
def Denotes (style : Style) (text : Text) (sizes : List Nat) (groups : List (List Nat)) : Prop :=
  ∃ line body, text = preamble style ++ line ++ body ++ closing style.language ∧
    line = declaration style sizes ∧ readDeclaration style line = some sizes ∧
    readBody style body = some groups

def runTokens : List Text → List Token
  | [] => []
  | first :: others => .numeral first :: others.flatMap fun digits => [.comma, .numeral digits]

def groupTokens (run : List Text) : List Token := .opening :: runTokens run ++ [.closing, .comma]

theorem read_run_run_tokens (run : List Text) (nonempty : run ≠ []) :
    readRun (runTokens run) = some run := by
  induction run with
  | nil => exact absurd rfl nonempty
  | cons first others ih =>
      cases others with
      | nil => rfl
      | cons second others =>
          change (readRun (runTokens (second :: others))).map _ = _
          rw [ih (List.cons_ne_nil second others)]
          rfl

-- The digits that follow are added to the open run, up to the closing bracket.
theorem read_groups_some (run others : List Text) (rest : List Token) :
    readGroups (some run) (others.flatMap (fun digits => [.comma, .numeral digits]) ++
      .closing :: .comma :: rest) = (readGroups none rest).map ((run ++ others) :: ·) := by
  induction others generalizing run with
  | nil =>
      rw [List.append_nil]
      rfl
  | cons digits others ih =>
      have longer := ih (run ++ [digits])
      rw [List.append_assoc] at longer
      exact longer

theorem read_groups_group_tokens (groups : List (List Text)) (nonempty : ∀ run ∈ groups, run ≠ []) :
    readGroups none (groups.flatMap groupTokens) = some groups := by
  induction groups with
  | nil => rfl
  | cons run groups ih =>
      have later := ih fun run member => nonempty run (List.mem_cons_of_mem _ member)
      cases run with
      | nil => exact absurd rfl (nonempty [] List.mem_cons_self)
      | cons first others =>
          have split : (((first :: others) :: groups).flatMap groupTokens) =
              .opening :: .numeral first ::
                (others.flatMap (fun digits => [Token.comma, .numeral digits]) ++
                  .closing :: .comma :: groups.flatMap groupTokens) := by
            simp [groupTokens, runTokens]
          rw [split, readGroups, read_groups_some, later]
          rfl

def runDigits (source : RowSequence) (style : Style) (start count : Nat) : List Text :=
  (List.range count).map fun index =>
    Numeral.hexadecimal style.letterCase style.element.hexDigits (source.row (start + index))

theorem values_run_digits (source : RowSequence) (style : Style) (start count : Nat) :
    (runDigits source style start count).map Numeral.ofHexadecimal =
      (List.range count).map fun index => source.row (start + index) := by
  simp only [runDigits, List.map_map]
  apply List.map_congr_left
  intro index _
  exact Numeral.of_hexadecimal_hexadecimal _ _ _

section Scanning

variable {language : Language} {source : RowSequence} {style : Style} {indent : Text}

theorem ends_numeral_separator (wrap : Option Nat) (indent rest : Text) {index : Nat}
    (later : index ≠ 0) : EndsNumeral (separator wrap indent index ++ rest) := by
  unfold separator
  rw [if_neg later]
  cases wrap with
  | none =>
      rintro c ⟨⟩
      rfl
  | some count =>
      by_cases full : index % count = 0
      · rintro c first
        obtain rfl : ',' = c := by simpa [full] using first
        rfl
      · rintro c first
        obtain rfl : ',' = c := by simpa [full] using first
        rfl

theorem scan_separator (wrap : Option Nat) (plain : '0' ∉ indent)
    (blank : scan language .nothing indent = some []) {index : Nat} (later : index ≠ 0) (rest : Text) :
    scan language .nothing (separator wrap indent index ++ rest) =
      prepend [.comma] (scan language .nothing rest) := by
  have comma : scan language .nothing ", ".toList = some [.comma] := rfl
  have newline : scan language .nothing (",\n".toList ++ indent) = some [.comma] := by
    change prepend [.comma] (prepend [] (scan language .nothing indent)) = _
    rw [blank]
    rfl
  unfold separator
  rw [if_neg later]
  cases wrap with
  | none => exact scan_marks (by decide) comma rest
  | some count =>
      by_cases full : index % count = 0
      · have plain : '0' ∉ ",\n".toList ++ indent := by simp [plain]
        simpa [full] using scan_marks plain newline rest
      · simpa [full] using scan_marks (by decide) comma rest

theorem scan_later_values (source : RowSequence) (style : Style) (plain : '0' ∉ indent)
    (blank : scan language .nothing indent = some []) (start count : Nat) {first : Nat}
    (later : first ≠ 0) {rest : Text} (ends : EndsNumeral rest) :
    let part (index : Nat) : Text :=
      separator style.wrap indent index ++ value style (source.row (start + index))
    let digits (index : Nat) : Text :=
      Numeral.hexadecimal style.letterCase style.element.hexDigits (source.row (start + index))
    EndsNumeral ((List.range' first count).flatMap part ++ rest) ∧
      scan language .nothing ((List.range' first count).flatMap part ++ rest) =
        prepend ((List.range' first count).flatMap fun index => [.comma, .numeral (digits index)])
          (scan language .nothing rest) := by
  intro part digits
  -- A value ends only because of what follows it, so both facts go through the induction together.
  induction count generalizing first with
  | zero => exact ⟨ends, (prepend_nil _).symm⟩
  | succ count ih =>
      have following : first + 1 ≠ 0 := Nat.succ_ne_zero first
      obtain ⟨restEnds, restScanned⟩ := ih following
      have split : (List.range' first (count + 1)).flatMap part ++ rest =
          separator style.wrap indent first ++ (value style (source.row (start + first)) ++
            ((List.range' (first + 1) count).flatMap part ++ rest)) := by
        simp [List.range'_succ, part]
      rw [split]
      refine ⟨ends_numeral_separator style.wrap indent _ later, ?_⟩
      rw [scan_separator style.wrap plain blank later, scan_value language style _ restEnds,
        restScanned, prepend_prepend, prepend_prepend, List.range'_succ, List.flatMap_cons]
      rfl

theorem scan_run (plain : '0' ∉ indent) (blank : scan language .nothing indent = some [])
    (start count : Nat) {rest : Text} (ends : EndsNumeral rest) :
    scan language .nothing (run source style indent start count ++ rest) =
      prepend (runTokens (runDigits source style start count)) (scan language .nothing rest) := by
  cases count with
  | zero => exact (prepend_nil _).symm
  | succ count =>
      -- Nothing stands before the first value, and a comma before each of the others.
      obtain ⟨laterEnds, laterScanned⟩ :=
        scan_later_values source style plain blank start count Nat.one_ne_zero ends
      have split : run source style indent start (count + 1) ++ rest =
          value style (source.row start) ++ ((List.range' 1 count).flatMap (fun index =>
            separator style.wrap indent index ++ value style (source.row (start + index))) ++ rest) := by
        simp [run, List.range_eq_range', List.range'_succ, separator]
      have tokens : runTokens (runDigits source style start (count + 1)) =
          .numeral (Numeral.hexadecimal style.letterCase style.element.hexDigits (source.row start)) ::
            (List.range' 1 count).flatMap fun index => [.comma, .numeral (Numeral.hexadecimal
              style.letterCase style.element.hexDigits (source.row (start + index)))] := by
        simp [runDigits, runTokens, List.range_eq_range', List.range'_succ, List.flatMap_map]
      rw [split, scan_value language style _ laterEnds, laterScanned, prepend_prepend, tokens]
      rfl

end Scanning

end Bitfont.Literal
