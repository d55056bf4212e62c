import Bitfont.Proofs.Header.Declaration

namespace Bitfont

namespace Pattern

variable {accepts : Char → Bool} {whole : Text} {groups : List Text}

theorem matches_one : Matches (.one accepts) whole groups ↔ ∃ c, accepts c ∧ whole = [c] ∧ groups = [] := by
  constructor
  · intro matched
    cases matched with
    | one accepted => exact ⟨_, accepted, rfl, rfl⟩
  · rintro ⟨c, accepted, rfl, rfl⟩
    exact .one accepted

theorem matches_many : Matches (.many accepts) whole groups ↔ (∀ c ∈ whole, accepts c) ∧ groups = [] := by
  constructor
  · intro matched
    cases matched with
    | many accepted => exact ⟨accepted, rfl⟩
  · rintro ⟨accepted, rfl⟩
    exact .many accepted

theorem matches_next {first second : Pattern} : Matches (first ++ second) whole groups ↔
    ∃ start rest captured more, whole = start ++ rest ∧ groups = captured ++ more ∧
      Matches first start captured ∧ Matches second rest more := by
  constructor
  · intro matched
    cases matched with
    | next left right => exact ⟨_, _, _, _, rfl, rfl, left, right⟩
  · rintro ⟨start, rest, captured, more, rfl, rfl, left, right⟩
    exact .next left right

theorem matches_group {inner : Pattern} : Matches (.group inner) whole groups ↔
    ∃ captured, groups = whole :: captured ∧ Matches inner whole captured := by
  constructor
  · intro matched
    cases matched with
    | group matched => exact ⟨_, rfl, matched⟩
  · rintro ⟨captured, rfl, matched⟩
    exact .group matched

end Pattern

namespace Declaration

open Pattern

variable {whole : Text} {groups : List Text}

theorem matches_identifier : Matches identifier whole groups ↔ IsIdentifier whole ∧ groups = [] := by
  simp only [identifier, matches_next, matches_one, matches_many]
  constructor
  · rintro ⟨-, rest, -, -, rfl, rfl, ⟨c, starts, rfl, rfl⟩, continues, rfl⟩
    exact ⟨⟨starts, continues⟩, rfl⟩
  · rintro ⟨isIdentifier, rfl⟩
    cases whole with
    | nil => exact isIdentifier.elim
    | cons c rest =>
        exact ⟨[c], rest, [], [], rfl, rfl, ⟨c, isIdentifier.1, rfl, rfl⟩, isIdentifier.2, rfl⟩

theorem matches_blanks : Matches blanks whole groups ↔ (∀ c ∈ whole, Text.isBlank c) ∧ groups = [] :=
  matches_many

theorem matches_sign {c : Char} : Matches (sign c) whole groups ↔ whole = [c] ∧ groups = [] := by
  simp [sign, matches_one]

theorem matches_parameter_list : Matches parameterList whole groups ↔ ∃ list close : Text,
    ')' ∉ list ∧ (∀ c ∈ close, Text.isBlank c) ∧ whole = '(' :: list ++ ')' :: close ++ [';'] ∧ groups = [] := by
  constructor
  · intro matched
    obtain ⟨close, list, rfl, ⟨rfl, inList⟩, blank⟩ : ∃ close list : Text,
        whole = '(' :: (list ++ ')' :: (close ++ [';'])) ∧ (groups = [] ∧ ∀ c ∈ list, ¬ c = ')') ∧
          ∀ c ∈ close, Text.isBlank c := by
      simpa [parameterList, matches_next, matches_sign, matches_many, matches_blanks] using matched
    exact ⟨list, close, fun closing => inList _ closing rfl, blank, by simp, rfl⟩
  · rintro ⟨list, close, noClosing, blank, rfl, rfl⟩
    have inList : Matches (.many (· ≠ ')')) list [] := by
      refine .many fun c member => ?_
      simpa using ne_of_mem_of_not_mem member noClosing
    have sign (c : Char) : Matches (sign c) [c] [] := matches_sign.mpr ⟨rfl, rfl⟩
    have parts : Matches parameterList (['('] ++ list ++ [')'] ++ close ++ [';']) ([] ++ [] ++ [] ++ [] ++ []) :=
      .next (.next (.next (.next (sign '(') inList) (sign ')')) (.many blank)) (sign ';')
    simpa using parts

-- The pattern has one group, which holds a text of the form.
theorem matches_pattern : Matches pattern whole groups ↔ ∃ (before : Text) (form : Form) (after : Text),
    (∀ c ∈ before, Text.isBlank c) ∧ (∀ c ∈ after, Text.isBlank c) ∧
      whole = before ++ form.text ++ after ∧ groups = [form.text] := by
  constructor
  · intro matched
    obtain ⟨after, before, parameters, afterList, beforeList, name, gap, type, c, rfl, ⟨rfl, beforeBlank,
      ⟨⟨⟨⟨isType, blank⟩, gapBlank⟩, isName⟩, beforeListBlank⟩, noClosing, afterListBlank⟩, afterBlank⟩ :
        ∃ after before parameters afterList beforeList name gap type c,
          whole = before ++ (type ++ c :: (gap ++ (name ++ (beforeList ++
            '(' :: (parameters ++ ')' :: (afterList ++ ';' :: after)))))) ∧
          (groups = [type ++ c :: (gap ++ (name ++ (beforeList ++
            '(' :: (parameters ++ ')' :: (afterList ++ [';'])))))] ∧
            (∀ c ∈ before, Text.isBlank c) ∧
            ((((IsIdentifier type ∧ Text.isBlank c) ∧ ∀ c ∈ gap, Text.isBlank c) ∧ IsIdentifier name) ∧
              ∀ c ∈ beforeList, Text.isBlank c) ∧
            ')' ∉ parameters ∧ ∀ c ∈ afterList, Text.isBlank c) ∧
          ∀ c ∈ after, Text.isBlank c := by
      simpa [pattern, matches_next, matches_group, matches_identifier, matches_blanks, matches_one,
        matches_parameter_list] using matched
    let form : Form := {
      type, gap := c :: gap, name, beforeList, parameters, afterList, isType, isName, noClosing
      separated := List.cons_ne_nil c gap
      gapBlank := List.forall_mem_cons.mpr ⟨blank, gapBlank⟩
      beforeBlank := beforeListBlank
      afterBlank := afterListBlank }
    exact ⟨before, form, after, beforeBlank, afterBlank, by simp [form, Form.text, Form.call],
      by simp [form, Form.text, Form.call]⟩
  · rintro ⟨before, form, after, beforeBlank, afterBlank, rfl, rfl⟩
    obtain ⟨c, gap, separated⟩ := List.exists_cons_of_ne_nil form.separated
    have gapBlank := form.gapBlank
    rw [separated, List.forall_mem_cons] at gapBlank
    have isType := matches_identifier.mpr ⟨form.isType, rfl⟩
    have isName := matches_identifier.mpr ⟨form.isName, rfl⟩
    have call : Matches parameterList form.call [] :=
      matches_parameter_list.mpr ⟨_, _, form.noClosing, form.afterBlank, rfl, rfl⟩
    have parts := isType.next (.one gapBlank.1) |>.next (.many gapBlank.2) |>.next isName
      |>.next (.many form.beforeBlank) |>.next call
    have all : Matches pattern _ _ := (Matches.many beforeBlank).next parts.group |>.next (.many afterBlank)
    simpa [Form.text, separated] using all

-- The scanner finds what the pattern captures, and nothing can be captured in two ways.
theorem captures_trim_iff {line : Text} : pattern.Captures (Text.trim line) groups ↔
    ∃ declaration, atStart? (Text.trim line) = some declaration ∧ groups = [declaration] := by
  constructor
  · rintro ⟨whole, rest, trimmed, matched⟩
    obtain ⟨before, form, after, beforeBlank, -, rfl, rfl⟩ := matches_pattern.mp matched
    obtain rfl : before = [] := by
      cases before with
      | nil => rfl
      | cons c before =>
          have first := (Text.trim_is_trimmed line).first c (by rw [trimmed]; rfl)
          exact absurd (beforeBlank c (List.mem_cons_self ..)) (ne_true_of_eq_false first)
    refine ⟨form.text, ?_, rfl⟩
    rw [trimmed, List.nil_append, List.append_assoc]
    exact form.at_start?_text _
  · rintro ⟨declaration, found, rfl⟩
    obtain ⟨form, rest, rfl, whole⟩ := at_start?_eq_some found
    exact ⟨form.text, rest, whole, matches_pattern.mpr ⟨[], form, [], nofun, nofun, by simp, rfl⟩⟩

end Declaration
end Bitfont
