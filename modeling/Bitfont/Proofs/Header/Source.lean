import Mathlib.Data.List.Forall2
import Mathlib.Data.List.ReduceOption
import Bitfont.Proofs.Header.Declaration

namespace Bitfont.Declaration

def Declares (line declaration : Text) : Prop :=
  ∃ (core : Text) (form : Form),
    Text.IsTrimmed line core ∧ form.text = declaration ∧ declaration <+: core

theorem text_unique {line : Text} {form other : Form} (starts : form.text <+: line)
    (also : other.text <+: line) : form.text = other.text := by
  obtain ⟨rest, rfl⟩ := starts
  obtain ⟨otherRest, same⟩ := also
  have read := form.at_start?_text rest
  rw [← same, other.at_start?_text] at read
  exact (Option.some.inj read).symm

theorem at_start?_trim_eq_some_iff {line declaration : Text} :
    atStart? (Text.trim line) = some declaration ↔ Declares line declaration := by
  constructor
  · intro found
    obtain ⟨form, rest, rfl, whole⟩ := at_start?_eq_some found
    exact ⟨_, form, Text.trim_is_trimmed line, rfl, rest, whole.symm⟩
  · rintro ⟨core, form, trimmed, rfl, rest, rfl⟩
    rw [trimmed.trim_eq, form.at_start?_text]

theorem declared_lines (lines : List Text) :
    ∃ found : List (Option Text),
      List.Forall₂ (fun line entry => ∀ declaration, entry = some declaration ↔ Declares line declaration)
        lines found ∧
      lines.filterMap (fun line => atStart? (Text.trim line)) = found.reduceOption := by
  refine ⟨lines.map fun line => atStart? (Text.trim line), ?_, ?_⟩
  · rw [List.forall₂_map_right_iff, List.forall₂_same]
    exact fun line _ declaration => at_start?_trim_eq_some_iff
  · rw [List.reduceOption, List.filterMap_map]
    rfl

-- A line gives at most one declaration, and a source gives those of its lines in their order.
theorem source_declares_by_lines (source : Text) :
    (∀ (line : Text) (form other : Form),
      form.text <+: line → other.text <+: line → form.text = other.text) ∧
    ∃ (lines : List Text) (found : List (Option Text)),
      (∀ kept, Text.HasLines source kept ↔ kept = lines) ∧
      List.Forall₂ (fun line entry => ∀ declaration, entry = some declaration ↔ Declares line declaration)
        lines found ∧
      ofSource source = found.reduceOption := by
  obtain ⟨found, each, listed⟩ := declared_lines (Text.lines source)
  exact ⟨fun _ _ _ => text_unique, _, found, fun _ => Text.has_lines_iff, each, listed⟩

-- The parentheses of the first line hold a semicolon, and what follows them is none. The second line has a
-- blank that is not in ASCII, and a declaration that ends before the line does.
theorem first_closing_parenthesis_decides :
    let line := "long\u2003g ( ) ;; int h();".toList
    let form : Form := {
      type := "long".toList, gap := ['\u2003'], name := ['g'], beforeList := [' '], parameters := [' ']
      afterList := [' ']
      isType := ⟨by decide, List.all_eq_true.mp (by decide)⟩
      separated := by decide
      gapBlank := List.all_eq_true.mp (by decide)
      isName := ⟨by decide, List.forall_mem_nil _⟩
      beforeBlank := List.all_eq_true.mp (by decide)
      noClosing := by decide
      afterBlank := List.all_eq_true.mp (by decide) }
    form.text <+: line ∧ (∀ other : Form, other.text <+: line → other.text = form.text) ∧
      ofSource ("\tint f(a;b)c;\r\n ".toList ++ line) = [form.text] := by
  intro line form
  have starts : form.text <+: line := ⟨"; int h();".toList, by decide⟩
  have unique := (source_declares_by_lines line).1
  exact ⟨starts, fun other also => unique line other form also starts, by decide +kernel⟩

end Bitfont.Declaration
