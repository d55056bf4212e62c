import Bitfont.Proofs.Literal.Rows

namespace Bitfont

def Text.visible (text : Text) : Text := text.filter fun c => !isBlank c

@[simp] theorem Text.visible_append (front back : Text) :
    visible (front ++ back) = visible front ++ visible back :=
  List.filter_append front back

theorem Text.visible_flat_map {α : Type} (items : List α) (part : α → Text) :
    visible (items.flatMap part) = items.flatMap fun item => visible (part item) :=
  List.filter_flatMap

namespace Literal

open Text (visible)

theorem visible_separator (wrap : Option Nat) {indent : Text} (blank : visible indent = [])
    (index : Nat) : visible (separator wrap indent index) = if index = 0 then [] else [','] := by
  unfold separator
  by_cases first : index = 0
  · rw [if_pos first, if_pos first]
    rfl
  · rw [if_neg first, if_neg first]
    have newline : visible (",\n".toList ++ indent) = [','] := by
      rw [Text.visible_append, blank]
      rfl
    cases wrap with
    | none => rfl
    | some count =>
        by_cases full : index % count = 0
        · simpa only [full, if_true] using newline
        · simp only [full, if_false]
          rfl

variable (source : RowSequence) (style : Style)

theorem visible_run {indent : Text} (blank : visible indent = []) (start count : Nat) :
    visible (run source style indent start count) =
      (List.range count).flatMap fun index =>
        (if index = 0 then [] else [',']) ++ visible (value style (source.row (start + index))) := by
  simp only [run, Text.visible_flat_map,
    Text.visible_append, visible_separator _ blank]

variable (wrap other : Option Nat)

theorem visible_group_line (group : Nat) :
    visible (groupLine source { style with wrap := wrap } group) =
      visible (groupLine source { style with wrap := other } group) := by
  have blank : visible (continuation style.language) = [] := by cases style.language <;> decide
  simp only [groupLine, Text.visible_append, visible_run source _ blank]
  rfl

theorem visible_body :
    visible (body source { style with wrap := wrap }) =
      visible (body source { style with wrap := other }) := by
  have blank : visible indentation = [] := by decide
  unfold body
  dsimp only
  cases style.layout with
  | flat =>
      simp only [flatBody, Text.visible_append,
        visible_run source _ blank]
      rfl
  | grouped =>
      simp only [groupedBody, Text.visible_flat_map]
      have lines := visible_group_line source { style with layout := .grouped } wrap other
      exact congrArg (List.flatMap · (List.range (groupCount source))) (funext lines)

-- Two literals that differ in their line breaks alone: both are refused for one reason, or they have
-- the same parts around bodies that show the same.
theorem wrapping_changes_blanks_alone :
    match text source { style with wrap := wrap }, text source { style with wrap := other } with
    | .error fault, .error otherFault => fault = otherFault
    | .ok literal, .ok otherLiteral =>
        visible literal = visible otherLiteral ∧
        ∃ body otherBody,
          literal = preamble style ++ declaration style (dimensions source style.layout) ++ body ++
            closing style.language ∧
          otherLiteral = preamble style ++ declaration style (dimensions source style.layout) ++
            otherBody ++ closing style.language ∧
          visible body = visible otherBody
    | _, _ => False := by
  have bodies := visible_body source style wrap other
  have refused (fault : Fault) : text source { style with wrap := wrap } = .error fault ↔
      text source { style with wrap := other } = .error fault := by
    rw [text_eq_error_iff, text_eq_error_iff]
  cases made : text source { style with wrap := wrap } with
  | error fault =>
      rw [(refused fault).mp made]
  | ok literal =>
      cases otherMade : text source { style with wrap := other } with
      | error fault =>
          rw [(refused fault).mpr otherMade] at made
          contradiction
      | ok otherLiteral =>
          obtain ⟨-, -, rfl⟩ := (text_eq_ok_iff source _ literal).mp made
          obtain ⟨-, -, rfl⟩ := (text_eq_ok_iff source _ otherLiteral).mp otherMade
          refine ⟨?_, _, _, rfl, rfl, bodies⟩
          simp only [Text.visible_append, bodies]
          rfl

end Literal
end Bitfont
