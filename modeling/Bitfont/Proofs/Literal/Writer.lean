import Bitfont.Proofs.Literal.Rows

namespace Bitfont.Literal

open Writer (Seamless limited limited_seamless)

variable (source : RowSequence) (style : Style)

-- Before anything is written the literal is refused, and no writer is touched, or it is written until
-- the writer fails.
theorem failed_write_leaves_start :
    match text source style with
    | .error fault =>
        (fault = .noRows ∨ fault = .rowTooWide source.rowWidth style.element.bits) ∧
        (∀ (σ : Type) (put : Writer σ) (state : σ),
          writeTo source style put state = (state, .error fault)) ∧
        ∀ room, writeLimited room source style = ([], .error fault)
    | .ok literal =>
        (∀ (σ : Type) (put : Writer σ), Seamless put → ∀ state,
          writeTo source style put state =
            ((put literal state).1, if (put literal state).2 then .ok () else .error .full)) ∧
        ∀ room, writeLimited room source style =
          (literal.take room, if literal.length ≤ room then .ok () else .error .full) := by
  cases made : text source style with
  | error fault =>
      refine ⟨?_, fun σ => write_to_of_error source style made, write_limited_of_error source style made⟩
      obtain ⟨-, rfl⟩ | ⟨-, -, rfl⟩ := (text_eq_error_iff source style fault).mp made
      · exact .inl rfl
      · exact .inr rfl
  | ok literal =>
      exact ⟨fun σ put => write_to_of_ok source style made, write_limited_of_ok source style made⟩

-- A writer with room for twelve characters.
theorem short_writer_takes_start :
    let source : RowSequence := ⟨8, 1, 1, fun _ => some 7⟩
    let style := { Style.flat "f".toList with stdint := false }
    let literal := "static const unsigned char f[1] = \x7b\n    0x07\n\x7d;\n".toList
    text source style = .ok literal ∧ Seamless limited ∧
      writeTo source style limited ([], 12) = (("static const".toList, 0), .error .full) ∧
      writeLimited 12 source style = ("static const".toList, .error .full) := by
  intro source style literal
  have made : text source style = .ok literal := by
    rw [text_eq_ok_iff]
    exact ⟨by decide, by decide, by decide⟩
  have written := failed_write_leaves_start source style
  rw [made] at written
  obtain ⟨onWriter, onLimited⟩ := written
  exact ⟨made, limited_seamless, (onWriter _ limited limited_seamless ([], 12)).trans (by decide),
    (onLimited 12).trans (by decide)⟩

end Bitfont.Literal
