import Bitfont.Proofs.Sfnt.Library
import Bitfont.Proofs.Strike.Calls
import Bitfont.Proofs.Typeface

namespace Bitfont

namespace SizedFont

variable {library : FontLibrary} {sized : SizedFont library} {code : Nat}

def Drawable (sized : SizedFont library) (code : Nat) : Prop :=
  code.isValidChar ∧
    (library.glyphIndex sized.font (Char.ofNat code) ≠ 0 ∨
      code < 0x20 ∨ (0x7F ≤ code ∧ code < 0xA0))

theorem render_unmapped (valid : code.isValidChar) (undrawn : ¬ sized.Drawable code) (cell : Cell) :
    (sized.render code cell ()).result = .error (.fault (.noGlyph (Char.ofNat code))) := by
  have neither := not_or.mp fun drawn => undrawn ⟨valid, drawn⟩
  have noControl := mt (is_control_iff valid).mp neither.2
  rw [render_missing valid (not_ne_iff.mp neither.1), if_neg noControl]

theorem render_undrawn (undrawn : ¬ sized.Drawable code) (cell : Cell) :
    ∃ fault, (sized.render code cell ()).result = .error (.fault fault) := by
  by_cases valid : code.isValidChar
  · exact ⟨_, render_unmapped valid undrawn cell⟩
  · exact ⟨_, render_invalid valid⟩

section Placed

variable (placed : sized.Placed) {cell : Cell} (narrow : cell.width ≤ 255) (low : cell.height ≤ 255)

include placed narrow low

theorem render_drawable (drawable : sized.Drawable code) :
    ∃ image, (sized.render code cell ()).result = .ok image ∧ image.cell = cell := by
  obtain ⟨valid, drawn⟩ := drawable
  by_cases unmapped : library.glyphIndex sized.font (Char.ofNat code) = 0
  · have control := (is_control_iff valid).mpr (drawn.resolve_left (not_not_intro unmapped))
    rw [render_missing valid unmapped, if_pos control]
    exact ⟨_, rfl, rfl⟩
  · obtain ⟨bitmap, rendered⟩ := render_mapped placed valid unmapped
    exact ⟨_, rendered cell narrow low, rfl⟩

-- The renderer keeps no state, so a code fails at its turn as it fails by itself.
theorem undrawn_of_stops_at {first : Nat} {failure : CodeFailure RenderStop}
    (stops : Renderer.StopsAt sized.render cell first () code failure) : ¬ sized.Drawable code := by
  intro drawable
  obtain ⟨image, drawn, fits⟩ := render_drawable placed narrow low drawable
  cases stops with
  | unrendered failed => exact nomatch drawn.symm.trans failed
  | misfit given different =>
      obtain rfl := Except.ok.inj (drawn.symm.trans given)
      exact different fits

theorem stops_eq (codes : CodeRange) :
    Strike.stops sized.render codes cell () =
      {code | codes.first ≤ code ∧ code < codes.last ∧ ¬ sized.Drawable code} := by
  ext code
  refine and_congr_right fun _ => and_congr_right fun _ => ?_
  constructor
  · rintro ⟨failure, stopped⟩
    exact undrawn_of_stops_at placed narrow low stopped
  · intro undrawn
    obtain ⟨fault, failed⟩ := render_undrawn undrawn cell
    exact ⟨_, .unrendered failed⟩

end Placed

end SizedFont

namespace Typeface

variable {format : Format} {origin : Option Text}

theorem convert_no_codes {σ ε : Type} (render : Renderer σ ε) {state : σ}
    (wide : 1 ≤ format.cell.width) (narrow : format.cell.width ≤ maxRowWidth)
    (enough : ∀ element, format.element = some element → format.cell.width ≤ element.bits)
    (empty : format.codes.last ≤ format.codes.first) :
    (convert render format origin state).result = .error (.literal .noRows) := by
  obtain ⟨element, chosen, -⟩ := chosen_element_holds narrow enough
  have renders : Renderer.Renders render format.cell format.codes.first format.codes.last state
      fun _ => .blank format.cell := fun code above below => by omega
  obtain ⟨strike, built, sameCell, holds⟩ := Strike.build_holds narrow renders
  have noCodes : List.Ico format.codes.first format.codes.last = [] :=
    List.Ico.eq_nil_of_le empty
  rw [noCodes] at holds
  have noRows : strike.rowSequence.rowCount = 0 := by
    rw [holds.row_sequence_row_count (sameCell.symm ▸ wide)]
    exact Nat.zero_mul _
  have written : Literal.text strike.rowSequence (format.literalStyle element origin) = .error .noRows :=
    (Literal.text_eq_error_iff _ _ _).mpr (.inl ⟨noRows, rfl⟩)
  simp only [convert, built, Format.write, chosen, written]
  rfl

section Sized

variable {library : FontLibrary} {sized : SizedFont library} (placed : sized.Placed)
  (narrow : format.cell.width ≤ maxRowWidth) (low : format.cell.height ≤ 255)

include placed narrow low

theorem stops_eq_undrawn : Strike.stops sized.render format.codes format.cell () =
    {code | format.codes.first ≤ code ∧ code < format.codes.last ∧ ¬ sized.Drawable code} :=
  SizedFont.stops_eq placed (Nat.le_trans narrow (by decide)) low format.codes

theorem convert_least_undrawn {code : Nat} {stop : RenderStop}
    (least : IsLeast {code | format.codes.first ≤ code ∧ code < format.codes.last ∧
      ¬ sized.Drawable code} code)
    (failed : (sized.render code format.cell ()).result = .error stop) :
    (convert sized.render format origin ()).result = .error (.build (.rendering code stop)) := by
  obtain ⟨above, below, -⟩ := least.1
  rw [← stops_eq_undrawn placed narrow low] at least
  obtain ⟨images, renders⟩ := Strike.renders_below_least least
  have stopsAt : Renderer.StopsAt sized.render format.cell format.codes.first () code
      (.rendering code stop) := .unrendered failed
  exact convert_build_error (Strike.build_stops narrow above below renders stopsAt).1

theorem exists_least_undrawn {code : Nat} (above : format.codes.first ≤ code)
    (below : code < format.codes.last) (undrawn : ¬ sized.Drawable code) :
    ∃ least, IsLeast {code | format.codes.first ≤ code ∧ code < format.codes.last ∧
      ¬ sized.Drawable code} least := by
  have cases := Strike.stops_empty_or_least sized.render format.codes format.cell ()
  rw [stops_eq_undrawn placed narrow low] at cases
  rcases cases with none | some
  · have member : code ∈ {code | format.codes.first ≤ code ∧ code < format.codes.last ∧
        ¬ sized.Drawable code} := ⟨above, below, undrawn⟩
    rw [none] at member
    exact member.elim
  · exact some

theorem convert_ok_of_drawable (wide : 1 ≤ format.cell.width) (tall : 1 ≤ format.cell.height)
    (enough : ∀ element, format.element = some element → format.cell.width ≤ element.bits)
    (ordered : format.codes.first < format.codes.last)
    (drawable : ∀ code, format.codes.first ≤ code → code < format.codes.last →
      sized.Drawable code) :
    ∃ literal, (convert sized.render format origin ()).result = .ok literal := by
  obtain ⟨element, chosen, fits⟩ := chosen_element_holds narrow enough
  obtain ⟨images, renders⟩ : ∃ images, Renderer.Renders sized.render format.cell format.codes.first
      format.codes.last () images := by
    apply Renderer.renders_of_not_stops_at
    intro code above below failure stopped
    have cells : format.cell.width ≤ 255 := Nat.le_trans narrow (by decide)
    exact SizedFont.undrawn_of_stops_at placed cells low stopped (drawable code above below)
  obtain ⟨strike, built, sameCell, holds⟩ := Strike.build_holds narrow renders
  rw [← sameCell] at wide tall fits
  have nonempty : 0 < ((List.Ico format.codes.first format.codes.last).map images).length := by
    rw [List.length_map, List.Ico.length]
    omega
  obtain ⟨literal, written⟩ :=
    text_of_strike holds wide tall nonempty (format.literalStyle element origin) fits
  exact ⟨literal, convert_result built chosen written⟩

end Sized

theorem convert_sized_ok_iff (library : FontLibrary) (bounded : library.Bounded) (data : Array UInt8)
    (size : Binary32) (sized : SizedFont library) (loaded : SizedFont.load library data size = .ok sized)
    (format : Format) (origin : Option Text) (wide : 1 ≤ format.cell.width)
    (narrow : format.cell.width ≤ 16) (tall : 1 ≤ format.cell.height) (low : format.cell.height ≤ 255)
    (enough : ∀ element, format.element = some element → format.cell.width ≤ element.bits) :
    let result := (convert sized.render format origin ()).result
    ((∃ literal, result = .ok literal) ↔ format.codes.first < format.codes.last ∧
      ∀ code, format.codes.first ≤ code → code < format.codes.last → sized.Drawable code) ∧
    (∀ code, IsLeast {code | format.codes.first ≤ code ∧ code < format.codes.last ∧
        ¬ sized.Drawable code} code →
      (¬ code.isValidChar →
        result = .error (.build (.rendering code (.fault (.notCharacter code))))) ∧
      (code.isValidChar →
        result = .error (.build (.rendering code (.fault (.noGlyph (Char.ofNat code))))))) ∧
    (format.codes.last ≤ format.codes.first → result = .error (.literal .noRows)) := by
  intro result
  have placed := SizedFont.placed_of_load bounded loaded
  have noRows : format.codes.last ≤ format.codes.first → result = .error (.literal .noRows) :=
    convert_no_codes sized.render wide narrow enough
  refine ⟨⟨?_, ?_⟩, ?_, noRows⟩
  · rintro ⟨literal, success⟩
    have ordered : format.codes.first < format.codes.last := by
      by_contra empty
      exact nomatch (noRows (Nat.not_lt.mp empty)).symm.trans success
    refine ⟨ordered, ?_⟩
    intro code above below
    by_contra undrawn
    obtain ⟨least, isLeast⟩ := exists_least_undrawn placed narrow low above below undrawn
    obtain ⟨fault, failed⟩ := SizedFont.render_undrawn isLeast.1.2.2 format.cell
    exact nomatch (convert_least_undrawn placed narrow low isLeast failed).symm.trans success
  · rintro ⟨ordered, drawable⟩
    exact convert_ok_of_drawable placed narrow low wide tall enough ordered drawable
  · intro code least
    exact ⟨fun invalid => convert_least_undrawn placed narrow low least (SizedFont.render_invalid invalid),
      fun valid => convert_least_undrawn placed narrow low least
        (SizedFont.render_unmapped valid least.1.2.2 _)⟩

theorem two_letters_drawable :
    ∃ sized, SizedFont.load Sfnt.library Sfnt.twoLetters (.ofRat 2) = .ok sized ∧
      (∀ code, 0x41 ≤ code → code < 0x43 → sized.Drawable code) ∧ ¬ sized.Drawable 0x43 := by
  obtain ⟨font, parsed, first, second, third⟩ := Sfnt.two_letters_loaded
  refine ⟨_, SizedFont.load_eq_ok_iff.mpr ⟨by decide +kernel, font, parsed, rfl⟩, ?_, ?_⟩
  · intro code above below
    obtain rfl | rfl : code = 0x41 ∨ code = 0x42 := by omega
    · exact ⟨by decide, .inl (ne_of_eq_of_ne first (by decide))⟩
    · exact ⟨by decide, .inl (ne_of_eq_of_ne second (by decide))⟩
  · rintro ⟨-, mapped | control⟩
    · exact mapped third
    · omega

theorem third_letter_missing :
    let cell : Cell := ⟨9, 2⟩
    let format (last : Nat) : Format := ⟨⟨0x41, last⟩, cell, "f".toList, some .u16, .c, .upper, none⟩
    ∃ sized, SizedFont.load Sfnt.library Sfnt.twoLetters (.ofRat 2) = .ok sized ∧
      (1 ≤ cell.width ∧ cell.width ≤ 16 ∧ 1 ≤ cell.height ∧ cell.height ≤ 255 ∧
        ∀ element, some Literal.Element.u16 = some element → cell.width ≤ element.bits) ∧
      (∃ literal, (convert sized.render (format 0x43) none ()).result = .ok literal) ∧
      (convert sized.render (format 0x45) none ()).result =
        .error (.build (.rendering 0x43 (.fault (.noGlyph 'C')))) := by
  intro cell format
  obtain ⟨sized, loaded, letters, undrawn⟩ := two_letters_drawable
  have wide : 1 ≤ cell.width := by decide
  have narrow : cell.width ≤ 16 := by decide
  have tall : 1 ≤ cell.height := by decide
  have low : cell.height ≤ 255 := by decide
  have enough : ∀ element, some Literal.Element.u16 = some element → cell.width ≤ element.bits := by
    intro element given
    obtain rfl := Option.some.inj given
    decide
  refine ⟨sized, loaded, ⟨wide, narrow, tall, low, enough⟩, ?_, ?_⟩
  · have drawn := convert_sized_ok_iff Sfnt.library Sfnt.library_bounded Sfnt.twoLetters (.ofRat 2) sized loaded
      (format 0x43) none wide narrow tall low enough
    exact drawn.1.mpr ⟨by decide, letters⟩
  · have refused := convert_sized_ok_iff Sfnt.library Sfnt.library_bounded Sfnt.twoLetters (.ofRat 2) sized loaded
      (format 0x45) none wide narrow tall low enough
    refine (refused.2.1 0x43 ⟨⟨by decide, by decide, undrawn⟩, ?_⟩).2 (by decide)
    rintro code ⟨above, -, undrawnToo⟩
    by_contra below
    exact undrawnToo (letters code above (by omega))

end Typeface
end Bitfont
