import Bitfont.Proofs.Strike

namespace Bitfont.Strike

theorem glyph?_is_some_iff (strike : Strike) (code : Nat) :
    (strike.glyph? code).isSome ↔ strike.first ≤ code ∧ code < strike.first + strike.size := by
  unfold glyph?
  split
  · next after =>
      rw [PackedGlyphs.glyph?_is_some_iff]
      change code - strike.first < strike.size ↔ _
      omega
  · next before => exact iff_of_false nofun fun inside => before inside.1

theorem image?_is_some_iff (strike : Strike) (code : Nat) :
    (strike.image? code).isSome ↔ (strike.glyph? code).isSome := by
  rw [image?, Option.isSome_map]

-- Where the end would leave the character codes it stays at the greatest one, also when there are more
-- glyphs than codes.
theorem lt_codes_last_iff (strike : Strike) (code : Nat) :
    code < strike.codes.last ↔ code < strike.first + strike.size ∧ code < maxCode := by
  dsimp only [codes]
  omega

theorem listed_iff (strike : Strike) (code : Nat) :
    strike.codes.first ≤ code ∧ code < strike.codes.last ↔
      (strike.glyph? code).isSome ∧ code < maxCode := by
  rw [lt_codes_last_iff, glyph?_is_some_iff, and_assoc]
  rfl

theorem codes_list_all_but_greatest (first : Nat) (cell : Cell) (wide : 1 ≤ cell.width)
    (narrow : cell.width ≤ 16) (tall : 1 ≤ cell.height) :
    ∃ fresh, empty first cell = .ok fresh ∧ ∀ pushed : List GlyphImage,
      let strike := (fresh.pushAll pushed).1
      let taken := (fresh.pushAll pushed).2
      let listed (code : Nat) : Prop := strike.codes.first ≤ code ∧ code < strike.codes.last
      (∀ code, (strike.glyph? code).isSome ↔ first ≤ code ∧ code < first + taken.length) ∧
      (∀ code, (strike.image? code).isSome ↔ (strike.glyph? code).isSome) ∧
      (∀ code ≤ maxCode, listed code ↔ (strike.glyph? code).isSome ∧ code ≠ maxCode) ∧
      ((∀ code ≤ maxCode, listed code ↔ (strike.glyph? code).isSome) ↔
        strike.glyph? maxCode = none) := by
  refine ⟨_, empty_eq_ok first narrow, ?_⟩
  intro pushed strike taken listed
  obtain ⟨holds, sameFirst, sameCell⟩ :
      strike.Holds taken ∧ strike.first = first ∧ strike.cell = cell :=
    push_all_fresh first narrow pushed
  rw [← sameCell] at wide tall
  have agree : ∀ code ≤ maxCode, listed code ↔ (strike.glyph? code).isSome ∧ code ≠ maxCode := by
    intro code inside
    exact (strike.listed_iff code).trans (and_congr_right fun _ => inside.lt_iff_ne)
  refine ⟨?_, strike.image?_is_some_iff, agree, ?_, ?_⟩
  · intro code
    rw [glyph?_is_some_iff, holds.size wide tall, sameFirst]
  · intro same
    have unlisted : ¬ listed maxCode := fun inside => ((agree _ (Nat.le_refl _)).mp inside).2 rfl
    simpa using mt (same _ (Nat.le_refl _)).mpr unlisted
  · intro missing code inside
    rw [agree code inside]
    refine and_iff_left_of_imp ?_
    rintro found rfl
    rw [missing] at found
    contradiction

-- Of two glyphs the second has the greatest code.
theorem second_of_last_two_unlisted :
    let cell : Cell := ⟨8, 1⟩
    (1 ≤ cell.width ∧ cell.width ≤ 16 ∧ 1 ≤ cell.height) ∧
      ∃ fresh, empty 0xFFFFFFFE cell = .ok fresh ∧
        let strike := (fresh.pushAll [.blank cell, .blank ⟨8, 2⟩, .blank cell]).1
        (strike.codes.first ≤ 0xFFFFFFFE ∧ 0xFFFFFFFE < strike.codes.last) ∧
          ¬ 0xFFFFFFFF < strike.codes.last ∧ (strike.image? 0xFFFFFFFF).isSome := by
  intro cell
  refine ⟨by decide, ?_⟩
  obtain ⟨fresh, made, run⟩ :=
    codes_list_all_but_greatest 0xFFFFFFFE cell (by decide) (by decide) (by decide)
  obtain ⟨found, drawn, listed, -⟩ := run [.blank cell, .blank ⟨8, 2⟩, .blank cell]
  obtain rfl : (⟨0xFFFFFFFE, cell, #[]⟩ : Strike) = fresh := Except.ok.inj made
  have second := (found 0xFFFFFFFF).mpr ⟨by decide, by decide⟩
  refine ⟨_, made, (listed _ (by decide)).mpr ⟨(found _).mpr ⟨by decide, by decide⟩, by decide⟩, ?_,
    (drawn _).mpr second⟩
  intro inside
  exact ((listed 0xFFFFFFFF (by decide)).mp ⟨by decide, inside⟩).2 rfl

theorem greatest_code_found_unlisted :
    let cell : Cell := ⟨8, 1⟩
    ∃ fresh, empty maxCode cell = .ok fresh ∧
      let strike := (fresh.pushAll [.blank cell]).1
      strike.codes = ⟨maxCode, maxCode⟩ ∧ (strike.glyph? maxCode).isSome ∧
        ¬ (strike.codes.first ≤ maxCode ∧ maxCode < strike.codes.last ↔
          (strike.glyph? maxCode).isSome) := by
  refine ⟨_, rfl, by decide, by decide, ?_⟩
  decide

end Bitfont.Strike
