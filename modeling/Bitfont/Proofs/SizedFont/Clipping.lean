import Bitfont.Proofs.Sfnt.Library

namespace Bitfont

inductive SamePicture (cell other : Cell) :
    Except RenderStop GlyphImage → Except RenderStop GlyphImage → Prop where
  | refused (fault : GlyphFault) : SamePicture cell other (.error (.fault fault)) (.error (.fault fault))
  | drawn (image image' : GlyphImage) (here : image.cell = cell) (there : image'.cell = other)
      (common : ∀ x y, x < cell.width → y < cell.height → x < other.width → y < other.height →
        ∃ on, image.pixel? x y = some on ∧ image'.pixel? x y = some on) :
      SamePicture cell other (.ok image) (.ok image')

theorem draw?_same_picture {bitmap : Bitmap} {cell other : Cell} {image image' : GlyphImage}
    (here : bitmap.draw? cell = some image) (there : bitmap.draw? other = some image') :
    SamePicture cell other (.ok image) (.ok image') := by
  refine .drawn image image' (GlyphImage.cell_of_of_fn? here) (GlyphImage.cell_of_of_fn? there) ?_
  intro x y hx hy hx' hy'
  -- What is sampled at a pixel does not depend on the cell.
  obtain ⟨on, shown⟩ := Option.isSome_iff_exists.mp (GlyphImage.is_some_of_of_fn? here hx hy)
  refine ⟨on, ?_, ?_⟩
  · rw [GlyphImage.pixel?_of_of_fn? here hx hy, shown]
  · rw [GlyphImage.pixel?_of_of_fn? there hx' hy', shown]

theorem blank_same_picture (cell other : Cell) :
    SamePicture cell other (.ok (.blank cell)) (.ok (.blank other)) := by
  refine .drawn (.blank cell) (.blank other) rfl rfl ?_
  intro x y hx hy hx' hy'
  exact ⟨false, GlyphImage.pixel?_blank cell hx hy, GlyphImage.pixel?_blank other hx' hy'⟩

namespace SizedFont

theorem render_same_picture {library : FontLibrary} {sized : SizedFont library} {code : Nat} {cell other : Cell}
    (here : (sized.render code cell ()).result ≠ .error .overflow)
    (there : (sized.render code other ()).result ≠ .error .overflow) :
    SamePicture cell other (sized.render code cell ()).result (sized.render code other ()).result := by
  by_cases valid : code.isValidChar
  · by_cases unmapped : library.glyphIndex sized.font (Char.ofNat code) = 0
    · rw [render_missing valid unmapped, render_missing valid unmapped]
      split
      · exact blank_same_picture cell other
      · exact .refused _
    · obtain overflow | ⟨bitmap, image, found, drawn, shown⟩ := render_drawn_cases valid unmapped
      · exact absurd overflow here
      obtain overflow | ⟨bitmap', image', found', drawn', shown'⟩ := render_drawn_cases valid unmapped
      · exact absurd overflow there
      obtain rfl := Option.some.inj (found.symm.trans found')
      rw [shown, shown']
      exact draw?_same_picture drawn drawn'
  · rw [render_invalid valid, render_invalid valid]
    exact .refused _

-- For any library, but for an overflow in one of the cells, which the bounds of the library rule out.
theorem render_in_two_cells (library : FontLibrary) (sized : SizedFont library) (code : Nat) (cell other : Cell) :
    let here := (sized.render code cell ()).result
    let there := (sized.render code other ()).result
    (here ≠ .error .overflow → there ≠ .error .overflow → SamePicture cell other here there) ∧
    (library.Bounded → ∀ data size, load library data size = .ok sized →
      cell.width ≤ 255 ∧ cell.height ≤ 255 → other.width ≤ 255 ∧ other.height ≤ 255 →
        SamePicture cell other here there) := by
  refine ⟨render_same_picture, ?_⟩
  intro bounded data size loaded small otherSmall
  have placed := placed_of_load bounded loaded
  exact render_same_picture (render_ne_overflow placed small.1 small.2)
    (render_ne_overflow placed otherSmall.1 otherSmall.2)

-- A box three pixels wide and two high, in a cell that cuts it and in one that does not.
theorem box_in_two_cells : ∃ sized, load Sfnt.library Sfnt.twoLetters (.ofRat 2) = .ok sized ∧
    ∃ image image', (sized.render 0x41 ⟨2, 2⟩ ()).result = .ok image ∧
      (sized.render 0x41 ⟨200, 3⟩ ()).result = .ok image' ∧
      ∀ x y, x < 2 → y < 2 → image.pixel? x y = image'.pixel? x y := by
  obtain ⟨font, parsed, mapped, -⟩ := Sfnt.two_letters_loaded
  have loaded := load_eq_ok_iff.mpr ⟨by decide +kernel, font, parsed, rfl⟩
  have valid : Nat.isValidChar 0x41 := by decide
  obtain ⟨bitmap, drawn⟩ := render_mapped (placed_of_load Sfnt.library_bounded loaded) valid
    (ne_of_eq_of_ne mapped (by decide))
  have same := (render_in_two_cells Sfnt.library _ 0x41 ⟨2, 2⟩ ⟨200, 3⟩).2 Sfnt.library_bounded
    Sfnt.twoLetters (.ofRat 2) loaded (by decide) (by decide)
  rw [drawn _ (by decide) (by decide), drawn _ (by decide) (by decide)] at same
  refine ⟨_, loaded, _, _, drawn _ (by decide) (by decide), drawn _ (by decide) (by decide), ?_⟩
  cases same with
  | drawn _ _ _ _ common =>
      intro x y across down
      obtain ⟨on, here, there⟩ := common x y across down
        (Nat.lt_of_lt_of_le across (by decide)) (Nat.lt_of_lt_of_le down (by decide))
      rw [here, there]

end SizedFont
end Bitfont
