import Mathlib.Data.Rat.Floor
import Mathlib.Tactic.Linarith
import Bitfont.SizedFont
import Bitfont.Proofs.Bitmap

namespace Bitfont

-- Documented bounds of the metrics: coordinates of fonts have 16 bits, and the greatest size enlarges
-- them by less than 2⁶, so that all of this holds with room to spare.
structure FontLibrary.Bounded (library : FontLibrary) : Prop where
  ascent : ∀ data size font ascent, SizedFont.isRenderableSize size = true →
    library.parse data size = .ok font → library.ascent? font size = some ascent →
      ∃ value, ascent.value? = some value ∧ -0x10000000 ≤ value ∧ value ≤ 0x10000000
  place : ∀ data size font index, SizedFont.isRenderableSize size = true →
    library.parse data size = .ok font →
      let metrics := (library.rasterize font index size).1
      (-0x10000000 ≤ metrics.xmin.toInt ∧ metrics.xmin.toInt ≤ 0x10000000) ∧
      (-0x10000000 ≤ metrics.ymin.toInt ∧ metrics.ymin.toInt ≤ 0x10000000)
  size : ∀ data size font index, SizedFont.isRenderableSize size = true →
    library.parse data size = .ok font →
      let metrics := (library.rasterize font index size).1
      metrics.height.toNat ≤ 0x10000000 ∧
      metrics.width.toNat * metrics.height.toNat ≤ UInt64.size

namespace SizedFont

theorem is_renderable_size_iff {size : Binary32} :
    isRenderableSize size = true ↔ ∃ value, size.value? = some value ∧ 1 ≤ value ∧ value ≤ 512 := by
  unfold isRenderableSize
  cases size.value? with
  | none => simp
  | some value =>
      simp only [Bool.and_eq_true, decide_eq_true_eq]
      simp [smallestSize, largestSize]

variable {library : FontLibrary} {data : Array UInt8} {size : Binary32} {sized : SizedFont library}

theorem load_eq_ok_iff : load library data size = .ok sized ↔
    isRenderableSize size = true ∧
      ∃ font, library.parse data size = .ok font ∧ sized = ⟨font, size, wholeNumber (ascent font size)⟩ := by
  unfold load
  cases renderable : isRenderableSize size with
  | false => simp
  | true =>
      cases parsed : library.parse data size with
      | error error => simp
      | ok font => simp [eq_comm]

theorem load_eq_error (renderable : isRenderableSize size = true) {fault : Fault}
    (failed : load library data size = .error fault) : ∃ error, fault = .invalidFont error := by
  unfold load at failed
  rw [renderable] at failed
  cases parsed : library.parse data size with
  | error error =>
      simp only [parsed] at failed
      exact ⟨error, (Except.error.inj failed).symm⟩
  | ok font =>
      simp only [parsed] at failed
      contradiction

theorem round_away_bounded (bound : Int) {value : Rat} (low : (-bound : Rat) ≤ value) (high : value ≤ bound) :
    -bound ≤ roundAway value ∧ roundAway value ≤ bound := by
  unfold roundAway
  split
  · next below =>
      have notAbove : (1 / 2 - value).floor < bound + 1 := by
        rw [Rat.floor_lt_iff]
        push_cast
        linarith
      have notBelow : (0 : Int) ≤ (1 / 2 - value).floor := by
        rw [Rat.le_floor_iff]
        push_cast
        linarith
      omega
  · next above =>
      have notAbove : (value + 1 / 2).floor < bound + 1 := by
        rw [Rat.floor_lt_iff]
        push_cast
        linarith
      have notBelow : (0 : Int) ≤ (value + 1 / 2).floor := by
        rw [Rat.le_floor_iff]
        push_cast
        linarith
      omega

theorem to_int_whole_number {number : Binary32} {value : Rat} (exact : number.value? = some value)
    (low : -0x10000000 ≤ value) (high : value ≤ 0x10000000) :
    -0x10000000 ≤ (wholeNumber number).toInt ∧ (wholeNumber number).toInt ≤ 0x10000000 := by
  have between := round_away_bounded 0x10000000 (by exact_mod_cast low) (by exact_mod_cast high)
  cases number with
  | nan => contradiction
  | infinite negative => contradiction
  | finite negative significand exponent =>
      rw [wholeNumber, exact, Option.getD_some, Place.to_int_of_int_clamp (by omega) (by omega)]
      exact between

theorem top_near {baseline ymin : Int32} {height : Nat}
    (baselineBounds : -0x10000000 ≤ baseline.toInt ∧ baseline.toInt ≤ 0x10000000)
    (yminBounds : -0x10000000 ≤ ymin.toInt ∧ ymin.toInt ≤ 0x10000000) (low : height ≤ 0x10000000) :
    ∃ top, Place.minus? baseline (Place.saturatingPlus ymin (Int32.ofIntClamp height)) = some top ∧
      -0x40000000 ≤ top.toInt ∧ top.toInt ≤ 0x40000000 := by
  have heightValue : (Int32.ofIntClamp height).toInt = height := Place.to_int_of_int_clamp (by omega) (by omega)
  have bottomValue : (Place.saturatingPlus ymin (Int32.ofIntClamp height)).toInt = ymin.toInt + height := by
    rw [Place.to_int_saturating_plus (by omega) (by omega), heightValue]
  have low : -0x80000000 ≤ baseline.toInt - (Place.saturatingPlus ymin (Int32.ofIntClamp height)).toInt := by
    omega
  obtain ⟨top, found, value⟩ := Place.minus?_of_bounds low (by omega)
  exact ⟨top, found, by omega, by omega⟩

def Placed (sized : SizedFont library) : Prop :=
  ∀ index, ∃ bitmap, sized.bitmap? index = some bitmap ∧ bitmap.Near ∧
    bitmap.width.toNat * bitmap.height.toNat ≤ UInt64.size

theorem baseline_bounded (bounded : library.Bounded) (loaded : load library data size = .ok sized) :
    -0x10000000 ≤ sized.baseline.toInt ∧ sized.baseline.toInt ≤ 0x10000000 := by
  obtain ⟨renderable, font, parsed, rfl⟩ := load_eq_ok_iff.mp loaded
  dsimp only [ascent]
  cases above : library.ascent? font size with
  | none =>
      obtain ⟨value, exact, low, high⟩ := is_renderable_size_iff.mp renderable
      exact to_int_whole_number exact (by linarith) (by linarith)
  | some ascent =>
      obtain ⟨value, exact, low, high⟩ := bounded.ascent data size font ascent renderable parsed above
      exact to_int_whole_number exact low high

theorem placed_of_load (bounded : library.Bounded) (loaded : load library data size = .ok sized) :
    sized.Placed := by
  have baseline := baseline_bounded bounded loaded
  obtain ⟨renderable, font, parsed, rfl⟩ := load_eq_ok_iff.mp loaded
  intro index
  obtain ⟨xmin, ymin⟩ := bounded.place data size font index renderable parsed
  obtain ⟨height, addressed⟩ := bounded.size data size font index renderable parsed
  obtain ⟨top, found, near⟩ := top_near baseline ymin height
  have left : -0x40000000 ≤ (library.rasterize font index size).1.xmin.toInt ∧
      (library.rasterize font index size).1.xmin.toInt ≤ 0x40000000 := by omega
  refine ⟨⟨(library.rasterize font index size).2, (library.rasterize font index size).1.width,
    (library.rasterize font index size).1.height, (library.rasterize font index size).1.xmin, top⟩, ?_, ?_, addressed⟩
  · simp [bitmap?, found]
  · exact ⟨left, near⟩

theorem scalar?_valid {code : Nat} (valid : code.isValidChar) : scalar? code = some (Char.ofNat code) := by
  rw [scalar?, if_pos valid]

theorem is_control_iff {code : Nat} (valid : code.isValidChar) :
    isControl (Char.ofNat code) = true ↔ code < 0x20 ∨ (0x7F ≤ code ∧ code < 0xA0) := by
  have value : (Char.ofNat code).toNat = code := by
    rw [Char.ofNat, dif_pos valid]
    rfl
  simp [isControl, value]

section Render

variable {code : Nat} {cell : Cell}

theorem render_invalid (invalid : ¬ code.isValidChar) :
    (sized.render code cell ()).result = .error (.fault (.notCharacter code)) := by
  rw [render, scalar?, if_neg invalid]

theorem render_missing (valid : code.isValidChar)
    (unmapped : library.glyphIndex sized.font (Char.ofNat code) = 0) :
    (sized.render code cell ()).result =
      if isControl (Char.ofNat code) then .ok (.blank cell)
      else .error (.fault (.noGlyph (Char.ofNat code))) := by
  simp only [render, scalar?_valid valid, unmapped, if_true, missingGlyph]
  split <;> rfl

theorem render_drawn (valid : code.isValidChar)
    (mapped : library.glyphIndex sized.font (Char.ofNat code) ≠ 0) :
    (sized.render code cell ()).result =
      match (sized.bitmap? (library.glyphIndex sized.font (Char.ofNat code))).bind (·.draw? cell) with
      | none => .error .overflow
      | some image => .ok image := by
  simp only [render, scalar?_valid valid, mapped, if_false]
  cases (sized.bitmap? (library.glyphIndex sized.font (Char.ofNat code))).bind (·.draw? cell) with
  | none => rfl
  | some image => rfl

theorem render_drawn_cases (valid : code.isValidChar)
    (mapped : library.glyphIndex sized.font (Char.ofNat code) ≠ 0) :
    (sized.render code cell ()).result = .error .overflow ∨
      ∃ bitmap image, sized.bitmap? (library.glyphIndex sized.font (Char.ofNat code)) = some bitmap ∧
        bitmap.draw? cell = some image ∧ (sized.render code cell ()).result = .ok image := by
  rw [render_drawn valid mapped]
  cases drawn : (sized.bitmap? (library.glyphIndex sized.font (Char.ofNat code))).bind (·.draw? cell) with
  | none => exact .inl rfl
  | some image =>
      obtain ⟨bitmap, found, inCell⟩ := Option.bind_eq_some_iff.mp drawn
      exact .inr ⟨bitmap, image, found, inCell, rfl⟩

theorem cell_of_render {image : GlyphImage} (rendered : (sized.render code cell ()).result = .ok image) :
    image.cell = cell := by
  by_cases valid : code.isValidChar
  · by_cases unmapped : library.glyphIndex sized.font (Char.ofNat code) = 0
    · rw [render_missing valid unmapped] at rendered
      split at rendered
      · obtain rfl := Except.ok.inj rendered
        rfl
      · contradiction
    · obtain overflow | ⟨bitmap, drawn, -, inCell, shown⟩ := render_drawn_cases valid unmapped
      · exact nomatch rendered.symm.trans overflow
      · obtain rfl := Except.ok.inj (rendered.symm.trans shown)
        exact GlyphImage.cell_of_of_fn? inCell
  · rw [render_invalid valid] at rendered
    contradiction

theorem render_mapped (placed : sized.Placed) (valid : code.isValidChar)
    (mapped : library.glyphIndex sized.font (Char.ofNat code) ≠ 0) :
    ∃ bitmap : Bitmap, ∀ cell : Cell, cell.width ≤ 255 → cell.height ≤ 255 →
      (sized.render code cell ()).result = .ok (bitmap.draw cell) := by
  obtain ⟨bitmap, found, near, addressed⟩ := placed (library.glyphIndex sized.font (Char.ofNat code))
  refine ⟨bitmap, fun cell narrow low => ?_⟩
  have drawn := Bitmap.draw?_eq_some_draw near narrow low (Bitmap.indexed_of_size addressed)
  rw [render_drawn valid mapped, found, Option.bind_some, drawn]

-- No integer overflows where every glyph is placed.
theorem render_ne_overflow (placed : sized.Placed) (narrow : cell.width ≤ 255) (low : cell.height ≤ 255) :
    (sized.render code cell ()).result ≠ .error .overflow := by
  by_cases valid : code.isValidChar
  · by_cases unmapped : library.glyphIndex sized.font (Char.ofNat code) = 0
    · rw [render_missing valid unmapped]
      split <;> exact nofun
    · obtain ⟨bitmap, drawn⟩ := render_mapped placed valid unmapped
      rw [drawn cell narrow low]
      exact nofun
  · rw [render_invalid valid]
    exact nofun

end Render

end SizedFont
end Bitfont
