import Mathlib.Algebra.Order.Floor.Div
import Bitfont.Proofs.PackedGlyphs

namespace Bitfont

namespace Counter

def increment? (counter : UInt8) : Option UInt8 :=
  if counter.toNat + 1 < UInt8.size then some (counter + 1) else none

def subtract? (counter less : UInt8) : Option UInt8 :=
  if less ≤ counter then some (counter - less) else none

theorem to_nat_of_nat {n : Nat} (small : n ≤ 255) : (UInt8.ofNat n).toNat = n :=
  UInt8.toNat_ofNat_of_lt' (Nat.lt_succ_of_le small)

theorem increment?_of_nat {n : Nat} (small : n < 255) :
    increment? (UInt8.ofNat n) = some (UInt8.ofNat (n + 1)) := by
  have room : n + 1 < UInt8.size := Nat.succ_lt_succ small
  rw [increment?, to_nat_of_nat (Nat.le_of_lt small), if_pos room, UInt8.ofNat_add]
  rfl

theorem subtract?_of_nat {n k : Nat} (small : n ≤ 255) (less : k ≤ n) :
    subtract? (UInt8.ofNat n) (UInt8.ofNat k) = some (UInt8.ofNat (n - k)) := by
  have value := to_nat_of_nat small
  have other := to_nat_of_nat (Nat.le_trans less small)
  have ordered : UInt8.ofNat k ≤ UInt8.ofNat n := by
    rw [UInt8.le_iff_toNat_le, value, other]
    exact less
  have difference : (UInt8.ofNat n - UInt8.ofNat k).toNat = n - k := by
    rw [UInt8.toNat_sub_of_le _ _ ordered, value, other]
  rw [subtract?, if_pos ordered, ← difference, UInt8.ofNat_toNat]

theorem lt_of_nat_iff {n k : Nat} (small : n ≤ 255) (smallOther : k ≤ 255) :
    UInt8.ofNat k < UInt8.ofNat n ↔ k < n := by
  rw [UInt8.lt_iff_toNat_lt, to_nat_of_nat small, to_nat_of_nat smallOther]

end Counter

inductive CursorStep (σ α : Type) where
  | ended
  | overflow
  | taken (item : α) (next : σ)

section Cursors

variable {σ α : Type} {step : σ → CursorStep σ α}

-- What is taken before the end. A cursor that overflows yields nothing, not even what it took before.
inductive Yields (step : σ → CursorStep σ α) : σ → List α → Prop where
  | ended {cursor : σ} (ends : step cursor = .ended) : Yields step cursor []
  | taken {cursor next : σ} {item : α} {items : List α} (takes : step cursor = .taken item next)
      (later : Yields step next items) : Yields step cursor (item :: items)

theorem Yields.unique {cursor : σ} {items others : List α} (yields : Yields step cursor items)
    (also : Yields step cursor others) : others = items := by
  induction yields generalizing others with
  | ended ends =>
      cases also with
      | ended => rfl
      | taken takes => exact nomatch ends.symm.trans takes
  | taken takes later ih =>
      cases also with
      | ended ends => exact nomatch ends.symm.trans takes
      | taken takesAlso laterAlso =>
          obtain ⟨rfl, rfl⟩ := CursorStep.taken.inj (takesAlso.symm.trans takes)
          rw [ih laterAlso]

theorem Yields.iff {cursor : σ} {items : List α} (yields : Yields step cursor items) (others : List α) :
    Yields step cursor others ↔ others = items :=
  ⟨yields.unique, fun same => same ▸ yields⟩

-- A cursor that stands at a position of a list, takes the item there and goes to the next position.
theorem yields_of_positions {position : Nat → σ} {items : List α} {start : Nat}
    (takes : ∀ offset item, items[offset]? = some item →
      step (position (start + offset)) = .taken item (position (start + offset + 1)))
    (ends : step (position (start + items.length)) = .ended) :
    Yields step (position start) items := by
  induction items generalizing start with
  | nil => exact .ended ends
  | cons item items ih =>
      have first := takes 0 item rfl
      refine .taken first (ih ?_ ?_)
      · intro offset later found
        have shifted := takes (offset + 1) later found
        rwa [← Nat.add_assoc, Nat.add_right_comm] at shifted
      · rwa [List.length_cons, ← Nat.add_assoc, Nat.add_right_comm] at ends

end Cursors

theorem Scanline.pixels_length (row : Scanline) : row.pixels.length = row.width := by
  simp [pixels, PackedRow.pixels]

structure PixelCursor where
  value : UInt16
  width : UInt8
  index : UInt8

namespace PixelCursor

open Counter

def after (row : Scanline) (x : Nat) : PixelCursor :=
  ⟨UInt16.ofNat row.value, UInt8.ofNat row.width, UInt8.ofNat x⟩

def start (row : Scanline) : PixelCursor := after row 0

-- Nothing is left of a number that is shifted by all its bits or more.
def bit (value : UInt16) (shift : UInt8) : Bool :=
  if shift.toNat < 16 then value >>> shift.toUInt16 &&& 1 == 1 else false

def step (cursor : PixelCursor) : CursorStep PixelCursor Bool :=
  if cursor.index < cursor.width then
    match (subtract? cursor.width 1).bind (subtract? · cursor.index), increment? cursor.index with
    | some shift, some index => .taken (bit cursor.value shift) { cursor with index }
    | _, _ => .overflow
  else .ended

theorem bit_eq_test_bit (value : UInt16) (shift : UInt8) :
    bit value shift = value.toNat.testBit shift.toNat := by
  unfold bit
  split
  · next short =>
      have same : (value >>> shift.toUInt16 &&& 1).toNat = value.toNat >>> shift.toNat % 2 := by
        rw [UInt16.toNat_and, UInt16.toNat_shiftRight, UInt8.toNat_toUInt16, Nat.mod_eq_of_lt short]
        exact Nat.and_one_is_mod _
      rw [Nat.testBit_eq_decide_div_mod_eq, ← Nat.shiftRight_eq_div_pow, ← same, Bool.eq_iff_iff,
        beq_iff_eq, decide_eq_true_iff, ← UInt16.toNat_inj]
      rfl
  · next long =>
      have small : value.toNat < 2 ^ shift.toNat :=
        Nat.lt_of_lt_of_le value.toNat_lt (Nat.pow_le_pow_right (by decide) (Nat.not_lt.mp long))
      exact (Nat.testBit_lt_two_pow small).symm

section Row

variable {row : Scanline} (narrow : row.width ≤ 255)

include narrow

theorem step_inside {x : Nat} (inside : x < row.width) :
    step (after row x) = .taken (PackedRow.pixel row.width row.value x) (after row (x + 1)) := by
  have value : (UInt16.ofNat row.value).toNat = row.value :=
    UInt16.toNat_ofNat_of_lt' (PackedRow.of_bytes_lt row.bytes)
  have last : subtract? (UInt8.ofNat row.width) 1 = some (UInt8.ofNat (row.width - 1)) :=
    subtract?_of_nat narrow (Nat.one_le_of_lt inside)
  have fromLast : subtract? (UInt8.ofNat (row.width - 1)) (UInt8.ofNat x) =
      some (UInt8.ofNat (row.width - 1 - x)) := subtract?_of_nat (by omega) (by omega)
  have pixel : bit (UInt16.ofNat row.value) (UInt8.ofNat (row.width - 1 - x)) =
      PackedRow.pixel row.width row.value x := by
    rw [bit_eq_test_bit, value, to_nat_of_nat (by omega), PackedRow.pixel]
  dsimp only [step, after]
  rw [if_pos ((lt_of_nat_iff narrow (by omega)).mpr inside), last, Option.bind_some, fromLast,
    increment?_of_nat (by omega)]
  dsimp only
  rw [pixel]

theorem step_past_last : step (after row row.width) = .ended :=
  if_neg (mt (lt_of_nat_iff narrow narrow).mp (Nat.lt_irrefl _))

theorem yields_pixels : Yields step (start row) row.pixels := by
  apply yields_of_positions
  · intro x on found
    rw [Nat.zero_add]
    obtain ⟨inside, rfl⟩ := List.getElem?_eq_some_iff.mp found
    rw [row.pixels_length] at inside
    rw [step_inside narrow inside]
    simp [Scanline.pixels, PackedRow.pixels]
  · rw [row.pixels_length, Nat.zero_add]
    exact step_past_last narrow

end Row

end PixelCursor

structure RowCursor where
  data : Array UInt8
  width : UInt8
  height : UInt8
  index : UInt8

namespace RowCursor

open Counter

def after (glyph : Glyph) (y : Nat) : RowCursor :=
  ⟨glyph.data, UInt8.ofNat glyph.cell.width, UInt8.ofNat glyph.cell.height, UInt8.ofNat y⟩

def start (glyph : Glyph) : RowCursor := after glyph 0

def step (cursor : RowCursor) : CursorStep RowCursor Scanline :=
  if cursor.index < cursor.height then
    let rowBytes := (cursor.width.toNat + 7) / 8
    match increment? cursor.index with
    | none => .overflow
    | some index =>
        match slice? cursor.data (rowBytes * cursor.index.toNat) rowBytes with
        | none => .ended
        | some bytes => .taken ⟨cursor.width.toNat, bytes⟩ { cursor with index }
  else .ended

section Glyph

variable {glyph : Glyph} (narrow : glyph.cell.width ≤ 255) (low : glyph.cell.height ≤ 255)

include low

theorem step_past_last : step (after glyph glyph.cell.height) = .ended :=
  if_neg (mt (lt_of_nat_iff low low).mp (Nat.lt_irrefl _))

include narrow

theorem step_inside {y : Nat} {row : Scanline} (found : glyph.row? y = some row) :
    step (after glyph y) = .taken row (after glyph (y + 1)) := by
  rw [Glyph.row?] at found
  split at found
  · next inside =>
      obtain ⟨bytes, slice, rfl⟩ := Option.map_eq_some_iff.mp found
      have counted : (UInt8.ofNat y).toNat = y := to_nat_of_nat (by omega)
      rw [Cell.rowBytes] at slice
      dsimp only [step, after]
      rw [if_pos ((lt_of_nat_iff low (by omega)).mpr inside), increment?_of_nat (by omega),
        to_nat_of_nat narrow, counted]
      dsimp only
      rw [slice]
  · contradiction

theorem yields_rows {glyphs : PackedGlyphs} {index : Nat} (found : glyphs.glyph? index = some glyph) :
    Yields step (start glyph) glyph.rows := by
  apply yields_of_positions
  · intro y row listed
    rw [Nat.zero_add]
    exact step_inside narrow low ((PackedGlyphs.glyph_rows_get_elem? found y).symm.trans listed)
  · rw [PackedGlyphs.glyph_rows_length found, ← PackedGlyphs.glyph?_cell found, Nat.zero_add]
    exact step_past_last low

end Glyph

end RowCursor

namespace PackedGlyphs

variable {glyphs : PackedGlyphs}

theorem glyph_pixel?_is_some_iff {index : Nat} {glyph : Glyph} (found : glyphs.glyph? index = some glyph)
    (x y : Nat) :
    (glyph.pixel? x y).isSome ↔ x < glyphs.cell.width ∧ y < glyphs.cell.height := by
  by_cases hy : y < glyphs.cell.height
  · obtain ⟨bytes, line, -⟩ := glyph_row? found hy
    simp [Glyph.pixel?, line, Scanline.pixels_length, hy]
  · have outside := mt (glyph_row?_is_some_iff found y).mp (glyph?_cell found ▸ hy)
    rw [Option.not_isSome_iff_eq_none] at outside
    simp [Glyph.pixel?, outside, hy]

-- Bits past the sixteenth are lost, whichever pixels they stand for.
theorem pixels_read_at_every_width (glyphs : PackedGlyphs) (narrow : glyphs.cell.width ≤ 255)
    (low : glyphs.cell.height ≤ 255) {index : Nat} (inside : index < glyphs.glyphCount) :
    let rowBytes := glyphs.cell.width ⌈/⌉ 8
    ∃ glyph, glyphs.glyph? index = some glyph ∧
      (∀ x y, (glyph.pixel? x y).isSome ↔ x < glyphs.cell.width ∧ y < glyphs.cell.height) ∧
      (∀ rows, Yields RowCursor.step (.start glyph) rows ↔ rows = glyph.rows) ∧
      glyph.rows.length = glyphs.cell.height ∧
      ∀ y < glyphs.cell.height, ∃ row, glyph.rows[y]? = some row ∧
        slice? glyphs.data ((index * glyphs.cell.height + y) * rowBytes) rowBytes = some row.bytes ∧
        (∀ pixels, Yields PixelCursor.step (.start row) pixels ↔ pixels = row.pixels) ∧
        row.pixels.length = glyphs.cell.width ∧
        ∀ x < glyphs.cell.width, row.pixels[x]? = glyph.pixel? x y ∧
          (glyph.pixel? x y = some true ↔ glyphs.cell.width - 1 - x < 16 ∧
            (PackedRow.bigEndian row.bytes).testBit (glyphs.cell.width - 1 - x)) := by
  intro rowBytes
  obtain ⟨glyph, found⟩ := glyph?_inside inside
  have cell := glyph?_cell found
  have rows := RowCursor.yields_rows (cell.symm ▸ narrow) (cell.symm ▸ low) found
  refine ⟨glyph, found, glyph_pixel?_is_some_iff found, rows.iff, glyph_rows_length found, ?_⟩
  intro y hy
  obtain ⟨bytes, line, slice⟩ := glyph_row_slice found hy
  let row : Scanline := ⟨glyphs.cell.width, bytes⟩
  have pixels : Yields PixelCursor.step (.start row) row.pixels := PixelCursor.yields_pixels narrow
  refine ⟨row, (glyph_rows_get_elem? found y).trans line, slice, pixels.iff, row.pixels_length, ?_⟩
  intro x hx
  have read : glyph.pixel? x y = row.pixels[x]? := by
    rw [Glyph.pixel?, line]
    rfl
  refine ⟨read.symm, ?_⟩
  simp [read, row, Scanline.pixels, Scanline.value, PackedRow.pixels, PackedRow.pixel, hx,
    PackedRow.test_bit_of_bytes]

-- All bits of the widest row are set, and only the last sixteen pixels are on.
theorem widest_row_ends_on :
    let glyphs : PackedGlyphs := ⟨⟨255, 1⟩, Array.replicate 32 0xFF⟩
    (glyphs.cell.width ≤ 255 ∧ glyphs.cell.height ≤ 255 ∧ 0 < glyphs.glyphCount) ∧
      ∃ glyph row, glyphs.glyph? 0 = some glyph ∧ glyph.rows[0]? = some row ∧
        (PackedRow.bigEndian row.bytes).testBit 16 ∧ glyph.pixel? 238 0 ≠ some true ∧
        glyph.pixel? 239 0 = some true ∧ Yields PixelCursor.step (.start row) row.pixels ∧
        row.pixels.length = 255 := by
  intro glyphs
  refine ⟨by decide, ?_⟩
  obtain ⟨glyph, found, -, -, -, rows⟩ :=
    pixels_read_at_every_width glyphs (by decide) (by decide) (by decide : 0 < glyphs.glyphCount)
  obtain ⟨row, listed, slice, yields, length, pixels⟩ := rows 0 (by decide)
  obtain ⟨-, lost⟩ := pixels 238 (by decide)
  obtain ⟨-, kept⟩ := pixels 239 (by decide)
  have bytes : row.bytes = List.replicate 32 0xFF := Option.some.inj (slice.symm.trans (by decide))
  rw [bytes] at kept
  refine ⟨glyph, row, found, listed, ?_, ?_, ?_, (yields _).mpr rfl, length⟩
  · rw [bytes]
    decide
  · intro on
    exact absurd (lost.mp on).1 (by decide)
  · exact kept.mpr ⟨by decide, by decide⟩

end PackedGlyphs

end Bitfont
