import Bitfont.Literal
import Bitfont.Proofs.PackedGlyphs

namespace Bitfont

namespace Offset

theorem slice?_eq {data : Array UInt8} {start stop count : UInt64}
    (fits : stop.toNat = start.toNat + count.toNat) :
    slice? data start stop = Bitfont.slice? data start.toNat count.toNat := by
  have ordered : start ≤ stop := by
    rw [UInt64.le_iff_toNat_le]
    omega
  simp only [slice?, Bitfont.slice?, ordered, true_and, fits]

end Offset

namespace PackedGlyphs

theorem word_row?_eq_row? {glyphs : PackedGlyphs} (narrow : glyphs.cell.width ≤ 255)
    (addressed : glyphs.data.size < UInt64.size) (index : UInt64) :
    glyphs.wordRow? index = glyphs.row? index.toNat := by
  have small : glyphs.cell.rowBytes < UInt64.size := by
    have few : glyphs.cell.rowBytes ≤ 32 := by
      unfold Cell.rowBytes
      omega
    exact Nat.lt_of_le_of_lt few (by decide)
  have rowBytes : (UInt64.ofNat glyphs.cell.rowBytes).toNat = glyphs.cell.rowBytes :=
    UInt64.toNat_ofNat_of_lt' small
  unfold wordRow?
  dsimp only
  cases product : Offset.times? index (UInt64.ofNat glyphs.cell.rowBytes) with
  | none =>
      have beyond := Offset.overflow_of_times? product
      rw [rowBytes] at beyond
      exact (row?_eq_none (by omega)).symm
  | some start =>
      have startValue := Offset.to_nat_of_times? product
      rw [rowBytes] at startValue
      rw [Option.bind_eq_bind, Option.bind_some]
      cases sum : Offset.plus? start (UInt64.ofNat glyphs.cell.rowBytes) with
      | none =>
          have beyond := Offset.overflow_of_plus? sum
          rw [rowBytes, startValue] at beyond
          exact (row?_eq_none (by omega)).symm
      | some stop =>
          have slice : Offset.slice? glyphs.data start stop = _ :=
            Offset.slice?_eq (Offset.to_nat_of_plus? sum)
          rw [rowBytes, startValue] at slice
          rw [Option.bind_some, slice]
          rfl

theorem empty_rows {glyphs : PackedGlyphs} (empty : glyphs.cell.width = 0) :
    glyphs.rowCount = 0 ∧ ∀ index, glyphs.row? index = some 0 := by
  have noBytes : glyphs.cell.rowBytes = 0 := by simp [Cell.rowBytes, empty]
  refine ⟨by simp [rowCount, noBytes], ?_⟩
  intro index
  simp [row?, noBytes, slice?, PackedRow.ofBytes]

theorem row?_is_some_iff_counted_or_empty (glyphs : PackedGlyphs) (index : Nat) :
    (glyphs.row? index).isSome ↔ index < glyphs.rowCount ∨ glyphs.cell.width = 0 := by
  by_cases empty : glyphs.cell.width = 0
  · simp [empty, (empty_rows empty).2]
  · simp [empty, row?_is_some_iff (Cell.row_bytes_pos (Nat.pos_of_ne_zero empty))]

theorem found_rows_counted_iff (glyphs : PackedGlyphs) (narrow : glyphs.cell.width ≤ 255)
    (addressed : glyphs.data.size < UInt64.size) :
    let source := glyphs.rowSequence
    (∀ index : UInt64, glyphs.wordRow? index = source.row? index.toNat) ∧
      (∀ index, (source.row? index).isSome ↔ index < source.rowCount ∨ glyphs.cell.width = 0) ∧
      (glyphs.cell.width = 0 → source.rowCount = 0 ∧ ∀ index, source.row? index = some 0) ∧
      ((∀ index : UInt64, (glyphs.wordRow? index).isSome ↔ index.toNat < source.rowCount) ↔
        0 < glyphs.cell.width) := by
  intro source
  have exact (index : UInt64) : glyphs.wordRow? index = source.row? index.toNat :=
    word_row?_eq_row? narrow addressed index
  have found : ∀ index, (source.row? index).isSome ↔ index < source.rowCount ∨ glyphs.cell.width = 0 :=
    glyphs.row?_is_some_iff_counted_or_empty
  refine ⟨exact, found, empty_rows, ?_, ?_⟩
  · intro same
    by_contra noWidth
    have empty : glyphs.cell.width = 0 := Nat.eq_zero_of_not_pos noWidth
    have first := same 0
    rw [exact, found] at first
    have counted : 0 < source.rowCount := first.mp (.inr empty)
    exact Nat.ne_of_gt counted (empty_rows empty).1
  · intro wide index
    rw [exact, found]
    simp [Nat.ne_of_gt wide]

-- Five bytes hold two rows of two bytes. The last index times two is 2⁶⁴, which is no offset of the first
-- row.
theorem index_past_all_offsets :
    let glyphs : PackedGlyphs := ⟨⟨9, 2⟩, #[1, 2, 3, 4, 5]⟩
    (glyphs.cell.width ≤ 255 ∧ glyphs.data.size < UInt64.size) ∧
      (glyphs.wordRow? 1).isSome ∧ glyphs.wordRow? 2 = none ∧
      (0x8000000000000000 : UInt64) * UInt64.ofNat glyphs.cell.rowBytes = 0 ∧
      glyphs.wordRow? 0x8000000000000000 = none := by
  intro glyphs
  have narrow : glyphs.cell.width ≤ 255 := by decide
  have addressed : glyphs.data.size < UInt64.size := by decide
  have counted := (found_rows_counted_iff glyphs narrow addressed).2.2.2.mpr (by decide)
  have two : glyphs.rowSequence.rowCount = 2 := by decide
  rw [two] at counted
  have uncounted (index : UInt64) (beyond : 2 ≤ index.toNat) : glyphs.wordRow? index = none :=
    Option.not_isSome_iff_eq_none.mp (mt (counted index).mp (Nat.not_lt.mpr beyond))
  exact ⟨⟨narrow, addressed⟩, (counted 1).mpr (by decide), uncounted 2 (by decide), by decide,
    uncounted _ (by decide)⟩

theorem uncounted_row_found :
    let glyphs : PackedGlyphs := ⟨⟨0, 4⟩, #[0xFF]⟩
    let source := glyphs.rowSequence
    source.rowCount = 0 ∧ source.row? 0 = some 0 ∧ glyphs.wordRow? 0 = some 0 ∧
      glyphs.wordRow? 0xFFFFFFFFFFFFFFFF = some 0 ∧
      ¬ ((source.row? 0).isSome ↔ 0 < source.rowCount) := by
  decide

end PackedGlyphs
end Bitfont
