import Mathlib.Data.Set.Function
import Bitfont.Proofs.GlyphImage
import Bitfont.Bitmap

namespace Bitfont

def Cell.HasPoint (cell : Cell) (point : Int × Int) : Prop :=
  0 ≤ point.1 ∧ point.1 < cell.width ∧ 0 ≤ point.2 ∧ point.2 < cell.height

theorem Cell.has_point_cast {cell : Cell} {x y : Nat} (hx : x < cell.width) (hy : y < cell.height) :
    cell.HasPoint (↑x, ↑y) := by
  simp only [HasPoint]
  omega

theorem Cell.exists_cast_of_has_point {cell : Cell} {point : Int × Int} (inside : cell.HasPoint point) :
    ∃ x y : Nat, x < cell.width ∧ y < cell.height ∧ point = (↑x, ↑y) := by
  obtain ⟨left, right, above, below⟩ := inside
  obtain ⟨x, y⟩ := point
  lift x to Nat using left
  lift y to Nat using above
  exact ⟨x, y, by simpa using right, by simpa using below, rfl⟩

namespace GlyphImage

def foreground (image : GlyphImage) : Set (Int × Int) :=
  {point | ∃ x y : Nat, point = (↑x, ↑y) ∧ image.pixel? x y = some true}

-- A point to the left of the cell or above it is outside, too.
def setPoint (image : GlyphImage) (point : Int × Int) (on : Bool) : GlyphImage :=
  if 0 ≤ point.1 ∧ 0 ≤ point.2 then (image.set point.1.toNat point.2.toNat on).1 else image

theorem set_point_cell (image : GlyphImage) (point : Int × Int) (on : Bool) :
    (image.setPoint point on).cell = image.cell := by
  unfold setPoint
  split
  · exact image.set_cell _ _ on
  · rfl

theorem pixel?_set_point_self (image : GlyphImage) (on : Bool) {x y : Nat} (hx : x < image.cell.width)
    (hy : y < image.cell.height) : (image.setPoint (↑x, ↑y) on).pixel? x y = some on := by
  simpa [setPoint] using image.pixel?_set_self on hx hy

theorem pixel?_set_point_other (image : GlyphImage) (on : Bool) {point : Int × Int} {x y : Nat}
    (other : point ≠ (↑x, ↑y)) : (image.setPoint point on).pixel? x y = image.pixel? x y := by
  by_cases inside : 0 ≤ point.1 ∧ 0 ≤ point.2
  · have apart : ¬ (point.1.toNat = x ∧ point.2.toNat = y) := by
      intro same
      apply other
      ext <;> dsimp only <;> omega
    rw [setPoint, if_pos inside]
    exact image.pixel?_set_other on apart
  · rw [setPoint, if_neg inside]

end GlyphImage

namespace Bitmap

structure Marks (bitmap : Bitmap) (column row : Nat) : Prop where
  inColumns : column < bitmap.width.toNat
  inRows : row < bitmap.height.toNat
  value : ∃ value, bitmap.coverage[row * bitmap.width.toNat + column]? = some value ∧ value ≠ 0

def point (bitmap : Bitmap) (entry : Nat × Nat) : Int × Int :=
  (bitmap.left.toInt + entry.1, bitmap.top.toInt + entry.2)

def visible (bitmap : Bitmap) (cell : Cell) : Set (Nat × Nat) :=
  {entry | bitmap.Marks entry.1 entry.2 ∧ cell.HasPoint (bitmap.point entry)}

def Indexed (bitmap : Bitmap) (cell : Cell) : Prop :=
  ∀ column row, column < bitmap.width.toNat → row < bitmap.height.toNat →
    cell.HasPoint (bitmap.point (column, row)) → row * bitmap.width.toNat + column < UInt64.size

def put (bitmap : Bitmap) (index : Nat) (value : UInt8) : Bitmap :=
  { bitmap with coverage := bitmap.coverage.setIfInBounds index value }

structure Near (bitmap : Bitmap) : Prop where
  left : -0x40000000 ≤ bitmap.left.toInt ∧ bitmap.left.toInt ≤ 0x40000000
  top : -0x40000000 ≤ bitmap.top.toInt ∧ bitmap.top.toInt ≤ 0x40000000

-- What is sampled and drawn where no number overflows.
def sample (bitmap : Bitmap) (x y : Nat) : UInt8 :=
  let column := (x : Int) - bitmap.left.toInt
  let row := (y : Int) - bitmap.top.toInt
  if 0 ≤ column ∧ column < bitmap.width.toNat ∧ 0 ≤ row ∧ row < bitmap.height.toNat then
    bitmap.coverage[row.toNat * bitmap.width.toNat + column.toNat]?.getD 0
  else 0

def draw (bitmap : Bitmap) (cell : Cell) : GlyphImage :=
  GlyphImage.ofFn cell fun x y => 0 < bitmap.sample x y

section Sample

variable (bitmap : Bitmap) {x y column row : Nat}

theorem index_lt_entries {width height : Nat} (hc : column < width) (hr : row < height) :
    row * width + column < width * height :=
  @Cell.index_lt_area ⟨width, height⟩ column row hc hr

theorem point_injective : Function.Injective bitmap.point := by
  intro entry other same
  simp only [point, Prod.mk.injEq] at same
  ext <;> omega

theorem sample_at (here : bitmap.point (column, row) = (↑x, ↑y)) :
    bitmap.sample x y = if column < bitmap.width.toNat ∧ row < bitmap.height.toNat then
      bitmap.coverage[row * bitmap.width.toNat + column]?.getD 0 else 0 := by
  simp only [point, Prod.mk.injEq] at here
  have columns : (x : Int) - bitmap.left.toInt = column := by omega
  have rows : (y : Int) - bitmap.top.toInt = row := by omega
  simp [sample, columns, rows]

theorem sample_cases (x y : Nat) :
    (∃ column row, bitmap.point (column, row) = (↑x, ↑y)) ∨
      ((x : Int) < bitmap.left.toInt ∨ (y : Int) < bitmap.top.toInt) ∧ bitmap.sample x y = 0 := by
  by_cases outside : (x : Int) < bitmap.left.toInt ∨ (y : Int) < bitmap.top.toInt
  · refine .inr ⟨outside, ?_⟩
    rw [sample, if_neg]
    omega
  · refine .inl ⟨((x : Int) - bitmap.left.toInt).toNat, ((y : Int) - bitmap.top.toInt).toNat, ?_⟩
    simp only [point, Prod.mk.injEq]
    omega

theorem sample_ne_zero_iff : bitmap.sample x y ≠ 0 ↔
    ∃ column row, bitmap.Marks column row ∧ bitmap.point (column, row) = (↑x, ↑y) := by
  constructor
  · intro marked
    obtain ⟨column, row, here⟩ | ⟨-, zero⟩ := bitmap.sample_cases x y
    · rw [bitmap.sample_at here] at marked
      by_cases within : column < bitmap.width.toNat ∧ row < bitmap.height.toNat
      · rw [if_pos within] at marked
        cases entry : bitmap.coverage[row * bitmap.width.toNat + column]? with
        | none => simp [entry] at marked
        | some value =>
            have nonzero : value ≠ 0 := by simpa [entry] using marked
            exact ⟨column, row, ⟨within.1, within.2, value, entry, nonzero⟩, here⟩
      · simp [within] at marked
    · exact absurd zero marked
  · rintro ⟨column, row, marks, here⟩
    obtain ⟨value, entry, nonzero⟩ := marks.value
    simpa [bitmap.sample_at here, marks.inColumns, marks.inRows, entry] using nonzero

theorem sample_put_self (value : UInt8) (hc : column < bitmap.width.toNat) (hr : row < bitmap.height.toNat)
    (present : row * bitmap.width.toNat + column < bitmap.coverage.size)
    (here : bitmap.point (column, row) = (↑x, ↑y)) :
    (bitmap.put (row * bitmap.width.toNat + column) value).sample x y = value := by
  have moved : (bitmap.put (row * bitmap.width.toNat + column) value).point (column, row) = (↑x, ↑y) := here
  rw [sample_at _ moved]
  simp [put, hc, hr, present]

theorem sample_put_other {index : Nat} (value : UInt8)
    (other : ∀ column row, column < bitmap.width.toNat → row < bitmap.height.toNat →
      bitmap.point (column, row) = (↑x, ↑y) → index ≠ row * bitmap.width.toNat + column) :
    (bitmap.put index value).sample x y = bitmap.sample x y := by
  obtain ⟨column, row, here⟩ | ⟨outside, zero⟩ := bitmap.sample_cases x y
  · have moved : (bitmap.put index value).point (column, row) = (↑x, ↑y) := here
    rw [sample_at _ moved, bitmap.sample_at here]
    by_cases within : column < bitmap.width.toNat ∧ row < bitmap.height.toNat
    · have apart := other column row within.1 within.2 here
      simp [put, Array.getElem?_setIfInBounds_ne apart]
    · simp [put, within]
  · rw [zero, sample, if_neg]
    simp only [put]
    omega

end Sample

section Draw

variable (bitmap : Bitmap) (cell : Cell)

theorem pixel?_draw {x y : Nat} (hx : x < cell.width) (hy : y < cell.height) :
    (bitmap.draw cell).pixel? x y = some (decide (bitmap.sample x y ≠ 0)) := by
  rw [draw, GlyphImage.pixel?_of_fn cell _ hx hy]
  simp [UInt8.pos_iff_ne_zero]

theorem foreground_draw : (bitmap.draw cell).foreground =
    {point | cell.HasPoint point ∧ ∃ column row, bitmap.Marks column row ∧ point = bitmap.point (column, row)} := by
  ext point
  constructor
  · rintro ⟨x, y, rfl, on⟩
    have inside : x < cell.width ∧ y < cell.height := by
      by_contra outside
      simp [GlyphImage.pixel?_outside (bitmap.draw cell) outside] at on
    rw [bitmap.pixel?_draw cell inside.1 inside.2, Option.some_inj, decide_eq_true_iff] at on
    obtain ⟨column, row, marks, here⟩ := bitmap.sample_ne_zero_iff.mp on
    exact ⟨by simpa [Cell.HasPoint] using inside, column, row, marks, here.symm⟩
  · rintro ⟨inside, column, row, marks, rfl⟩
    obtain ⟨left, right, above, below⟩ := inside
    generalize place : bitmap.point (column, row) = point at *
    obtain ⟨x, y⟩ := point
    lift x to Nat using left
    lift y to Nat using above
    have hx : x < cell.width := by simpa using right
    have hy : y < cell.height := by simpa using below
    refine ⟨x, y, rfl, ?_⟩
    rw [bitmap.pixel?_draw cell hx hy, decide_eq_true (bitmap.sample_ne_zero_iff.mpr ⟨column, row, marks, place⟩)]

theorem draw_bij_on : Set.BijOn bitmap.point (bitmap.visible cell) (bitmap.draw cell).foreground := by
  rw [foreground_draw]
  refine ⟨?_, bitmap.point_injective.injOn, ?_⟩
  · rintro entry ⟨marks, inside⟩
    exact ⟨inside, entry.1, entry.2, marks, rfl⟩
  · rintro point ⟨inside, column, row, marks, rfl⟩
    exact ⟨(column, row), ⟨marks, inside⟩, rfl⟩

theorem draw_put {column row : Nat} (value : UInt8) (hc : column < bitmap.width.toNat) (hr : row < bitmap.height.toNat)
    (present : row * bitmap.width.toNat + column < bitmap.coverage.size) :
    (bitmap.put (row * bitmap.width.toNat + column) value).draw cell =
      (bitmap.draw cell).setPoint (bitmap.point (column, row)) (decide (value ≠ 0)) := by
  apply GlyphImage.ext_pixel?
  · rw [GlyphImage.set_point_cell]
    rfl
  intro x y hx hy
  change x < cell.width at hx
  change y < cell.height at hy
  rw [pixel?_draw _ cell hx hy]
  by_cases here : bitmap.point (column, row) = (↑x, ↑y)
  · rw [bitmap.sample_put_self value hc hr present here, here,
      GlyphImage.pixel?_set_point_self (bitmap.draw cell) _ hx hy]
  · rw [GlyphImage.pixel?_set_point_other _ _ here, bitmap.pixel?_draw cell hx hy, sample_put_other]
    intro column' row' hc' hr' there same
    obtain ⟨rfl, rfl⟩ := GlyphImage.index_injective hc hc' same
    exact here there

theorem draw_put_beyond {index : Nat} (value : UInt8) (beyond : bitmap.width.toNat * bitmap.height.toNat ≤ index) :
    (bitmap.put index value).draw cell = bitmap.draw cell := by
  apply GlyphImage.eq_of_fn rfl
  intro x y hx hy
  have same : (bitmap.put index value).sample x y = bitmap.sample x y := by
    apply sample_put_other
    intro column row hc hr _
    exact Nat.ne_of_gt (Nat.lt_of_lt_of_le (index_lt_entries hc hr) beyond)
  rw [pixel?_draw _ cell hx hy, same]
  simp [UInt8.pos_iff_ne_zero]

end Draw

section Overflow

theorem value_at?_inside {bitmap : Bitmap} {column row : UInt64}
    (hc : column.toNat < bitmap.width.toNat) (hr : row.toNat < bitmap.height.toNat) :
    bitmap.valueAt? column row =
      if row.toNat * bitmap.width.toNat + column.toNat < UInt64.size then
        some (bitmap.coverage[row.toNat * bitmap.width.toNat + column.toNat]?.getD 0)
      else none := by
  have within : column < bitmap.width ∧ row < bitmap.height := by
    simpa only [UInt64.lt_iff_toNat_lt] using And.intro hc hr
  rw [valueAt?, if_pos within]
  cases product : Offset.times? row bitmap.width with
  | none =>
      have overflow := Offset.overflow_of_times? product
      rw [if_neg (by omega)]
      rfl
  | some start =>
      have startValue := Offset.to_nat_of_times? product
      cases sum : Offset.plus? start column with
      | none =>
          have overflow := Offset.overflow_of_plus? sum
          rw [if_neg (by omega)]
          simp [sum]
      | some index =>
          have indexValue := Offset.to_nat_of_plus? sum
          have bounded : index.toNat < UInt64.size := index.toNat_lt_size
          rw [if_pos (by omega)]
          simp [sum, indexValue, startValue]

theorem value_at?_outside {bitmap : Bitmap} {column row : UInt64}
    (outside : ¬ (column.toNat < bitmap.width.toNat ∧ row.toNat < bitmap.height.toNat)) :
    bitmap.valueAt? column row = some 0 := by
  simp only [valueAt?, UInt64.lt_iff_toNat_lt, if_neg outside]

theorem distance_to {place : Nat} {start : Int32} (small : place ≤ 255)
    (near : -0x40000000 ≤ start.toInt ∧ start.toInt ≤ 0x40000000) :
    ∃ distance, Place.minus? (Int32.ofNat place) start = some distance ∧
      distance.toInt = place - start.toInt := by
  have exact : (Int32.ofNat place).toInt = place := Int32.toInt_ofNat_of_lt (by omega)
  rw [← exact]
  exact Place.minus?_of_bounds (by omega) (by omega)

theorem to_nat_of_nat_of_near {distance : Nat} (near : distance < 0x80000000) :
    (UInt64.ofNat distance).toNat = distance :=
  UInt64.toNat_ofNat_of_lt' (Nat.lt_of_lt_of_le near (by decide))

variable {bitmap : Bitmap} (near : bitmap.Near) {x y : Nat} (hx : x ≤ 255) (hy : y ≤ 255)

include near hx hy

theorem sample?_at {column row : Nat} (here : bitmap.point (column, row) = (↑x, ↑y)) :
    bitmap.sample? x y = bitmap.valueAt? (UInt64.ofNat column) (UInt64.ofNat row) ∧
      (UInt64.ofNat column).toNat = column ∧ (UInt64.ofNat row).toNat = row := by
  have leftNear := near.left
  have topNear := near.top
  obtain ⟨columns, columnsRead, columnsValue⟩ := distance_to hx leftNear
  obtain ⟨rows, rowsRead, rowsValue⟩ := distance_to hy topNear
  simp only [point, Prod.mk.injEq] at here
  have columnNat : columns.toNatClampNeg = column := by
    rw [Int32.toNatClampNeg, columnsValue]
    omega
  have rowNat : rows.toNatClampNeg = row := by
    rw [Int32.toNatClampNeg, rowsValue]
    omega
  have behind : 0 ≤ columns ∧ 0 ≤ rows := by
    simp only [Int32.le_iff_toInt_le, Int32.toInt_zero, columnsValue, rowsValue]
    omega
  refine ⟨?_, to_nat_of_nat_of_near (by omega), to_nat_of_nat_of_near (by omega)⟩
  simp [sample?, columnsRead, rowsRead, behind, columnNat, rowNat]

theorem sample?_outside (outside : (x : Int) < bitmap.left.toInt ∨ (y : Int) < bitmap.top.toInt) :
    bitmap.sample? x y = some 0 := by
  obtain ⟨columns, columnsRead, columnsValue⟩ := distance_to hx near.left
  obtain ⟨rows, rowsRead, rowsValue⟩ := distance_to hy near.top
  have notBehind : ¬ (0 ≤ columns ∧ 0 ≤ rows) := by
    simp only [Int32.le_iff_toInt_le, Int32.toInt_zero, columnsValue, rowsValue]
    omega
  simp [sample?, columnsRead, rowsRead, notBehind]

theorem sample?_at_value {column row : Nat} (hc : column < bitmap.width.toNat)
    (hr : row < bitmap.height.toNat) (here : bitmap.point (column, row) = (↑x, ↑y)) :
    bitmap.sample? x y = if row * bitmap.width.toNat + column < UInt64.size then
      some (bitmap.sample x y) else none := by
  have within : column < bitmap.width.toNat ∧ row < bitmap.height.toNat := ⟨hc, hr⟩
  obtain ⟨looked, columnValue, rowValue⟩ := sample?_at near hx hy here
  rw [looked, bitmap.sample_at here, if_pos within, value_at?_inside (columnValue.trans_lt hc)
    (rowValue.trans_lt hr), columnValue, rowValue]

theorem sample?_eq_some (indexed : ∀ column row, column < bitmap.width.toNat → row < bitmap.height.toNat →
    bitmap.point (column, row) = (↑x, ↑y) → row * bitmap.width.toNat + column < UInt64.size) :
    bitmap.sample? x y = some (bitmap.sample x y) := by
  obtain ⟨column, row, here⟩ | ⟨outside, zero⟩ := bitmap.sample_cases x y
  · by_cases within : column < bitmap.width.toNat ∧ row < bitmap.height.toNat
    · rw [sample?_at_value near hx hy within.1 within.2 here]
      exact if_pos (indexed column row within.1 within.2 here)
    · obtain ⟨looked, columnValue, rowValue⟩ := sample?_at near hx hy here
      rw [looked, bitmap.sample_at here, if_neg within, value_at?_outside (by rwa [columnValue, rowValue])]
  · rw [sample?_outside near hx hy outside, zero]

end Overflow

section Clipped

variable {bitmap : Bitmap} {cell : Cell} (near : bitmap.Near) (narrow : cell.width ≤ 255)
  (tall : cell.height ≤ 255)

theorem indexed_of_size (addressed : bitmap.width.toNat * bitmap.height.toNat ≤ UInt64.size) :
    bitmap.Indexed cell := by
  intro column row hc hr _
  exact Nat.lt_of_lt_of_le (index_lt_entries hc hr) addressed

include near narrow tall

theorem draw?_eq_some_draw (indexed : bitmap.Indexed cell) : bitmap.draw? cell = some (bitmap.draw cell) := by
  apply GlyphImage.of_fn?_eq_some
  intro x y hx hy
  have shown : bitmap.sample? x y = some (bitmap.sample x y) := by
    apply sample?_eq_some near (by omega) (by omega)
    intro column row hc hr here
    exact indexed column row hc hr (here ▸ Cell.has_point_cast hx hy)
  rw [shown, Option.map_some]

theorem draw?_is_some_iff : (bitmap.draw? cell).isSome ↔ bitmap.Indexed cell := by
  constructor
  · intro drawn column row hc hr inside
    obtain ⟨image, drawn⟩ := Option.isSome_iff_exists.mp drawn
    obtain ⟨x, y, hx, hy, here⟩ := Cell.exists_cast_of_has_point inside
    have shown := GlyphImage.is_some_of_of_fn? drawn hx hy
    rw [Option.isSome_map, sample?_at_value near (by omega) (by omega) hc hr here] at shown
    by_contra large
    rw [if_neg large] at shown
    contradiction
  · intro indexed
    rw [draw?_eq_some_draw near narrow tall indexed]
    rfl

theorem draw?_eq_some {image : GlyphImage} (drawn : bitmap.draw? cell = some image) :
    bitmap.Indexed cell ∧ image = bitmap.draw cell := by
  have indexed : bitmap.Indexed cell := (draw?_is_some_iff near narrow tall).mp (by rw [drawn]; rfl)
  exact ⟨indexed, Option.some.inj (drawn.symm.trans (draw?_eq_some_draw near narrow tall indexed))⟩

end Clipped

-- Numbers of 32 bits do not overflow. One of 64 bits does exactly where the cell shows a place of the
-- bitmap that has no index of 64 bits, and then there is no image.
theorem drawn_translated_and_clipped (bitmap : Bitmap) (cell : Cell) (near : bitmap.Near)
    (narrow : cell.width ≤ 255) (tall : cell.height ≤ 255) :
    (∀ x y, x < cell.width → y < cell.height →
      (Place.minus? (Int32.ofNat x) bitmap.left).isSome ∧
        (Place.minus? (Int32.ofNat y) bitmap.top).isSome) ∧
    ((bitmap.draw? cell).isSome ↔ bitmap.Indexed cell) ∧
    (bitmap.width.toNat * bitmap.height.toNat ≤ UInt64.size → bitmap.Indexed cell) ∧
    ∀ image, bitmap.draw? cell = some image →
      image.cell = cell ∧
      image.foreground = {point | cell.HasPoint point ∧
        ∃ column row, bitmap.Marks column row ∧ point = bitmap.point (column, row)} ∧
      Set.BijOn bitmap.point (bitmap.visible cell) image.foreground ∧
      (∀ column row value, column < bitmap.width.toNat → row < bitmap.height.toNat →
        row * bitmap.width.toNat + column < bitmap.coverage.size →
          (bitmap.put (row * bitmap.width.toNat + column) value).draw? cell =
            some (image.setPoint (bitmap.point (column, row)) (decide (value ≠ 0)))) ∧
      ∀ index value, bitmap.width.toNat * bitmap.height.toNat ≤ index →
        (bitmap.put index value).draw? cell = some image := by
  refine ⟨?_, draw?_is_some_iff near narrow tall, indexed_of_size, ?_⟩
  · intro x y hx hy
    obtain ⟨columns, columnsRead, -⟩ := distance_to (by omega : x ≤ 255) near.left
    obtain ⟨rows, rowsRead, -⟩ := distance_to (by omega : y ≤ 255) near.top
    exact ⟨by simp [columnsRead], by simp [rowsRead]⟩
  · intro image drawn
    obtain ⟨indexed, rfl⟩ := draw?_eq_some near narrow tall drawn
    refine ⟨rfl, bitmap.foreground_draw cell, bitmap.draw_bij_on cell, ?_, ?_⟩
    · intro column row value hc hr present
      rw [← bitmap.draw_put cell value hc hr present]
      exact draw?_eq_some_draw ⟨near.left, near.top⟩ narrow tall indexed
    · intro index value beyond
      rw [← bitmap.draw_put_beyond cell value beyond]
      exact draw?_eq_some_draw ⟨near.left, near.top⟩ narrow tall indexed

-- Of three columns two lie to the left of the cell. Behind the last entry the coverage has one value
-- more, which would stand to the right of the second row.
theorem overhanging_bitmap_clipped :
    let bitmap : Bitmap := ⟨#[1, 1, 1, 1, 1, 1, 1], 3, 2, -2, 14⟩
    let cell : Cell := ⟨8, 16⟩
    (bitmap.Near ∧ cell.width ≤ 255 ∧ cell.height ≤ 255) ∧
      ∃ image, bitmap.draw? cell = some image ∧ bitmap.Marks 2 1 ∧ (0, 15) ∈ image.foreground ∧
        (bitmap.put 2 0).draw? cell = some (image.set 0 14 false).1 ∧
        (bitmap.put 3 0).draw? cell = some image ∧ (bitmap.put 6 0).draw? cell = some image := by
  intro bitmap cell
  have near : bitmap.Near := ⟨by decide, by decide⟩
  have narrow : cell.width ≤ 255 := by decide
  have tall : cell.height ≤ 255 := by decide
  have corner : bitmap.Marks 2 1 := ⟨by decide, by decide, 1, by decide, by decide⟩
  obtain ⟨-, drawn, addressed, all⟩ := bitmap.drawn_translated_and_clipped cell near narrow tall
  obtain ⟨image, drawn⟩ := Option.isSome_iff_exists.mp (drawn.mpr (addressed (by decide)))
  obtain ⟨-, foreground, -, entry, beyond⟩ := all image drawn
  have shown : (0, 15) ∈ image.foreground := by
    have inside : cell.HasPoint (0, 15) := by simp [Cell.HasPoint, cell]
    rw [foreground]
    exact ⟨inside, 2, 1, corner, by decide⟩
  exact ⟨⟨near, narrow, tall⟩, image, drawn, corner, shown, entry 2 0 0 (by decide) (by decide) (by decide),
    entry 0 1 0 (by decide) (by decide) (by decide), beyond 6 0 (by decide)⟩

-- The third row starts at the index 2⁶⁴.
theorem third_row_overflows :
    let bitmap : Bitmap := ⟨#[], 0x8000000000000000, 3, 0, 0⟩
    bitmap.Near ∧ bitmap.sample? 0 2 = none ∧ bitmap.draw? ⟨1, 3⟩ = none := by
  intro bitmap
  have lost : bitmap.sample? 0 2 = none := by decide
  refine ⟨⟨by decide, by decide⟩, lost, ?_⟩
  cases drawn : bitmap.draw? ⟨1, 3⟩ with
  | none => rfl
  | some image =>
      have sampled := GlyphImage.is_some_of_of_fn? drawn (x := 0) (y := 2) (by decide) (by decide)
      rw [lost] at sampled
      contradiction

end Bitmap
end Bitfont
