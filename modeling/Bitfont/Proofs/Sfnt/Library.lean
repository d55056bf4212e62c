import Bitfont.Sfnt.Library
import Bitfont.Proofs.Binary32
import Bitfont.Proofs.Except
import Bitfont.Proofs.SizedFont

namespace Bitfont

namespace Raster

variable {bound : Nat} {first : Rat} {rest : List Rat}

theorem between_foldl {choose : Rat → Rat → Rat} (chooses : ∀ a b, choose a b = a ∨ choose a b = b)
    (all : ∀ value ∈ first :: rest, Between bound value) : Between bound (rest.foldl choose first) := by
  induction rest generalizing first with
  | nil => exact all first (List.mem_cons_self ..)
  | cons second rest ih =>
      apply ih
      have head := all first (List.mem_cons_self ..)
      have next := all second (List.mem_cons_of_mem _ (List.mem_cons_self ..))
      rw [List.forall_mem_cons]
      refine ⟨?_, fun value member => all value (List.mem_cons_of_mem _ (List.mem_cons_of_mem _ member))⟩
      rcases chooses first second with same | same <;> rwa [same]

theorem lesser_chooses (a b : Rat) : lesser a b = a ∨ lesser a b = b := ite_eq_or_eq _ _ _

theorem greater_chooses (a b : Rat) : greater a b = a ∨ greater a b = b := (ite_eq_or_eq _ _ _).symm

theorem extent_between {values : List Rat} (all : ∀ value ∈ values, Between bound value) :
    -(bound : Int) ≤ (extent values).1 ∧ (extent values).1 + (extent values).2 ≤ bound := by
  cases values with
  | nil => simp [extent]
  | cons first rest =>
      obtain ⟨low, notAbove⟩ := between_foldl lesser_chooses all
      obtain ⟨-, high⟩ := between_foldl greater_chooses all
      have below : -(bound : Int) ≤ (rest.foldl lesser first).floor := by
        rw [Rat.le_floor_iff]
        exact_mod_cast low
      have floor : (rest.foldl lesser first).floor ≤ bound := by
        have cast : ((rest.foldl lesser first).floor : Rat) ≤ (bound : Int) :=
          le_trans (Rat.floor_le _) (by exact_mod_cast notAbove)
        exact_mod_cast cast
      have ceil : (rest.foldl greater first).ceil ≤ bound := by
        rw [Rat.ceil_le_iff]
        exact_mod_cast high
      dsimp only [extent]
      omega

end Raster

namespace Sfnt

def WithinWord (coordinate : Int) : Prop := -0x8000 ≤ coordinate ∧ coordinate < 0x8000

theorem within_word_bmod (value : Int) : WithinWord (Int.bmod value 0x10000) := by
  have low := Int.le_bmod (x := value) (m := 0x10000) (by decide)
  have high := Int.bmod_lt (x := value) (m := 0x10000) (by decide)
  constructor <;> omega

theorem coordinates?_within_word {data : Array UInt8} {axis : Axis} {flags : List Nat} {position stop : Nat}
    {last : Int} {values : List Int} (read : coordinates? data axis flags position last = some (values, stop)) :
    ∀ value ∈ values, WithinWord value := by
  induction flags generalizing position last values stop with
  | nil =>
      obtain ⟨rfl, -⟩ := Prod.mk.inj (Option.some.inj read)
      exact fun _ member => nomatch member
  | cons flag flags ih =>
      simp only [coordinates?, Option.bind_eq_bind, Option.bind_eq_some_iff, Option.pure_def,
        Option.some.injEq, Prod.mk.injEq, Prod.exists] at read
      obtain ⟨step, next, -, rest, end', tail, rfl, -⟩ := read
      intro value member
      rcases List.mem_cons.mp member with rfl | inTail
      · exact within_word_bmod _
      · exact ih tail value inTail

theorem mem_of_mem_contours {start : Nat} {ends : List Nat} {points : List Point} {contour : Contour}
    {point : Point} (member : contour ∈ contours start ends points) (inside : point ∈ contour) :
    point ∈ points := by
  induction ends generalizing start points with
  | nil => exact nomatch member
  | cons stop ends ih =>
      rcases List.mem_cons.mp member with rfl | later
      · exact List.mem_of_mem_take inside
      · exact List.mem_of_mem_drop (ih later)

def Contour.WithinWord (contour : Contour) : Prop :=
  ∀ point ∈ contour, Sfnt.WithinWord point.1 ∧ Sfnt.WithinWord point.2

theorem outline?_within_word {data : Array UInt8} {outline : List Contour} (read : outline? data = some outline) :
    ∀ contour ∈ outline, contour.WithinWord := by
  simp only [outline?, Option.bind_eq_bind, Option.bind_none, Option.ite_none_left_eq_some,
    Option.bind_eq_some_iff, Option.pure_def, Option.some.injEq, Prod.exists] at read
  obtain ⟨_, -, -, ends, -, _, -, -, _, -, _, _, -, xs, _, across, ys, _, down, rfl⟩ := read
  intro contour member point inside
  obtain ⟨x, y⟩ := point
  obtain ⟨inRow, inColumn⟩ := List.of_mem_zip (mem_of_mem_contours member inside)
  exact ⟨coordinates?_within_word across x inRow, coordinates?_within_word down y inColumn⟩

theorem eq_some_of_mem_getd {α : Type} {found : Option (List α)} {item : α} (member : item ∈ found.getD []) :
    ∃ items, found = some items ∧ item ∈ items := by
  cases found with
  | none => exact nomatch member
  | some items => exact ⟨items, rfl, member⟩

theorem contours_within_word (font : Font) (index : Nat) :
    ∀ contour ∈ font.contours index, contour.WithinWord := by
  intro contour member
  obtain ⟨outline, found, inOutline⟩ := eq_some_of_mem_getd member
  simp only [Option.bind_eq_bind, Option.bind_none, Option.ite_none_left_eq_some,
    Option.bind_eq_some_iff] at found
  obtain ⟨_, -, _, -, -, data, -, read⟩ := found
  exact outline?_within_word read contour inOutline

theorem units_per_em_of_parse_head? {data : Array UInt8} {unitsPerEm : Nat} {format : LocationFormat}
    (read : Font.parseHead? data = some (unitsPerEm, format)) : 16 ≤ unitsPerEm := by
  simp only [Font.parseHead?, Option.bind_eq_bind, Option.bind_none, Option.ite_none_left_eq_some,
    Option.bind_eq_some_iff, Option.pure_def] at read
  obtain ⟨-, units, -, proper, _, -, chosen⟩ := read
  split at chosen
  · obtain ⟨rfl, -⟩ := Prod.mk.inj (Option.some.inj chosen)
    omega
  · obtain ⟨rfl, -⟩ := Prod.mk.inj (Option.some.inj chosen)
    omega
  · contradiction

theorem within_word_of_parse_hhea? {data : Array UInt8} {ascender : Int}
    (read : Font.parseHhea? data = some ascender) : WithinWord ascender := by
  simp only [Font.parseHhea?, Option.bind_eq_bind, Option.bind_none, Option.ite_none_left_eq_some,
    Option.bind_eq_some_iff, Option.pure_def, Option.some.injEq] at read
  obtain ⟨-, word, -, rfl⟩ := read
  exact within_word_bmod word

theorem parse_eq_ok {data : Array UInt8} {font : Font} (parsed : Font.parse data = .ok font) :
    ∃ head hhea, Font.parseHead? head = some (font.unitsPerEm, font.locationFormat) ∧
      Font.parseHhea? hhea = some font.ascender := by
  obtain ⟨records, -, tables⟩ := bind_eq_ok_iff.mp parsed
  dsimp only at tables
  split at tables
  · next unitsPerEm locationFormat headRead =>
      split at tables
      · next ascender hheaRead =>
          obtain ⟨head, -, headFound⟩ := Option.bind_eq_some_iff.mp headRead
          obtain ⟨hhea, -, hheaFound⟩ := Option.bind_eq_some_iff.mp hheaRead
          refine ⟨head, hhea, ?_⟩
          split at tables
          · split at tables
            · contradiction
            · obtain rfl := Except.ok.inj tables
              exact ⟨headFound, hheaFound⟩
          · contradiction
      · contradiction
  · contradiction

theorem metrics_of_parse {data : Array UInt8} {font : Font} (parsed : Font.parse data = .ok font) :
    16 ≤ font.unitsPerEm ∧ WithinWord font.ascender := by
  obtain ⟨head, hhea, headRead, hheaRead⟩ := parse_eq_ok parsed
  exact ⟨units_per_em_of_parse_head? headRead, within_word_of_parse_hhea? hheaRead⟩

theorem loaded_of_parse {data : Array UInt8} {size : Binary32} {font : Font}
    (parsed : library.parse data size = .ok font) : Font.parse data = .ok font :=
  map_error_eq_ok_iff.mp parsed

section Loaded

variable {font : Font} {size : Binary32} (fine : 16 ≤ font.unitsPerEm)
  (renderable : SizedFont.isRenderableSize size = true)

theorem between_mul {scale : Rat} {coordinate : Int} {limit : Nat} (bounded : Between limit scale)
    (inside : WithinWord coordinate) : Between (limit * 0x8000) (scale * coordinate) := by
  obtain ⟨below, above⟩ := inside
  have word : |(coordinate : Rat)| ≤ 0x8000 :=
    abs_le.mpr ⟨by exact_mod_cast below, by exact_mod_cast above.le⟩
  have product : |scale * coordinate| ≤ limit * 0x8000 := by
    rw [abs_mul]
    exact mul_le_mul (abs_le.mpr bounded) word (abs_nonneg _) (Nat.cast_nonneg _)
  unfold Between
  push_cast
  exact abs_le.mp product

include fine renderable

theorem pixels_per_unit_between : Between 32 (pixelsPerUnit font size) := by
  obtain ⟨value, exact, low, high⟩ := SizedFont.is_renderable_size_iff.mp renderable
  have units : (16 : Rat) ≤ font.unitsPerEm := by exact_mod_cast fine
  have positive : (0 : Rat) < font.unitsPerEm := by linarith
  rw [pixelsPerUnit, exact, Option.getD_some]
  constructor
  · rw [le_div_iff₀ positive]
    push_cast
    linarith
  · rw [div_le_iff₀ positive]
    push_cast
    linarith

theorem ascent_between (inside : WithinWord font.ascender) :
    ∃ value, (ascent font size).value? = some value ∧ Between 0x10000000 value := by
  obtain ⟨scale, rounded, small⟩ :=
    Binary32.value_of_rat (pixels_per_unit_between fine renderable) (by decide)
  obtain ⟨value, found, within⟩ := Binary32.value_of_rat (between_mul small inside) (by decide)
  refine ⟨value, ?_, ?_⟩
  · rw [ascent, rounded]
    exact found
  · obtain ⟨low, high⟩ := within
    constructor
    · exact le_trans (by norm_num) low
    · exact le_trans high (by norm_num)

theorem corner_between (index : UInt16) : ∀ corner ∈ (outline font index size).flatten,
    Between 0x100000 corner.x ∧ Between 0x100000 corner.y := by
  have scale := pixels_per_unit_between fine renderable
  intro corner member
  obtain ⟨polygon, inOutline, inPolygon⟩ := List.mem_flatten.mp member
  obtain ⟨contour, inContours, rfl⟩ := List.mem_map.mp inOutline
  obtain ⟨point, inContour, rfl⟩ := List.mem_map.mp inPolygon
  obtain ⟨x, y⟩ := contours_within_word font index.toNat contour inContours point inContour
  have across := between_mul scale x
  have down := between_mul scale y
  rw [mul_comm (pixelsPerUnit font size)] at across down
  exact ⟨across, neg_le_neg down.2, neg_le.mp down.1⟩

theorem area_within (index : UInt16) :
    let area := Raster.Area.ofPolygons (outline font index size)
    (-0x100000 ≤ area.left ∧ area.left + area.width ≤ 0x100000) ∧
      (-0x100000 ≤ area.top ∧ area.top + area.height ≤ 0x100000) := by
  have corners := corner_between fine renderable index
  have across : ∀ x ∈ (outline font index size).flatten.map (·.x), Between 0x100000 x := by
    intro x member
    obtain ⟨corner, inside, rfl⟩ := List.mem_map.mp member
    exact (corners corner inside).1
  have down : ∀ y ∈ (outline font index size).flatten.map (·.y), Between 0x100000 y := by
    intro y member
    obtain ⟨corner, inside, rfl⟩ := List.mem_map.mp member
    exact (corners corner inside).2
  exact ⟨Raster.extent_between across, Raster.extent_between down⟩

theorem metrics_bounded (index : UInt16) :
    let metrics := (rasterize font index size).1
    metrics.width.toNat ≤ 0x200000 ∧ metrics.height.toNat ≤ 0x200000 ∧
      (-0x100000 ≤ metrics.xmin.toInt ∧ metrics.xmin.toInt ≤ 0x100000) ∧
      (-0x100000 ≤ metrics.ymin.toInt ∧ metrics.ymin.toInt ≤ 0x100000) := by
  have within := area_within fine renderable index
  dsimp only [rasterize] at within ⊢
  obtain ⟨across, down⟩ := within
  rw [UInt64.toNat_ofNat_of_lt' (by simp only [UInt64.size]; omega),
    UInt64.toNat_ofNat_of_lt' (by simp only [UInt64.size]; omega),
    Place.to_int_of_int_clamp (by omega) (by omega), Place.to_int_of_int_clamp (by omega) (by omega)]
  omega

end Loaded

theorem library_bounded : library.Bounded where
  ascent data size font above renderable parsed found := by
    obtain ⟨fine, inside⟩ := metrics_of_parse (loaded_of_parse parsed)
    obtain rfl := Option.some.inj found
    obtain ⟨value, exact, low, high⟩ := ascent_between fine renderable inside
    exact ⟨value, exact, by exact_mod_cast low, by exact_mod_cast high⟩
  place data size font index renderable parsed := by
    obtain ⟨fine, -⟩ := metrics_of_parse (loaded_of_parse parsed)
    obtain ⟨-, -, across, down⟩ := metrics_bounded fine renderable index
    dsimp only [library]
    omega
  size data size font index renderable parsed := by
    obtain ⟨fine, -⟩ := metrics_of_parse (loaded_of_parse parsed)
    obtain ⟨width, height, -, -⟩ := metrics_bounded fine renderable index
    refine ⟨Nat.le_trans height (by decide), ?_⟩
    exact Nat.le_trans (Nat.mul_le_mul width height) (by decide)

-- Its letters are A, a box of 24 by 16 units, and B, which is empty. There are 16 units to the em.
def twoLetters : Array UInt8 := #[
  0, 1, 0, 0, 0, 6, 0, 0, 0, 0, 0, 0,
  0x63, 0x6D, 0x61, 0x70, 0, 0, 0, 0, 0, 0, 0, 108, 0, 0, 0, 40,
  0x67, 0x6C, 0x79, 0x66, 0, 0, 0, 0, 0, 0, 0, 148, 0, 0, 0, 22,
  0x68, 0x65, 0x61, 0x64, 0, 0, 0, 0, 0, 0, 0, 172, 0, 0, 0, 54,
  0x68, 0x68, 0x65, 0x61, 0, 0, 0, 0, 0, 0, 0, 228, 0, 0, 0, 36,
  0x6C, 0x6F, 0x63, 0x61, 0, 0, 0, 0, 0, 0, 1, 8, 0, 0, 0, 8,
  0x6D, 0x61, 0x78, 0x70, 0, 0, 0, 0, 0, 0, 1, 16, 0, 0, 0, 6,
  0, 0, 0, 1, 0, 3, 0, 10, 0, 0, 0, 12,
  0, 12, 0, 0, 0, 0, 0, 28, 0, 0, 0, 0, 0, 0, 0, 1, 0, 0, 0, 0x41, 0, 0, 0, 0x42, 0, 0, 0, 1,
  0, 1, 0, 0, 0, 0, 0, 24, 0, 16, 0, 3, 0, 0, 0x31, 0x35, 0x33, 0x15, 24, 16, 16, 0, 0, 0,
  0, 1, 0, 0, 0, 0, 0, 0, 0, 0, 0, 0, 0x5F, 0x0F, 0x3C, 0xF5, 0, 0, 0, 16, 0, 0, 0, 0, 0, 0, 0, 0, 0,
  0, 0, 0, 0, 0, 0, 0, 0, 0, 0, 0, 0, 24, 0, 16, 0, 0, 0, 0, 0, 0, 0, 0, 0, 0, 0, 0,
  0, 1, 0, 0, 0, 16, 0, 0, 0, 0, 0, 0, 0, 0, 0, 0, 0, 0, 0, 0, 0, 0, 0, 0, 0, 0, 0, 0, 0, 0, 0, 0, 0, 0, 0, 0,
  0, 0, 0, 0, 0, 11, 0, 11,
  0, 1, 0, 0, 0, 3]

theorem two_letters_loaded : ∃ font, library.parse twoLetters (.ofRat 2) = .ok font ∧
    library.glyphIndex font 'A' = 1 ∧ library.glyphIndex font 'B' = 2 ∧ library.glyphIndex font 'C' = 0 := by
  have read : (library.parse twoLetters (.ofRat 2)).toOption.map (fun font =>
      "ABC".toList.map (library.glyphIndex font)) = some [1, 2, 0] := by decide +kernel
  cases parsed : library.parse twoLetters (.ofRat 2) with
  | error error =>
      rw [parsed] at read
      contradiction
  | ok font =>
      rw [parsed] at read
      simpa using Option.some.inj read

end Sfnt
end Bitfont
