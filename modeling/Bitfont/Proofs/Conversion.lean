import Bitfont.Proofs.CommandLine.RasterizeDraft
import Bitfont.Proofs.Session
import Bitfont.Proofs.Sfnt.Library
import Bitfont.Proofs.Strike.Calls
import Bitfont.Proofs.Typeface

namespace Bitfont

inductive RasterizeRequest.Failing (request : RasterizeRequest) : Failure → Prop where
  | unread (error : FileError) : Failing request (.reading request.font (.file error))
  | unloaded (error : String) : Failing request (.loading request.font (.invalidFont error))
  | unrendered (code : Nat) (stop : RenderStop) :
      Failing request (.typeface (.build (.rendering code stop)))
  | noRows : Failing request (.typeface (.literal .noRows))
  | rowTooWide (asked : request.format.element = some .u8) (wide : 8 < request.format.cell.width) :
      Failing request (.typeface (.literal (.rowTooWide request.format.cell.width 8)))
  | undelivered (error : FileError) : Failing request (request.output.failure error)

namespace Typeface

variable {format : Format} {origin : Option Text}

theorem asked_of_too_narrow {element : Literal.Element} (narrow : format.cell.width ≤ 16)
    (chosen : format.chosenElement = some element) (tooNarrow : element.bits < format.cell.width) :
    element = .u8 ∧ format.element = some .u8 := by
  cases element with
  | u16 => exact absurd narrow (Nat.not_le.mpr tooNarrow)
  | u8 =>
      refine ⟨rfl, ?_⟩
      rw [Format.chosenElement] at chosen
      cases asked : format.element with
      | some element =>
          rw [asked] at chosen
          exact chosen
      | none =>
          rw [asked] at chosen
          obtain ⟨other, narrowest, fits⟩ := narrowest_of_le narrow
          obtain rfl := Option.some.inj (narrowest.symm.trans chosen)
          exact absurd fits (Nat.not_le.mpr tooNarrow)

theorem write_eq_error {ε : Type} {strike : Strike} {failure : Failure ε}
    (narrow : format.cell.width ≤ 16) (sameCell : strike.cell = format.cell)
    (failed : format.write origin strike = .error failure) :
    failure = .literal .noRows ∨
      format.element = some .u8 ∧ 8 < format.cell.width ∧
        failure = .literal (.rowTooWide format.cell.width 8) := by
  have rowWidth : strike.rowSequence.rowWidth = format.cell.width := congrArg Cell.width sameCell
  unfold Format.write at failed
  cases chosen : format.chosenElement with
  | none =>
      -- A row that is not too wide has a narrowest element.
      obtain ⟨element, narrowest, -⟩ := narrowest_of_le narrow
      rw [Format.chosenElement, narrowest, Option.or_eq_none_iff] at chosen
      exact nomatch chosen.2
  | some element =>
      rw [chosen] at failed
      obtain ⟨fault, unwritten, rfl⟩ := map_error_eq_error_iff.mp failed
      obtain ⟨-, rfl⟩ | ⟨-, tooNarrow, rfl⟩ := (Literal.text_eq_error_iff _ _ fault).mp unwritten
      · exact .inl rfl
      · rw [rowWidth] at tooNarrow ⊢
        obtain ⟨rfl, asked⟩ := asked_of_too_narrow narrow chosen tooNarrow
        exact .inr ⟨asked, tooNarrow, rfl⟩

theorem convert_sized_eq_error {library : FontLibrary} {sized : SizedFont library}
    {failure : Failure RenderStop} (narrow : format.cell.width ≤ 16)
    (failed : (convert sized.render format origin ()).result = .error failure) :
    (∃ code stop, failure = .build (.rendering code stop)) ∨
      failure = .literal .noRows ∨
      format.element = some .u8 ∧ 8 < format.cell.width ∧
        failure = .literal (.rowTooWide format.cell.width 8) := by
  rcases Strike.stops_empty_or_least sized.render format.codes format.cell () with none | ⟨code, least⟩
  · obtain ⟨images, renders⟩ := Strike.renders_of_stops_empty none
    obtain ⟨strike, built, sameCell, -⟩ := Strike.build_holds narrow renders
    simp only [convert, built] at failed
    exact .inr (write_eq_error narrow sameCell failed)
  · obtain ⟨images, renders⟩ := Strike.renders_below_least least
    obtain ⟨above, below, cause, stopsAt⟩ := least.1
    have stopped : (convert sized.render format origin ()).result = .error (.build cause) :=
      convert_build_error (Strike.build_stops narrow above below renders stopsAt).1
    obtain rfl := Except.error.inj (failed.symm.trans stopped)
    cases stopsAt with
    | @unrendered stop _ => exact .inl ⟨code, stop, rfl⟩
    -- Every image has the size of the cell that it was asked for.
    | misfit given different => exact absurd (SizedFont.cell_of_render given) different

end Typeface

namespace RasterizeRequest

variable {library : FontLibrary} {request : RasterizeRequest} {failure : Failure}

theorem convert_failing (bounds : request.WithinBounds) {data : Array UInt8}
    (failed : (request.convert library data).result = .error failure) : request.Failing failure := by
  unfold RasterizeRequest.convert at failed
  cases loaded : SizedFont.load library data request.size with
  | error fault =>
      rw [loaded] at failed
      obtain rfl := Except.error.inj failed
      obtain ⟨error, rfl⟩ := SizedFont.load_eq_error bounds.size loaded
      exact .unloaded error
  | ok sized =>
      rw [loaded] at failed
      obtain ⟨cause, unconverted, rfl⟩ := map_error_eq_error_iff.mp (map_eq_error_iff.mp failed)
      obtain ⟨code, stop, rfl⟩ | rfl | ⟨asked, wide, rfl⟩ :=
        Typeface.convert_sized_eq_error bounds.format.narrow unconverted
      · exact .unrendered code stop
      · exact .noRows
      · exact .rowTooWide asked wide

theorem run_failing (bounds : request.WithinBounds) {terminal : Outlet} {files : FileTree}
    (failed : ((Request.rasterize request).run library terminal files).result = .error failure) :
    request.Failing failure := by
  have ends := (Request.rasterize request).run_ends library terminal files
  generalize (Request.rasterize request).run library terminal files = report at ends failed
  cases ends with
  | unread =>
      obtain rfl := Except.error.inj failed
      exact .unread _
  | unconverted _ unconverted =>
      obtain rfl := Except.error.inj failed
      exact convert_failing bounds unconverted
  | @offered data delivery read converted =>
      obtain ⟨-, place⟩ := Request.yields_of_convert converted
      have cause : ∃ error, failure = delivery.output.failure error := by
        obtain ⟨-, ⟨error, unopened⟩, -⟩ | ⟨taken, -, -, result, -⟩ := FileTree.accept_cases terminal files
          ((Request.rasterize request).convert library data).log delivery
        · exact ⟨error, Except.error.inj (failed.symm.trans unopened)⟩
        · rw [result] at failed
          obtain ⟨error, -, rfl⟩ := map_error_eq_error_iff.mp failed
          exact ⟨error, rfl⟩
      obtain ⟨error, rfl⟩ := cause
      rw [place]
      exact .undelivered error

end RasterizeRequest

namespace CommandLine

theorem rasterize_settings_accepted (environment : Environment) (arguments : List Octets)
    (level : Log.Level) (request : RasterizeRequest)
    (parsed : CommandLine.read environment arguments = .ok ⟨level, .rasterize request⟩) :
    (1 ≤ request.format.cell.width ∧ request.format.cell.width ≤ 16) ∧
    1 ≤ request.format.cell.height ∧
    (∃ value, request.size.value? = some value ∧ 1 ≤ value ∧ value ≤ 512) ∧
    (∀ count, request.format.wrap = some count → 0 < count) ∧
    ∀ library terminal files failure,
      ((Request.rasterize request).run library terminal files).result = .error failure →
      (∀ path size, failure ≠ .loading path (.invalidSize size)) ∧
      (∀ code fault, failure ≠ .typeface (.build (.packing code fault))) ∧
      (∀ width, failure ≠ .typeface (.noElement width)) ∧
      ∀ width bits, failure = .typeface (.literal (.rowTooWide width bits)) →
        Given arguments "element" "u8" ∧ 8 < request.format.cell.width := by
  obtain ⟨bounds, given⟩ := read_within_bounds parsed
  refine ⟨⟨bounds.format.wide, bounds.format.narrow⟩, bounds.format.tall,
    SizedFont.is_renderable_size_iff.mp bounds.size, bounds.format.wrap, ?_⟩
  intro library terminal files failure failed
  cases RasterizeRequest.run_failing bounds failed with
  | rowTooWide asked wide =>
      exact ⟨nofun, nofun, nofun, fun _ _ _ => ⟨given asked, wide⟩⟩
  | undelivered error =>
      cases request.output with
      | standardOutput | file => exact ⟨nofun, nofun, nofun, nofun⟩
  | unread | unloaded | unrendered | noRows => exact ⟨nofun, nofun, nofun, nofun⟩

-- The size comes from the environment, and the cell of the one control character is too wide for the
-- element asked for.
theorem narrow_element_refused :
    let environment : Environment := [("FONT_CONVERTER_SIZE".toList, Utf8.encode "2.5".toList)]
    let arguments := ["rasterize", "--font", "/fonts/f", "--first=0", "--last=1", "--width", "9",
      "--element=u8"].map fun word => Utf8.encode word.toList
    let path := Utf8.encode "/fonts/f".toList
    let files : FileTree := { entries := [
      ([Utf8.encode "fonts".toList], .directory),
      ([Utf8.encode "fonts".toList, Utf8.encode ['f']], .file Sfnt.twoLetters)] }
    let format : Typeface.Format :=
      ⟨⟨0, 1⟩, ⟨9, 16⟩, "g_8x16_font".toList, some .u8, .c, .upper, none⟩
    let request : RasterizeRequest := ⟨path, .ofRat (5 / 2), format, .standardOutput⟩
    CommandLine.read environment arguments = .ok ⟨.info, .rasterize request⟩ ∧
      (∃ value, request.size.value? = some value ∧ 1 ≤ value ∧ value ≤ 512) ∧
      ((Request.rasterize request).run Sfnt.library (fun _ => .whole) files).result =
        .error (.typeface (.literal (.rowTooWide 9 8))) ∧
      Given arguments "element" "u8" := by
  intro environment arguments path files format request
  have parsed : CommandLine.read environment arguments = .ok ⟨.info, .rasterize request⟩ := by
    decide +kernel
  have failed : ((Request.rasterize request).run Sfnt.library (fun _ => .whole) files).result =
      .error (.typeface (.literal (.rowTooWide 9 8))) := by decide +kernel
  obtain ⟨-, -, size, -, failures⟩ :=
    rasterize_settings_accepted environment arguments .info request parsed
  exact ⟨parsed, size, failed, ((failures _ _ files _ failed).2.2.2 9 8 rfl).1⟩

end CommandLine
end Bitfont
