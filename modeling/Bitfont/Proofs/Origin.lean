import Mathlib.Data.List.Basic
import Bitfont.Proofs.Session
import Bitfont.Proofs.Text.Utf8

namespace Bitfont

def Text.AddsLine (start plain longer : Text) : Prop :=
  ∃ before line after, plain = before ++ after ∧ longer = before ++ line ++ '\n' :: after ∧
    (before = [] ∨ before.getLast? = some '\n') ∧ start <+: line ∧ '\n' ∉ line

namespace Literal

def remarkStart : Text := "// generated from ".toList

variable {source : RowSequence} (style : Style) {name : Text}

theorem preamble_without_origin :
    preamble { style with origin := none } = [] ∨
      (preamble { style with origin := none }).getLast? = some '\n' := by
  unfold preamble
  by_cases included : style.language = .c ∧ style.stdint = true
  · right
    simp [included]
  · left
    simp [included]

theorem preamble_with_origin :
    preamble { style with origin := some name } =
      preamble { style with origin := none } ++ (remarkStart ++ name ++ ['\n']) := by
  have nothing (header remark : Text) : header ++ remark = header ++ [] ++ remark := by
    rw [List.append_nil]
  exact nothing _ _

-- One line feed is added by the remark itself, and each further one by the name.
theorem adds_line_remark_iff (name : Text) {before : Text} (after : Text)
    (lineStart : before = [] ∨ before.getLast? = some '\n') :
    Text.AddsLine remarkStart (before ++ after) (before ++ (remarkStart ++ name) ++ '\n' :: after) ↔
      '\n' ∉ name := by
  have noneInStart : remarkStart.count '\n' = 0 := by decide
  constructor
  · rintro ⟨front, line, back, plain, longer, -, -, oneLine⟩
    have plainFeeds := congrArg (List.count '\n') plain
    have longerFeeds := congrArg (List.count '\n') longer
    have lineFeeds := List.count_eq_zero.mpr oneLine
    simp only [List.count_append, List.count_cons_self] at plainFeeds longerFeeds
    exact List.count_eq_zero.mp (by omega)
  · intro oneLine
    refine ⟨before, remarkStart ++ name, after, rfl, rfl, lineStart, List.prefix_append _ _, ?_⟩
    exact fun member => (List.mem_append.mp member).elim (List.count_eq_zero.mp noneInStart) oneLine

theorem text_with_origin {longer : Text}
    (remarked : text source { style with origin := some name } = .ok longer) :
    ∃ plain, text source { style with origin := none } = .ok plain ∧
      (Text.AddsLine remarkStart plain longer ↔ '\n' ∉ name) := by
  obtain ⟨nonempty, narrow, rfl⟩ := (text_eq_ok_iff source _ longer).mp remarked
  have plain := (text_eq_ok_iff source { style with origin := none } _).mpr ⟨nonempty, narrow, rfl⟩
  have oneLine := adds_line_remark_iff name
    (declaration style (dimensions source style.layout) ++ body source style ++
      closing style.language) (preamble_without_origin style)
  simp only [List.append_assoc] at plain oneLine
  refine ⟨_, plain, ?_⟩
  rw [preamble_with_origin]
  simp only [List.append_assoc, List.singleton_append]
  exact oneLine

end Literal

inductive Request.YieldsUnremarked (library : FontLibrary) : Request → Array UInt8 → Text → Prop where
  | rasterize {request : RasterizeRequest} {data : Array UInt8} {sized : SizedFont library} {text : Text}
      (loaded : SizedFont.load library data request.size = .ok sized)
      (converted : (Typeface.convert sized.render request.format none ()).result = .ok text) :
      YieldsUnremarked library (.rasterize request) data text
  | blob {request : BlobRequest} {data : Array UInt8} {converted : Blob.Converted}
      (success : Blob.convert request.format none data = .ok converted) :
      YieldsUnremarked library (.blob request) data converted.text

theorem Blob.convert_with_origin {format : Format} {name : Text} {blob : Array UInt8}
    {remarked : Converted} (success : convert format (some name) blob = .ok remarked) :
    ∃ plain, convert format none blob = .ok plain ∧
      (Text.AddsLine Literal.remarkStart plain.text remarked.text ↔ '\n' ∉ name) := by
  obtain ⟨written, sizes⟩ := (convert_eq_ok_iff format (some name) blob remarked).mp success
  obtain ⟨plain, unremarked, oneLine⟩ :=
    Literal.text_with_origin (format.literalStyle none) written
  exact ⟨{ remarked with text := plain },
    (convert_eq_ok_iff format none blob _).mpr ⟨unremarked, sizes⟩, oneLine⟩

theorem Typeface.convert_with_origin {σ ε : Type} {render : Renderer σ ε} {format : Format}
    {name remarked : Text} {state : σ}
    (success : (convert render format (some name) state).result = .ok remarked) :
    ∃ plain, (convert render format none state).result = .ok plain ∧
      (Text.AddsLine Literal.remarkStart plain remarked ↔ '\n' ∉ name) := by
  unfold convert at success ⊢
  cases built : (Strike.build render format.codes format.cell state).result with
  | error error =>
      simp only [built] at success
      contradiction
  | ok strike =>
      simp only [built] at success ⊢
      unfold Format.write at success ⊢
      cases chosen : format.chosenElement with
      | none =>
          simp only [chosen] at success
          contradiction
      | some element =>
          simp only [chosen] at success ⊢
          obtain ⟨plain, unremarked, oneLine⟩ := Literal.text_with_origin
            (format.literalStyle element none) (map_error_eq_ok_iff.mp success)
          exact ⟨plain, map_error_eq_ok_iff.mpr unremarked, oneLine⟩

theorem Path.origin_cases (path : Octets) :
    fileName? path = none ∧ origin path = none ∨
      ∃ file, fileName? path = some file ∧ origin path = some (text file) ∧
        ('\n' ∉ text file ↔ 0x0A ∉ file) := by
  unfold origin
  cases fileName? path with
  | none => exact .inl ⟨rfl, rfl⟩
  | some file => exact .inr ⟨file, rfl, rfl, not_congr (Utf8.line_feed_mem_decode_lossy file)⟩

-- The name in the remark is the name of the file as text, in which only the byte of a line feed reads
-- as one.
theorem Request.yields_with_origin {library : FontLibrary} {request : Request} {data : Array UInt8}
    {remarked : Text} (noHeader : ∀ header, request ≠ .header header)
    (yields : request.Yields library data remarked) :
    ∃ plain, request.YieldsUnremarked library data plain ∧
      match Path.fileName? request.input with
      | none => remarked = plain
      | some file => Text.AddsLine Literal.remarkStart plain remarked ↔ 0x0A ∉ file := by
  cases yields with
  | @rasterize request _ sized _ loaded converted =>
      change ∃ plain, _ ∧ match Path.fileName? request.font with | none => _ | some _ => _
      obtain ⟨named, unnamed⟩ | ⟨file, named, origin, lineFeed⟩ := Path.origin_cases request.font
      · rw [unnamed] at converted
        rw [named]
        exact ⟨_, .rasterize loaded converted, rfl⟩
      · rw [origin] at converted
        obtain ⟨plain, unremarked, oneLine⟩ := Typeface.convert_with_origin converted
        rw [named]
        exact ⟨plain, .rasterize loaded unremarked, oneLine.trans lineFeed⟩
  | @blob request _ converted success =>
      change ∃ plain, _ ∧ match Path.fileName? request.input with | none => _ | some _ => _
      obtain ⟨named, unnamed⟩ | ⟨file, named, origin, lineFeed⟩ := Path.origin_cases request.input
      · rw [unnamed] at success
        rw [named]
        exact ⟨_, .blob success, rfl⟩
      · rw [origin] at success
        obtain ⟨plain, unremarked, oneLine⟩ := Blob.convert_with_origin success
        rw [named]
        exact ⟨plain.text, .blob unremarked, oneLine.trans lineFeed⟩
  | header => exact absurd rfl (noHeader _)

-- The remark is one line if and only if the name keeps to one: for any literal and any name, and for
-- the literals of requests with the names of their input files.
theorem Literal.remark_is_one_line_iff (source : RowSequence) (style : Style) (name : Text) :
    (∀ fault, text source { style with origin := some name } = .error fault ↔
      text source { style with origin := none } = .error fault) ∧
    (∀ remarked, text source { style with origin := some name } = .ok remarked →
      ∃ plain, text source { style with origin := none } = .ok plain ∧
        (Text.AddsLine remarkStart plain remarked ↔ '\n' ∉ name)) ∧
    ∀ (library : FontLibrary) (request : Request) (data : Array UInt8) (remarked : Text),
      (∀ header, request ≠ .header header) → request.Yields library data remarked →
        ∃ plain, request.YieldsUnremarked library data plain ∧
          match Path.fileName? request.input with
          | none => remarked = plain
          | some file => Text.AddsLine remarkStart plain remarked ↔ 0x0A ∉ file := by
  refine ⟨?_, fun remarked => text_with_origin style, fun library request data remarked => ?_⟩
  · intro fault
    rw [text_eq_error_iff, text_eq_error_iff]
  · exact Request.yields_with_origin

-- A file name of two lines: the second line stands below the comment, as code.
theorem Literal.name_of_two_lines_adds_code :
    let name := "a\nint x;".toList
    let format : Blob.Format := ⟨16, 1, "f".toList, .flat, .c, .lower, none⟩
    let source := (format.glyphs #[1]).rowSequence
    let plain := "#include <stdint.h>\nstatic const uint8_t f[1] = \x7b\n    0x01\n\x7d;\n".toList
    let remarked := ("#include <stdint.h>\n// generated from a\nint x;\n" ++
      "static const uint8_t f[1] = \x7b\n    0x01\n\x7d;\n").toList
    text source (format.literalStyle none) = .ok plain ∧
      text source (format.literalStyle (some name)) = .ok remarked ∧
      ¬ Text.AddsLine remarkStart plain remarked ∧
      ∃ request, Path.fileName? request.input = some (Utf8.encode name) ∧
        ∀ library, Request.Yields library (.blob request) #[1] remarked := by
  intro name format source plain remarked
  have unremarked : text source (format.literalStyle none) = .ok plain := by
    rw [text_eq_ok_iff]
    exact ⟨by decide, by decide, by decide⟩
  have written : text source (format.literalStyle (some name)) = .ok remarked := by
    rw [text_eq_ok_iff]
    exact ⟨by decide, by decide, by decide⟩
  have twoLines : ¬ Text.AddsLine remarkStart plain remarked := by
    obtain ⟨same, also, oneLine⟩ := text_with_origin (format.literalStyle none) written
    obtain rfl := Except.ok.inj (also.symm.trans unremarked)
    exact mt oneLine.mp (by decide)
  have origin : Path.origin (Utf8.encode name) = some name := by decide +kernel
  let converted : Blob.Converted := ⟨remarked, 0, 1, none⟩
  have success : Blob.convert format (Path.origin (Utf8.encode name)) #[1] = .ok converted := by
    rw [origin, Blob.convert_eq_ok_iff]
    exact ⟨written, by decide, by decide, by decide⟩
  let request : BlobRequest := ⟨Utf8.encode name, .standardOutput, format⟩
  have yields (library : FontLibrary) : Request.Yields library (.blob request) #[1] converted.text :=
    .blob success
  exact ⟨unremarked, written, twoLines, request, by decide, yields⟩

end Bitfont
