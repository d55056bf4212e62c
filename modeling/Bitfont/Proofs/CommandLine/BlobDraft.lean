import Bitfont.CommandLine.Invocation
import Bitfont.Proofs.CommandLine.Spelled

namespace Bitfont

namespace Literal

def Layout.word : Layout → String
  | .flat => "flat"
  | .grouped => "grouped"

def Language.word : Language → String
  | .c => "c"
  | .rust => "rust"

end Literal

def Numeral.LetterCase.word : LetterCase → String
  | .lower => "lower"
  | .upper => "upper"

namespace CommandLine

theorem ValueReader.layout_word (layout : Literal.Layout) :
    ValueReader.layout (Utf8.encode layout.word.toList) = .ok layout := by
  cases layout with
  | flat => exact word_encode (by decide) (by decide)
  | grouped => exact word_encode (by decide) (by decide)

theorem ValueReader.language_word (language : Literal.Language) :
    ValueReader.language (Utf8.encode language.word.toList) = .ok language := by
  cases language with
  | c => exact word_encode (by decide) (by decide)
  | rust => exact word_encode (by decide) (by decide)

theorem ValueReader.letter_case_word (letterCase : Numeral.LetterCase) :
    ValueReader.letterCase (Utf8.encode letterCase.word.toList) = .ok letterCase := by
  cases letterCase with
  | lower => exact word_encode (by decide) (by decide)
  | upper => exact word_encode (by decide) (by decide)

end CommandLine

def Output.path? : Output → Option Octets
  | .standardOutput => none
  | .file path => some path

theorem Output.of_path_path? (output : Output) : ofPath output.path? = output := by
  cases output <;> rfl

namespace Blob

def wrapArgument : Option Nat → Octets
  | none => CommandLine.longArgument "no-wrap" none
  | some count => CommandLine.longArgument "wrap" (some (Utf8.encode (Numeral.decimal count)))

def wrapOption : Option Nat → String
  | none => "no-wrap"
  | some _ => "wrap"

namespace Format

variable (format : Format)

def arguments : List Octets := [
  CommandLine.longArgument "rows-per-glyph" (some (Utf8.encode (Numeral.decimal format.glyphHeight))),
  CommandLine.longArgument "expected-size" (some (Utf8.encode (Numeral.decimal format.nominalSize))),
  CommandLine.longArgument "symbol" (some (Utf8.encode format.symbol)),
  CommandLine.longArgument "layout" (some (Utf8.encode format.layout.word.toList)),
  CommandLine.longArgument "syntax" (some (Utf8.encode format.language.word.toList)),
  CommandLine.longArgument "hex-case" (some (Utf8.encode format.letterCase.word.toList)),
  wrapArgument format.wrap]

def options : List String :=
  ["rows-per-glyph", "expected-size", "symbol", "layout", "syntax", "hex-case", wrapOption format.wrap]

structure Expressible : Prop where
  tall : 1 ≤ format.glyphHeight
  low : format.glyphHeight ≤ 255
  small : format.nominalSize ≤ CommandLine.ValueReader.maxCount
  wrap : ∀ count, format.wrap = some count → 0 < count ∧ count ≤ CommandLine.ValueReader.maxCount

end Format
end Blob

namespace BlobRequest

variable (request : BlobRequest)

def arguments : List Octets :=
  Utf8.encode "blob".toList :: (request.format.arguments ++
    CommandLine.endOfOptions :: request.input :: request.output.path?.toList)

structure Expressible : Prop where
  input : request.input ≠ []
  output : request.output ≠ .file []
  format : request.format.Expressible

end BlobRequest

namespace CommandLine
namespace BlobDraft

theorem unambiguous : command.Unambiguous where
  distinct := by decide
  named := by decide
  noEquals := by decide

def withFormat (format : Blob.Format) (draft : BlobDraft) : BlobDraft :=
  { draft with
    glyphHeight := some format.glyphHeight
    nominalSize := some format.nominalSize
    symbol := some format.symbol
    layout := some format.layout
    language := some format.language
    letterCase := some format.letterCase
    wrap := format.wrap.or draft.wrap
    noWrap := format.wrap.isNone || draft.noWrap }

theorem options_distinct (format : Blob.Format) : format.options.Nodup := by
  unfold Blob.Format.options
  cases format.wrap with
  | none => decide
  | some count =>
      change ["rows-per-glyph", "expected-size", "symbol", "layout", "syntax", "hex-case", "wrap"].Nodup
      decide

theorem wrap_spelled {wrap : Option Nat}
    (fits : ∀ count, wrap = some count → 0 < count ∧ count ≤ ValueReader.maxCount) :
    command.Spelled [Blob.wrapArgument wrap] [Blob.wrapOption wrap] fun draft =>
      { draft with wrap := wrap.or draft.wrap, noWrap := wrap.isNone || draft.noWrap } := by
  cases wrap with
  | none => exact .of_eq (.marked .nothing "no-wrap" rfl) rfl
  | some count =>
      obtain ⟨positive, below⟩ := fits count rfl
      exact .of_eq (.stored .nothing "wrap" rfl (ValueReader.positive_count_decimal positive below)) rfl

theorem format_spelled {format : Blob.Format} (expressible : format.Expressible) :
    command.Spelled format.arguments format.options (withFormat format) := by
  have byte : 255 ≤ Numeral.maxInteger := by decide
  have wrap := wrap_spelled expressible.wrap
  have letterCase := wrap.stored "hex-case" rfl (ValueReader.letter_case_word format.letterCase)
  have language := letterCase.stored "syntax" rfl (ValueReader.language_word format.language)
  have layout := language.stored "layout" rfl (ValueReader.layout_word format.layout)
  have symbol := layout.stored "symbol" rfl (ValueReader.text_encode format.symbol)
  have size := symbol.stored "expected-size" rfl (ValueReader.count_decimal expressible.small)
  have rows := size.stored "rows-per-glyph" rfl
    (ValueReader.integer_decimal expressible.tall expressible.low byte)
  exact rows.of_eq rfl

def withPaths (request : BlobRequest) (draft : BlobDraft) : BlobDraft :=
  { draft with input := some request.input, output := request.output.path?.or draft.output }

theorem paths_filled {request : BlobRequest} (expressible : request.Expressible) :
    Filled command.positionals (request.input :: request.output.path?.toList) (withPaths request) := by
  have input := ValueReader.path_nonempty expressible.input
  unfold withPaths
  cases output : request.output with
  | standardOutput =>
      exact .of_eq (.stored .nothing input) rfl
  | file path =>
      have nonempty : path ≠ [] := by
        rintro rfl
        exact expressible.output output
      have last := ValueReader.path_nonempty nonempty
      exact .of_eq (.stored (.stored .nothing last) input) rfl

variable (request : BlobRequest)

def spelledOut : BlobDraft := withPaths request (withFormat request.format {})

theorem spelled_out_conflict (given : List String) : (spelledOut request).conflict given = none := by
  unfold conflict spelledOut withPaths withFormat
  cases request.format.wrap with
  | none => rfl
  | some count => rfl

theorem spelled_out_format : (spelledOut request).format = request.format := by
  unfold format spelledOut withPaths withFormat
  cases request with
  | mk input output format =>
      cases format with
      | mk glyphHeight nominalSize symbol layout language letterCase wrap => cases wrap <;> rfl

theorem spelled_out_finish (given : List String) :
    (spelledOut request).finish given = .ok request := by
  have input : (spelledOut request).input = some request.input := rfl
  have output : Output.ofPath (spelledOut request).output = request.output := by
    change Output.ofPath (request.output.path?.or none) = request.output
    rw [Option.or_none, Output.of_path_path?]
  rw [finish, spelled_out_conflict, input]
  dsimp only
  rw [output, spelled_out_format]

end BlobDraft

theorem read_program_subcommand {environment : Environment} {progress : Progress Unit}
    {argument : Octets} {subcommand : Subcommand} (options : progress.onlyPositionals = false)
    (named : subcommand? argument = some subcommand) (rest : List Octets) :
    readProgram environment progress (argument :: rest) =
      readSubcommand environment progress rest subcommand := by
  rw [readProgram, options, if_neg Bool.false_ne_true, named]

theorem subcommand?_blob : subcommand? (Utf8.encode "blob".toList) = some .blob := by
  have distinct : (subcommands.map Prod.fst).Nodup := by decide
  have member : ("blob", Subcommand.blob) ∈ subcommands := by decide
  rw [subcommand?, find?_named Prod.fst distinct member]
  rfl

theorem spelled_out_request_is_read (environment : Environment) (request : BlobRequest)
    (expressible : request.Expressible) :
    CommandLine.read environment request.arguments = .ok ⟨.info, .blob request⟩ := by
  have spelled := BlobDraft.format_spelled expressible.format
  have distinct := BlobDraft.options_distinct request.format
  have filled := BlobDraft.paths_filled expressible
  obtain ⟨progress, read, draft, -, verbosity⟩ :=
    Command.read_spelled BlobDraft.unambiguous spelled distinct filled {}
  have finished : progress.draft.finish progress.given = .ok request := by
    rw [draft]
    exact BlobDraft.spelled_out_finish request progress.given
  have level : effectiveLevel (Progress.start program ()) progress = .info := by
    rw [effectiveLevel, verbosity]
    rfl
  rw [CommandLine.read, BlobRequest.arguments, read_program_subcommand rfl subcommand?_blob]
  change (BlobDraft.command.read {} _ >>= _) = _
  rw [read]
  change (progress.draft.finish progress.given >>= _) = _
  rw [finished, ← level]
  rfl

-- The symbol is the default one, which Rust would write in upper case, and the paths look like options.
theorem default_symbol_kept_as_given :
    let format : Blob.Format :=
      { glyphHeight := 255, nominalSize := 0, symbol := "builtin_font".toList, layout := .grouped
        language := .rust, letterCase := .upper, wrap := none }
    let request : BlobRequest := ⟨Utf8.encode "--help".toList, .file (Utf8.encode "-".toList), format⟩
    request.Expressible ∧ request.arguments = [
      "blob", "--rows-per-glyph=255", "--expected-size=0", "--symbol=builtin_font", "--layout=grouped",
      "--syntax=rust", "--hex-case=upper", "--no-wrap", "--", "--help", "-"].map (Utf8.encode ·.toList) ∧
      CommandLine.read [] request.arguments = .ok ⟨.info, .blob request⟩ := by
  intro format request
  have expressible : request.Expressible := {
    input := by decide
    output := by decide
    format := ⟨by decide, by decide, by decide, by rintro count ⟨⟩⟩ }
  exact ⟨expressible, by decide, spelled_out_request_is_read [] request expressible⟩

end CommandLine
end Bitfont
