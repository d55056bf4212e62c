import Bitfont.CommandLine.Arguments
import Bitfont.CommandLine.Request

namespace Bitfont.CommandLine

def defaultSymbol (name : String) : Literal.Language → Text
  | .c => name.toList
  | .rust => Text.upperAscii name.toList

structure BlobDraft where
  input : Option Octets := none
  output : Option Octets := none
  glyphHeight : Option Nat := none
  nominalSize : Option Nat := none
  symbol : Option Text := none
  layout : Option Literal.Layout := none
  language : Option Literal.Language := none
  letterCase : Option Literal.LetterCase := none
  wrap : Option Nat := none
  noWrap : Bool := false
deriving DecidableEq, Repr

namespace BlobDraft

def options : List (OptionSpec BlobDraft) := [
  { long := "rows-per-glyph"
    effect := .value <| (ValueReader.integer 1 255).into fun rows draft =>
      { draft with glyphHeight := some rows } },
  { long := "expected-size"
    effect := .value <| ValueReader.count.into fun size draft =>
      { draft with nominalSize := some size } },
  { long := "symbol"
    effect := .value <| ValueReader.text.into fun symbol draft =>
      { draft with symbol := some symbol } },
  { long := "layout"
    effect := .value <| ValueReader.layout.into fun layout draft =>
      { draft with layout := some layout } },
  { long := "syntax"
    effect := .value <| ValueReader.language.into fun language draft =>
      { draft with language := some language } },
  { long := "hex-case"
    effect := .value <| ValueReader.letterCase.into fun letterCase draft =>
      { draft with letterCase := some letterCase } },
  { long := "wrap"
    effect := .value <| ValueReader.positiveCount.into fun wrap draft =>
      { draft with wrap := some wrap } },
  { long := "no-wrap"
    effect := .flag fun draft => { draft with noWrap := true } }]

def positionals : List (Positional BlobDraft) := [
  { label := "<input>"
    store := ValueReader.path.into fun input draft => { draft with input := some input } },
  { label := "[output]"
    store := ValueReader.path.into fun output draft => { draft with output := some output } }]

def command : Command BlobDraft := ⟨options ++ commonOptions, positionals⟩

-- Of two options that exclude each other, the one given first is reported.
def conflict (draft : BlobDraft) (given : List String) : Option Error :=
  if draft.wrap.isSome && draft.noWrap then
    match given.find? fun name => name = "wrap" || name = "no-wrap" with
    | some "wrap" => some (.conflict "--wrap <wrap>")
    | _ => some (.conflict "--no-wrap")
  else none

def format (draft : BlobDraft) : Blob.Format :=
  let language := draft.language.getD .c
  { glyphHeight := draft.glyphHeight.getD 16
    nominalSize := draft.nominalSize.getD 4096
    symbol := draft.symbol.getD (defaultSymbol "builtin_font" language)
    layout := draft.layout.getD .flat
    language
    letterCase := draft.letterCase.getD .lower
    wrap := if draft.noWrap then none else some (draft.wrap.getD 12) }

def finish (draft : BlobDraft) (given : List String) : Except Error BlobRequest :=
  match draft.conflict given, draft.input with
  | some error, _ => .error error
  | none, none => .error (.missingArguments ["<input>"])
  | none, some input => .ok ⟨input, .ofPath draft.output, draft.format⟩

end BlobDraft
end Bitfont.CommandLine
