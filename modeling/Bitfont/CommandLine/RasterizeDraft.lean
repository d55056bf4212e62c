import Bitfont.CommandLine.BlobDraft

namespace Bitfont.CommandLine

abbrev Environment := List (Text × Octets)

def Environment.get? (environment : Environment) (name : String) : Option Octets :=
  environment.lookup name.toList

structure RasterizeDraft where
  font : Option Octets := none
  size : Option Binary32 := none
  first : Option Nat := none
  last : Option Nat := none
  width : Option Nat := none
  height : Option Nat := none
  symbol : Option Text := none
  element : Option Literal.Element := none
  language : Option Literal.Language := none
  letterCase : Option Literal.LetterCase := none
  wrap : Option Nat := none
  output : Option Octets := none
deriving DecidableEq, Repr

namespace RasterizeDraft

def storeFont : ValueReader (RasterizeDraft → RasterizeDraft) :=
  ValueReader.path.into fun font draft => { draft with font := some font }

def storeSize : ValueReader (RasterizeDraft → RasterizeDraft) :=
  ValueReader.size.into fun size draft => { draft with size := some size }

def options : List (OptionSpec RasterizeDraft) := [
  { long := "font", effect := .value storeFont },
  { long := "size", effect := .value storeSize },
  { long := "first"
    effect := .value <| (ValueReader.integer 0 maxCode).into fun first draft =>
      { draft with first := some first } },
  { long := "last"
    effect := .value <| (ValueReader.integer 0 maxCode).into fun last draft =>
      { draft with last := some last } },
  { long := "width"
    effect := .value <| (ValueReader.integer 1 maxRowWidth).into fun width draft =>
      { draft with width := some width } },
  { long := "height"
    effect := .value <| (ValueReader.integer 1 255).into fun height draft =>
      { draft with height := some height } },
  { long := "symbol"
    effect := .value <| ValueReader.text.into fun symbol draft =>
      { draft with symbol := some symbol } },
  { long := "element"
    effect := .value <| ValueReader.element.into fun element draft =>
      { draft with element := some element } },
  { long := "syntax"
    effect := .value <| ValueReader.language.into fun language draft =>
      { draft with language := some language } },
  { long := "hex-case"
    effect := .value <| ValueReader.letterCase.into fun letterCase draft =>
      { draft with letterCase := some letterCase } },
  { long := "wrap"
    effect := .value <| ValueReader.positiveCount.into fun wrap draft =>
      { draft with wrap := some wrap } },
  { long := "output"
    short := some 'o'
    effect := .value <| ValueReader.path.into fun output draft =>
      { draft with output := some output } }]

def command : Command RasterizeDraft := ⟨options ++ commonOptions, []⟩

def fromVariable (environment : Environment) (variableName : String) (isGiven : Bool)
    (label : String) (store : ValueReader (RasterizeDraft → RasterizeDraft))
    (draft : RasterizeDraft) : Except Error RasterizeDraft :=
  match environment.get? variableName with
  | none => .ok draft
  | some value =>
      if isGiven then .ok draft
      else do
        let change ← readFor label store value
        return change draft

def withEnvironment (environment : Environment) (draft : RasterizeDraft) :
    Except Error RasterizeDraft := do
  let draft ← draft.fromVariable environment "FONT_CONVERTER_FONT" draft.font.isSome
    "--font <font>" storeFont
  draft.fromVariable environment "FONT_CONVERTER_SIZE" draft.size.isSome
    "--size <size>" storeSize

def format (draft : RasterizeDraft) : Typeface.Format :=
  let language := draft.language.getD .c
  { codes := ⟨draft.first.getD 32, draft.last.getD 128⟩
    cell := ⟨draft.width.getD 8, draft.height.getD 16⟩
    symbol := draft.symbol.getD (defaultSymbol "g_8x16_font" language)
    element := draft.element
    language
    letterCase := draft.letterCase.getD .upper
    wrap := draft.wrap }

def defaultSize : Binary32 := Binary32.ofRat 16

def finish (environment : Environment) (draft : RasterizeDraft) :
    Except Error RasterizeRequest := do
  let draft ← draft.withEnvironment environment
  match draft.font with
  | none => .error (.missingArguments ["--font <font>"])
  | some font =>
      return {
        font
        size := draft.size.getD defaultSize
        format := draft.format
        output := .ofPath draft.output }

end RasterizeDraft
end Bitfont.CommandLine
