import Bitfont.Strike.Build
import Bitfont.Literal

namespace Bitfont.Typeface

structure Format where
  codes : CodeRange
  cell : Cell
  symbol : Text
  -- `none` takes the narrowest element that holds a row.
  element : Option Literal.Element
  language : Literal.Language
  letterCase : Literal.LetterCase
  wrap : Option Nat
deriving DecidableEq, Repr

inductive Failure (ε : Type) where
  | build (error : CodeFailure ε)
  | noElement (rowWidth : Nat)
  | literal (fault : Literal.Fault)
deriving DecidableEq, Repr

def Failure.chain {ε : Type} (describe : ε → String) : Failure ε → List String
  | .build error => [error.message describe, error.cause describe]
  | .noElement rowWidth => [s!"no element type holds {rowWidth} pixel rows"]
  | .literal fault => ["error serializing glyph table", fault.message]

namespace Format

def chosenElement (format : Format) : Option Literal.Element :=
  format.element.or (Literal.Element.narrowest format.cell.width)

def literalStyle (format : Format) (element : Literal.Element) (origin : Option Text) :
    Literal.Style :=
  { Literal.Style.grouped format.symbol with
    language := format.language
    element := element
    letterCase := format.letterCase
    wrap := format.wrap
    origin := origin }

def write {ε : Type} (format : Format) (origin : Option Text) (strike : Strike) :
    Except (Failure ε) Text :=
  match format.chosenElement with
  | none => .error (.noElement format.cell.width)
  | some element =>
      (Literal.text strike.rowSequence (format.literalStyle element origin)).mapError .literal

def rasterizedEntry (format : Format) (strike : Strike) : Log.Entry :=
  ⟨.info, s!"rasterized {strike.size} glyphs of {format.cell.text} for codes {format.codes.text}"⟩

end Format

structure Outcome (σ ε : Type) where
  result : Except (Failure ε) Text
  state : σ
  log : List Log.Entry

def convert {σ ε : Type} (render : Renderer σ ε) (format : Format) (origin : Option Text)
    (state : σ) : Outcome σ ε :=
  let built := Strike.build render format.codes format.cell state
  match built.result with
  | .error error => ⟨.error (.build error), built.state, built.log⟩
  | .ok strike =>
      ⟨format.write origin strike, built.state, built.log ++ [format.rasterizedEntry strike]⟩

end Bitfont.Typeface
