import Bitfont.Literal
import Bitfont.Log

namespace Bitfont.Blob

structure SizeMismatch where
  actual : Nat
  expected : Nat
deriving DecidableEq, Repr

def SizeMismatch.message (mismatch : SizeMismatch) : String :=
  s!"blob size is {mismatch.actual} bytes, expected {mismatch.expected} bytes"

def checkSize (actual expected : Nat) : Option SizeMismatch :=
  if actual = expected then none else some ⟨actual, expected⟩

def glyphWidth : Nat := 8

structure Format where
  glyphHeight : Nat
  nominalSize : Nat
  symbol : Text
  layout : Literal.Layout
  language : Literal.Language
  letterCase : Literal.LetterCase
  wrap : Option Nat
deriving DecidableEq, Repr

namespace Format

def literalStyle (format : Format) (origin : Option Text) : Literal.Style :=
  { Literal.Style.flat format.symbol with
    language := format.language
    layout := format.layout
    letterCase := format.letterCase
    wrap := format.wrap
    origin := origin }

def glyphs (format : Format) (blob : Array UInt8) : PackedGlyphs :=
  ⟨⟨glyphWidth, format.glyphHeight⟩, blob⟩

end Format

structure Converted where
  text : Text
  glyphCount : Nat
  leftoverRows : Nat
  warning : Option SizeMismatch
deriving DecidableEq

def convert (format : Format) (origin : Option Text) (blob : Array UInt8) :
    Except Literal.Fault Converted := do
  let glyphs := format.glyphs blob
  let text ← Literal.text glyphs.rowSequence (format.literalStyle origin)
  return {
    text := text
    glyphCount := glyphs.glyphCount
    leftoverRows := glyphs.leftoverRows
    warning := checkSize blob.size format.nominalSize }

def log (format : Format) (blob : Array UInt8) : List Log.Entry :=
  let glyphs := format.glyphs blob
  let warnings := (checkSize blob.size format.nominalSize).toList.map fun mismatch =>
    ⟨.warn, s!"{mismatch.message}; the generated array should be re-validated"⟩
  let summary := s!"{glyphs.glyphCount} glyphs of {format.glyphHeight} rows with " ++
    s!"{glyphs.leftoverRows} trailing rows"
  warnings ++ [⟨.debug, summary⟩]

end Bitfont.Blob
