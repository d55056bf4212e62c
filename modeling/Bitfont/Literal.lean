import Bitfont.Strike
import Bitfont.Literal.Style
import Bitfont.Literal.Writer

namespace Bitfont

-- Packed rows, grouped into glyphs. A row that `row?` does not give counts as zero.
structure RowSequence where
  rowWidth : Nat
  glyphHeight : Nat
  rowCount : Nat
  row? : Nat → Option Nat

def RowSequence.row (source : RowSequence) (index : Nat) : Nat := (source.row? index).getD 0

def PackedGlyphs.rowSequence (glyphs : PackedGlyphs) : RowSequence where
  rowWidth := glyphs.cell.width
  glyphHeight := glyphs.cell.height
  rowCount := glyphs.rowCount
  row? := glyphs.row?

def Strike.rowSequence (strike : Strike) : RowSequence := strike.glyphs.rowSequence

namespace Literal

def groupSize (source : RowSequence) : Nat := max source.glyphHeight 1

def groupCount (source : RowSequence) : Nat :=
  (source.rowCount + groupSize source - 1) / groupSize source

-- How many values the group that starts at row `start` is written with. C fills up a short last
-- group with zeros by itself; Rust wants every element written.
def writtenRows (source : RowSequence) (start : Nat) : Language → Nat
  | .c => min (groupSize source) (source.rowCount - start)
  | .rust => groupSize source

def rustType (element : Text) (dimensions : List Nat) : Text :=
  dimensions.foldr (fun size inner => '[' :: inner ++ "; ".toList ++ Numeral.decimal size ++ [']'])
    element

def value (style : Style) (row : Nat) : Text :=
  "0x".toList ++ Numeral.hexadecimal style.letterCase style.element.hexDigits row

section Writing

variable {σ : Type} (put : Writer σ)

def writeInclude (style : Style) : Writing σ Unit :=
  if style.language = .c ∧ style.stdint then emit put "#include <stdint.h>\n".toList
  else return

def writeRemark (style : Style) : Writing σ Unit :=
  match style.origin with
  | some name => emit put ("// generated from ".toList ++ name ++ ['\n'])
  | none => return

def writeDeclaration (style : Style) (dimensions : List Nat) : Writing σ Unit :=
  let element := (style.element.spelling style.stdint style.language).toList
  match style.language with
  | .c => do
      let qualifiers := if style.constant then "static const " else "static "
      emit put (qualifiers.toList ++ element ++ ' ' :: style.symbol)
      dimensions.forM fun size => emit put ('[' :: Numeral.decimal size ++ [']'])
      emit put " = \x7b\n".toList
  | .rust =>
      let keyword := if style.constant then "const " else "static "
      emit put (keyword.toList ++ style.symbol ++ ": ".toList ++ rustType element dimensions ++
        " = [\n".toList)

def writeSeparator (wrap : Option Nat) (continuation : Text) (index : Nat) : Writing σ Unit :=
  if index = 0 then return
  else if wrap.any (index % · = 0) then emit put (",\n".toList ++ continuation)
  else emit put ", ".toList

def writeValues (source : RowSequence) (style : Style) (continuation : Text) (start count : Nat) :
    Writing σ Unit :=
  let writeValue (index : Nat) : Writing σ Unit := do
    writeSeparator put style.wrap continuation index
    emit put (value style (source.row (start + index)))
  writeEach writeValue count 0

def writeClosing (language : Language) : Writing σ Unit :=
  match language with
  | .c => emit put "\x7d;\n".toList
  | .rust => emit put "];\n".toList

def indentation : Text := "    ".toList

def writeFlat (source : RowSequence) (style : Style) : Writing σ Unit := do
  writeDeclaration put style [source.rowCount]
  emit put indentation
  writeValues put source style indentation 0 source.rowCount
  emit put ['\n']
  writeClosing put style.language

def opening : Language → Text
  | .c => "\x7b ".toList
  | .rust => ['[']

def ending : Language → Text
  | .c => " \x7d".toList
  | .rust => [']']

def continuation : Language → Text
  | .c => "      ".toList
  | .rust => "     ".toList

def writeGroup (source : RowSequence) (style : Style) (group : Nat) : Writing σ Unit := do
  let start := group * groupSize source
  emit put (indentation ++ opening style.language)
  writeValues put source style (continuation style.language) start
    (writtenRows source start style.language)
  emit put (ending style.language ++ ",\n".toList)

def writeGrouped (source : RowSequence) (style : Style) : Writing σ Unit := do
  writeDeclaration put style [groupCount source, groupSize source]
  writeEach (writeGroup put source style) (groupCount source) 0
  writeClosing put style.language

def write (source : RowSequence) (style : Style) : Writing σ Unit :=
  if source.rowCount = 0 then throw .noRows
  else if style.element.bits < source.rowWidth then
    throw (.rowTooWide source.rowWidth style.element.bits)
  else do
    writeInclude put style
    writeRemark put style
    match style.layout with
    | .flat => writeFlat put source style
    | .grouped => writeGrouped put source style

end Writing

-- The first part is what became of the writer, whether or not the second is a failure.
def writeTo {σ : Type} (source : RowSequence) (style : Style) (put : Writer σ) (state : σ) :
    σ × Except Fault Unit :=
  (write put source style |>.run |>.run state).swap

def text (source : RowSequence) (style : Style) : Except Fault Text :=
  let written := writeTo source style Writer.appending #[]
  written.2.map fun () => written.1.toList

def writeLimited (room : Nat) (source : RowSequence) (style : Style) : Text × Except Fault Unit :=
  let written := writeTo source style Writer.limited ([], room)
  (written.1.1, written.2)

end Literal
end Bitfont
