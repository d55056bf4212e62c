import Bitfont.Binary32.Decimal
import Bitfont.FontLibrary
import Bitfont.Bitmap
import Bitfont.Strike.Build
import Bitfont.Text.Quoted

namespace Bitfont

inductive GlyphFault where
  | notCharacter (code : Nat)
  | noGlyph (c : Char)
deriving DecidableEq, Repr

def GlyphFault.message : GlyphFault → String
  | .notCharacter code =>
      s!"0x{String.ofList (Numeral.hexadecimal .lower 1 code)} is not a unicode scalar value"
  | .noGlyph c => s!"font has no glyph for {Quoted.character c}"

inductive RenderStop where
  | fault (cause : GlyphFault)
  -- Not an error of the renderer: an integer that overflows ends the program.
  | overflow
deriving DecidableEq, Repr

def RenderStop.message : RenderStop → String
  | .fault cause => cause.message
  | .overflow => "integer overflow"

structure SizedFont (library : FontLibrary) where
  font : library.Font
  size : Binary32
  baseline : Int32

namespace SizedFont

def smallestSize : Nat := 1
def largestSize : Nat := 512

def isRenderableSize (size : Binary32) : Bool :=
  match size.value? with
  | none => false
  | some value => (smallestSize : Rat) ≤ value && value ≤ (largestSize : Rat)

inductive Fault where
  | invalidSize (size : Binary32)
  | invalidFont (error : String)
deriving DecidableEq, Repr

def Fault.message : Fault → String
  | .invalidSize size =>
      s!"invalid size {size.text}px: expected a size between {smallestSize}px and {largestSize}px"
  | .invalidFont error => s!"invalid font: {error}"

def roundAway (value : Rat) : Int :=
  if value < 0 then -(1 / 2 - value).floor else (value + 1 / 2).floor

def wholeNumber (number : Binary32) : Int32 :=
  match number with
  | .nan => 0
  | .infinite negative => if negative then Int32.minValue else Int32.maxValue
  | .finite _ _ _ => Int32.ofIntClamp (roundAway (number.value?.getD 0))

variable {library : FontLibrary}

def ascent (font : library.Font) (size : Binary32) : Binary32 :=
  (library.ascent? font size).getD size

def load (library : FontLibrary) (data : Array UInt8) (size : Binary32) :
    Except Fault (SizedFont library) :=
  if !isRenderableSize size then .error (.invalidSize size)
  else
    match library.parse data size with
    | .error error => .error (.invalidFont error)
    | .ok font => .ok ⟨font, size, wholeNumber (ascent font size)⟩

def loadedEntry (sized : SizedFont library) : Log.Entry :=
  let ascent := ascent sized.font sized.size
  ⟨.debug, s!"rendering at {sized.size.text}px with an ascent of {ascent.text}px"⟩

def bitmap? (sized : SizedFont library) (index : UInt16) : Option Bitmap := do
  let (metrics, coverage) := library.rasterize sized.font index sized.size
  let height := Int32.ofIntClamp metrics.height.toNat
  let top ← Place.minus? sized.baseline (Place.saturatingPlus metrics.ymin height)
  return { coverage, width := metrics.width, height := metrics.height, left := metrics.xmin, top }

def isControl (c : Char) : Bool := c.toNat < 0x20 || (0x7F ≤ c.toNat && c.toNat < 0xA0)

def scalar? (code : Nat) : Option Char := if code.isValidChar then some (Char.ofNat code) else none

def blankEntry (c : Char) : Log.Entry :=
  ⟨.debug, s!"no glyph for control character {Quoted.character c}, leaving its cell empty"⟩

def missingGlyph (c : Char) (cell : Cell) : Rendering Unit RenderStop :=
  if isControl c then { result := .ok (.blank cell), state := (), log := [blankEntry c] }
  else { result := .error (.fault (.noGlyph c)), state := () }

def render (sized : SizedFont library) : Renderer Unit RenderStop := fun code cell _ =>
  match scalar? code with
  | none => { result := .error (.fault (.notCharacter code)), state := () }
  | some c =>
      let index := library.glyphIndex sized.font c
      if index = 0 then missingGlyph c cell
      else
        match (sized.bitmap? index).bind (·.draw? cell) with
        | none => { result := .error .overflow, state := () }
        | some image => { result := .ok image, state := () }

end SizedFont
end Bitfont
