import Bitfont.Sfnt.CharacterMap
import Bitfont.Sfnt.Directory
import Bitfont.Sfnt.Outline

namespace Bitfont.Sfnt

inductive LocationFormat where
  | short
  | long
deriving DecidableEq, Repr

structure Font where
  unitsPerEm : Nat
  ascender : Int
  glyphCount : Nat
  characterMap : CharacterMap
  locationFormat : LocationFormat
  locations : Array UInt8
  outlines : Array UInt8

namespace Font

def parseHead? (data : Array UInt8) : Option (Nat × LocationFormat) := do
  if data.size < 54 then none
  let unitsPerEm ← word16? data 18
  if unitsPerEm < 16 ∨ 16384 < unitsPerEm then none
  match ← word16? data 50 with
  | 0 => return (unitsPerEm, .short)
  | 1 => return (unitsPerEm, .long)
  | _ => none

def parseHhea? (data : Array UInt8) : Option Int := do
  if data.size < 36 then none
  return signed16 (← word16? data 4)

def parseMaxp? (data : Array UInt8) : Option Nat := do
  let version ← word32? data 0
  if version ≠ 0x00005000 ∧ version ≠ 0x00010000 then none
  let count ← word16? data 4
  if count = 0 then none else some count

-- The tables are checked in the order of their failures. Without a character map nothing is mapped;
-- without outlines every glyph is empty.
def parse (data : Array UInt8) : Except LoadError Font := do
  let records ← directory data
  let table := table? data records
  let some (unitsPerEm, locationFormat) := (table "head").bind parseHead? | .error .malformedHead
  let some ascender := (table "hhea").bind parseHhea? | .error .malformedHhea
  let some glyphCount := (table "maxp").bind parseMaxp? | .error .malformedMaxp
  let characterMap := ((table "cmap").map CharacterMap.parse).getD []
  if !characterMap.inBounds glyphCount then .error .glyphOutOfBounds
  else
    return {
      unitsPerEm, ascender, glyphCount, characterMap, locationFormat
      locations := (table "loca").getD #[]
      outlines := (table "glyf").getD #[] }

def maxLocationCount : Nat := 0xFFFF

-- How many locations count: no more than there are glyphs, with one more for the end of the last. A
-- table with too many is not read at all.
def locationCount (font : Font) : Nat :=
  let stored :=
    match font.locationFormat with
    | .short => font.locations.size / 2
    | .long => font.locations.size / 4
  if maxLocationCount < stored then 0
  else min stored (min (font.glyphCount + 1) maxLocationCount)

def location? (font : Font) (index : Nat) : Option Nat :=
  if font.locationCount ≤ index then none
  else
    match font.locationFormat with
    | .short => (word16? font.locations (2 * index)).map (2 * ·)
    | .long => word32? font.locations (4 * index)

def contours (font : Font) (index : Nat) : List Contour :=
  let found := do
    let start ← font.location? index
    let stop ← font.location? (index + 1)
    if stop ≤ start then none
    outline? (← part? font.outlines start (stop - start))
  found.getD []

def glyph? (font : Font) (code : Nat) : Option Nat := font.characterMap.glyph? code

end Font
end Bitfont.Sfnt
