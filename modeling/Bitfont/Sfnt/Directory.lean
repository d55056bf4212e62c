import Bitfont.Sfnt.Words

namespace Bitfont.Sfnt

inductive LoadError where
  | unknownMagic
  | truncated
  | noFace
  | malformedHead
  | malformedHhea
  | malformedMaxp
  | glyphOutOfBounds
deriving DecidableEq, Repr

def LoadError.message : LoadError → String
  | .unknownMagic =>
      "Face data must start with 0x00010000, 0x74727565, 0x4F54544F or 0x74746366."
  | .truncated => "An attempt to read out of bounds detected."
  | .noFace => "The face index is larger than the number of faces in the font."
  | .malformedHead => "The head table is missing or malformed."
  | .malformedHhea => "The hhea table is missing or malformed."
  | .malformedMaxp => "The maxp table is missing or malformed."
  | .glyphOutOfBounds => "Attempted to map a codepoint out of bounds."

def collectionMagic : Nat := 0x74746366

def fontMagics : List Nat := [0x00010000, 0x74727565, 0x4F54544F]

def tag (letters : String) : Nat := letters.toList.foldl (fun value c => value * 0x100 + c.toNat) 0

structure TableRecord where
  tag : Nat
  offset : Nat
  length : Nat
deriving DecidableEq, Repr

def firstFace (data : Array UInt8) : Except LoadError Nat :=
  match word32? data 8 with
  | none => .error .truncated
  | some faces =>
      if data.size < 12 + 4 * faces then .error .truncated
      else if faces = 0 then .error .noFace
      else
        match word32? data 12 with
        | none => .error .truncated
        | some offset =>
            if offset < 12 + 4 * faces ∨ data.size < offset then .error .truncated else .ok offset

def faceStart (data : Array UInt8) : Except LoadError Nat := do
  match word32? data 0 with
  | none => .error .unknownMagic
  | some magic =>
      if magic = collectionMagic then
        let start ← firstFace data
        match word32? data start with
        | none => .error .unknownMagic
        | some magic => if magic ∈ fontMagics then .ok start else .error .unknownMagic
      else if magic ∈ fontMagics then .ok 0
      else .error .unknownMagic

def record? (data : Array UInt8) (position : Nat) : Option TableRecord := do
  return ⟨← word32? data position, ← word32? data (position + 8), ← word32? data (position + 12)⟩

def directory (data : Array UInt8) : Except LoadError (List TableRecord) := do
  let start ← faceStart data
  let records := do
    let count ← word16? data (start + 4)
    if data.size < start + 12 then none
    (List.range count).mapM fun i => record? data (start + 12 + 16 * i)
  match records with
  | none => .error .truncated
  | some records => .ok records

-- The contents of a table. Of several records the last one counts; a record that reaches past the
-- end of the file names no table.
def table? (data : Array UInt8) (records : List TableRecord) (name : String) :
    Option (Array UInt8) :=
  match records.reverse.find? fun record => record.tag = tag name with
  | none => none
  | some record => part? data record.offset record.length

end Bitfont.Sfnt
