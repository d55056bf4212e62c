import Bitfont.Sfnt.Words

-- Of the formats of subtables these are 4, of segments, and 12, of groups.

namespace Bitfont.Sfnt

structure Segment where
  first : Nat
  last : Nat
  delta : Nat
  rangeOffset : Nat
  -- Where the range offset itself stands, which is what it counts from.
  position : Nat
deriving DecidableEq, Repr

structure Group where
  first : Nat
  last : Nat
  glyph : Nat
deriving DecidableEq, Repr

inductive Subtable where
  | segments (data : Array UInt8) (list : Array Segment)
  | groups (list : Array Group)
deriving DecidableEq

namespace Segment

def contains (segment : Segment) (code : Nat) : Bool := segment.first ≤ code && code ≤ segment.last

def isEnd (segment : Segment) : Bool := segment.first = 0xFFFF && segment.last = 0xFFFF

-- Glyph identifiers add up modulo 2¹⁶. Through a range offset they must also stay below 2¹⁵.
def glyph? (data : Array UInt8) (segment : Segment) (code : Nat) : Option Nat :=
  if segment.rangeOffset = 0 then some ((code + segment.delta) % 0x10000)
  else if segment.rangeOffset = 0xFFFF ∨ 0x10000 ≤ 2 * (code - segment.first) then none
  else
    let position := segment.position + 2 * (code - segment.first) + segment.rangeOffset
    match word16? data (position % 0x10000) with
    | none | some 0 => none
    | some value =>
        let glyph := (value + segment.delta) % 0x10000
        if glyph < 0x8000 then some glyph else none

-- The segment that contains the code, between `low` and `high`, found by bisection. Segments are
-- sorted in a sound font; where they are not, one may be passed over.
def find? (segments : Array Segment) (code low high : Nat) : Option Segment :=
  if low < high then
    let middle := (low + high) / 2
    match segments[middle]? with
    | none => none
    | some segment =>
        if segment.last < code then find? segments code (middle + 1) high
        else if code < segment.first then find? segments code low middle
        else some segment
  else none
termination_by high - low
decreasing_by all_goals omega

end Segment

namespace Group

def contains (group : Group) (code : Nat) : Bool := group.first ≤ code && code ≤ group.last

def glyph? (group : Group) (code : Nat) : Option Nat :=
  let glyph := group.glyph + (code - group.first)
  if glyph < 0x10000 then some glyph else none

-- The index of the last group that starts at or before the code, among `size` groups from `base`
-- on, found by bisection; `base` if there is none.
def lastStarting (groups : Array Group) (code base size : Nat) : Nat :=
  if 1 < size then
    let middle := base + size / 2
    let starts := (groups[middle]?).any (·.first ≤ code)
    lastStarting groups code (if starts then middle else base) (size - size / 2)
  else base
termination_by size
decreasing_by omega

def find? (groups : Array Group) (code : Nat) : Option Group :=
  (groups[lastStarting groups code 0 groups.size]?).filter (·.contains code)

end Group

namespace Subtable

def parseSegments? (data : Array UInt8) : Option Subtable := do
  let count := (← word16? data 6) / 2
  if count = 0 then none
  let ends ← words16? data 14 count
  let starts ← words16? data (16 + 2 * count) count
  let deltas ← words16? data (16 + 4 * count) count
  let offsets ← words16? data (16 + 6 * count) count
  let segments := (List.range count).map fun i =>
    { first := starts.getD i 0
      last := ends.getD i 0
      delta := deltas.getD i 0
      rangeOffset := offsets.getD i 0
      position := 16 + 6 * count + 2 * i : Segment }
  return Subtable.segments data segments.toArray

def group? (data : Array UInt8) (position : Nat) : Option Group := do
  return ⟨← word32? data position, ← word32? data (position + 4), ← word32? data (position + 8)⟩

def parseGroups? (data : Array UInt8) : Option Subtable := do
  let count ← word32? data 12
  if data.size < 16 + 12 * count then none
  let groups ← (List.range count).mapM fun i => group? data (16 + 12 * i)
  return Subtable.groups groups.toArray

def parse? (data : Array UInt8) : Option Subtable := do
  match ← word16? data 0 with
  | 4 => parseSegments? data
  | 12 => parseGroups? data
  | _ => none

def lookup? (subtable : Subtable) (code : Nat) : Option Nat :=
  let glyph : Option Nat :=
    match subtable with
    | .segments data list =>
        match Segment.find? list code 0 list.size with
        | none => none
        | some segment => segment.glyph? data code
    | .groups list =>
        match Group.find? list code with
        | none => none
        | some group => group.glyph? code
  glyph.filter (· ≠ 0)

def mappedSegments (segments : Array Segment) : List Segment :=
  segments.toList.takeWhile (!·.isEnd)

def covers (subtable : Subtable) (code : Nat) : Bool :=
  match subtable with
  | .segments _ list => (mappedSegments list).any (·.contains code)
  | .groups list => list.any (·.contains code)

def glyph? (subtable : Subtable) (code : Nat) : Option Nat :=
  if code.isValidChar ∧ subtable.covers code then subtable.lookup? code else none

def codes : Subtable → List Nat
  | .segments _ list =>
      (mappedSegments list).flatMap fun segment =>
        List.range' segment.first (segment.last + 1 - segment.first)
  | .groups list =>
      list.toList.flatMap fun group =>
        List.range' group.first (min (group.last + 1 - group.first) 0x10000)

end Subtable

-- The subtables of a font, of which a later one overrides an earlier one.
abbrev CharacterMap := List Subtable

namespace CharacterMap

def subtable? (data : Array UInt8) (index : Nat) : Option Subtable := do
  let offset ← word32? data (4 + 8 * index + 4)
  if data.size < offset then none
  Subtable.parse? (data.extract offset data.size)

def parse (data : Array UInt8) : CharacterMap :=
  match word16? data 2 with
  | none => []
  | some count =>
      if data.size < 4 + 8 * count then []
      else ((List.range count).map (subtable? data)).takeWhile Option.isSome |>.filterMap id

def glyph? (map : CharacterMap) (code : Nat) : Option Nat := map.reverse.findSome? (·.glyph? code)

def inBounds (map : CharacterMap) (glyphCount : Nat) : Bool :=
  map.all fun subtable => (subtable.codes.filter fun code => code.isValidChar).all fun code =>
    (subtable.lookup? code).all (· < glyphCount)

end CharacterMap
end Bitfont.Sfnt
