import Bitfont.Text.Utf8

namespace Bitfont.Path

def slash : UInt8 := 0x2F
def dot : Octets := [0x2E]
def dotDot : Octets := [0x2E, 0x2E]

def steps (path : Octets) : List Octets := (path.splitOn slash).filter (· ≠ [])

def names (path : Octets) : List Octets := (steps path).filter (· ≠ dot)

def fileName? (path : Octets) : Option Octets := (names path).getLast?.filter (· ≠ dotDot)

def text (path : Octets) : Text := Utf8.decodeLossy path

def quoted (path : Octets) : String := "\"" ++ String.ofList (text path) ++ "\""

def origin (path : Octets) : Option Text := (fileName? path).map text

end Bitfont.Path
