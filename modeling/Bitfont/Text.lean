namespace Bitfont

abbrev Text := List Char

-- Bytes that need not decode: arguments, paths, environment values.
abbrev Octets := List UInt8

namespace Text

-- The property White_Space of the Unicode character database.
def isBlank (c : Char) : Bool :=
  let n := c.toNat
  (9 ≤ n && n ≤ 13) || n == 0x20 || n == 0x85 || n == 0xA0 || n == 0x1680 ||
    (0x2000 ≤ n && n ≤ 0x200A) || n == 0x2028 || n == 0x2029 || n == 0x202F || n == 0x205F ||
    n == 0x3000

def trimStart (text : Text) : Text := text.dropWhile isBlank
def trimEnd (text : Text) : Text := (text.reverse.dropWhile isBlank).reverse
def trim (text : Text) : Text := trimEnd (trimStart text)

def dropReturn (line : Text) : Text :=
  if line.getLast? = some '\r' then line.dropLast else line

def lines (text : Text) : List Text :=
  let parts := text.splitOn '\n'
  parts.dropLast.map dropReturn ++ (parts.getLast?.filter (!·.isEmpty)).toList

def indentContinuation (text : Text) : Text :=
  text.flatMap fun c => if c = '\n' then "\n    ".toList else [c]

def isAsciiUpper (c : Char) : Bool := 'A' ≤ c && c ≤ 'Z'
def isAsciiLower (c : Char) : Bool := 'a' ≤ c && c ≤ 'z'
def isAsciiDigit (c : Char) : Bool := '0' ≤ c && c ≤ '9'
def isAsciiLetter (c : Char) : Bool := isAsciiUpper c || isAsciiLower c

def upperAscii (text : Text) : Text := text.map Char.toUpper

end Text
end Bitfont
