import Bitfont.Text.Numeral
import Bitfont.Text.GraphemeExtend
import Bitfont.Text.Unprintable

namespace Bitfont.Quoted

-- The halfwidth sound marks of Katakana, which extend the character before them and yet take up a
-- place of their own.
def isHalfwidthMark (c : Char) : Bool := c = '\uFF9E' || c = '\uFF9F'

def isHidden (c : Char) : Bool :=
  Text.isUnprintable c || (Text.isGraphemeExtend c && !isHalfwidthMark c)

def escape (c : Char) : Text :=
  if c = '\x00' then "\\0".toList
  else if c = '\t' then "\\t".toList
  else if c = '\n' then "\\n".toList
  else if c = '\r' then "\\r".toList
  else if c = '\'' then "\\'".toList
  else if c = '\\' then "\\\\".toList
  else if isHidden c then
    "\\u\x7b".toList ++ Numeral.hexadecimal .lower 1 c.toNat ++ "\x7d".toList
  else [c]

def character (c : Char) : String := String.ofList ('\'' :: escape c ++ ['\''])

end Bitfont.Quoted
