import Bitfont.Header.Declaration
import Bitfont.Path

namespace Bitfont.Header

def guardChar (c : Char) : Char :=
  if Text.isAsciiLetter c || Text.isAsciiDigit c || c = '_' then c.toUpper else '_'

def startsGuard (c : Char) : Bool := Text.isAsciiLetter c || c = '_'

def guardOfName (name : Text) : Text :=
  let guard := name.map guardChar
  match guard with
  | [] => "H_".toList
  | c :: _ => if startsGuard c then guard else "H_".toList ++ guard

def guardFor (path : Octets) : Text :=
  guardOfName (Path.text ((Path.fileName? path).getD path))

def text (guard : Text) (declarations : List Text) : Text :=
  "#ifndef ".toList ++ guard ++ "\n#define ".toList ++ guard ++ "\n\n".toList ++
    declarations.flatMap (· ++ ['\n']) ++ "\n#endif // ".toList ++ guard ++ ['\n']

end Bitfont.Header
