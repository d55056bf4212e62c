import Bitfont.Header.Pattern

-- Not a parser for C: a declaration that spans lines, or whose type has two words or a star, is not found.

namespace Bitfont.Declaration

def startsIdentifier (c : Char) : Bool := Text.isAsciiLetter c || c = '_'
def continuesIdentifier (c : Char) : Bool := startsIdentifier c || Text.isAsciiDigit c

def identifier : Pattern := .one startsIdentifier ++ .many continuesIdentifier
def blanks : Pattern := .many Text.isBlank
def sign (c : Char) : Pattern := .one (· = c)

def parameterList : Pattern := sign '(' ++ .many (· ≠ ')') ++ sign ')' ++ blanks ++ sign ';'

-- What is looked for. The scanner below reads it from left to right, without a second try.
def pattern : Pattern :=
  blanks ++ .group (identifier ++ .one Text.isBlank ++ blanks ++ identifier ++ blanks ++ parameterList) ++ blanks

def identifier? : Text → Option (Text × Text)
  | [] => none
  | c :: rest =>
      if startsIdentifier c then
        some (c :: rest.takeWhile continuesIdentifier, rest.dropWhile continuesIdentifier)
      else none

def parameters? : Text → Option Text
  | '(' :: rest =>
      match rest.dropWhile (· ≠ ')') with
      | ')' :: afterList =>
          match afterList.dropWhile Text.isBlank with
          | ';' :: _ =>
              some ('(' :: rest.takeWhile (· ≠ ')') ++
                ')' :: afterList.takeWhile Text.isBlank ++ [';'])
          | _ => none
      | _ => none
  | _ => none

def atStart? (line : Text) : Option Text := do
  let (type, afterType) ← identifier? line
  let gap := afterType.takeWhile Text.isBlank
  if gap.isEmpty then none
  let (name, afterName) ← identifier? (afterType.dropWhile Text.isBlank)
  let call ← parameters? (afterName.dropWhile Text.isBlank)
  return type ++ gap ++ name ++ afterName.takeWhile Text.isBlank ++ call

def ofSource (source : Text) : List Text :=
  (Text.lines source).filterMap fun line => atStart? (Text.trim line)

end Bitfont.Declaration
