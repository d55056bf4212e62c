import Bitfont.CommandLine.Value

namespace Bitfont.CommandLine

inductive Error where
  | unknownArgument (argument : Text)
  | unknownSubcommand
  | missingSubcommand
  | invalidValue (argument : String) (value : Text)
  | rejectedValue (argument : String) (value : Text) (message : String)
  | invalidUtf8
  | unexpectedValue (argument : String) (value : Text)
  | conflict (argument : String)
  | missingArguments (arguments : List String)
  | helpRequested
  | noArguments
deriving DecidableEq, Repr

def Error.ofValue (argument : String) (value : Octets) : ValueFault → Error
  | .notAllowed => .invalidValue argument (Utf8.decodeLossy value)
  | .notUtf8 => .invalidUtf8
  | .rejected message => .rejectedValue argument (Utf8.decodeLossy value) message

def readFor {α : Type} (argument : String) (reader : ValueReader α) (value : Octets) :
    Except Error α :=
  (reader value).mapError (Error.ofValue argument value)

end Bitfont.CommandLine
