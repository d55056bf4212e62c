import Bitfont.Session
import Bitfont.Sfnt.Library

namespace Bitfont.Program

def usage : String :=
  "Converts fonts and C sources into embeddable source artifacts\n\n" ++
  "Usage: bitfont [-v]... <COMMAND>\n\n" ++
  "Commands:\n" ++
  "  rasterize  Rasterizes a TrueType font into a packed glyph table literal\n" ++
  "  blob       Converts a raw packed font blob into an array literal\n" ++
  "  header     Generates a header from the single-line function declarations of a C file\n" ++
  "  help       Prints this message\n"

def usageError : CommandLine.Error → String
  | .unknownArgument argument => s!"unexpected argument '{String.ofList argument}' found"
  | .unknownSubcommand => "unrecognized subcommand"
  | .missingSubcommand => "a subcommand is required but one was not provided"
  | .invalidValue argument [] => s!"a value is required for '{argument}' but none was supplied"
  | .invalidValue argument value => s!"invalid value '{String.ofList value}' for '{argument}'"
  | .rejectedValue argument value message =>
      s!"invalid value '{String.ofList value}' for '{argument}': {message}"
  | .invalidUtf8 => "invalid UTF-8 was detected in one or more arguments"
  | .unexpectedValue argument value =>
      s!"unexpected value '{String.ofList value}' for '{argument}' found; no more were expected"
  | .conflict argument => s!"the argument '{argument}' cannot be used here"
  | .missingArguments arguments =>
      "the following required arguments were not provided: " ++ " ".intercalate arguments
  | .helpRequested | .noArguments => ""

def fileError : IO.Error → FileError
  | .noFileOrDirectory .. => .notFound
  | .resourceExhausted _ code details | .inappropriateType _ code details
  | .permissionDenied _ code details | .alreadyExists _ code details =>
      .system s!"{details} (os error {code})"
  | error => .system (toString error)

def pathString (path : Octets) : String := String.ofList (Path.text path)

def attempt {α : Type} (operation : IO α) : IO (Except FileError α) := do
  match ← operation.toBaseIO with
  | .ok value => return .ok value
  | .error error => return .error (fileError error)

def deliver (delivery : Delivery) : IO (Except Failure Unit) := do
  match delivery.output with
  | .standardOutput =>
      let printed ← attempt do
        let out ← IO.getStdout
        out.putStr (String.ofList delivery.text)
        out.flush
      return printed.mapError .printing
  | .file path =>
      let written ← attempt (IO.FS.writeFile (pathString path) (String.ofList delivery.text))
      return written.mapError (.writing path)

def report (text : Text) : IO Unit := do (← IO.getStderr).putStr (String.ofList text)

def fail (failure : Failure) : IO UInt32 := do
  unless failure.isCrash do report (Session.failureText failure.chain)
  return UInt32.ofNat failure.exitCode

def perform (threshold : Log.Threshold) (request : Request) : IO UInt32 := do
  let log (entries : List Log.Entry) : IO Unit := report (Session.logText threshold entries)
  match ← attempt (IO.FS.readBinFile (pathString request.input)) with
  | .error error => fail (.reading request.input (.file error))
  | .ok content =>
      let conversion := request.convert Sfnt.library content.data
      log conversion.log
      match conversion.result with
      | .error failure => fail failure
      | .ok delivery =>
          match ← deliver delivery with
          | .error failure => fail failure
          | .ok () =>
              log delivery.log
              return 0

def variableNames : List String := ["FONT_CONVERTER_FONT", "FONT_CONVERTER_SIZE", "RUST_LOG"]

def environment : IO CommandLine.Environment := do
  let entries ← variableNames.mapM fun name => do
    return (← IO.getEnv name).map fun value => (name.toList, Utf8.encode value.toList)
  return entries.filterMap id

def run (arguments : List String) : IO UInt32 := do
  let environment ← environment
  let octets := arguments.map fun argument => Utf8.encode argument.toList
  match CommandLine.read environment octets with
  | .error .helpRequested =>
      (← IO.getStdout).putStr usage
      return 0
  | .error error =>
      report s!"error: {usageError error}\n\n{usage}".toList
      return 2
  | .ok invocation =>
      perform (Session.threshold environment invocation.level) invocation.request

end Bitfont.Program

def main (arguments : List String) : IO UInt32 := Bitfont.Program.run arguments
