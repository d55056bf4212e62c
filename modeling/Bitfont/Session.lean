import Bitfont.CommandLine.Invocation
import Bitfont.Conversion

namespace Bitfont

inductive Session where
  | help
  | usage (error : CommandLine.Error)
  | finished (exitCode : Nat) (standardOutput : Octets) (standardError : Text) (files : FileTree)

namespace Session

def failureText : List String → Text
  | [] => []
  | text :: causes =>
      let line (label : Text) (cause : String) : Text :=
        label ++ Text.indentContinuation cause.toList ++ ['\n']
      let explanation : Text :=
        match causes with
        | [] => []
        | [cause] => "\nCaused by:\n".toList ++ line "    ".toList cause
        | causes =>
            "\nCaused by:\n".toList ++ causes.zipIdx.flatMap fun (cause, index) =>
              line ("    ".toList ++ Numeral.decimal index ++ ": ".toList) cause
      "Error: ".toList ++ text.toList ++ '\n' :: explanation

def logText (threshold : Log.Threshold) (entries : List Log.Entry) : Text :=
  (Log.select threshold entries).flatMap fun entry => entry.lines ++ ['\n']

def thresholds : List (Text × Log.Threshold) :=
  [("off".toList, none), ("error".toList, some .error), ("warn".toList, some .warn),
   ("info".toList, some .info), ("debug".toList, some .debug), ("trace".toList, some .trace)]

-- The last threshold that the variable names, among words with commas between them, replaces the
-- level chosen on the command line.
def threshold (environment : CommandLine.Environment) (level : Log.Level) : Log.Threshold :=
  let setting := ((environment.get? "RUST_LOG").bind Utf8.decode?).getD []
  let named := (setting.splitOn ',').filterMap fun word =>
    thresholds.lookup ((Text.trim word).map Char.toLower)
  named.getLast?.getD (some level)

def ofReport (threshold : Log.Threshold) (report : Report) : Session :=
  let logged := logText threshold report.log
  match report.result with
  | .ok () => .finished 0 report.standardOutput logged report.files
  | .error failure =>
      let reported := if failure.isCrash then [] else failureText failure.chain
      .finished failure.exitCode report.standardOutput (logged ++ reported) report.files

def run (library : FontLibrary) (terminal : Outlet) (environment : CommandLine.Environment)
    (arguments : List Octets) (files : FileTree) : Session :=
  match CommandLine.read environment arguments with
  | .error .helpRequested => .help
  | .error error => .usage error
  | .ok invocation =>
      ofReport (threshold environment invocation.level)
        (invocation.request.run library terminal files)

end Session
end Bitfont
