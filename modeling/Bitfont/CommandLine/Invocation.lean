import Bitfont.CommandLine.BlobDraft
import Bitfont.CommandLine.HeaderDraft
import Bitfont.CommandLine.RasterizeDraft

namespace Bitfont.CommandLine

structure Invocation where
  level : Log.Level
  request : Request
deriving DecidableEq, Repr

inductive Subcommand where
  | rasterize
  | blob
  | header
  | help
deriving DecidableEq, Repr

def subcommands : List (String × Subcommand) :=
  [("rasterize", .rasterize), ("blob", .blob), ("header", .header), ("help", .help)]

def subcommand? (argument : Octets) : Option Subcommand :=
  (subcommands.find? fun entry => some entry.1.toList = Utf8.decode? argument).map Prod.snd

def levelOf (raised : Nat) : Log.Level :=
  match raised with
  | 0 => .info
  | 1 => .debug
  | _ => .trace

-- `help` takes the name of a subcommand. Subcommands have none of their own.
def helpAbout : List Octets → Error
  | [] => .helpRequested
  | [name] => if (subcommand? name).isSome then .helpRequested else .unknownSubcommand
  | _ => .unknownSubcommand

-- The verbosity of the subcommand's own arguments, where given, replaces the one before it.
def effectiveLevel {δ : Type} (before : Progress Unit) (progress : Progress δ) : Log.Level :=
  levelOf ((progress.verbosity.or before.verbosity).getD 0)

def readSubcommand (environment : Environment) (before : Progress Unit) (arguments : List Octets) :
    Subcommand → Except Error Invocation
  | .help => .error (helpAbout arguments)
  | .rasterize => do
      let progress ← RasterizeDraft.command.read {} arguments
      return ⟨effectiveLevel before progress, .rasterize (← progress.draft.finish environment)⟩
  | .blob => do
      let progress ← BlobDraft.command.read {} arguments
      return ⟨effectiveLevel before progress, .blob (← progress.draft.finish progress.given)⟩
  | .header => do
      let progress ← HeaderDraft.command.read {} arguments
      return ⟨effectiveLevel before progress, .header (← progress.draft.finish)⟩

def program : Command Unit := ⟨commonOptions, []⟩

def readProgram (environment : Environment) : Progress Unit → List Octets → Except Error Invocation
  | progress, [] => .error (if progress.verbosity.isNone then .noArguments else .missingSubcommand)
  | progress, argument :: rest =>
      if progress.onlyPositionals then
        .error (if (subcommand? argument).isSome then .unknownArgument (Utf8.decodeLossy argument)
          else .unknownSubcommand)
      else
        match subcommand? argument with
        | some subcommand => readSubcommand environment progress rest subcommand
        | none =>
            match program.option? progress argument with
            | none => .error .unknownSubcommand
            | some (.error error) => .error error
            | some (.ok progress) => readProgram environment progress rest

def read (environment : Environment) (arguments : List Octets) : Except Error Invocation :=
  readProgram environment (Progress.start program ()) arguments

end Bitfont.CommandLine
