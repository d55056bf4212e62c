import Bitfont.CommandLine.Error

-- Assumed of the argument parser. An option takes its value from behind an equals sign, from the rest of a
-- cluster of short options, or from the next argument, unless that looks like an option. A value in an
-- argument of its own is read only when the next option or positional argument, or the end, is reached: an
-- unknown argument in between is reported first. Each value passes the reader of its option, whatever its
-- source. Only the verbosity may be given twice. After `--` everything is positional.

namespace Bitfont.CommandLine

inductive Effect (δ : Type) where
  | verbosity
  | help
  | flag (mark : δ → δ)
  | value (store : ValueReader (δ → δ))

structure OptionSpec (δ : Type) where
  long : String
  short : Option Char := none
  effect : Effect δ

namespace OptionSpec

def takesValue {δ : Type} (option : OptionSpec δ) : Bool :=
  match option.effect with
  | .value _ => true
  | _ => false

def label {δ : Type} (option : OptionSpec δ) : String :=
  match option.effect with
  | .verbosity => s!"--{option.long}..."
  | .help | .flag _ => s!"--{option.long}"
  | .value _ => s!"--{option.long} <{option.long}>"

end OptionSpec

structure Positional (δ : Type) where
  label : String
  store : ValueReader (δ → δ)

structure Command (δ : Type) where
  options : List (OptionSpec δ)
  positionals : List (Positional δ)

def commonOptions {δ : Type} : List (OptionSpec δ) :=
  [{ long := "verbose", short := some 'v', effect := .verbosity },
   { long := "help", short := some 'h', effect := .help }]

inductive Pending (δ : Type) where
  | option (spec : OptionSpec δ) (value : Option Octets)
  | positional (spec : Positional δ) (value : Octets)

structure Progress (δ : Type) where
  draft : δ
  given : List String := []
  verbosity : Option Nat := none
  pending : Option (Pending δ) := none
  unfilled : List (Positional δ)
  onlyPositionals : Bool := false

namespace Progress

variable {δ : Type}

def start (command : Command δ) (draft : δ) : Progress δ :=
  { draft, unfilled := command.positionals }

def raise (progress : Progress δ) : Progress δ :=
  { progress with verbosity := some (min (progress.verbosity.getD 0 + 1) 255) }

def note (progress : Progress δ) (spec : OptionSpec δ) : Except Error (Progress δ) :=
  if spec.long ∈ progress.given then .error (.conflict spec.label)
  else .ok { progress with given := progress.given ++ [spec.long] }

-- Gives an option its effect. The number of values is checked first, then repetition, then the
-- value.
def apply (progress : Progress δ) (spec : OptionSpec δ) (value : Option Octets) :
    Except Error (Progress δ) :=
  match spec.effect with
  | .verbosity => .ok progress.raise
  | .help => .error .helpRequested
  | .flag mark => do
      let progress ← progress.note spec
      return { progress with draft := mark progress.draft }
  | .value store =>
      match value with
      | none => .error (.invalidValue spec.label [])
      | some value => do
          let progress ← progress.note spec
          let change ← readFor spec.label store value
          return { progress with draft := change progress.draft }

def settle (progress : Progress δ) : Except Error (Progress δ) :=
  let settled := { progress with pending := none }
  match progress.pending with
  | none => .ok settled
  | some (.option spec value) => settled.apply spec value
  | some (.positional spec value) => do
      let change ← readFor spec.label spec.store value
      return { settled with draft := change settled.draft }

def react (progress : Progress δ) (spec : OptionSpec δ) (value : Option Octets) :
    Except Error (Progress δ) := do
  (← progress.settle).apply spec value

def await (progress : Progress δ) (spec : OptionSpec δ) : Except Error (Progress δ) := do
  return { ← progress.settle with pending := some (.option spec none) }

def awaiting (progress : Progress δ) : Option (OptionSpec δ) :=
  match progress.pending with
  | some (.option spec none) => some spec
  | _ => none

def positional (progress : Progress δ) (argument : Octets) : Except Error (Progress δ) :=
  match progress.unfilled with
  | [] => .error (.unknownArgument (Utf8.decodeLossy argument))
  | spec :: rest => do
      return {
        ← progress.settle with
        pending := some (.positional spec argument)
        unfilled := rest }

end Progress

def hyphen : UInt8 := 0x2D
def equals : UInt8 := 0x3D

def splitEquals (argument : Octets) : Octets × Option Octets :=
  match argument.dropWhile (· ≠ equals) with
  | [] => (argument, none)
  | _ :: value => (argument.takeWhile (· ≠ equals), some value)

namespace Command

variable {δ : Type}

def long? (command : Command δ) (name : Octets) : Option (OptionSpec δ) :=
  command.options.find? fun spec => some spec.long.toList = Utf8.decode? name

def short? (command : Command δ) (letter : Char) : Option (OptionSpec δ) :=
  command.options.find? fun spec => spec.short = some letter

def longOption (command : Command δ) (progress : Progress δ) (argument : Octets) :
    Except Error (Progress δ) :=
  let (name, value) := splitEquals argument
  match command.long? name with
  | none => .error (.unknownArgument ("--".toList ++ Utf8.decodeLossy name))
  | some spec =>
      if spec.takesValue then
        match value with
        | some value => progress.react spec (some value)
        | none => progress.await spec
      else
        match value with
        | some value => .error (.unexpectedValue spec.label (Utf8.decodeLossy value))
        | none => progress.react spec none

def shortOptions (command : Command δ) (progress : Progress δ) :
    (cluster : Octets) → Except Error (Progress δ)
  | [] => .ok progress
  | lead :: rest =>
      match (Utf8.scalar lead rest).1 with
      | none => .error (.unknownArgument ('-' :: Utf8.decodeLossy (lead :: rest)))
      | some letter =>
          match command.short? letter with
          | none => .error (.unknownArgument ['-', letter])
          | some spec =>
              if spec.takesValue then
                match (Utf8.scalar lead rest).2 with
                | [] => progress.await spec
                | first :: value =>
                    progress.react spec (some (if first = equals then value else first :: value))
              else
                match progress.react spec none with
                | .error error => .error error
                | .ok progress => shortOptions command progress (Utf8.scalar lead rest).2
termination_by cluster => cluster.length
decreasing_by exact Nat.lt_succ_of_le (Utf8.scalar_length_le lead rest)

def option? (command : Command δ) (progress : Progress δ) :
    (argument : Octets) → Option (Except Error (Progress δ))
  | first :: second :: rest =>
      if first = hyphen then
        if second = hyphen then
          if rest.isEmpty then some (.ok { progress with onlyPositionals := true })
          else some (command.longOption progress rest)
        else some (command.shortOptions progress (second :: rest))
      else none
  | _ => none

def value (progress : Progress δ) (argument : Octets) : Except Error (Progress δ) :=
  match progress.awaiting with
  | some spec => .ok { progress with pending := some (.option spec (some argument)) }
  | none => progress.positional argument

def argument (command : Command δ) (progress : Progress δ) (argument : Octets) :
    Except Error (Progress δ) :=
  if progress.onlyPositionals then progress.positional argument
  else
    match command.option? progress argument with
    | some result => result
    | none => value progress argument

def read (command : Command δ) (draft : δ) (arguments : List Octets) :
    Except Error (Progress δ) := do
  (← arguments.foldlM command.argument (Progress.start command draft)).settle

end Command
end Bitfont.CommandLine
