import Bitfont.Text

namespace Bitfont.Log

inductive Level where
  | error
  | warn
  | info
  | debug
  | trace
deriving DecidableEq, Repr

namespace Level

def rank : Level → Nat
  | .error => 1
  | .warn => 2
  | .info => 3
  | .debug => 4
  | .trace => 5

def name : Level → String
  | .error => "ERROR"
  | .warn => "WARN"
  | .info => "INFO"
  | .debug => "DEBUG"
  | .trace => "TRACE"

end Level

structure Entry where
  level : Level
  message : String
deriving DecidableEq, Repr

abbrev Threshold := Option Level

def shown (threshold : Threshold) (entry : Entry) : Bool :=
  match threshold with
  | none => false
  | some level => entry.level.rank ≤ level.rank

def select (threshold : Threshold) (entries : List Entry) : List Entry :=
  entries.filter (shown threshold)

def Entry.lines (entry : Entry) : Text :=
  s!"[{entry.level.name}] ".toList ++ Text.indentContinuation entry.message.toList

end Bitfont.Log
