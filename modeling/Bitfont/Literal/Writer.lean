import Bitfont.Text

namespace Bitfont

abbrev Writer (σ : Type) := Text → σ → σ × Bool

namespace Writer

def appending : Writer (Array Char) := fun characters taken => (taken ++ characters, true)

def limited : Writer (Text × Nat) := fun characters state =>
  ((state.1 ++ characters.take state.2, state.2 - characters.length), characters.length ≤ state.2)

end Writer

namespace Literal

inductive Fault where
  | noRows
  | rowTooWide (rowWidth elementBits : Nat)
  | full
deriving DecidableEq, Repr

def Fault.message : Fault → String
  | .noRows => "nothing to serialize"
  | .rowTooWide rowWidth elementBits =>
      s!"{rowWidth} bit rows do not fit in {elementBits} bit elements"
  | .full => "error writing array literal"

-- Writes of which the first that fails is the last. What was written before stays written.
abbrev Writing (σ : Type) := ExceptT Fault (StateM σ)

def emit {σ : Type} (put : Writer σ) (characters : Text) : Writing σ Unit := do
  let whole ← modifyGet fun state => (put characters state).swap
  if whole then return else throw .full

def writeEach {σ : Type} (part : Nat → Writing σ Unit) : (count index : Nat) → Writing σ Unit
  | 0, _ => return
  | count + 1, index => do
      part index
      writeEach part count (index + 1)

end Literal
end Bitfont
