import Bitfont.Strike
import Bitfont.Log
import Bitfont.Text.Numeral

namespace Bitfont

structure Rendering (σ ε : Type) where
  result : Except ε GlyphImage
  state : σ
  log : List Log.Entry := []

abbrev Renderer (σ ε : Type) := (code : Nat) → Cell → σ → Rendering σ ε

inductive CodeFailure (ε : Type) where
  | rendering (code : Nat) (error : ε)
  | packing (code : Nat) (error : CellFault)
deriving DecidableEq, Repr

namespace CodeFailure

def code {ε : Type} : CodeFailure ε → Nat
  | .rendering code _ => code
  | .packing code _ => code

def cause {ε : Type} (describe : ε → String) : CodeFailure ε → String
  | .rendering _ error => describe error
  | .packing _ error => error.message

def message {ε : Type} (describe : ε → String) : CodeFailure ε → String
  | .rendering code error => s!"failed to render character code {code}: {describe error}"
  | .packing code error => s!"failed to pack character code {code}: {error.message}"

end CodeFailure

structure Build (σ ε : Type) where
  result : Except (CodeFailure ε) Strike
  state : σ
  log : List Log.Entry

namespace Strike

def codeText (code : Nat) : String := "0x" ++ String.ofList (Numeral.hexadecimal .lower 2 code)

def packedEntry (code : Nat) : Log.Entry := ⟨.trace, s!"packed glyph {codeText code}"⟩

def builtEntry (codes : CodeRange) (strike : Strike) : Log.Entry :=
  let summary := s!"built glyph table for codes {codes.text} with {strike.size} glyphs of "
  ⟨.debug, summary ++ strike.cell.text⟩

def extend {σ ε : Type} (render : Renderer σ ε) : (count code : Nat) → Strike → σ → Build σ ε
  | 0, _, strike, state => ⟨.ok strike, state, []⟩
  | count + 1, code, strike, state =>
      let rendering := render code strike.cell state
      match rendering.result with
      | .error error => ⟨.error (.rendering code error), rendering.state, rendering.log⟩
      | .ok image =>
          match strike.push image with
          | .error error => ⟨.error (.packing code error), rendering.state, rendering.log⟩
          | .ok strike =>
              let rest := extend render count (code + 1) strike rendering.state
              { rest with log := rendering.log ++ packedEntry code :: rest.log }

def build {σ ε : Type} (render : Renderer σ ε) (codes : CodeRange) (cell : Cell) (state : σ) :
    Build σ ε :=
  match empty codes.first cell with
  | .error error => ⟨.error (.packing codes.first error), state, []⟩
  | .ok strike =>
      let built := extend render codes.size codes.first strike state
      match built.result with
      | .error _ => built
      | .ok strike => { built with log := built.log ++ [builtEntry codes strike] }

end Strike
end Bitfont
