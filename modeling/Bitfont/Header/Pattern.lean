import Bitfont.Text

namespace Bitfont

inductive Pattern where
  | one (accepts : Char → Bool)
  | many (accepts : Char → Bool)
  | next (first second : Pattern)
  | group (inner : Pattern)

namespace Pattern

instance : Append Pattern := ⟨.next⟩

-- The texts of the groups are in the order in which the groups open.
inductive Matches : Pattern → (whole : Text) → (groups : List Text) → Prop where
  | one {accepts : Char → Bool} {c : Char} (accepted : accepts c) : Matches (.one accepts) [c] []
  | many {accepts : Char → Bool} {run : Text} (accepted : ∀ c ∈ run, accepts c) :
      Matches (.many accepts) run []
  | next {first second : Pattern} {start rest : Text} {groups more : List Text}
      (left : Matches first start groups) (right : Matches second rest more) :
      Matches (.next first second) (start ++ rest) (groups ++ more)
  | group {inner : Pattern} {whole : Text} {groups : List Text} (matched : Matches inner whole groups) :
      Matches (.group inner) whole (whole :: groups)

def Captures (pattern : Pattern) (text : Text) (groups : List Text) : Prop :=
  ∃ whole rest, text = whole ++ rest ∧ pattern.Matches whole groups

end Pattern
end Bitfont
