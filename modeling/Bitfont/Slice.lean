namespace Bitfont

def slice? {α : Type} (data : Array α) (start count : Nat) : Option (List α) :=
  if start + count ≤ data.size then some (data.extract start (start + count)).toList else none

end Bitfont
