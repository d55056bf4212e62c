namespace Bitfont

namespace Offset

def times? (offset factor : UInt64) : Option UInt64 :=
  if offset.toNat * factor.toNat < UInt64.size then some (offset * factor) else none

def plus? (offset more : UInt64) : Option UInt64 :=
  if offset.toNat + more.toNat < UInt64.size then some (offset + more) else none

def slice? {α : Type} (data : Array α) (start stop : UInt64) : Option (List α) :=
  if start ≤ stop ∧ stop.toNat ≤ data.size then some (data.extract start.toNat stop.toNat).toList
  else none

theorem to_nat_of_times? {offset factor product : UInt64} (fits : times? offset factor = some product) :
    product.toNat = offset.toNat * factor.toNat := by
  unfold times? at fits
  split at fits
  · next small =>
      obtain rfl := Option.some.inj fits
      exact (UInt64.toNat_mul offset factor).trans (Nat.mod_eq_of_lt small)
  · contradiction

theorem overflow_of_times? {offset factor : UInt64} (overflow : times? offset factor = none) :
    UInt64.size ≤ offset.toNat * factor.toNat := by
  apply Nat.not_lt.mp
  intro small
  simp [times?, small] at overflow

theorem to_nat_of_plus? {offset more sum : UInt64} (fits : plus? offset more = some sum) :
    sum.toNat = offset.toNat + more.toNat := by
  unfold plus? at fits
  split at fits
  · next small =>
      obtain rfl := Option.some.inj fits
      exact (UInt64.toNat_add offset more).trans (Nat.mod_eq_of_lt small)
  · contradiction

theorem overflow_of_plus? {offset more : UInt64} (overflow : plus? offset more = none) :
    UInt64.size ≤ offset.toNat + more.toNat := by
  apply Nat.not_lt.mp
  intro small
  simp [plus?, small] at overflow

end Offset

namespace Place

def minus? (place start : Int32) : Option Int32 :=
  let exact := place.toInt - start.toInt
  if Int32.minValue.toInt ≤ exact ∧ exact ≤ Int32.maxValue.toInt then some (place - start) else none

def saturatingPlus (place more : Int32) : Int32 := Int32.ofIntClamp (place.toInt + more.toInt)

theorem to_int_of_minus? {place start difference : Int32} (fits : minus? place start = some difference) :
    difference.toInt = place.toInt - start.toInt := by
  unfold minus? at fits
  dsimp only at fits
  split at fits
  · next small =>
      obtain rfl := Option.some.inj fits
      rw [Int32.toInt_minValue, Int32.toInt_maxValue] at small
      rw [Int32.toInt_sub]
      exact Int.bmod_eq_of_le (by omega) (by omega)
  · contradiction

theorem minus?_of_bounds {place start : Int32} (low : -0x80000000 ≤ place.toInt - start.toInt)
    (high : place.toInt - start.toInt < 0x80000000) :
    ∃ difference, minus? place start = some difference ∧ difference.toInt = place.toInt - start.toInt := by
  have found : minus? place start = some (place - start) := by
    apply if_pos
    rw [Int32.toInt_minValue, Int32.toInt_maxValue]
    omega
  exact ⟨place - start, found, to_int_of_minus? found⟩

theorem to_int_of_int_clamp {exact : Int} (low : -0x80000000 ≤ exact) (high : exact < 0x80000000) :
    (Int32.ofIntClamp exact).toInt = exact := by
  apply Int32.toInt_ofIntClamp
  · rw [Int32.toInt_minValue]
    omega
  · rw [Int32.toInt_maxValue]
    omega

theorem to_int_saturating_plus {place more : Int32} (low : -0x80000000 ≤ place.toInt + more.toInt)
    (high : place.toInt + more.toInt < 0x80000000) :
    (saturatingPlus place more).toInt = place.toInt + more.toInt :=
  to_int_of_int_clamp low high

end Place
end Bitfont
