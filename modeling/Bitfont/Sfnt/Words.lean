namespace Bitfont.Sfnt

def word8? (data : Array UInt8) (position : Nat) : Option Nat := (data[position]?).map UInt8.toNat

def word16? (data : Array UInt8) (position : Nat) : Option Nat := do
  return (← word8? data position) * 0x100 + (← word8? data (position + 1))

def word32? (data : Array UInt8) (position : Nat) : Option Nat := do
  return (← word16? data position) * 0x10000 + (← word16? data (position + 2))

def signed16 (word : Nat) : Int := Int.bmod word 0x10000

def words16? (data : Array UInt8) (position count : Nat) : Option (List Nat) :=
  (List.range count).mapM fun i => word16? data (position + 2 * i)

def part? (data : Array UInt8) (start length : Nat) : Option (Array UInt8) :=
  if start + length ≤ data.size then some (data.extract start (start + length)) else none

end Bitfont.Sfnt
