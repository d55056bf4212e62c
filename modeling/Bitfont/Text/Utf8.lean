import Bitfont.Text

-- The lossy reading puts one replacement character for each maximal ill-formed sequence: a lead byte with as
-- many of its continuation bytes as are in range.

namespace Bitfont.Utf8

def follow : (more low high value : Nat) → Octets → Option Char × Octets
  | 0, _, _, value, rest => (some (Char.ofNat value), rest)
  | _ + 1, _, _, _, [] => (none, [])
  | more + 1, low, high, value, byte :: rest =>
      if low ≤ byte.toNat ∧ byte.toNat ≤ high then
        follow more 0x80 0xBF (value * 64 + byte.toNat % 64) rest
      else (none, byte :: rest)

-- The scalar value that starts with `lead`, or `none` for an ill-formed sequence, and what follows.
-- The bounds on the second byte exclude overlong forms, surrogates and values past U+10FFFF.
def scalar (lead : UInt8) (rest : Octets) : Option Char × Octets :=
  let n := lead.toNat
  if n < 0x80 then (some (Char.ofNat n), rest)
  else if n < 0xC2 then (none, rest)
  else if n < 0xE0 then follow 1 0x80 0xBF (n - 0xC0) rest
  else if n = 0xE0 then follow 2 0xA0 0xBF 0 rest
  else if n = 0xED then follow 2 0x80 0x9F 13 rest
  else if n < 0xF0 then follow 2 0x80 0xBF (n - 0xE0) rest
  else if n = 0xF0 then follow 3 0x90 0xBF 0 rest
  else if n < 0xF4 then follow 3 0x80 0xBF (n - 0xF0) rest
  else if n = 0xF4 then follow 3 0x80 0x8F 4 rest
  else (none, rest)

theorem follow_length_le (more low high value : Nat) (bytes : Octets) :
    (follow more low high value bytes).2.length ≤ bytes.length := by
  induction more generalizing low high value bytes with
  | zero => simp [follow]
  | succ more ih =>
      cases bytes with
      | nil => simp [follow]
      | cons byte rest =>
          rw [follow]
          split
          · have shorter := ih 0x80 0xBF (value * 64 + byte.toNat % 64) rest
            simp only [List.length_cons]
            omega
          · simp

theorem scalar_length_le (lead : UInt8) (rest : Octets) :
    (scalar lead rest).2.length ≤ rest.length := by
  unfold scalar
  dsimp only
  repeat' split
  all_goals first | exact Nat.le_refl _ | exact follow_length_le _ _ _ _ _

def scan : Octets → List (Option Char)
  | [] => []
  | lead :: rest => (scalar lead rest).1 :: scan (scalar lead rest).2
termination_by bytes => bytes.length
decreasing_by exact Nat.lt_succ_of_le (scalar_length_le lead rest)

def decodeLossy (bytes : Octets) : Text := (scan bytes).map (·.getD '\uFFFD')

def decode? (bytes : Octets) : Option Text := (scan bytes).mapM id

def encode (text : Text) : Octets := text.flatMap String.utf8EncodeChar

end Bitfont.Utf8
