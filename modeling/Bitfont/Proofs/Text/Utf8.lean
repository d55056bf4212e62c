import Mathlib.Data.List.Basic
import Bitfont.Text.Utf8

namespace Bitfont.Utf8

theorem to_nat_byte {n : Nat} (byte : n < 256) : (UInt8.ofNat n).toNat = n := Nat.mod_eq_of_lt byte

section Encoded

variable {low high value digit : Nat} (small : digit < 64)
  (inside : low ≤ digit + 128 ∧ digit + 128 ≤ high) (rest : Octets)

include small inside

theorem follow_continuation (more : Nat) :
    follow (more + 1) low high value (UInt8.ofNat (digit + 128) :: rest) =
      follow more 0x80 0xBF (value * 64 + digit) rest := by
  have bits : (digit + 128) % 64 = digit := by omega
  rw [follow, to_nat_byte (by omega), if_pos inside, bits]

theorem follow_last :
    follow 1 low high value (UInt8.ofNat (digit + 128) :: rest) =
      (some (Char.ofNat (value * 64 + digit)), rest) := by
  rw [follow_continuation small inside, follow]

end Encoded

theorem scalar_one {n : Nat} (short : n < 0x80) (rest : Octets) :
    scalar (UInt8.ofNat n) rest = (some (Char.ofNat n), rest) := by
  rw [scalar, to_nat_byte (by omega), if_pos short]

theorem scalar_two {first second : Nat} (notShort : 2 ≤ first) (lead : first < 32)
    (last : second < 64) (rest : Octets) :
    scalar (UInt8.ofNat (first + 192)) (UInt8.ofNat (second + 128) :: rest) =
      (some (Char.ofNat (first * 64 + second)), rest) := by
  rw [scalar, to_nat_byte (by omega), if_neg (by omega), if_neg (by omega), if_pos (by omega),
    Nat.add_sub_cancel]
  exact follow_last last (by omega) rest

-- The leads 0xE0 and 0xED have bounds of their own on the second byte.
theorem scalar_three {first second third : Nat} (lead : first < 16) (middle : second < 64)
    (last : third < 64) (notShort : first = 0 → 32 ≤ second) (noSurrogate : first = 13 → second < 32)
    (rest : Octets) :
    scalar (UInt8.ofNat (first + 224)) (UInt8.ofNat (second + 128) :: UInt8.ofNat (third + 128) :: rest) =
      (some (Char.ofNat ((first * 64 + second) * 64 + third)), rest) := by
  have continued : follow 1 0x80 0xBF (first * 64 + second) (UInt8.ofNat (third + 128) :: rest) =
      (some (Char.ofNat ((first * 64 + second) * 64 + third)), rest) :=
    follow_last last (by omega) rest
  rw [scalar, to_nat_byte (by omega), if_neg (by omega), if_neg (by omega), if_neg (by omega)]
  by_cases lowest : first = 0
  · have bound := notShort lowest
    subst lowest
    rw [if_pos rfl, follow_continuation middle (by omega), continued]
  by_cases surrogates : first = 13
  · have bound := noSurrogate surrogates
    subst surrogates
    rw [if_neg (by omega), if_pos rfl, follow_continuation middle (by omega), continued]
  rw [if_neg (by omega), if_neg (by omega), if_pos (by omega), Nat.add_sub_cancel,
    follow_continuation middle (by omega), continued]

-- So have 0xF0 and 0xF4.
theorem scalar_four {first second third fourth : Nat} (lead : first < 5) (early : second < 64)
    (middle : third < 64) (last : fourth < 64) (notShort : first = 0 → 16 ≤ second)
    (notLong : first = 4 → second < 16) (rest : Octets) :
    scalar (UInt8.ofNat (first + 240)) (UInt8.ofNat (second + 128) :: UInt8.ofNat (third + 128) ::
        UInt8.ofNat (fourth + 128) :: rest) =
      (some (Char.ofNat (((first * 64 + second) * 64 + third) * 64 + fourth)), rest) := by
  have continued : follow 2 0x80 0xBF (first * 64 + second)
      (UInt8.ofNat (third + 128) :: UInt8.ofNat (fourth + 128) :: rest) =
        (some (Char.ofNat (((first * 64 + second) * 64 + third) * 64 + fourth)), rest) := by
    rw [follow_continuation middle (by omega), follow_last last (by omega)]
  rw [scalar, to_nat_byte (by omega), if_neg (by omega), if_neg (by omega), if_neg (by omega),
    if_neg (by omega), if_neg (by omega), if_neg (by omega)]
  by_cases lowest : first = 0
  · have bound := notShort lowest
    subst lowest
    rw [if_pos rfl, follow_continuation early (by omega), continued]
  by_cases highest : first = 4
  · have bound := notLong highest
    subst highest
    rw [if_neg (by omega), if_neg (by omega), if_pos rfl, follow_continuation early (by omega),
      continued]
  rw [if_neg (by omega), if_pos (by omega), Nat.add_sub_cancel, follow_continuation early (by omega),
    continued]

theorem encode_char_ascii {c : Char} (ascii : c.toNat ≤ 127) :
    String.utf8EncodeChar c = [UInt8.ofNat c.toNat] := by
  unfold String.utf8EncodeChar
  exact if_pos ascii

theorem scan_cons (lead : UInt8) (rest : Octets) :
    scan (lead :: rest) = (scalar lead rest).1 :: scan (scalar lead rest).2 := by
  rw [scan]

theorem scan_encode_char (c : Char) (rest : Octets) :
    scan (String.utf8EncodeChar c ++ rest) = some c :: scan rest := by
  have valid : c.val.toNat < 0xD800 ∨ 0xDFFF < c.val.toNat ∧ c.val.toNat < 0x110000 := c.valid
  have whole : Char.ofNat c.val.toNat = c := Char.ofNat_toNat c
  unfold String.utf8EncodeChar
  generalize c.val.toNat = n at valid whole ⊢
  subst whole
  by_cases one : n ≤ 127
  · rw [if_pos one, List.singleton_append, scan_cons, scalar_one (by omega)]
  by_cases two : n ≤ 2047
  · have parts : n / 64 % 32 * 64 + n % 64 = n := by omega
    rw [if_neg one, if_pos two, List.cons_append, scan_cons, List.singleton_append,
      scalar_two (by omega) (by omega) (by omega), parts]
  by_cases three : n ≤ 65535
  · have parts : (n / 4096 % 16 * 64 + n / 64 % 64) * 64 + n % 64 = n := by omega
    rw [if_neg one, if_neg two, if_pos three, List.cons_append, scan_cons, List.cons_append,
      List.singleton_append, scalar_three (by omega) (by omega) (by omega) (by omega) (by omega), parts]
  · have parts : ((n / 262144 % 8 * 64 + n / 4096 % 64) * 64 + n / 64 % 64) * 64 + n % 64 = n := by
      omega
    rw [if_neg one, if_neg two, if_neg three, List.cons_append, scan_cons, List.cons_append,
      List.cons_append, List.singleton_append,
      scalar_four (by omega) (by omega) (by omega) (by omega) (by omega) (by omega), parts]

theorem scan_encode (text : Text) : scan (encode text) = text.map some := by
  induction text with
  | nil =>
      change scan [] = []
      rw [scan]
  | cons c text ih =>
      rw [encode, List.flatMap_cons, scan_encode_char]
      exact congrArg _ ih

theorem decode?_eq_some_iff {bytes : Octets} {text : Text} :
    decode? bytes = some text ↔ scan bytes = text.map some := by
  unfold decode?
  induction scan bytes generalizing text with
  | nil => cases text <;> simp
  | cons read later ih =>
      cases read with
      | none => cases text <;> simp
      | some c =>
          cases text with
          | nil => cases rest : later.mapM id <;> simp [List.mapM_cons, rest]
          | cons first text =>
              have behind : later.mapM id = some text ↔ later = text.map some := ih
              cases rest : later.mapM id with
              | none => simpa [List.mapM_cons, rest] using fun _ => behind
              | some others => simpa [List.mapM_cons, rest] using fun _ => behind

theorem decode?_encode (text : Text) : decode? (encode text) = some text :=
  decode?_eq_some_iff.mpr (scan_encode text)

theorem decode_lossy_encode (text : Text) : decodeLossy (encode text) = text := by
  rw [decodeLossy, scan_encode, List.map_map]
  exact List.map_id text

-- The zero byte is left out: an invalid scalar value would read as the same character.
section Ascii

variable {byte : UInt8} (positive : 0 < byte.toNat) (ascii : byte.toNat < 0x80)

include positive ascii

theorem of_nat_eq_ascii_iff (n : Nat) : Char.ofNat n = Char.ofNat byte.toNat ↔ n = byte.toNat := by
  have own : (Char.ofNat byte.toNat).toNat = byte.toNat := by
    rw [Char.ofNat, dif_pos (.inl (by omega))]
    rfl
  constructor
  · intro same
    rw [← own, ← same]
    by_cases valid : n.isValidChar
    · rw [Char.ofNat, dif_pos valid]
      rfl
    · rw [Char.ofNat, dif_neg valid] at same
      rw [← same] at own
      exact absurd own (Nat.ne_of_lt positive)
  · rintro rfl
    rfl

theorem follow_ne_ascii {more low high value : Nat} (bytes : Octets)
    (proper : 0x80 ≤ value ∨ 1 ≤ more ∧ 2 ≤ value ∨
      2 ≤ more ∧ (1 ≤ value ∨ 0x90 ≤ low ∧ high ≤ 0xBF)) :
    (follow more low high value bytes).1 ≠ some (Char.ofNat byte.toNat) := by
  induction more generalizing low high value bytes with
  | zero =>
      rw [follow, ne_eq, Option.some_inj, of_nat_eq_ascii_iff positive ascii]
      omega
  | succ more ih =>
      cases bytes with
      | nil => simp [follow]
      | cons first rest =>
          rw [follow]
          split
          · exact ih rest (by omega)
          · simp

omit positive in
theorem mem_follow_ascii {more low high value : Nat} (continuation : 0x80 ≤ low) (bytes : Octets) :
    byte ∈ (follow more low high value bytes).2 ↔ byte ∈ bytes := by
  induction more generalizing low high value bytes with
  | zero => rw [follow]
  | succ more ih =>
      cases bytes with
      | nil => rw [follow]
      | cons first rest =>
          rw [follow]
          split
          · next inside =>
              have other : byte ≠ first := by
                rintro rfl
                omega
              rw [ih (by decide), List.mem_cons, or_iff_right other]
          · rfl

-- The bytes after a lead that a scalar value takes are none of ASCII, and the value is not one of ASCII
-- unless the lead is.
theorem scalar_ascii (lead : UInt8) (rest : Octets) :
    ((scalar lead rest).1 = some (Char.ofNat byte.toNat) ↔ lead = byte) ∧
      (byte ∈ (scalar lead rest).2 ↔ byte ∈ rest) := by
  have sameByte : lead = byte ↔ lead.toNat = byte.toNat := UInt8.toNat_inj.symm
  rw [sameByte]
  unfold scalar
  by_cases short : lead.toNat < 0x80
  · rw [if_pos short, Option.some_inj, of_nat_eq_ascii_iff positive ascii]
    exact ⟨Iff.rfl, Iff.rfl⟩
  · have other : lead.toNat ≠ byte.toNat := by omega
    simp only [other, iff_false]
    rw [if_neg short]
    -- Either the lead is refused, or it is followed by one continuation byte at least.
    repeat' split
    all_goals first
      | exact ⟨nofun, Iff.rfl⟩
      | exact ⟨follow_ne_ascii positive ascii rest (by omega), mem_follow_ascii ascii (by decide) rest⟩

theorem ascii_mem_scan (bytes : Octets) : some (Char.ofNat byte.toNat) ∈ scan bytes ↔ byte ∈ bytes := by
  induction bytes using scan.induct with
  | case1 => simp [scan]
  | case2 lead rest ih =>
      obtain ⟨first, later⟩ := scalar_ascii positive ascii lead rest
      rw [scan_cons, List.mem_cons, List.mem_cons, ih, later, eq_comm, first, eq_comm]

end Ascii

theorem line_feed_mem_decode_lossy (bytes : Octets) : '\n' ∈ decodeLossy bytes ↔ 0x0A ∈ bytes := by
  have read : some '\n' ∈ scan bytes ↔ 0x0A ∈ bytes :=
    @ascii_mem_scan 0x0A (by decide) (by decide) bytes
  rw [← read, decodeLossy, List.mem_map]
  constructor
  · rintro ⟨read, member, shown⟩
    cases read with
    | none => contradiction
    | some c =>
        obtain rfl : c = '\n' := shown
        exact member
  · intro member
    exact ⟨some '\n', member, rfl⟩

theorem eq_encode_of_decode? {bytes : Octets} {text : Text}
    (ascii : ∀ c ∈ text, 0 < c.toNat ∧ c.toNat ≤ 127) (decoded : decode? bytes = some text) :
    bytes = encode text := by
  rw [decode?_eq_some_iff] at decoded
  induction text generalizing bytes with
  | nil =>
      cases bytes with
      | nil => rfl
      | cons lead rest => simp [scan_cons] at decoded
  | cons c text ih =>
      cases bytes with
      | nil => simp [scan] at decoded
      | cons lead rest =>
          obtain ⟨positive, small⟩ := ascii c List.mem_cons_self
          have value : (UInt8.ofNat c.toNat).toNat = c.toNat := to_nat_byte (by omega)
          have same : Char.ofNat (UInt8.ofNat c.toNat).toNat = c := by rw [value, Char.ofNat_toNat]
          rw [scan_cons, List.map_cons, List.cons.injEq] at decoded
          obtain rfl : lead = UInt8.ofNat c.toNat :=
            (scalar_ascii (by omega) (by omega) lead rest).1.mp (by rw [same]; exact decoded.1)
          rw [scalar_one (by omega)] at decoded
          rw [encode, List.flatMap_cons, encode_char_ascii small, List.singleton_append]
          exact congrArg _ (ih (fun c member => ascii c (List.mem_cons_of_mem _ member)) decoded.2)

end Bitfont.Utf8
