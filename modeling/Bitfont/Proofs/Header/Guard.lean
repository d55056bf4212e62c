import Bitfont.Header
import Bitfont.Proofs.Header.Declaration
import Bitfont.Proofs.Text.Utf8

namespace Bitfont

namespace Path

structure IsName (name : Octets) : Prop where
  nonempty : name ≠ []
  noSlash : slash ∉ name
  notDot : name ≠ dot
  notDotDot : name ≠ dotDot

section Name

variable {name : Octets} (isName : IsName name)

include isName

theorem names_alone : names name = [name] := by
  rw [names, steps, List.splitOn_eq_singleton isName.noSlash]
  simp [isName.nonempty, isName.notDot]

theorem names_joined (folder : Octets) : names (folder ++ slash :: name) = names folder ++ [name] := by
  have alone := names_alone isName
  unfold names steps at alone ⊢
  rw [List.splitOn_append_cons_self, List.filter_append, List.filter_append, alone]

theorem file_name?_alone : fileName? name = some name := by
  rw [fileName?, names_alone isName]
  simp [isName.notDotDot]

theorem file_name?_joined (folder : Octets) : fileName? (folder ++ slash :: name) = some name := by
  rw [fileName?, names_joined isName]
  simp [isName.notDotDot]

end Name

end Path

namespace Header

def startsMacro (c : Char) : Bool := Text.isAsciiUpper c || c = '_'
def continuesMacro (c : Char) : Bool := startsMacro c || Text.isAsciiDigit c

-- The name of a macro in the usual style: `[A-Z_][A-Z0-9_]*`.
def IsGuard : Text → Prop
  | [] => False
  | c :: later => startsMacro c ∧ ∀ other ∈ later, continuesMacro other

theorem guard_char_other {c : Char} (other : Declaration.continuesIdentifier c = false) :
    guardChar c = '_' := by
  rw [Declaration.continuesIdentifier, Declaration.startsIdentifier, Bool.or_right_comm] at other
  exact if_neg (Bool.eq_false_iff.mp other)

-- The characters of ASCII are few enough to be looked at one by one.
theorem forall_ascii {motive : Char → Prop} (each : ∀ n < 0x80, motive (Char.ofNat n)) {c : Char}
    (ascii : c.toNat < 0x80) : motive c := by
  rw [← Char.ofNat_toNat c]
  exact each _ ascii

theorem guard_char_shape (c : Char) :
    continuesMacro (guardChar c) ∧ (startsGuard (guardChar c) → startsMacro (guardChar c)) := by
  by_cases ascii : c.toNat < 0x80
  · exact forall_ascii (motive := fun c => continuesMacro (guardChar c) ∧
      (startsGuard (guardChar c) → startsMacro (guardChar c))) (by decide) ascii
  · have other : Declaration.continuesIdentifier c = false := by
      rw [← Bool.not_eq_true]
      intro continues
      have bounds := Declaration.continues_bounds continues
      omega
    rw [guard_char_other other]
    decide

theorem guard_of_name_nil : guardOfName [] = ['H', '_'] := rfl

theorem guard_of_name_cons (first : Char) (others : Text) :
    guardOfName (first :: others) =
      if startsGuard (guardChar first) then guardChar first :: others.map guardChar
      else 'H' :: '_' :: (first :: others).map guardChar := rfl

theorem guard_of_name_is_guard (name : Text) : IsGuard (guardOfName name) := by
  have chars (text : Text) : ∀ c ∈ text.map guardChar, continuesMacro c := by
    intro c member
    obtain ⟨source, -, rfl⟩ := List.mem_map.mp member
    exact (guard_char_shape source).1
  cases name with
  | nil =>
      rw [guard_of_name_nil]
      exact ⟨by decide, List.forall_mem_singleton.mpr (by decide)⟩
  | cons first others =>
      rw [guard_of_name_cons]
      split
      · next starts => exact ⟨(guard_char_shape first).2 starts, chars others⟩
      · exact ⟨by decide, List.forall_mem_cons.mpr ⟨by decide, chars (first :: others)⟩⟩

section Macro

variable {c : Char}

theorem starts_macro_guard (starts : startsMacro c) : startsGuard c := by
  simp only [startsMacro, startsGuard, Text.isAsciiLetter, Bool.or_eq_true] at starts ⊢
  tauto

variable (continues : continuesMacro c)

include continues

theorem continues_macro_identifier : Declaration.continuesIdentifier c := by
  simp only [continuesMacro, startsMacro, Declaration.continuesIdentifier, Declaration.startsIdentifier,
    Text.isAsciiLetter, Bool.or_eq_true] at continues ⊢
  tauto

theorem continues_macro_not_blank : Text.isBlank c = false :=
  Declaration.not_blank_of_continues (continues_macro_identifier continues)

theorem continues_macro_guard_char : guardChar c = c := by
  have bounds := Declaration.continues_bounds (continues_macro_identifier continues)
  revert continues
  exact forall_ascii (motive := fun c => continuesMacro c → guardChar c = c) (by decide) (by omega)

-- It is one byte, which comes after the slash.
theorem continues_macro_after_slash : ∀ byte ∈ String.utf8EncodeChar c, Path.slash < byte := by
  obtain ⟨low, high⟩ := Declaration.continues_bounds (continues_macro_identifier continues)
  rw [Utf8.encode_char_ascii (by omega), List.forall_mem_singleton, UInt8.lt_iff_toNat_lt,
    Utf8.to_nat_byte (by omega)]
  exact low

end Macro

theorem IsGuard.continues {guard : Text} (isGuard : IsGuard guard) :
    ∀ c ∈ guard, continuesMacro c := by
  cases guard with
  | nil => exact isGuard.elim
  | cons first others =>
      intro c member
      rcases List.mem_cons.mp member with rfl | later
      · rw [continuesMacro, isGuard.1, Bool.true_or]
      · exact isGuard.2 c later

theorem IsGuard.ne_nil {guard : Text} (isGuard : IsGuard guard) : guard ≠ [] := by
  rintro rfl
  exact isGuard

section OwnGuard

variable {guard : Text} (isGuard : IsGuard guard)

include isGuard

theorem guard_of_name_of_is_guard : guardOfName guard = guard := by
  have same : guard.map guardChar = guard.map id := by
    apply List.map_congr_left
    intro c inside
    exact continues_macro_guard_char (isGuard.continues c inside)
  rw [List.map_id] at same
  cases guard with
  | nil => exact isGuard.elim
  | cons first others =>
      obtain ⟨firstSame, othersSame⟩ := List.cons.inj same
      rw [guard_of_name_cons, firstSame, othersSame, if_pos (starts_macro_guard isGuard.1)]

theorem is_name_of_is_guard : Path.IsName (Utf8.encode guard) := by
  have above : ∀ byte ∈ Utf8.encode guard, Path.slash < byte := by
    intro byte member
    obtain ⟨c, inside, encoded⟩ := List.mem_flatMap.mp member
    exact continues_macro_after_slash (isGuard.continues c inside) byte encoded
  constructor
  case nonempty =>
    intro empty
    have decoded := Utf8.decode_lossy_encode guard
    rw [empty, Utf8.decodeLossy, Utf8.scan, List.map_nil] at decoded
    exact isGuard.ne_nil decoded.symm
  case noSlash =>
    intro inside
    exact absurd (above _ inside) (by decide)
  case notDot =>
    intro same
    exact absurd (above 0x2E (same ▸ List.mem_cons_self)) (by decide)
  case notDotDot =>
    intro same
    exact absurd (above 0x2E (same ▸ List.mem_cons_self)) (by decide)

theorem guard_for_encode : guardFor (Utf8.encode guard) = guard := by
  have own := Path.file_name?_alone (is_name_of_is_guard isGuard)
  rw [guardFor, own, Option.getD_some, Path.text, Utf8.decode_lossy_encode,
    guard_of_name_of_is_guard isGuard]

end OwnGuard

theorem guard_for_is_guard (path : Octets) : IsGuard (guardFor path) := guard_of_name_is_guard _

theorem guard_for_joined {name : Octets} (isName : Path.IsName name) (folder : Octets) :
    guardFor (folder ++ Path.slash :: name) = guardFor name := by
  rw [guardFor, Path.file_name?_joined isName, guardFor, Path.file_name?_alone isName, Option.getD_some,
    Option.getD_some]

-- The names of macros are exactly the texts that are their own guards.
theorem guards_are_macro_names :
    (∀ path, IsGuard (guardFor path)) ∧
    (∀ folder name, Path.IsName name → guardFor (folder ++ Path.slash :: name) = guardFor name) ∧
    (∀ path, guardFor (Utf8.encode (guardFor path)) = guardFor path) ∧
    ∀ text, guardFor (Utf8.encode text) = text ↔ IsGuard text := by
  refine ⟨guard_for_is_guard, fun folder name isName => guard_for_joined isName folder,
    fun path => guard_for_encode (guard_for_is_guard path), ?_⟩
  intro text
  constructor
  · intro own
    rw [← own]
    exact guard_for_is_guard _
  · exact guard_for_encode

-- The name starts with a digit, and a character that is cut short in it counts once.
theorem name_cut_short_guarded :
    let folder := Utf8.encode "../fonts/.".toList
    let name : Octets := 0x38 :: 0xE2 :: 0x82 :: [0x2E, 0x68]
    Path.IsName name ∧ guardFor (folder ++ Path.slash :: name) = "H_8__H".toList := by
  intro folder name
  have isName : Path.IsName name := ⟨by decide, by decide, by decide, by decide⟩
  have guard : guardFor name = "H_8__H".toList := by decide +kernel
  exact ⟨isName, (guards_are_macro_names.2.1 folder name isName).trans guard⟩

end Header

end Bitfont
