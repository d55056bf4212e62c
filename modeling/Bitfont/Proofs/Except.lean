namespace Bitfont

variable {ε α β : Type}

theorem bind_eq_ok_iff {first : Except ε α} {next : α → Except ε β} {result : β} :
    (first >>= next) = .ok result ↔ ∃ value, first = .ok value ∧ next value = .ok result := by
  cases first with
  | error error => exact ⟨nofun, fun ⟨_, impossible, _⟩ => nomatch impossible⟩
  | ok value => exact ⟨fun success => ⟨value, rfl, success⟩, fun ⟨_, same, success⟩ =>
      Except.ok.inj same ▸ success⟩

theorem map_eq_ok_iff {first : Except ε α} {change : α → β} {result : β} :
    first.map change = .ok result ↔ ∃ value, first = .ok value ∧ change value = result := by
  cases first with
  | error error => simp [Except.map]
  | ok value => simp [Except.map]

theorem map_error_eq_ok_iff {ε' : Type} {first : Except ε α} {change : ε → ε'} {result : α} :
    first.mapError change = .ok result ↔ first = .ok result := by
  cases first with
  | error error => exact ⟨nofun, nofun⟩
  | ok value => exact ⟨fun success => congrArg Except.ok (Except.ok.inj success),
      fun success => congrArg Except.ok (Except.ok.inj success)⟩

theorem map_eq_error_iff {first : Except ε α} {change : α → β} {error : ε} :
    first.map change = .error error ↔ first = .error error := by
  cases first with
  | error error => simp [Except.map]
  | ok value => simp [Except.map]

theorem map_error_eq_error_iff {ε' : Type} {first : Except ε α} {change : ε → ε'} {error : ε'} :
    first.mapError change = .error error ↔ ∃ cause, first = .error cause ∧ change cause = error := by
  cases first with
  | error cause => exact ⟨fun failed => ⟨cause, rfl, Except.error.inj failed⟩,
      fun ⟨_, same, changed⟩ => congrArg Except.error (Except.error.inj same ▸ changed)⟩
  | ok value => exact ⟨nofun, fun ⟨_, impossible, _⟩ => nomatch impossible⟩

end Bitfont
