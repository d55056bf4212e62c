import Bitfont.Proofs.CommandLine.Spelled

namespace Bitfont.CommandLine

variable {δ : Type} {command : Command δ} {keeps : δ → Prop} {progress next : Progress δ}

def beforeEnd (arguments : List Octets) : List Octets := arguments.takeWhile (· ≠ endOfOptions)

theorem before_end_append {front : List Octets} (noEnd : endOfOptions ∉ front) (rest : List Octets) :
    beforeEnd (front ++ rest) = front ++ beforeEnd rest := by
  apply List.takeWhile_append_of_pos
  intro argument member
  exact decide_eq_true (ne_of_mem_of_not_mem member noEnd)

theorem eq_before_end_or_append (arguments : List Octets) :
    arguments = beforeEnd arguments ∨ ∃ values, arguments = beforeEnd arguments ++ endOfOptions :: values := by
  by_cases ends : endOfOptions ∈ arguments
  · obtain ⟨front, values, rfl, noEnd⟩ := List.eq_append_cons_of_mem ends
    refine .inr ⟨values, ?_⟩
    rw [before_end_append noEnd]
    simp [beforeEnd]
  · left
    simpa [beforeEnd] using (before_end_append ends []).symm

namespace Progress

theorem apply_only_positionals {spec : OptionSpec δ} {value : Option Octets}
    (applied : progress.apply spec value = .ok next) : next.onlyPositionals = progress.onlyPositionals := by
  obtain ⟨-, rfl⟩ | ⟨mark, -, rfl⟩ | ⟨store, octets, change, -, -, -, rfl⟩ := apply_eq_ok applied
  · rfl
  · rfl
  · rfl

theorem settle_only_positionals (settled : progress.settle = .ok next) :
    next.onlyPositionals = progress.onlyPositionals := by
  obtain ⟨-, rfl⟩ | ⟨spec, value, -, applied⟩ | ⟨spec, octets, change, -, -, rfl⟩ := settle_eq_ok settled
  · rfl
  · have same := apply_only_positionals applied
    exact same
  · rfl

-- Behind `--`. The value that is still to be read is the last one before it or a positional one.
structure BehindEnd (command : Command δ) (keeps : δ → Prop) (progress : Progress δ) : Prop where
  only : progress.onlyPositionals = true
  unfilled : ∀ spec ∈ progress.unfilled, spec ∈ command.positionals
  settles : ∀ settled, progress.settle = .ok settled → settled.Settled command keeps

variable (keepsPositionals : ∀ spec ∈ command.positionals, ∀ value change, spec.store value = .ok change →
  ∀ draft, keeps draft → keeps (change draft))

include keepsPositionals

theorem BehindEnd.positional {argument : Octets} (behind : progress.BehindEnd command keeps)
    (taken : progress.positional argument = .ok next) : next.BehindEnd command keeps := by
  obtain ⟨spec, others, clear, unfilled, settled, rfl⟩ := positional_eq_ok taken
  have ready := behind.settles clear settled
  have only := (settle_only_positionals settled).trans behind.only
  have specs := behind.unfilled
  rw [unfilled] at specs
  refine ⟨only, fun other inside => specs other (List.mem_cons_of_mem _ inside), ?_⟩
  intro last read
  obtain ⟨change, accepted, changed⟩ := bind_eq_ok_iff.mp read
  rw [← Except.ok.inj changed]
  have kept := keepsPositionals spec (specs spec List.mem_cons_self) argument change
    (read_for_eq_ok.mp accepted) _ ready.draft
  exact ⟨kept, fun other inside => specs other (List.mem_cons_of_mem _ inside), rfl⟩

theorem BehindEnd.positionals {values : List Octets} (behind : progress.BehindEnd command keeps)
    (taken : values.foldlM command.argument progress = .ok next) : next.BehindEnd command keeps := by
  induction values generalizing progress with
  | nil =>
      rw [← Except.ok.inj taken]
      exact behind
  | cons value values ih =>
      rw [List.foldlM_cons] at taken
      obtain ⟨middle, first, others⟩ := bind_eq_ok_iff.mp taken
      rw [Command.argument, if_pos behind.only] at first
      exact ih (behind.positional keepsPositionals first) others

end Progress

namespace Command

open Progress (Sound BehindEnd)

theorem ended_behind_end {arguments rest : List Octets}
    (keepsChanges : ∀ change, command.Changes arguments change → ∀ draft, keeps draft → keeps (change draft))
    (keepsPositionals : ∀ spec ∈ command.positionals, ∀ value change, spec.store value = .ok change →
      ∀ draft, keeps draft → keeps (change draft))
    (sound : progress.Sound command arguments keeps rest)
    (ended : command.argument progress endOfOptions = .ok next) : next.BehindEnd command keeps := by
  by_cases only : progress.onlyPositionals
  · rw [argument, if_pos only] at ended
    have behind : progress.BehindEnd command keeps := ⟨only, sound.unfilled, fun _ => sound.settle keepsChanges⟩
    exact behind.positional keepsPositionals ended
  · rw [argument, if_neg only] at ended
    obtain rfl : { progress with onlyPositionals := true } = next := Except.ok.inj ended
    have soundBehind : Sound command arguments keeps [] { progress with onlyPositionals := true } :=
      sound.only_positionals
    exact ⟨rfl, sound.unfilled, fun _ => soundBehind.settle keepsChanges⟩

theorem read_keeps_before_end {arguments : List Octets} {draft : δ}
    (keepsChanges : ∀ change, command.Changes (beforeEnd arguments) change →
      ∀ draft, keeps draft → keeps (change draft))
    (keepsPositionals : ∀ spec ∈ command.positionals, ∀ value change, spec.store value = .ok change →
      ∀ draft, keeps draft → keeps (change draft))
    (start : keeps draft) (read : command.read draft arguments = .ok progress) : keeps progress.draft := by
  rcases eq_before_end_or_append arguments with whole | ⟨values, whole⟩
  · rw [← whole] at keepsChanges
    exact read_keeps keepsChanges start read
  · obtain ⟨last, folded, settled⟩ := bind_eq_ok_iff.mp read
    have split : (beforeEnd arguments ++ endOfOptions :: values).foldlM command.argument
        (Progress.start command draft) = .ok last := whole ▸ folded
    rw [List.foldlM_append] at split
    obtain ⟨optionsRead, options, rest⟩ := bind_eq_ok_iff.mp split
    rw [List.foldlM_cons] at rest
    obtain ⟨ended, ends, positionals⟩ := bind_eq_ok_iff.mp rest
    have fresh : Sound command (beforeEnd arguments) keeps (beforeEnd arguments) (Progress.start command draft) :=
      ⟨start, fun _ member => member, trivial⟩
    have sound := foldl_argument_sound keepsChanges fresh List.suffix_rfl options
    have behind := ended_behind_end keepsChanges keepsPositionals sound ends
    exact ((behind.positionals keepsPositionals positionals).settles progress settled).draft

end Command
end Bitfont.CommandLine
