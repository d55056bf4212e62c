import Bitfont.CommandLine.Invocation
import Bitfont.Proofs.CommandLine.EndOfOptions

namespace Bitfont

namespace Utf8

theorem decode?_ascii {lead : UInt8} (ascii : lead.toNat < 0x80) (rest : Octets) :
    decode? (lead :: rest) = (decode? rest).map (Char.ofNat lead.toNat :: ·) := by
  have first : scalar lead rest = (some (Char.ofNat lead.toNat), rest) := by
    rw [scalar, if_pos ascii]
  rw [decode?, scan, first, List.mapM_cons]
  cases behind : (scan rest).mapM id with
  | none => simp [decode?, behind]
  | some text => simp [decode?, behind]

end Utf8

structure Typeface.Format.WithinBounds (format : Format) : Prop where
  wide : 1 ≤ format.cell.width
  narrow : format.cell.width ≤ 16
  tall : 1 ≤ format.cell.height
  low : format.cell.height ≤ 255
  wrap : ∀ count, format.wrap = some count → 0 < count

structure RasterizeRequest.WithinBounds (request : RasterizeRequest) : Prop where
  format : request.format.WithinBounds
  size : SizedFont.isRenderableSize request.size = true

namespace CommandLine

-- The long option is among the arguments with this value, which is the next argument or stands
-- behind an equals sign.
def Given (arguments : List Octets) (option value : String) : Prop :=
  ∃ name setting, Utf8.decode? name = some ("--" ++ option).toList ∧
    Utf8.decode? setting = some value.toList ∧
    ([name, setting] <:+: arguments ∨ name ++ equals :: setting ∈ arguments)

theorem Given.of_suffix {own arguments : List Octets} {option value : String}
    (given : Given own option value) (within : own <:+ arguments) : Given arguments option value := by
  obtain ⟨name, setting, named, set, adjacent | joined⟩ := given
  · exact ⟨name, setting, named, set, .inl (adjacent.trans within.isInfix)⟩
  · exact ⟨name, setting, named, set, .inr (within.subset joined)⟩

theorem decode?_long {name : Octets} {long : String} (named : Utf8.decode? name = some long.toList) :
    Utf8.decode? (hyphen :: hyphen :: name) = some ("--" ++ long).toList := by
  have ascii : hyphen.toNat < 0x80 := by decide
  rw [Utf8.decode?_ascii ascii, Utf8.decode?_ascii ascii, named, String.toList_append]
  rfl

theorem OptionSpec.IsGiven.long {δ : Type} {spec : OptionSpec δ} {arguments : List Octets}
    {value : Octets} {setting : String} (given : spec.IsGiven arguments value)
    (longOnly : spec.short = none) (set : Utf8.decode? value = some setting.toList) :
    Given arguments spec.long setting := by
  obtain ⟨argument, member, joined⟩ | ⟨argument, named, adjacent⟩ := given
  · cases joined with
    | long named => exact ⟨_, value, decode?_long named, set, .inr member⟩
    | short lettered => exact nomatch longOnly.symm.trans lettered
    | shortEquals lettered => exact nomatch longOnly.symm.trans lettered
  · cases named with
    | long named => exact ⟨_, value, decode?_long named, set, .inl adjacent⟩
    | short lettered => exact nomatch longOnly.symm.trans lettered

namespace RasterizeDraft

structure Admitted (arguments : List Octets) (draft : RasterizeDraft) : Prop where
  width : ∀ width, draft.width = some width → 1 ≤ width ∧ width ≤ 16
  height : ∀ height, draft.height = some height → 1 ≤ height ∧ height ≤ 255
  size : ∀ size, draft.size = some size → SizedFont.isRenderableSize size = true
  wrap : ∀ wrap, draft.wrap = some wrap → 0 < wrap
  element : draft.element = some .u8 → Given arguments "element" "u8"

variable {arguments : List Octets} {draft : RasterizeDraft} {change : RasterizeDraft → RasterizeDraft}

theorem no_flags {spec : OptionSpec RasterizeDraft} {mark : RasterizeDraft → RasterizeDraft}
    (member : spec ∈ command.options) : spec.effect ≠ .flag mark := by
  revert spec
  simp [command, options, commonOptions]

def bounded (draft : RasterizeDraft) :=
  (draft.width, draft.height, draft.size, draft.wrap, draft.element)

theorem Admitted.unaffected {α : Type} {reader : ValueReader α} {value : Octets}
    {store : α → RasterizeDraft → RasterizeDraft} (admitted : draft.Admitted arguments)
    (accepted : reader.into store value = .ok change)
    (same : ∀ setting, (store setting draft).bounded = draft.bounded) :
    (change draft).Admitted arguments := by
  obtain ⟨setting, -, rfl⟩ := ValueReader.into_eq_ok.mp accepted
  have unchanged := same setting
  simp only [bounded, Prod.mk.injEq] at unchanged
  obtain ⟨width, height, size, wrap, element⟩ := unchanged
  exact ⟨width ▸ admitted.width, height ▸ admitted.height, size ▸ admitted.size,
    wrap ▸ admitted.wrap, element ▸ admitted.element⟩

theorem Admitted.store_size (admitted : draft.Admitted arguments) {value : Octets}
    (accepted : storeSize value = .ok change) : (change draft).Admitted arguments := by
  obtain ⟨size, read, rfl⟩ := ValueReader.into_eq_ok.mp accepted
  refine { admitted with size := ?_ }
  rintro other ⟨⟩
  exact ValueReader.size_renderable read

theorem admitted_changes (changes : command.Changes arguments change)
    (admitted : draft.Admitted arguments) : (change draft).Admitted arguments := by
  cases changes with
  | flag member effect => exact absurd effect (no_flags member)
  | positional member => exact nomatch member
  | option member effect given accepted =>
      -- The options in their order, of which five have a bound.
      simp only [command, options, commonOptions, List.cons_append, List.nil_append, List.mem_cons,
        List.not_mem_nil, or_false] at member
      obtain rfl | rfl | rfl | rfl | rfl | rfl | rfl | rfl | rfl | rfl | rfl | rfl | rfl | rfl := member
        <;> cases effect
      · exact admitted.unaffected accepted fun _ => rfl
      · exact admitted.store_size accepted
      · exact admitted.unaffected accepted fun _ => rfl
      · exact admitted.unaffected accepted fun _ => rfl
      · obtain ⟨width, read, rfl⟩ := ValueReader.into_eq_ok.mp accepted
        refine { admitted with width := ?_ }
        rintro other ⟨⟩
        exact ValueReader.integer_bounds read
      · obtain ⟨height, read, rfl⟩ := ValueReader.into_eq_ok.mp accepted
        refine { admitted with height := ?_ }
        rintro other ⟨⟩
        exact ValueReader.integer_bounds read
      · exact admitted.unaffected accepted fun _ => rfl
      · obtain ⟨element, read, rfl⟩ := ValueReader.into_eq_ok.mp accepted
        refine { admitted with element := ?_ }
        rintro ⟨⟩
        obtain ⟨spelling, member, set⟩ := ValueReader.word_eq_ok read
        obtain rfl : spelling = "u8" := by simpa using member
        exact given.long rfl set
      · exact admitted.unaffected accepted fun _ => rfl
      · exact admitted.unaffected accepted fun _ => rfl
      · obtain ⟨wrap, read, rfl⟩ := ValueReader.into_eq_ok.mp accepted
        refine { admitted with wrap := ?_ }
        rintro other ⟨⟩
        exact ValueReader.positive_count_pos read
      · exact admitted.unaffected accepted fun _ => rfl

theorem from_variable_admitted {environment : Environment} {name label : String} {isGiven : Bool}
    {store : ValueReader (RasterizeDraft → RasterizeDraft)} {next : RasterizeDraft}
    (keeps : ∀ value change, store value = .ok change → (change draft).Admitted arguments)
    (admitted : draft.Admitted arguments)
    (read : draft.fromVariable environment name isGiven label store = .ok next) :
    next.Admitted arguments := by
  unfold fromVariable at read
  cases set : environment.get? name with
  | none =>
      rw [set] at read
      obtain rfl := Except.ok.inj read
      exact admitted
  | some value =>
      rw [set] at read
      dsimp only at read
      by_cases given : isGiven
      · rw [if_pos given] at read
        obtain rfl := Except.ok.inj read
        exact admitted
      · rw [if_neg given] at read
        obtain ⟨change, accepted, changed⟩ := bind_eq_ok_iff.mp read
        obtain rfl := Except.ok.inj changed
        exact keeps value change (read_for_eq_ok.mp accepted)

theorem with_environment_admitted {environment : Environment} {next : RasterizeDraft}
    (admitted : draft.Admitted arguments) (read : draft.withEnvironment environment = .ok next) :
    next.Admitted arguments := by
  obtain ⟨middle, font, size⟩ := bind_eq_ok_iff.mp read
  have kept : middle.Admitted arguments := from_variable_admitted
    (fun value change accepted => admitted.unaffected accepted fun _ => rfl) admitted font
  exact from_variable_admitted (fun value change accepted => kept.store_size accepted) kept size

theorem default_size_renderable : SizedFont.isRenderableSize defaultSize = true := by decide +kernel

theorem Admitted.format_within_bounds (admitted : draft.Admitted arguments) :
    draft.format.WithinBounds := by
  have width : 1 ≤ draft.width.getD 8 ∧ draft.width.getD 8 ≤ 16 := by
    cases given : draft.width with
    | none => decide
    | some width => exact admitted.width width given
  have height : 1 ≤ draft.height.getD 16 ∧ draft.height.getD 16 ≤ 255 := by
    cases given : draft.height with
    | none => decide
    | some height => exact admitted.height height given
  exact ⟨width.1, width.2, height.1, height.2, admitted.wrap⟩

theorem Admitted.size_renderable (admitted : draft.Admitted arguments) :
    SizedFont.isRenderableSize (draft.size.getD defaultSize) = true := by
  cases given : draft.size with
  | none =>
      rw [Option.getD_none]
      exact default_size_renderable
  | some size => exact admitted.size size given

theorem finish_within_bounds {environment : Environment} {request : RasterizeRequest}
    (admitted : draft.Admitted arguments) (finished : draft.finish environment = .ok request) :
    request.WithinBounds ∧
      (request.format.element = some .u8 → Given arguments "element" "u8") := by
  obtain ⟨whole, read, made⟩ := bind_eq_ok_iff.mp finished
  have admittedWhole := with_environment_admitted admitted read
  cases font : whole.font with
  | none =>
      rw [font] at made
      contradiction
  | some path =>
      rw [font] at made
      obtain rfl := Except.ok.inj made
      exact ⟨⟨admittedWhole.format_within_bounds, admittedWhole.size_renderable⟩, admittedWhole.element⟩

end RasterizeDraft

theorem read_program_run {environment : Environment} {progress : Progress Unit} {arguments : List Octets}
    {invocation : Invocation} (read : readProgram environment progress arguments = .ok invocation) :
    ∃ before front name own subcommand, arguments = front ++ name :: own ∧
      (∀ argument ∈ front, subcommand? argument = none ∧ argument ≠ endOfOptions) ∧
      subcommand? name = some subcommand ∧ front.foldlM program.argument progress = .ok before ∧
      readSubcommand environment before own subcommand = .ok invocation := by
  induction arguments generalizing progress with
  | nil => contradiction
  | cons argument rest ih =>
      rw [readProgram] at read
      by_cases positionals : progress.onlyPositionals
      · rw [if_pos positionals] at read
        contradiction
      rw [if_neg positionals] at read
      cases named : subcommand? argument with
      | some subcommand =>
          rw [named] at read
          exact ⟨progress, [], argument, rest, subcommand, rfl, by simp, named, rfl, read⟩
      | none =>
          rw [named] at read
          cases taken : program.option? progress argument with
          | none =>
              rw [taken] at read
              contradiction
          | some result =>
              rw [taken] at read
              cases result with
              | error error => contradiction
              | ok next =>
                  have other : argument ≠ endOfOptions := by
                    rintro rfl
                    obtain rfl : { progress with onlyPositionals := true } = next :=
                      Except.ok.inj (Option.some.inj taken)
                    cases rest <;> contradiction
                  have first : program.argument progress argument = .ok next := by
                    rw [Command.argument, if_neg positionals, taken]
                  obtain ⟨before, front, name, own, subcommand, rfl, options, isName, run, made⟩ := ih read
                  refine ⟨before, argument :: front, name, own, subcommand, rfl, ?_, isName, ?_, made⟩
                  · simpa [named, other] using options
                  · rw [List.foldlM_cons, first]
                    exact run

-- The arguments behind the subcommand are its own. With `--` before it there would be none.
theorem read_program_eq_ok {environment : Environment} {progress : Progress Unit}
    {arguments : List Octets} {invocation : Invocation}
    (read : readProgram environment progress arguments = .ok invocation) :
    ∃ before front own subcommand, arguments = front ++ own ∧ endOfOptions ∉ front ∧
      readSubcommand environment before own subcommand = .ok invocation := by
  obtain ⟨before, front, name, own, subcommand, rfl, options, isName, -, made⟩ := read_program_run read
  have unnamed : subcommand? endOfOptions = none := by decide +kernel
  refine ⟨before, front ++ [name], own, subcommand, by simp, ?_, made⟩
  intro ends
  rcases List.mem_append.mp ends with inFront | isLast
  · exact (options endOfOptions inFront).2 rfl
  · rw [List.mem_singleton.mp isLast, isName] at unnamed
    contradiction

theorem read_rasterize {environment : Environment} {arguments : List Octets} {level : Log.Level}
    {request : RasterizeRequest}
    (read : CommandLine.read environment arguments = .ok ⟨level, .rasterize request⟩) :
    ∃ own progress, own <:+ arguments ∧ RasterizeDraft.command.read {} own = .ok progress ∧
      progress.draft.finish environment = .ok request := by
  obtain ⟨before, front, own, subcommand, split, -, made⟩ := read_program_eq_ok read
  have within : own <:+ arguments := ⟨front, split.symm⟩
  cases subcommand with
  | help => contradiction
  | rasterize =>
      obtain ⟨progress, parsed, rest⟩ := bind_eq_ok_iff.mp made
      obtain ⟨finished, completed, same⟩ := bind_eq_ok_iff.mp rest
      cases same
      exact ⟨own, progress, within, parsed, completed⟩
  | blob =>
      obtain ⟨progress, parsed, rest⟩ := bind_eq_ok_iff.mp made
      obtain ⟨finished, completed, same⟩ := bind_eq_ok_iff.mp rest
      cases same
  | header =>
      obtain ⟨progress, parsed, rest⟩ := bind_eq_ok_iff.mp made
      obtain ⟨finished, completed, same⟩ := bind_eq_ok_iff.mp rest
      cases same

theorem read_within_bounds {environment : Environment} {arguments : List Octets} {level : Log.Level}
    {request : RasterizeRequest}
    (read : CommandLine.read environment arguments = .ok ⟨level, .rasterize request⟩) :
    request.WithinBounds ∧
      (request.format.element = some .u8 → Given arguments "element" "u8") := by
  obtain ⟨own, progress, within, parsed, finished⟩ := read_rasterize read
  have fresh : RasterizeDraft.Admitted own {} := ⟨nofun, nofun, nofun, nofun, nofun⟩
  have admitted := Command.read_keeps (fun _ changes _ => RasterizeDraft.admitted_changes changes)
    fresh parsed
  obtain ⟨bounds, element⟩ := RasterizeDraft.finish_within_bounds admitted finished
  exact ⟨bounds, fun narrow => (element narrow).of_suffix within⟩

end CommandLine
end Bitfont
