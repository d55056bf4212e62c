import Bitfont.Proofs.CommandLine.Arguments
import Bitfont.Proofs.CommandLine.Value

namespace Bitfont.CommandLine

variable {δ : Type}

def longArgument (name : String) : Option Octets → Octets
  | none => hyphen :: hyphen :: Utf8.encode name.toList
  | some value => hyphen :: hyphen :: (Utf8.encode name.toList ++ equals :: value)

def endOfOptions : Octets := [hyphen, hyphen]

namespace Command

structure Unambiguous (command : Command δ) : Prop where
  distinct : (command.options.map OptionSpec.long).Nodup
  named : ∀ name ∈ command.options.map OptionSpec.long, name ≠ ""
  noEquals : ∀ name ∈ command.options.map OptionSpec.long, equals ∉ Utf8.encode name.toList

inductive Spelled (command : Command δ) : List Octets → List String → (δ → δ) → Prop where
  | nothing : Spelled command [] [] id
  | flag {spec : OptionSpec δ} {mark later : δ → δ} {arguments : List Octets} {names : List String}
      (member : spec ∈ command.options) (effect : spec.effect = .flag mark)
      (rest : Spelled command arguments names later) :
      Spelled command (longArgument spec.long none :: arguments) (spec.long :: names) (later ∘ mark)
  | value {spec : OptionSpec δ} {store : ValueReader (δ → δ)} {value : Octets} {change later : δ → δ}
      {arguments : List Octets} {names : List String}
      (member : spec ∈ command.options) (effect : spec.effect = .value store)
      (accepted : store value = .ok change) (rest : Spelled command arguments names later) :
      Spelled command (longArgument spec.long (some value) :: arguments) (spec.long :: names)
        (later ∘ change)

section Named

variable {command : Command δ} {arguments : List Octets} {names : List String} {later : δ → δ}

theorem Spelled.of_eq {change : δ → δ} (spelled : Spelled command arguments names later)
    (same : later = change) : Spelled command arguments names change := same ▸ spelled

theorem Spelled.marked (rest : Spelled command arguments names later) (name : String) {mark : δ → δ}
    (named : command.options.find? (·.long = name) = some ⟨name, none, .flag mark⟩) :
    Spelled command (longArgument name none :: arguments) (name :: names) (later ∘ mark) :=
  .flag (List.mem_of_find?_eq_some named) rfl rest

theorem Spelled.stored {α : Type} {reader : ValueReader α} {store : α → δ → δ} {value : Octets}
    {setting : α} (rest : Spelled command arguments names later) (name : String)
    (named : command.options.find? (·.long = name) = some ⟨name, none, .value (reader.into store)⟩)
    (read : reader value = .ok setting) :
    Spelled command (longArgument name (some value) :: arguments) (name :: names)
      (later ∘ store setting) :=
  .value (List.mem_of_find?_eq_some named) rfl (ValueReader.into_eq_ok.mpr ⟨setting, read, rfl⟩) rest

end Named

end Command

inductive Filled : List (Positional δ) → List Octets → (δ → δ) → Prop where
  | nothing {specs : List (Positional δ)} : Filled specs [] id
  | value {spec : Positional δ} {specs : List (Positional δ)} {value : Octets} {values : List Octets}
      {change later : δ → δ} (accepted : spec.store value = .ok change)
      (rest : Filled specs values later) : Filled (spec :: specs) (value :: values) (later ∘ change)

section Filled

variable {specs : List (Positional δ)} {values : List Octets} {fill : δ → δ}

theorem Filled.of_eq {change : δ → δ} (filled : Filled specs values fill) (same : fill = change) :
    Filled specs values change := same ▸ filled

theorem Filled.stored {α : Type} {label : String} {reader : ValueReader α} {store : α → δ → δ}
    {value : Octets} {setting : α} (rest : Filled specs values fill)
    (read : reader value = .ok setting) :
    Filled (⟨label, reader.into store⟩ :: specs) (value :: values) (fill ∘ store setting) :=
  .value (ValueReader.into_eq_ok.mpr ⟨setting, read, rfl⟩) rest

end Filled

theorem split_equals_plain {name : Octets} (plain : equals ∉ name) :
    splitEquals name = (name, none) := by
  cases split : splitEquals name with
  | mk front value =>
      cases value with
      | none => rw [split_equals_alone split]
      | some value =>
          have inside : equals ∈ front ++ equals :: value := by simp
          exact absurd (split_equals_joined split ▸ inside) plain

theorem split_equals_value {name : Octets} (plain : equals ∉ name) (value : Octets) :
    splitEquals (name ++ equals :: value) = (name, some value) := by
  have before : ∀ byte ∈ name, decide (byte ≠ equals) = true := by
    intro byte member
    exact decide_eq_true (ne_of_mem_of_not_mem member plain)
  have stops : ∀ byte ∈ (equals :: value).head?, decide (byte ≠ equals) = false := by
    rintro byte ⟨⟩
    rfl
  rw [splitEquals, Text.drop_while_span before stops, Text.take_while_span before stops]

namespace Progress

structure Ready (progress : Progress δ) : Prop where
  pending : progress.pending = none
  options : progress.onlyPositionals = false

def after (progress : Progress δ) (names : List String) (change : δ → δ) : Progress δ :=
  { progress with given := progress.given ++ names, draft := change progress.draft }

variable {progress : Progress δ} {spec : OptionSpec δ}

theorem after_nothing : progress.after [] id = progress := by
  rw [after, List.append_nil]
  rfl

theorem after_after (first second : List String) (change later : δ → δ) :
    (progress.after first change).after second later =
      progress.after (first ++ second) (later ∘ change) := by
  rw [after, after, after, List.append_assoc]
  rfl

theorem Ready.after (ready : progress.Ready) (names : List String) (change : δ → δ) :
    (progress.after names change).Ready := ⟨ready.pending, ready.options⟩

theorem settle_of_none (nothing : progress.pending = none) : progress.settle = .ok progress := by
  rw [settle, nothing]
  exact congrArg Except.ok (by rw [← nothing])

theorem note_fresh (fresh : spec.long ∉ progress.given) :
    progress.note spec = .ok { progress with given := progress.given ++ [spec.long] } := by
  rw [note, if_neg fresh]

theorem react_flag {mark : δ → δ} (ready : progress.Ready) (fresh : spec.long ∉ progress.given)
    (effect : spec.effect = .flag mark) :
    progress.react spec none = .ok (progress.after [spec.long] mark) := by
  rw [react, settle_of_none ready.pending]
  change progress.apply spec none = _
  rw [apply, effect]
  dsimp only
  rw [note_fresh fresh]
  rfl

theorem react_value {store : ValueReader (δ → δ)} {value : Octets} {change : δ → δ}
    (ready : progress.Ready) (fresh : spec.long ∉ progress.given)
    (effect : spec.effect = .value store) (accepted : store value = .ok change) :
    progress.react spec (some value) = .ok (progress.after [spec.long] change) := by
  have read : readFor spec.label store value = .ok change := read_for_eq_ok.mpr accepted
  rw [react, settle_of_none ready.pending]
  change progress.apply spec (some value) = _
  rw [apply, effect]
  dsimp only
  rw [note_fresh fresh, read]
  rfl

end Progress

namespace Command

variable {command : Command δ} {progress : Progress δ} {spec : OptionSpec δ}

theorem argument_long (ready : progress.Ready) {text : Octets} (nonempty : text ≠ []) :
    command.argument progress (hyphen :: hyphen :: text) = command.longOption progress text := by
  cases text with
  | nil => exact absurd rfl nonempty
  | cons first rest =>
      rw [argument, ready.options, if_neg Bool.false_ne_true]
      rfl

theorem argument_end_of_options (ready : progress.Ready) :
    command.argument progress endOfOptions = .ok { progress with onlyPositionals := true } := by
  rw [argument, ready.options, if_neg Bool.false_ne_true]
  rfl

section Options

variable (unambiguous : command.Unambiguous) (member : spec ∈ command.options)

include unambiguous member

theorem long?_of_mem : command.long? (Utf8.encode spec.long.toList) = some spec :=
  find?_named OptionSpec.long unambiguous.distinct member

theorem name_nonempty : Utf8.encode spec.long.toList ≠ [] := by
  have named := unambiguous.named spec.long (List.mem_map_of_mem member)
  have nothing : Utf8.decode? [] = some "".toList := Utf8.decode?_encode []
  intro empty
  have decoded := Utf8.decode?_encode spec.long.toList
  rw [empty, nothing, Option.some_inj, String.toList_inj] at decoded
  exact named decoded.symm

theorem argument_flag {mark : δ → δ} (ready : progress.Ready) (fresh : spec.long ∉ progress.given)
    (effect : spec.effect = .flag mark) :
    command.argument progress (longArgument spec.long none) =
      .ok (progress.after [spec.long] mark) := by
  have plain := unambiguous.noEquals spec.long (List.mem_map_of_mem member)
  have alone : ¬ spec.takesValue = true := by
    rw [OptionSpec.takesValue, effect]
    exact Bool.false_ne_true
  rw [longArgument, argument_long ready (name_nonempty unambiguous member), longOption,
    split_equals_plain plain]
  dsimp only
  rw [long?_of_mem unambiguous member]
  dsimp only
  rw [if_neg alone]
  exact Progress.react_flag ready fresh effect

theorem argument_value {store : ValueReader (δ → δ)} {value : Octets} {change : δ → δ}
    (ready : progress.Ready) (fresh : spec.long ∉ progress.given)
    (effect : spec.effect = .value store) (accepted : store value = .ok change) :
    command.argument progress (longArgument spec.long (some value)) =
      .ok (progress.after [spec.long] change) := by
  have plain := unambiguous.noEquals spec.long (List.mem_map_of_mem member)
  have takes : spec.takesValue = true := by rw [OptionSpec.takesValue, effect]
  rw [longArgument, argument_long ready (List.append_ne_nil_of_right_ne_nil _ (List.cons_ne_nil _ _)),
    longOption, split_equals_value plain]
  dsimp only
  rw [long?_of_mem unambiguous member]
  dsimp only
  rw [if_pos takes]
  exact Progress.react_value ready fresh effect accepted

end Options

theorem fresh_after {first : String} {names : List String} (distinct : (first :: names).Nodup)
    (fresh : ∀ name ∈ first :: names, name ∉ progress.given) (change : δ → δ) :
    ∀ name ∈ names, name ∉ (progress.after [first] change).given := by
  intro name member again
  cases List.mem_append.mp again with
  | inl before => exact fresh name (List.mem_cons_of_mem first member) before
  | inr same =>
      obtain rfl := List.mem_singleton.mp same
      exact (List.nodup_cons.mp distinct).1 member

theorem foldl_spelled (unambiguous : command.Unambiguous) {arguments : List Octets}
    {names : List String} {change : δ → δ} (spelled : command.Spelled arguments names change)
    (distinct : names.Nodup) (ready : progress.Ready) (fresh : ∀ name ∈ names, name ∉ progress.given) :
    arguments.foldlM command.argument progress = .ok (progress.after names change) := by
  induction spelled generalizing progress with
  | nothing =>
      rw [Progress.after_nothing]
      rfl
  | @flag spec mark later arguments names member effect rest ih =>
      have first := fresh spec.long List.mem_cons_self
      have taken := argument_flag unambiguous member ready first effect
      have others := ih (List.nodup_cons.mp distinct).2 (ready.after [spec.long] mark)
        (fresh_after distinct fresh mark)
      rw [Progress.after_after] at others
      rw [List.foldlM_cons, taken]
      exact others
  | @value spec store value change later arguments names member effect accepted rest ih =>
      have first := fresh spec.long List.mem_cons_self
      have taken := argument_value unambiguous member ready first effect accepted
      have others := ih (List.nodup_cons.mp distinct).2 (ready.after [spec.long] change)
        (fresh_after distinct fresh change)
      rw [Progress.after_after] at others
      rw [List.foldlM_cons, taken]
      exact others

-- The value of the positional argument before is outstanding at each step, and at the end that of the
-- last one.
theorem foldl_filled {specs : List (Positional δ)} {values : List Octets} {change : δ → δ}
    (filled : Filled specs values change) {settled : Progress δ} (unfilled : progress.unfilled = specs)
    (only : progress.onlyPositionals = true) (settles : progress.settle = .ok settled)
    (keepsOnly : settled.onlyPositionals = true) :
    ∃ last, (values.foldlM command.argument progress >>= Progress.settle) = .ok last ∧
      last.draft = change settled.draft ∧ last.given = settled.given ∧
      last.verbosity = settled.verbosity := by
  induction filled generalizing progress settled with
  | nothing => exact ⟨settled, settles, rfl, rfl, rfl⟩
  | @value spec specs value values change later accepted rest ih =>
      let waiting : Progress δ :=
        { settled with pending := some (.positional spec value), unfilled := specs }
      let read : Progress δ :=
        { settled with pending := none, unfilled := specs, draft := change settled.draft }
      have first : command.argument progress value = .ok waiting := by
        rw [argument, if_pos only, Progress.positional, unfilled]
        dsimp only
        rw [settles]
        rfl
      have next : waiting.settle = .ok read := by
        change (readFor spec.label spec.store value >>= _) = _
        rw [read_for_eq_ok.mpr accepted]
        rfl
      have waitingUnfilled : waiting.unfilled = specs := rfl
      have readOnly : read.onlyPositionals = true := keepsOnly
      obtain ⟨last, folded, draft, given, verbosity⟩ := ih waitingUnfilled keepsOnly next readOnly
      refine ⟨last, ?_, draft, given, verbosity⟩
      rw [List.foldlM_cons, first]
      exact folded

theorem read_spelled (unambiguous : command.Unambiguous) {arguments values : List Octets}
    {names : List String} {change fill : δ → δ} (spelled : command.Spelled arguments names change)
    (distinct : names.Nodup) (filled : Filled command.positionals values fill) (draft : δ) :
    ∃ progress, command.read draft (arguments ++ endOfOptions :: values) = .ok progress ∧
      progress.draft = fill (change draft) ∧ progress.given = names ∧ progress.verbosity = none := by
  have ready : (Progress.start command draft).Ready := ⟨rfl, rfl⟩
  have options := foldl_spelled unambiguous spelled distinct ready fun _ _ => List.not_mem_nil
  let optionsRead := (Progress.start command draft).after names change
  let ended := { optionsRead with onlyPositionals := true }
  have ends : command.argument optionsRead endOfOptions = .ok ended :=
    argument_end_of_options (ready.after names change)
  have settles : ended.settle = .ok ended := Progress.settle_of_none rfl
  obtain ⟨last, folded, lastDraft, given, verbosity⟩ :=
    foldl_filled filled rfl rfl settles rfl
  refine ⟨last, ?_, lastDraft, given, verbosity⟩
  rw [read, List.foldlM_append, options]
  change ((endOfOptions :: values).foldlM command.argument optionsRead >>= Progress.settle) = .ok last
  rw [List.foldlM_cons, ends]
  exact folded

end Command

end Bitfont.CommandLine
