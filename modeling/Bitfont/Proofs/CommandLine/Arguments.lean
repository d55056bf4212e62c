import Mathlib.Data.List.Infix
import Bitfont.CommandLine.Arguments
import Bitfont.Proofs.Except

namespace Bitfont.CommandLine

variable {δ : Type}

inductive InCluster : (cluster : Octets) → (letter : Char) → (tail : Octets) → Prop where
  | here {lead : UInt8} {rest : Octets} {letter : Char} {tail : Octets}
      (read : Utf8.scalar lead rest = (some letter, tail)) : InCluster (lead :: rest) letter tail
  | later {lead : UInt8} {rest : Octets} {letter : Char} {tail : Octets}
      (inRest : InCluster (Utf8.scalar lead rest).2 letter tail) : InCluster (lead :: rest) letter tail

namespace OptionSpec

inductive IsNamed (spec : OptionSpec δ) : (argument : Octets) → Prop where
  | long {name : Octets} (named : Utf8.decode? name = some spec.long.toList) :
      IsNamed spec (hyphen :: hyphen :: name)
  | short {cluster : Octets} {letter : Char} (lettered : spec.short = some letter)
      (last : InCluster cluster letter []) : IsNamed spec (hyphen :: cluster)

inductive IsJoined (spec : OptionSpec δ) : (argument value : Octets) → Prop where
  | long {name value : Octets} (named : Utf8.decode? name = some spec.long.toList) :
      IsJoined spec (hyphen :: hyphen :: (name ++ equals :: value)) value
  | short {cluster value : Octets} {letter : Char} (lettered : spec.short = some letter)
      (tail : InCluster cluster letter value) : IsJoined spec (hyphen :: cluster) value
  | shortEquals {cluster value : Octets} {letter : Char} (lettered : spec.short = some letter)
      (tail : InCluster cluster letter (equals :: value)) : IsJoined spec (hyphen :: cluster) value

def IsGiven (spec : OptionSpec δ) (arguments : List Octets) (value : Octets) : Prop :=
  (∃ argument ∈ arguments, spec.IsJoined argument value) ∨
    ∃ argument, spec.IsNamed argument ∧ [argument, value] <:+: arguments

end OptionSpec

inductive Command.Changes (command : Command δ) (arguments : List Octets) : (δ → δ) → Prop where
  | flag {spec : OptionSpec δ} {mark : δ → δ} (member : spec ∈ command.options)
      (effect : spec.effect = .flag mark) : Changes command arguments mark
  | option {spec : OptionSpec δ} {store : ValueReader (δ → δ)} {value : Octets} {change : δ → δ}
      (member : spec ∈ command.options) (effect : spec.effect = .value store)
      (given : spec.IsGiven arguments value) (accepted : store value = .ok change) :
      Changes command arguments change
  | positional {spec : Positional δ} {value : Octets} {change : δ → δ}
      (member : spec ∈ command.positionals) (given : value ∈ arguments)
      (accepted : spec.store value = .ok change) : Changes command arguments change

theorem read_for_eq_ok {α : Type} {label : String} {reader : ValueReader α} {value : Octets}
    {result : α} : readFor label reader value = .ok result ↔ reader value = .ok result :=
  map_error_eq_ok_iff

theorem split_equals_joined {argument name value : Octets}
    (split : splitEquals argument = (name, some value)) : argument = name ++ equals :: value := by
  unfold splitEquals at split
  have whole := List.takeWhile_append_dropWhile (p := (· ≠ equals)) (l := argument)
  have first := List.head?_dropWhile_not (· ≠ equals) argument
  cases rest : argument.dropWhile (· ≠ equals) with
  | nil =>
      rw [rest] at split
      exact nomatch congrArg Prod.snd split
  | cons separator behind =>
      rw [rest] at split whole first
      obtain ⟨rfl, rfl⟩ : argument.takeWhile (· ≠ equals) = name ∧ behind = value := by
        simpa using split
      have isEquals : separator = equals := by simpa using first
      rw [isEquals] at whole
      exact whole.symm

theorem split_equals_alone {argument name : Octets} (split : splitEquals argument = (name, none)) :
    argument = name := by
  unfold splitEquals at split
  cases rest : argument.dropWhile (· ≠ equals) with
  | nil =>
      rw [rest] at split
      exact congrArg Prod.fst split
  | cons separator behind =>
      rw [rest] at split
      exact nomatch congrArg Prod.snd split

section Steps

variable {command : Command δ} {progress next : Progress δ} {spec : OptionSpec δ} {value : Option Octets}
  {argument : Octets}

namespace Progress

theorem note_eq_ok (noted : progress.note spec = .ok next) :
    next = { progress with given := progress.given ++ [spec.long] } := by
  unfold note at noted
  by_cases repeated : spec.long ∈ progress.given
  · rw [if_pos repeated] at noted
    contradiction
  · rw [if_neg repeated] at noted
    exact (Except.ok.inj noted).symm

theorem apply_eq_ok (applied : progress.apply spec value = .ok next) :
    (spec.effect = .verbosity ∧ next = progress.raise) ∨
    (∃ mark, spec.effect = .flag mark ∧
      next = { progress with draft := mark progress.draft, given := progress.given ++ [spec.long] }) ∨
    ∃ store octets change, spec.effect = .value store ∧ value = some octets ∧ store octets = .ok change ∧
      next = { progress with draft := change progress.draft, given := progress.given ++ [spec.long] } := by
  unfold apply at applied
  cases effect : spec.effect with
  | verbosity =>
      rw [effect] at applied
      exact .inl ⟨rfl, (Except.ok.inj applied).symm⟩
  | help =>
      rw [effect] at applied
      contradiction
  | flag mark =>
      rw [effect] at applied
      obtain ⟨noted, wasNoted, marked⟩ := bind_eq_ok_iff.mp applied
      rw [note_eq_ok wasNoted] at marked
      exact .inr (.inl ⟨mark, rfl, (Except.ok.inj marked).symm⟩)
  | value store =>
      rw [effect] at applied
      cases value with
      | none => contradiction
      | some octets =>
          obtain ⟨noted, wasNoted, stored⟩ := bind_eq_ok_iff.mp applied
          obtain ⟨change, accepted, changed⟩ := bind_eq_ok_iff.mp stored
          rw [note_eq_ok wasNoted] at changed
          exact .inr (.inr ⟨store, octets, change, rfl, rfl, read_for_eq_ok.mp accepted,
            (Except.ok.inj changed).symm⟩)

theorem settle_eq_ok (settled : progress.settle = .ok next) :
    (progress.pending = none ∧ next = { progress with pending := none }) ∨
    (∃ spec value, progress.pending = some (.option spec value) ∧
      Progress.apply { progress with pending := none } spec value = .ok next) ∨
    ∃ spec octets change, progress.pending = some (.positional spec octets) ∧ spec.store octets = .ok change ∧
      next = { progress with pending := none, draft := change progress.draft } := by
  unfold settle at settled
  cases pending : progress.pending with
  | none =>
      rw [pending] at settled
      exact .inl ⟨rfl, (Except.ok.inj settled).symm⟩
  | some waiting =>
      rw [pending] at settled
      cases waiting with
      | option spec value => exact .inr (.inl ⟨spec, value, rfl, settled⟩)
      | positional spec octets =>
          obtain ⟨change, accepted, changed⟩ := bind_eq_ok_iff.mp settled
          exact .inr (.inr ⟨spec, octets, change, rfl, read_for_eq_ok.mp accepted, (Except.ok.inj changed).symm⟩)

theorem react_eq_ok (reacted : progress.react spec value = .ok next) :
    ∃ clear, progress.settle = .ok clear ∧ clear.apply spec value = .ok next :=
  bind_eq_ok_iff.mp reacted

theorem await_eq_ok (awaited : progress.await spec = .ok next) :
    ∃ clear, progress.settle = .ok clear ∧ next = { clear with pending := some (.option spec none) } := by
  obtain ⟨clear, settled, waits⟩ := bind_eq_ok_iff.mp awaited
  exact ⟨clear, settled, (Except.ok.inj waits).symm⟩

theorem positional_eq_ok (taken : progress.positional argument = .ok next) :
    ∃ spec others clear, progress.unfilled = spec :: others ∧ progress.settle = .ok clear ∧
      next = { clear with pending := some (.positional spec argument), unfilled := others } := by
  unfold positional at taken
  cases unfilled : progress.unfilled with
  | nil =>
      rw [unfilled] at taken
      contradiction
  | cons spec others =>
      rw [unfilled] at taken
      obtain ⟨clear, settled, waits⟩ := bind_eq_ok_iff.mp taken
      exact ⟨spec, others, clear, rfl, settled, (Except.ok.inj waits).symm⟩

theorem awaiting_eq_some (awaited : progress.awaiting = some spec) :
    progress.pending = some (.option spec none) := by
  unfold awaiting at awaited
  split at awaited
  · next waiting =>
      rw [waiting, Option.some.inj awaited]
  · contradiction

end Progress

namespace Command

theorem long?_eq_some {name : Octets} (found : command.long? name = some spec) :
    spec ∈ command.options ∧ Utf8.decode? name = some spec.long.toList := by
  unfold long? at found
  have named := List.find?_some found
  exact ⟨List.mem_of_find?_eq_some found, (of_decide_eq_true named).symm⟩

theorem short?_eq_some {letter : Char} (found : command.short? letter = some spec) :
    spec ∈ command.options ∧ spec.short = some letter := by
  unfold short? at found
  have lettered := List.find?_some found
  exact ⟨List.mem_of_find?_eq_some found, of_decide_eq_true lettered⟩

theorem long_option_eq_ok {text : Octets} (taken : command.longOption progress text = .ok next) :
    ∃ spec ∈ command.options, ∃ name, Utf8.decode? name = some spec.long.toList ∧
      ((spec.takesValue = true ∧ text = name ∧ progress.await spec = .ok next) ∨
      (∃ octets, spec.takesValue = true ∧ text = name ++ equals :: octets ∧
        progress.react spec (some octets) = .ok next) ∨
      (spec.takesValue = false ∧ text = name ∧ progress.react spec none = .ok next)) := by
  unfold longOption at taken
  cases split : splitEquals text with
  | mk name value =>
      rw [split] at taken
      dsimp only at taken
      cases found : command.long? name with
      | none =>
          rw [found] at taken
          contradiction
      | some spec =>
          rw [found] at taken
          obtain ⟨member, named⟩ := long?_eq_some found
          refine ⟨spec, member, name, named, ?_⟩
          dsimp only at taken
          by_cases takes : spec.takesValue
          · rw [if_pos takes] at taken
            cases value with
            | none => exact .inl ⟨takes, split_equals_alone split, taken⟩
            | some octets => exact .inr (.inl ⟨octets, takes, split_equals_joined split, taken⟩)
          · rw [if_neg takes] at taken
            cases value with
            | none => exact .inr (.inr ⟨Bool.eq_false_iff.mpr takes, split_equals_alone split, taken⟩)
            | some octets => contradiction

theorem option?_eq_some {result : Except Error (Progress δ)}
    (found : command.option? progress argument = some result) :
    (argument = [hyphen, hyphen] ∧ result = .ok { progress with onlyPositionals := true }) ∨
    (∃ text, argument = hyphen :: hyphen :: text ∧ result = command.longOption progress text) ∨
    ∃ lead cluster, lead ≠ hyphen ∧ argument = hyphen :: lead :: cluster ∧
      result = command.shortOptions progress (lead :: cluster) := by
  match argument with
  | [] => contradiction
  | [single] => contradiction
  | first :: second :: text =>
      unfold option? at found
      dsimp only at found
      by_cases isFirst : first = hyphen
      · by_cases isSecond : second = hyphen
        · subst isFirst isSecond
          rw [if_pos rfl, if_pos rfl] at found
          cases text with
          | nil => exact .inl ⟨rfl, (Option.some.inj found).symm⟩
          | cons character text => exact .inr (.inl ⟨_, rfl, (Option.some.inj found).symm⟩)
        · rw [if_pos isFirst, if_neg isSecond] at found
          exact .inr (.inr ⟨_, _, isSecond, by rw [isFirst], (Option.some.inj found).symm⟩)
      · rw [if_neg isFirst] at found
        contradiction

theorem value_eq_ok (taken : Command.value progress argument = .ok next) :
    (∃ spec, progress.pending = some (.option spec none) ∧
      next = { progress with pending := some (.option spec (some argument)) }) ∨
    progress.positional argument = .ok next := by
  unfold Command.value at taken
  cases awaited : progress.awaiting with
  | none =>
      rw [awaited] at taken
      exact .inr taken
  | some spec =>
      rw [awaited] at taken
      exact .inl ⟨spec, Progress.awaiting_eq_some awaited, (Except.ok.inj taken).symm⟩

end Command

end Steps

section Run

variable {command : Command δ} {arguments rest : List Octets} {keeps : δ → Prop}
  {progress next : Progress δ} {spec : OptionSpec δ} {value : Option Octets} {argument : Octets}

namespace Progress

-- The values still to be read are those that the arguments give. An option that waits for its value
-- is the argument before those that are left.
def PendingSound (command : Command δ) (arguments rest : List Octets) (progress : Progress δ) : Prop :=
  match progress.pending with
  | none => True
  | some (.option spec none) => spec ∈ command.options ∧ (progress.onlyPositionals = false →
      ∃ argument, spec.IsNamed argument ∧ argument :: rest <:+ arguments)
  | some (.option spec (some value)) => spec ∈ command.options ∧ spec.IsGiven arguments value
  | some (.positional spec value) => spec ∈ command.positionals ∧ value ∈ arguments

structure Sound (command : Command δ) (arguments : List Octets) (keeps : δ → Prop)
    (rest : List Octets) (progress : Progress δ) : Prop where
  draft : keeps progress.draft
  unfilled : ∀ spec ∈ progress.unfilled, spec ∈ command.positionals
  pending : progress.PendingSound command arguments rest

structure Settled (command : Command δ) (keeps : δ → Prop) (progress : Progress δ) : Prop where
  draft : keeps progress.draft
  unfilled : ∀ spec ∈ progress.unfilled, spec ∈ command.positionals
  pending : progress.pending = none

theorem Settled.sound (settled : progress.Settled command keeps) (rest : List Octets) :
    progress.Sound command arguments keeps rest := by
  refine ⟨settled.draft, settled.unfilled, ?_⟩
  rw [PendingSound, settled.pending]
  trivial

theorem Sound.only_positionals {before : List Octets}
    (sound : progress.Sound command arguments keeps before) :
    Sound command arguments keeps rest { progress with onlyPositionals := true } := by
  refine ⟨sound.draft, sound.unfilled, ?_⟩
  have pendingSound := sound.pending
  unfold PendingSound at pendingSound ⊢
  dsimp only
  cases pending : progress.pending with
  | none => trivial
  | some waiting =>
      rw [pending] at pendingSound
      cases waiting with
      | positional spec octets => exact pendingSound
      | option spec value =>
          cases value with
          | some octets => exact pendingSound
          | none => exact ⟨pendingSound.1, fun impossible => Bool.noConfusion impossible⟩

variable (keepsChanges : ∀ change, command.Changes arguments change →
  ∀ draft, keeps draft → keeps (change draft))

include keepsChanges

theorem Settled.change {change : δ → δ} (settled : progress.Settled command keeps)
    (changes : command.Changes arguments change) :
    Settled command keeps { progress with draft := change progress.draft } :=
  ⟨keepsChanges change changes _ settled.draft, settled.unfilled, settled.pending⟩

theorem Settled.apply (settled : progress.Settled command keeps) (member : spec ∈ command.options)
    (given : ∀ octets, value = some octets → spec.IsGiven arguments octets)
    (applied : progress.apply spec value = .ok next) : next.Settled command keeps := by
  obtain ⟨-, rfl⟩ | ⟨mark, effect, rfl⟩ | ⟨store, octets, change, effect, isValue, accepted, rfl⟩ :=
    apply_eq_ok applied
  · exact ⟨settled.draft, settled.unfilled, settled.pending⟩
  · have marked := settled.change keepsChanges (.flag member effect)
    exact ⟨marked.draft, settled.unfilled, settled.pending⟩
  · have changed := settled.change keepsChanges (.option member effect (given octets isValue) accepted)
    exact ⟨changed.draft, settled.unfilled, settled.pending⟩

theorem Sound.settle (sound : progress.Sound command arguments keeps rest)
    (settled : progress.settle = .ok next) : next.Settled command keeps := by
  have pendingSound := sound.pending
  unfold PendingSound at pendingSound
  have cleared : Settled command keeps { progress with pending := none } := ⟨sound.draft, sound.unfilled, rfl⟩
  obtain ⟨-, rfl⟩ | ⟨spec, value, pending, applied⟩ | ⟨spec, octets, change, pending, accepted, rfl⟩ :=
    settle_eq_ok settled
  · exact cleared
  · rw [pending] at pendingSound
    cases value with
    | none => exact cleared.apply keepsChanges pendingSound.1 (by simp) applied
    | some octets =>
        refine cleared.apply keepsChanges pendingSound.1 ?_ applied
        intro other given
        exact Option.some.inj given ▸ pendingSound.2
  · rw [pending] at pendingSound
    exact cleared.change keepsChanges (.positional pendingSound.1 pendingSound.2 accepted)

theorem Sound.react (sound : progress.Sound command arguments keeps rest)
    (member : spec ∈ command.options)
    (given : ∀ octets, value = some octets → spec.IsGiven arguments octets)
    (reacted : progress.react spec value = .ok next) : next.Settled command keeps := by
  obtain ⟨clear, settled, applied⟩ := react_eq_ok reacted
  exact (sound.settle keepsChanges settled).apply keepsChanges member given applied

theorem Sound.await {before : List Octets} (sound : progress.Sound command arguments keeps before)
    (member : spec ∈ command.options) (named : spec.IsNamed argument)
    (here : argument :: rest <:+ arguments) (awaited : progress.await spec = .ok next) :
    next.Sound command arguments keeps rest := by
  obtain ⟨clear, settled, rfl⟩ := await_eq_ok awaited
  have ready := sound.settle keepsChanges settled
  exact ⟨ready.draft, ready.unfilled, member, fun _ => ⟨argument, named, here⟩⟩

theorem Sound.positional {before : List Octets}
    (sound : progress.Sound command arguments keeps before) (member : argument ∈ arguments)
    (taken : progress.positional argument = .ok next) : next.Sound command arguments keeps rest := by
  obtain ⟨spec, others, clear, unfilled, settled, rfl⟩ := positional_eq_ok taken
  have ready := sound.settle keepsChanges settled
  have specs := unfilled ▸ sound.unfilled
  exact ⟨ready.draft, fun other inside => specs other (List.mem_cons_of_mem _ inside),
    specs spec List.mem_cons_self, member⟩

end Progress

namespace Command

open Progress (Sound Settled)

variable (keepsChanges : ∀ change, command.Changes arguments change →
  ∀ draft, keeps draft → keeps (change draft))

include keepsChanges

theorem long_option_sound {before : List Octets} {text : Octets}
    (sound : progress.Sound command arguments keeps before)
    (here : (hyphen :: hyphen :: text) :: rest <:+ arguments)
    (taken : command.longOption progress text = .ok next) :
    next.Sound command arguments keeps rest := by
  have inside : hyphen :: hyphen :: text ∈ arguments := here.subset List.mem_cons_self
  obtain ⟨spec, member, name, named, ⟨-, rfl, awaited⟩ | ⟨octets, -, rfl, reacted⟩ | ⟨-, rfl, reacted⟩⟩ :=
    long_option_eq_ok taken
  · exact sound.await keepsChanges member (.long named) here awaited
  · refine (sound.react keepsChanges member ?_ reacted).sound rest
    intro other given
    obtain rfl := Option.some.inj given
    exact .inl ⟨_, inside, .long named⟩
  · exact (sound.react keepsChanges member (by simp) reacted).sound rest

-- By the recursion along the cluster: after its first letter nothing is left to be read, until a
-- letter that takes the rest of the cluster or waits for the next argument.
theorem short_options_sound {before : List Octets} {whole cluster : Octets}
    (sound : progress.Sound command arguments keeps before)
    (ended : cluster = [] → progress.Settled command keeps)
    (here : (hyphen :: whole) :: rest <:+ arguments)
    (part : ∀ letter tail, InCluster cluster letter tail → InCluster whole letter tail)
    (taken : command.shortOptions progress cluster = .ok next) :
    next.Sound command arguments keeps rest := by
  have inside : hyphen :: whole ∈ arguments := here.subset List.mem_cons_self
  fun_induction shortOptions command progress cluster generalizing before with
  | case1 progress =>
      obtain rfl := Except.ok.inj taken
      exact (ended rfl).sound rest
  | case2 => contradiction
  | case3 => contradiction
  | case4 progress lead tail letter read spec found takes last =>
      obtain ⟨member, lettered⟩ := short?_eq_some found
      have final := part letter [] (.here (Prod.ext read last))
      exact sound.await keepsChanges member (.short lettered final) here taken
  | case5 progress lead tail letter read spec found takes first value behind =>
      obtain ⟨member, lettered⟩ := short?_eq_some found
      have rest := part letter (first :: value) (.here (Prod.ext read behind))
      refine (sound.react keepsChanges member ?_ taken).sound _
      intro octets given
      obtain rfl := Option.some.inj given
      by_cases isEquals : first = equals
      · rw [if_pos isEquals]
        exact .inl ⟨_, inside, .shortEquals lettered (isEquals ▸ rest)⟩
      · rw [if_neg isEquals]
        exact .inl ⟨_, inside, .short lettered rest⟩
  | case6 => contradiction
  | case7 progress lead tail letter read spec found takes middle reacted ih =>
      have settled := sound.react keepsChanges (short?_eq_some found).1 (by simp) reacted
      refine ih (settled.sound rest) (fun _ => settled) ?_ taken
      intro other behind later
      exact part other behind (.later later)

theorem value_sound (sound : progress.Sound command arguments keeps (argument :: rest))
    (here : argument :: rest <:+ arguments) (options : progress.onlyPositionals = false)
    (taken : Command.value progress argument = .ok next) :
    next.Sound command arguments keeps rest := by
  obtain ⟨spec, pending, rfl⟩ | positional := value_eq_ok taken
  · have pendingSound := sound.pending
    rw [Progress.PendingSound, pending] at pendingSound
    obtain ⟨member, waits⟩ := pendingSound
    obtain ⟨name, named, before, whole⟩ := waits options
    refine ⟨sound.draft, sound.unfilled, member, .inr ⟨name, named, before, rest, ?_⟩⟩
    rw [← whole, List.append_assoc]
    rfl
  · exact sound.positional keepsChanges (here.subset List.mem_cons_self) positional

theorem argument_sound (sound : progress.Sound command arguments keeps (argument :: rest))
    (here : argument :: rest <:+ arguments) (taken : command.argument progress argument = .ok next) :
    next.Sound command arguments keeps rest := by
  unfold Command.argument at taken
  by_cases positionals : progress.onlyPositionals
  · rw [if_pos positionals] at taken
    exact sound.positional keepsChanges (here.subset List.mem_cons_self) taken
  rw [if_neg positionals] at taken
  cases looks : command.option? progress argument with
  | none =>
      rw [looks] at taken
      exact value_sound keepsChanges sound here (Bool.eq_false_iff.mpr positionals) taken
  | some result =>
      rw [looks] at taken
      obtain rfl : result = .ok next := taken
      obtain ⟨-, ended⟩ | ⟨text, rfl, long⟩ | ⟨lead, cluster, -, rfl, short⟩ := option?_eq_some looks
      · obtain rfl := Except.ok.inj ended
        exact sound.only_positionals
      · exact long_option_sound keepsChanges sound here long.symm
      · exact short_options_sound keepsChanges sound (fun empty => absurd empty (List.cons_ne_nil _ _)) here
          (fun _ _ part => part) short.symm

theorem foldl_argument_sound (sound : progress.Sound command arguments keeps rest)
    (here : rest <:+ arguments) (taken : rest.foldlM command.argument progress = .ok next) :
    next.Sound command arguments keeps [] := by
  induction rest generalizing progress with
  | nil =>
      obtain rfl := Except.ok.inj taken
      exact sound
  | cons argument rest ih =>
      rw [List.foldlM_cons] at taken
      obtain ⟨middle, first, others⟩ := bind_eq_ok_iff.mp taken
      exact ih (argument_sound keepsChanges sound here first)
        ((List.suffix_cons argument rest).trans here) others

theorem read_keeps {draft : δ} (start : keeps draft)
    (read : command.read draft arguments = .ok progress) : keeps progress.draft := by
  obtain ⟨last, folded, settled⟩ := bind_eq_ok_iff.mp read
  have fresh : Sound command arguments keeps arguments (Progress.start command draft) :=
    ⟨start, fun _ member => member, trivial⟩
  have sound := foldl_argument_sound keepsChanges fresh List.suffix_rfl folded
  exact (sound.settle keepsChanges settled).draft

end Command

end Run

end Bitfont.CommandLine
