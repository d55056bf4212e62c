import Mathlib.Algebra.GroupWithZero.Nat
import Bitfont.Proofs.CommandLine.RasterizeDraft

namespace Bitfont.CommandLine

variable {δ : Type}

def verboseLetter : UInt8 := 0x76

-- In a cluster of short options no letter stands before a `v`, except one that takes the `v` as its value.
def clusterOccurrences (cluster : Octets) : Nat := (cluster.takeWhile (· = verboseLetter)).length

def argumentOccurrences : Octets → Nat
  | [] => 0
  | first :: rest =>
      if first :: rest = longArgument "verbose" none then 1
      else if first = hyphen then clusterOccurrences rest
      else 0

def occurrences (arguments : List Octets) : Nat := ((beforeEnd arguments).map argumentOccurrences).sum

def raised (times : Nat) (count : Option Nat) : Option Nat :=
  if times = 0 then count else some (min (count.getD 0 + times) 255)

theorem raised_raised (first later : Nat) (count : Option Nat) :
    raised later (raised first count) = raised (first + later) count := by
  by_cases none : first = 0
  · simp [raised, none]
  · by_cases noMore : later = 0
    · simp [raised, noMore]
    · have some : first + later ≠ 0 := by omega
      simp only [raised, none, noMore, some, if_false, Option.getD_some, Option.some_inj]
      omega

theorem occurrences_cons {argument : Octets} (other : argument ≠ endOfOptions) (rest : List Octets) :
    occurrences (argument :: rest) = argumentOccurrences argument + occurrences rest := by
  simp [occurrences, beforeEnd, other]

theorem occurrences_append {front : List Octets} (noEnd : endOfOptions ∉ front) (rest : List Octets) :
    occurrences (front ++ rest) = occurrences front + occurrences rest := by
  have whole : beforeEnd front = front := by simpa [beforeEnd] using before_end_append noEnd []
  rw [occurrences, before_end_append noEnd, List.map_append, List.sum_append, occurrences, occurrences, whole]

theorem cluster_occurrences_cons (lead : UInt8) (rest : Octets) : clusterOccurrences (lead :: rest) =
    if lead = verboseLetter then clusterOccurrences rest + 1 else 0 := by
  by_cases same : lead = verboseLetter
  · simp [clusterOccurrences, same]
  · simp [clusterOccurrences, same]

theorem argument_occurrences_cluster {cluster : Octets} (short : cluster.head? ≠ some hyphen) :
    argumentOccurrences (hyphen :: cluster) = clusterOccurrences cluster := by
  have notLong : hyphen :: cluster ≠ longArgument "verbose" none := by
    intro same
    rw [longArgument, List.cons.injEq] at same
    simp [same.2] at short
  simp [argumentOccurrences, notLong]

theorem argument_occurrences_long (name : Octets) : argumentOccurrences (hyphen :: hyphen :: name) =
    if name = Utf8.encode "verbose".toList then 1 else 0 := by
  have noLetter : clusterOccurrences (hyphen :: name) = 0 := by
    rw [cluster_occurrences_cons, if_neg (by decide)]
  have same : hyphen :: hyphen :: name = longArgument "verbose" none ↔ name = Utf8.encode "verbose".toList := by
    rw [longArgument, List.cons_inj_right, List.cons_inj_right]
  simp only [argumentOccurrences, same, noLetter, if_true]

namespace OptionSpec

def raises (spec : OptionSpec δ) : Nat :=
  match spec.effect with
  | .verbosity => 1
  | _ => 0

theorem raises_of_ne {spec : OptionSpec δ} (quiet : spec.effect ≠ .verbosity) : spec.raises = 0 := by
  unfold raises
  split
  · contradiction
  · rfl

theorem raises_of_takes_value {spec : OptionSpec δ} (takes : spec.takesValue = true) : spec.raises = 0 := by
  apply raises_of_ne
  intro effect
  simp [takesValue, effect] at takes

-- The option for more messages has these names, and no other option has one of them. Except for the help, which
-- ends the reading, it is the only option of one letter without a value.
inductive Counted (spec : OptionSpec δ) : Prop where
  | verbose (long : spec.long = "verbose") (short : spec.short = some 'v') (effect : spec.effect = .verbosity)
  | help (effect : spec.effect = .help)
  | other (long : spec.long ≠ "verbose") (short : spec.short ≠ some 'v') (quiet : spec.effect ≠ .verbosity)
      (alone : spec.takesValue = false → spec.short = none)

end OptionSpec

variable {command : Command δ} {progress middle next : Progress δ} {spec : OptionSpec δ}

namespace Progress

def Waits (progress : Progress δ) : Prop :=
  ∀ spec value, progress.pending = some (.option spec value) → spec.takesValue = true

structure Raised (times : Nat) (progress next : Progress δ) : Prop where
  verbosity : next.verbosity = raised times progress.verbosity
  options : next.onlyPositionals = progress.onlyPositionals
  waits : next.Waits

theorem Raised.trans {first later : Nat} (before : progress.Raised first middle) (after : middle.Raised later next) :
    progress.Raised (first + later) next where
  verbosity := by rw [after.verbosity, before.verbosity, raised_raised]
  options := after.options.trans before.options
  waits := after.waits

theorem waits_of_none (nothing : progress.pending = none) : progress.Waits := by
  intro spec value waiting
  rw [nothing] at waiting
  contradiction

theorem apply_raised {value : Option Octets} (waits : progress.Waits)
    (applied : progress.apply spec value = .ok next) : progress.Raised spec.raises next := by
  obtain ⟨effect, rfl⟩ | ⟨mark, effect, rfl⟩ | ⟨store, octets, change, effect, -, -, rfl⟩ := apply_eq_ok applied
  · have once : spec.raises = 1 := by rw [OptionSpec.raises, effect]
    rw [once]
    exact ⟨rfl, rfl, waits⟩
  · rw [OptionSpec.raises_of_ne (by simp [effect])]
    exact ⟨rfl, rfl, waits⟩
  · rw [OptionSpec.raises_of_ne (by simp [effect])]
    exact ⟨rfl, rfl, waits⟩

theorem settle_raised (waits : progress.Waits) (settled : progress.settle = .ok next) : progress.Raised 0 next := by
  obtain ⟨-, rfl⟩ | ⟨spec, value, pending, applied⟩ | ⟨spec, octets, change, -, -, rfl⟩ := settle_eq_ok settled
  · exact ⟨rfl, rfl, waits_of_none rfl⟩
  · have after := apply_raised (waits_of_none rfl) applied
    rw [OptionSpec.raises_of_takes_value (waits spec value pending)] at after
    exact ⟨after.verbosity, after.options, after.waits⟩
  · exact ⟨rfl, rfl, waits_of_none rfl⟩

theorem react_raised {value : Option Octets} (waits : progress.Waits)
    (reacted : progress.react spec value = .ok next) : progress.Raised spec.raises next := by
  obtain ⟨clear, settled, applied⟩ := react_eq_ok reacted
  have before := settle_raised waits settled
  simpa using before.trans (apply_raised before.waits applied)

theorem await_raised (waits : progress.Waits) (takes : spec.takesValue = true)
    (awaited : progress.await spec = .ok next) : progress.Raised 0 next := by
  obtain ⟨clear, settled, rfl⟩ := await_eq_ok awaited
  have before := settle_raised waits settled
  refine ⟨before.verbosity, before.options, ?_⟩
  rintro other value ⟨⟩
  exact takes

theorem positional_raised {argument : Octets} (waits : progress.Waits)
    (taken : progress.positional argument = .ok next) : progress.Raised 0 next := by
  obtain ⟨spec, others, clear, -, settled, rfl⟩ := positional_eq_ok taken
  have before := settle_raised waits settled
  exact ⟨before.verbosity, before.options, nofun⟩

theorem react_effect {value : Option Octets} (reacted : progress.react spec value = .ok next) :
    spec.effect ≠ .help := by
  intro effect
  obtain ⟨clear, -, applied⟩ := react_eq_ok reacted
  simp [Progress.apply, effect] at applied

end Progress

theorem OptionSpec.Counted.of_alone (counted : spec.Counted) (alone : spec.takesValue = false)
    (lettered : spec.short ≠ none) (effect : spec.effect ≠ .help) :
    spec.short = some 'v' ∧ spec.raises = 1 := by
  cases counted with
  | verbose long short verbosity => exact ⟨short, by rw [raises, verbosity]⟩
  | help isHelp => exact absurd isHelp effect
  | other long short quiet unlettered => exact absurd (unlettered alone) lettered

theorem OptionSpec.Counted.raises_eq (counted : spec.Counted) (effect : spec.effect ≠ .help) :
    spec.raises = if spec.long = "verbose" then 1 else 0 := by
  cases counted with
  | verbose long short verbosity => rw [raises, verbosity, if_pos long]
  | help isHelp => exact absurd isHelp effect
  | other long short quiet alone => rw [raises_of_ne quiet, if_neg long]

theorem OptionSpec.effect_ne_help (takes : spec.takesValue = true) : spec.effect ≠ .help := by
  intro effect
  simp [takesValue, effect] at takes

theorem OptionSpec.Counted.short_ne (counted : spec.Counted) (takes : spec.takesValue = true) :
    spec.short ≠ some 'v' := by
  cases counted with
  | verbose long short effect => simp [takesValue, effect] at takes
  | help effect => simp [takesValue, effect] at takes
  | other long short quiet alone => exact short

namespace Command

theorem eq_verbose_iff {name : Octets} (named : Utf8.decode? name = some spec.long.toList) :
    name = Utf8.encode "verbose".toList ↔ spec.long = "verbose" := by
  constructor
  · intro isVerbose
    rw [isVerbose, Utf8.decode?_encode, Option.some_inj, String.toList_inj] at named
    exact named.symm
  · intro isVerbose
    have ascii : ∀ c ∈ "verbose".toList, 0 < c.toNat ∧ c.toNat ≤ 127 := by simp
    rw [isVerbose] at named
    exact Utf8.eq_encode_of_decode? ascii named

theorem argument_occurrences_named {name : Octets} (counted : spec.Counted) (effect : spec.effect ≠ .help)
    (named : Utf8.decode? name = some spec.long.toList) :
    argumentOccurrences (hyphen :: hyphen :: name) = spec.raises := by
  simp only [argument_occurrences_long, counted.raises_eq effect, eq_verbose_iff named]

section Counted

variable (counted : ∀ spec ∈ command.options, spec.Counted)

include counted

theorem long_option_raised {text : Octets} (waits : progress.Waits)
    (taken : command.longOption progress text = .ok next) :
    progress.Raised (argumentOccurrences (hyphen :: hyphen :: text)) next := by
  obtain ⟨spec, member, name, named, ⟨takes, rfl, awaited⟩ | ⟨octets, takes, rfl, reacted⟩ | ⟨-, rfl, reacted⟩⟩ :=
    long_option_eq_ok taken
  · rw [argument_occurrences_named (counted spec member) (spec.effect_ne_help takes) named,
      spec.raises_of_takes_value takes]
    exact Progress.await_raised waits takes awaited
  · have joined : name ++ equals :: octets ≠ Utf8.encode "verbose".toList := by
      intro same
      have separator : equals ∈ name ++ equals :: octets := by simp
      rw [same] at separator
      exact absurd separator (by decide)
    rw [argument_occurrences_long, if_neg joined, ← OptionSpec.raises_of_takes_value takes]
    exact Progress.react_raised waits reacted
  · rw [argument_occurrences_named (counted spec member) (Progress.react_effect reacted) named]
    exact Progress.react_raised waits reacted

omit counted in
theorem letter_eq_iff {lead : UInt8} {rest : Octets} {letter : Char}
    (read : (Utf8.scalar lead rest).1 = some letter) : letter = 'v' ↔ lead = verboseLetter := by
  have own := (@Utf8.scalar_ascii verboseLetter (by decide) (by decide) lead rest).1
  rw [read, Option.some_inj] at own
  exact own

theorem short_options_raised {cluster : Octets} (waits : progress.Waits)
    (taken : command.shortOptions progress cluster = .ok next) :
    progress.Raised (clusterOccurrences cluster) next := by
  fun_induction shortOptions command progress cluster with
  | case1 progress =>
      obtain rfl := Except.ok.inj taken
      exact ⟨rfl, rfl, waits⟩
  | case2 => contradiction
  | case3 => contradiction
  | case4 progress lead tail letter read spec found takes last =>
      obtain ⟨member, lettered⟩ := short?_eq_some found
      have noVerbose := (counted spec member).short_ne takes
      rw [lettered, ne_eq, Option.some_inj, letter_eq_iff read] at noVerbose
      rw [cluster_occurrences_cons, if_neg noVerbose]
      exact Progress.await_raised waits takes taken
  | case5 progress lead tail letter read spec found takes first value behind =>
      obtain ⟨member, lettered⟩ := short?_eq_some found
      have noVerbose := (counted spec member).short_ne takes
      rw [lettered, ne_eq, Option.some_inj, letter_eq_iff read] at noVerbose
      rw [cluster_occurrences_cons, if_neg noVerbose, ← OptionSpec.raises_of_takes_value takes]
      exact Progress.react_raised waits taken
  | case6 => contradiction
  | case7 progress lead tail letter read spec found takes middle reacted ih =>
      obtain ⟨member, lettered⟩ := short?_eq_some found
      obtain ⟨short, once⟩ := (counted spec member).of_alone (by simpa using takes) (by simp [lettered])
        (Progress.react_effect reacted)
      have isLetter : lead = verboseLetter := by
        rw [← letter_eq_iff read, ← Option.some_inj, ← lettered, short]
      subst isLetter
      have oneByte : (Utf8.scalar verboseLetter tail).2 = tail := rfl
      have first := Progress.react_raised waits reacted
      have rest := ih first.waits taken
      rw [oneByte] at rest
      rw [cluster_occurrences_cons, if_pos rfl, Nat.add_comm, ← once]
      exact first.trans rest

omit counted in
theorem argument_occurrences_of_option? {argument : Octets} (looks : command.option? progress argument = none) :
    argumentOccurrences argument = 0 := by
  match argument with
  | [] => rfl
  | [single] =>
      by_cases isHyphen : single = hyphen
      · subst isHyphen
        rfl
      · simp [argumentOccurrences, longArgument, isHyphen]
  | first :: second :: text =>
      have notHyphen : first ≠ hyphen := by
        intro isHyphen
        by_cases isSecond : second = hyphen
        · by_cases atEnd : text.isEmpty <;> simp [option?, isHyphen, isSecond, atEnd] at looks
        · simp [option?, isHyphen, isSecond] at looks
      simp [argumentOccurrences, longArgument, notHyphen]

omit counted in
theorem value_raised {argument : Octets} (waits : progress.Waits)
    (taken : Command.value progress argument = .ok next) : progress.Raised 0 next := by
  obtain ⟨spec, pending, rfl⟩ | positional := value_eq_ok taken
  · have takes := waits spec none pending
    refine ⟨rfl, rfl, ?_⟩
    rintro other value ⟨⟩
    exact takes
  · exact Progress.positional_raised waits positional

theorem argument_raised {argument : Octets} (waits : progress.Waits) (options : progress.onlyPositionals = false)
    (other : argument ≠ endOfOptions) (taken : command.argument progress argument = .ok next) :
    progress.Raised (argumentOccurrences argument) next := by
  rw [Command.argument, options, if_neg Bool.false_ne_true] at taken
  cases looks : command.option? progress argument with
  | none =>
      rw [looks] at taken
      rw [argument_occurrences_of_option? looks]
      exact value_raised waits taken
  | some result =>
      rw [looks] at taken
      obtain rfl : result = .ok next := taken
      obtain ⟨isEnd, -⟩ | ⟨text, rfl, long⟩ | ⟨lead, cluster, notLong, rfl, short⟩ := option?_eq_some looks
      · exact absurd isEnd other
      · exact long_option_raised counted waits long.symm
      · rw [argument_occurrences_cluster (by simpa using notLong)]
        exact short_options_raised counted waits short.symm

omit counted in
theorem foldl_positionals_raised {arguments : List Octets} (only : progress.onlyPositionals = true)
    (waits : progress.Waits) (taken : arguments.foldlM command.argument progress = .ok next) :
    next.verbosity = raised 0 progress.verbosity ∧ next.Waits := by
  induction arguments generalizing progress with
  | nil =>
      obtain rfl := Except.ok.inj taken
      exact ⟨rfl, waits⟩
  | cons argument rest ih =>
      rw [List.foldlM_cons] at taken
      obtain ⟨middle, first, others⟩ := bind_eq_ok_iff.mp taken
      rw [Command.argument, if_pos only] at first
      have step := Progress.positional_raised waits first
      obtain ⟨verbosity, lastWaits⟩ := ih (step.options.trans only) step.waits others
      rw [verbosity, step.verbosity, raised_raised]
      exact ⟨rfl, lastWaits⟩

theorem foldl_raised {arguments : List Octets} (waits : progress.Waits)
    (options : progress.onlyPositionals = false)
    (taken : arguments.foldlM command.argument progress = .ok next) :
    next.verbosity = raised (occurrences arguments) progress.verbosity ∧ next.Waits := by
  induction arguments generalizing progress with
  | nil =>
      obtain rfl := Except.ok.inj taken
      exact ⟨rfl, waits⟩
  | cons argument rest ih =>
      rw [List.foldlM_cons] at taken
      obtain ⟨middle, first, others⟩ := bind_eq_ok_iff.mp taken
      by_cases ends : argument = endOfOptions
      · subst ends
        have ended : middle = { progress with onlyPositionals := true } := by
          rw [Command.argument, options, if_neg Bool.false_ne_true] at first
          exact (Except.ok.inj first).symm
        subst ended
        have endedWaits : Progress.Waits { progress with onlyPositionals := true } := waits
        have none : occurrences (endOfOptions :: rest) = 0 := by simp [occurrences, beforeEnd]
        have behind := foldl_positionals_raised rfl endedWaits others
        rw [none]
        exact behind
      · have step := argument_raised counted waits options ends first
        obtain ⟨verbosity, lastWaits⟩ := ih step.waits (step.options.trans options) others
        rw [occurrences_cons ends, verbosity, step.verbosity, raised_raised]
        exact ⟨rfl, lastWaits⟩

theorem read_raised {arguments : List Octets} {draft : δ} (read : command.read draft arguments = .ok progress) :
    progress.verbosity = raised (occurrences arguments) none := by
  obtain ⟨last, folded, settled⟩ := bind_eq_ok_iff.mp read
  obtain ⟨verbosity, waits⟩ := foldl_raised counted (Progress.waits_of_none rfl) rfl folded
  rw [(Progress.settle_raised waits settled).verbosity, verbosity, raised_raised, Nat.add_zero]
  rfl

end Counted

end Command

section Commands

theorem common_counted : ∀ spec ∈ (commonOptions : List (OptionSpec δ)), spec.Counted := by
  intro spec member
  simp only [commonOptions, List.mem_cons, List.not_mem_nil, or_false] at member
  obtain rfl | rfl := member
  · exact .verbose rfl rfl rfl
  · exact .help rfl

theorem counted_append {own : List (OptionSpec δ)}
    (quiet : ∀ spec ∈ own, spec.long ≠ "verbose" ∧ spec.short ≠ some 'v' ∧ spec.raises = 0 ∧
      (spec.takesValue = false → spec.short = none)) :
    ∀ spec ∈ own ++ commonOptions, spec.Counted := by
  intro spec member
  rcases List.mem_append.mp member with isOwn | isCommon
  · obtain ⟨long, short, none, alone⟩ := quiet spec isOwn
    refine .other long short ?_ alone
    intro effect
    simp [OptionSpec.raises, effect] at none
  · exact common_counted spec isCommon

theorem rasterize_counted : ∀ spec ∈ RasterizeDraft.command.options, spec.Counted :=
  counted_append (by decide)

theorem blob_counted : ∀ spec ∈ BlobDraft.command.options, spec.Counted :=
  counted_append (by decide)

end Commands

theorem effective_level_eq {before : Progress Unit} {progress : Progress δ} {outer inner : Nat}
    (outside : before.verbosity = raised outer none) (inside : progress.verbosity = raised inner none) :
    effectiveLevel before progress = levelOf (if inner = 0 then outer else inner) := by
  have saturated (count : Nat) : levelOf (min count 255) = levelOf count := by
    match count with
    | 0 => rfl
    | 1 => rfl
    | more + 2 =>
      have high : min (more + 2) 255 = min more 253 + 2 := by omega
      rw [high]
      rfl
  rw [effectiveLevel, outside, inside]
  by_cases noneInside : inner = 0
  · by_cases noneOutside : outer = 0
    · simp [raised, noneInside, noneOutside]
    · simp [raised, noneInside, noneOutside, saturated]
  · simp [raised, noneInside, saturated]

theorem subcommand?_eq_some {name : Octets} {subcommand : Subcommand}
    (isName : subcommand? name = some subcommand) :
    ∃ entry ∈ subcommands, name = Utf8.encode entry.1.toList := by
  obtain ⟨entry, found, -⟩ := Option.map_eq_some_iff.mp isName
  have member := List.mem_of_find?_eq_some found
  have named : some entry.1.toList = Utf8.decode? name := by simpa using List.find?_some found
  have ascii : ∀ entry ∈ subcommands, ∀ c ∈ entry.1.toList, 0 < c.toNat ∧ c.toNat ≤ 127 := by
    simp [subcommands]
  exact ⟨entry, member, Utf8.eq_encode_of_decode? (ascii entry member) named.symm⟩

theorem occurrences_subcommand {name : Octets} {subcommand : Subcommand}
    (isName : subcommand? name = some subcommand) (own : List Octets) :
    occurrences (name :: own) = occurrences own := by
  obtain ⟨entry, member, rfl⟩ := subcommand?_eq_some isName
  have noOption : ∀ entry ∈ subcommands, Utf8.encode entry.1.toList ≠ endOfOptions ∧
      argumentOccurrences (Utf8.encode entry.1.toList) = 0 := by decide
  obtain ⟨notEnd, none⟩ := noOption entry member
  rw [occurrences_cons notEnd, none, Nat.zero_add]

theorem read_subcommand_level {environment : Environment} {before : Progress Unit} {own : List Octets}
    {subcommand : Subcommand} {invocation : Invocation} {outer : Nat}
    (outside : before.verbosity = raised outer none)
    (made : readSubcommand environment before own subcommand = .ok invocation) :
    invocation.level = levelOf (if occurrences own = 0 then outer else occurrences own) := by
  cases subcommand with
  | help => contradiction
  | rasterize =>
      obtain ⟨progress, parsed, rest⟩ := bind_eq_ok_iff.mp made
      obtain ⟨request, -, same⟩ := bind_eq_ok_iff.mp rest
      rw [← Except.ok.inj same]
      exact effective_level_eq outside (Command.read_raised rasterize_counted parsed)
  | blob =>
      obtain ⟨progress, parsed, rest⟩ := bind_eq_ok_iff.mp made
      obtain ⟨request, -, same⟩ := bind_eq_ok_iff.mp rest
      rw [← Except.ok.inj same]
      exact effective_level_eq outside (Command.read_raised blob_counted parsed)
  | header =>
      obtain ⟨progress, parsed, rest⟩ := bind_eq_ok_iff.mp made
      obtain ⟨request, -, same⟩ := bind_eq_ok_iff.mp rest
      rw [← Except.ok.inj same]
      exact effective_level_eq outside (Command.read_raised common_counted parsed)

theorem level_of_sum_iff (outer inner : Nat) :
    levelOf (if inner = 0 then outer else inner) = levelOf (outer + inner) ↔ ¬ (0 < outer ∧ inner = 1) := by
  match outer, inner with
  | outer, 0 => simp
  | 0, inner + 1 => simp
  | outer + 1, 1 => simp [levelOf]
  | outer + 1, inner + 2 => simp [levelOf, ← Nat.add_assoc]

-- What is asked for before the subcommand is lost where more is asked for behind it, which shows when there is
-- one occurrence behind it.
theorem level_counts_last_place {environment : Environment} {arguments : List Octets} {invocation : Invocation}
    (read : CommandLine.read environment arguments = .ok invocation) :
    ∃ front name own, arguments = front ++ name :: own ∧
      (∀ argument ∈ front, subcommand? argument = none) ∧ (subcommand? name).isSome ∧
      occurrences arguments = occurrences front + occurrences own ∧
      invocation.level = levelOf (if occurrences own = 0 then occurrences front else occurrences own) ∧
      (invocation.level = levelOf (occurrences arguments) ↔
        ¬ (0 < occurrences front ∧ occurrences own = 1)) := by
  obtain ⟨before, front, name, own, subcommand, rfl, options, isName, run, made⟩ := read_program_run read
  have noEnd : endOfOptions ∉ front := fun ends => (options endOfOptions ends).2 rfl
  have outside : before.verbosity = raised (occurrences front) none :=
    (Command.foldl_raised common_counted (Progress.waits_of_none rfl) rfl run).1
  have level := read_subcommand_level outside made
  have total : occurrences (front ++ name :: own) = occurrences front + occurrences own := by
    have noOption := occurrences_subcommand isName own
    rw [occurrences_append noEnd, noOption]
  refine ⟨front, name, own, rfl, fun argument member => (options argument member).1, by simp [isName], total,
    level, ?_⟩
  rw [level, total]
  exact level_of_sum_iff _ _

-- Behind `--` the argument is a path.
theorem one_behind_three_before :
    let arguments := ["-vv", "--verbose", "header", "-v", "--", "-v", "b"].map (Utf8.encode ·.toList)
    let request : HeaderRequest := ⟨Utf8.encode "-v".toList, Utf8.encode "b".toList⟩
    CommandLine.read [] arguments = .ok ⟨.debug, .header request⟩ ∧ occurrences arguments = 4 ∧
      ∃ front name own, arguments = front ++ name :: own ∧ 0 < occurrences front ∧ occurrences own = 1 := by
  intro arguments request
  have read : CommandLine.read [] arguments = .ok ⟨.debug, .header request⟩ := by decide +kernel
  have four : occurrences arguments = 4 := by decide
  obtain ⟨front, name, own, split, -, -, -, -, counted⟩ := level_counts_last_place read
  have notTotal : Log.Level.debug ≠ levelOf (occurrences arguments) := by
    rw [four]
    decide
  obtain ⟨before, behind⟩ := Decidable.not_not.mp (mt counted.mpr notTotal)
  exact ⟨read, four, front, name, own, split, before, behind⟩

theorem same_occurrences_other_level :
    let before := ["-vv", "header", "a", "b"].map (Utf8.encode ·.toList)
    let around := ["-v", "header", "a", "b", "-v"].map (Utf8.encode ·.toList)
    let request : HeaderRequest := ⟨Utf8.encode "a".toList, Utf8.encode "b".toList⟩
    occurrences before = 2 ∧ occurrences around = 2 ∧
      CommandLine.read [] before = .ok ⟨.trace, .header request⟩ ∧
      CommandLine.read [] around = .ok ⟨.debug, .header request⟩ ∧
      ¬ ∀ environment arguments invocation, CommandLine.read environment arguments = .ok invocation →
        invocation.level = levelOf (occurrences arguments) := by
  intro before around request
  have twoBefore : occurrences before = 2 := by decide
  have twoAround : occurrences around = 2 := by decide
  have readBefore : CommandLine.read [] before = .ok ⟨.trace, .header request⟩ := by decide +kernel
  have readAround : CommandLine.read [] around = .ok ⟨.debug, .header request⟩ := by decide +kernel
  refine ⟨twoBefore, twoAround, readBefore, readAround, fun total => ?_⟩
  have level := total [] around _ readAround
  rw [twoAround] at level
  exact absurd level (by decide)

end Bitfont.CommandLine
