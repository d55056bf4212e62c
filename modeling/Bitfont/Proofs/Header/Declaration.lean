import Mathlib.Data.List.TakeWhile
import Bitfont.Header.Declaration
import Bitfont.Proofs.Text.Lines

namespace Bitfont.Declaration

def IsIdentifier : Text → Prop
  | [] => False
  | c :: later => startsIdentifier c ∧ ∀ other ∈ later, continuesIdentifier other

structure Form where
  type : Text
  gap : Text
  name : Text
  beforeList : Text
  parameters : Text
  afterList : Text
  isType : IsIdentifier type
  separated : gap ≠ []
  gapBlank : ∀ c ∈ gap, Text.isBlank c
  isName : IsIdentifier name
  beforeBlank : ∀ c ∈ beforeList, Text.isBlank c
  noClosing : ')' ∉ parameters
  afterBlank : ∀ c ∈ afterList, Text.isBlank c

namespace Form

def call (form : Form) : Text := '(' :: form.parameters ++ ')' :: form.afterList ++ [';']

def text (form : Form) : Text :=
  form.type ++ form.gap ++ form.name ++ form.beforeList ++ form.call

end Form

section Characters

variable {c : Char}

theorem continues_of_starts (starts : startsIdentifier c) : continuesIdentifier c := by
  rw [continuesIdentifier, starts, Bool.true_or]

theorem continues_bounds (continues : continuesIdentifier c) : 0x30 ≤ c.toNat ∧ c.toNat ≤ 0x7A := by
  simp only [continuesIdentifier, startsIdentifier, Text.isAsciiLetter, Text.isAsciiUpper,
    Text.isAsciiLower, Text.isAsciiDigit, Bool.or_eq_true, Bool.and_eq_true, decide_eq_true_eq,
    Char.le_def, UInt32.le_iff_toNat_le] at continues
  rcases continues with ((⟨low, high⟩ | ⟨low, high⟩) | rfl) | ⟨low, high⟩
  · exact ⟨le_trans (by decide) low, le_trans high (by decide)⟩
  · exact ⟨le_trans (by decide) low, le_trans high (by decide)⟩
  · decide
  · exact ⟨le_trans (by decide) low, le_trans high (by decide)⟩

theorem not_blank_of_continues (continues : continuesIdentifier c) : Text.isBlank c = false := by
  obtain ⟨low, high⟩ := continues_bounds continues
  simp only [Text.isBlank, Bool.or_eq_false_iff, Bool.and_eq_false_iff, decide_eq_false_iff_not,
    beq_eq_false_iff_ne]
  omega

theorem not_continues_of_blank (blank : Text.isBlank c) : continuesIdentifier c = false := by
  rw [← Bool.not_eq_true]
  intro continues
  rw [not_blank_of_continues continues] at blank
  contradiction

end Characters

section Readers

variable {word text rest call : Text}

theorem IsIdentifier.start (identifier : IsIdentifier word) (rest : Text) :
    ∀ c ∈ (word ++ rest).head?, Text.isBlank c = false := by
  cases word with
  | nil => exact identifier.elim
  | cons first others =>
      rintro c ⟨⟩
      exact not_blank_of_continues (continues_of_starts identifier.1)

theorem identifier?_append (identifier : IsIdentifier word)
    (stops : ∀ c ∈ rest.head?, continuesIdentifier c = false) :
    identifier? (word ++ rest) = some (word, rest) := by
  cases word with
  | nil => exact identifier.elim
  | cons c later =>
      rw [List.cons_append, identifier?, if_pos identifier.1, Text.take_while_span identifier.2 stops,
        Text.drop_while_span identifier.2 stops]

theorem identifier?_eq_some (found : identifier? text = some (word, rest)) :
    IsIdentifier word ∧ text = word ++ rest := by
  cases text with
  | nil => contradiction
  | cons c later =>
      rw [identifier?] at found
      split at found
      · next starts =>
          obtain ⟨rfl, rfl⟩ := Prod.mk.inj (Option.some.inj found)
          refine ⟨⟨starts, fun _ => List.mem_takeWhile_imp⟩, ?_⟩
          rw [List.cons_append, List.takeWhile_append_dropWhile]
      · contradiction

theorem parameters?_append {list close : Text} (noClosing : ')' ∉ list)
    (blank : ∀ c ∈ close, Text.isBlank c) (rest : Text) :
    parameters? ('(' :: list ++ ')' :: close ++ [';'] ++ rest) =
      some ('(' :: list ++ ')' :: close ++ [';']) := by
  have inside : ∀ c ∈ list, (fun c => decide (c ≠ ')')) c = true := by
    intro c member
    exact decide_eq_true fun closing => noClosing (closing ▸ member)
  have listEnd : ∀ c ∈ (')' :: (close ++ ';' :: rest)).head?,
      (fun c => decide (c ≠ ')')) c = false := by simp
  have closeEnd : ∀ c ∈ (';' :: rest).head?, Text.isBlank c = false := by
    rintro c ⟨⟩
    rfl
  rw [List.append_assoc, List.append_assoc, List.cons_append, List.cons_append, List.singleton_append,
    parameters?, Text.take_while_span inside listEnd, Text.drop_while_span inside listEnd]
  simp only [Text.take_while_span blank closeEnd, Text.drop_while_span blank closeEnd]

theorem parameters?_eq_some (found : parameters? text = some call) :
    ∃ list close rest, ')' ∉ list ∧ (∀ c ∈ close, Text.isBlank c) ∧
      call = '(' :: list ++ ')' :: close ++ [';'] ∧ text = call ++ rest := by
  unfold parameters? at found
  split at found
  next later =>
    split at found
    next afterList ends =>
      split at found
      next rest semicolon =>
        obtain rfl := Option.some.inj found
        refine ⟨_, _, rest, ?_, fun _ => List.mem_takeWhile_imp, rfl, ?_⟩
        · intro closing
          simpa using List.mem_takeWhile_imp closing
        · have list := List.takeWhile_append_dropWhile (p := (· ≠ ')')) (l := later)
          have close := List.takeWhile_append_dropWhile (p := Text.isBlank) (l := afterList)
          rw [semicolon] at close
          rw [ends, ← close] at list
          rw [List.append_assoc, List.append_assoc]
          exact congrArg ('(' :: ·) list.symm
      · contradiction
    · contradiction
  · contradiction

end Readers

theorem at_start?_eq_some_iff {line declaration : Text} :
    atStart? line = some declaration ↔ ∃ type afterType name afterName call,
      identifier? line = some (type, afterType) ∧ afterType.takeWhile Text.isBlank ≠ [] ∧
      identifier? (afterType.dropWhile Text.isBlank) = some (name, afterName) ∧
      parameters? (afterName.dropWhile Text.isBlank) = some call ∧
      declaration = type ++ afterType.takeWhile Text.isBlank ++ name ++
        afterName.takeWhile Text.isBlank ++ call := by
  constructor
  · intro found
    unfold atStart? at found
    obtain ⟨⟨type, afterType⟩, typeFound, found⟩ := Option.bind_eq_some_iff.mp found
    dsimp only at found
    split at found
    · contradiction
    next separated =>
      obtain ⟨⟨name, afterName⟩, nameFound, found⟩ := Option.bind_eq_some_iff.mp found
      obtain ⟨call, callFound, found⟩ := Option.bind_eq_some_iff.mp found
      refine ⟨type, afterType, name, afterName, call, typeFound, ?_, nameFound, callFound, ?_⟩
      · simpa using separated
      · exact (Option.some.inj found).symm
  · rintro ⟨type, afterType, name, afterName, call, typeFound, separated, nameFound, callFound, rfl⟩
    rw [atStart?, typeFound]
    simp only [Option.bind_eq_bind, Option.bind_some, List.isEmpty_iff, separated, if_false, nameFound,
      callFound]
    rfl

namespace Form

variable (form : Form) (rest : Text)

theorem call_start : ∀ c ∈ (form.call ++ rest).head?, Text.isBlank c = false := by
  rintro c ⟨⟩
  rfl

theorem name_end : ∀ c ∈ (form.beforeList ++ (form.call ++ rest)).head?,
    continuesIdentifier c = false := by
  apply Text.stops_append
  · exact fun c member => not_continues_of_blank (form.beforeBlank c member)
  · rintro c ⟨⟩
    rfl

theorem type_end (later : Text) : ∀ c ∈ (form.gap ++ later).head?, continuesIdentifier c = false := by
  intro c head
  rw [List.head?_append_of_ne_nil _ form.separated] at head
  exact not_continues_of_blank (form.gapBlank c (List.mem_of_mem_head? head))

theorem at_start?_text : atStart? (form.text ++ rest) = some form.text := by
  have whole : form.text ++ rest =
      form.type ++ (form.gap ++ (form.name ++ (form.beforeList ++ (form.call ++ rest)))) := by
    simp only [Form.text, List.append_assoc]
  rw [whole, at_start?_eq_some_iff]
  refine ⟨form.type, _, form.name, form.beforeList ++ (form.call ++ rest), form.call,
    identifier?_append form.isType (form.type_end _), ?_⟩
  have nameStart := form.isName.start (form.beforeList ++ (form.call ++ rest))
  have callStart := form.call_start rest
  rw [Text.take_while_span form.gapBlank nameStart, Text.drop_while_span form.gapBlank nameStart,
    identifier?_append form.isName (form.name_end rest),
    Text.take_while_span form.beforeBlank callStart, Text.drop_while_span form.beforeBlank callStart]
  exact ⟨form.separated, rfl, parameters?_append form.noClosing form.afterBlank rest, rfl⟩

theorem get_last?_text : form.text.getLast? = some ';' := by
  rw [text, call, ← List.append_assoc, List.getLast?_concat]

theorem trim_text : Text.trim form.text = form.text := by
  apply Text.trim_eq_self
  · simp only [text, List.append_assoc]
    exact form.isType.start _
  · rw [form.get_last?_text]
    rintro c ⟨⟩
    rfl

end Form

theorem at_start?_eq_some {line declaration : Text} (found : atStart? line = some declaration) :
    ∃ (form : Form) (rest : Text), declaration = form.text ∧ line = declaration ++ rest := by
  obtain ⟨type, afterType, name, afterName, call, typeFound, separated, nameFound, callFound, rfl⟩ :=
    at_start?_eq_some_iff.mp found
  obtain ⟨isType, whole⟩ := identifier?_eq_some typeFound
  obtain ⟨isName, named⟩ := identifier?_eq_some nameFound
  obtain ⟨list, close, rest, noClosing, blank, rfl, called⟩ := parameters?_eq_some callFound
  let form : Form :=
    { type, gap := afterType.takeWhile Text.isBlank, name
      beforeList := afterName.takeWhile Text.isBlank, parameters := list, afterList := close
      isType, separated, gapBlank := fun _ => List.mem_takeWhile_imp, isName
      beforeBlank := fun _ => List.mem_takeWhile_imp, noClosing, afterBlank := blank }
  refine ⟨form, rest, rfl, ?_⟩
  have gap := List.takeWhile_append_dropWhile (p := Text.isBlank) (l := afterType)
  have beforeList := List.takeWhile_append_dropWhile (p := Text.isBlank) (l := afterName)
  simp only [List.append_assoc] at called ⊢
  rw [whole, ← called, beforeList, ← named, gap]

structure IsWhole (declaration : Text) : Prop where
  line : Text.IsLine declaration
  found : atStart? (Text.trim declaration) = some declaration

theorem mem_of_source {source declaration : Text} (member : declaration ∈ ofSource source) :
    IsWhole declaration := by
  obtain ⟨line, inside, found⟩ := List.mem_filterMap.mp member
  obtain ⟨form, rest, rfl, whole⟩ := at_start?_eq_some found
  refine ⟨⟨?_, ?_⟩, ?_⟩
  · intro lineFeed
    have here : '\n' ∈ Text.trim line := whole ▸ List.mem_append_left rest lineFeed
    exact Text.line_feed_not_mem_lines inside (Text.trim_subset line here)
  · rw [form.get_last?_text]
    decide
  · rw [form.trim_text]
    have again := form.at_start?_text []
    rwa [List.append_nil] at again

theorem of_source_flat_map {kept : List Text} (whole : ∀ line ∈ kept, Text.IsLine line) :
    ofSource (kept.flatMap (· ++ ['\n'])) = kept.filterMap fun line => atStart? (Text.trim line) := by
  rw [ofSource, (Text.has_lines_flat_map whole).lines_eq]

end Bitfont.Declaration
