import Mathlib.Logic.Relation
import Bitfont.Proofs.Header.Declaration

namespace Bitfont

namespace Text

def withReturns (text : Text) : Text := text.flatMap fun c => if c = '\n' then ['\r', '\n'] else [c]

theorem with_returns_fed (rest : Text) : withReturns ('\n' :: rest) = '\r' :: '\n' :: withReturns rest := rfl

theorem with_returns_cons {c : Char} (other : c ≠ '\n') (rest : Text) :
    withReturns (c :: rest) = c :: withReturns rest := by
  rw [withReturns, List.flatMap_cons, if_neg other]
  rfl

end Text

namespace Declaration

def IsPadding (blanks : Text) : Prop := ∀ c ∈ blanks, Text.isBlank c ∧ c ≠ '\n'

inductive Padded : Text → Text → Prop where
  | atStart {before blanks : Text} (starts : before = [] ∨ before.getLast? = some '\n')
      (padding : IsPadding blanks) (after : Text) : Padded (before ++ after) (before ++ blanks ++ after)
  | atEnd {blanks after : Text} (ends : after = [] ∨ after.head? = some '\n')
      (padding : IsPadding blanks) (before : Text) : Padded (before ++ after) (before ++ blanks ++ after)

def ofLine (line : Text) : List Text := (atStart? (Text.trim line)).toList

section Lines

variable {line : Text} (noLineFeed : '\n' ∉ line)

include noLineFeed

theorem of_source_line : ofSource line = ofLine line := by
  by_cases empty : line = []
  · subst empty
    rfl
  · rw [ofSource, Text.lines_last noLineFeed empty, List.filterMap_cons, ofLine]
    cases atStart? (Text.trim line) with
    | none => rfl
    | some found => rfl

-- The line's end may be a carriage return and a line feed, but the return is a blank.
theorem of_source_fed (rest : Text) :
    ofSource (line ++ '\n' :: rest) = ofLine line ++ ofSource rest := by
  rw [ofSource, Text.lines_cons noLineFeed, List.filterMap_cons, Text.trim_drop_return, ofLine]
  cases atStart? (Text.trim line) with
  | none => rfl
  | some found => rfl

end Lines

theorem of_source_append (source rest : Text) :
    ofSource (source ++ '\n' :: rest) = ofSource source ++ ofSource rest := by
  induction source using Text.by_lines with
  | last line ended => rw [of_source_fed ended, of_source_line ended]
  | fed line later noLineFeed ih =>
      rw [List.append_assoc, List.cons_append, of_source_fed noLineFeed, ih, of_source_fed noLineFeed,
        List.append_assoc]

section Padding

variable {blanks : Text} (padding : IsPadding blanks)

include padding

theorem IsPadding.blank : ∀ c ∈ blanks, Text.isBlank c := fun c member => (padding c member).1

theorem IsPadding.no_line_feed : '\n' ∉ blanks := fun member => (padding '\n' member).2 rfl

theorem of_line_pad_start (line : Text) : ofLine (blanks ++ line) = ofLine line := by
  have same := Text.trim_padded padding.blank (List.forall_mem_nil _) line
  rw [List.append_nil] at same
  rw [ofLine, same, ofLine]

theorem of_line_pad_end (line : Text) : ofLine (line ++ blanks) = ofLine line := by
  have same := Text.trim_padded (List.forall_mem_nil _) padding.blank line
  rw [List.nil_append] at same
  rw [ofLine, same, ofLine]

theorem of_source_pad_start (source : Text) : ofSource (blanks ++ source) = ofSource source := by
  induction source using Text.by_lines with
  | last line ended =>
      have noLineFeed : '\n' ∉ blanks ++ line := by simp [padding.no_line_feed, ended]
      rw [of_source_line noLineFeed, of_line_pad_start padding, of_source_line ended]
  | fed line rest ended _ =>
      have noLineFeed : '\n' ∉ blanks ++ line := by simp [padding.no_line_feed, ended]
      rw [← List.append_assoc, of_source_fed noLineFeed, of_line_pad_start padding, of_source_fed ended]

theorem of_source_pad_end (source : Text) : ofSource (source ++ blanks) = ofSource source := by
  induction source using Text.by_lines with
  | last line ended =>
      have noLineFeed : '\n' ∉ line ++ blanks := by simp [padding.no_line_feed, ended]
      rw [of_source_line noLineFeed, of_line_pad_end padding, of_source_line ended]
  | fed line rest ended ih =>
      rw [List.append_assoc, List.cons_append, of_source_fed ended, ih, of_source_fed ended]

end Padding

theorem Padded.of_source_eq {source other : Text} (padded : Padded source other) :
    ofSource other = ofSource source := by
  cases padded with
  | @atStart before blanks starts padding after =>
      rw [List.append_assoc]
      obtain rfl | last := starts
      · exact of_source_pad_start padding after
      · obtain ⟨front, rfl⟩ := List.getLast?_eq_some_iff.mp last
        have earlier (later : Text) :
            ofSource (front ++ ['\n'] ++ later) = ofSource front ++ ofSource later := by
          rw [List.append_assoc]
          exact of_source_append front later
        rw [earlier, earlier, of_source_pad_start padding]
  | @atEnd blanks after ends padding before =>
      obtain rfl | first := ends
      · rw [List.append_nil, List.append_nil, of_source_pad_end padding]
      · obtain ⟨rest, rfl⟩ := List.head?_eq_some_iff.mp first
        rw [of_source_append, of_source_append, of_source_pad_end padding]

theorem of_source_relaid {source other : Text} (relaid : Relation.EqvGen Padded source other) :
    ofSource other = ofSource source := by
  induction relaid with
  | rel source other padded => exact padded.of_source_eq
  | refl source => rfl
  | symm source other _ ih => exact ih.symm
  | trans source between other _ _ first second => exact second.trans first

theorem relaid_with_returns (front source : Text) :
    Relation.EqvGen Padded (front ++ source) (front ++ source.withReturns) := by
  induction source generalizing front with
  | nil => exact .refl (front ++ [])
  | cons c rest ih =>
      by_cases feeds : c = '\n'
      · subst feeds
        have padding : IsPadding ['\r'] := List.forall_mem_singleton.mpr (by decide)
        have first : Padded (front ++ '\n' :: rest) (front ++ ['\r'] ++ '\n' :: rest) :=
          .atEnd (.inr rfl) padding front
        have later := ih (front ++ ['\r', '\n'])
        simp only [List.append_assoc, List.cons_append, List.nil_append] at first later
        rw [Text.with_returns_fed]
        exact .trans _ _ _ (.rel _ _ first) later
      · have later := ih (front ++ [c])
        simp only [List.append_assoc, List.cons_append, List.nil_append] at later
        rw [Text.with_returns_cons feeds]
        exact later

theorem declarations_ignore_layout (source : Text) :
    (∀ rest, ofSource (source ++ '\n' :: rest) = ofSource source ++ ofSource rest) ∧
    (∀ other, Relation.EqvGen Padded source other → ofSource other = ofSource source) ∧
    Relation.EqvGen Padded source source.withReturns ∧
    ofSource source.withReturns = ofSource source := by
  have returned : Relation.EqvGen Padded source source.withReturns := relaid_with_returns [] source
  exact ⟨of_source_append source, fun _ => of_source_relaid, returned, of_source_relaid returned⟩

-- The first line loses a blank and gets another one and a carriage return, the second one is not empty any
-- more, and the last one, which no line feed ends, is indented.
theorem relaid_source_declares_same :
    let first := "int f();".toList
    let last := "void g ( int a ) ;".toList
    let source := ' ' :: first ++ '\n' :: '\n' :: last
    let other := first ++ '\u2003' :: '\r' :: '\n' :: ' ' :: '\n' :: '\t' :: last
    Relation.EqvGen Padded source other ∧ ofSource other = [first, last] := by
  intro first last source other
  have blank : IsPadding [' '] := List.forall_mem_singleton.mpr (by decide)
  have returned : IsPadding ['\u2003', '\r'] := List.forall_mem_cons.mpr
    ⟨by decide, List.forall_mem_singleton.mpr (by decide)⟩
  have tab : IsPadding ['\t'] := List.forall_mem_singleton.mpr (by decide)
  have atFirst := @Padded.atStart [] [' '] (.inl rfl) blank (first ++ '\n' :: '\n' :: last)
  have afterFirst := @Padded.atEnd _ ('\n' :: '\n' :: last) (.inr rfl) returned first
  have inEmpty := @Padded.atEnd _ ('\n' :: last) (.inr rfl) blank
    (first ++ ['\u2003', '\r', '\n'])
  have atLast := @Padded.atStart (first ++ ['\u2003', '\r', '\n', ' ', '\n']) _
    (.inr (List.getLast?_append_of_ne_nil _ (by decide))) tab last
  simp only [List.append_assoc, List.cons_append, List.nil_append] at atFirst afterFirst inEmpty atLast
  have relaid : Relation.EqvGen Padded source other :=
    .trans _ _ _ (.symm _ _ (.rel _ _ atFirst)) (.trans _ _ _ (.rel _ _ afterFirst)
      (.trans _ _ _ (.rel _ _ inEmpty) (.rel _ _ atLast)))
  have declared : ofSource source = [first, last] := by decide +kernel
  exact ⟨relaid, ((declarations_ignore_layout source).2.1 other relaid).trans declared⟩

end Declaration

end Bitfont
