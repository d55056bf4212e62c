import Bitfont.Literal

namespace Bitfont.Literal

def preamble (style : Style) : Text :=
  let header := if style.language = .c ∧ style.stdint then "#include <stdint.h>\n".toList else []
  let remark : Option Text := style.origin.map fun name =>
    "// generated from ".toList ++ name ++ ['\n']
  header ++ remark.getD []

def cDimensions (dimensions : List Nat) : Text :=
  dimensions.flatMap fun size => '[' :: Numeral.decimal size ++ [']']

def declaration (style : Style) (dimensions : List Nat) : Text :=
  let element := (style.element.spelling style.stdint style.language).toList
  match style.language with
  | .c =>
      let qualifiers := if style.constant then "static const " else "static "
      qualifiers.toList ++ element ++ ' ' :: style.symbol ++ cDimensions dimensions ++
        " = \x7b\n".toList
  | .rust =>
      let keyword := if style.constant then "const " else "static "
      keyword.toList ++ style.symbol ++ ": ".toList ++ rustType element dimensions ++
        " = [\n".toList

def closing : Language → Text
  | .c => "\x7d;\n".toList
  | .rust => "];\n".toList

def separator (wrap : Option Nat) (indent : Text) (index : Nat) : Text :=
  if index = 0 then []
  else
    match wrap with
    | some count => if index % count = 0 then ",\n".toList ++ indent else ", ".toList
    | none => ", ".toList

def run (source : RowSequence) (style : Style) (indent : Text) (start count : Nat) : Text :=
  (List.range count).flatMap fun index =>
    separator style.wrap indent index ++ value style (source.row (start + index))

def flatBody (source : RowSequence) (style : Style) : Text :=
  indentation ++ run source style indentation 0 source.rowCount ++ ['\n']

def groupLine (source : RowSequence) (style : Style) (group : Nat) : Text :=
  let start := group * groupSize source
  indentation ++ opening style.language ++
    run source style (continuation style.language) start (writtenRows source start style.language) ++
    (ending style.language ++ ",\n".toList)

def groupedBody (source : RowSequence) (style : Style) : Text :=
  (List.range (groupCount source)).flatMap (groupLine source style)

def dimensions (source : RowSequence) : Layout → List Nat
  | .flat => [source.rowCount]
  | .grouped => [groupCount source, groupSize source]

def body (source : RowSequence) (style : Style) : Text :=
  match style.layout with
  | .flat => flatBody source style
  | .grouped => groupedBody source style

def whole (source : RowSequence) (style : Style) : Text :=
  preamble style ++ declaration style (dimensions source style.layout) ++ body source style ++
    closing style.language

end Literal

namespace Writer

variable {σ : Type}

def continueWriting (written : σ × Bool) (next : σ → σ × Bool) : σ × Bool :=
  if written.2 then next written.1 else written

-- A text in two parts is no different to the writer than the same text in one.
structure Seamless (put : Writer σ) : Prop where
  empty : ∀ state, put [] state = (state, true)
  append : ∀ first second state,
    put (first ++ second) state = continueWriting (put first state) (put second)

theorem limited_seamless : Seamless limited := by
  constructor
  · intro state
    simp [limited]
  · intro first second state
    obtain ⟨taken, room⟩ := state
    by_cases fits : first.length ≤ room
    · have joint : first.length + second.length ≤ room ↔ second.length ≤ room - first.length := by
        omega
      simp [limited, continueWriting, fits, joint, List.take_append, List.take_of_length_le,
        Nat.sub_sub]
    · have long : ¬ first.length + second.length ≤ room := by omega
      have short : room - first.length = 0 := by omega
      have full : room - (first.length + second.length) = 0 := by omega
      simp [limited, continueWriting, fits, long, short, full, List.take_append]

theorem appending_seamless : Seamless appending := by
  constructor
  · intro state
    simp [appending]
  · intro first second state
    have joint : state ++ (first ++ second) = state ++ first ++ second := by
      apply Array.toList_inj.mp
      simp
    simp [appending, continueWriting, joint]

end Writer

namespace Literal

open Writer (Seamless)

variable {σ : Type}

def outcome (written : σ × Bool) : Except Fault Unit × σ :=
  (if written.2 then .ok () else .error .full, written.1)

-- Piece by piece, the writer is given the text, up to the first piece that it does not take.
def Writes (put : Writer σ) (writing : Writing σ Unit) (characters : Text) : Prop :=
  ∀ state, writing.run.run state = outcome (put characters state)

section Seamless

variable {put : Writer σ} (seamless : Seamless put)

theorem writes_emit (characters : Text) : Writes put (emit put characters) characters := by
  intro state
  have emitted : (emit put characters).run.run state =
      (if (put characters state).2 then pure () else throw .full : Writing σ Unit).run.run
        (put characters state).1 := rfl
  rw [emitted, outcome]
  split <;> rfl

theorem writes_closing (language : Language) :
    Writes put (writeClosing put language) (closing language) := by
  cases language <;> exact writes_emit _

include seamless

theorem writes_nothing : Writes put (pure ()) [] := by
  intro state
  rw [seamless.empty]
  rfl

theorem Writes.append {first second : Writing σ Unit} {characters more : Text}
    (firstWrites : Writes put first characters) (secondWrites : Writes put second more) :
    Writes put (first >>= fun _ => second) (characters ++ more) := by
  intro state
  simp only [ExceptT.run_bind, StateT.run_bind, firstWrites state, seamless.append, outcome,
    Writer.continueWriting]
  split
  · exact secondWrites _
  · rfl

theorem writes_each {part : Nat → Writing σ Unit} {texts : Nat → Text}
    (partWrites : ∀ index, Writes put (part index) (texts index)) (count index : Nat) :
    Writes put (writeEach part count index) ((List.range' index count).flatMap texts) := by
  induction count generalizing index with
  | zero => exact writes_nothing seamless
  | succ count ih =>
      rw [List.range'_succ, List.flatMap_cons]
      exact (partWrites index).append seamless (ih (index + 1))

theorem writes_include (style : Style) : Writes put (writeInclude put style)
    (if style.language = .c ∧ style.stdint then "#include <stdint.h>\n".toList else []) := by
  unfold writeInclude
  split
  · exact writes_emit _
  · exact writes_nothing seamless

theorem writes_remark (style : Style) : Writes put (writeRemark put style)
    ((style.origin.map fun name => "// generated from ".toList ++ name ++ ['\n']).getD []) := by
  unfold writeRemark
  cases style.origin with
  | none => exact writes_nothing seamless
  | some name => exact writes_emit _

theorem writes_dimensions (dimensions : List Nat) :
    Writes put (dimensions.forM fun size => emit put ('[' :: Numeral.decimal size ++ [']']))
      (cDimensions dimensions) := by
  induction dimensions with
  | nil => exact writes_nothing seamless
  | cons size dimensions ih => exact (writes_emit _).append seamless ih

theorem writes_declaration (style : Style) (dimensions : List Nat) :
    Writes put (writeDeclaration put style dimensions) (declaration style dimensions) := by
  unfold writeDeclaration declaration
  cases style.language with
  | c =>
      dsimp only
      rw [List.append_assoc _ (cDimensions dimensions)]
      exact (writes_emit _).append seamless ((writes_dimensions seamless dimensions).append seamless (writes_emit _))
  | rust => exact writes_emit _

theorem writes_separator (wrap : Option Nat) (continuation : Text) (index : Nat) :
    Writes put (writeSeparator put wrap continuation index) (separator wrap continuation index) := by
  unfold writeSeparator separator
  split
  · exact writes_nothing seamless
  · cases wrap with
    | none => exact writes_emit _
    | some count =>
        by_cases full : index % count = 0
        · simpa only [Option.any_some, full, decide_true, if_true] using writes_emit _
        · simpa only [Option.any_some, full, decide_false, Bool.false_eq_true, if_false] using writes_emit _

theorem writes_values (source : RowSequence) (style : Style) (continuation : Text) (start count : Nat) :
    Writes put (writeValues put source style continuation start count)
      (run source style continuation start count) := by
  rw [run, List.range_eq_range']
  apply writes_each seamless
  intro index
  exact (writes_separator seamless style.wrap continuation index).append seamless (writes_emit _)

theorem writes_flat (source : RowSequence) (style : Style) :
    Writes put (writeFlat put source style)
      (declaration style [source.rowCount] ++ (flatBody source style ++ closing style.language)) := by
  rw [flatBody, List.append_assoc, List.append_assoc]
  refine (writes_declaration seamless style _).append seamless ((writes_emit _).append seamless ?_)
  exact (writes_values seamless source style indentation 0 source.rowCount).append seamless
    ((writes_emit _).append seamless (writes_closing style.language))

theorem writes_group (source : RowSequence) (style : Style) (group : Nat) :
    Writes put (writeGroup put source style group) (groupLine source style group) := by
  dsimp only [groupLine]
  rw [List.append_assoc]
  exact (writes_emit _).append seamless
    ((writes_values seamless source style _ _ _).append seamless (writes_emit _))

theorem writes_grouped (source : RowSequence) (style : Style) :
    Writes put (writeGrouped put source style)
      (declaration style [groupCount source, groupSize source] ++
        (groupedBody source style ++ closing style.language)) := by
  rw [groupedBody, List.range_eq_range']
  refine (writes_declaration seamless style _).append seamless ?_
  exact (writes_each seamless (writes_group seamless source style) _ 0).append seamless
    (writes_closing style.language)

theorem writes_whole {source : RowSequence} {style : Style} (nonempty : source.rowCount ≠ 0)
    (fits : source.rowWidth ≤ style.element.bits) :
    Writes put (write put source style) (whole source style) := by
  have arrays : Writes put
      (match style.layout with
        | .flat => writeFlat put source style
        | .grouped => writeGrouped put source style)
      (declaration style (dimensions source style.layout) ++
        (body source style ++ closing style.language)) := by
    unfold body
    cases style.layout with
    | flat => exact writes_flat seamless source style
    | grouped => exact writes_grouped seamless source style
  rw [write, if_neg nonempty, if_neg (Nat.not_lt.mpr fits)]
  simp only [whole, preamble, List.append_assoc]
  exact (writes_include seamless style).append seamless
    ((writes_remark seamless style).append seamless arrays)

end Seamless

section WriteTo

variable (source : RowSequence) (style : Style)

theorem write_to_of_no_rows (empty : source.rowCount = 0) (put : Writer σ) (state : σ) :
    writeTo source style put state = (state, .error .noRows) := by
  rw [writeTo, write, if_pos empty]
  rfl

theorem write_to_of_too_wide (nonempty : source.rowCount ≠ 0)
    (wide : style.element.bits < source.rowWidth) (put : Writer σ) (state : σ) :
    writeTo source style put state =
      (state, .error (.rowTooWide source.rowWidth style.element.bits)) := by
  rw [writeTo, write, if_neg nonempty, if_pos wide]
  rfl

theorem write_to_whole (nonempty : source.rowCount ≠ 0) (fits : source.rowWidth ≤ style.element.bits)
    {put : Writer σ} (seamless : Seamless put) (state : σ) :
    writeTo source style put state = (outcome (put (whole source style) state)).swap := by
  rw [writeTo, writes_whole seamless nonempty fits state]

theorem text_eq : text source style =
    if source.rowCount = 0 then .error .noRows
    else if style.element.bits < source.rowWidth then
      .error (.rowTooWide source.rowWidth style.element.bits)
    else .ok (whole source style) := by
  unfold text
  by_cases empty : source.rowCount = 0
  · rw [write_to_of_no_rows source style empty, if_pos empty]
    rfl
  · by_cases wide : style.element.bits < source.rowWidth
    · rw [write_to_of_too_wide source style empty wide, if_neg empty, if_pos wide]
      rfl
    · have fits := Nat.le_of_not_lt wide
      rw [write_to_whole source style empty fits Writer.appending_seamless, if_neg empty, if_neg wide]
      simp [outcome, Writer.appending, Except.map]

end WriteTo

end Literal
end Bitfont
