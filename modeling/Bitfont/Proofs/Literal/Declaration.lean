import Bitfont.Proofs.Literal.Parts
import Bitfont.Proofs.Numeral

namespace Bitfont.Literal

def after? (front text : Text) : Option Text :=
  if front.isPrefixOf text then some (text.drop front.length) else none

def elementText (style : Style) : Text :=
  (style.element.spelling style.stdint style.language).toList

def declarationHead (style : Style) : Text :=
  match style.language with
  | .c =>
      let qualifiers := if style.constant then "static const " else "static "
      qualifiers.toList ++ elementText style ++ ' ' :: style.symbol
  | .rust =>
      let keyword := if style.constant then "const " else "static "
      keyword.toList ++ style.symbol ++ ": ".toList

def declarationEnd : Language → Text
  | .c => " = \x7b\n".toList
  | .rust => " = [\n".toList

-- One size per bracket, the outer one first.
def readSizes : (depth : Nat) → Text → Option (List Nat × Text)
  | 0, text => some ([], text)
  | depth + 1, text => do
      let text ← after? ['['] text
      let (size, text) ← Numeral.readDecimal text
      let text ← after? [']'] text
      let (sizes, text) ← readSizes depth text
      return (size :: sizes, text)

def readNested (element : Text) : (depth : Nat) → Text → Option (List Nat × Text)
  | 0, text => (after? element text).map ([], ·)
  | depth + 1, text => do
      let text ← after? ['['] text
      let (sizes, text) ← readNested element depth text
      let text ← after? "; ".toList text
      let (size, text) ← Numeral.readDecimal text
      let text ← after? [']'] text
      return (size :: sizes, text)

def Layout.depth : Layout → Nat
  | .flat => 1
  | .grouped => 2

def readDimensions (style : Style) (text : Text) : Option (List Nat × Text) :=
  match style.language with
  | .c => readSizes style.layout.depth text
  | .rust => readNested (elementText style) style.layout.depth text

def readDeclaration (style : Style) (line : Text) : Option (List Nat) :=
  match (after? (declarationHead style) line).bind (readDimensions style) with
  | some (sizes, text) => if text = declarationEnd style.language then some sizes else none
  | none => none

theorem after?_append (front text : Text) : after? front (front ++ text) = some text := by
  rw [after?, if_pos (List.isPrefixOf_iff_prefix.mpr (List.prefix_append front text)),
    List.drop_left]

theorem bracket_ends_decimal (rest : Text) :
    ∀ c ∈ ([']'] ++ rest).head?, Text.isAsciiDigit c = false := by
  rintro c ⟨⟩
  rfl

theorem read_sizes_c_dimensions (sizes : List Nat) (rest : Text) :
    readSizes sizes.length (cDimensions sizes ++ rest) = some (sizes, rest) := by
  induction sizes with
  | nil => rfl
  | cons size sizes ih =>
      have split : cDimensions (size :: sizes) ++ rest =
          ['['] ++ (Numeral.decimal size ++ ([']'] ++ (cDimensions sizes ++ rest))) := by
        simp [cDimensions]
      have decimal := Numeral.read_decimal_decimal size
        (bracket_ends_decimal (cDimensions sizes ++ rest))
      simp only [split, List.length_cons, readSizes, after?_append, decimal, ih,
        Option.bind_eq_bind, Option.bind_some, Option.pure_def]

theorem read_nested_rust_type (element : Text) (sizes : List Nat) (rest : Text) :
    readNested element sizes.length (rustType element sizes ++ rest) = some (sizes, rest) := by
  induction sizes generalizing rest with
  | nil =>
      change (after? element (element ++ rest)).map _ = _
      rw [after?_append]
      rfl
  | cons size sizes ih =>
      have split : rustType element (size :: sizes) ++ rest = ['['] ++ (rustType element sizes ++
          ("; ".toList ++ (Numeral.decimal size ++ ([']'] ++ rest)))) := by
        simp [rustType]
      have decimal := Numeral.read_decimal_decimal size (bracket_ends_decimal rest)
      simp only [split, List.length_cons, readNested, after?_append, decimal, ih,
        Option.bind_eq_bind, Option.bind_some, Option.pure_def]

theorem declaration_c (style : Style) (sizes : List Nat) (c : style.language = .c) :
    declaration style sizes =
      declarationHead style ++ (cDimensions sizes ++ declarationEnd style.language) := by
  simp [declaration, declarationHead, declarationEnd, elementText, c]

theorem declaration_rust (style : Style) (sizes : List Nat) (rust : style.language = .rust) :
    declaration style sizes = declarationHead style ++
      (rustType (elementText style) sizes ++ declarationEnd style.language) := by
  simp [declaration, declarationHead, declarationEnd, elementText, rust]

theorem read_declaration_of_split {style : Style} {sizes : List Nat} {line dimensions : Text}
    (split : line = declarationHead style ++ (dimensions ++ declarationEnd style.language))
    (read : readDimensions style (dimensions ++ declarationEnd style.language) =
      some (sizes, declarationEnd style.language)) :
    readDeclaration style line = some sizes := by
  rw [readDeclaration, split, after?_append, Option.bind_some, read]
  exact if_pos rfl

theorem read_declaration_declaration (style : Style) (sizes : List Nat)
    (depth : sizes.length = style.layout.depth) :
    readDeclaration style (declaration style sizes) = some sizes := by
  cases language : style.language with
  | c =>
      apply read_declaration_of_split (declaration_c style sizes language)
      rw [readDimensions, language, ← depth]
      exact read_sizes_c_dimensions sizes (declarationEnd .c)
  | rust =>
      apply read_declaration_of_split (declaration_rust style sizes language)
      rw [readDimensions, language, ← depth]
      exact read_nested_rust_type (elementText style) sizes (declarationEnd .rust)

end Bitfont.Literal
