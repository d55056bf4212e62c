import Bitfont.Proofs.Literal.Lines

namespace Bitfont.Literal

def GroupPerLine (source : RowSequence) (style : Style) (literal : Text) : Prop :=
  ∃ lines : List Text,
    literal = preamble style ++ declaration style (dimensions source style.layout) ++
      lines.flatMap (· ++ ['\n']) ++ closing style.language ∧
    List.Forall₂ (fun values line => '\n' ∉ line ∧ lineValues style.language line = some values)
      ((List.range (groupCount source)).map (groupValues source style.language)) lines

theorem split_on_fed_lines {lines : List Text} (unbroken : ∀ line ∈ lines, '\n' ∉ line) :
    (lines.flatMap (· ++ ['\n'])).splitOn '\n' = lines ++ [[]] := by
  induction lines with
  | nil => rfl
  | cons line lines ih =>
      have later := ih fun line member => unbroken line (List.mem_cons_of_mem _ member)
      have noFeed := unbroken line List.mem_cons_self
      rw [List.flatMap_cons, List.append_assoc, List.singleton_append,
        List.splitOn_append_cons_self_of_not_mem noFeed, later, List.cons_append]

theorem fed_lines_injective {lines others : List Text} (unbroken : ∀ line ∈ lines, '\n' ∉ line)
    (othersUnbroken : ∀ line ∈ others, '\n' ∉ line)
    (same : lines.flatMap (· ++ ['\n']) = others.flatMap (· ++ ['\n'])) : lines = others := by
  have split := congrArg (List.splitOn '\n') same
  rw [split_on_fed_lines unbroken, split_on_fed_lines othersUnbroken] at split
  exact List.append_cancel_right split

section Singles

variable {α : Type} {parts : List (List α)}

theorem length_le_length_flatten (nonempty : ∀ part ∈ parts, 0 < part.length) :
    parts.length ≤ parts.flatten.length := by
  induction parts with
  | nil => simp
  | cons first parts ih =>
      have later := ih fun part member => nonempty part (List.mem_cons_of_mem _ member)
      have positive := nonempty first List.mem_cons_self
      simp only [List.flatten_cons, List.length_cons, List.length_append]
      omega

theorem length_eq_one_of_flatten (nonempty : ∀ part ∈ parts, 0 < part.length)
    (length : parts.flatten.length = parts.length) : ∀ part ∈ parts, part.length = 1 := by
  induction parts with
  | nil => simp
  | cons first parts ih =>
      have laterNonempty : ∀ part ∈ parts, 0 < part.length :=
        fun part member => nonempty part (List.mem_cons_of_mem _ member)
      have positive := nonempty first List.mem_cons_self
      have later := length_le_length_flatten laterNonempty
      simp only [List.flatten_cons, List.length_cons, List.length_append] at length
      intro part member
      rcases List.mem_cons.mp member with rfl | behind
      · omega
      · exact ih laterNonempty (by omega) part behind

theorem forall₂_flatten_singles {β γ : Type} {related : γ → β → Prop} {items : List α} {value : α → γ}
    {part : α → List β} (single : ∀ item ∈ items, ∃ only, part item = [only] ∧ related (value item) only) :
    List.Forall₂ related (items.map value) (items.map part).flatten := by
  induction items with
  | nil => exact .nil
  | cons first items ih =>
      obtain ⟨only, alone, holds⟩ := single first List.mem_cons_self
      have later := ih fun item member => single item (List.mem_cons_of_mem _ member)
      simpa [alone] using And.intro holds later

end Singles

theorem groups_short_iff (source : RowSequence) (nonempty : 0 < source.rowCount) (language : Language) (limit : Nat) :
    (∀ group < groupCount source, (groupValues source language group).length ≤ limit) ↔
      groupSize source ≤ limit ∨ language = .c ∧ source.rowCount ≤ limit := by
  have length : ∀ group, (groupValues source language group).length =
      writtenRows source (group * groupSize source) language := by simp [group_values_eq_range]
  have first : 0 < groupCount source := (lt_group_count_iff source 0).mpr (by omega)
  simp only [length]
  cases language with
  | rust =>
      simp only [writtenRows, reduceCtorEq, false_and, or_false]
      exact ⟨fun short => short 0 first, fun short _ _ => short⟩
  | c =>
      simp only [writtenRows, true_and]
      constructor
      · intro short
        have firstShort := short 0 first
        omega
      · intro short group _
        omega

section Grouped

variable {source : RowSequence} {style : Style} {literal : Text}
  (positive : ∀ perLine, style.wrap = some perLine → 0 < perLine)

include positive

theorem group_block_length_pos {group : Nat} (inside : group < groupCount source) :
    0 < (groupBlock source style group).length := by
  have fills := group_block_fills_lines positive inside
  have values := List.length_pos_iff.mpr (group_values_ne_nil source style.language inside)
  have room := per_line_pos positive values
  have first := lt_ceil_div_iff room (groupValues source style.language group).length 0
  have count := fills.count
  omega

theorem group_block_length_eq_one_iff {group : Nat} (inside : group < groupCount source) :
    (groupBlock source style group).length = 1 ↔
      (groupValues source style.language group).length ≤
        style.wrap.getD (groupValues source style.language group).length := by
  have nonempty := group_block_length_pos positive inside
  have values := List.length_pos_iff.mpr (group_values_ne_nil source style.language inside)
  have second := lt_ceil_div_iff (per_line_pos positive values) (groupValues source style.language group).length 1
  have count := (group_block_fills_lines positive inside).count
  omega

theorem group_per_line_iff (grouped : style.layout = .grouped) (written : text source style = .ok literal) :
    GroupPerLine source style literal ↔ ∀ group < groupCount source,
      (groupValues source style.language group).length ≤
        style.wrap.getD (groupValues source style.language group).length := by
  obtain ⟨nonempty, -, rfl⟩ := (text_eq_ok_iff source style literal).mp written
  let blocks := (List.range (groupCount source)).map (groupBlock source style)
  have body : body source style = blocks.flatten.flatMap (· ++ ['\n']) := by
    rw [body_eq_blocks positive (Nat.pos_of_ne_zero nonempty), Literal.blocks, grouped]
  have filled : ∀ block ∈ blocks, ∃ group < groupCount source, groupBlock source style group = block := by
    simp [blocks]
  have unbroken : ∀ line ∈ blocks.flatten, '\n' ∉ line := by
    intro line member
    obtain ⟨block, isBlock, inBlock⟩ := List.mem_flatten.mp member
    obtain ⟨group, inside, rfl⟩ := filled block isBlock
    exact (group_block_fills_lines positive inside).unbroken line inBlock
  rw [body]
  constructor
  · rintro ⟨lines, same, perLine⟩ group inside
    have bodies := List.append_cancel_left (List.append_cancel_right same)
    have linesUnbroken := ((List.forall₂_and_left _ _).mp perLine.flip).1
    have lines_eq := fed_lines_injective unbroken linesUnbroken bodies
    have length : blocks.flatten.length = blocks.length := by
      rw [lines_eq, ← perLine.length_eq]
      simp [blocks]
    have nonemptyBlocks : ∀ block ∈ blocks, 0 < block.length := by
      intro block isBlock
      obtain ⟨other, isGroup, rfl⟩ := filled block isBlock
      exact group_block_length_pos positive isGroup
    have isBlock : groupBlock source style group ∈ blocks := List.mem_map_of_mem (List.mem_range.mpr inside)
    exact (group_block_length_eq_one_iff positive inside).mp
      (length_eq_one_of_flatten nonemptyBlocks length _ isBlock)
  · intro short
    refine ⟨blocks.flatten, rfl, forall₂_flatten_singles ?_⟩
    intro group member
    have inside := List.mem_range.mp member
    have fits := short group inside
    have fills := group_block_fills_lines positive inside
    obtain ⟨line, single⟩ := List.length_eq_one_iff.mp ((group_block_length_eq_one_iff positive inside).mpr fits)
    have held := fills.held 0 line (by simp [single])
    rw [Nat.zero_mul, List.drop_zero, List.take_of_length_le fits] at held
    exact ⟨line, single, fills.unbroken line (by simp [single]), held⟩

end Grouped
end Bitfont.Literal
