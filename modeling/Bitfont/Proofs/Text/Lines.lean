import Mathlib.Data.List.Basic
import Mathlib.Data.List.TakeWhile
import Bitfont.Text

namespace Bitfont.Text

section Span

variable {α : Type} {p : α → Bool} {body rest : List α}

theorem take_while_span (inside : ∀ item ∈ body, p item) (stops : ∀ item ∈ rest.head?, p item = false) :
    (body ++ rest).takeWhile p = body := by
  rw [List.takeWhile_append_of_pos inside]
  cases rest with
  | nil => simp
  | cons item later => simp [stops item rfl]

theorem drop_while_span (inside : ∀ item ∈ body, p item) (stops : ∀ item ∈ rest.head?, p item = false) :
    (body ++ rest).dropWhile p = rest := by
  rw [List.dropWhile_append_of_pos inside]
  cases rest with
  | nil => rfl
  | cons item later => simp [stops item rfl]

theorem stops_append (inside : ∀ item ∈ body, p item = false)
    (stops : ∀ item ∈ rest.head?, p item = false) : ∀ item ∈ (body ++ rest).head?, p item = false := by
  cases body with
  | nil => exact stops
  | cons first later =>
      rintro item ⟨⟩
      exact inside first List.mem_cons_self

end Span

structure IsTrimmed (line core : Text) : Prop where
  around : ∃ front back, (∀ c ∈ front, isBlank c) ∧ (∀ c ∈ back, isBlank c) ∧ line = front ++ core ++ back
  first : ∀ c ∈ core.head?, isBlank c = false
  last : ∀ c ∈ core.getLast?, isBlank c = false

section Trim

theorem head?_trim_start (text : Text) : ∀ c ∈ (trimStart text).head?, isBlank c = false := by
  intro c first
  have stops := List.head?_dropWhile_not isBlank text
  rw [trimStart, Option.mem_def] at first
  rwa [first] at stops

theorem trim_start_append (text : Text) :
    ∃ front, (∀ c ∈ front, isBlank c) ∧ text = front ++ trimStart text :=
  ⟨text.takeWhile isBlank, fun _ => List.mem_takeWhile_imp, List.takeWhile_append_dropWhile.symm⟩

theorem trim_end_eq_reverse (text : Text) : trimEnd text = (trimStart text.reverse).reverse := rfl

theorem trim_end_append (text : Text) :
    ∃ back, (∀ c ∈ back, isBlank c) ∧ text = trimEnd text ++ back := by
  obtain ⟨front, blank, whole⟩ := trim_start_append text.reverse
  refine ⟨front.reverse, fun c member => blank c (List.mem_reverse.mp member), ?_⟩
  rw [trim_end_eq_reverse, ← List.reverse_append, ← whole, List.reverse_reverse]

theorem trim_is_trimmed (line : Text) : IsTrimmed line (trim line) := by
  obtain ⟨front, frontBlank, fromStart⟩ := trim_start_append line
  obtain ⟨back, backBlank, toEnd⟩ := trim_end_append (trimStart line)
  refine ⟨⟨front, back, frontBlank, backBlank, ?_⟩, ?_, ?_⟩
  · rw [List.append_assoc, trim, ← toEnd, ← fromStart]
  · intro c first
    apply head?_trim_start line
    rw [Option.mem_def] at first ⊢
    rw [toEnd, List.head?_append]
    exact Option.or_eq_some_iff.mpr (.inl first)
  · intro c last
    rw [trim, trim_end_eq_reverse, List.getLast?_reverse] at last
    exact head?_trim_start _ c last

theorem IsTrimmed.trim_eq {line core : Text} (trimmed : IsTrimmed line core) : trim line = core := by
  obtain ⟨⟨front, back, frontBlank, backBlank, rfl⟩, first, last⟩ := trimmed
  by_cases empty : core = []
  · -- A blank line is dropped as a whole at its start.
    have blank : ∀ c ∈ front ++ core ++ back, isBlank c := by
      simpa [empty, or_imp, forall_and] using ⟨frontBlank, backBlank⟩
    rw [trim, trimStart, List.dropWhile_eq_nil_iff.mpr blank, empty]
    rfl
  · have start : trimStart (front ++ core ++ back) = core ++ back := by
      rw [List.append_assoc]
      apply drop_while_span frontBlank
      rwa [List.head?_append_of_ne_nil _ empty]
    have stop : trimStart (core ++ back).reverse = core.reverse := by
      rw [List.reverse_append]
      apply drop_while_span
      · exact fun c member => backBlank c (List.mem_reverse.mp member)
      · rwa [List.head?_reverse]
    rw [trim, start, trim_end_eq_reverse, stop, List.reverse_reverse]

theorem trim_eq_self {text : Text} (first : ∀ c ∈ text.head?, isBlank c = false)
    (last : ∀ c ∈ text.getLast?, isBlank c = false) : trim text = text := by
  have nothing : ∀ c ∈ ([] : Text), isBlank c := List.forall_mem_nil _
  have trimmed : IsTrimmed text text :=
    ⟨⟨[], [], nothing, nothing, (List.append_nil text).symm⟩, first, last⟩
  exact trimmed.trim_eq

theorem trim_padded {front back : Text} (frontBlank : ∀ c ∈ front, isBlank c)
    (backBlank : ∀ c ∈ back, isBlank c) (line : Text) : trim (front ++ line ++ back) = trim line := by
  obtain ⟨⟨before, after, beforeBlank, afterBlank, whole⟩, first, last⟩ := trim_is_trimmed line
  have padded : IsTrimmed (front ++ line ++ back) (trim line) := by
    refine ⟨⟨front ++ before, after ++ back, List.forall_mem_append.mpr ⟨frontBlank, beforeBlank⟩,
      List.forall_mem_append.mpr ⟨afterBlank, backBlank⟩, ?_⟩, first, last⟩
    simpa only [List.append_assoc] using congrArg (front ++ · ++ back) whole
  exact padded.trim_eq

end Trim

theorem trim_subset (text : Text) : trim text ⊆ text := by
  intro c member
  have inStart := (List.dropWhile_sublist isBlank).subset (List.mem_reverse.mp member)
  exact (List.dropWhile_sublist isBlank).subset (List.mem_reverse.mp inStart)

-- A line that is read as it was written: it has no line feed, and no carriage return that would be
-- taken for a part of its end.
structure IsLine (line : Text) : Prop where
  noLineFeed : '\n' ∉ line
  noReturn : line.getLast? ≠ some '\r'

theorem lines_cons {line : Text} (noLineFeed : '\n' ∉ line) (later : Text) :
    lines (line ++ '\n' :: later) = dropReturn line :: lines later := by
  have more := List.splitOn_ne_nil '\n' later
  simp only [lines, List.splitOn_append_cons_self_of_not_mem noLineFeed,
    List.dropLast_cons_of_ne_nil more, List.getLast?_cons_of_ne_nil more, List.map_cons, List.cons_append]

theorem lines_last {line : Text} (noLineFeed : '\n' ∉ line) (nonempty : line ≠ []) :
    lines line = [line] := by
  have kept : (!line.isEmpty) = true := by simpa using nonempty
  simp [lines, List.splitOn_eq_singleton noLineFeed, Option.filter, kept]

-- By the number of line feeds: what stands before the first one, and what stands after it.
@[elab_as_elim]
theorem by_lines {motive : Text → Prop} (last : ∀ line : Text, '\n' ∉ line → motive line)
    (fed : ∀ line rest : Text, '\n' ∉ line → motive rest → motive (line ++ '\n' :: rest))
    (text : Text) : motive text := by
  induction length : text.length using Nat.strongRecOn generalizing text with
  | ind size ih =>
      by_cases more : '\n' ∈ text
      · obtain ⟨line, rest, rfl, noLineFeed⟩ := List.eq_append_cons_of_mem more
        have shorter : rest.length < size := by
          rw [← length, List.length_append, List.length_cons]
          omega
        exact fed line rest noLineFeed (ih rest.length shorter rest rfl)
      · exact last text more

-- A text and its lines. A line ends at a line feed, or at a carriage return and a line feed, and the last
-- one, if it is not empty, also at the end of the text.
inductive HasLines : Text → List Text → Prop where
  | nil : HasLines [] []
  | last {line : Text} (noLineFeed : '\n' ∉ line) (nonempty : line ≠ []) : HasLines line [line]
  | fed {line rest : Text} {later : List Text} (whole : IsLine line) (more : HasLines rest later) :
      HasLines (line ++ '\n' :: rest) (line :: later)
  | returned {line rest : Text} {later : List Text} (noLineFeed : '\n' ∉ line)
      (more : HasLines rest later) : HasLines (line ++ '\r' :: '\n' :: rest) (line :: later)

theorem has_lines_lines (text : Text) : HasLines text (lines text) := by
  induction text using by_lines with
  | last line ended =>
      by_cases empty : line = []
      · subst empty
        exact .nil
      · rw [lines_last ended empty]
        exact .last ended empty
  | fed line rest noLineFeed later =>
      rw [lines_cons noLineFeed]
      by_cases returns : line.getLast? = some '\r'
      · obtain ⟨front, rfl⟩ := List.getLast?_eq_some_iff.mp returns
        rw [dropReturn, if_pos returns, List.dropLast_concat, List.append_assoc]
        exact .returned (fun inside => noLineFeed (List.mem_append_left _ inside)) later
      · rw [dropReturn, if_neg returns]
        exact .fed ⟨noLineFeed, returns⟩ later

theorem HasLines.lines_eq {text : Text} {kept : List Text} (has : HasLines text kept) :
    lines text = kept := by
  induction has with
  | nil => rfl
  | last noLineFeed nonempty => exact lines_last noLineFeed nonempty
  | fed whole more ih => rw [lines_cons whole.noLineFeed, dropReturn, if_neg whole.noReturn, ih]
  | @returned line rest later noLineFeed more ih =>
      have ended : '\n' ∉ line ++ ['\r'] := by simpa using noLineFeed
      have lineEnd : line ++ '\r' :: '\n' :: rest = (line ++ ['\r']) ++ '\n' :: rest := by
        rw [List.append_assoc, List.singleton_append]
      rw [lineEnd, lines_cons ended, dropReturn, if_pos List.getLast?_concat, List.dropLast_concat, ih]

theorem has_lines_iff {text : Text} {kept : List Text} : HasLines text kept ↔ kept = lines text :=
  ⟨fun has => has.lines_eq.symm, fun same => same ▸ has_lines_lines text⟩

theorem has_lines_flat_map {kept : List Text} (whole : ∀ line ∈ kept, IsLine line) :
    HasLines (kept.flatMap (· ++ ['\n'])) kept := by
  induction kept with
  | nil => exact .nil
  | cons line kept ih =>
      have later := ih fun line member => whole line (List.mem_cons_of_mem _ member)
      rw [List.flatMap_cons, List.append_assoc, List.singleton_append]
      exact .fed (whole line List.mem_cons_self) later

theorem not_mem_of_mem_split_on {mark : Char} {text part : Text} (member : part ∈ text.splitOn mark) :
    mark ∉ part := by
  induction text generalizing part with
  | nil =>
      obtain rfl := List.mem_singleton.mp member
      exact List.not_mem_nil
  | cons c text ih =>
      obtain ⟨first, others, parts⟩ := List.exists_cons_of_ne_nil (List.splitOn_ne_nil mark text)
      rw [List.splitOn_cons_eq_if_modifyHead, parts] at member
      rw [parts] at ih
      by_cases same : c = mark
      · rw [if_pos (beq_iff_eq.mpr same)] at member
        rcases List.mem_cons.mp member with rfl | later
        · exact List.not_mem_nil
        · exact ih later
      · rw [if_neg (by simpa using same), List.modifyHead_cons] at member
        rcases List.mem_cons.mp member with rfl | later
        · exact List.not_mem_cons_of_ne_of_not_mem (Ne.symm same) (ih List.mem_cons_self)
        · exact ih (List.mem_cons_of_mem _ later)

theorem drop_return_subset (line : Text) : dropReturn line ⊆ line := by
  unfold dropReturn
  split
  · exact List.dropLast_subset line
  · exact List.Subset.refl line

theorem trim_drop_return (line : Text) : trim (dropReturn line) = trim line := by
  unfold dropReturn
  split
  · next returns =>
      obtain ⟨front, rfl⟩ := List.getLast?_eq_some_iff.mp returns
      rw [List.dropLast_concat]
      exact (trim_padded (List.forall_mem_nil _) (List.forall_mem_singleton.mpr rfl) front).symm
  · rfl

theorem line_feed_not_mem_lines {text line : Text} (member : line ∈ lines text) : '\n' ∉ line := by
  unfold lines at member
  rcases List.mem_append.mp member with ended | final
  · obtain ⟨part, split, rfl⟩ := List.mem_map.mp ended
    have none := not_mem_of_mem_split_on (List.dropLast_subset _ split)
    exact fun inside => none (drop_return_subset part inside)
  · obtain ⟨found, -⟩ := Option.filter_eq_some_iff.mp (Option.mem_toList.mp final)
    exact not_mem_of_mem_split_on (List.mem_of_getLast? found)

end Bitfont.Text
