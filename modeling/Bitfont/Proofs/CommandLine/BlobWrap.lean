import Bitfont.Proofs.Blob
import Bitfont.Proofs.CommandLine.RasterizeDraft
import Bitfont.Proofs.Literal.GroupLines

namespace Bitfont

namespace Blob

theorem group_per_line_of_default_wrap {format : Format} {origin : Option Text} {blob : Array UInt8} {literal : Text}
    (grouped : format.layout = .grouped) (wrap : format.wrap = none ∨ format.wrap = some 12)
    (nonempty : blob.size ≠ 0)
    (written : Literal.text (format.glyphs blob).rowSequence (format.literalStyle origin) = .ok literal) :
    Literal.GroupPerLine (format.glyphs blob).rowSequence (format.literalStyle origin) literal ↔
      format.wrap = none ∨ format.glyphHeight ≤ 12 ∨ format.language = .c ∧ blob.size ≤ 12 := by
  have positive : ∀ perLine, (format.literalStyle origin).wrap = some perLine → 0 < perLine := by
    intro perLine given
    change format.wrap = some perLine at given
    rcases wrap with unwrapped | twelve
    · simp [unwrapped] at given
    · simp [twelve] at given
      omega
  have rows := blob_row_count format blob
  have size : Literal.groupSize (format.glyphs blob).rowSequence = max format.glyphHeight 1 := rfl
  have short := Literal.groups_short_iff (format.glyphs blob).rowSequence (by omega) format.language 12
  rw [Literal.group_per_line_iff positive grouped written]
  rw [rows, size] at short
  change (∀ group < _, _ ≤ format.wrap.getD _) ↔ _
  rcases wrap with unwrapped | twelve
  · simp [unwrapped]
  · rw [twelve]
    simp only [Option.getD_some, reduceCtorEq, false_or]
    refine short.trans ?_
    have same : max format.glyphHeight 1 ≤ 12 ↔ format.glyphHeight ≤ 12 := by omega
    rw [same]

end Blob

namespace CommandLine

theorem not_given_of_inits {arguments : List Octets} {option : String}
    (other : ∀ argument ∈ arguments, ∀ start ∈ argument.inits, Utf8.decode? start ≠ some ("--" ++ option).toList)
    (value : String) : ¬ Given arguments option value := by
  rintro ⟨name, setting, named, -, adjacent | joined⟩
  · exact other name (adjacent.subset List.mem_cons_self) name (by simp) named
  · exact other _ joined name (by simp) named

theorem read_blob {environment : Environment} {arguments : List Octets} {level : Log.Level}
    {request : BlobRequest} (read : CommandLine.read environment arguments = .ok ⟨level, .blob request⟩) :
    ∃ front own progress, arguments = front ++ own ∧ endOfOptions ∉ front ∧
      BlobDraft.command.read {} own = .ok progress ∧ progress.draft.finish progress.given = .ok request := by
  obtain ⟨before, front, own, subcommand, split, noEnd, made⟩ := read_program_eq_ok read
  cases subcommand with
  | help => contradiction
  | blob =>
      obtain ⟨progress, parsed, rest⟩ := bind_eq_ok_iff.mp made
      obtain ⟨finished, completed, same⟩ := bind_eq_ok_iff.mp rest
      cases same
      exact ⟨front, own, progress, split, noEnd, parsed, completed⟩
  | rasterize =>
      obtain ⟨progress, -, rest⟩ := bind_eq_ok_iff.mp made
      obtain ⟨finished, -, same⟩ := bind_eq_ok_iff.mp rest
      cases same
  | header =>
      obtain ⟨progress, -, rest⟩ := bind_eq_ok_iff.mp made
      obtain ⟨finished, -, same⟩ := bind_eq_ok_iff.mp rest
      cases same

namespace BlobDraft

variable {arguments : List Octets} {draft : BlobDraft} {change : BlobDraft → BlobDraft}

theorem stored_wrap {α : Type} {reader : ValueReader α} {value : Octets} {store : α → BlobDraft → BlobDraft}
    (accepted : reader.into store value = .ok change)
    (same : ∀ setting, (store setting draft).wrap = draft.wrap) : (change draft).wrap = draft.wrap := by
  obtain ⟨setting, -, rfl⟩ := ValueReader.into_eq_ok.mp accepted
  exact same setting

theorem positional_wrap {spec : Positional BlobDraft} (member : spec ∈ command.positionals) {value : Octets}
    (accepted : spec.store value = .ok change) : (change draft).wrap = draft.wrap := by
  simp only [command, positionals, List.mem_cons, List.not_mem_nil, or_false] at member
  obtain rfl | rfl := member <;> exact stored_wrap accepted fun _ => rfl

theorem changes_unwrapped (noWrap : ∀ value, ¬ Given arguments "wrap" value)
    (changes : command.Changes arguments change) (unwrapped : draft.wrap = none) : (change draft).wrap = none := by
  rw [← unwrapped]
  cases changes with
  | positional member given accepted => exact positional_wrap member accepted
  | flag member effect =>
      simp only [command, options, commonOptions, List.cons_append, List.nil_append, List.mem_cons,
        List.not_mem_nil, or_false] at member
      obtain rfl | rfl | rfl | rfl | rfl | rfl | rfl | rfl | rfl | rfl := member <;> cases effect
      rfl
  | option member effect given accepted =>
      simp only [command, options, commonOptions, List.cons_append, List.nil_append, List.mem_cons,
        List.not_mem_nil, or_false] at member
      obtain rfl | rfl | rfl | rfl | rfl | rfl | rfl | rfl | rfl | rfl := member <;> cases effect
      any_goals exact stored_wrap accepted fun _ => rfl
      -- The option that is left is the wrap, which is not given.
      obtain ⟨count, read, -⟩ := ValueReader.into_eq_ok.mp accepted
      obtain ⟨setting, decoded⟩ := ValueReader.positive_count_decodes read
      exact absurd (given.long rfl decoded) (noWrap setting)

theorem format_wrap_of_none (unwrapped : draft.wrap = none) :
    draft.format.wrap = none ∨ draft.format.wrap = some 12 := by
  cases flag : draft.noWrap <;> simp [format, flag, unwrapped]

theorem finish_format {given : List String} {request : BlobRequest}
    (finished : draft.finish given = .ok request) : request.format = draft.format := by
  unfold finish at finished
  cases excluded : draft.conflict given with
  | some error => simp [excluded] at finished
  | none =>
      cases input : draft.input with
      | none => simp [excluded, input] at finished
      | some path =>
          simp only [excluded, input, Except.ok.injEq] at finished
          rw [← finished]

end BlobDraft

theorem blob_wrap_without_option {environment : Environment} {arguments : List Octets} {level : Log.Level}
    {request : BlobRequest} (read : CommandLine.read environment arguments = .ok ⟨level, .blob request⟩)
    (noWrap : ∀ value, ¬ Given (beforeEnd arguments) "wrap" value) :
    request.format.wrap = none ∨ request.format.wrap = some 12 := by
  obtain ⟨front, own, progress, rfl, noEnd, parsed, finished⟩ := read_blob read
  have ownNoWrap : ∀ value, ¬ Given (beforeEnd own) "wrap" value := by
    intro value given
    rw [before_end_append noEnd] at noWrap
    exact noWrap value (given.of_suffix (List.suffix_append front _))
  let keeps (draft : BlobDraft) : Prop := draft.wrap = none
  have keepsChanges : ∀ change, BlobDraft.command.Changes (beforeEnd own) change →
      ∀ draft, keeps draft → keeps (change draft) :=
    fun change changes draft => BlobDraft.changes_unwrapped ownNoWrap changes
  have keepsPositionals : ∀ spec ∈ BlobDraft.command.positionals, ∀ value change, spec.store value = .ok change →
      ∀ draft, keeps draft → keeps (change draft) :=
    fun spec member value change accepted draft => (BlobDraft.positional_wrap member accepted).trans
  have unwrapped : keeps progress.draft := Command.read_keeps_before_end keepsChanges keepsPositionals rfl parsed
  rw [BlobDraft.finish_format finished]
  exact BlobDraft.format_wrap_of_none unwrapped

-- A glyph keeps to one line up to twelve rows. By default it has sixteen.
theorem grouped_blob_group_per_line_iff {environment : Environment} {arguments : List Octets} {level : Log.Level}
    {request : BlobRequest} (read : CommandLine.read environment arguments = .ok ⟨level, .blob request⟩)
    (grouped : request.format.layout = .grouped)
    (noWrap : ∀ value, ¬ Given (beforeEnd arguments) "wrap" value)
    (blob : Array UInt8) (nonempty : blob.size ≠ 0) (origin : Option Text) :
    (request.format.wrap = none ∨ request.format.wrap = some 12) ∧
    ∃ converted, Blob.convert request.format origin blob = .ok converted ∧
      (Literal.GroupPerLine (request.format.glyphs blob).rowSequence (request.format.literalStyle origin)
          converted.text ↔
        request.format.wrap = none ∨ request.format.glyphHeight ≤ 12 ∨
          request.format.language = .c ∧ blob.size ≤ 12) := by
  have wrap := blob_wrap_without_option read noWrap
  refine ⟨wrap, ?_⟩
  cases success : Blob.convert request.format origin blob with
  | error fault => exact absurd ((Blob.convert_eq_error_iff _ origin blob fault).mp success).1 nonempty
  | ok converted =>
      refine ⟨converted, rfl, ?_⟩
      have written := ((Blob.convert_eq_ok_iff _ origin blob converted).mp success).1
      exact Blob.group_per_line_of_default_wrap grouped wrap nonempty written

theorem eight_rows_keep_to_one_line :
    let arguments := ["blob", "f", "--layout=grouped", "--rows-per-glyph=8"].map (Utf8.encode ·.toList)
    let format : Blob.Format := ⟨8, 4096, "builtin_font".toList, .grouped, .c, .lower, some 12⟩
    let blob : Array UInt8 := Array.replicate 16 0
    CommandLine.read [] arguments = .ok ⟨.info, .blob ⟨Utf8.encode "f".toList, .standardOutput, format⟩⟩ ∧
      (∀ value, ¬ Given (beforeEnd arguments) "wrap" value) ∧ blob.size ≠ 0 ∧
      ∃ converted, Blob.convert format none blob = .ok converted ∧
        Literal.GroupPerLine (format.glyphs blob).rowSequence (format.literalStyle none) converted.text := by
  intro arguments format blob
  have read : CommandLine.read [] arguments =
      .ok ⟨.info, .blob ⟨Utf8.encode "f".toList, .standardOutput, format⟩⟩ := by decide +kernel
  have noWrap : ∀ value, ¬ Given (beforeEnd arguments) "wrap" value := not_given_of_inits (by decide +kernel)
  have nonempty : blob.size ≠ 0 := by simp [blob]
  obtain ⟨-, converted, success, oneLine⟩ := grouped_blob_group_per_line_iff read rfl noWrap blob nonempty none
  exact ⟨read, noWrap, nonempty, converted, success, oneLine.mpr (.inr (.inl (by decide)))⟩

theorem sixteen_rows_take_two_lines :
    let arguments := ["blob", "f", "--layout=grouped", "--expected-size=16"].map (Utf8.encode ·.toList)
    let format : Blob.Format := ⟨16, 16, "builtin_font".toList, .grouped, .c, .lower, some 12⟩
    let blob : Array UInt8 := Array.replicate 16 0
    let origin : Option Text := some "f".toList
    CommandLine.read [] arguments = .ok ⟨.info, .blob ⟨Utf8.encode "f".toList, .standardOutput, format⟩⟩ ∧
      (∀ value, ¬ Given (beforeEnd arguments) "wrap" value) ∧
      ∃ converted, Blob.convert format origin blob = .ok converted ∧
        ¬ Literal.GroupPerLine (format.glyphs blob).rowSequence (format.literalStyle origin) converted.text ∧
        converted.text = ("#include <stdint.h>\n// generated from f\n" ++
          "static const uint8_t builtin_font[1][16] = \x7b\n" ++
          "    \x7b 0x00, 0x00, 0x00, 0x00, 0x00, 0x00, 0x00, 0x00, 0x00, 0x00, 0x00, 0x00,\n" ++
          "      0x00, 0x00, 0x00, 0x00 \x7d,\n\x7d;\n").toList := by
  intro arguments format blob origin
  have read : CommandLine.read [] arguments =
      .ok ⟨.info, .blob ⟨Utf8.encode "f".toList, .standardOutput, format⟩⟩ := by decide +kernel
  have noWrap : ∀ value, ¬ Given (beforeEnd arguments) "wrap" value := not_given_of_inits (by decide +kernel)
  cases success : Blob.convert format origin blob with
  | error fault =>
      have empty := ((Blob.convert_eq_error_iff format origin blob fault).mp success).1
      simp [blob] at empty
  | ok converted =>
      have written := ((Blob.convert_eq_ok_iff format origin blob converted).mp success).1
      have oneLine := Blob.group_per_line_of_default_wrap rfl (.inr rfl) (by simp [blob]) written
      have text := ((Literal.text_eq_ok_iff _ _ _).mp written).2.2
      refine ⟨read, noWrap, converted, rfl, fun kept => ?_, text.symm.trans (by decide +kernel)⟩
      have short := oneLine.mp kept
      simp [format, blob] at short

end CommandLine
end Bitfont
