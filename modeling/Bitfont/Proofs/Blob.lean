import Bitfont.Blob
import Bitfont.Proofs.Literal.Rows
import Bitfont.Proofs.PackedGlyphs

namespace Bitfont.Blob

variable (format : Format) (origin : Option Text) (blob : Array UInt8)

theorem blob_row_bytes : (format.glyphs blob).cell.rowBytes = 1 := by
  change (8 + 7) / 8 = 1
  rfl

theorem blob_row_count : (format.glyphs blob).rowSequence.rowCount = blob.size := by
  change blob.size / (format.glyphs blob).cell.rowBytes = blob.size
  rw [blob_row_bytes, Nat.div_one]

theorem blob_row (index : Nat) :
    (format.glyphs blob).rowSequence.row index = (blob.toList[index]?.map UInt8.toNat).getD 0 := by
  change (((slice? blob (index * (format.glyphs blob).cell.rowBytes)
    (format.glyphs blob).cell.rowBytes).map PackedRow.ofBytes).getD 0) = _
  rw [blob_row_bytes, Nat.mul_one]
  by_cases inside : index < blob.size
  · have byte : blob.toList[index]? = some blob[index] := by simp [inside]
    have small : blob[index].toNat < 256 := blob[index].toNat_lt
    have single : (blob.toList.drop index).take 1 = [blob[index]] := by
      rw [List.drop_eq_getElem_cons (by simpa using inside)]
      simp
    have value : PackedRow.ofBytes [blob[index]] = blob[index].toNat := by
      change (0 * 256 + blob[index].toNat) % 0x10000 = blob[index].toNat
      omega
    rw [slice?_inside inside, byte, single, Option.map_some, value]
    rfl
  · have beyond : blob.toList[index]? = none := by simpa using inside
    rw [slice?_eq, if_neg (show ¬ index + 1 ≤ blob.size from inside), beyond]
    rfl

theorem blob_rows {count : Nat} (all : blob.size ≤ count) :
    (List.range count).map (format.glyphs blob).rowSequence.row =
      blob.toList.map UInt8.toNat ++ List.replicate (count - blob.size) 0 := by
  apply List.ext_getElem
  · simp
    omega
  · intro index inside _
    have bound : index < count := by simpa using inside
    rw [List.getElem_map, List.getElem_range, blob_row]
    by_cases isByte : index < blob.size
    · rw [List.getElem_append_left (by simpa using isByte)]
      simp [isByte]
    · rw [List.getElem_append_right (by simpa using isByte)]
      simp [isByte]

theorem convert_eq_map :
    convert format origin blob =
      (Literal.text (format.glyphs blob).rowSequence (format.literalStyle origin)).map fun text =>
        { text := text
          glyphCount := (format.glyphs blob).glyphCount
          leftoverRows := (format.glyphs blob).leftoverRows
          warning := checkSize blob.size format.nominalSize } := by
  change (Literal.text (format.glyphs blob).rowSequence (format.literalStyle origin)).bind _ = _
  cases Literal.text (format.glyphs blob).rowSequence (format.literalStyle origin) <;> rfl

theorem convert_eq_ok_iff (converted : Converted) :
    convert format origin blob = .ok converted ↔
      Literal.text (format.glyphs blob).rowSequence (format.literalStyle origin) =
        .ok converted.text ∧
      converted.glyphCount = (format.glyphs blob).glyphCount ∧
      converted.leftoverRows = (format.glyphs blob).leftoverRows ∧
      converted.warning = checkSize blob.size format.nominalSize := by
  obtain ⟨literal, count, leftover, warning⟩ := converted
  rw [convert_eq_map]
  cases Literal.text (format.glyphs blob).rowSequence (format.literalStyle origin) with
  | error fault => simp [Except.map]
  | ok text => simp [Except.map, eq_comm]

-- A blob is never too wide: its rows and the elements have eight bits each.
theorem convert_eq_error_iff (fault : Literal.Fault) :
    convert format origin blob = .error fault ↔ blob.size = 0 ∧ fault = .noRows := by
  have faults := Literal.text_eq_error_iff (format.glyphs blob).rowSequence
    (format.literalStyle origin) fault
  have fits : ¬ (format.literalStyle origin).element.bits < (format.glyphs blob).rowSequence.rowWidth :=
    Nat.lt_irrefl 8
  rw [blob_row_count] at faults
  rw [convert_eq_map]
  cases written : Literal.text (format.glyphs blob).rowSequence (format.literalStyle origin) with
  | error cause => simpa [written, fits, Except.map] using faults
  | ok text => simpa [written, fits, Except.map] using faults

theorem convert_text_nominal_size (nominalSize : Nat) :
    (convert { format with nominalSize := nominalSize } origin blob).map Converted.text =
      (convert format origin blob).map Converted.text := by
  rw [convert_eq_map, convert_eq_map]
  change ((Literal.text (format.glyphs blob).rowSequence (format.literalStyle origin)).map _).map _ = _
  cases Literal.text (format.glyphs blob).rowSequence (format.literalStyle origin) <;> rfl

theorem rows_of_blob :
    (format.glyphs blob).glyphCount * format.glyphHeight + (format.glyphs blob).leftoverRows =
      blob.size :=
  (format.glyphs blob).rows_of_glyphs.trans (blob_row_count format blob)

theorem group_size_of_blob (tall : 1 ≤ format.glyphHeight) :
    Literal.groupSize (format.glyphs blob).rowSequence = format.glyphHeight := Nat.max_eq_left tall

theorem grouped_length_of_blob (tall : 1 ≤ format.glyphHeight) (language : Literal.Language) :
    ∃ zeros, Literal.groupedLength (format.glyphs blob).rowSequence language = blob.size + zeros ∧
      match language with
      | .c => zeros = 0
      | .rust => zeros < format.glyphHeight ∧ format.glyphHeight ∣ blob.size + zeros := by
  have size := group_size_of_blob format blob tall
  have rows := blob_row_count format blob
  cases language with
  | c => exact ⟨0, rows, rfl⟩
  | rust =>
      have whole := Literal.row_count_le_groups (format.glyphs blob).rowSequence
      have count := Literal.lt_group_count_iff (format.glyphs blob).rowSequence
        (Literal.groupCount (format.glyphs blob).rowSequence - 1)
      rw [rows, size] at whole count
      rw [Literal.groupedLength, size]
      generalize Literal.groupCount (format.glyphs blob).rowSequence = groups at whole count
      refine ⟨groups * format.glyphHeight - blob.size, by omega, ?_, ?_⟩
      · cases groups with
        | zero => omega
        | succ groups =>
            have started := count.mp (Nat.lt_succ_self groups)
            rw [Nat.add_sub_cancel] at started
            rw [Nat.succ_mul]
            omega
      · rw [Nat.add_sub_cancel' whole]
        exact Nat.dvd_mul_left _ _

theorem conversion_is_lossless (tall : 1 ≤ format.glyphHeight) :
    (∀ fault, convert format origin blob = .error fault ↔ blob.size = 0 ∧ fault = .noRows) ∧
    (∀ nominalSize, (convert { format with nominalSize := nominalSize } origin blob).map Converted.text =
      (convert format origin blob).map Converted.text) ∧
    ∀ converted, convert format origin blob = .ok converted →
      (∃ sizes groups zeros,
        Literal.Denotes (format.literalStyle origin) converted.text sizes groups ∧
        groups.flatten = blob.toList.map UInt8.toNat ++ List.replicate zeros 0 ∧
        match format.layout, format.language with
        | .flat, _ => sizes = [blob.size] ∧ zeros = 0
        | .grouped, .c => sizes = [blob.size ⌈/⌉ format.glyphHeight, format.glyphHeight] ∧ zeros = 0
        | .grouped, .rust => sizes = [blob.size ⌈/⌉ format.glyphHeight, format.glyphHeight] ∧
            zeros < format.glyphHeight ∧ format.glyphHeight ∣ blob.size + zeros) ∧
      converted.glyphCount * format.glyphHeight + converted.leftoverRows = blob.size ∧
      converted.leftoverRows < format.glyphHeight ∧
      (converted.warning.isSome = true ↔ blob.size ≠ format.nominalSize) := by
  refine ⟨convert_eq_error_iff format origin blob, convert_text_nominal_size format origin blob, ?_⟩
  intro converted success
  obtain ⟨written, count, leftover, warning⟩ := (convert_eq_ok_iff format origin blob converted).mp success
  rw [count, leftover, warning]
  refine ⟨?_, rows_of_blob format blob, (format.glyphs blob).leftover_rows_lt tall, ?_⟩
  · have rows := blob_row_count format blob
    have size := group_size_of_blob format blob tall
    cases layout : format.layout with
    | flat =>
        have denotes := Literal.denotes_flat _ (format.literalStyle origin) layout written
        have values := blob_rows format blob (Nat.le_refl blob.size)
        rw [rows] at denotes
        rw [Nat.sub_self] at values
        exact ⟨_, _, 0, denotes, by simpa using values, rfl, rfl⟩
    | grouped =>
        have denotes := Literal.denotes_grouped _ (format.literalStyle origin) layout written
        have flat := Literal.flatten_group_values (format.glyphs blob).rowSequence format.language
        obtain ⟨zeros, length, few⟩ := grouped_length_of_blob format blob tall format.language
        have values := blob_rows format blob (Nat.le_add_right blob.size zeros)
        rw [Literal.group_count_eq_ceil_div, length, values, Nat.add_sub_cancel_left] at flat
        rw [rows, size] at denotes flat
        refine ⟨_, _, zeros, denotes, flat, ?_⟩
        cases language : format.language with
        | c =>
            rw [language] at few
            exact ⟨rfl, few⟩
        | rust =>
            rw [language] at few
            exact ⟨rfl, few⟩
  · unfold checkSize
    by_cases nominal : blob.size = format.nominalSize
    · simp [nominal]
    · simp [nominal]

-- Three bytes in groups of two: one zero fills up the second group.
theorem short_blob_is_lossless :
    let format : Format := ⟨2, 4096, "f".toList, .grouped, .rust, .lower, none⟩
    let blob : Array UInt8 := #[0x81, 0, 0xFF]
    1 ≤ format.glyphHeight ∧ ∃ converted groups, convert format none blob = .ok converted ∧
      Literal.Denotes (format.literalStyle none) converted.text [2, 2] groups ∧
      groups.flatten = [0x81, 0, 0xFF, 0] ∧ converted.glyphCount * 2 + converted.leftoverRows = 3 ∧
      converted.warning.isSome = true := by
  intro format blob
  refine ⟨by decide, ?_⟩
  obtain ⟨errors, -, lossless⟩ := conversion_is_lossless format none blob (by decide)
  cases success : convert format none blob with
  | error fault => exact absurd ((errors fault).mp success).1 (by decide)
  | ok converted =>
      obtain ⟨⟨sizes, groups, zeros, denotes, values, rfl, few, multiple⟩, counted, -, warned⟩ :=
        lossless converted success
      have two : blob.size ⌈/⌉ format.glyphHeight = 2 := by decide
      obtain rfl : zeros = 1 := by
        change zeros < 2 at few
        change 2 ∣ 3 + zeros at multiple
        omega
      rw [two] at denotes
      exact ⟨converted, groups, rfl, denotes, values, counted, warned.mpr (by decide)⟩

end Bitfont.Blob
