import Mathlib.Data.List.Nodup
import Bitfont.CommandLine.Value
import Bitfont.Proofs.Except
import Bitfont.Proofs.Numeral
import Bitfont.Proofs.Text.Utf8

namespace Bitfont

theorem Numeral.read_positive_pos {limit value : Nat} {text : Text}
    (read : readPositive limit text = .ok value) : 0 < value := by
  obtain ⟨number, -, positive⟩ := bind_eq_ok_iff.mp read
  by_cases zero : number = 0
  · rw [if_pos zero] at positive
    contradiction
  · rw [if_neg zero] at positive
    obtain rfl := Except.ok.inj positive
    exact Nat.pos_of_ne_zero zero

namespace CommandLine

theorem find?_named {α : Type} (name : α → String) {items : List α} {item : α}
    (distinct : (items.map name).Nodup) (member : item ∈ items) :
    (items.find? fun other =>
      some (name other).toList = Utf8.decode? (Utf8.encode (name item).toList)) = some item := by
  rw [Utf8.decode?_encode]
  cases found : items.find? fun other => some (name other).toList = some (name item).toList with
  | none =>
      have unnamed := List.find?_eq_none.mp found item member
      exact absurd (decide_eq_true rfl) unnamed
  | some other =>
      have named := List.find?_some found
      rw [decide_eq_true_eq, Option.some_inj, String.toList_inj] at named
      exact congrArg some
        (List.inj_on_of_nodup_map distinct (List.mem_of_find?_eq_some found) member named)

namespace ValueReader

variable {value : Octets}

theorem into_eq_ok {α δ : Type} {reader : ValueReader α} {store : α → δ → δ} {change : δ → δ} :
    reader.into store value = .ok change ↔ ∃ setting, reader value = .ok setting ∧
      store setting = change :=
  map_eq_ok_iff

theorem text_encode (text : Text) : ValueReader.text (Utf8.encode text) = .ok text := by
  rw [ValueReader.text, Utf8.decode?_encode]

theorem path_nonempty (nonempty : value ≠ []) : path value = .ok value := by
  rw [path, if_neg (by simpa using nonempty)]

theorem word_eq_ok {α : Type} {words : List (String × α)} {meaning : α}
    (read : word words value = .ok meaning) :
    ∃ spelling, (spelling, meaning) ∈ words ∧ Utf8.decode? value = some spelling.toList := by
  unfold word at read
  cases found : words.find? fun word => some word.1.toList = Utf8.decode? value with
  | none =>
      rw [found] at read
      contradiction
  | some entry =>
      rw [found] at read
      obtain rfl := Except.ok.inj read
      have spelled := List.find?_some found
      exact ⟨entry.1, List.mem_of_find?_eq_some found, (of_decide_eq_true spelled).symm⟩

theorem word_encode {α : Type} {words : List (String × α)} {spelling : String} {meaning : α}
    (distinct : (words.map Prod.fst).Nodup) (member : (spelling, meaning) ∈ words) :
    word words (Utf8.encode spelling.toList) = .ok meaning := by
  rw [word, find?_named Prod.fst distinct member]

theorem integer_bounds {low high number : Nat} (read : integer low high value = .ok number) :
    low ≤ number ∧ number ≤ high := by
  obtain ⟨text, -, parsed⟩ := bind_eq_ok_iff.mp read
  cases outcome : Numeral.readInteger text with
  | error fault =>
      rw [outcome] at parsed
      contradiction
  | ok integer =>
      rw [outcome] at parsed
      dsimp only at parsed
      by_cases inside : (low : Int) ≤ integer ∧ integer ≤ high
      · rw [if_pos inside] at parsed
        obtain rfl := Except.ok.inj parsed
        omega
      · rw [if_neg inside] at parsed
        contradiction

theorem integer_decimal {low high number : Nat} (above : low ≤ number) (below : number ≤ high)
    (limit : high ≤ Numeral.maxInteger) :
    integer low high (Utf8.encode (Numeral.decimal number)) = .ok number := by
  have inside : (low : Int) ≤ Int.ofNat number ∧ Int.ofNat number ≤ (high : Int) :=
    ⟨Int.ofNat_le.mpr above, Int.ofNat_le.mpr below⟩
  refine bind_eq_ok_iff.mpr ⟨Numeral.decimal number, text_encode _, ?_⟩
  rw [Numeral.read_integer_decimal (Nat.le_trans below limit)]
  exact if_pos inside

theorem count_decimal {number : Nat} (below : number ≤ maxCount) :
    count (Utf8.encode (Numeral.decimal number)) = .ok number := by
  rw [count, text_encode]
  exact map_error_eq_ok_iff.mpr (Numeral.read_natural_decimal below)

theorem positive_count_pos {count : Nat} (read : positiveCount value = .ok count) : 0 < count := by
  obtain ⟨text, -, parsed⟩ := bind_eq_ok_iff.mp read
  exact Numeral.read_positive_pos (map_error_eq_ok_iff.mp parsed)

theorem positive_count_decodes {count : Nat} (read : positiveCount value = .ok count) :
    ∃ setting : String, Utf8.decode? value = some setting.toList := by
  obtain ⟨characters, decoded, -⟩ := bind_eq_ok_iff.mp read
  unfold text at decoded
  cases bytes : Utf8.decode? value with
  | none => simp [bytes] at decoded
  | some characters => exact ⟨String.ofList characters, by simp⟩

theorem positive_count_decimal {number : Nat} (positive : 0 < number) (below : number ≤ maxCount) :
    positiveCount (Utf8.encode (Numeral.decimal number)) = .ok number := by
  rw [positiveCount, text_encode]
  exact map_error_eq_ok_iff.mpr (Numeral.read_positive_decimal positive below)

theorem size_renderable {size : Binary32} (read : ValueReader.size value = .ok size) :
    SizedFont.isRenderableSize size = true := by
  obtain ⟨text, -, parsed⟩ := bind_eq_ok_iff.mp read
  cases outcome : Binary32.read text with
  | error fault =>
      rw [outcome] at parsed
      contradiction
  | ok number =>
      rw [outcome] at parsed
      dsimp only at parsed
      by_cases renderable : SizedFont.isRenderableSize number
      · rw [if_pos renderable] at parsed
        obtain rfl := Except.ok.inj parsed
        exact renderable
      · rw [if_neg renderable] at parsed
        contradiction

end ValueReader
end CommandLine
end Bitfont
