import Mathlib.Data.List.Intervals
import Bitfont.Strike.Build
import Bitfont.Proofs.Strike

namespace Bitfont

variable {σ ε : Type}

def Renderer.after (render : Renderer σ ε) (cell : Cell) : (count first : Nat) → σ → σ
  | 0, _, state => state
  | count + 1, first, state =>
      Renderer.after render cell count (first + 1) (render first cell state).state

-- Code after code from `first` up to `last`, each in the state that the earlier ones left, the
-- renderer gives these images, and they have the size of the cell.
def Renderer.Renders (render : Renderer σ ε) (cell : Cell) (first last : Nat) (state : σ)
    (images : Nat → GlyphImage) : Prop :=
  ∀ code, first ≤ code → code < last →
    (render code cell (Renderer.after render cell (code - first) first state)).result =
      .ok (images code) ∧ (images code).cell = cell

theorem Renderer.Renders.later {render : Renderer σ ε} {cell : Cell} {first last : Nat} {state : σ}
    {images : Nat → GlyphImage} (renders : Renderer.Renders render cell first last state images) :
    Renderer.Renders render cell (first + 1) last (render first cell state).state images := by
  intro code above below
  have rendered := renders code (by omega) below
  have step : code - first = (code - (first + 1)) + 1 := by omega
  rw [step] at rendered
  exact rendered

namespace Strike

variable {render : Renderer σ ε} {images : Nat → GlyphImage}

section Step

variable {strike next : Strike} {image : GlyphImage} {state : σ}

theorem extend_unrendered (count : Nat) {code : Nat} {error : ε}
    (failed : (render code strike.cell state).result = .error error) :
    extend render (count + 1) code strike state = ⟨.error (.rendering code error),
      (render code strike.cell state).state, (render code strike.cell state).log⟩ := by
  simp only [extend, failed]

theorem extend_refused (count : Nat) {code : Nat} {fault : CellFault}
    (rendered : (render code strike.cell state).result = .ok image)
    (refused : strike.push image = .error fault) :
    extend render (count + 1) code strike state = ⟨.error (.packing code fault),
      (render code strike.cell state).state, (render code strike.cell state).log⟩ := by
  simp only [extend, rendered, refused]

theorem extend_packed (count : Nat) {code : Nat}
    (rendered : (render code strike.cell state).result = .ok image)
    (pushed : strike.push image = .ok next) :
    extend render (count + 1) code strike state =
      let rest := extend render count (code + 1) next (render code strike.cell state).state
      ⟨rest.result, rest.state,
        (render code strike.cell state).log ++ packedEntry code :: rest.log⟩ := by
  simp only [extend, rendered, pushed]

end Step

theorem push_all_step {strike next : Strike} {image : GlyphImage} (pushed : strike.push image = .ok next)
    (later : List GlyphImage) :
    (strike.pushAll (image :: later)).1 = (next.pushAll later).1 := by
  simp only [pushAll, pushed]

theorem extend_renders (count : Nat) {first : Nat} (strike : Strike) {state : σ}
    (narrow : strike.cell.width ≤ maxRowWidth)
    (renders : Renderer.Renders render strike.cell first (first + count) state images) :
    (extend render count first strike state).result =
        .ok (strike.pushAll ((List.range' first count).map images)).1 ∧
      (extend render count first strike state).state =
        Renderer.after render strike.cell count first state := by
  induction count generalizing first strike state with
  | zero => exact ⟨rfl, rfl⟩
  | succ count ih =>
      obtain ⟨rendered, sized⟩ := renders first (Nat.le_refl _) (by omega)
      rw [Nat.sub_self, Renderer.after] at rendered
      obtain ⟨next, pushed⟩ : ∃ next, strike.push (images first) = .ok next :=
        ⟨_, push_eq_ok narrow sized⟩
      have sameCell := (push_frame narrow pushed).2
      -- The codes left are the induction's: one fewer, in the state that this rendering leaves.
      have later : Renderer.Renders render next.cell (first + 1) (first + 1 + count)
          (render first strike.cell state).state images := by
        rw [sameCell, Nat.add_assoc, Nat.add_comm 1]
        exact renders.later
      have rest := ih next (sameCell ▸ narrow) later
      rw [sameCell] at rest
      rw [extend_packed count rendered pushed, List.range'_succ, List.map_cons, push_all_step pushed,
        Renderer.after]
      exact rest

theorem push_all_renders {cell : Cell} {first last : Nat} {state : σ}
    (narrow : cell.width ≤ maxRowWidth)
    (renders : Renderer.Renders render cell first last state images) :
    (pushAll ⟨first, cell, #[]⟩ ((List.Ico first last).map images)).2 =
        (List.Ico first last).map images ∧
      (pushAll ⟨first, cell, #[]⟩ ((List.Ico first last).map images)).1.cell = cell ∧
      (pushAll ⟨first, cell, #[]⟩ ((List.Ico first last).map images)).1.Holds
        ((List.Ico first last).map images) := by
  have everyone : ((List.Ico first last).map images).filter (fun image => image.cell = cell) =
      (List.Ico first last).map images := by
    apply List.filter_eq_self.mpr
    intro image member
    obtain ⟨code, inside, rfl⟩ := List.mem_map.mp member
    obtain ⟨above, below⟩ := List.Ico.mem.mp inside
    exact decide_eq_true (renders code above below).2
  have taken := push_all_taken ⟨first, cell, #[]⟩ narrow ((List.Ico first last).map images)
  obtain ⟨holds, -, sameCell⟩ := push_all_fresh first narrow ((List.Ico first last).map images)
  rw [everyone] at taken
  rw [taken] at holds
  exact ⟨taken, sameCell, holds⟩

theorem build_renders {codes : CodeRange} {cell : Cell} {state : σ} (narrow : cell.width ≤ maxRowWidth)
    (renders : Renderer.Renders render cell codes.first codes.last state images) :
    (build render codes cell state).result =
        .ok (pushAll ⟨codes.first, cell, #[]⟩ ((List.Ico codes.first codes.last).map images)).1 ∧
      (build render codes cell state).state =
        Renderer.after render cell codes.size codes.first state := by
  have toLast : Renderer.Renders render cell codes.first (codes.first + codes.size) state images := by
    intro code above below
    rw [CodeRange.size] at below
    exact renders code above (by omega)
  have extended := extend_renders codes.size ⟨codes.first, cell, #[]⟩ narrow toLast
  rw [build, empty_eq_ok codes.first narrow]
  dsimp only
  rw [extended.1]
  exact ⟨rfl, extended.2⟩

theorem build_holds {codes : CodeRange} {cell : Cell} {state : σ}
    (narrow : cell.width ≤ maxRowWidth)
    (renders : Renderer.Renders render cell codes.first codes.last state images) :
    ∃ strike, (build render codes cell state).result = .ok strike ∧ strike.cell = cell ∧
      strike.Holds ((List.Ico codes.first codes.last).map images) :=
  ⟨_, (build_renders narrow renders).1, (push_all_renders narrow renders).2⟩

end Strike

end Bitfont
