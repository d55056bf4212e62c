import Mathlib.Order.Nat
import Bitfont.Proofs.Strike.Build

namespace Bitfont

variable {σ ε : Type}

namespace Renderer

def recording (render : Renderer σ ε) : Renderer (σ × List (Nat × Cell)) ε :=
  fun code cell recorded =>
    let rendering := render code cell recorded.1
    ⟨rendering.result, (rendering.state, recorded.2 ++ [(code, cell)]), rendering.log⟩

def inTurn (render : Renderer σ ε) (cell : Cell) (first : Nat) (state : σ) (code : Nat) :
    Except ε GlyphImage :=
  (render code cell (Renderer.after render cell (code - first) first state)).result

inductive StopsAt (render : Renderer σ ε) (cell : Cell) (first : Nat) (state : σ) (code : Nat) :
    CodeFailure ε → Prop where
  | unrendered {error : ε} (failed : inTurn render cell first state code = .error error) :
      StopsAt render cell first state code (.rendering code error)
  | misfit {image : GlyphImage} (given : inTurn render cell first state code = .ok image)
      (different : image.cell ≠ cell) :
      StopsAt render cell first state code (.packing code (.mismatch cell image.cell))

variable {render : Renderer σ ε} {cell : Cell} {first last code : Nat} {state : σ}
  {images : Nat → GlyphImage} {failure : CodeFailure ε}

theorem in_turn_first : inTurn render cell first state first = (render first cell state).result := by
  rw [inTurn, Nat.sub_self, Renderer.after]

theorem in_turn_later (above : first < code) :
    inTurn render cell (first + 1) (render first cell state).state code =
      inTurn render cell first state code := by
  have step : code - first = (code - (first + 1)) + 1 := by omega
  rw [inTurn, inTurn, step]
  rfl

theorem StopsAt.later (stops : StopsAt render cell first state code failure) (above : first < code) :
    StopsAt render cell (first + 1) (render first cell state).state code failure := by
  cases stops with
  | unrendered failed => exact .unrendered ((in_turn_later above).trans failed)
  | misfit given different => exact .misfit ((in_turn_later above).trans given) different

theorem fits_of_not_stops_at (goesOn : ∀ failure, ¬ StopsAt render cell first state code failure) :
    ∃ image, inTurn render cell first state code = .ok image ∧ image.cell = cell := by
  cases given : inTurn render cell first state code with
  | error error => exact absurd (.unrendered given) (goesOn _)
  | ok image =>
      refine ⟨image, rfl, ?_⟩
      by_contra different
      exact goesOn _ (.misfit given different)

theorem renders_of_not_stops_at
    (goesOn : ∀ code, first ≤ code → code < last →
      ∀ failure, ¬ StopsAt render cell first state code failure) :
    ∃ images, Renderer.Renders render cell first last state images := by
  have each : ∀ code, ∃ image, first ≤ code → code < last →
      inTurn render cell first state code = .ok image ∧ image.cell = cell := by
    intro code
    by_cases inside : first ≤ code ∧ code < last
    · obtain ⟨image, fits⟩ := fits_of_not_stops_at (goesOn code inside.1 inside.2)
      exact ⟨image, fun _ _ => fits⟩
    · exact ⟨.blank cell, fun above below => absurd ⟨above, below⟩ inside⟩
  choose images fits using each
  exact ⟨images, fits⟩

theorem after_recording (render : Renderer σ ε) (cell : Cell) (count first : Nat) (state : σ)
    (calls : List (Nat × Cell)) :
    Renderer.after (recording render) cell count first (state, calls) =
      (Renderer.after render cell count first state,
        calls ++ (List.range' first count).map fun code => (code, cell)) := by
  induction count generalizing first state calls with
  | zero => simp [Renderer.after]
  | succ count ih =>
      rw [Renderer.after, Renderer.after, List.range'_succ, List.map_cons]
      refine (ih (first + 1) (render first cell state).state (calls ++ [(first, cell)])).trans ?_
      rw [List.append_assoc]
      rfl

theorem in_turn_recording (calls : List (Nat × Cell)) :
    inTurn (recording render) cell first (state, calls) code = inTurn render cell first state code := by
  rw [inTurn, after_recording]
  rfl

theorem StopsAt.recording (stops : StopsAt render cell first state code failure)
    (calls : List (Nat × Cell)) :
    StopsAt (recording render) cell first (state, calls) code failure := by
  cases stops with
  | unrendered failed => exact .unrendered ((in_turn_recording calls).trans failed)
  | misfit given different => exact .misfit ((in_turn_recording calls).trans given) different

theorem Renders.recording (renders : Renderer.Renders render cell first last state images)
    (calls : List (Nat × Cell)) :
    Renderer.Renders (recording render) cell first last (state, calls) images := by
  intro code above below
  obtain ⟨given, fits⟩ := renders code above below
  exact ⟨(in_turn_recording calls).trans given, fits⟩

end Renderer

namespace Strike

open Renderer (recording StopsAt)

variable {render : Renderer σ ε} {cell : Cell} {codes : CodeRange} {state : σ}
  {images : Nat → GlyphImage} {failure : CodeFailure ε}

theorem extend_recording (render : Renderer σ ε) (count first : Nat) (strike : Strike) (state : σ)
    (calls : List (Nat × Cell)) :
    (extend (recording render) count first strike (state, calls)).result =
        (extend render count first strike state).result ∧
      (extend (recording render) count first strike (state, calls)).state.1 =
        (extend render count first strike state).state := by
  induction count generalizing first strike state calls with
  | zero => exact ⟨rfl, rfl⟩
  | succ count ih =>
      -- The recording renderer gives the same result, so both builds go on in the same way.
      have same : (recording render first strike.cell (state, calls)).result =
          (render first strike.cell state).result := rfl
      cases given : (render first strike.cell state).result with
      | error error =>
          rw [extend_unrendered count (same.trans given), extend_unrendered count given]
          exact ⟨rfl, rfl⟩
      | ok image =>
          cases pushed : strike.push image with
          | error fault =>
              rw [extend_refused count (same.trans given) pushed, extend_refused count given pushed]
              exact ⟨rfl, rfl⟩
          | ok next =>
              rw [extend_packed count (same.trans given) pushed, extend_packed count given pushed]
              exact ih (first + 1) next _ _

theorem build_recording (render : Renderer σ ε) (codes : CodeRange) (cell : Cell) (state : σ)
    (calls : List (Nat × Cell)) :
    (build (recording render) codes cell (state, calls)).result =
        (build render codes cell state).result ∧
      (build (recording render) codes cell (state, calls)).state.1 =
        (build render codes cell state).state := by
  unfold build
  cases empty codes.first cell with
  | error fault => exact ⟨rfl, rfl⟩
  | ok fresh =>
      obtain ⟨sameResult, sameState⟩ := extend_recording render codes.size codes.first fresh state calls
      dsimp only
      rw [sameResult]
      cases (extend render codes.size codes.first fresh state).result with
      | error failure => exact ⟨sameResult, sameState⟩
      | ok strike => exact ⟨rfl, sameState⟩

theorem extend_stops (count : Nat) {first code : Nat} (strike : Strike) {state : σ}
    (narrow : strike.cell.width ≤ maxRowWidth) (above : first ≤ code) (below : code < first + count)
    (renders : Renderer.Renders render strike.cell first code state images)
    (stops : StopsAt render strike.cell first state code failure) :
    (extend render count first strike state).result = .error failure ∧
      (extend render count first strike state).state =
        Renderer.after render strike.cell (code + 1 - first) first state := by
  induction count generalizing first strike state with
  | zero => omega
  | succ count ih =>
      by_cases now : first = code
      · subst now
        have once : first + 1 - first = 1 := by omega
        rw [once]
        cases stops with
        | unrendered failed =>
            rw [Renderer.in_turn_first] at failed
            rw [extend_unrendered count failed]
            exact ⟨rfl, rfl⟩
        | misfit given different =>
            rw [Renderer.in_turn_first] at given
            rw [extend_refused count given (push_mismatch different)]
            exact ⟨rfl, rfl⟩
      · obtain ⟨given, fits⟩ := renders first (Nat.le_refl _) (by omega)
        rw [Nat.sub_self, Renderer.after] at given
        obtain ⟨next, pushed⟩ : ∃ next, strike.push (images first) = .ok next :=
          ⟨_, push_eq_ok narrow fits⟩
        have sameCell := (push_frame narrow pushed).2
        have rest := ih next (sameCell ▸ narrow) (by omega) (by omega) (sameCell ▸ renders.later)
          (sameCell ▸ stops.later (by omega))
        have step : code + 1 - first = (code + 1 - (first + 1)) + 1 := by omega
        rw [extend_packed count given pushed, step, Renderer.after]
        rwa [sameCell] at rest

theorem build_too_wide (render : Renderer σ ε) (codes : CodeRange) (state : σ)
    (wide : maxRowWidth < cell.width) :
    build render codes cell state = ⟨.error (.packing codes.first (.tooWide cell.width)), state, []⟩ := by
  rw [build, empty, if_pos wide]

theorem build_stops {code : Nat} (narrow : cell.width ≤ maxRowWidth) (above : codes.first ≤ code)
    (below : code < codes.last)
    (renders : Renderer.Renders render cell codes.first code state images)
    (stops : StopsAt render cell codes.first state code failure) :
    (build render codes cell state).result = .error failure ∧
      (build render codes cell state).state =
        Renderer.after render cell (code + 1 - codes.first) codes.first state := by
  have inside : code < codes.first + codes.size := by
    rw [CodeRange.size]
    omega
  have extended := extend_stops codes.size ⟨codes.first, cell, #[]⟩ narrow above inside renders stops
  rw [build, empty_eq_ok codes.first narrow]
  dsimp only
  rw [extended.1]
  exact extended

def stops (render : Renderer σ ε) (codes : CodeRange) (cell : Cell) (state : σ) : Set Nat :=
  {code | codes.first ≤ code ∧ code < codes.last ∧
    ∃ failure, StopsAt render cell codes.first state code failure}

theorem stops_empty_or_least (render : Renderer σ ε) (codes : CodeRange) (cell : Cell) (state : σ) :
    stops render codes cell state = ∅ ∨ ∃ code, IsLeast (stops render codes cell state) code := by
  rcases (stops render codes cell state).eq_empty_or_nonempty with none | some
  · exact .inl none
  · classical exact .inr ⟨_, some.isLeast_natFind⟩

theorem renders_below_least {code : Nat} (least : IsLeast (stops render codes cell state) code) :
    ∃ images, Renderer.Renders render cell codes.first code state images := by
  apply Renderer.renders_of_not_stops_at
  intro earlier above below failure stopped
  have first := least.2 ⟨above, Nat.lt_trans below least.1.2.1, failure, stopped⟩
  omega

theorem renders_of_stops_empty (none : stops render codes cell state = ∅) :
    ∃ images, Renderer.Renders render cell codes.first codes.last state images := by
  apply Renderer.renders_of_not_stops_at
  intro code above below failure stopped
  have member : code ∈ stops render codes cell state := ⟨above, below, failure, stopped⟩
  rw [none] at member
  exact member

-- What the renderer is asked for is seen by the recording renderer, with which the build is the same.
theorem build_all_or_nothing (render : Renderer σ ε) (codes : CodeRange) (cell : Cell) (state : σ) :
    let built := build render codes cell state
    let recorded := build (recording render) codes cell (state, [])
    (recorded.result = built.result ∧ recorded.state.1 = built.state) ∧
    (16 < cell.width →
      built.result = .error (.packing codes.first (.tooWide cell.width)) ∧ recorded.state.2 = []) ∧
    (cell.width ≤ 16 →
      (∀ code, IsLeast (stops render codes cell state) code →
        ∃ failure, StopsAt render cell codes.first state code failure ∧
          built.result = .error failure ∧
          recorded.state.2 = (List.Ico codes.first (code + 1)).map fun code => (code, cell)) ∧
      (stops render codes cell state = ∅ →
        ∃ fresh images strike, empty codes.first cell = .ok fresh ∧
          Renderer.Renders render cell codes.first codes.last state images ∧
          fresh.pushAll ((List.Ico codes.first codes.last).map images) =
            (strike, (List.Ico codes.first codes.last).map images) ∧
          built.result = .ok strike ∧
          recorded.state.2 = (List.Ico codes.first codes.last).map (fun code => (code, cell)) ∧
          (1 ≤ cell.width → 1 ≤ cell.height → strike.size = codes.last - codes.first))) := by
  intro built recorded
  refine ⟨build_recording render codes cell state [], ?_, ?_⟩
  · intro wide
    have failed := build_too_wide render codes state wide
    have unasked := build_too_wide (recording render) codes (state, []) wide
    exact ⟨congrArg Build.result failed, congrArg (·.state.2) unasked⟩
  intro narrow
  constructor
  · intro code least
    obtain ⟨images, renders⟩ := renders_below_least least
    obtain ⟨above, below, failure, stopsAt⟩ := least.1
    have failed := build_stops narrow above below renders stopsAt
    have asked := build_stops narrow above below (renders.recording []) (stopsAt.recording [])
    rw [Renderer.after_recording] at asked
    exact ⟨failure, stopsAt, failed.1, congrArg Prod.snd asked.2⟩
  · intro none
    obtain ⟨images, renders⟩ := renders_of_stops_empty none
    obtain ⟨taken, -, holds⟩ := push_all_renders narrow renders
    have sameCell := (push_all_renders narrow renders).2.1
    have completed := build_renders narrow renders
    have asked := build_renders narrow (renders.recording [])
    rw [Renderer.after_recording] at asked
    refine ⟨_, images, _, empty_eq_ok codes.first narrow, renders, Prod.ext rfl taken, completed.1,
      congrArg Prod.snd asked.2, ?_⟩
    intro wide tall
    rw [holds.size (sameCell.symm ▸ wide) (sameCell.symm ▸ tall), List.length_map, List.Ico.length]

-- A renderer that fails at its third call, whatever the code: the build asks for two codes before.
theorem third_call_stops_build :
    let render : Renderer Nat String := fun _ cell calls =>
      ⟨if calls = 2 then .error "no ink" else .ok (.blank cell), calls + 1, []⟩
    let cell : Cell := ⟨9, 2⟩
    (cell.width ≤ 16 ∧ IsLeast (stops render ⟨65, 70⟩ cell 0) 67) ∧
      (build render ⟨65, 70⟩ cell 0).result = .error (.rendering 67 "no ink") ∧
      (build (recording render) ⟨65, 70⟩ cell (0, [])).state.2 = [(65, cell), (66, cell), (67, cell)] := by
  intro render cell
  have failed : Renderer.inTurn render cell 65 0 67 = .error "no ink" := rfl
  have blank : ∀ code, code = 65 ∨ code = 66 →
      Renderer.inTurn render cell 65 0 code = .ok (.blank cell) := by
    rintro code (rfl | rfl)
    · rfl
    · rfl
  have least : IsLeast (stops render ⟨65, 70⟩ cell 0) 67 := by
    refine ⟨⟨by decide, by decide, _, .unrendered failed⟩, ?_⟩
    rintro code ⟨above, -, failure, stopped⟩
    by_contra earlier
    change 65 ≤ code at above
    have fits := blank code (by omega)
    cases stopped with
    | unrendered failed => exact nomatch fits.symm.trans failed
    | misfit given different => exact different (by rw [← Except.ok.inj (fits.symm.trans given)]; rfl)
  obtain ⟨-, -, run⟩ := build_all_or_nothing render ⟨65, 70⟩ cell 0
  obtain ⟨failure, stopsAt, result, calls⟩ := (run (by decide)).1 67 least
  refine ⟨⟨by decide, least⟩, ?_, calls⟩
  cases stopsAt with
  | unrendered also =>
      rw [result, Except.error.inj (also.symm.trans failed)]
  | misfit given different => exact nomatch failed.symm.trans given

end Strike
end Bitfont
