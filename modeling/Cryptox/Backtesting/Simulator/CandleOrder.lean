import Cryptox.Backtesting.Simulator.Timeline
import Cryptox.Library.Comparators

/-!
# The order in which candles are given

A simulation sorts the closed candles it is given, so neither their order nor the candles still
forming among them matter: two inputs with the same closed candles end alike, also where they throw.
-/
namespace Cryptox.Backtesting

open Cryptox.Library

namespace Simulation

/-- The simulation whose input lists its candles differently. -/
def withRaw (sim : Simulation) (raw : List Candle) : Simulation :=
  { sim with input := { sim.input with candles := raw } }

variable (sim : Simulation) (raw : List Candle)

theorem loopUpTo_withRaw (count : Nat) : (sim.withRaw raw).loopUpTo count = sim.loopUpTo count := by
  induction count with
  | zero => rfl
  | succ index ih =>
    rw [loopUpTo, loopUpTo, ih]
    rfl

theorem finalState_withRaw : (sim.withRaw raw).finalState = sim.finalState := by
  have hlength : (sim.withRaw raw).candles.length = sim.candles.length := rfl
  rw [finalState, finalState, hlength, loopUpTo_withRaw]
  rfl

end Simulation

variable {calendar : Calendar} {input : SimulationInput}

theorem validateCandle_error {candle : Candle} {error : String}
    (h : validateCandle calendar candle input = .error error) : error = "INVALID_INPUT" := by
  simp only [validateCandle, bind_eq_error] at h
  rcases h with h | ⟨-, -, h | ⟨-, -, h⟩⟩ <;> exact throwIf_eq_error h

theorem validateCandles_error {previous : Option Candle} {candles : List Candle} {error : String}
    (h : validateCandles calendar input previous candles = .error error) : error = "INVALID_INPUT" := by
  induction candles generalizing previous with
  | nil => cases h
  | cons candle rest ih =>
    simp only [validateCandles, bind_eq_error] at h
    rcases h with h | ⟨-, -, h | ⟨-, -, h⟩⟩
    · exact validateCandle_error h
    · exact throwIf_eq_error h
    · exact ih h

/-- Candles of which two have one time are refused. -/
theorem validateCandles_repeated {candles : List Candle}
    (h : ¬ (candles.map (·.timestamp)).Nodup) :
    validateCandles calendar input none candles = .error "INVALID_INPUT" := by
  cases hvalid : validateCandles calendar input none candles with
  | error error => rw [validateCandles_error hvalid]
  | ok u =>
    have hordered := (ordered_of_validateCandles hvalid).2.pairwise
    exact absurd (hordered.imp fun hlt => ne_of_lt hlt) h

theorem validateCandles_withRaw (raw : List Candle) (previous : Option Candle) (candles : List Candle) :
    validateCandles calendar { input with candles := raw } previous candles =
      validateCandles calendar input previous candles := by
  induction candles generalizing previous with
  | nil => rfl
  | cons candle rest ih =>
    rw [validateCandles, validateCandles, ih]
    rfl

section Orders

variable [Std.TransCmp calendar.localeCompare] {raw : List Candle}

section Same

variable (hperm : (raw.filter (·.isClosed)).Perm (input.candles.filter (·.isClosed)))
  (htold : ∀ a ∈ raw.filter (·.isClosed), ∀ b ∈ raw.filter (·.isClosed),
    calendar.localeCompare a.timestamp b.timestamp = .eq → a.timestamp = b.timestamp)
include hperm htold

/-- The same closed candles are sorted alike, or refused alike. -/
theorem closedCandles_cases :
    closedCandles calendar { input with candles := raw } = closedCandles calendar input ∨
      validateCandles calendar { input with candles := raw } none
          (closedCandles calendar { input with candles := raw }) = .error "INVALID_INPUT" ∧
        validateCandles calendar input none (closedCandles calendar input) =
          .error "INVALID_INPUT" := by
  by_cases hdistinct : ((raw.filter (·.isClosed)).map (·.timestamp)).Nodup
  · left
    exact sortWith_eq_of_perm
      (fun left right : Candle => calendar.localeCompare left.timestamp right.timestamp) hperm
      fun a ha b hb heq => List.inj_on_of_nodup_map hdistinct ha hb (htold a ha b hb heq)
  · right
    have hraw : (closedCandles calendar { input with candles := raw }).Perm
        (raw.filter (·.isClosed)) := List.perm_insertionSort _ _
    have hown : (closedCandles calendar input).Perm (input.candles.filter (·.isClosed)) :=
      List.perm_insertionSort _ _
    exact ⟨validateCandles_repeated fun h => hdistinct ((hraw.map _).nodup_iff.mp h),
      validateCandles_repeated fun h => hdistinct (((hown.trans hperm.symm).map _).nodup_iff.mp h)⟩

theorem prepare_withRaw :
    prepare calendar { input with candles := raw } =
      (fun sim : Simulation => sim.withRaw raw) <$> prepare calendar input := by
  simp only [prepare, map_bind]
  refine bind_congr fun _ => bind_congr fun _ => bind_congr fun _ => bind_congr fun _ =>
    bind_congr fun _ => ?_
  rcases closedCandles_cases hperm htold with hsame | ⟨hraw, hown⟩
  · rw [hsame, validateCandles_withRaw]
    rfl
  · rw [hraw, hown]
    rfl

end Same

/-- Inputs with the same closed candles end alike. -/
theorem simulateBacktest_perm
    (hperm : (raw.filter (·.isClosed)).Perm (input.candles.filter (·.isClosed)))
    (htold : ∀ a ∈ raw.filter (·.isClosed), ∀ b ∈ raw.filter (·.isClosed),
      calendar.localeCompare a.timestamp b.timestamp = .eq → a.timestamp = b.timestamp) :
    simulateBacktest calendar { input with candles := raw } = simulateBacktest calendar input := by
  rw [simulateBacktest, simulateBacktest, prepare_withRaw hperm htold, bind_map_left]
  refine bind_congr fun sim => ?_
  rw [sim.finalState_withRaw]

end Orders

/-- The candles in reverse, with one that is still forming. -/
def shuffled (lastClose : Int) : List Candle :=
  { exampleCandle "2025-01-01T04:00:00.000Z" 110 120 100 105 with isClosed := false } ::
    (reversalInput lastClose).candles.reverse

theorem simulateBacktest_perm_reversed :
    simulateBacktest exampleCalendar { reversalInput 104 with candles := shuffled 104 } =
      simulateBacktest exampleCalendar (reversalInput 104) :=
  have hcompare : Std.TransCmp exampleCalendar.localeCompare :=
    inferInstanceAs (Std.TransCmp (compare : String → String → Ordering))
  simulateBacktest_perm (by decide) (by decide)

end Cryptox.Backtesting
