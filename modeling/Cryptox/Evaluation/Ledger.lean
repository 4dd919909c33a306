import Mathlib.Data.Rat.Sqrt
import Cryptox.Library.ProductError
import Cryptox.Evaluation.Evaluator
import Cryptox.Backtesting.Simulator.Ledger

/-!
# The evaluated return and the ledger

The evaluator compounds rounded percentages; the ledger keeps the equity in cents. Trade by trade
the two growth factors are half a unit of the tenth decimal apart, and so are their products, up to
the error that a product of approximate factors has.
-/
namespace Cryptox.Evaluation

open Cryptox.Backtesting Cryptox.Backtesting.Simulation
open Cryptox.Library

/-- The equity before the first trade, then the equity after each. -/
def equities (trades : List Trade) : List ℚ :=
  (trades.head?.map fun trade => trade.equityBeforeTrade.toRat).toList
    ++ trades.map fun trade => trade.equityAfterTrade.toRat

/-- The growth from each equity to the next. -/
def growths : List ℚ → List ℚ
  | before :: after :: rest => after / before :: growths (after :: rest)
  | _ => []

/-- The percentage of a trade, as it is stored beside the amounts it comes from. -/
structure Reported (trade : Trade) : Prop where
  funded : trade.equityBeforeTrade.toRat ≠ 0
  percent : trade.resultPercent.toRat
    = roundTo 8 (trade.profit.toRat * 100 / trade.equityBeforeTrade.toRat)

variable {calendar : Calendar} {input : SimulationInput} {sim : Simulation}
  {state : SimulatorState} {result : CompletedBacktestResult}

theorem closingTrade_reported {position : Position} {sequence : Nat} {price : Decimal}
    {time : String} {reason : ExitReason} {trade : Trade}
    (h : sim.closingTrade position sequence price time reason = .ok trade) : Reported trade := by
  simp only [closingTrade, bind_eq_ok, pure_eq_ok] at h
  obtain ⟨percent, hpercent, rfl⟩ := h
  have hunits : position.equityBeforeTrade.units ≠ 0 := by
    intro hzero
    rw [Decimal.divide_zero hzero] at hpercent
    cases hpercent
  refine ⟨mt (Decimal.toRat_eq_zero _).mp hunits, ?_⟩
  dsimp only
  rw [Decimal.divide_toRat hpercent, Decimal.multiply_toRat, Decimal.fromInteger_toRat]
  norm_num

/-- One trade: the evaluated factor is close to the growth of the equity. -/
theorem Reported.near {trade : Trade} (h : Reported trade) (hbalanced : Balanced trade) :
    |(1 + trade.resultPercent.toRat / 100)
      - trade.equityAfterTrade.toRat / trade.equityBeforeTrade.toRat| ≤ 5 / 10 ^ 11 := by
  have hgrowth : trade.equityAfterTrade.toRat / trade.equityBeforeTrade.toRat
      = 1 + trade.profit.toRat * 100 / trade.equityBeforeTrade.toRat / 100 := by
    rw [hbalanced.equityAfter, add_div, div_self h.funded]
    ring
  have hround := abs_roundTo_sub_le 8 (trade.profit.toRat * 100 / trade.equityBeforeTrade.toRat)
  rw [← h.percent] at hround
  rw [hgrowth]
  rw [abs_le] at hround ⊢
  constructor <;> linarith

/-- The trades of a chain, each close to its growth. -/
theorem factors_near {trades : List Trade} (before : ℚ)
    (hhead : ∀ trade ∈ trades.head?, trade.equityBeforeTrade.toRat = before)
    (hchain : trades.IsChain fun earlier later => later.equityBeforeTrade = earlier.equityAfterTrade)
    (hnear : ∀ trade ∈ trades, |(1 + trade.resultPercent.toRat / 100)
      - trade.equityAfterTrade.toRat / trade.equityBeforeTrade.toRat| ≤ 5 / 10 ^ 11) :
    List.Forall₂ (fun x a => |x - a| ≤ 5 / 10 ^ 11)
      (trades.map fun trade => 1 + trade.resultPercent.toRat / 100)
      (growths (before :: trades.map fun trade => trade.equityAfterTrade.toRat)) := by
  induction trades generalizing before with
  | nil => exact .nil
  | cons trade rest ih =>
    have hfirst := hhead trade rfl
    rw [List.map_cons, List.map_cons, growths, ← hfirst]
    refine .cons (hnear trade List.mem_cons_self) (ih _ ?_ ?_ ?_)
    · intro later hlater
      rw [(List.isChain_cons.mp hchain).1 later hlater]
    · exact (List.isChain_cons.mp hchain).2
    · exact fun later hlater => hnear later (List.mem_cons_of_mem trade hlater)

/-- The growths telescope. -/
theorem growths_prod {trades : List Trade} (before : ℚ) (hbefore : before ≠ 0)
    (hchain : trades.IsChain fun earlier later => later.equityBeforeTrade = earlier.equityAfterTrade)
    (hfunded : ∀ later ∈ trades.tail, later.equityBeforeTrade.toRat ≠ 0) :
    (growths (before :: trades.map fun trade => trade.equityAfterTrade.toRat)).prod
      = ((trades.getLast?.map fun trade => trade.equityAfterTrade.toRat).getD before) / before := by
  induction trades generalizing before with
  | nil => simp [growths, hbefore]
  | cons trade rest ih =>
    rw [List.map_cons, growths, List.prod_cons]
    cases rest with
    | nil => simp [growths]
    | cons later rest =>
      have hlink := (List.isChain_cons_cons.mp hchain).1
      have hafter : trade.equityAfterTrade.toRat ≠ 0 := by
        rw [← hlink]
        exact hfunded later List.mem_cons_self
      rw [ih _ hafter (List.isChain_cons_cons.mp hchain).2
        (fun other hother => hfunded other (List.mem_cons_of_mem later hother))]
      have hlast : (trade :: later :: rest).getLast? = (later :: rest).getLast? := rfl
      rw [hlast, div_mul_div_comm, mul_comm trade.equityAfterTrade.toRat,
        mul_div_mul_right _ _ hafter]
      simp [List.getLast?_cons]

/-- The compounded factor and the growth of the ledger differ by no more than the product of the
growths' magnitudes allows, each of them widened by half a unit of the tenth decimal. -/
theorem evaluateBacktest_near_ledger (sqrt : ℚ → ℚ) (provenance : Provenance) (calendar : Calendar)
    (input : SimulationInput) (result : CompletedBacktestResult) (first last : ℚ)
    (h : simulateBacktest calendar input = .ok result)
    (hfirst : (equities result.trades).head? = some first)
    (hlast : (equities result.trades).getLast? = some last) :
    |1 + (evaluateBacktest sqrt result provenance).totalReturnPercent / 100 - last / first|
      ≤ ((growths (equities result.trades)).map fun a => |a| + 5 / 10 ^ 11).prod
        - ((growths (equities result.trades)).map fun a => |a|).prod := by
  obtain ⟨sim, state, hprepare, hfinal, htrades⟩ := simulateBacktest_ok h
  obtain ⟨hledger, -⟩ := finalState_ledger (prepare_accepted hprepare) hfinal
  have hreported : ∀ trade ∈ state.trades, Reported trade :=
    finalState_forall_trades (fun _ _ _ _ _ _ htrade => closingTrade_reported htrade) hfinal
  have hnear := fun trade htrade => (hreported trade htrade).near (hledger.balanced trade htrade)
  have hfactor : 1 + (evaluateBacktest sqrt result provenance).totalReturnPercent / 100
      = (state.trades.map fun trade => 1 + trade.resultPercent.toRat / 100).prod := by
    simp only [evaluateBacktest, Totals.ofReturns_factor, List.map_map, htrades]
    rw [mul_div_cancel_right₀ _ (by norm_num : (100 : ℚ) ≠ 0), add_sub_cancel]
    rfl
  rw [htrades] at hfirst hlast ⊢
  have hchain := hledger.chain
  cases hstored : state.trades with
  | nil =>
    rw [hstored] at hfirst
    cases hfirst
  | cons trade rest =>
    rw [hstored] at hfirst hlast hchain hreported hnear hfactor
    have hbefore : trade.equityBeforeTrade.toRat = first := Option.some.inj hfirst
    have hsplit : equities (trade :: rest) = first :: (trade :: rest).map
        fun stored => stored.equityAfterTrade.toRat := by
      rw [← hbefore]
      rfl
    have hfunded : first ≠ 0 := by
      rw [← hbefore]
      exact (hreported trade List.mem_cons_self).funded
    have hprod := growths_prod first hfunded hchain fun later hlater =>
      (hreported later (List.mem_cons_of_mem trade hlater)).funded
    have hend : (((trade :: rest).getLast?.map fun stored => stored.equityAfterTrade.toRat).getD first)
        = last := by
      rw [hsplit] at hlast
      simpa [List.getLast?_cons, List.getLast?_map] using hlast
    rw [hend] at hprod
    have hfactors := factors_near first (by rintro stored ⟨⟩; exact hbefore) hchain hnear
    have hbound := abs_prod_sub_prod_le hfactors
    rw [← hsplit] at hprod hbound
    rw [hprod] at hbound
    simpa only [hfactor, widened, add_zero] using hbound

theorem evaluateBacktest_near_ledger_reversal :
    ∃ result first last, simulateBacktest exampleCalendar (reversalInput 100) = .ok result ∧
      result.trades.length = 2 ∧ (equities result.trades).getLast? = some last ∧
      |1 + (evaluateBacktest Rat.sqrt result ⟨"1.0.0", "ab"⟩).totalReturnPercent / 100 - last / first|
        ≤ ((growths (equities result.trades)).map fun a => |a| + 5 / 10 ^ 11).prod
          - ((growths (equities result.trades)).map fun a => |a|).prod := by
  have hcount : (simulateBacktest exampleCalendar (reversalInput 100)).toOption.map
      (fun result => result.trades.length) = some 2 := by decide
  obtain ⟨result, hrun⟩ := exists_ok (x := simulateBacktest exampleCalendar (reversalInput 100))
    (by decide)
  rw [hrun] at hcount
  have hlength : result.trades.length = 2 := Option.some.inj hcount
  obtain ⟨opening, closing, htrades⟩ := List.length_eq_two.mp hlength
  have hfirst : (equities result.trades).head? = some opening.equityBeforeTrade.toRat := by
    rw [htrades]
    rfl
  have hlast : (equities result.trades).getLast? = some closing.equityAfterTrade.toRat := by
    rw [htrades]
    rfl
  exact ⟨result, _, _, hrun, hlength, hlast,
    evaluateBacktest_near_ledger Rat.sqrt ⟨"1.0.0", "ab"⟩ _ _ result _ _ hrun hfirst hlast⟩

end Cryptox.Evaluation
