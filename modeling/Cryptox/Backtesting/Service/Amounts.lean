import Cryptox.Library.RunningPeak
import Cryptox.Backtesting.Simulator.Market

/-!
# The amounts of a result

The read projection starts from the capital as it was given and rounds at the end; the ledger
starts from the rounded capital. Amounts are exact values here, and all of them are finite.
-/
namespace Cryptox.Backtesting

open Cryptox.Library

structure AmountProjection where
  initialCapital : ℚ
  totalProfitAmount : ℚ
  endingEquity : ℚ
  wins : Nat
  losses : Nat
  breakevens : Nat
  maxDrawdownAmount : ℚ
deriving DecidableEq

/-- `Number(value.toFixed(2))`: the nearest cents, a tie away from zero. -/
def roundMoney (value : ℚ) : ℚ := roundTo 2 value

/-- The variables of the loop over the trades. -/
structure RunningAmounts where
  totalProfitAmount : ℚ
  peak : ℚ
  maxDrawdownAmount : ℚ
  wins : Nat
  losses : Nat
  breakevens : Nat

namespace RunningAmounts

def start (initialCapital : ℚ) : RunningAmounts := ⟨0, initialCapital, 0, 0, 0, 0⟩

def count (amounts : RunningAmounts) : TradeResult → RunningAmounts
  | .win => { amounts with wins := amounts.wins + 1 }
  | .loss => { amounts with losses := amounts.losses + 1 }
  | .breakeven => { amounts with breakevens := amounts.breakevens + 1 }

def add (amounts : RunningAmounts) (trade : Trade) : RunningAmounts :=
  let peak := max amounts.peak trade.equityAfterTrade.toRat
  let moved := { amounts with
    totalProfitAmount := amounts.totalProfitAmount + trade.profit.toRat
    peak
    maxDrawdownAmount := max amounts.maxDrawdownAmount (peak - trade.equityAfterTrade.toRat) }
  moved.count trade.result

def ofTrades (initialCapital : ℚ) (trades : List Trade) : RunningAmounts :=
  trades.foldl add (start initialCapital)

end RunningAmounts

/-- The projection of the service. -/
def amountProjection (initialCapital : JsNumber) (trades : List Trade) :
    Except String AmountProjection := do
  throwIf (!initialCapital.isFinite) "BACKTEST_NON_FINITE_AMOUNT"
  let amounts := RunningAmounts.ofTrades initialCapital.toRat trades
  return {
    initialCapital := roundMoney initialCapital.toRat
    totalProfitAmount := roundMoney amounts.totalProfitAmount
    endingEquity := roundMoney (initialCapital.toRat + amounts.totalProfitAmount)
    wins := amounts.wins
    losses := amounts.losses
    breakevens := amounts.breakevens
    maxDrawdownAmount := roundMoney amounts.maxDrawdownAmount }

/-- The projection of the Postgres repository, which checks nothing. -/
def projectAmounts (initialCapital : ℚ) (trades : List Trade) : AmountProjection :=
  let amounts := RunningAmounts.ofTrades initialCapital trades
  { initialCapital := roundTo 2 initialCapital
    totalProfitAmount := roundTo 2 amounts.totalProfitAmount
    endingEquity := roundTo 2 (initialCapital + amounts.totalProfitAmount)
    wins := amounts.wins
    losses := amounts.losses
    breakevens := amounts.breakevens
    maxDrawdownAmount := roundTo 2 amounts.maxDrawdownAmount }

theorem amountProjection_eq {initialCapital : JsNumber} (h : initialCapital.isFinite = true)
    (trades : List Trade) :
    amountProjection initialCapital trades = .ok (projectAmounts initialCapital.toRat trades) := by
  rw [amountProjection, h]
  rfl

/-! ## What the loop keeps -/

def equitiesAfter (trades : List Trade) : List ℚ := trades.map fun trade => trade.equityAfterTrade.toRat

namespace RunningAmounts

structure Tracks (capital : ℚ) (trades : List Trade) (amounts : RunningAmounts) : Prop where
  totalProfitAmount :
    amounts.totalProfitAmount = (trades.map fun trade => trade.profit.toRat).sum
  peak : IsPeak (capital :: equitiesAfter trades) amounts.peak
  worst : IsWorst (fun x y => x - y) (capital :: equitiesAfter trades) amounts.maxDrawdownAmount
  counts : amounts.wins + amounts.losses + amounts.breakevens = trades.length

theorem Tracks.start (capital : ℚ) : Tracks capital [] (start capital) where
  totalProfitAmount := rfl
  peak := .singleton capital
  worst := by
    have hworst : IsWorst (fun x y : ℚ => x - y) [capital] (capital - capital) := .singleton capital
    rwa [sub_self] at hworst
  counts := rfl

theorem Tracks.add {capital : ℚ} {trades : List Trade} {amounts : RunningAmounts}
    (h : Tracks capital trades amounts) (trade : Trade) :
    Tracks capital (trades ++ [trade]) (amounts.add trade) := by
  have hequities : capital :: equitiesAfter (trades ++ [trade])
      = (capital :: equitiesAfter trades) ++ [trade.equityAfterTrade.toRat] := by
    rw [equitiesAfter, List.map_append, List.cons_append]
    rfl
  have hmoved : (amounts.add trade).totalProfitAmount
        = amounts.totalProfitAmount + trade.profit.toRat ∧
      (amounts.add trade).peak = max amounts.peak trade.equityAfterTrade.toRat ∧
      (amounts.add trade).maxDrawdownAmount = max amounts.maxDrawdownAmount
        (max amounts.peak trade.equityAfterTrade.toRat - trade.equityAfterTrade.toRat) ∧
      (amounts.add trade).wins + (amounts.add trade).losses + (amounts.add trade).breakevens
        = amounts.wins + amounts.losses + amounts.breakevens + 1 := by
    unfold RunningAmounts.add
    cases trade.result <;> refine ⟨rfl, rfl, rfl, ?_⟩ <;> simp only [count] <;> omega
  obtain ⟨hprofit, hpeak, hworst, hcounts⟩ := hmoved
  constructor
  case totalProfitAmount => simp [hprofit, h.totalProfitAmount]
  case peak =>
    rw [hequities, hpeak]
    exact h.peak.concat
  case worst =>
    rw [hequities, hworst]
    exact h.worst.concat h.peak fun x hx => sub_le_sub_right (h.peak.concat.2 hx) _
  case counts => rw [hcounts, h.counts, List.length_append, List.length_singleton]

theorem ofTrades_counts (capital : ℚ) (trades : List Trade) :
    (ofTrades capital trades).wins = trades.countP (·.result = .win) ∧
      (ofTrades capital trades).losses = trades.countP (·.result = .loss) := by
  induction trades using List.reverseRecOn with
  | nil => exact ⟨rfl, rfl⟩
  | append_singleton rest trade ih =>
    obtain ⟨hwins, hlosses⟩ := ih
    rw [ofTrades, List.foldl_concat, List.countP_append, List.countP_append, ← hwins, ← hlosses,
      RunningAmounts.add]
    cases hresult : trade.result <;> simp [count, hresult, ofTrades]

theorem ofTrades_tracks (capital : ℚ) (trades : List Trade) :
    Tracks capital trades (ofTrades capital trades) := by
  induction trades using List.reverseRecOn with
  | nil => exact .start capital
  | append_singleton rest trade ih =>
    rw [ofTrades, List.foldl_concat]
    exact ih.add trade

end RunningAmounts

/-! ## The projection and the ledger -/

/-- The equity before the first trade, then after each; the rounded capital where there is none. -/
def equityCurve (capital : ℚ) (trades : List Trade) : List ℚ :=
  (trades.head?.map fun trade => trade.equityBeforeTrade.toRat).getD (roundTo 2 capital)
    :: equitiesAfter trades

def lastEquity (capital : ℚ) (trades : List Trade) : ℚ :=
  (trades.getLast?.map fun trade => trade.equityAfterTrade.toRat).getD (roundTo 2 capital)

/-- What the ledger says of the amounts. -/
structure AgreesWithLedger (capital : ℚ) (trades : List Trade) (amounts : AmountProjection) :
    Prop where
  endingEquity : amounts.endingEquity = lastEquity capital trades
  counts : amounts.wins + amounts.losses + amounts.breakevens = trades.length
  totalProfitAmount :
    amounts.totalProfitAmount = (trades.map fun trade => trade.profit.toRat).sum
  maxDrawdownAmount :
    IsWorst (fun x y => x - y) (equityCurve capital trades) amounts.maxDrawdownAmount

/-- The trades as a ledger in cents that starts from the rounded capital. -/
structure CentLedger (capital : ℚ) (trades : List Trade) : Prop where
  capital_nonneg : 0 ≤ capital
  head : ∀ trade ∈ trades.head?, trade.equityBeforeTrade.toRat = roundTo 2 capital
  chain : trades.IsChain fun earlier later => later.equityBeforeTrade = earlier.equityAfterTrade
  equityAfter : ∀ trade ∈ trades,
    trade.equityAfterTrade.toRat = trade.equityBeforeTrade.toRat + trade.profit.toRat
  onGrid : ∀ trade ∈ trades, OnGrid 2 trade.equityAfterTrade.toRat

/-- The profits lead from the first equity to the last. -/
theorem profits_sum {trades : List Trade} (before : ℚ)
    (hhead : ∀ trade ∈ trades.head?, trade.equityBeforeTrade.toRat = before)
    (hchain : trades.IsChain fun earlier later => later.equityBeforeTrade = earlier.equityAfterTrade)
    (hafter : ∀ trade ∈ trades,
      trade.equityAfterTrade.toRat = trade.equityBeforeTrade.toRat + trade.profit.toRat) :
    before + (trades.map fun trade => trade.profit.toRat).sum
      = (trades.getLast?.map fun trade => trade.equityAfterTrade.toRat).getD before := by
  induction trades generalizing before with
  | nil => simp
  | cons trade rest ih =>
    have hfirst := hhead trade rfl
    have hnext := hafter trade List.mem_cons_self
    rw [hfirst] at hnext
    have hrest := ih trade.equityAfterTrade.toRat
      (fun later hlater => by rw [(List.isChain_cons.mp hchain).1 later hlater])
      (List.isChain_cons.mp hchain).2
      (fun later hlater => hafter later (List.mem_cons_of_mem trade hlater))
    rw [List.map_cons, List.sum_cons, ← add_assoc, ← hnext, hrest]
    cases rest with
    | nil => rfl
    | cons later rest => simp [List.getLast?_cons]

namespace CentLedger

variable {capital : ℚ} {trades : List Trade} (h : CentLedger capital trades)

include h

theorem equityCurve_eq : equityCurve capital trades = roundTo 2 capital :: equitiesAfter trades := by
  rw [equityCurve]
  cases hhead : trades.head? with
  | none => rfl
  | some trade =>
    have hfirst := h.head trade hhead
    simp only [Option.map_some, Option.getD_some, hfirst]

theorem equities_onGrid : ∀ equity ∈ equitiesAfter trades, OnGrid 2 equity := by
  intro equity hequity
  obtain ⟨trade, htrade, rfl⟩ := List.mem_map.mp hequity
  exact h.onGrid trade htrade

theorem lastEquity_eq : lastEquity capital trades
    = roundTo 2 capital + (trades.map fun trade => trade.profit.toRat).sum :=
  (profits_sum (roundTo 2 capital) h.head h.chain h.equityAfter).symm

theorem lastEquity_onGrid : OnGrid 2 (lastEquity capital trades) := by
  rw [lastEquity]
  cases hlast : trades.getLast? with
  | none => exact onGrid_roundTo 2 capital
  | some trade => exact h.onGrid trade (List.mem_of_getLast? hlast)

theorem profits_onGrid : OnGrid 2 (trades.map fun trade => trade.profit.toRat).sum := by
  have hsum : (trades.map fun trade => trade.profit.toRat).sum
      = lastEquity capital trades - roundTo 2 capital := by
    rw [h.lastEquity_eq]
    ring
  rw [hsum]
  exact h.lastEquity_onGrid.sub (onGrid_roundTo 2 capital)

/-- Rounding the worst fall from the given capital gives the worst fall from the rounded one. -/
theorem worst_rounded {worst : ℚ}
    (hworst : IsWorst (fun x y => x - y) (capital :: equitiesAfter trades) worst) :
    IsWorst (fun x y => x - y) (equityCurve capital trades) (roundTo 2 worst) := by
  have hgrid := h.equities_onGrid
  have hnonneg : 0 ≤ worst := hworst.2 ⟨capital, capital, .refl List.mem_cons_self, sub_self _⟩
  rw [h.equityCurve_eq]
  constructor
  · obtain ⟨x, y, hfollows, rfl⟩ := hworst.1
    rcases follows_cons.mp hfollows with ⟨rfl, hy⟩ | hrest
    · rcases List.mem_cons.mp hy with rfl | hy
      · refine ⟨roundTo 2 y, roundTo 2 y, .refl List.mem_cons_self, ?_⟩
        simp only [sub_self]
        exact (OnGrid.roundTo_eq ⟨0, by simp⟩).symm
      · refine ⟨roundTo 2 x, y, follows_cons.mpr (.inl ⟨rfl, List.mem_cons_of_mem _ hy⟩), ?_⟩
        exact (roundTo_sub_of_le h.capital_nonneg (hgrid y hy) (sub_nonneg.mp hnonneg)).symm
    · exact ⟨x, y, follows_cons.mpr (.inr hrest),
        ((hgrid x hrest.left_mem).sub (hgrid y hrest.right_mem)).roundTo_eq.symm⟩
  · rintro _ ⟨x, y, hfollows, rfl⟩
    rcases follows_cons.mp hfollows with ⟨rfl, hy⟩ | hrest
    · rcases List.mem_cons.mp hy with rfl | hy
      · simp only [sub_self]
        exact roundTo_nonneg hnonneg
      · rcases le_total y capital with hle | hle
        · have hbound : capital - y ≤ worst :=
            hworst.2 ⟨capital, y, follows_cons.mpr (.inl ⟨rfl, List.mem_cons_of_mem _ hy⟩), rfl⟩
          have hrounded := roundTo_mono 2 hbound
          rwa [roundTo_sub_of_le h.capital_nonneg (hgrid y hy) hle] at hrounded
        · exact (sub_nonpos.mpr ((hgrid y hy).roundTo_le hle)).trans (roundTo_nonneg hnonneg)
    · exact ((hgrid x hrest.left_mem).sub (hgrid y hrest.right_mem)).le_roundTo
        (hworst.2 ⟨x, y, follows_cons.mpr (.inr hrest), rfl⟩)

/-- The projected amounts are the ledger's, unless a tie in the capital is rounded the other way
because the ledger ends at nought or below. -/
theorem projectAmounts_agrees_iff : AgreesWithLedger capital trades (projectAmounts capital trades) ↔
    ¬ (IsTie 2 capital ∧ lastEquity capital trades ≤ 0) := by
  have htracks := RunningAmounts.ofTrades_tracks capital trades
  have hending : (projectAmounts capital trades).endingEquity = lastEquity capital trades ↔
      ¬ (IsTie 2 capital ∧ lastEquity capital trades ≤ 0) := by
    rw [h.lastEquity_eq, projectAmounts, htracks.totalProfitAmount]
    exact roundTo_add_iff h.capital_nonneg h.profits_onGrid
  refine ⟨fun hagrees => hending.mp hagrees.endingEquity, fun hcapital => ?_⟩
  constructor
  case endingEquity => exact hending.mpr hcapital
  case counts => exact htracks.counts
  case totalProfitAmount =>
    rw [projectAmounts, htracks.totalProfitAmount]
    exact h.profits_onGrid.roundTo_eq
  case maxDrawdownAmount => exact h.worst_rounded htracks.worst

end CentLedger

theorem prepare_capital_pos {calendar : Calendar} {input : SimulationInput} {sim : Simulation}
    (h : prepare calendar input = .ok sim) :
    input.initialCapital.isFinite = true ∧ 0 < input.initialCapital.toRat := by
  simp only [prepare, bind_eq_ok, throwIf_eq_ok, Bool.or_eq_false_iff, Bool.not_eq_false'] at h
  obtain ⟨-, ⟨⟨⟨⟨-, hfinite⟩, hpos⟩, -⟩, -⟩, -⟩ := h
  obtain ⟨shown, hshown, hvalue⟩ := decimal_ok hfinite
  exact ⟨hfinite, hvalue ▸ decimal_pos hshown hpos⟩

open Simulation in
theorem simulateBacktest_centLedger {calendar : Calendar} {input : SimulationInput}
    {result : CompletedBacktestResult} (h : simulateBacktest calendar input = .ok result) :
    result.initialCapital.isFinite = true ∧
      CentLedger result.initialCapital.toRat result.trades := by
  have hcapital : result.initialCapital = input.initialCapital := by
    simp only [simulateBacktest, bind_eq_ok, pure_eq_ok] at h
    obtain ⟨_, -, _, -, rfl⟩ := h
    rfl
  obtain ⟨sim, state, hprepare, hfinal, htrades⟩ := simulateBacktest_ok h
  have hsim := prepare_accepted hprepare
  obtain ⟨hledger, -⟩ := finalState_ledger hsim hfinal
  obtain ⟨hfinite, hpos⟩ := prepare_capital_pos hprepare
  obtain ⟨capital, hshown, hstart⟩ := hsim.startingEquity
  rw [hcapital, htrades]
  refine ⟨hfinite, hpos.le, fun trade htrade => ?_, hledger.chain,
    fun trade htrade => (hledger.balanced trade htrade).equityAfter, ?_⟩
  · rw [hledger.head trade htrade, hstart, Decimal.round_toRat, decimal_toRat hshown]
  · exact finalState_forall_trades (fun _ _ _ _ _ _ htrade => (closingTrade_stored htrade).onGrid)
      hfinal

/-- Both projections of a result agree with its ledger exactly when the capital has no half cent or
the ledger ends above nought. -/
theorem amountProjection_agrees_iff (calendar : Calendar) (input : SimulationInput)
    (result : CompletedBacktestResult) (h : simulateBacktest calendar input = .ok result) :
    amountProjection result.initialCapital result.trades
        = .ok (projectAmounts result.initialCapital.toRat result.trades) ∧
      (AgreesWithLedger result.initialCapital.toRat result.trades
          (projectAmounts result.initialCapital.toRat result.trades) ↔
        ¬ (IsTie 2 result.initialCapital.toRat ∧
          lastEquity result.initialCapital.toRat result.trades ≤ 0)) := by
  obtain ⟨hfinite, hledger⟩ := simulateBacktest_centLedger h
  exact ⟨amountProjection_eq hfinite result.trades, hledger.projectAmounts_agrees_iff⟩

/-- The reversal on a capital of a thousand and an eighth. -/
def eighthInput (lastClose : Int) : SimulationInput :=
  { reversalInput lastClose with initialCapital := .finite ⟨1000125, 3⟩ }

/-- The capital has half a cent, and the ledger ends above nought: the projection ends where it ends. -/
theorem amountProjection_agrees_eighth :
    ∃ result, simulateBacktest exampleCalendar (eighthInput 100) = .ok result ∧
      IsTie 2 result.initialCapital.toRat ∧
      amountProjection result.initialCapital result.trades
          = .ok (projectAmounts result.initialCapital.toRat result.trades) ∧
      (projectAmounts result.initialCapital.toRat result.trades).endingEquity = 109183 / 100 ∧
      AgreesWithLedger result.initialCapital.toRat result.trades
        (projectAmounts result.initialCapital.toRat result.trades) := by
  obtain ⟨result, hrun⟩ := exists_ok (x := simulateBacktest exampleCalendar (eighthInput 100))
    (by decide)
  have hend : (simulateBacktest exampleCalendar (eighthInput 100)).toOption.map
      (fun result => (result.initialCapital, result.trades.getLast?.map (·.equityAfterTrade)))
      = some (.finite ⟨1000125, 3⟩, some ⟨109183, 2⟩) := by decide
  rw [hrun] at hend
  obtain ⟨hcapital, hlast⟩ := Prod.mk.inj (Option.some.inj hend)
  have htie : IsTie 2 result.initialCapital.toRat := by
    refine ⟨100012, ?_⟩
    rw [hcapital, JsNumber.toRat, Decimal.toRat]
    norm_num
  have hlastEquity : lastEquity result.initialCapital.toRat result.trades = 109183 / 100 := by
    obtain ⟨trade, htrade, hequity⟩ := Option.map_eq_some_iff.mp hlast
    rw [lastEquity, htrade, Option.map_some, Option.getD_some, hequity, Decimal.toRat]
    norm_num
  obtain ⟨hprojection, hagrees⟩ := amountProjection_agrees_iff _ _ result hrun
  have hagree := hagrees.mpr fun h => absurd h.2 (by rw [hlastEquity]; norm_num)
  exact ⟨result, hrun, htie, hprojection, hagree.endingEquity.trans hlastEquity, hagree⟩

/-- Closed at 400 the ledger ends at -1843.83, and the projection at -1843.84. -/
theorem amountProjection_disagrees :
    ¬ ∀ (calendar : Calendar) (input : SimulationInput) (result : CompletedBacktestResult),
      simulateBacktest calendar input = .ok result → ∃ amounts,
        amountProjection result.initialCapital result.trades = .ok amounts ∧
          AgreesWithLedger result.initialCapital.toRat result.trades amounts := by
  intro hagrees
  obtain ⟨result, hrun⟩ := exists_ok (x := simulateBacktest exampleCalendar (eighthInput 400))
    (by decide)
  have hend : (simulateBacktest exampleCalendar (eighthInput 400)).toOption.map
      (fun result => (result.initialCapital, result.trades.getLast?.map (·.equityAfterTrade)))
      = some (.finite ⟨1000125, 3⟩, some ⟨-184383, 2⟩) := by decide
  rw [hrun] at hend
  obtain ⟨hcapital, hlast⟩ := Prod.mk.inj (Option.some.inj hend)
  obtain ⟨hfinite, hledger⟩ := simulateBacktest_centLedger hrun
  obtain ⟨amounts, hamounts, hagree⟩ := hagrees _ _ result hrun
  rw [amountProjection_eq hfinite] at hamounts
  cases hamounts
  refine hledger.projectAmounts_agrees_iff.mp hagree ⟨⟨100012, ?_⟩, ?_⟩
  · rw [hcapital, JsNumber.toRat, Decimal.toRat]
    norm_num
  · obtain ⟨trade, htrade, hequity⟩ := Option.map_eq_some_iff.mp hlast
    rw [lastEquity, htrade, Option.map_some, Option.getD_some, hequity, Decimal.toRat]
    norm_num

end Cryptox.Backtesting
