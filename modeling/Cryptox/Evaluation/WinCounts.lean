import Cryptox.Backtesting.Service.Amounts
import Cryptox.Evaluation.Definition
import Cryptox.Evaluation.Ledger

/-!
# Wins by cents and wins by percentage

The simulator classifies a trade by its profit in cents, the evaluator by the percentage of the
equity, rounded to eight decimals. A profit that is small beside the equity is lost on the way; on
negative equity the sign turns around.
-/
namespace Cryptox.Evaluation

open Cryptox.Backtesting Cryptox.Backtesting.Simulation
open Cryptox.Library

variable {calendar : Calendar} {input : SimulationInput} {sim : Simulation}

/-- The class of a trade is the sign of its profit. -/
structure Classified (trade : Trade) : Prop where
  win : trade.result = .win ↔ 0 < trade.profit.toRat
  loss : trade.result = .loss ↔ trade.profit.toRat < 0

theorem closingTrade_classified {position : Position} {sequence : Nat} {price : Decimal}
    {time : String} {reason : ExitReason} {trade : Trade}
    (h : sim.closingTrade position sequence price time reason = .ok trade) : Classified trade := by
  have hresult : trade.result = if trade.profit.units > 0 then .win
      else if trade.profit.units < 0 then .loss else .breakeven := by
    simp only [closingTrade, bind_eq_ok, pure_eq_ok] at h
    obtain ⟨resultPercent, -, rfl⟩ := h
    rfl
  constructor
  · rw [hresult, Decimal.toRat_pos]
    split
    · rename_i hpos
      exact iff_of_true rfl hpos
    · rename_i hpos
      refine iff_of_false ?_ hpos
      split <;> exact TradeResult.noConfusion
  · have hneg : trade.profit.toRat < 0 ↔ trade.profit.units < 0 := by
      rw [← not_le, Decimal.toRat_nonneg, not_le]
    rw [hresult, hneg]
    split
    · rename_i hpos
      exact iff_of_false TradeResult.noConfusion (by omega)
    · split
      · rename_i hneg
        exact iff_of_true rfl hneg
      · rename_i hneg
        exact iff_of_false TradeResult.noConfusion hneg

/-- The percentage of the trade before it is rounded. -/
def exactPercent (trade : Trade) : ℚ :=
  trade.profit.toRat * 100 / trade.equityBeforeTrade.toRat

/-- A profit or a loss whose percentage is rounded to nought. -/
def Vanishes (trade : Trade) : Prop :=
  trade.profit.toRat ≠ 0 ∧ |exactPercent trade| < 1 / 2 / 10 ^ 8

instance (trade : Trade) : Decidable (Vanishes trade) := inferInstanceAs (Decidable (_ ∧ _))

/-- Evaluation's counts are the simulator's. -/
structure CountsAgree (trades : List Trade) : Prop where
  wins : (Totals.ofReturns (trades.map fun trade => trade.resultPercent.toRat)).wins
    = trades.countP (·.result = .win)
  losses : (trades.map fun trade => trade.resultPercent.toRat).countP (· < 0)
    = trades.countP (·.result = .loss)

/-- No profit or loss vanishes, and negative equity was won and lost on equally often. -/
structure Distinguishes (trades : List Trade) : Prop where
  visible : ∀ trade ∈ trades, ¬ Vanishes trade
  balanced : trades.countP (fun trade =>
      trade.equityBeforeTrade.toRat < 0 ∧ 0 < trade.profit.toRat)
    = trades.countP fun trade => trade.equityBeforeTrade.toRat < 0 ∧ trade.profit.toRat < 0

/-- What the rounded percentage shows of a trade. -/
theorem Reported.shows {trade : Trade} (h : Reported trade) :
    (0 < trade.resultPercent.toRat ↔ ¬ Vanishes trade ∧
      (0 < trade.equityBeforeTrade.toRat ∧ 0 < trade.profit.toRat ∨
        trade.equityBeforeTrade.toRat < 0 ∧ trade.profit.toRat < 0)) ∧
    (trade.resultPercent.toRat < 0 ↔ ¬ Vanishes trade ∧
      (0 < trade.equityBeforeTrade.toRat ∧ trade.profit.toRat < 0 ∨
        trade.equityBeforeTrade.toRat < 0 ∧ 0 < trade.profit.toRat)) := by
  have hround : (0 < trade.resultPercent.toRat ↔ 1 / 2 / 10 ^ 8 ≤ exactPercent trade) ∧
      (trade.resultPercent.toRat < 0 ↔ exactPercent trade ≤ -(1 / 2 / 10 ^ 8)) := by
    rw [h.percent]
    exact ⟨roundTo_pos_iff, roundTo_neg_iff⟩
  have hpos : 0 < exactPercent trade ↔ 0 < trade.equityBeforeTrade.toRat ∧ 0 < trade.profit.toRat ∨
      trade.equityBeforeTrade.toRat < 0 ∧ trade.profit.toRat < 0 := by
    rw [exactPercent, div_pos_iff]
    constructor <;> rintro (⟨hprofit, hequity⟩ | ⟨hprofit, hequity⟩)
    · exact .inl ⟨hequity, by linarith⟩
    · exact .inr ⟨hequity, by linarith⟩
    · exact .inl ⟨by linarith, hprofit⟩
    · exact .inr ⟨by linarith, hprofit⟩
  have hneg : exactPercent trade < 0 ↔ 0 < trade.equityBeforeTrade.toRat ∧ trade.profit.toRat < 0 ∨
      trade.equityBeforeTrade.toRat < 0 ∧ 0 < trade.profit.toRat := by
    rw [exactPercent, div_neg_iff]
    constructor <;> rintro (⟨hprofit, hequity⟩ | ⟨hprofit, hequity⟩)
    · exact .inr ⟨hequity, by linarith⟩
    · exact .inl ⟨hequity, by linarith⟩
    · exact .inr ⟨by linarith, hprofit⟩
    · exact .inl ⟨by linarith, hprofit⟩
  have hseen : (1 / 2 / 10 ^ 8 ≤ exactPercent trade ↔ ¬ Vanishes trade ∧ 0 < exactPercent trade) ∧
      (exactPercent trade ≤ -(1 / 2 / 10 ^ 8) ↔ ¬ Vanishes trade ∧ exactPercent trade < 0) := by
    have hzero : exactPercent trade ≠ 0 → trade.profit.toRat ≠ 0 := by
      rintro hpercent hprofit
      exact hpercent (by rw [exactPercent, hprofit, zero_mul, zero_div])
    constructor
    · constructor
      · intro hle
        refine ⟨fun hvanishes => ?_, lt_of_lt_of_le (by norm_num) hle⟩
        exact (hle.trans (le_abs_self _)).not_gt hvanishes.2
      · rintro ⟨hvisible, hpercent⟩
        by_contra hlt
        refine hvisible ⟨hzero hpercent.ne', ?_⟩
        rw [abs_of_pos hpercent]
        exact not_le.mp hlt
    · constructor
      · intro hle
        refine ⟨fun hvanishes => ?_, lt_of_le_of_lt hle (by norm_num)⟩
        exact (le_neg.mp hle |>.trans (neg_le_abs _)).not_gt hvanishes.2
      · rintro ⟨hvisible, hpercent⟩
        by_contra hlt
        refine hvisible ⟨hzero hpercent.ne, ?_⟩
        rw [abs_of_neg hpercent]
        exact neg_lt.mp (not_le.mp hlt)
  rw [hround.1, hround.2, hseen.1, hseen.2, hpos, hneg]
  exact ⟨Iff.rfl, Iff.rfl⟩

/-- What is counted as won is won and not hidden, or lost and turned around. -/
theorem countP_seen {α : Type} (seen won lost hidden turned : α → Prop) [DecidablePred seen]
    [DecidablePred won] [DecidablePred lost] [DecidablePred hidden] [DecidablePred turned]
    {items : List α} (h : ∀ item ∈ items, seen item ↔
      ¬ hidden item ∧ (¬ turned item ∧ won item ∨ turned item ∧ lost item)) :
    items.countP (fun item => seen item) + items.countP (fun item => won item ∧ hidden item)
        + items.countP (fun item => turned item ∧ won item ∧ ¬ hidden item)
      = items.countP (fun item => won item)
        + items.countP fun item => turned item ∧ lost item ∧ ¬ hidden item := by
  induction items with
  | nil => rfl
  | cons item rest ih =>
    have hrest := ih fun other hother => h other (List.mem_cons_of_mem item hother)
    have hitem := h item List.mem_cons_self
    simp only [List.countP_cons, decide_eq_true_eq]
    by_cases hhidden : hidden item <;> by_cases hturned : turned item <;>
      by_cases hwon : won item <;> by_cases hlost : lost item <;>
      simp only [hhidden, hturned, hwon, hlost, not_true, not_false_eq_true, and_true, and_false,
        or_false, or_true, iff_true, iff_false] at hitem ⊢ <;>
      simp only [hitem, if_true, if_false] <;> omega

theorem countP_hidden {trades : List Trade} :
    trades.countP (fun trade => 0 < trade.profit.toRat ∧ Vanishes trade) = 0 ∧
        trades.countP (fun trade => trade.profit.toRat < 0 ∧ Vanishes trade) = 0 ↔
      ∀ trade ∈ trades, ¬ Vanishes trade := by
  simp only [List.countP_eq_zero, decide_eq_true_eq]
  constructor
  · rintro ⟨hwon, hlost⟩ trade htrade hvanishes
    rcases lt_or_gt_of_ne hvanishes.1 with hloss | hwin
    · exact hlost trade htrade ⟨hloss, hvanishes⟩
    · exact hwon trade htrade ⟨hwin, hvanishes⟩
  · intro hvisible
    exact ⟨fun trade htrade hwon => hvisible trade htrade hwon.2,
      fun trade htrade hlost => hvisible trade htrade hlost.2⟩

theorem countP_turned {trades : List Trade} (hvisible : ∀ trade ∈ trades, ¬ Vanishes trade)
    (P : Trade → Prop) [DecidablePred P] :
    trades.countP (fun trade => trade.equityBeforeTrade.toRat < 0 ∧ P trade ∧ ¬ Vanishes trade)
      = trades.countP fun trade => trade.equityBeforeTrade.toRat < 0 ∧ P trade := by
  refine List.countP_congr fun trade htrade => ?_
  simp only [hvisible trade htrade, not_false_eq_true, and_true]

theorem countsAgree_iff {trades : List Trade} (hreported : ∀ trade ∈ trades, Reported trade)
    (hclassified : ∀ trade ∈ trades, Classified trade) :
    CountsAgree trades ↔ Distinguishes trades := by
  have hside : ∀ trade ∈ trades,
      (0 < trade.equityBeforeTrade.toRat ↔ ¬ trade.equityBeforeTrade.toRat < 0) :=
    fun trade htrade => ⟨fun hpos => hpos.not_gt, fun hpos =>
      (not_lt.mp hpos).lt_of_ne (hreported trade htrade).funded.symm⟩
  have hwins := countP_seen (fun trade : Trade => 0 < trade.resultPercent.toRat)
    (fun trade => 0 < trade.profit.toRat) (fun trade => trade.profit.toRat < 0) Vanishes
    (fun trade => trade.equityBeforeTrade.toRat < 0)
    fun trade htrade => by rw [(hreported trade htrade).shows.1, hside trade htrade]
  have hlosses := countP_seen (fun trade : Trade => trade.resultPercent.toRat < 0)
    (fun trade => trade.profit.toRat < 0) (fun trade => 0 < trade.profit.toRat) Vanishes
    (fun trade => trade.equityBeforeTrade.toRat < 0)
    fun trade htrade => by rw [(hreported trade htrade).shows.2, hside trade htrade]
  have hwon : trades.countP (·.result = .win) = trades.countP fun trade => 0 < trade.profit.toRat :=
    List.countP_congr fun trade htrade => by simp [(hclassified trade htrade).win]
  have hlost : trades.countP (·.result = .loss)
      = trades.countP fun trade => trade.profit.toRat < 0 :=
    List.countP_congr fun trade htrade => by simp [(hclassified trade htrade).loss]
  have hcounted : (Totals.ofReturns (trades.map fun trade => trade.resultPercent.toRat)).wins
        = trades.countP (fun trade => 0 < trade.resultPercent.toRat) ∧
      (trades.map fun trade => trade.resultPercent.toRat).countP (· < 0)
        = trades.countP fun trade => trade.resultPercent.toRat < 0 := by
    rw [Totals.ofReturns_wins, List.countP_map, List.countP_map]
    exact ⟨rfl, rfl⟩
  constructor
  · rintro ⟨hagree, hagree'⟩
    rw [hcounted.1, hwon] at hagree
    rw [hcounted.2, hlost] at hagree'
    have hvisible : ∀ trade ∈ trades, ¬ Vanishes trade := countP_hidden.mp (by omega)
    refine ⟨hvisible, ?_⟩
    rw [← countP_turned hvisible fun trade => 0 < trade.profit.toRat,
      ← countP_turned hvisible fun trade => trade.profit.toRat < 0]
    omega
  · rintro ⟨hvisible, hbalanced⟩
    rw [← countP_turned hvisible fun trade => 0 < trade.profit.toRat,
      ← countP_turned hvisible fun trade => trade.profit.toRat < 0] at hbalanced
    obtain ⟨hhidden, hhidden'⟩ := countP_hidden.mpr hvisible
    constructor
    · rw [hcounted.1, hwon]
      omega
    · rw [hcounted.2, hlost]
      omega

/-- The simulator's classes are the projection's counts, and the evaluator's exactly when no profit
or loss vanishes and negative equity was won and lost on equally often. -/
theorem winCounts_agree_iff (calendar : Calendar) (input : SimulationInput)
    (result : CompletedBacktestResult) (h : simulateBacktest calendar input = .ok result) :
    (∃ amounts, amountProjection result.initialCapital result.trades = .ok amounts ∧
      amounts.wins = result.trades.countP (·.result = .win) ∧
      amounts.losses = result.trades.countP (·.result = .loss)) ∧
    (CountsAgree result.trades ↔ Distinguishes result.trades) := by
  obtain ⟨hfinite, -⟩ := simulateBacktest_centLedger h
  refine ⟨⟨_, amountProjection_eq hfinite result.trades,
    RunningAmounts.ofTrades_counts _ result.trades⟩, ?_⟩
  obtain ⟨sim, state, -, hfinal, htrades⟩ := simulateBacktest_ok h
  rw [htrades]
  exact countsAgree_iff
    (finalState_forall_trades (fun _ _ _ _ _ _ htrade => closingTrade_reported htrade) hfinal)
    (finalState_forall_trades (fun _ _ _ _ _ _ htrade => closingTrade_classified htrade) hfinal)

/-- Both trades of the reversal win, for the simulator, the projection and the evaluator. -/
theorem winCounts_agree_reversal :
    ∃ result, simulateBacktest exampleCalendar (reversalInput 100) = .ok result ∧
      result.trades.countP (·.result = .win) = 2 ∧
      (∃ amounts, amountProjection result.initialCapital result.trades = .ok amounts ∧
        amounts.wins = 2 ∧ amounts.losses = 0) ∧
      (Totals.ofReturns (result.trades.map fun trade => trade.resultPercent.toRat)).wins = 2 ∧
      Distinguishes result.trades := by
  obtain ⟨result, hrun⟩ := exists_ok (x := simulateBacktest exampleCalendar (reversalInput 100))
    (by decide)
  have hrow : (simulateBacktest exampleCalendar (reversalInput 100)).toOption.map
      (fun result => (result.trades.countP (·.result = .win),
        result.trades.countP (·.result = .loss),
        result.trades.map fun trade => (trade.profit, trade.equityBeforeTrade))) =
      some (2, 0, [(⟨3610, 2⟩, ⟨100000, 2⟩), (⟨5559, 2⟩, ⟨103610, 2⟩)]) := by decide
  rw [hrun] at hrow
  obtain ⟨hwon, hrest⟩ := Prod.mk.inj (Option.some.inj hrow)
  obtain ⟨hlost, hamounts⟩ := Prod.mk.inj hrest
  have hseen : Distinguishes result.trades := by
    have hpairs : ∀ trade ∈ result.trades,
        (trade.profit, trade.equityBeforeTrade) ∈
          [((⟨3610, 2⟩ : Decimal), (⟨100000, 2⟩ : Decimal)), (⟨5559, 2⟩, ⟨103610, 2⟩)] := by
      intro trade htrade
      rw [← hamounts]
      exact List.mem_map_of_mem htrade
    have hside : ∀ trade ∈ result.trades,
        0 < trade.equityBeforeTrade.toRat ∧ ¬ Vanishes trade := by
      intro trade htrade
      rw [Vanishes, exactPercent]
      rcases List.mem_pair.mp (hpairs trade htrade) with h | h
      all_goals
        obtain ⟨hprofit, hequity⟩ := Prod.mk.inj h
        rw [hprofit, hequity]
        norm_num [Decimal.toRat, abs_of_pos]
    constructor
    · exact fun trade htrade => (hside trade htrade).2
    · rw [List.countP_eq_zero.mpr fun trade htrade => by simp [(hside trade htrade).1.le],
        List.countP_eq_zero.mpr fun trade htrade => by simp [(hside trade htrade).1.le]]
  obtain ⟨⟨amounts, hprojection, hwins, hlosses⟩, hagree⟩ := winCounts_agree_iff _ _ result hrun
  exact ⟨result, hrun, hwon, ⟨amounts, hprojection, hwins.trans hwon, hlosses.trans hlost⟩,
    (hagree.mpr hseen).wins.trans hwon, hseen⟩

/-- A hundred thousand million, all of it on one coin that gains one. -/
def richInput : SimulationInput :=
  { exampleInput
      [exampleCandle "2025-01-01T00:00:00.000Z" (10 ^ 11) (10 ^ 11) (10 ^ 11) (10 ^ 11),
        exampleCandle "2025-01-01T01:00:00.000Z" (10 ^ 11) (10 ^ 11) (10 ^ 11) (10 ^ 11),
        exampleCandle "2025-01-01T02:00:00.000Z" (10 ^ 11) (10 ^ 11 + 1) (10 ^ 11) (10 ^ 11 + 1)]
      ["BUY"] with
    initialCapital := .ofInt (10 ^ 11)
    feeRatePercent := .ofInt 0
    slippageBps := some (.ofInt 0) }

/-- The coin is won, and its percentage is nought. -/
theorem winCounts_disagree :
    ¬ ∀ (calendar : Calendar) (input : SimulationInput) (result : CompletedBacktestResult),
      simulateBacktest calendar input = .ok result → CountsAgree result.trades := by
  intro hagree
  have hrow : (simulateBacktest exampleCalendar richInput).toOption.map
      (fun result => (result.trades.map (·.resultPercent.units),
        result.trades.countP (·.result = .win))) = some ([0], 1) := by decide
  obtain ⟨result, hrun⟩ := exists_ok (x := simulateBacktest exampleCalendar richInput) (by decide)
  rw [hrun] at hrow
  obtain ⟨hpercents, hwon⟩ := Prod.mk.inj (Option.some.inj hrow)
  have hcount := (hagree _ _ result hrun).wins
  rw [hwon, Totals.ofReturns_wins, List.countP_map] at hcount
  have hnone : result.trades.countP ((fun value : ℚ => decide (0 < value)) ∘
      fun trade => trade.resultPercent.toRat) = 0 := by
    refine List.countP_eq_zero.mpr fun trade htrade hpos => ?_
    have hunits : trade.resultPercent.units = 0 :=
      List.mem_singleton.mp (hpercents ▸ List.mem_map_of_mem htrade)
    have hshown := (Decimal.toRat_pos _).mp (of_decide_eq_true hpos)
    omega
  omega

end Cryptox.Evaluation
