import Cryptox.Backtesting.Simulator.Ledger

/-!
# The simulator does not look ahead

Two inputs with the same past drive the loop through the same states while both have a candle
left; a trade stored later leaves at a later candle.
-/
namespace Cryptox.Backtesting.Simulation

open Cryptox.Library (bind_eq_ok pure_eq_ok exists_ok throwIf_eq_ok)

variable {sim : Simulation} {state next : SimulatorState} {candle : Candle} {index count k : Nat}
  {calendar : Calendar} {input : SimulationInput}

/-- The same run on other candles and another sentiment lookup. -/
def onCandles (sim : Simulation) (raw candles : List Candle)
    (sentimentAt : Option (String → Except String (Option Sentiment))) : Simulation :=
  { sim with candles, input := { sim.input with candles := raw, sentimentAt } }

/-- Two inputs that differ in candles and sentiment are prepared alike. -/
theorem prepare_onCandles {other : SimulationInput} {otherSim : Simulation}
    (hsame : other = { input with candles := other.candles, sentimentAt := other.sentimentAt })
    (h : prepare calendar input = .ok sim) (hother : prepare calendar other = .ok otherSim) :
    otherSim = sim.onCandles other.candles (closedCandles calendar other) other.sentimentAt := by
  simp only [prepare, bind_eq_ok, pure_eq_ok] at h hother
  obtain ⟨-, -, -, -, -, -, -, -, -, -, -, -, -, -, fee, hfee, feeRate, hfeeRate, bps, hbps,
    slippageRate, hslippageRate, capital, hcapital, rfl⟩ := h
  rw [hsame] at hother
  obtain ⟨-, -, -, -, -, -, -, -, -, -, -, -, -, -, fee', hfee', feeRate', hfeeRate', bps', hbps',
    slippageRate', hslippageRate', capital', hcapital', rfl⟩ := hother
  cases hfee.symm.trans hfee'
  cases hfeeRate.symm.trans hfeeRate'
  cases hbps.symm.trans hbps'
  cases hslippageRate.symm.trans hslippageRate'
  cases hcapital.symm.trans hcapital'
  simp only [onCandles, ← hsame]

/-- Both runs know the first `k` candles and the sentiment at their closes, and have more. -/
structure SamePast (k : Nat) (sim : Simulation) (raw candles : List Candle)
    (sentimentAt : Option (String → Except String (Option Sentiment))) : Prop where
  candles_eq : sim.candles.take k = candles.take k
  lt_length : k < sim.candles.length
  lt_length_other : k < candles.length
  sentiment : ∀ candle ∈ sim.candles.take k,
    sentimentRead sim.calendar sim.input candle =
      sentimentRead sim.calendar { sim.input with candles := raw, sentimentAt } candle

section

variable {raw candles : List Candle}
  {sentimentAt : Option (String → Except String (Option Sentiment))}

theorem SamePast.getElem? (h : SamePast k sim raw candles sentimentAt) (hindex : index < k) :
    sim.candles[index]? = candles[index]? := by
  rw [← List.getElem?_take_of_lt hindex, h.candles_eq, List.getElem?_take_of_lt hindex]

theorem SamePast.executeScheduled_eq (h : SamePast k sim raw candles sentimentAt) (hindex : index < k)
    (state : SimulatorState) (candle : Candle) :
    (sim.onCandles raw candles sentimentAt).executeScheduled state candle index
      = sim.executeScheduled state candle index := by
  have hmore : index + 1 < sim.candles.length := by have := h.lt_length; omega
  have hmore' : index + 1 < (sim.onCandles raw candles sentimentAt).candles.length := by
    have : k < (sim.onCandles raw candles sentimentAt).candles.length := h.lt_length_other
    omega
  unfold executeScheduled
  simp only [openWhenFlat, hmore, hmore']
  rfl

theorem SamePast.decideAtClose_eq (h : SamePast k sim raw candles sentimentAt) (hindex : index < k)
    (hcandle : sim.candles[index]? = some candle) (state : SimulatorState) :
    (sim.onCandles raw candles sentimentAt).decideAtClose state candle index
      = sim.decideAtClose state candle index := by
  have hlast : sim.isLastIndex index = false := by
    have := h.lt_length
    simp only [isLastIndex, beq_eq_false_iff_ne]
    omega
  have hlast' : (sim.onCandles raw candles sentimentAt).isLastIndex index = false := by
    have : k < (sim.onCandles raw candles sentimentAt).candles.length := h.lt_length_other
    simp only [isLastIndex, beq_eq_false_iff_ne]
    omega
  have hmem : candle ∈ sim.candles.take k := by
    rw [← List.getElem?_take_of_lt hindex] at hcandle
    exact List.mem_of_getElem? hcandle
  have hseen : sim.candles.take (index + 1) = candles.take (index + 1) := by
    have := congrArg (List.take (index + 1)) h.candles_eq
    rwa [List.take_take, List.take_take, Nat.min_eq_left (by omega)] at this
  have hcontext (sentiment : Option Sentiment) :
      (sim.onCandles raw candles sentimentAt).context candle index sentiment
        = sim.context candle index sentiment := by
    unfold context
    rw [hseen]
    rfl
  unfold decideAtClose
  rw [hlast, hlast', h.sentiment candle hmem]
  simp only [hcontext]
  rfl

theorem SamePast.candleStep_eq (h : SamePast k sim raw candles sentimentAt) (hindex : index < k)
    (hcandle : sim.candles[index]? = some candle) (state : SimulatorState) :
    (sim.onCandles raw candles sentimentAt).candleStep state candle index
      = sim.candleStep state candle index := by
  unfold candleStep
  simp only [h.executeScheduled_eq hindex, h.decideAtClose_eq hindex hcandle]
  rfl

/-- While both runs have a candle left, their loop states agree. -/
theorem SamePast.loopUpTo_eq (h : SamePast k sim raw candles sentimentAt) (hcount : count ≤ k) :
    (sim.onCandles raw candles sentimentAt).loopUpTo count = sim.loopUpTo count := by
  induction count with
  | zero => rfl
  | succ index ih =>
    have hsome : (sim.onCandles raw candles sentimentAt).candles[index]? = sim.candles[index]? :=
      (h.getElem? (by omega)).symm
    simp only [loopUpTo, ih (by omega), hsome]
    cases hcandle : sim.candles[index]? with
    | none => rfl
    | some candle => simp only [h.candleStep_eq (by omega) hcandle]

end

/-- A candle appends trades that leave at its own index. -/
theorem candleStep_trades (hsim : Accepted calendar input sim)
    (hcandle : sim.candles[index]? = some candle)
    (h : sim.candleStep state candle index = .ok next) :
    ∃ new, next.trades = state.trades ++ new ∧ ∀ trade ∈ new, sim.exitIndex trade = index := by
  obtain ⟨closed, entered, scheduled, hcloses, henters, rfl, -⟩ := candleStep_cases h
  have hentered : entered.trades = closed.trades := by
    rcases henters with rfl | ⟨action, position, -, -, -, -, -, rfl⟩ <;> rfl
  rcases hcloses with ⟨-, rfl⟩ | ⟨position, price, reason, trade, -, -, hreason, htrade, rfl⟩
  · exact ⟨[], by simp [hentered], by simp⟩
  · have hstored := closingTrade_stored htrade
    refine ⟨[trade], hentered, fun other hother => ?_⟩
    cases List.mem_singleton.mp hother
    rw [exitIndex, if_neg (hstored.exitReason ▸ hreason), hstored.exitTime,
      candleIndex_of_getElem hsim hcandle]

/-- What the loop stores after `k` candles leaves at candle `k` or later. -/
theorem loopUpTo_trades (hsim : Accepted calendar input sim) (k later : Nat)
    (h : sim.loopUpTo (k + later) = .ok next) :
    ∃ state new, sim.loopUpTo k = .ok state ∧ next.trades = state.trades ++ new ∧
      ∀ trade ∈ new, k ≤ sim.exitIndex trade ∧ sim.exitIndex trade < k + later := by
  induction later generalizing next with
  | zero => exact ⟨next, [], h, by simp, by simp⟩
  | succ later ih =>
    rw [← Nat.add_assoc] at h
    simp only [loopUpTo, bind_eq_ok] at h
    obtain ⟨before, hbefore, h⟩ := h
    obtain ⟨state, new, hstate, htrades, hnew⟩ := ih hbefore
    split at h
    · cases h
      refine ⟨state, new, hstate, htrades, fun trade htrade => ?_⟩
      have := hnew trade htrade
      omega
    · rename_i candle hcandle
      obtain ⟨added, hadded, hindex⟩ := candleStep_trades hsim hcandle h
      refine ⟨state, new ++ added, hstate, by rw [hadded, htrades, List.append_assoc], ?_⟩
      intro trade htrade
      rcases List.mem_append.mp htrade with hold | hlast
      · have := hnew trade hold
        omega
      · have := hindex trade hlast
        omega

/-- The trades that leave before candle `k` are those stored by the first `k` candles. -/
theorem finalState_filter (hsim : Accepted calendar input sim) (hk : k < sim.candles.length)
    (h : sim.finalState = .ok next) :
    ∃ state, sim.loopUpTo k = .ok state ∧
      next.trades.filter (fun trade => sim.exitIndex trade < k) = state.trades := by
  simp only [finalState, bind_eq_ok] at h
  obtain ⟨ended, hended, h⟩ := h
  have hlength : sim.candles.length = k + (sim.candles.length - k) := by omega
  rw [hlength] at hended
  obtain ⟨state, new, hstate, htrades, hnew⟩ := loopUpTo_trades hsim k _ hended
  have hfirst : ∀ trade ∈ state.trades, sim.exitIndex trade < k := by
    obtain ⟨start, stored, hstart, hstored, hexit⟩ :=
      loopUpTo_trades hsim 0 k (by simpa using hstate)
    cases hstart
    intro trade htrade
    rw [hstored] at htrade
    have := hexit trade (by simpa [initial] using htrade)
    omega
  have hsplit : ∃ rest, next.trades = state.trades ++ rest ∧
      ∀ trade ∈ rest, k ≤ sim.exitIndex trade := by
    rcases closeAtRangeEnd_cases h with ⟨rfl, -⟩ |
      ⟨position, finalCandle, marketClose, exitTime, trade, -, -, -, htrade, rfl⟩
    · exact ⟨new, htrades, fun trade htrade => (hnew trade htrade).1⟩
    · refine ⟨new ++ [trade], by simp [htrades], fun other hother => ?_⟩
      rcases List.mem_append.mp hother with hold | hlast
      · exact (hnew other hold).1
      · cases List.mem_singleton.mp hlast
        rw [exitIndex, if_pos (closingTrade_stored htrade).exitReason]
        omega
  obtain ⟨rest, hrest, hlate⟩ := hsplit
  refine ⟨state, hstate, ?_⟩
  rw [hrest, List.filter_append, List.filter_eq_self.mpr (by simpa using hfirst),
    List.filter_eq_nil_iff.mpr (by simpa using hlate), List.append_nil]

/-- Entries so far came after the warm-up, and so will the one an action is scheduled for. -/
structure Warm (sim : Simulation) (count : Nat) (state : SimulatorState) : Prop where
  scheduled : state.scheduled ≠ none → sim.warmupCandles < count
  held : ∀ position ∈ state.position, sim.warmupCandles < sim.candleIndex position.entryTime
  entered : ∀ trade ∈ state.trades, sim.warmupCandles < sim.entryIndex trade

theorem Warm.record (h : Warm sim count state) {position : Position} {sequence : Nat} {time : String}
    {reason : ExitReason} {trade : Trade} (hposition : state.position = some position)
    (hstored : StoredFor position sequence time reason trade) :
    Warm sim count (state.record trade) := by
  refine ⟨h.scheduled, by simp, fun other hother => ?_⟩
  rcases List.mem_append.mp hother with hold | hnew
  · exact h.entered other hold
  · cases List.mem_singleton.mp hnew
    rw [entryIndex, hstored.closes.entryTime]
    exact h.held position hposition

theorem Warm.step (h : Warm sim index state) (hsim : Accepted calendar input sim)
    (hcandle : sim.candles[index]? = some candle)
    (hstep : sim.candleStep state candle index = .ok next) : Warm sim (index + 1) next := by
  obtain ⟨closed, entered, scheduled, hcloses, henters, rfl, hscheduled⟩ := candleStep_cases hstep
  have hclosed : Warm sim index closed := by
    rcases hcloses with ⟨-, rfl⟩ | ⟨position, price, reason, trade, -, hposition, -, htrade, rfl⟩
    · exact h
    · exact h.record hposition (closingTrade_stored htrade)
  have hheld : ∀ position ∈ entered.position,
      sim.warmupCandles < sim.candleIndex position.entryTime := by
    rcases henters with rfl | ⟨action, position, haction, -, -, -, hopens, rfl⟩
    · exact hclosed.held
    · intro other hother
      cases hother
      rw [hopens.entryTime, candleIndex_of_getElem hsim hcandle]
      exact hclosed.scheduled (by simp [haction])
  have htrades : entered.trades = closed.trades := by
    rcases henters with rfl | ⟨action, position, -, -, -, -, -, rfl⟩ <;> rfl
  refine ⟨fun hsome => ?_, hheld, fun trade htrade => hclosed.entered trade ?_⟩
  · rcases hscheduled with rfl | rfl | hwarm
    · exact absurd rfl hsome
    · have := h.scheduled hsome
      omega
    · omega
  · rw [← htrades]
    exact htrade

theorem loopUpTo_warm (hsim : Accepted calendar input sim) (count : Nat)
    (h : sim.loopUpTo count = .ok state) : Warm sim count state := by
  induction count generalizing state with
  | zero =>
    cases h
    exact ⟨fun hne => absurd rfl hne, by simp [initial], by simp [initial]⟩
  | succ index ih =>
    simp only [loopUpTo, bind_eq_ok] at h
    obtain ⟨before, hbefore, h⟩ := h
    have hwarm := ih hbefore
    split at h
    · cases h
      exact ⟨fun hne => (hwarm.scheduled hne).trans (Nat.lt_succ_self index), hwarm.held,
        hwarm.entered⟩
    · rename_i candle hcandle
      exact hwarm.step hsim hcandle h

theorem finalState_entered (hsim : Accepted calendar input sim) (h : sim.finalState = .ok state) :
    ∀ trade ∈ state.trades, sim.warmupCandles < sim.entryIndex trade := by
  simp only [finalState, bind_eq_ok] at h
  obtain ⟨ended, hended, h⟩ := h
  have hwarm := loopUpTo_warm hsim _ hended
  rcases closeAtRangeEnd_cases h with ⟨rfl, -⟩ |
    ⟨position, finalCandle, marketClose, exitTime, trade, hposition, -, -, htrade, rfl⟩
  · exact hwarm.entered
  · exact (hwarm.record hposition (closingTrade_stored htrade)).entered

/-- Neither the candles from index `k` on nor the sentiment at their closes reach a trade that
leaves before candle `k`, and no trade enters during the warm-up. -/
theorem simulateBacktest_noLookAhead (calendar : Calendar) (left right : SimulationInput) (k : Nat)
    (leftResult rightResult : CompletedBacktestResult)
    (hsame : right = { left with candles := right.candles, sentimentAt := right.sentimentAt })
    (hclosed : (closedCandles calendar left).take k = (closedCandles calendar right).take k)
    (hleft : k < (closedCandles calendar left).length)
    (hright : k < (closedCandles calendar right).length)
    (hsentiment : ∀ candle ∈ (closedCandles calendar left).take k,
      sentimentRead calendar left candle = sentimentRead calendar right candle)
    (hleftRun : simulateBacktest calendar left = .ok leftResult)
    (hrightRun : simulateBacktest calendar right = .ok rightResult) :
    ∃ leftSim rightSim, prepare calendar left = .ok leftSim ∧ prepare calendar right = .ok rightSim ∧
      leftResult.trades.filter (fun trade => leftSim.exitIndex trade < k)
        = rightResult.trades.filter (fun trade => rightSim.exitIndex trade < k) ∧
      (∀ trade ∈ leftResult.trades, leftSim.warmupCandles < leftSim.entryIndex trade ∧
        leftSim.entryIndex trade < leftSim.candles.length) ∧
      ∀ trade ∈ rightResult.trades, rightSim.warmupCandles < rightSim.entryIndex trade ∧
        rightSim.entryIndex trade < rightSim.candles.length := by
  obtain ⟨leftSim, leftState, hleftPrepare, hleftFinal, hleftTrades⟩ := simulateBacktest_ok hleftRun
  obtain ⟨rightSim, rightState, hrightPrepare, hrightFinal, hrightTrades⟩ :=
    simulateBacktest_ok hrightRun
  have hleftSim := prepare_accepted hleftPrepare
  have hrightSim := prepare_accepted hrightPrepare
  have hentry {input : SimulationInput} {sim : Simulation} {state : SimulatorState}
      (hsim : Accepted calendar input sim) (hfinal : sim.finalState = .ok state) :
      ∀ trade ∈ state.trades, sim.warmupCandles < sim.entryIndex trade ∧
        sim.entryIndex trade < sim.candles.length := by
    intro trade htrade
    have hspan := (finalState_ledger hsim hfinal).1.span trade htrade
    exact ⟨finalState_entered hsim hfinal trade htrade, by omega⟩
  refine ⟨leftSim, rightSim, hleftPrepare, hrightPrepare, ?_, ?_, ?_⟩
  · rw [hleftTrades, hrightTrades]
    obtain ⟨leftMid, hleftMid, hleftFilter⟩ := finalState_filter hleftSim
      (by rw [hleftSim.candles_eq]; exact hleft) hleftFinal
    obtain ⟨rightMid, hrightMid, hrightFilter⟩ := finalState_filter hrightSim
      (by rw [hrightSim.candles_eq]; exact hright) hrightFinal
    have hpast : SamePast k leftSim right.candles (closedCandles calendar right) right.sentimentAt := by
      constructor
      case candles_eq => rw [hleftSim.candles_eq, hclosed]
      case lt_length => rw [hleftSim.candles_eq]; exact hleft
      case lt_length_other => exact hright
      case sentiment =>
        rw [hleftSim.candles_eq, hleftSim.calendar_eq, hleftSim.input_eq, ← hsame]
        exact hsentiment
    rw [prepare_onCandles hsame hleftPrepare hrightPrepare, hpast.loopUpTo_eq le_rfl,
      hleftMid] at hrightMid
    rw [hleftFilter, hrightFilter, Except.ok.inj hrightMid]
  · rw [hleftTrades]
    exact hentry hleftSim hleftFinal
  · rw [hrightTrades]
    exact hentry hrightSim hrightFinal

/-- The last candle changes the second trade and not the first. -/
theorem simulateBacktest_noLookAhead_reversal :
    ∃ leftResult rightResult,
      simulateBacktest exampleCalendar (reversalInput 100) = .ok leftResult ∧
      simulateBacktest exampleCalendar (reversalInput 200) = .ok rightResult ∧
      ∃ leftSim rightSim, prepare exampleCalendar (reversalInput 100) = .ok leftSim ∧
        prepare exampleCalendar (reversalInput 200) = .ok rightSim ∧
        leftResult.trades.filter (fun trade => leftSim.exitIndex trade < 3)
          = rightResult.trades.filter (fun trade => rightSim.exitIndex trade < 3) ∧
        (∀ trade ∈ leftResult.trades, leftSim.warmupCandles < leftSim.entryIndex trade ∧
          leftSim.entryIndex trade < leftSim.candles.length) ∧
        ∀ trade ∈ rightResult.trades, rightSim.warmupCandles < rightSim.entryIndex trade ∧
          rightSim.entryIndex trade < rightSim.candles.length := by
  obtain ⟨leftResult, hleft⟩ := exists_ok
    (x := simulateBacktest exampleCalendar (reversalInput 100)) (by decide)
  obtain ⟨rightResult, hright⟩ := exists_ok
    (x := simulateBacktest exampleCalendar (reversalInput 200)) (by decide)
  exact ⟨leftResult, rightResult, hleft, hright,
    simulateBacktest_noLookAhead _ _ _ 3 _ _ rfl (by decide) (by decide) (by decide)
      (fun _ _ => rfl) hleft hright⟩

end Cryptox.Backtesting.Simulation
