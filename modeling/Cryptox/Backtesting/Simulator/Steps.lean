import Cryptox.Library.Outcome
import Cryptox.Backtesting.Simulator

/-!
# What one candle can do

A candle closes at most one position, then opens at most one, then leaves at most one scheduled
action. `candleStep_cases` says so once; every fact about a run is derived from it.
-/
namespace Cryptox.Backtesting.Simulation

open Cryptox.Library (bind_eq_ok pure_eq_ok roundTo)

variable {sim : Simulation} {state next : SimulatorState} {candle : Candle} {index : Nat}

@[simp] theorem record_position (trade : Trade) : (state.record trade).position = none := rfl
@[simp] theorem record_scheduled (trade : Trade) :
    (state.record trade).scheduled = state.scheduled := rfl
@[simp] theorem record_equity (trade : Trade) :
    (state.record trade).equity = trade.equityAfterTrade := rfl
@[simp] theorem record_sequence (trade : Trade) :
    (state.record trade).sequence = state.sequence + 1 := rfl
@[simp] theorem record_trades (trade : Trade) :
    (state.record trade).trades = state.trades ++ [trade] := rfl
@[simp] theorem record_opened (trade : Trade) : (state.record trade).opened = state.opened := rfl
@[simp] theorem enter_position (position : Position) :
    (state.enter position).position = some position := rfl
@[simp] theorem enter_scheduled (position : Position) :
    (state.enter position).scheduled = state.scheduled := rfl
@[simp] theorem enter_equity (position : Position) :
    (state.enter position).equity = state.equity := rfl
@[simp] theorem enter_sequence (position : Position) :
    (state.enter position).sequence = state.sequence := rfl
@[simp] theorem enter_trades (position : Position) :
    (state.enter position).trades = state.trades := rfl
@[simp] theorem enter_opened (position : Position) :
    (state.enter position).opened = state.opened ++ [position] := rfl

/-- A position opened on `equity` at the open of a candle. -/
structure Opens (sim : Simulation) (equity : Decimal) (action : Action) (candle : Candle)
    (index : Nat) (position : Position) : Prop where
  signal : position.signal = side action
  entryIndex : position.entryIndex = index
  entryTime : position.entryTime = candle.timestamp
  equityBefore : position.equityBeforeTrade = equity
  quantity_pos : 0 < position.quantity.units
  quantity : position.quantity.toRat
    = roundTo 8 (equity.toRat / (position.entryPrice.toRat * (1 + sim.feeRate.toRat)))
  opened : ∃ before : SimulatorState, before.equity = equity ∧
    sim.openPosition before action candle index = .ok (before.enter position)

theorem openPosition_cases {action : Action}
    (h : sim.openPosition state action candle index = .ok next) :
    next = state ∨ ∃ position, Opens sim state.equity action candle index position ∧
      next = state.enter position := by
  have hopened := h
  simp only [openPosition, bind_eq_ok] at h
  obtain ⟨marketOpen, -, quantity, hquantity, h⟩ := h
  split at h
  · exact .inl (pure_eq_ok.mp h).symm
  · rename_i hpos
    simp only [bind_eq_ok, pure_eq_ok] at h
    obtain ⟨stopLoss, -, takeProfit, -, -, -, -, -, rfl⟩ := h
    refine .inr ⟨_, ⟨rfl, rfl, rfl, rfl, by simpa using hpos, ?_, state, rfl, hopened⟩, rfl⟩
    have hrat := Decimal.divide_toRat hquantity
    rw [hrat]
    simp

/-- The state asks for a position on the other side, and the warm-up lets it be executed. -/
def Reverses (sim : Simulation) (state : SimulatorState) (position : Position) (index : Nat) : Bool :=
  (state.scheduled.any fun action => position.signal ≠ side action) && sim.warmupCandles ≤ index

/-- The position a candle closes, with the market price and the reason: a reversal at the open,
else the protective exit of a position that is older than the candle. -/
def exitAt (sim : Simulation) (state : SimulatorState) (candle : Candle) (index : Nat) :
    Except String (Option (Position × Decimal × ExitReason)) :=
  match state.position with
  | none => .ok none
  | some position =>
    if sim.Reverses state position index then do
      return some (position, (← decimal candle.openPrice).round 8, .strategyClose)
    else if position.entryIndex < index then do
      let marketOpen := (← decimal candle.openPrice).round 8
      let marketHigh := (← decimal candle.high).round 8
      let marketLow := (← decimal candle.low).round 8
      return (protectiveExit position marketOpen marketHigh marketLow).map fun exit =>
        (position, exit.1, exit.2)
    else .ok none

/-- The closing part of a candle. -/
def Closes (sim : Simulation) (state : SimulatorState) (candle : Candle) (index : Nat)
    (closed : SimulatorState) : Prop :=
  (sim.exitAt state candle index = .ok none ∧ closed = state) ∨
    ∃ position price reason trade,
      sim.exitAt state candle index = .ok (some (position, price, reason)) ∧
      state.position = some position ∧ reason ≠ .rangeEnd ∧
      sim.closingTrade position (state.sequence + 1) price candle.timestamp reason = .ok trade ∧
      closed = state.record trade

/-- The opening part, which needs an action scheduled before the candle. -/
def Enters (sim : Simulation) (closed : SimulatorState) (candle : Candle) (index : Nat)
    (entered : SimulatorState) : Prop :=
  entered = closed ∨
    ∃ action position, closed.scheduled = some action ∧ closed.position = none ∧
      sim.warmupCandles ≤ index ∧ index + 1 < sim.candles.length ∧
      Opens sim closed.equity action candle index position ∧ entered = closed.enter position

theorem closePosition_some {position : Position} {price : Decimal} {time : String}
    {reason : ExitReason} (hposition : state.position = some position)
    (h : sim.closePosition state price time reason = .ok next) :
    ∃ trade, sim.closingTrade position (state.sequence + 1) price time reason = .ok trade ∧
      next = state.record trade := by
  simp only [closePosition, hposition, bind_eq_ok, pure_eq_ok] at h
  obtain ⟨trade, htrade, rfl⟩ := h
  exact ⟨trade, htrade, rfl⟩

theorem applyProtectiveExit_young
    (h : ∀ position, state.position = some position → ¬ position.entryIndex < index) :
    sim.applyProtectiveExit state candle index = .ok state := by
  unfold applyProtectiveExit
  split
  · rfl
  · rename_i position hposition
    rw [if_neg (h position hposition)]

theorem protectiveExit_reason {position : Position} {marketOpen marketHigh marketLow price : Decimal}
    {reason : ExitReason}
    (h : protectiveExit position marketOpen marketHigh marketLow = some (price, reason)) :
    reason ≠ .rangeEnd := by
  unfold protectiveExit at h
  split at h
  · obtain ⟨stop, -, h⟩ := Option.map_eq_some_iff.mp h
    cases h
    exact ExitReason.noConfusion
  · split at h
    · obtain ⟨take, -, h⟩ := Option.map_eq_some_iff.mp h
      cases h
      exact ExitReason.noConfusion
    · cases h

/-- The protective exit closes what `exitAt` names; the scheduled action plays no part in it. -/
theorem applyProtectiveExit_cases (scheduled : Option Action)
    (hkeep : ∀ position, state.position = some position → sim.Reverses state position index = false)
    (h : sim.applyProtectiveExit { state with scheduled } candle index = .ok next) :
    ∃ closed, Closes sim state candle index closed ∧ next = { closed with scheduled } := by
  unfold applyProtectiveExit at h
  split at h
  · rename_i hnone
    refine ⟨state, .inl ⟨?_, rfl⟩, (Except.ok.inj h).symm⟩
    simp only at hnone
    simp [exitAt, hnone]
  · rename_i position hposition
    simp only at hposition
    have hrev := hkeep position hposition
    split at h
    · rename_i hold
      simp only [bind_eq_ok] at h
      obtain ⟨marketOpen, hopen, marketHigh, hhigh, marketLow, hlow, h⟩ := h
      have hexit : sim.exitAt state candle index
          = .ok ((protectiveExit position (marketOpen.round 8) (marketHigh.round 8)
              (marketLow.round 8)).map fun exit => (position, exit.1, exit.2)) := by
        simp only [exitAt, hposition, hrev, if_pos hold, hopen, hhigh, hlow]
        rfl
      split at h
      · rename_i hnone
        refine ⟨state, .inl ⟨?_, rfl⟩, (pure_eq_ok.mp h).symm⟩
        rw [hexit, hnone]
        rfl
      · rename_i price reason hsome
        have hheld : ({ state with scheduled } : SimulatorState).position = some position := hposition
        obtain ⟨trade, htrade, rfl⟩ := closePosition_some hheld h
        refine ⟨state.record trade, .inr ⟨position, price, reason, trade, ?_, hposition, ?_,
          htrade, rfl⟩, rfl⟩
        · rw [hexit, hsome]
          rfl
        · exact protectiveExit_reason hsome
    · rename_i hyoung
      refine ⟨state, .inl ⟨?_, rfl⟩, (Except.ok.inj h).symm⟩
      simp [exitAt, hposition, hrev, hyoung]

/-- What is left of a scheduled action's own side stays; what is on the other side is closed. -/
theorem closeReversed_cases {action : Action} (haction : state.scheduled = some action)
    (hwarm : sim.warmupCandles ≤ index)
    (h : sim.closeReversed state action candle = .ok next) :
    (next = state ∧ next.position ≠ none ∧
      ∀ position, state.position = some position → sim.Reverses state position index = false) ∨
    (Closes sim state candle index next ∧ next.position = none ∧ next.scheduled = some action) := by
  unfold closeReversed at h
  split at h
  · rename_i hnone
    cases h
    exact .inr ⟨.inl ⟨by simp [exitAt, hnone], rfl⟩, hnone, haction⟩
  · rename_i position hposition
    split at h
    · rename_i hside
      cases h
      refine .inl ⟨rfl, by simp [hposition], ?_⟩
      intro other hother
      rw [hposition] at hother
      cases hother
      simp [Reverses, haction, hside]
    · rename_i hside
      simp only [bind_eq_ok] at h
      obtain ⟨marketOpen, hopen, h⟩ := h
      obtain ⟨trade, htrade, rfl⟩ := closePosition_some hposition h
      have hrev : sim.Reverses state position index = true := by
        simp [Reverses, haction, hside, hwarm]
      refine .inr ⟨.inr ⟨position, marketOpen.round 8, .strategyClose, trade, ?_, hposition,
        by decide, htrade, rfl⟩, rfl, haction⟩
      simp only [exitAt, hposition, hrev, hopen]
      rfl

/-- The opening half of an executed action. A position it opens is too young to be stopped out. -/
theorem openWhenFlat_cases {closed entered : SimulatorState} {action : Action}
    (hwarm : sim.warmupCandles ≤ index) (hnone : closed.position = none)
    (hscheduled : closed.scheduled = some action)
    (h : sim.openWhenFlat closed action candle index = .ok entered) :
    Enters sim closed candle index entered ∧
      ∀ position, entered.position = some position → ¬ position.entryIndex < index := by
  unfold openWhenFlat at h
  split at h
  · rename_i hopen
    simp only [Bool.and_eq_true, decide_eq_true_eq] at hopen
    rcases openPosition_cases h with rfl | ⟨position, hopens, rfl⟩
    · exact ⟨.inl rfl, by simp [hnone]⟩
    · refine ⟨.inr ⟨action, position, hscheduled, hnone, hwarm, hopen.2, hopens, rfl⟩, ?_⟩
      intro other hother
      cases hother
      rw [hopens.entryIndex]
      exact lt_irrefl index
  · cases h
    exact ⟨.inl rfl, by simp [hnone]⟩

/-- The closing and the opening half of a candle, before the strategy is asked. -/
theorem exits_cases {executed : SimulatorState}
    (hexecuted : sim.executeScheduled state candle index = .ok executed)
    (h : sim.applyProtectiveExit executed candle index = .ok next) :
    ∃ closed entered scheduled, Closes sim state candle index closed ∧
      Enters sim closed candle index entered ∧ next = { entered with scheduled } ∧
      (scheduled = none ∨ scheduled = state.scheduled) := by
  unfold executeScheduled at hexecuted
  split at hexecuted
  · rename_i hnone
    cases hexecuted
    obtain ⟨closed, hclosed, rfl⟩ := applyProtectiveExit_cases state.scheduled
      (by simp [Reverses, hnone]) h
    exact ⟨closed, closed, state.scheduled, hclosed, .inl rfl, rfl, .inr rfl⟩
  · rename_i action haction
    split at hexecuted
    · rename_i hwarm
      cases hexecuted
      obtain ⟨closed, hclosed, rfl⟩ := applyProtectiveExit_cases state.scheduled
        (by simp [Reverses, hwarm]) h
      exact ⟨closed, closed, state.scheduled, hclosed, .inl rfl, rfl, .inr rfl⟩
    · rename_i hwarm
      rw [not_lt] at hwarm
      simp only [bind_eq_ok, pure_eq_ok] at hexecuted
      obtain ⟨closed, hclosed, entered, hentered, rfl⟩ := hexecuted
      rcases closeReversed_cases haction hwarm hclosed with
        ⟨rfl, hheld, hkeep⟩ | ⟨hcloses, hnone, hscheduled⟩
      · have hopened : closed.position.isNone = false := by
          simpa [← Option.not_isSome, Option.isSome_iff_ne_none] using hheld
        simp only [openWhenFlat, hopened, Bool.false_and] at hentered
        cases hentered
        obtain ⟨after, hafter, rfl⟩ := applyProtectiveExit_cases none hkeep h
        exact ⟨after, after, none, hafter, .inl rfl, rfl, .inl rfl⟩
      · obtain ⟨henters, hyoung⟩ := openWhenFlat_cases hwarm hnone hscheduled hentered
        have hstay : sim.applyProtectiveExit { entered with scheduled := none } candle index
            = .ok { entered with scheduled := none } := applyProtectiveExit_young hyoung
        rw [hstay] at h
        cases h
        exact ⟨closed, entered, none, hcloses, henters, rfl, .inl rfl⟩

/-- One candle: what it closes, what it then opens, what it leaves scheduled. -/
theorem candleStep_cases (h : sim.candleStep state candle index = .ok next) :
    ∃ closed entered scheduled, Closes sim state candle index closed ∧
      Enters sim closed candle index entered ∧ next = { entered with scheduled } ∧
      (scheduled = none ∨ scheduled = state.scheduled ∨ sim.warmupCandles ≤ index) := by
  simp only [candleStep, bind_eq_ok] at h
  obtain ⟨executed, hexecuted, exited, hexited, h⟩ := h
  obtain ⟨closed, entered, scheduled, hcloses, henters, rfl, hscheduled⟩ :=
    exits_cases hexecuted hexited
  unfold decideAtClose at h
  split at h
  · cases h
    exact ⟨closed, entered, scheduled, hcloses, henters, rfl, hscheduled.imp_right .inl⟩
  · rename_i hwarm
    simp only [bind_eq_ok, pure_eq_ok] at h
    obtain ⟨sentiment, -, signal, -, decision, -, rfl⟩ := h
    unfold schedule
    split
    · exact ⟨closed, entered, scheduled, hcloses, henters, rfl, hscheduled.imp_right .inl⟩
    · split
      · exact ⟨closed, entered, scheduled, hcloses, henters, rfl, hscheduled.imp_right .inl⟩
      · refine ⟨closed, entered, _, hcloses, henters, rfl, .inr (.inr ?_)⟩
        simp only [Bool.or_eq_true, decide_eq_true_eq, not_or, not_lt] at hwarm
        exact hwarm.1

/-- After the loop: a position that is still open is closed at the last close. -/
theorem closeAtRangeEnd_cases (h : sim.closeAtRangeEnd state = .ok next) :
    (next = state ∧ (state.position = none ∨ sim.candles = [])) ∨
      ∃ position finalCandle marketClose exitTime trade,
        state.position = some position ∧ sim.candles.getLast? = some finalCandle ∧
        decimal finalCandle.close = .ok marketClose ∧
        sim.closingTrade position (state.sequence + 1) (marketClose.round 8) exitTime .rangeEnd
          = .ok trade ∧ next = state.record trade := by
  unfold closeAtRangeEnd at h
  split at h
  · rename_i position finalCandle hposition hlast
    simp only [bind_eq_ok] at h
    obtain ⟨marketClose, hclose, exitTime, -, h⟩ := h
    obtain ⟨trade, htrade, rfl⟩ := closePosition_some hposition h
    exact .inr ⟨position, finalCandle, marketClose, exitTime, trade, hposition, hlast, hclose,
      htrade, rfl⟩
  · rename_i hnone
    refine .inl ⟨(Except.ok.inj h).symm, ?_⟩
    cases hposition : state.position with
    | none => exact .inl rfl
    | some position =>
      refine .inr (List.getLast?_eq_none_iff.mp ?_)
      cases hlast : sim.candles.getLast? with
      | none => rfl
      | some finalCandle => exact absurd hlast (hnone position finalCandle hposition)

/-- What every stored trade has by itself, all trades of a run have. -/
theorem loopUpTo_forall_trades {P : Trade → Prop}
    (hP : ∀ position sequence price time reason trade,
      sim.closingTrade position sequence price time reason = .ok trade → P trade)
    (count : Nat) (h : sim.loopUpTo count = .ok state) : ∀ trade ∈ state.trades, P trade := by
  induction count generalizing state with
  | zero =>
    cases h
    simp [initial]
  | succ index ih =>
    simp only [loopUpTo, bind_eq_ok] at h
    obtain ⟨before, hbefore, h⟩ := h
    split at h
    · cases h
      exact ih hbefore
    · rename_i candle hcandle
      obtain ⟨closed, entered, scheduled, hcloses, henters, rfl, -⟩ := candleStep_cases h
      have hclosed : ∀ trade ∈ closed.trades, P trade := by
        rcases hcloses with ⟨-, rfl⟩ | ⟨position, price, reason, trade, -, -, -, htrade, rfl⟩
        · exact ih hbefore
        · intro other hother
          rcases List.mem_append.mp hother with hold | hnew
          · exact ih hbefore other hold
          · cases List.mem_singleton.mp hnew
            exact hP _ _ _ _ _ _ htrade
      rcases henters with rfl | ⟨action, position, -, -, -, -, -, rfl⟩
      · exact hclosed
      · exact hclosed

theorem finalState_forall_trades {P : Trade → Prop}
    (hP : ∀ position sequence price time reason trade,
      sim.closingTrade position sequence price time reason = .ok trade → P trade)
    (h : sim.finalState = .ok state) : ∀ trade ∈ state.trades, P trade := by
  simp only [finalState, bind_eq_ok] at h
  obtain ⟨before, hbefore, h⟩ := h
  have hloop := loopUpTo_forall_trades hP _ hbefore
  rcases closeAtRangeEnd_cases h with ⟨rfl, -⟩ | ⟨position, finalCandle, marketClose, exitTime, trade,
    -, -, -, htrade, rfl⟩
  · exact hloop
  · intro other hother
    rcases List.mem_append.mp hother with hold | hnew
    · exact hloop other hold
    · cases List.mem_singleton.mp hnew
      exact hP _ _ _ _ _ _ htrade

end Cryptox.Backtesting.Simulation
