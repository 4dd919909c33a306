import Cryptox.Backtesting.Simulator.Exits

/-!
# What an entry leads to

The market, the strategy's answers and the terms of a simulation leave one trade to an entry: it is
left at the first candle that the strategy answered against or that reached a level, else at the end
of the range. Every trade of a run is the one prescribed for its entry, equity and place.
-/
namespace Cryptox.Backtesting.Simulation

open Cryptox.Library (bind_eq_ok pure_eq_ok)

variable {sim : Simulation} {state next : SimulatorState} {candle : Candle} {index now : Nat}
  {calendar : Calendar} {input : SimulationInput} {position : Position}

/-! ## The exit of a position -/

/-- The strategy's answer at the close before candle `index` asks for this action. -/
def AnsweredBefore (sim : Simulation) (index : Nat) (action : Action) : Prop :=
  ∃ before, before + 1 = index ∧ sim.warmupCandles ≤ before ∧ Answers sim before action

/-- That answer asks for the other side. -/
def Opposed (sim : Simulation) (position : Position) (index : Nat) : Prop :=
  ∃ action, AnsweredBefore sim index action ∧ position.signal ≠ side action

def protectiveExitAt (position : Position) (candle : Candle) :
    Except String (Option (Decimal × ExitReason)) := do
  let marketOpen := (← decimal candle.openPrice).round 8
  let marketHigh := (← decimal candle.high).round 8
  let marketLow := (← decimal candle.low).round 8
  return protectiveExit position marketOpen marketHigh marketLow

/-- The candle leaves the position open. -/
structure Holds (sim : Simulation) (position : Position) (index : Nat) (candle : Candle) :
    Prop where
  unopposed : ¬ Opposed sim position index
  untouched : protectiveExitAt position candle = .ok none

/-- The price, the time and the reason for which candle `index` ends the position. -/
inductive EndsAt (sim : Simulation) (position : Position) (index : Nat) (candle : Candle) :
    Decimal → String → ExitReason → Prop where
  | opposed {market : Decimal} (hopposed : Opposed sim position index)
      (hopen : decimal candle.openPrice = .ok market) :
      EndsAt sim position index candle (market.round 8) candle.timestamp .strategyClose
  | touched {price : Decimal} {reason : ExitReason} (hunopposed : ¬ Opposed sim position index)
      (hexit : protectiveExitAt position candle = .ok (some (price, reason))) :
      EndsAt sim position index candle price candle.timestamp reason
  | rangeEnd {market : Decimal} {time : String} (hholds : Holds sim position index candle)
      (hlast : index + 1 = sim.candles.length) (hclose : decimal candle.close = .ok market)
      (htime : candleCloseTime sim.calendar candle.timestamp sim.input.timeframe = .ok time) :
      EndsAt sim position index candle (market.round 8) time .rangeEnd

/-- The position that the answer before its entry candle opens, on an equity in cents. -/
structure Opened (sim : Simulation) (position : Position) : Prop where
  opens : ∃ action candle, AnsweredBefore sim position.entryIndex action ∧
    sim.candles[position.entryIndex]? = some candle ∧
    Opens sim position.equityBeforeTrade action candle position.entryIndex position
  cents : position.equityBeforeTrade.scale = 2

/-- The candles after the entry and before `index` leave the position open. -/
def HeldUntil (sim : Simulation) (position : Position) (index : Nat) : Prop :=
  ∀ passed between, position.entryIndex < passed → passed < index →
    sim.candles[passed]? = some between → Holds sim position passed between

/-- The trade is what its entry leads to. -/
def Prescribed (sim : Simulation) (trade : Trade) : Prop :=
  ∃ position index candle price time reason, Opened sim position ∧
    sim.candles[index]? = some candle ∧ position.entryIndex < index ∧
    HeldUntil sim position index ∧ EndsAt sim position index candle price time reason ∧
    sim.closingTrade position trade.sequence price time reason = .ok trade

/-! ## One entry, one trade -/

theorem Answers.unique {action other : Action} (h : Answers sim index action)
    (h' : Answers sim index other) : action = other := by
  obtain ⟨candle, sentiment, text, hcandle, hsentiment, htext, haction⟩ := h
  obtain ⟨candle', sentiment', text', hcandle', hsentiment', htext', haction'⟩ := h'
  cases hcandle.symm.trans hcandle'
  cases hsentiment.symm.trans hsentiment'
  cases htext.symm.trans htext'
  cases haction.symm.trans haction'
  rfl

theorem AnsweredBefore.unique {action other : Action} (h : AnsweredBefore sim index action)
    (h' : AnsweredBefore sim index other) : action = other := by
  obtain ⟨before, hbefore, -, hanswer⟩ := h
  obtain ⟨before', hbefore', -, hanswer'⟩ := h'
  obtain rfl : before = before' := by omega
  exact hanswer.unique hanswer'

/-- What is opened depends on the equity of the state alone. -/
theorem openPosition_congr {action : Action} {before before' : SimulatorState}
    (hequity : before.equity = before'.equity)
    (h : sim.openPosition before action candle index = .ok (before.enter position)) :
    sim.openPosition before' action candle index = .ok (before'.enter position) := by
  have hopened : (before.enter position).opened.length ≠ before.opened.length := by simp
  simp only [openPosition, bind_eq_ok] at h ⊢
  obtain ⟨marketOpen, hopen, quantity, hquantity, h⟩ := h
  refine ⟨marketOpen, hopen, quantity, by rwa [← hequity], ?_⟩
  split at h
  · exact absurd (congrArg (fun state => state.opened.length) (pure_eq_ok.mp h).symm) hopened
  · rename_i hpos
    rw [if_neg hpos]
    simp only [bind_eq_ok, pure_eq_ok] at h ⊢
    obtain ⟨stopLoss, hstop, takeProfit, htake, _, hstopPos, _, htakePos, henter⟩ := h
    refine ⟨stopLoss, hstop, takeProfit, htake, (), hstopPos, (), htakePos, ?_⟩
    have hposition := Option.some.inj (congrArg SimulatorState.position henter)
    rw [← hposition, hequity]

theorem Opened.unique {other : Position} (h : Opened sim position) (h' : Opened sim other)
    (hindex : position.entryIndex = other.entryIndex)
    (hequity : position.equityBeforeTrade = other.equityBeforeTrade) : position = other := by
  obtain ⟨action, candle, hanswer, hcandle, hopens⟩ := h.opens
  obtain ⟨action', candle', hanswer', hcandle', hopens'⟩ := h'.opens
  rw [← hindex] at hanswer' hcandle'
  cases hanswer.unique hanswer'
  cases hcandle.symm.trans hcandle'
  obtain ⟨before, hbefore, hopened⟩ := hopens.opened
  obtain ⟨before', hbefore', hopened'⟩ := hopens'.opened
  have hsame : before.equity = before'.equity := by rw [hbefore, hbefore', hequity]
  rw [← hindex] at hopened'
  have hentered := (openPosition_congr hsame hopened).symm.trans hopened'
  exact Option.some.inj (congrArg SimulatorState.position (Except.ok.inj hentered))

/-- A candle that ends a position does not leave it open, but for the last one. -/
theorem EndsAt.not_holds {price : Decimal} {time : String} {reason : ExitReason}
    (h : EndsAt sim position index candle price time reason)
    (hlast : index + 1 < sim.candles.length) : ¬ Holds sim position index candle := by
  intro hholds
  cases h with
  | opposed hopposed => exact hholds.unopposed hopposed
  | touched _ hexit =>
    rw [hholds.untouched] at hexit
    cases hexit
  | rangeEnd _ hend => omega

theorem EndsAt.unique {price price' : Decimal} {time time' : String} {reason reason' : ExitReason}
    (h : EndsAt sim position index candle price time reason)
    (h' : EndsAt sim position index candle price' time' reason') :
    price = price' ∧ time = time' ∧ reason = reason' := by
  cases h with
  | opposed hopposed hopen =>
    cases h' with
    | opposed _ hopen' =>
      cases hopen.symm.trans hopen'
      exact ⟨rfl, rfl, rfl⟩
    | touched hunopposed => exact absurd hopposed hunopposed
    | rangeEnd hholds => exact absurd hopposed hholds.unopposed
  | touched hunopposed hexit =>
    cases h' with
    | opposed hopposed => exact absurd hopposed hunopposed
    | touched _ hexit' =>
      cases hexit.symm.trans hexit'
      exact ⟨rfl, rfl, rfl⟩
    | rangeEnd hholds => cases hexit.symm.trans hholds.untouched
  | rangeEnd hholds _ hclose htime =>
    cases h' with
    | opposed hopposed => exact absurd hopposed hholds.unopposed
    | touched _ hexit => cases hholds.untouched.symm.trans hexit
    | rangeEnd _ _ hclose' htime' =>
      cases hclose.symm.trans hclose'
      cases htime.symm.trans htime'
      exact ⟨rfl, rfl, rfl⟩

/-- A position is not held beyond the first candle that ends it. -/
theorem EndsAt.not_before {last : Candle} {price : Decimal} {time : String} {reason : ExitReason}
    {later : Nat} (h : EndsAt sim position index candle price time reason)
    (hcandle : sim.candles[index]? = some candle) (holder : position.entryIndex < index)
    (hlater : sim.candles[later]? = some last) (hheld : HeldUntil sim position later) :
    ¬ index < later := by
  intro hlt
  have hlength := (List.getElem?_eq_some_iff.mp hlater).1
  exact h.not_holds (by omega) (hheld index candle holder hlt hcandle)

theorem toRat_inj_of_scale {left right : Decimal} (hscale : left.scale = right.scale)
    (h : left.toRat = right.toRat) : left = right := by
  have hunits : left.units = right.units :=
    le_antisymm ((Decimal.units_le_iff hscale).mpr h.le)
      ((Decimal.units_le_iff hscale.symm).mpr h.ge)
  cases left
  cases right
  simp only at hscale hunits
  rw [hscale, hunits]

/-- Two prescribed trades that agree in their entry, equity and place are one trade. -/
theorem Prescribed.unique {trade other : Trade} (hsim : Accepted calendar input sim)
    (h : Prescribed sim trade) (h' : Prescribed sim other)
    (hentry : trade.entryTime = other.entryTime)
    (hequity : trade.equityBeforeTrade.toRat = other.equityBeforeTrade.toRat)
    (hsequence : trade.sequence = other.sequence) : trade = other := by
  obtain ⟨position, index, candle, price, time, reason, hopened, hcandle, holder, hheld, hends,
    htrade⟩ := h
  obtain ⟨position', index', candle', price', time', reason', hopened', hcandle', holder', hheld',
    hends', htrade'⟩ := h'
  have hstored := (closingTrade_stored htrade).closes
  have hstored' := (closingTrade_stored htrade').closes
  obtain ⟨action, entry, -, hentryCandle, hopens⟩ := hopened.opens
  obtain ⟨action', entry', -, hentryCandle', hopens'⟩ := hopened'.opens
  have hindex : position.entryIndex = position'.entryIndex := by
    rw [← candleIndex_of_getElem hsim hentryCandle, ← candleIndex_of_getElem hsim hentryCandle',
      ← hopens.entryTime, ← hopens'.entryTime, ← hstored.entryTime, ← hstored'.entryTime, hentry]
  have hbefore : position.equityBeforeTrade = position'.equityBeforeTrade := by
    rw [hstored.equityBefore, hstored'.equityBefore] at hequity
    exact toRat_inj_of_scale (hopened.cents.trans hopened'.cents.symm) hequity
  obtain rfl := hopened.unique hopened' hindex hbefore
  have hforward := hends.not_before hcandle holder hcandle' hheld'
  have hbackward := hends'.not_before hcandle' holder' hcandle hheld
  obtain rfl : index = index' := by omega
  cases hcandle.symm.trans hcandle'
  obtain ⟨rfl, rfl, rfl⟩ := hends.unique hends'
  rw [hsequence] at htrade
  exact Except.ok.inj (htrade.symm.trans htrade')

/-! ## Every trade of a run -/

/-- What holds between two candles: the open position has been held so far, and an answer against it
is scheduled. -/
structure Tracked (sim : Simulation) (now : Nat) (state : SimulatorState) : Prop where
  cents : state.equity.scale = 2
  opened : ∀ position ∈ state.position, Opened sim position ∧ position.entryIndex < now
  held : ∀ position ∈ state.position, HeldUntil sim position now
  heard : now < sim.candles.length → ∀ position ∈ state.position, ∀ action,
    AnsweredBefore sim now action → position.signal ≠ side action → state.scheduled = some action
  trades : ∀ trade ∈ state.trades, Prescribed sim trade

theorem closingTrade_scale {sequence : Nat} {price : Decimal} {time : String}
    {reason : ExitReason} {trade : Trade}
    (h : sim.closingTrade position sequence price time reason = .ok trade) :
    trade.equityAfterTrade.scale = 2 := by
  simp only [closingTrade, bind_eq_ok, pure_eq_ok] at h
  obtain ⟨resultPercent, -, rfl⟩ := h
  exact Decimal.round_scale _ _

section Candle

variable (h : Tracked sim index state) (hhistory : History sim index state)
  (hcandle : sim.candles[index]? = some candle)
include h hhistory hcandle

/-- What reverses a position is an answer against it. -/
theorem Tracked.reverses_iff (hposition : state.position = some position) :
    sim.Reverses state position index = true ↔ Opposed sim position index := by
  have hindex := (List.getElem?_eq_some_iff.mp hcandle).1
  simp only [Reverses, Bool.and_eq_true, Option.any_eq_true, decide_eq_true_eq]
  constructor
  · rintro ⟨⟨action, haction, hside⟩, -⟩
    exact ⟨action, hhistory.scheduled action haction, hside⟩
  · rintro ⟨action, hanswer, hside⟩
    obtain ⟨before, hbefore, hwarm, -⟩ := id hanswer
    exact ⟨⟨action, h.heard hindex position hposition action hanswer hside, hside⟩, by omega⟩

theorem Tracked.holds_of_exitAt (hposition : state.position = some position)
    (hexit : sim.exitAt state candle index = .ok none) : Holds sim position index candle := by
  have hreverses := h.reverses_iff hhistory hcandle hposition
  have holder := (h.opened position hposition).2
  simp only [exitAt, hposition, if_pos holder] at hexit
  split at hexit
  · cases hopen : decimal candle.openPrice <;> rw [hopen] at hexit <;> cases hexit
  · rename_i hkept
    refine ⟨fun hopposed => hkept (hreverses.mpr hopposed), ?_⟩
    simp only [bind_eq_ok, pure_eq_ok, Option.map_eq_none_iff] at hexit
    simp only [protectiveExitAt, bind_eq_ok, pure_eq_ok]
    exact hexit

theorem Tracked.endsAt_of_exitAt (hposition : state.position = some position) {price : Decimal}
    {reason : ExitReason}
    (hexit : sim.exitAt state candle index = .ok (some (position, price, reason))) :
    EndsAt sim position index candle price candle.timestamp reason := by
  have hreverses := h.reverses_iff hhistory hcandle hposition
  have holder := (h.opened position hposition).2
  simp only [exitAt, hposition, if_pos holder] at hexit
  split at hexit
  · rename_i hreversed
    simp only [bind_eq_ok, pure_eq_ok] at hexit
    obtain ⟨market, hopen, hsome⟩ := hexit
    cases hsome
    exact .opposed (hreverses.mp hreversed) hopen
  · rename_i hkept
    refine .touched (fun hopposed => hkept (hreverses.mpr hopposed)) ?_
    simp only [bind_eq_ok, pure_eq_ok] at hexit
    obtain ⟨marketOpen, hopen, marketHigh, hhigh, marketLow, hlow, hsome⟩ := hexit
    obtain ⟨exit, hprotective, hpair⟩ := Option.map_eq_some_iff.mp hsome
    simp only [protectiveExitAt, bind_eq_ok, pure_eq_ok]
    refine ⟨marketOpen, hopen, marketHigh, hhigh, marketLow, hlow, ?_⟩
    rw [hprotective]
    cases hpair
    rfl

end Candle

/-- An answer against the position that is left is scheduled. -/
theorem candleStep_scheduled (hcandle : sim.candles[index]? = some candle)
    (h : sim.candleStep state candle index = .ok next) (hlast : index + 1 < sim.candles.length)
    {position : Position} (hposition : next.position = some position) {action : Action}
    (hanswer : AnsweredBefore sim (index + 1) action) (hside : position.signal ≠ side action) :
    next.scheduled = some action := by
  obtain ⟨before, hbefore, hwarm, candle', sentiment, text, hcandle', hsentiment, htext, haction⟩ :=
    hanswer
  obtain rfl : before = index := by omega
  cases hcandle.symm.trans hcandle'
  simp only [candleStep, bind_eq_ok] at h
  obtain ⟨executed, -, exited, -, hdecide⟩ := h
  unfold decideAtClose at hdecide
  rw [if_neg] at hdecide
  · simp only [bind_eq_ok, pure_eq_ok] at hdecide
    obtain ⟨sentiment', hsentiment', text', htext', decision, hdecision, rfl⟩ := hdecide
    cases hsentiment.symm.trans hsentiment'
    cases htext.symm.trans htext'
    cases haction.symm.trans hdecision
    unfold schedule at hposition ⊢
    dsimp only at hposition ⊢
    split at hposition
    · rename_i hsame
      simp [hposition, hside] at hsame
    · rename_i hother
      rw [if_neg hother]
  · simp only [isLastIndex, Bool.or_eq_true, decide_eq_true_eq, beq_iff_eq, not_or, not_lt]
    exact ⟨hwarm, by omega⟩

theorem Tracked.step (h : Tracked sim index state) (hhistory : History sim index state)
    (hcandle : sim.candles[index]? = some candle)
    (hstep : sim.candleStep state candle index = .ok next) : Tracked sim (index + 1) next := by
  have hscheduled := fun hlast position => @candleStep_scheduled sim state next candle index hcandle
    hstep hlast position
  obtain ⟨closed, entered, scheduled, hcloses, henters, rfl, -⟩ := candleStep_cases hstep
  -- what the candle closes is prescribed, and what it does not close is held
  have hclosed : closed.equity.scale = 2 ∧ (∀ trade ∈ closed.trades, Prescribed sim trade) ∧
      closed.scheduled = state.scheduled ∧ ∀ position ∈ closed.position,
        (Opened sim position ∧ position.entryIndex < index) ∧
          HeldUntil sim position (index + 1) := by
    rcases hcloses with ⟨hexit, rfl⟩ |
      ⟨position, price, reason, trade, hexit, hposition, -, htrade, rfl⟩
    · refine ⟨h.cents, h.trades, rfl, fun position hposition => ⟨h.opened position hposition, ?_⟩⟩
      intro passed between hlt hle hbetween
      rcases Nat.lt_succ_iff_lt_or_eq.mp hle with hearlier | rfl
      · exact h.held position hposition passed between hlt hearlier hbetween
      · cases hcandle.symm.trans hbetween
        exact h.holds_of_exitAt hhistory hcandle hposition hexit
    · refine ⟨closingTrade_scale htrade, ?_, rfl, by simp⟩
      intro other hother
      rcases List.mem_append.mp hother with hold | hnew
      · exact h.trades other hold
      · cases List.mem_singleton.mp hnew
        obtain ⟨hopened, holder⟩ := h.opened position hposition
        refine ⟨position, index, candle, price, _, reason, hopened, hcandle, holder,
          h.held position hposition, h.endsAt_of_exitAt hhistory hcandle hposition hexit, ?_⟩
        rw [(closingTrade_stored htrade).sequence]
        exact htrade
  obtain ⟨hcents, htrades, hkept, hpositions⟩ := hclosed
  rcases henters with rfl | ⟨action, position, haction, -, -, -, hopens, rfl⟩
  · refine ⟨hcents, fun position hposition => ?_, fun position hposition => ?_,
      fun hlast position hposition action => hscheduled hlast position hposition, htrades⟩
    · obtain ⟨⟨hopened, hearlier⟩, -⟩ := hpositions position hposition
      exact ⟨hopened, by omega⟩
    · exact (hpositions position hposition).2
  · rw [hkept] at haction
    refine ⟨hcents, ?_, ?_,
      fun hlast position hposition action => hscheduled hlast position hposition, htrades⟩
    · rintro _ ⟨⟩
      have hindex := hopens.entryIndex
      refine ⟨⟨⟨action, candle, ?_, ?_, ?_⟩, ?_⟩, by omega⟩
      · rw [hindex]
        exact hhistory.scheduled action haction
      · rw [hindex]
        exact hcandle
      · rw [hindex, hopens.equityBefore]
        exact hopens
      · rw [hopens.equityBefore]
        exact hcents
    · rintro _ ⟨⟩ passed between hlt hle
      have hindex := hopens.entryIndex
      omega

theorem Tracked.start (hsim : Accepted calendar input sim) : Tracked sim 0 sim.initial := by
  obtain ⟨capital, -, hequity⟩ := hsim.startingEquity
  refine ⟨?_, by simp [initial], by simp [initial], by simp [initial], by simp [initial]⟩
  rw [initial, hequity]
  exact Decimal.round_scale _ _

theorem loopUpTo_tracked (hsim : Accepted calendar input sim)
    (hvalid : ∀ candle ∈ sim.candles, ValidCandle calendar candle) (count : Nat)
    (h : sim.loopUpTo count = .ok state) :
    count ≤ sim.candles.length → Tracked sim count state := by
  induction count generalizing state with
  | zero =>
    cases h
    exact fun _ => .start hsim
  | succ index ih =>
    intro hcount
    simp only [loopUpTo, bind_eq_ok] at h
    obtain ⟨before, hbefore, h⟩ := h
    have htracked := ih hbefore (by omega)
    have hhistory := loopUpTo_history hsim hvalid index hbefore (by omega)
    split at h
    · rename_i hnone
      rw [List.getElem?_eq_none_iff] at hnone
      omega
    · rename_i candle hcandle
      exact htracked.step hhistory hcandle h

/-- Every trade of a finished walk is the one prescribed for its entry. -/
theorem finalState_prescribed (hsim : Accepted calendar input sim)
    (hvalid : ∀ candle ∈ sim.candles, ValidCandle calendar candle)
    (h : sim.finalState = .ok state) : ∀ trade ∈ state.trades, Prescribed sim trade := by
  simp only [finalState, bind_eq_ok] at h
  obtain ⟨ended, hended, h⟩ := h
  have htracked := loopUpTo_tracked hsim hvalid _ hended le_rfl
  have hhistory := loopUpTo_history hsim hvalid _ hended le_rfl
  unfold closeAtRangeEnd at h
  split at h
  · rename_i position final hposition hfinal
    simp only [bind_eq_ok] at h
    obtain ⟨market, hclose, time, htime, h⟩ := h
    obtain ⟨trade, htrade, rfl⟩ := closePosition_some hposition h
    have hnotLast := (hhistory.entered position hposition).notLast
    have hexit : sim.candles[sim.candles.length - 1]? = some final := by
      rw [← List.getLast?_eq_getElem?, hfinal]
    have hheld := htracked.held position hposition
    have hholds := hheld _ final (by omega) (by omega) hexit
    intro other hother
    rcases List.mem_append.mp hother with hold | hnew
    · exact htracked.trades other hold
    · cases List.mem_singleton.mp hnew
      refine ⟨position, sim.candles.length - 1, final, _, time, .rangeEnd,
        (htracked.opened position hposition).1, hexit, by omega,
        fun passed between hlt hgt => hheld passed between hlt (by omega),
        .rangeEnd hholds (by omega) hclose htime, ?_⟩
      rw [(closingTrade_stored htrade).sequence]
      exact htrade
  · cases h
    exact htracked.trades

end Cryptox.Backtesting.Simulation
