import Cryptox.MarketData.Rules
import Mathlib.Data.List.Induction

/-!
# Pages of historical klines

The provider is asked for the klines of a range, a thousand at a time, from behind the last one
on. `toNumber` stands for `Number` of a text, and a timestamp is kept as the instant of its text.
The `n`th row to be read finds the clock at `now n`.
-/
namespace Cryptox.MarketData

open Cryptox.Backtesting (Timeframe)
open Cryptox.Library

/-- An entry of a row of the payload. -/
inductive Cell where
  | number (value : JsDouble)
  | text (value : String)
  | other
deriving DecidableEq

structure HistoricalObservation where
  pair : String
  timeframe : Timeframe
  timestamp : Int
  openPrice : Binary64
  high : Binary64
  low : Binary64
  close : Binary64
  volume : Binary64
  isClosed : Bool
  orderKey : String
deriving DecidableEq

structure KlinesRequest where
  symbol : String
  interval : String
  startTime : Int
  endTime : Int
  limit : Nat
deriving DecidableEq, Repr

/-- What becomes of a request. The payload is there where it is an array. -/
inductive KlinesResponse where
  | unreachable
  | refused (status : Nat)
  | answered (payload : Option (List (Option (List Cell))))
deriving DecidableEq

def malformedPayload : String := "BINANCE_MALFORMED_PAYLOAD"

def klinesLimit : Nat := 1000

section Adapter

variable (toNumber : String → JsDouble)

def asNumber : Cell → Except String Binary64
  | .number (.finite value) => .ok value
  | .text value =>
    match toNumber value with
    | .finite value => .ok value
    | _ => .error malformedPayload
  | _ => .error malformedPayload

def unix (value : Binary64) : Except String Int :=
  if value.toRat.den = 1 ∧ 0 < value.toRat.num ∧ value.toRat.num.natAbs ≤ maxTimeValue then
    .ok value.toRat.num
  else .error malformedPayload

def normalizeKline (pair : String) (timeframe : Timeframe) (row : Option (List Cell)) (now : Int) :
    Except String HistoricalObservation :=
  match row with
  | some (openTime :: openPrice :: high :: low :: close :: volume :: closeTime :: _) => do
    let openTime ← asNumber toNumber openTime
    let closeTime ← asNumber toNumber closeTime
    let timestamp ← unix openTime
    let openPrice ← asNumber toNumber openPrice
    let high ← asNumber toNumber high
    let low ← asNumber toNumber low
    let close ← asNumber toNumber close
    let volume ← asNumber toNumber volume
    return { pair, timeframe, timestamp, openPrice, high, low, close, volume,
             isClosed := closeTime.toRat < now, orderKey := toString timestamp }
  | _ => .error malformedPayload

variable (fetchFn : KlinesRequest → KlinesResponse) (now : Nat → Int) (pair : String)
  (timeframe : Timeframe)

/-- The rows of a page, the first of which is the row of the given number. -/
def normalizeRows : Nat → List (Option (List Cell)) → Except String (List HistoricalObservation)
  | _, [] => .ok []
  | count, row :: rows => do
    let observation ← normalizeKline toNumber pair timeframe row (now count)
    let observations ← normalizeRows (count + 1) rows
    return observation :: observations

def fetchPage (startTime endTime : Int) (count : Nat) :
    Except String (List HistoricalObservation) :=
  match fetchFn ⟨pair, timeframeText timeframe, startTime, endTime - 1, klinesLimit⟩ with
  | .unreachable => .error "BINANCE_HISTORY_UNAVAILABLE"
  | .refused status =>
    .error (if status = 429 then "BINANCE_RATE_LIMITED" else "BINANCE_HISTORY_UNAVAILABLE")
  | .answered none => .error malformedPayload
  | .answered (some payload) => normalizeRows toNumber now pair timeframe count payload

/-- The loop over the pages. `none` says that it goes on after the turns it was given. -/
def fetchPages (endTime : Int) :
    Nat → Int → List HistoricalObservation → Option (Except String (List HistoricalObservation))
  | turns, startTime, results =>
    if startTime < endTime then
      match turns with
      | 0 => none
      | turns + 1 =>
        match fetchPage toNumber fetchFn now pair timeframe startTime endTime results.length with
        | .error error => some (.error error)
        | .ok page =>
          match page.getLast? with
          | none => some (.ok (results ++ page))
          | some last =>
            if page.length < klinesLimit then some (.ok (results ++ page))
            else
              let nextStart := last.timestamp + timeframe.ms
              if nextStart ≤ startTime then some (.error malformedPayload)
              else fetchPages endTime turns nextStart (results ++ page)
    else some (.ok results)

def fetchHistorical (fromTime toTime : TimeValue) (turns : Nat) :
    Option (Except String (List HistoricalObservation)) :=
  (fetchPages toNumber fetchFn now pair timeframe toTime.val turns fromTime.val []).map
    fun fetched => fetched.map fun results => results.filter fun item =>
      fromTime.val ≤ item.timestamp && item.timestamp < toTime.val

end Adapter

/-- A kline of the provider: its row has the numbers it is made of. -/
structure Kline (toNumber : String → JsDouble) where
  row : List Cell
  start : Binary64
  openPrice : Binary64
  high : Binary64
  low : Binary64
  close : Binary64
  volume : Binary64
  finish : Binary64
  numbers : (row.take 7).map (asNumber toNumber) =
    [.ok start, .ok openPrice, .ok high, .ok low, .ok close, .ok volume, .ok finish]
  integer : start.toRat.den = 1

namespace Kline

variable {toNumber : String → JsDouble}

def openTime (kline : Kline toNumber) : Int := kline.start.toRat.num

/-- What is reported of a kline that is read at some time. -/
def observation (kline : Kline toNumber) (pair : String) (timeframe : Timeframe) (now : Int) :
    HistoricalObservation where
  pair
  timeframe
  timestamp := kline.openTime
  openPrice := kline.openPrice
  high := kline.high
  low := kline.low
  close := kline.close
  volume := kline.volume
  isClosed := kline.finish.toRat < now
  orderKey := toString kline.openTime

@[simp] theorem timestamp_observation (kline : Kline toNumber) (pair : String)
    (timeframe : Timeframe) (now : Int) :
    (kline.observation pair timeframe now).timestamp = kline.openTime := rfl

/-- The klines that open in a range, its end included. -/
def within (klines : List (Kline toNumber)) (startTime endTime : Int) : List (Kline toNumber) :=
  klines.filter fun kline => startTime ≤ kline.openTime && kline.openTime ≤ endTime

end Kline

/-- A server of klines that are on the grid of the timeframe, in their order. -/
structure Serves {toNumber : String → JsDouble} (fetchFn : KlinesRequest → KlinesResponse)
    (klines : List (Kline toNumber)) (pair : String) (timeframe : Timeframe) : Prop where
  ascending : klines.Pairwise fun left right => left.openTime < right.openTime
  aligned : ∀ kline ∈ klines, kline.openTime % timeframe.ms = 0
  answers : ∀ startTime endTime,
    fetchFn ⟨pair, timeframeText timeframe, startTime, endTime, klinesLimit⟩ =
      .answered (some (((Kline.within klines startTime endTime).take klinesLimit).map
        fun kline => some kline.row))

section Pages

variable {toNumber : String → JsDouble} {fetchFn : KlinesRequest → KlinesResponse}
  {now : Nat → Int} {klines : List (Kline toNumber)} {pair : String} {timeframe : Timeframe}

/-- A kline that opens after the epoch is read as it is. -/
theorem normalizeKline_row (kline : Kline toNumber) (hpositive : 0 < kline.openTime)
    (hdated : kline.openTime ≤ maxTimeValue) (now : Int) :
    normalizeKline toNumber pair timeframe (some kline.row) now =
      .ok (kline.observation pair timeframe now) := by
  have hunix : unix kline.start = .ok kline.openTime := by
    refine if_pos ⟨kline.integer, hpositive, ?_⟩
    rw [Kline.openTime] at hpositive hdated
    omega
  have hnumbers := kline.numbers
  match hrow : kline.row with
  | openTime :: openPrice :: high :: low :: close :: volume :: closeTime :: rest =>
    simp only [hrow, List.take_succ_cons, List.take_zero, List.map_cons, List.map_nil,
      List.cons.injEq, and_true] at hnumbers
    obtain ⟨hopen, hopenPrice, hhigh, hlow, hclose, hvolume, hfinish⟩ := hnumbers
    simp only [normalizeKline, hopen, hopenPrice, hhigh, hlow, hclose, hvolume, hfinish, ok_bind,
      hunix]
    rfl
  | [] | [_] | [_, _] | [_, _, _] | [_, _, _, _] | [_, _, _, _, _] | [_, _, _, _, _, _] =>
    simp [hrow] at hnumbers

theorem normalizeRows_rows {read : List (Kline toNumber)}
    (hread : ∀ kline ∈ read, 0 < kline.openTime ∧ kline.openTime ≤ maxTimeValue) (count : Nat) :
    normalizeRows toNumber now pair timeframe count (read.map fun kline => some kline.row) =
      .ok (read.mapIdx fun i kline => kline.observation pair timeframe (now (count + i))) := by
  induction read generalizing count with
  | nil => rfl
  | cons kline read ih =>
    obtain ⟨hpositive, hdated⟩ := hread kline List.mem_cons_self
    have hrest := ih (fun other hother => hread other (List.mem_cons_of_mem _ hother)) (count + 1)
    rw [List.map_cons, normalizeRows, normalizeKline_row kline hpositive hdated, hrest,
      List.mapIdx_cons]
    have hcount : ∀ i, count + 1 + i = count + (i + 1) := fun i => by omega
    simp only [hcount]
    rfl

/-- Behind the last of some klines lie just the klines after them. -/
theorem within_next {startTime endTime : Int} (hserves : Serves fetchFn klines pair timeframe)
    {page rest : List (Kline toNumber)} {last : Kline toNumber}
    (hsplit : Kline.within klines startTime endTime = page ++ rest)
    (hlast : page.getLast? = some last) :
    Kline.within klines (last.openTime + timeframe.ms) endTime = rest := by
  have hms := ms_pos timeframe
  obtain ⟨initial, rfl⟩ := List.getLast?_eq_some_iff.mp hlast
  have hmem : ∀ kline ∈ initial ++ [last] ++ rest, kline ∈ klines ∧
      startTime ≤ kline.openTime := by
    intro kline hkline
    rw [← hsplit] at hkline
    obtain ⟨hin, hwithin⟩ := List.mem_filter.mp hkline
    simp only [Bool.and_eq_true, decide_eq_true_eq] at hwithin
    exact ⟨hin, hwithin.1⟩
  have hascending : (initial ++ [last] ++ rest).Pairwise fun left right =>
      left.openTime < right.openTime := by
    rw [← hsplit]
    exact hserves.ascending.sublist List.filter_sublist
  obtain ⟨hpage, -, hafter⟩ := List.pairwise_append.mp hascending
  have hlastMem := hmem last (by simp)
  -- what starts an interval later is what is left of the klines from the start on
  have hfilter : Kline.within klines (last.openTime + timeframe.ms) endTime =
      (Kline.within klines startTime endTime).filter fun kline =>
        last.openTime + timeframe.ms ≤ kline.openTime := by
    rw [Kline.within, Kline.within, List.filter_filter]
    refine List.filter_congr fun kline _ => ?_
    rw [Bool.eq_iff_iff]
    simp only [Bool.and_eq_true, decide_eq_true_eq]
    omega
  have hnone : (initial ++ [last]).filter (fun kline =>
      last.openTime + timeframe.ms ≤ kline.openTime) = [] := by
    refine List.filter_eq_nil_iff.mpr fun kline hkline hlater => ?_
    have hle : kline.openTime ≤ last.openTime := by
      rcases List.mem_append.mp hkline with hinitial | hsame
      · exact ((List.pairwise_append.mp hpage).2.2 kline hinitial last List.mem_cons_self).le
      · rw [List.mem_singleton.mp hsame]
    have hge := of_decide_eq_true hlater
    omega
  have hall : rest.filter (fun kline => last.openTime + timeframe.ms ≤ kline.openTime) = rest := by
    refine List.filter_eq_self.mpr fun kline hkline => decide_eq_true ?_
    have hlt := hafter last (by simp) kline hkline
    have hgrid : timeframe.ms ∣ kline.openTime - last.openTime :=
      dvd_sub (Int.dvd_of_emod_eq_zero (hserves.aligned kline (hmem kline (by simp [hkline])).1))
        (Int.dvd_of_emod_eq_zero (hserves.aligned last hlastMem.1))
    have hle := Int.le_of_dvd (by omega) hgrid
    omega
  rw [hfilter, hsplit, List.filter_append, hnone, hall, List.nil_append]

/-- From any start on the loop reads the klines that are left, with a turn for each and one more. -/
theorem fetchPages_rest (now : Nat → Int) (hserves : Serves fetchFn klines pair timeframe)
    {endTime : Int}
    (hend : endTime ≤ maxTimeValue) {startTime : Int} {rest : List (Kline toNumber)}
    (hrest : Kline.within klines startTime (endTime - 1) = rest)
    (hpositive : ∀ kline ∈ rest, 0 < kline.openTime) (results : List HistoricalObservation)
    {turns : Nat} (hturns : rest.length < turns) :
    fetchPages toNumber fetchFn now pair timeframe endTime turns startTime results =
      some (.ok (results ++ rest.mapIdx fun i kline =>
        kline.observation pair timeframe (now (results.length + i)))) := by
  induction turns generalizing startTime rest results with
  | zero => omega
  | succ turns ih =>
    have hbounds : ∀ kline ∈ rest, startTime ≤ kline.openTime ∧ kline.openTime ≤ endTime - 1 := by
      intro kline hkline
      rw [← hrest] at hkline
      simpa using (List.mem_filter.mp hkline).2
    rw [fetchPages]
    by_cases hmore : startTime < endTime
    · rw [if_pos hmore]
      have hpage : fetchPage toNumber fetchFn now pair timeframe startTime endTime
          results.length = .ok ((rest.take klinesLimit).mapIdx fun i kline =>
            kline.observation pair timeframe (now (results.length + i))) := by
        rw [fetchPage, hserves.answers, hrest]
        refine normalizeRows_rows (fun kline hkline => ?_) _
        have hmem := List.mem_of_mem_take hkline
        have hwithin := hbounds kline hmem
        exact ⟨hpositive kline hmem, by omega⟩
      have hshort : (rest.take klinesLimit).length < klinesLimit → rest.take klinesLimit = rest := by
        intro hlength
        rw [List.length_take] at hlength
        exact List.take_of_length_le (by omega)
      simp only [hpage, List.getLast?_mapIdx, List.length_mapIdx]
      cases hlast : (rest.take klinesLimit).getLast? with
      | none =>
        have hempty := List.getLast?_eq_none_iff.mp hlast
        have hnil : rest.take klinesLimit = rest := hshort (hempty ▸ Nat.succ_pos 999)
        simp only [Option.map_none, hnil]
      | some last =>
        simp only [Option.map_some]
        by_cases hfull : (rest.take klinesLimit).length < klinesLimit
        · rw [if_pos hfull, hshort hfull]
        · rw [if_neg hfull]
          have hsplit := List.take_append_drop klinesLimit rest
          have hlastMem := List.mem_of_mem_take (List.mem_of_getLast? hlast)
          have hms := ms_pos timeframe
          have hahead : ∀ now, ¬ (last.observation pair timeframe now).timestamp + timeframe.ms ≤
              startTime := by
            intro now
            have hstart := (hbounds last hlastMem).1
            rw [Kline.timestamp_observation]
            omega
          have hlimit : klinesLimit = 1000 := rfl
          have hfewer : (rest.drop klinesLimit).length < turns := by
            rw [List.length_take] at hfull
            rw [List.length_drop]
            omega
          have hnext := ih (within_next hserves (hrest.trans hsplit.symm) hlast)
            (fun kline hkline => hpositive kline (List.mem_of_mem_drop hkline))
            (results ++ (rest.take klinesLimit).mapIdx fun i kline =>
              kline.observation pair timeframe (now (results.length + i))) hfewer
          rw [if_neg (hahead _)]
          refine hnext.trans ?_
          conv_rhs => rw [← hsplit, List.mapIdx_append]
          simp only [List.append_assoc, List.length_append, List.length_mapIdx, Nat.add_comm,
            Nat.add_left_comm]
    · rw [if_neg hmore]
      have hnil : rest = [] := by
        refine List.eq_nil_iff_forall_not_mem.mpr fun kline hkline => ?_
        have hwithin := hbounds kline hkline
        omega
      rw [hnil, List.mapIdx_nil, List.append_nil]

/-- The klines of a range that all open after the epoch are reported once each and in their order,
whatever the gaps between them. -/
theorem historical_klines_complete (toNumber : String → JsDouble)
    (fetchFn : KlinesRequest → KlinesResponse) (now : Nat → Int) {klines : List (Kline toNumber)}
    {pair : String} {timeframe : Timeframe} (hserves : Serves fetchFn klines pair timeframe)
    (fromTime toTime : TimeValue)
    (hpositive : ∀ kline ∈ Kline.within klines fromTime.val (toTime.val - 1), 0 < kline.openTime) :
    ∃ enough, ∀ turns, enough ≤ turns →
      fetchHistorical toNumber fetchFn now pair timeframe fromTime toTime turns =
        some (.ok ((Kline.within klines fromTime.val (toTime.val - 1)).mapIdx fun i kline =>
          kline.observation pair timeframe (now i))) := by
  refine ⟨(Kline.within klines fromTime.val (toTime.val - 1)).length + 1, fun turns hturns => ?_⟩
  have hdated : toTime.val ≤ maxTimeValue := by
    have hbound := toTime.property
    omega
  have hpages := fetchPages_rest now hserves hdated rfl hpositive [] (by omega : _ < turns)
  have hkept : ((Kline.within klines fromTime.val (toTime.val - 1)).mapIdx fun i kline =>
      kline.observation pair timeframe (now i)).filter (fun item =>
        fromTime.val ≤ item.timestamp && item.timestamp < toTime.val) =
      (Kline.within klines fromTime.val (toTime.val - 1)).mapIdx fun i kline =>
        kline.observation pair timeframe (now i) := by
    refine List.filter_eq_self.mpr fun item hitem => ?_
    obtain ⟨i, hi, rfl⟩ := List.mem_mapIdx.mp hitem
    have hwithin := (List.mem_filter.mp (List.getElem_mem hi)).2
    simp only [Bool.and_eq_true, decide_eq_true_eq, Kline.timestamp_observation] at hwithin ⊢
    exact ⟨decide_eq_true hwithin.1, decide_eq_true (by omega)⟩
  rw [fetchHistorical, hpages]
  simp only [List.nil_append, List.length_nil, Nat.zero_add, Option.map_some, ok_map, hkept]

/-- A kline of one price that opens at the start of a minute. -/
def minuteKline (minute : Fin 3000) : Kline fun _ => .nan where
  row := .number (.finite (.ofInt (minute.val * 60000) (by rw [abs_lt]; omega))) ::
    List.replicate 6 (.number (.finite (.ofInt 1 abs_one_lt)))
  start := .ofInt (minute.val * 60000) (by rw [abs_lt]; omega)
  openPrice := .ofInt 1 abs_one_lt
  high := .ofInt 1 abs_one_lt
  low := .ofInt 1 abs_one_lt
  close := .ofInt 1 abs_one_lt
  volume := .ofInt 1 abs_one_lt
  finish := .ofInt 1 abs_one_lt
  numbers := rfl
  integer := Rat.den_intCast _

theorem openTime_minuteKline (minute : Fin 3000) :
    (minuteKline minute).openTime = minute.val * 60000 :=
  Rat.num_intCast _

/-- A server of the klines of some minutes, for any symbol and interval. -/
def minuteServer (minutes : List (Fin 3000)) (request : KlinesRequest) : KlinesResponse :=
  .answered (some (((Kline.within (minutes.map minuteKline) request.startTime
    request.endTime).take request.limit).map fun kline => some kline.row))

theorem minuteServer_serves {minutes : List (Fin 3000)} (h : minutes.Pairwise (· < ·)) :
    Serves (minuteServer minutes) (minutes.map minuteKline) "BTCUSDT" .m1 where
  ascending := by
    refine List.pairwise_map.mpr (h.imp fun {left right} hlt => ?_)
    rw [openTime_minuteKline, openTime_minuteKline]
    have hval : left.val < right.val := hlt
    omega
  aligned := by
    intro kline hkline
    obtain ⟨minute, -, rfl⟩ := List.mem_map.mp hkline
    rw [openTime_minuteKline]
    exact Int.mul_emod_left _ _
  answers _ _ := rfl

/-- The minutes after the epoch, but for every seventh. -/
def tradedMinutes : List (Fin 3000) :=
  (List.finRange 3000).filter fun minute => minute.val % 7 != 0

theorem tradedMinutes_ascending : tradedMinutes.Pairwise (· < ·) :=
  (List.pairwise_lt_finRange 3000).filter _

theorem openTime_pos_of_traded {minute : Fin 3000} (h : minute ∈ tradedMinutes) :
    0 < (minuteKline minute).openTime := by
  have hgap : minute.val % 7 ≠ 0 := by simpa using (List.mem_filter.mp h).2
  rw [openTime_minuteKline]
  omega

theorem within_tradedMinutes :
    Kline.within (tradedMinutes.map minuteKline) 0 179999999 = tradedMinutes.map minuteKline := by
  refine List.filter_eq_self.mpr fun kline hkline => ?_
  obtain ⟨minute, hminute, rfl⟩ := List.mem_map.mp hkline
  have hpos := openTime_pos_of_traded hminute
  rw [openTime_minuteKline] at hpos ⊢
  have hsmall := minute.isLt
  simp only [Bool.and_eq_true, decide_eq_true_eq]
  omega

/-- The klines of three pages, with gaps in each, are all there in their order. -/
theorem historical_klines_complete_gaps :
    tradedMinutes.length = 2571 ∧ ∃ enough, ∀ turns, enough ≤ turns →
      fetchHistorical (fun _ => .nan) (minuteServer tradedMinutes) (fun i => 180000000 + i) "BTCUSDT"
          .m1 ⟨0, by decide⟩ ⟨180000000, by decide⟩ turns =
        some (.ok ((tradedMinutes.map minuteKline).mapIdx fun i kline =>
          kline.observation "BTCUSDT" .m1 (180000000 + i))) := by
  refine ⟨by decide +kernel, ?_⟩
  have hcomplete := historical_klines_complete (fun _ => .nan) _ (fun i => 180000000 + (i : Int))
    (minuteServer_serves tradedMinutes_ascending) ⟨0, by decide⟩ ⟨180000000, by decide⟩ (by
      intro kline hkline
      obtain ⟨minute, hminute, rfl⟩ := List.mem_map.mp (List.mem_of_mem_filter hkline)
      exact openTime_pos_of_traded hminute)
  rw [← within_tradedMinutes]
  exact hcomplete

/-- A kline that opens at the epoch is refused as malformed. -/
theorem epoch_kline_refused :
    ¬ ∀ (toNumber : String → JsDouble) (fetchFn : KlinesRequest → KlinesResponse) (now : Nat → Int)
        (klines : List (Kline toNumber)) (pair : String) (timeframe : Timeframe),
      Serves fetchFn klines pair timeframe → ∀ fromTime toTime : TimeValue,
        ∃ enough, ∀ turns, enough ≤ turns →
          fetchHistorical toNumber fetchFn now pair timeframe fromTime toTime turns =
            some (.ok ((Kline.within klines fromTime.val (toTime.val - 1)).mapIdx fun i kline =>
              kline.observation pair timeframe (now i))) := by
  intro h
  obtain ⟨enough, hfetched⟩ := h (fun _ => .nan) (minuteServer [0]) (fun _ => 600000) _ "BTCUSDT"
    .m1 (minuteServer_serves (by decide)) ⟨0, by decide⟩ ⟨60000, by decide⟩
  have hpage : fetchPage (fun _ => .nan) (minuteServer [0]) (fun _ => 600000) "BTCUSDT" .m1 0 60000
      0 = .error malformedPayload := by
    decide
  have hresult := hfetched (enough + 1) (Nat.le_succ _)
  rw [fetchHistorical, fetchPages, if_pos (by decide)] at hresult
  simp only [List.length_nil, hpage] at hresult
  cases hresult

end Pages

end Cryptox.MarketData
