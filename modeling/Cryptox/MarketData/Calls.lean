import Cryptox.Library.GuardedSystem
import Cryptox.MarketData.Candles

/-!
# Calls of `persist` and `readCandles` that overlap

Each call goes from one await to the next, and any number of calls take these steps in any order.
What an awaited read or write does to the repository or the cache happens in one step, together
with what the call decides from it. The synchronisation of a `readCandles` persists what the
provider reports by calls of `persist`, which are calls of the run; it ends when its environment
says so. A cursor is kept as the offset it carries, and a rejected write has written nothing.
-/
namespace Cryptox.MarketData

open Cryptox.Backtesting (Timeframe)
open Cryptox.Library

inductive ObservationSource where
  | realtimeStream | historicalSync
deriving DecidableEq, Repr

def ObservationSource.text : ObservationSource → String
  | realtimeStream => "REALTIME_STREAM"
  | historicalSync => "HISTORICAL_SYNC"

structure Observation where
  candle : RawCandle
  source : ObservationSource
deriving DecidableEq

def Observation.historical (observation : Observation) : Bool :=
  observation.source == .historicalSync

structure Provider where
  id : String
  pairs : List String
  timeframes : List Timeframe

structure HistoricalCandleQuery where
  pair : String
  timeframe : String
  range : Option RawRange
  limit : Option JsDouble
  offset : Option Nat
  includeForming : Bool
  requireComplete : Bool

structure HistoricalCandlePage where
  pair : Pair
  timeframe : Timeframe
  range : Range
  candles : List Candle
  complete : Bool
  missingRanges : List Range
  formingIncluded : Bool
  asOf : Int
  nextOffset : Option Nat

inductive Failure where
  | exception (error : MarketDataException)
  | rejected (cause : String)

section Queries

def maxPageLimit : Nat := 10000

def defaultPageLimit : Nat := 1000

def limitError : MarketDataException :=
  { code := .rangeTooLarge, message := "Limit must be a positive integer no greater than 10000." }

def validateLimit : Option JsDouble → Except MarketDataException Nat
  | none => .ok defaultPageLimit
  | some (.finite limit) =>
    if limit.toRat.den = 1 ∧ 0 < limit.toRat ∧ limit.toRat ≤ maxPageLimit then
      .ok limit.toRat.num.toNat
    else .error limitError
  | some _ => .error limitError

/-- A query that has passed its checks. -/
structure ReadRequest where
  pair : Pair
  timeframe : Timeframe
  now : Int
  range : Option (ValidRange timeframe)
  limit : Nat
  offset : Option Nat
  includeForming : Bool
  requireComplete : Bool

def readRequest (parse : String → Option TimeValue) (query : HistoricalCandleQuery) (now : Int) :
    Except MarketDataException ReadRequest := do
  let pair ← validatePair query.pair
  let timeframe ← validateTimeframe query.timeframe
  let range ← query.range.mapM fun range => validateRange parse range timeframe now
  let limit ← validateLimit query.limit
  return { pair, timeframe, now, range, limit, offset := query.offset,
           includeForming := query.includeForming, requireComplete := query.requireComplete }

def validateProvider (provider : Option Provider) (pair : Pair) (timeframe : Timeframe) :
    Except MarketDataException Unit :=
  match provider with
  | none => .ok ()
  | some provider => do
    throwIf (!provider.pairs.contains pair.text)
      { code := .unsupportedPair
        message := "Pair is not supported by the selected provider." }
    throwIf (!provider.timeframes.contains timeframe)
      { code := .unsupportedTimeframe
        message := "Timeframe is not supported by the selected provider." }

def latestClosedRange (now : Int) (timeframe : Timeframe) (limit : Nat) : Range :=
  let stop := now / timeframe.ms * timeframe.ms
  ⟨stop - limit * timeframe.ms, stop⟩

namespace ReadRequest

variable (request : ReadRequest)

def requestedRange (provided : Bool) : Option Range :=
  match request.range with
  | some range => some range.toRange
  | none =>
    if provided then some (latestClosedRange request.now request.timeframe request.limit) else none

def closedIn (requested : Option Range) (rows : List Candle) : List Candle :=
  rows.filter fun candle => candle.isClosed &&
    match requested with
    | none => true
    | some range => range.fromTime ≤ candle.timestamp && candle.timestamp < range.toTime

/-- A query without a range takes a forming candle at the end of the latest closed one. -/
def formingIn (requested : Option Range) (rows : List Candle) : List Candle :=
  if request.includeForming then
    rows.filter fun candle => !candle.isClosed &&
      match requested with
      | none => true
      | some range => range.fromTime ≤ candle.timestamp &&
        (if request.range.isSome then candle.timestamp < range.toTime
         else candle.timestamp ≤ range.toTime)
  else []

def rangeOf (candles : List Candle) (otherwise : Range) : Range :=
  match candles.head?, candles.getLast? with
  | some first, some last => ⟨first.timestamp, last.timestamp + request.timeframe.ms⟩
  | _, _ => otherwise

/-- What `readCandles` returns for the rows it has read. -/
def page (requested : Option Range) (rows : List Candle) (providerFailure : Option String) :
    Except MarketDataException HistoricalCandlePage := do
  let closed := closedIn requested rows
  let page := sortCandles (closed ++ request.formingIn requested rows)
  let effectiveRange := requested.getD (request.rangeOf page ⟨request.now, request.now⟩)
  let gaps := missingRanges closed effectiveRange request.timeframe
  throwIf (request.requireComplete && gaps ≠ [])
    { code := .historyIncomplete
      message := "Historical data contains missing candles."
      retryable := true
      details := some (.missingRanges gaps) }
  throwIf (request.range.isNone && page.isEmpty)
    { code := if providerFailure.isSome then .historyUnavailable else .noData
      message := if providerFailure.isSome then "Historical market data is unavailable."
        else "No historical candles are available."
      retryable := providerFailure.isSome
      details := providerFailure.map .cause }
  let offset := request.offset.getD
    (if request.range.isSome then 0 else page.length - request.limit)
  let selected := (page.drop offset).take request.limit
  return {
    pair := request.pair
    timeframe := request.timeframe
    range := match request.range with
      | some range => range.toRange
      | none => request.rangeOf selected effectiveRange
    candles := selected
    complete := gaps.isEmpty
    missingRanges := gaps
    formingIncluded := selected.any fun candle => !candle.isClosed
    asOf := request.now
    nextOffset :=
      if offset + request.limit < page.length then some (offset + request.limit) else none }

end ReadRequest

end Queries

/-- What a refresh of the cache is followed by. -/
inductive AfterRefresh where
  | persist (candle : Candle)
  | read (request : ReadRequest) (requested : Option Range) (rows : List Candle)
    (providerFailure : Option String)

inductive Phase where
  | resolving (observation : Observation)
  | reading (candle : Candle) (historical : Bool)
  | invalidating (candle : Candle)
  | writing (candle : Candle) (historical : Bool)
  | providing (request : ReadRequest)
  | caching (request : ReadRequest) (provided : Bool)
  | listing (request : ReadRequest) (provided : Bool)
  | syncing (request : ReadRequest) (requested : Range) (rows : List Candle)
  | relisting (request : ReadRequest) (requested : Range) (rows : List Candle)
  | refreshing (after : AfterRefresh)
  | storing (window : CachedCandleWindow) (after : AfterRefresh)
  | persisted (result : Except Failure (Option Candle))
  | answered (result : Except Failure HistoricalCandlePage)

namespace AfterRefresh

def pair : AfterRefresh → Pair
  | persist candle => candle.pair
  | read request .. => request.pair

def timeframe : AfterRefresh → Timeframe
  | persist candle => candle.timeframe
  | read request .. => request.timeframe

def finish : AfterRefresh → Phase
  | persist candle => .persisted (.ok (some candle))
  | read request requested rows providerFailure =>
    .answered ((request.page requested rows providerFailure).mapError .exception)

end AfterRefresh

def Phase.isFinished : Phase → Bool
  | persisted _ | answered _ => true
  | _ => false

/-- What the calls share. -/
structure Store where
  rows : CandleRows
  cache : Pair → Timeframe → Option CachedCandleWindow

def Store.setCache (store : Store) (pair : Pair) (timeframe : Timeframe)
    (window : Option CachedCandleWindow) : Store :=
  { store with
    cache := fun p t => if p = pair ∧ t = timeframe then window else store.cache p t }

/-- What a step is told by what it awaits: the clock, the provider, and why the await was rejected
if it was. -/
structure Environment where
  now : Int
  provider : Option Provider
  failure : Option String

section Steps

variable (parse : String → Option TimeValue)

def observed (observation : Observation) (environment : Environment) :
    Except MarketDataException Candle :=
  let provider := (environment.provider.map (·.id)).getD "UNKNOWN"
  validateCandle parse
    { observation.candle with source := some (provider ++ ":" ++ observation.source.text) }
    environment.now false

/-- What `persist` decides from the row it has read. -/
def decidePersist (existing : Option Candle) (candle : Candle) (historical : Bool) : Phase :=
  match existing with
  | none => .writing candle historical
  | some existing =>
    if existing.isClosed && !candle.isClosed then .persisted (.ok none)
    else if sameCandle existing candle then .persisted (.ok none)
    else if existing.isClosed && !historical then .persisted (.ok none)
    else if existing.isClosed && historical then .invalidating candle
    else .writing candle historical

/-- A read whose synchronisation has failed goes on with the rows it has unless it must be
complete. -/
def syncFailed (request : ReadRequest) (requested : Range) (rows : List Candle) (cause : String) :
    Phase :=
  if request.requireComplete then
    .answered (.error (.exception
      { code := .historyUnavailable
        message := "Historical market data is unavailable."
        retryable := true
        details := some (.cause cause) }))
  else .refreshing (.read request (some requested) rows (some cause))

/-- A call takes its next step. -/
def advance (store : Store) (environment : Environment) : Phase → Store × Phase
  | .resolving observation =>
    match environment.failure with
    | some cause => (store, .persisted (.error (.rejected cause)))
    | none =>
      match observed parse observation environment with
      | .error error => (store, .persisted (.error (.exception error)))
      | .ok candle => (store, .reading candle observation.historical)
  | .reading candle historical =>
    match environment.failure with
    | some cause => (store, .persisted (.error (.rejected cause)))
    | none =>
      let existing := (readRows store.rows candle.pair candle.timeframe).find?
        fun item => item.timestamp = candle.timestamp
      (store, decidePersist existing candle historical)
  | .invalidating candle =>
    match environment.failure with
    | some _ => (store, .writing candle true)
    | none => (store.setCache candle.pair candle.timeframe none, .writing candle true)
  | .writing candle _ =>
    match environment.failure with
    | some cause => (store, .persisted (.error (.rejected cause)))
    | none =>
      ({ store with rows := upsert store.rows candle }, .refreshing (.persist candle))
  | .providing request =>
    match environment.failure with
    | some cause => (store, .answered (.error (.rejected cause)))
    | none =>
      match validateProvider environment.provider request.pair request.timeframe with
      | .error error => (store, .answered (.error (.exception error)))
      | .ok () => (store, .caching request environment.provider.isSome)
  | .caching request provided =>
    let requested := request.requestedRange provided
    let cached :=
      match environment.failure with
      | some _ => none
      | none => store.cache request.pair request.timeframe
    match readCachedCandleWindow cached request.pair request.timeframe requested
        request.includeForming request.now with
    | some rows => (store, .answered ((request.page requested rows none).mapError .exception))
    | none => (store, .listing request provided)
  | .listing request provided =>
    match environment.failure with
    | some cause => (store, .answered (.error (.rejected cause)))
    | none =>
      let rows := readRows store.rows request.pair request.timeframe
      match request.requestedRange provided with
      | none => (store, .answered ((request.page none rows none).mapError .exception))
      | some requested =>
        if provided then (store, .syncing request requested rows)
        else (store, .refreshing (.read request (some requested) rows none))
  | .syncing request requested rows =>
    match environment.failure with
    | some cause => (store, syncFailed request requested rows cause)
    | none => (store, .relisting request requested rows)
  | .relisting request requested rows =>
    match environment.failure with
    | some cause => (store, syncFailed request requested rows cause)
    | none =>
      let rows := readRows store.rows request.pair request.timeframe
      (store, .refreshing (.read request (some requested) rows none))
  | .refreshing after =>
    match environment.failure with
    | some _ => (store, after.finish)
    | none =>
      let rows := readRows store.rows after.pair after.timeframe
      (store, .storing (refreshedWindow rows after.timeframe environment.now) after)
  | .storing window after =>
    match environment.failure with
    | some _ => (store, after.finish)
    | none => (store.setCache after.pair after.timeframe (some window), after.finish)
  | .persisted result => (store, .persisted result)
  | .answered result => (store, .answered result)

structure World where
  store : Store
  calls : List Phase

def World.start (rows : CandleRows) : World := ⟨⟨rows, fun _ _ => none⟩, []⟩

inductive Move where
  | persist (observation : Observation)
  | readCandles (query : HistoricalCandleQuery) (now : Int)
  | proceed (call : Nat) (environment : Environment)
  | expire (pair : Pair) (timeframe : Timeframe)

namespace World

/-- A call that has a step left to take. -/
def pending (world : World) (call : Nat) : Option Phase :=
  world.calls[call]?.filter fun phase => !phase.isFinished

def Enabled (world : World) : Move → Prop
  | .proceed call _ => (world.pending call).isSome = true
  | _ => True

def next (world : World) : Move → World
  | .persist observation => { world with calls := world.calls ++ [.resolving observation] }
  | .readCandles query now =>
    match readRequest parse query now with
    | .error error =>
      { world with calls := world.calls ++ [.answered (.error (.exception error))] }
    | .ok request => { world with calls := world.calls ++ [.providing request] }
  | .proceed call environment =>
    match world.pending call with
    | none => world
    | some phase =>
      let advanced := advance parse world.store environment phase
      ⟨advanced.1, world.calls.set call advanced.2⟩
  | .expire pair timeframe =>
    { world with store := world.store.setCache pair timeframe none }

end World

/-- The market-data service whose calls overlap. -/
def calls : GuardedSystem World Move := ⟨World.Enabled, World.next parse⟩

instance decidableEnabled (world : World) :
    ∀ move, Decidable ((calls parse).enabled world move)
  | .proceed call _ => inferInstanceAs (Decidable ((world.pending call).isSome = true))
  | .persist _ => isTrue trivial
  | .readCandles .. => isTrue trivial
  | .expire .. => isTrue trivial

/-- The candle a step of a call writes, and whether it was observed historically. -/
def Phase.written (environment : Environment) : Phase → Option (Candle × Bool)
  | writing candle historical =>
    if environment.failure.isNone then some (candle, historical) else none
  | _ => none

variable {parse} {store : Store} {environment : Environment} {phase : Phase}

/-- Only the write of a `persist` changes the repository. -/
theorem rows_advance :
    (advance parse store environment phase).1.rows =
      match phase.written environment with
      | some (candle, _) => upsert store.rows candle
      | none => store.rows := by
  cases phase with
  | writing candle historical =>
    cases h : environment.failure <;> simp [advance, Phase.written, h]
  | _ =>
    simp only [advance, Phase.written]
    repeat' split
    all_goals rfl

end Steps

/-! Two minutes of a market whose close is one or two. -/
section Example

def exampleMinute : Nat → String
  | 0 => "2024-01-01T00:00:00.000Z"
  | _ => "2024-01-01T00:01:00.000Z"

def exampleParse (text : String) : Option TimeValue :=
  if text = exampleMinute 0 then some ⟨1704067200000, by decide⟩
  else if text = exampleMinute 1 then some ⟨1704067260000, by decide⟩
  else none

def examplePrice : Nat → Binary64
  | 0 => .ofInt 1 abs_one_lt
  | _ => .ofInt 2 abs_two_lt

def exampleObservation (minute close : Nat) : Observation where
  candle :=
    { pair := "BTCUSDT"
      timeframe := "1m"
      timestamp := exampleMinute minute
      openPrice := .finite (examplePrice 0)
      high := .finite (examplePrice 1)
      low := .finite (examplePrice 0)
      close := .finite (examplePrice close)
      volume := .finite (examplePrice 0)
      isClosed := true
      source := none }
  source := .realtimeStream

def exampleEnvironment : Environment := ⟨1704067320000, none, none⟩

end Example

end Cryptox.MarketData
