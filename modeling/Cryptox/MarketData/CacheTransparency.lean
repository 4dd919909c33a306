import Cryptox.MarketData.Calls

/-!
# Reads through the cache

A window that a refresh has stored holds the latest closed candles of the repository. A read that
takes it instead of the rows sees the same candles of its range, and where it sees no gap there is
nothing to ask the provider for.
-/
namespace Cryptox.MarketData

open Cryptox.Backtesting (Timeframe)
open Cryptox.Library

section Window

variable {rows : CandleRows} {pair : Pair} {timeframe : Timeframe}

theorem closedIn_some (range : Range) (candles : List Candle) :
    ReadRequest.closedIn (some range) candles = (closedOf candles).filter fun candle =>
      range.fromTime ≤ candle.timestamp && candle.timestamp < range.toTime := by
  rw [closedOf, List.filter_filter]
  exact List.filter_congr fun candle _ => Bool.and_comm _ _

theorem nodup_readRows : (readRows rows pair timeframe).Nodup := by
  have hrows : rows.rows.Nodup := List.Nodup.of_map _ rows.nodup
  exact (List.perm_insertionSort _ _).nodup_iff.mpr (hrows.filter _)

theorem pairwise_readRows : (readRows rows pair timeframe).Pairwise Candle.Earlier :=
  List.pairwise_insertionSort _ _

/-- The closed rows are in the order of their timestamps already. -/
theorem closedOf_window (written : Int) :
    closedOf (refreshedWindow (readRows rows pair timeframe) timeframe written).candles =
      sliceLast latestCandleCacheWindow (closedOf (readRows rows pair timeframe)) := by
  have hsorted : (closedOf (readRows rows pair timeframe)).Pairwise Candle.Earlier :=
    pairwise_readRows.sublist List.filter_sublist
  rw [closedOf_refreshedWindow, sortCandles, hsorted.insertionSort_eq]

/-- What a window does not hold of the closed rows lies before its first closed candle. -/
theorem closedIn_window {range : Range} {written : Int} {first : Candle}
    (hfirst : (closedOf (refreshedWindow (readRows rows pair timeframe) timeframe
      written).candles).head? = some first)
    (hfrom : first.timestamp ≤ range.fromTime) :
    ReadRequest.closedIn (some range)
        (refreshedWindow (readRows rows pair timeframe) timeframe written).candles =
      ReadRequest.closedIn (some range) (readRows rows pair timeframe) := by
  rw [closedOf_window, sliceLast] at hfirst
  rw [closedIn_some, closedIn_some, closedOf_window, sliceLast]
  generalize hcount : (closedOf (readRows rows pair timeframe)).length -
    latestCandleCacheWindow = count at hfirst ⊢
  have hsplit := List.take_append_drop count (closedOf (readRows rows pair timeframe))
  have hsorted : (closedOf (readRows rows pair timeframe)).Pairwise Candle.Earlier :=
    pairwise_readRows.sublist List.filter_sublist
  have hnodup : (closedOf (readRows rows pair timeframe)).Nodup := nodup_readRows.filter _
  have hmem : first ∈ (closedOf (readRows rows pair timeframe)).drop count :=
    List.mem_of_head? hfirst
  have hearlier : ∀ candle ∈ (closedOf (readRows rows pair timeframe)).take count,
      candle.timestamp < first.timestamp := by
    intro candle hcandle
    rw [← hsplit] at hsorted hnodup
    have hle : candle.timestamp ≤ first.timestamp :=
      (List.pairwise_append.mp hsorted).2.2 candle hcandle first hmem
    refine lt_of_le_of_ne hle fun heq => ?_
    have hrow := (List.mem_filter.mp (List.mem_of_mem_take hcandle)).1
    have hrowFirst := (List.mem_filter.mp (List.mem_of_mem_drop hmem)).1
    exact (List.nodup_append.mp hnodup).2.2 candle hcandle first hmem
      (eq_of_timestamp hrow hrowFirst heq)
  have hnone : ((closedOf (readRows rows pair timeframe)).take count).filter (fun candle =>
      range.fromTime ≤ candle.timestamp && candle.timestamp < range.toTime) = [] := by
    refine List.filter_eq_nil_iff.mpr fun candle hcandle hin => ?_
    have hbefore := hearlier candle hcandle
    simp only [Bool.and_eq_true, decide_eq_true_eq] at hin
    omega
  conv_rhs => rw [← hsplit, List.filter_append, hnone, List.nil_append]

/-- What is known of a window that a read has taken. -/
theorem of_readCachedCandleWindow {cached : Option CachedCandleWindow} {requested : Option Range}
    {includeForming : Bool} {now : Int} {candles : List Candle}
    (h : readCachedCandleWindow cached pair timeframe requested includeForming now =
      some candles) :
    ∃ range window first, requested = some range ∧ cached = some window ∧
      candles = window.candles ∧ (closedOf window.candles).head? = some first ∧
      first.timestamp ≤ range.fromTime ∧
      missingRanges (ReadRequest.closedIn (some range) window.candles) range timeframe = [] := by
  cases requested with
  | none => cases h
  | some range =>
    cases cached with
    | none => cases h
    | some window =>
      simp only [readCachedCandleWindow, Option.bind_eq_bind, Option.bind_some,
        Option.bind_eq_some_iff, Option.guard_eq_some', exists_const] at h
      obtain ⟨-, -, -, -, first, hfirst, ⟨hfrom, -, hmissing⟩, -, hcandles⟩ := h
      refine ⟨range, window, first, rfl, rfl, (Option.some.inj hcandles).symm, hfirst, hfrom, ?_⟩
      have hsame : ReadRequest.closedIn (some range) window.candles =
          window.candles.filter fun candle => candle.isClosed &&
            range.fromTime ≤ candle.timestamp && candle.timestamp < range.toTime :=
        List.filter_congr fun candle _ => (Bool.and_assoc _ _ _).symm
      rw [hsame]
      exact hmissing

/-- A page of closed candles is made of the closed rows of its range. -/
theorem page_congr {request : ReadRequest} {range : Range} {candles candles' : List Candle}
    (hclosed : request.includeForming = false)
    (h : ReadRequest.closedIn (some range) candles =
      ReadRequest.closedIn (some range) candles') :
    request.page (some range) candles none = request.page (some range) candles' none := by
  have hforming : ∀ rows, request.formingIn (some range) rows = [] := by
    intro rows
    rw [ReadRequest.formingIn, hclosed]
    rfl
  simp only [ReadRequest.page, h, hforming]

end Window

/-! A read that no other call overlaps, its synchronisation included. -/
section Alone

variable (parse : String → Option TimeValue)
  (fetchHistorical : Range → Except String (List Observation))

def Failure.cause : Failure → String
  | .exception error => error.message
  | .rejected cause => cause

/-- One `persist` from its start to its end. -/
def persistAlone (store : Store) (environment : Environment) (observation : Observation) :
    Store × Phase :=
  (fun call : Store × Phase => advance parse call.1 environment call.2)^[6]
    (store, .resolving observation)

def persistEach (store : Store) (environment : Environment) :
    List Observation → Store × Option String
  | [] => (store, none)
  | observation :: rest =>
    match persistAlone parse store environment observation with
    | (store', .persisted (.error failure)) => (store', some failure.cause)
    | (store', _) => persistEach store' environment rest

def fetchEach (store : Store) (environment : Environment) : List Range → Store × Option String
  | [] => (store, none)
  | range :: rest =>
    match fetchHistorical range with
    | .error cause => (store, some cause)
    | .ok observations =>
      match persistEach parse store environment observations with
      | (store', some cause) => (store', some cause)
      | (store', none) => fetchEach store' environment rest

/-- What the synchronisation leaves, and why it failed if it did. -/
def syncMissing (store : Store) (environment : Environment) (pair : Pair) (timeframe : Timeframe)
    (requested : Range) : Store × Option String :=
  let rows := readRows store.rows pair timeframe
  fetchEach parse fetchHistorical store environment
    (missingRanges
      (rows.filter fun candle =>
        requested.fromTime ≤ candle.timestamp && candle.timestamp < requested.toTime)
      requested timeframe)

def readStep (call : Store × Phase) (environment : Environment) : Store × Phase :=
  match call.2 with
  | .syncing request requested rows =>
    let synced := syncMissing parse fetchHistorical call.1 environment request.pair
      request.timeframe requested
    advance parse synced.1 { environment with failure := synced.2 }
      (.syncing request requested rows)
  | phase => advance parse call.1 environment phase

/-- How a read ends that begins on its own with the clock's later readings to come. -/
def readCandlesAlone (provider : Option Provider) (clock : Nat → Int) (store : Store)
    (request : ReadRequest) : Phase :=
  (((List.range 7).map fun turn => ⟨clock turn, provider, none⟩).foldl
    (readStep parse fetchHistorical) (store, .providing request)).2

variable {parse fetchHistorical} {store : Store} {environment : Environment}
  {request : ReadRequest} {provider : Option Provider} {clock : Nat → Int}

/-- Nothing is asked of the provider where nothing is missing. -/
theorem syncMissing_of_complete {pair : Pair} {timeframe : Timeframe} {requested : Range}
    (h : missingRanges
      (ReadRequest.closedIn (some requested) (readRows store.rows pair timeframe))
      requested timeframe = []) :
    syncMissing parse fetchHistorical store environment pair timeframe requested =
      (store, none) := by
  have hnone : missingRanges
      ((readRows store.rows pair timeframe).filter fun candle =>
        requested.fromTime ≤ candle.timestamp && candle.timestamp < requested.toTime)
      requested timeframe = [] := by
    rw [missingRanges_eq_nil] at h ⊢
    intro point hpoint
    obtain ⟨candle, hcandle, hstate⟩ := h point hpoint
    rw [closedIn_some] at hcandle
    obtain ⟨hmem, hin⟩ := List.mem_filter.mp hcandle
    exact ⟨candle, List.mem_filter.mpr ⟨(List.mem_filter.mp hmem).1, hin⟩, hstate⟩
  simp only [syncMissing, hnone, fetchEach]

theorem readStep_answered (result : Except Failure HistoricalCandlePage)
    (environments : List Environment) :
    environments.foldl (readStep parse fetchHistorical) (store, .answered result) =
      (store, .answered result) := by
  induction environments with
  | nil => rfl
  | cons environment environments ih => exact ih

/-- A window that is accepted answers in place of the rows. -/
theorem readStep_caching_of_some {provided : Bool} {candles : List Candle}
    (h : readCachedCandleWindow (store.cache request.pair request.timeframe) request.pair
      request.timeframe (request.requestedRange provided) request.includeForming request.now =
        some candles) (now : Int) :
    readStep parse fetchHistorical (store, .caching request provided) ⟨now, provider, none⟩ =
      (store, .answered ((request.page (request.requestedRange provided) candles none).mapError
        .exception)) := by
  simp only [readStep, advance, h]

theorem readStep_caching_of_none {provided : Bool}
    (h : store.cache request.pair request.timeframe = none) (now : Int) :
    readStep parse fetchHistorical (store, .caching request provided) ⟨now, provider, none⟩ =
      (store, .listing request provided) := by
  have hnone : readCachedCandleWindow none request.pair request.timeframe
      (request.requestedRange provided) request.includeForming request.now = none := by
    cases request.requestedRange provided <;> rfl
  simp only [readStep, advance, h, hnone]

variable (parse fetchHistorical) in
/-- The rows that a read has listed are answered after the refresh, or the two before it. -/
theorem readStep_listing {provided : Bool} {range : Range} (clock : Nat → Int)
    (hrange : request.requestedRange provided = some range) (hprovided : provided = provider.isSome)
    (hcomplete : missingRanges (ReadRequest.closedIn (some range)
      (readRows store.rows request.pair request.timeframe)) range request.timeframe = []) :
    (((List.range 5).map fun turn => (⟨clock turn, provider, none⟩ : Environment)).foldl
        (readStep parse fetchHistorical) (store, .listing request provided)).2 =
      .answered ((request.page (some range)
        (readRows store.rows request.pair request.timeframe) none).mapError .exception) := by
  have hsynced : ∀ environment, syncMissing parse fetchHistorical store environment request.pair
      request.timeframe range = (store, none) := fun _ => syncMissing_of_complete hcomplete
  rw [show (List.range 5).map (fun turn => (⟨clock turn, provider, none⟩ : Environment)) =
    [⟨clock 0, provider, none⟩, ⟨clock 1, provider, none⟩, ⟨clock 2, provider, none⟩,
      ⟨clock 3, provider, none⟩, ⟨clock 4, provider, none⟩] from rfl]
  cases provided with
  | true =>
    simp only [List.foldl_cons, List.foldl_nil, readStep, advance, hrange, hsynced, if_true]
    rfl
  | false =>
    simp only [List.foldl_cons, List.foldl_nil, readStep, advance, hrange, Bool.false_eq_true,
      if_false]
    rfl

/-- A read of closed candles has the same answer whether it takes the window that a refresh of
the rows has stored or the rows. -/
theorem cache_transparent (parse : String → Option TimeValue)
    (fetchHistorical : Range → Except String (List Observation)) (provider : Option Provider)
    (clock clock' : Nat → Int) {store uncached : Store} {request : ReadRequest} {written : Int}
    (hclosed : request.includeForming = false)
    (hcached : store.cache request.pair request.timeframe =
      some (refreshedWindow (readRows store.rows request.pair request.timeframe)
        request.timeframe written))
    (haccepted : (readCachedCandleWindow (store.cache request.pair request.timeframe) request.pair
      request.timeframe (request.requestedRange provider.isSome) request.includeForming
      request.now).isSome = true)
    (hrows : uncached.rows = store.rows)
    (hnone : uncached.cache request.pair request.timeframe = none) :
    ∃ result,
      readCandlesAlone parse fetchHistorical provider clock store request = .answered result ∧
      readCandlesAlone parse fetchHistorical provider clock' uncached request =
        .answered result := by
  obtain ⟨candles, hcandles⟩ := Option.isSome_iff_exists.mp haccepted
  obtain ⟨range, window, first, hrange, hwindow, rfl, hfirst, hfrom, hmissing⟩ :=
    of_readCachedCandleWindow hcandles
  rw [hcached] at hwindow
  obtain rfl := Option.some.inj hwindow
  have hsame := closedIn_window hfirst hfrom
  rw [hsame] at hmissing
  have hturns : ∀ clock : Nat → Int,
      (List.range 7).map (fun turn => (⟨clock turn, provider, none⟩ : Environment)) =
        ⟨clock 0, provider, none⟩ :: ⟨clock 1, provider, none⟩ ::
          (List.range 5).map fun turn => ⟨clock (turn + 2), provider, none⟩ := fun _ => rfl
  rw [readCandlesAlone, readCandlesAlone, hturns, hturns]
  cases hprovider : validateProvider provider request.pair request.timeframe with
  | error error =>
    have hrefused : ∀ (store : Store) now, readStep parse fetchHistorical
        (store, .providing request) ⟨now, provider, none⟩ =
          (store, .answered (.error (.exception error))) := by
      intro store now
      simp only [readStep, advance, hprovider]
    refine ⟨.error (.exception error), ?_, ?_⟩
    · rw [List.foldl_cons, hrefused, readStep_answered]
    · rw [List.foldl_cons, hrefused, readStep_answered]
  | ok _ =>
    have haccess : ∀ (store : Store) now, readStep parse fetchHistorical
        (store, .providing request) ⟨now, provider, none⟩ =
          (store, .caching request provider.isSome) := by
      intro store now
      simp only [readStep, advance, hprovider]
    have hlisted := readStep_listing parse fetchHistorical (fun turn => clock' (turn + 2)) hrange
      rfl (hrows ▸ hmissing)
    refine ⟨_, ?_, Eq.trans ?_ hlisted⟩
    · rw [List.foldl_cons, haccess, List.foldl_cons, readStep_caching_of_some hcandles,
        readStep_answered, hrange, page_congr hclosed hsame, hrows]
    · rw [List.foldl_cons, haccess, List.foldl_cons, readStep_caching_of_none hnone]

/-- One of the first two minutes, closed. -/
def earlyMinute (minute : Fin 2) : Candle where
  pair := btcUsdt
  timeframe := .m1
  timestamp := minute.val * 60000
  onGrid := ⟨Int.mul_emod_left _ _, by simp only [maxTimeValue]; omega⟩
  values := unitValues
  isClosed := true
  source := none

def earlyRows : CandleRows := ⟨[earlyMinute 0, earlyMinute 1], by decide⟩

def latestTwo : ReadRequest where
  pair := btcUsdt
  timeframe := .m1
  now := 120000
  range := none
  limit := 2
  offset := none
  includeForming := false
  requireComplete := true

theorem cache_transparent_latest_two :
    ∃ result,
      readCandlesAlone exampleParse (fun _ => .error "offline")
        (some ⟨"BINANCE", ["BTCUSDT"], [.m1]⟩) (fun _ => 120000)
        ⟨earlyRows, fun _ _ => some
          (refreshedWindow (readRows earlyRows latestTwo.pair .m1) .m1 120000)⟩
        latestTwo = .answered result ∧
      readCandlesAlone exampleParse (fun _ => .error "offline")
        (some ⟨"BINANCE", ["BTCUSDT"], [.m1]⟩) (fun _ => 120000) ⟨earlyRows, fun _ _ => none⟩
        latestTwo = .answered result :=
  cache_transparent exampleParse _ _ _ _ rfl rfl (by decide) rfl rfl

end Alone

end Cryptox.MarketData
