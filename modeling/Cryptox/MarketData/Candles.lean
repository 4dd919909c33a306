import Cryptox.Library.StableSort
import Cryptox.Library.Table
import Cryptox.MarketData.Rules

/-!
# The candle repository and the cached window

The in-memory repository and the table of the database hold one row for a pair, a timeframe and a
timestamp, and refuse a forming candle where a closed one is stored. A row is a candle that has
passed `validateCandle`, so the validation that `readRows` repeats returns it as it is.
-/
namespace Cryptox.MarketData

open Cryptox.Backtesting (Timeframe)
open Cryptox.Library

abbrev CandleKey : Type := Pair × Timeframe × Int

def Candle.key (candle : Candle) : CandleKey :=
  (candle.pair, candle.timeframe, candle.timestamp)

abbrev CandleRows : Type := Table Candle.key

def upsert (rows : CandleRows) (candle : Candle) : CandleRows :=
  match rows.get? candle.key with
  | some existing => if !existing.isClosed || candle.isClosed then rows.put candle else rows
  | none => rows.put candle

/-- The order of the timestamps. -/
abbrev Candle.Earlier (left right : Candle) : Prop := left.timestamp ≤ right.timestamp

instance : Std.Total Candle.Earlier := ⟨fun left right => le_total left.timestamp right.timestamp⟩

instance : IsTrans Candle Candle.Earlier := ⟨fun _ _ _ h h' => le_trans h h'⟩

def sortCandles (candles : List Candle) : List Candle :=
  candles.insertionSort Candle.Earlier

def isOf (pair : Pair) (timeframe : Timeframe) (candle : Candle) : Bool :=
  candle.pair == pair && candle.timeframe == timeframe

def readRows (rows : CandleRows) (pair : Pair) (timeframe : Timeframe) : List Candle :=
  sortCandles (rows.rows.filter (isOf pair timeframe))

def sameCandle (left right : Candle) : Bool :=
  left.pair == right.pair && left.timeframe == right.timeframe
    && left.timestamp == right.timestamp && left.values == right.values
    && left.isClosed == right.isClosed

section Window

def latestCandleCacheWindow : Nat := 1000

def cacheSchemaVersion : Nat := 1

/-- How far a provider's clock may be ahead. -/
def maxTickFutureSkewMs : Int := 5000

structure CachedCandleWindow where
  schemaVersion : Nat
  asOf : Int
  completeThrough : Int
  candles : List Candle
deriving DecidableEq

/-- `values.slice(-count)` -/
def sliceLast {α : Type} (count : Nat) (values : List α) : List α :=
  values.drop (values.length - count)

def closedOf (candles : List Candle) : List Candle := candles.filter (·.isClosed)

/-- The first instant from the given one on, an interval a turn, that no candle starts at. -/
def firstGap (timestamps : List Int) (interval : Int) : Nat → Int → Int
  | 0, instant => instant
  | turns + 1, instant =>
    if instant ∈ timestamps then firstGap timestamps interval turns (instant + interval)
    else instant

/-- The window that `refreshCandleCache` stores for the rows it has read. -/
def refreshedWindow (rows : List Candle) (timeframe : Timeframe) (now : Int) :
    CachedCandleWindow :=
  let closed := sortCandles (closedOf rows)
  let forming := sliceLast 1 (rows.filter fun candle => !candle.isClosed)
  let latestClosed := sliceLast latestCandleCacheWindow closed
  let interval := timeframe.ms
  let completeThrough :=
    match latestClosed.head? with
    | some first =>
      firstGap (closed.map (·.timestamp)) interval closed.length (first.timestamp + interval)
    | none => now / interval * interval
  { schemaVersion := cacheSchemaVersion
    asOf := now
    completeThrough
    candles := sortCandles (latestClosed ++ forming) }

/-- A window that does not parse, is too old or does not cover the range is not used. -/
def readCachedCandleWindow (cached : Option CachedCandleWindow) (pair : Pair)
    (timeframe : Timeframe) (requested : Option Range) (includeForming : Bool) (now : Int) :
    Option (List Candle) := do
  let range ← requested
  let payload ← cached
  guard (payload.schemaVersion = cacheSchemaVersion
    ∧ payload.candles.length ≤ latestCandleCacheWindow + 1)
  guard (payload.asOf ≤ now + maxTickFutureSkewMs
    ∧ now - payload.asOf ≤ timeframe.ms * 2)
  guard (payload.completeThrough % timeframe.ms = 0
    ∧ payload.completeThrough ≤ now + maxTickFutureSkewMs)
  guard ((payload.candles.map (·.timestamp)).Nodup
    ∧ ∀ candle ∈ payload.candles, isOf pair timeframe candle = true)
  let closed := payload.candles.filter fun candle =>
    candle.isClosed && range.fromTime ≤ candle.timestamp && candle.timestamp < range.toTime
  let first ← (closedOf payload.candles).head?
  guard (first.timestamp ≤ range.fromTime ∧ range.toTime ≤ payload.completeThrough
    ∧ missingRanges closed range timeframe = [])
  guard (includeForming = true → ∃ candle ∈ payload.candles, candle.isClosed = false
    ∧ range.fromTime ≤ candle.timestamp ∧ candle.timestamp < range.toTime)
  return payload.candles

end Window

section Repository

variable {rows : CandleRows} {candle : Candle} {pair : Pair} {timeframe : Timeframe}

variable (rows candle) in
/-- A row is replaced unless that would make a closed candle a forming one. -/
theorem upsert_eq :
    upsert rows candle = rows.put candle ∨
      upsert rows candle = rows ∧ candle.isClosed = false ∧
        ∃ existing, rows.get? candle.key = some existing ∧ existing.isClosed = true := by
  unfold upsert
  cases h : rows.get? candle.key with
  | none => exact Or.inl rfl
  | some existing =>
    cases hc : candle.isClosed with
    | true => exact Or.inl (by simp)
    | false =>
      cases he : existing.isClosed with
      | true => exact Or.inr ⟨by simp [he], rfl, existing, rfl, he⟩
      | false => exact Or.inl (by simp [he])

theorem get?_upsert_of_ne {key : CandleKey} (h : key ≠ candle.key) :
    (upsert rows candle).get? key = rows.get? key := by
  rcases upsert_eq rows candle with hput | ⟨hsame, -⟩
  · rw [hput, Table.get?_put_of_ne rows h]
  · rw [hsame]

theorem get?_upsert_of_closed (h : candle.isClosed = true) :
    (upsert rows candle).get? candle.key = some candle := by
  rcases upsert_eq rows candle with hput | ⟨-, hforming, -⟩
  · rw [hput, Table.get?_put_of_eq rows rfl]
  · rw [h] at hforming
    cases hforming

theorem get?_upsert_of_forming {existing : Candle} (h : candle.isClosed = false)
    (hget : rows.get? candle.key = some existing) (hclosed : existing.isClosed = true) :
    (upsert rows candle).get? candle.key = some existing := by
  rw [upsert, hget]
  simp [h, hclosed, hget]

theorem mem_readRows {c : Candle} :
    c ∈ readRows rows pair timeframe ↔ c ∈ rows.rows ∧ isOf pair timeframe c = true := by
  rw [readRows, sortCandles, List.mem_insertionSort, List.mem_filter]

theorem isOf_iff {c : Candle} :
    isOf pair timeframe c = true ↔ c.pair = pair ∧ c.timeframe = timeframe := by
  simp [isOf]

/-- The rows read have distinct timestamps. -/
theorem eq_of_timestamp {left right : Candle} (hl : left ∈ readRows rows pair timeframe)
    (hr : right ∈ readRows rows pair timeframe) (h : left.timestamp = right.timestamp) :
    left = right := by
  obtain ⟨hleft, hlof⟩ := mem_readRows.mp hl
  obtain ⟨hright, hrof⟩ := mem_readRows.mp hr
  have hkey : left.key = right.key := by
    rw [Candle.key, Candle.key, (isOf_iff.mp hlof).1, (isOf_iff.mp hlof).2,
      (isOf_iff.mp hrof).1, (isOf_iff.mp hrof).2, h]
  exact Table.eq_of_key hleft (Table.get?_of_mem_rows hright) hkey

/-- A write shows only in the rows of its own pair and timeframe. -/
theorem readRows_upsert_of_ne (h : isOf pair timeframe candle = false) :
    readRows (upsert rows candle) pair timeframe = readRows rows pair timeframe := by
  rcases upsert_eq rows candle with hput | ⟨hsame, -⟩
  · have hkept : (rows.put candle).rows.filter (isOf pair timeframe) =
        rows.rows.filter (isOf pair timeframe) := by
      cases hget : rows.get? candle.key with
      | none =>
        rw [Table.rows_put_of_none hget, List.filter_append]
        simp [h]
      | some existing =>
        have hkey : existing.key = candle.key := Table.key_of_get? hget
        have hout : isOf pair timeframe existing = false := by
          rw [← h]
          simp only [Candle.key, Prod.mk.injEq] at hkey
          simp only [isOf, hkey]
        simpa [List.filterMap_eq_filter] using Table.filterMap_put hget
          (Option.guard fun c => isOf pair timeframe c) (by simp [Option.guard, h, hout])
    rw [hput, readRows, hkept, readRows]
  · rw [hsame]

end Repository

section Closed

theorem closedOf_sortCandles (candles : List Candle) :
    closedOf (sortCandles candles) = sortCandles (closedOf candles) :=
  filter_insertionSort _ candles

/-- The closed candles of a window that a refresh stores, whenever it is stored. -/
theorem closedOf_refreshedWindow (rows : List Candle) (timeframe : Timeframe) (now : Int) :
    closedOf (refreshedWindow rows timeframe now).candles =
      sliceLast latestCandleCacheWindow (sortCandles (closedOf rows)) := by
  have hlatest : ∀ c ∈ sliceLast latestCandleCacheWindow (sortCandles (closedOf rows)),
      c.isClosed = true := by
    intro c hc
    have hmem := (List.mem_insertionSort Candle.Earlier).mp (List.mem_of_mem_drop hc)
    exact (List.mem_filter.mp hmem).2
  have hforming : ∀ c ∈ sliceLast 1 (rows.filter fun candle => !candle.isClosed),
      ¬ c.isClosed = true := by
    intro c hc
    have hmem := (List.mem_filter.mp (List.mem_of_mem_drop hc)).2
    simpa using hmem
  have hsorted : (sliceLast latestCandleCacheWindow (sortCandles (closedOf rows))).Pairwise
      Candle.Earlier :=
    (List.pairwise_insertionSort Candle.Earlier _).sublist (List.drop_sublist _ _)
  rw [refreshedWindow, closedOf_sortCandles, closedOf, List.filter_append,
    List.filter_eq_self.mpr hlatest, List.filter_eq_nil_iff.mpr hforming, List.append_nil]
  exact hsorted.insertionSort_eq

end Closed

end Cryptox.MarketData
