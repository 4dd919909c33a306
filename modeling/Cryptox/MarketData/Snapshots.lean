import Cryptox.MarketData.Calls
import Cryptox.MarketData.MissingRanges
import Cryptox.MarketData.Serialization

/-!
# Sealing a dataset

A call of `createDatasetSnapshot` reads a page of candles, looks the hash of its serialization up
among the snapshots of the service, and stores what it has not found. The service may have changed
between the look-up and the storing, so both states are given; the rows of the repository are given
with the second. `hash` stands for the hexadecimal SHA-256 of a text.
-/
namespace Cryptox.MarketData

open Cryptox.Backtesting (Timeframe)
open Cryptox.Library

structure MarketPairMetadata where
  pair : Pair
  baseAsset : String
  quoteAsset : String
  settlementAsset : String
deriving DecidableEq

structure DatasetSnapshotRef where
  id : String
  pair : Pair
  pairMetadata : MarketPairMetadata
  timeframe : Timeframe
  range : ValidRange timeframe
  candleCount : Nat
  sha256 : String
  createdAt : Int
deriving DecidableEq

/-- A snapshot with its candles. -/
structure SealedDataset where
  snapshot : DatasetSnapshotRef
  candles : List Candle
deriving DecidableEq

namespace SealedDataset

def key (dataset : SealedDataset) : String := dataset.snapshot.id

def arguments (dataset : SealedDataset) : SnapshotArguments where
  pair := dataset.snapshot.pair
  timeframe := dataset.snapshot.timeframe
  range := dataset.snapshot.range
  candles := dataset.candles

end SealedDataset

/-- The snapshots of one process and, where it is configured, the repository. -/
structure DatasetService where
  snapshots : Table SealedDataset.key
  repository : Option (Table SealedDataset.key)

structure DatasetSnapshotCreateCommand where
  pair : String
  timeframe : String
  range : RawRange

/-- A command that has passed its checks. -/
structure DatasetRequest where
  pair : Pair
  timeframe : Timeframe
  range : ValidRange timeframe
deriving DecidableEq

/-- What a call is told by what it awaits. The clock is read again by the read of the candles, each
of whose steps finds a state of its own. -/
structure DatasetAnswers where
  now : Int
  readNow : Int
  reads : List (Store × Environment)
  metadata : Except String (Option MarketPairMetadata)
  id : String
  createdAt : Int
  failure : Option String

section Creation

variable (parse : String → Option TimeValue) (hash : String → String)

def datasetRequest (command : DatasetSnapshotCreateCommand) (now : Int) :
    Except MarketDataException DatasetRequest := do
  let pair ← validatePair command.pair
  let timeframe ← validateTimeframe command.timeframe
  let range ← validateRange parse command.range timeframe now
  return { pair, timeframe, range }

def Phase.after (phase : Phase) (reads : List (Store × Environment)) : Phase :=
  reads.foldl (fun phase read => (advance parse read.1 read.2 phase).2) phase

/-- A read that is not over has no page yet. -/
def Phase.page : Phase → Except Failure HistoricalCandlePage
  | answered result => result
  | _ => .error (.rejected "pending")

def DatasetRequest.query (request : DatasetRequest) (now : Int) : ReadRequest where
  pair := request.pair
  timeframe := request.timeframe
  now
  range := some request.range
  limit := maxPageLimit
  offset := none
  includeForming := false
  requireComplete := true

/-- The candles to be sealed. Of the checks that `readCandles` repeats only that of the clock can
fail. -/
def readDataset (command : DatasetSnapshotCreateCommand) (answers : DatasetAnswers) :
    Except Failure SnapshotArguments := do
  let request ← (datasetRequest parse command answers.now).mapError .exception
  throwIf (answers.readNow < request.range.fromTime)
    (.exception { code := .invalidRange, message := "Timestamp cannot be in the future." })
  let page ← ((Phase.providing (request.query answers.readNow)).after parse answers.reads).page
  throwIf page.candles.isEmpty
    (.exception { code := .datasetEmpty, message := "Cannot create an empty dataset snapshot." })
  return { pair := request.pair, timeframe := request.timeframe, range := request.range,
           candles := page.candles }

def readPairMetadata (pair : Pair) (metadata : Except String (Option MarketPairMetadata)) :
    Except Failure MarketPairMetadata :=
  match metadata with
  | .error cause => .error (.rejected cause)
  | .ok metadata =>
    .ok (metadata.getD { pair, baseAsset := pair.text, quoteAsset := "", settlementAsset := "" })

def validateContent (dataset : SealedDataset) : Except MarketDataException Unit := do
  let snapshot := dataset.snapshot
  let sorted := dataset.candles
  throwIf (!(snapshot.id ≠ "" && snapshot.candleCount = sorted.length && !sorted.isEmpty
      && sorted.all (fun candle => candle.isClosed && isOf snapshot.pair snapshot.timeframe candle)
      && decide (sorted.IsChain fun earlier later => earlier.timestamp < later.timestamp)
      && decide (sorted.map (·.timestamp)).Nodup
      && sorted.head?.map (·.timestamp) = some snapshot.range.fromTime
      && sorted.getLast?.map (·.timestamp) =
        some (snapshot.range.toTime - snapshot.timeframe.ms)
      && missingRanges sorted snapshot.range.toRange snapshot.timeframe = []))
    { code := .datasetIntegrityFailure
      message := "Dataset snapshot content is incomplete or inconsistent." }
  throwIf (hash dataset.arguments.serialization ≠ snapshot.sha256)
    { code := .datasetIntegrityFailure, message := "Dataset snapshot content hash is invalid." }

/-- The repository keeps one row for a hash and one for an id. -/
def createRow (rows : Table SealedDataset.key) (dataset : SealedDataset)
    (failure : Option String) :
    Except Failure (DatasetSnapshotRef × Table SealedDataset.key) := do
  (validateContent hash dataset).mapError .exception
  match failure with
  | some cause => .error (.rejected cause)
  | none =>
    match rows.rows.find? fun row => row.snapshot.sha256 = dataset.snapshot.sha256 with
    | some existing => return (existing.snapshot, rows)
    | none =>
      throwIf (rows.get? dataset.key).isSome
        (.rejected "duplicate key value violates unique constraint")
      return (dataset.snapshot, rows.put dataset)

/-- What a call returns, and the service it leaves. -/
def createDatasetSnapshot (checked stored : DatasetService)
    (command : DatasetSnapshotCreateCommand) (answers : DatasetAnswers) :
    Except Failure (DatasetSnapshotRef × DatasetService) := do
  let arguments ← readDataset parse command answers
  let sha256 := hash arguments.serialization
  match checked.snapshots.rows.find? fun entry => entry.snapshot.sha256 = sha256 with
  | some existing => return (existing.snapshot, checked)
  | none =>
    let pairMetadata ← readPairMetadata arguments.pair answers.metadata
    let snapshot : DatasetSnapshotRef :=
      { id := answers.id, pair := arguments.pair, pairMetadata, timeframe := arguments.timeframe,
        range := arguments.range, candleCount := arguments.candles.length, sha256,
        createdAt := answers.createdAt }
    match stored.repository with
    | none =>
      let entry : SealedDataset := { snapshot, candles := arguments.candles }
      return (snapshot, { stored with snapshots := stored.snapshots.put entry })
    | some rows =>
      let (persisted, rows) ← createRow hash rows ⟨snapshot, arguments.candles⟩ answers.failure
      let entry : SealedDataset := { snapshot := persisted, candles := arguments.candles }
      return (persisted,
        { snapshots := stored.snapshots.put entry, repository := some rows })

end Creation

section Reading

variable {parse : String → Option TimeValue} {request : DatasetRequest} {now : Int}

/-- Rows of one pair and timeframe, in any order, no two of one instant. -/
def Readable (pair : Pair) (timeframe : Timeframe) (rows : List Candle) : Prop :=
  (∀ candle ∈ rows, isOf pair timeframe candle = true) ∧ (rows.map (·.timestamp)).Nodup

theorem readable_readRows (rows : CandleRows) (pair : Pair) (timeframe : Timeframe) :
    Readable pair timeframe (readRows rows pair timeframe) := by
  have hnodup : (readRows rows pair timeframe).Nodup := by
    have hrows : rows.rows.Nodup := List.Nodup.of_map _ rows.nodup
    exact (List.perm_insertionSort _ _).nodup_iff.mpr (hrows.filter _)
  refine ⟨fun candle hmem => (mem_readRows.mp hmem).2, ?_⟩
  exact hnodup.map_on fun left hleft right hright heq => eq_of_timestamp hleft hright heq

theorem readable_of_cached {cached : Option CachedCandleWindow} {pair : Pair}
    {timeframe : Timeframe} {requested : Option Range} {includeForming : Bool} {rows : List Candle}
    (h : readCachedCandleWindow cached pair timeframe requested includeForming now = some rows) :
    Readable pair timeframe rows := by
  simp only [readCachedCandleWindow, Option.bind_eq_bind, Option.bind_eq_some_iff] at h
  obtain ⟨_, -, payload, -, _, -, _, -, _, -, _, hrows, _, -, _, -, _, -, hpayload⟩ := h
  obtain rfl := Option.some.inj hpayload
  by_cases hvalid : (payload.candles.map (·.timestamp)).Nodup
      ∧ ∀ candle ∈ payload.candles, isOf pair timeframe candle = true
  · exact hvalid.symm
  · rw [guard, if_neg hvalid] at hrows
    cases hrows

/-- What a read of a dataset has fetched so far, or answers. -/
def Phase.Reads (request : DatasetRequest) (now : Int) : Phase → Prop
  | providing asked | caching asked _ | listing asked _ => asked = request.query now
  | syncing asked requested rows | relisting asked requested rows =>
    asked = request.query now ∧ requested = request.range.toRange ∧
      Readable request.pair request.timeframe rows
  | refreshing (.read asked requested rows _) | storing _ (.read asked requested rows _) =>
    asked = request.query now ∧ requested = some request.range.toRange ∧
      Readable request.pair request.timeframe rows
  | answered (.ok page) => ∃ rows cause, Readable request.pair request.timeframe rows ∧
      (request.query now).page (some request.range.toRange) rows cause = .ok page
  | _ => True

theorem DatasetRequest.requestedRange_query (request : DatasetRequest) (now : Int)
    (provided : Bool) :
    (request.query now).requestedRange provided = some request.range.toRange := rfl

/-- A finished read has answered with the page of the rows it has. -/
theorem reads_finish {asked : ReadRequest} {requested : Option Range} {rows : List Candle}
    {cause : Option String} (h : (Phase.refreshing (.read asked requested rows cause)).Reads
      request now) : (AfterRefresh.read asked requested rows cause).finish.Reads request now := by
  obtain ⟨rfl, rfl, hrows⟩ := h
  cases hpage : (request.query now).page (some request.range.toRange) rows cause with
  | error error => simp [AfterRefresh.finish, hpage, Except.mapError, Phase.Reads]
  | ok page =>
    simp only [AfterRefresh.finish, hpage, Except.mapError, Phase.Reads]
    exact ⟨rows, cause, hrows, hpage⟩

theorem reads_syncFailed {asked : ReadRequest} {requested : Range} {rows : List Candle}
    {cause : String} (h : (Phase.syncing asked requested rows).Reads request now) :
    (syncFailed asked requested rows cause).Reads request now := by
  obtain ⟨rfl, -, -⟩ := h
  exact trivial

/-- A step of the read keeps to its request, whatever it finds. -/
theorem reads_advance {phase : Phase} (store : Store) (environment : Environment)
    (h : phase.Reads request now) : (advance parse store environment phase).2.Reads request now := by
  cases phase with
  | providing asked =>
    obtain rfl := h
    simp only [advance]
    split
    · trivial
    · split
      · trivial
      · rfl
  | caching asked provided =>
    obtain rfl := h
    simp only [advance]
    split
    · rename_i rows hrows
      have hread : (Phase.refreshing (.read (request.query now) (some request.range.toRange) rows
          none)).Reads request now := ⟨rfl, rfl, readable_of_cached hrows⟩
      exact reads_finish hread
    · rfl
  | listing asked provided =>
    obtain rfl := h
    have hrows := readable_readRows store.rows request.pair request.timeframe
    simp only [advance, request.requestedRange_query]
    split
    · trivial
    · split
      · exact ⟨rfl, rfl, hrows⟩
      · exact ⟨rfl, rfl, hrows⟩
  | syncing asked requested rows =>
    simp only [advance]
    split
    · exact reads_syncFailed h
    · exact h
  | relisting asked requested rows =>
    simp only [advance]
    split
    · exact reads_syncFailed h
    · obtain ⟨rfl, rfl, -⟩ := h
      exact ⟨rfl, rfl, readable_readRows store.rows request.pair request.timeframe⟩
  | refreshing after =>
    cases after with
    | persist candle =>
      simp only [advance]
      split <;> trivial
    | read asked requested rows cause =>
      simp only [advance]
      split
      · exact reads_finish h
      · exact h
  | storing window after =>
    cases after with
    | persist candle =>
      simp only [advance]
      split <;> trivial
    | read asked requested rows cause =>
      simp only [advance]
      split
      · exact reads_finish h
      · exact reads_finish h
  | resolving observation =>
    simp only [advance]
    repeat' split
    all_goals trivial
  | reading candle historical =>
    simp only [advance, decidePersist]
    repeat' split
    all_goals trivial
  | invalidating candle =>
    simp only [advance]
    split <;> trivial
  | writing candle historical =>
    simp only [advance]
    split <;> trivial
  | persisted result => trivial
  | answered result => exact h

theorem reads_after {phase : Phase} (reads : List (Store × Environment))
    (h : phase.Reads request now) : (phase.after parse reads).Reads request now := by
  induction reads generalizing phase with
  | nil => exact h
  | cons read reads ih => exact ih (reads_advance read.1 read.2 h)

/-- The page that a dataset is sealed from was made of rows of its pair and timeframe. -/
theorem page_of_reads {page : HistoricalCandlePage} {reads : List (Store × Environment)}
    (h : ((Phase.providing (request.query now)).after parse reads).page = .ok page) :
    ∃ rows cause, Readable request.pair request.timeframe rows ∧
      (request.query now).page (some request.range.toRange) rows cause = .ok page := by
  have hreads : ((Phase.providing (request.query now)).after parse reads).Reads request now :=
    reads_after reads rfl
  revert h hreads
  cases (Phase.providing (request.query now)).after parse reads with
  | answered result =>
    rintro rfl hreads
    exact hreads
  | _ =>
    intro h
    cases h

end Reading

section Points

variable {pair : Pair} {timeframe : Timeframe} {range : ValidRange timeframe}

theorem gridPoints_pairwise {range : Range} : (gridPoints range timeframe).Pairwise (· < ·) := by
  have hms := ms_pos timeframe
  refine List.pairwise_map.mpr (List.pairwise_lt_range.imp fun {i j} hij => ?_)
  have hmul : (i : Int) * timeframe.ms < j * timeframe.ms :=
    mul_lt_mul_of_pos_right (by exact_mod_cast hij) hms
  omega

theorem length_gridPoints {range : Range} :
    (gridPoints range timeframe).length = gridSize range timeframe := by
  simp [gridPoints]

/-- The turns of the loop fill a range whose ends are on the grid. -/
theorem gridSize_mul (range : ValidRange timeframe) :
    gridSize range.toRange timeframe * timeframe.ms = range.toTime - range.fromTime := by
  have hdvd : timeframe.ms ∣ range.toTime - range.fromTime :=
    Int.dvd_sub (Int.dvd_of_emod_eq_zero range.toOnGrid.aligned)
      (Int.dvd_of_emod_eq_zero range.fromOnGrid.aligned)
  have hend := gridSize_mul_of_dvd hdvd range.nonempty.le
  omega

/-- Candles of the range, in their order, without a gap, start at the points of the grid. -/
theorem timestamps_eq_gridPoints {candles : List Candle}
    (hof : ∀ candle ∈ candles, isOf pair timeframe candle = true)
    (hin : ∀ candle ∈ candles,
      range.fromTime ≤ candle.timestamp ∧ candle.timestamp < range.toTime)
    (hsorted : (candles.map (·.timestamp)).Pairwise (· < ·))
    (hgaps : missingRanges candles range.toRange timeframe = []) :
    candles.map (·.timestamp) = gridPoints range.toRange timeframe := by
  have hmem : ∀ point, point ∈ candles.map (·.timestamp) ↔
      point ∈ gridPoints range.toRange timeframe := by
    intro point
    constructor
    · intro hpoint
      obtain ⟨candle, hcandle, rfl⟩ := List.mem_map.mp hpoint
      have hgrid := candle.onGrid.aligned
      rw [(isOf_iff.mp (hof candle hcandle)).2] at hgrid
      exact mem_gridPoints.mpr ⟨(hin candle hcandle).1, (hin candle hcandle).2,
        Int.dvd_sub (Int.dvd_of_emod_eq_zero hgrid)
          (Int.dvd_of_emod_eq_zero range.fromOnGrid.aligned)⟩
    · intro hpoint
      obtain ⟨candle, hcandle, -, htime⟩ := missingRanges_eq_nil.mp hgaps point hpoint
      exact List.mem_map.mpr ⟨candle, hcandle, htime⟩
  have hperm := (List.perm_ext_iff_of_nodup (hsorted.imp ne_of_lt) gridPoints_nodup).mpr hmem
  exact hperm.eq_of_pairwise (fun a b _ _ hab hba => absurd hab hba.not_gt) hsorted
    gridPoints_pairwise

/-- What the page of a dataset holds: the first grid points of its range. -/
theorem page_points {request : DatasetRequest} {now : Int} {rows : List Candle}
    {cause : Option String} {page : HistoricalCandlePage}
    (hrows : Readable request.pair request.timeframe rows)
    (h : (request.query now).page (some request.range.toRange) rows cause = .ok page) :
    (∀ candle ∈ page.candles,
      candle.isClosed = true ∧ isOf request.pair request.timeframe candle = true) ∧
      page.candles.map (·.timestamp) =
        (gridPoints request.range.toRange request.timeframe).take maxPageLimit := by
  let closed := ReadRequest.closedIn (some request.range.toRange) rows
  have hclosed : ∀ candle ∈ sortCandles closed, candle ∈ rows ∧ candle.isClosed = true ∧
      request.range.fromTime ≤ candle.timestamp ∧ candle.timestamp < request.range.toTime := by
    intro candle hcandle
    have hmem := (List.mem_insertionSort Candle.Earlier).mp hcandle
    simpa [closed, ReadRequest.closedIn, List.mem_filter, and_assoc] using hmem
  have hsorted : ((sortCandles closed).map (·.timestamp)).Pairwise (· < ·) := by
    have hle : ((sortCandles closed).map (·.timestamp)).Pairwise (· ≤ ·) :=
      List.pairwise_map.mpr (List.pairwise_insertionSort Candle.Earlier closed)
    have hnodup : ((sortCandles closed).map (·.timestamp)).Nodup := by
      have hperm := (List.perm_insertionSort Candle.Earlier closed).map (·.timestamp)
      exact hperm.nodup_iff.mpr (hrows.2.sublist (List.filter_sublist.map _))
    exact (hle.and hnodup).imp fun h => lt_of_le_of_ne h.1 h.2
  obtain ⟨hgaps, hcandles⟩ : missingRanges closed request.range.toRange request.timeframe = [] ∧
      page.candles = (sortCandles closed).take maxPageLimit := by
    obtain ⟨_, hcomplete, h⟩ := bind_eq_ok.mp h
    obtain ⟨-, -, h⟩ := bind_eq_ok.mp h
    have hgaps := throwIf_eq_ok.mp hcomplete
    simp only [DatasetRequest.query, Bool.true_and, Option.getD_some] at hgaps
    obtain rfl := pure_eq_ok.mp h
    refine ⟨not_not.mp (of_decide_eq_false hgaps), ?_⟩
    simp [ReadRequest.formingIn, DatasetRequest.query, closed]
  rw [hcandles]
  constructor
  · intro candle hcandle
    have hmem := hclosed candle (List.mem_of_mem_take hcandle)
    exact ⟨hmem.2.1, hrows.1 candle hmem.1⟩
  · rw [List.map_take, timestamps_eq_gridPoints (fun candle hcandle =>
      hrows.1 candle (hclosed candle hcandle).1)
      (fun candle hcandle => (hclosed candle hcandle).2.2) hsorted]
    -- the gaps are looked for before the candles are sorted
    refine missingRanges_eq_nil.mpr fun point hpoint => ?_
    obtain ⟨candle, hcandle, hfound⟩ := missingRanges_eq_nil.mp hgaps point hpoint
    exact ⟨candle, (List.mem_insertionSort Candle.Earlier).mpr hcandle, hfound⟩

end Points

end Cryptox.MarketData
