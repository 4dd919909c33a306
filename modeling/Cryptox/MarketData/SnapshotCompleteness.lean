import Cryptox.MarketData.Snapshots

/-!
# Which snapshots are complete

A snapshot is sealed from one page of its range. The repository takes only a complete one; a
service without a repository seals the page of a longer range as well.
-/
namespace Cryptox.MarketData

open Cryptox.Backtesting (Timeframe)
open Cryptox.Library

section Contents

/-- The candles are the first of their range. -/
def SnapshotArguments.IsFirstPage (arguments : SnapshotArguments) : Prop :=
  (∀ candle ∈ arguments.candles,
    candle.isClosed = true ∧ isOf arguments.pair arguments.timeframe candle = true) ∧
  arguments.candles.map (·.timestamp) =
    (gridPoints arguments.range.toRange arguments.timeframe).take maxPageLimit

/-- The candles are all of their range. -/
def SnapshotArguments.IsWhole (arguments : SnapshotArguments) : Prop :=
  arguments.candles.map (·.timestamp) = gridPoints arguments.range.toRange arguments.timeframe

/-- A dataset that tells what was asked for, whole. -/
structure SealedDataset.Completes (hash : String → String) (dataset : SealedDataset)
    (request : DatasetRequest) : Prop where
  described : dataset.snapshot.pair = request.pair ∧
    dataset.snapshot.timeframe = request.timeframe ∧
    dataset.snapshot.range.toRange = request.range.toRange
  closed : ∀ candle ∈ dataset.candles, candle.isClosed = true ∧ candle.pair = request.pair ∧
    candle.timeframe = request.timeframe
  onePerPoint : dataset.candles.map (·.timestamp) =
    gridPoints request.range.toRange request.timeframe
  counted : (dataset.snapshot.candleCount : Int) =
    (request.range.toTime - request.range.fromTime) / request.timeframe.ms
  hashed : dataset.snapshot.sha256 = hash (snapshotSerialization request.pair request.timeframe
    request.range.toRange dataset.candles)

variable {hash : String → String} {dataset : SealedDataset} {arguments : SnapshotArguments}

theorem whole_iff (h : arguments.IsFirstPage) :
    arguments.IsWhole ↔ gridSize arguments.range.toRange arguments.timeframe ≤ maxPageLimit := by
  rw [SnapshotArguments.IsWhole, h.2, List.take_eq_self_iff, length_gridPoints]

/-- What the metadata of a dataset says of its candles. -/
structure SealedDataset.IsDescribed (hash : String → String) (dataset : SealedDataset) :
    Prop where
  closed : ∀ candle ∈ dataset.candles, candle.isClosed = true ∧
    isOf dataset.snapshot.pair dataset.snapshot.timeframe candle = true
  counted : dataset.snapshot.candleCount = dataset.candles.length
  hashed : dataset.snapshot.sha256 = hash dataset.arguments.serialization

theorem completes_iff (request : DatasetRequest) (h : dataset.IsDescribed hash)
    (hpair : dataset.snapshot.pair = request.pair)
    (htimeframe : dataset.snapshot.timeframe = request.timeframe)
    (hrange : dataset.snapshot.range.toRange = request.range.toRange) :
    dataset.Completes hash request ↔ dataset.arguments.IsWhole := by
  obtain ⟨pair, timeframe, range⟩ := request
  simp only at hpair htimeframe hrange
  subst hpair htimeframe
  constructor
  · intro hcomplete
    have hpoints := hcomplete.onePerPoint
    simp only [← hrange] at hpoints
    exact hpoints
  · intro hwhole
    have hpoints : dataset.candles.map (·.timestamp) =
        gridPoints range.toRange dataset.snapshot.timeframe := by
      rw [← hrange]
      exact hwhole
    have hcount : (dataset.snapshot.candleCount : Int) * dataset.snapshot.timeframe.ms =
        range.toTime - range.fromTime := by
      rw [← gridSize_mul, ← length_gridPoints, ← hpoints, List.length_map, h.counted]
    refine ⟨⟨rfl, rfl, hrange⟩, fun candle hcandle => ?_, hpoints, ?_, ?_⟩
    · obtain ⟨hclosed, hof⟩ := h.closed candle hcandle
      exact ⟨hclosed, isOf_iff.mp hof⟩
    · rw [← hcount, Int.mul_ediv_cancel _ (ms_pos _).ne']
    · rw [← hrange]
      exact h.hashed

theorem between_ends {timestamps : List Int} {first last : Int}
    (h : timestamps.Pairwise (· < ·)) (hfirst : timestamps.head? = some first)
    (hlast : timestamps.getLast? = some last) :
    ∀ timestamp ∈ timestamps, first ≤ timestamp ∧ timestamp ≤ last := by
  intro timestamp hmem
  constructor
  · obtain ⟨rest, rfl⟩ := List.head?_eq_some_iff.mp hfirst
    rcases List.mem_cons.mp hmem with rfl | hrest
    · exact le_rfl
    · exact ((List.pairwise_cons.mp h).1 timestamp hrest).le
  · obtain ⟨before, rfl⟩ := List.getLast?_eq_some_iff.mp hlast
    rcases List.mem_append.mp hmem with hbefore | hend
    · exact ((List.pairwise_append.mp h).2.2 timestamp hbefore last List.mem_cons_self).le
    · exact (List.mem_singleton.mp hend).le

/-- What the repository makes sure of before it stores a row. -/
theorem validateContent_eq_ok (h : validateContent hash dataset = .ok ()) :
    dataset.IsDescribed hash ∧ dataset.arguments.IsWhole := by
  obtain ⟨_, hcontent, hhash⟩ := bind_eq_ok.mp h
  have hcontent := throwIf_eq_ok.mp hcontent
  have hhash := not_not.mp (of_decide_eq_false (throwIf_eq_ok.mp hhash))
  simp only [Bool.not_eq_false', Bool.and_eq_true, decide_eq_true_eq, List.all_eq_true,
    ← List.head?_map, ← List.getLast?_map] at hcontent
  obtain ⟨⟨⟨⟨⟨⟨⟨⟨-, hcount⟩, -⟩, hclosed⟩, hchain⟩, -⟩, hfirst⟩, hlast⟩, hgaps⟩ := hcontent
  refine ⟨⟨hclosed, hcount, hhash.symm⟩, ?_⟩
  have : IsTrans Candle fun earlier later => earlier.timestamp < later.timestamp :=
    ⟨fun _ _ _ => lt_trans⟩
  have hsorted : (dataset.candles.map (·.timestamp)).Pairwise (· < ·) :=
    List.pairwise_map.mpr hchain.pairwise
  have hms := ms_pos dataset.snapshot.timeframe
  refine timestamps_eq_gridPoints (fun candle hcandle => (hclosed candle hcandle).2)
    (fun candle hcandle => ?_) hsorted hgaps
  have hends := between_ends hsorted hfirst hlast _ (List.mem_map_of_mem hcandle)
  exact ⟨hends.1, by dsimp only [SealedDataset.arguments]; omega⟩

end Contents

section Runs

variable (parse : String → Option TimeValue) (hash : String → String)

/-- The hash of what is sealed is not that of another text known to the service. -/
def CollisionFree (checked stored : DatasetService) (arguments : SnapshotArguments) : Prop :=
  (∀ entry ∈ checked.snapshots.rows,
    hash entry.arguments.serialization = hash arguments.serialization →
      entry.arguments.serialization = arguments.serialization) ∧
  ∀ rows, stored.repository = some rows → ∀ row ∈ rows.rows,
    hash row.arguments.serialization = hash arguments.serialization →
      row.arguments.serialization = arguments.serialization

/-- The states of a service that began without snapshots, with a repository or without. The two
states of a call are any two: its awaits leave room for other calls, and other processes write to
the repository. -/
inductive Reachable (durable : Bool) : DatasetService → Prop where
  | start {repository : Option (Table SealedDataset.key)} (configured : repository.isSome = durable)
      (valid : ∀ rows, repository = some rows →
        ∀ row ∈ rows.rows, validateContent hash row = .ok ()) :
      Reachable durable { snapshots := .empty, repository }
  | create {checked stored next : DatasetService} {command : DatasetSnapshotCreateCommand}
      {answers : DatasetAnswers} {ref : DatasetSnapshotRef} (before : Reachable durable checked)
      (meanwhile : Reachable durable stored)
      (free : ∀ arguments, readDataset parse command answers = .ok arguments →
        CollisionFree hash checked stored arguments)
      (created : createDatasetSnapshot parse hash checked stored command answers =
        .ok (ref, next)) : Reachable durable next
  | elsewhere {service : DatasetService} {rows : Table SealedDataset.key}
      (before : Reachable durable service) (configured : durable = true)
      (valid : ∀ row ∈ rows.rows, validateContent hash row = .ok ()) :
      Reachable durable { service with repository := some rows }

variable {parse hash} {durable : Bool}

/-- A snapshot as a process keeps it. -/
structure SealedDataset.IsSealed (hash : String → String) (durable : Bool)
    (dataset : SealedDataset) : Prop where
  described : dataset.IsDescribed hash
  firstPage : dataset.arguments.IsFirstPage
  whole : durable = true → dataset.arguments.IsWhole

structure DatasetService.Sealed (hash : String → String) (durable : Bool)
    (service : DatasetService) : Prop where
  configured : service.repository.isSome = durable
  snapshots : ∀ entry ∈ service.snapshots.rows, entry.IsSealed hash durable
  valid : ∀ rows, service.repository = some rows →
    ∀ row ∈ rows.rows, validateContent hash row = .ok ()

/-- What is read is the first page of the range that was asked for. -/
theorem readDataset_eq_ok {command : DatasetSnapshotCreateCommand} {answers : DatasetAnswers}
    {arguments : SnapshotArguments} (h : readDataset parse command answers = .ok arguments) :
    datasetRequest parse command answers.now =
      .ok ⟨arguments.pair, arguments.timeframe, arguments.range⟩ ∧ arguments.IsFirstPage := by
  obtain ⟨request, hrequest, h⟩ := bind_eq_ok.mp h
  obtain ⟨_, -, h⟩ := bind_eq_ok.mp h
  obtain ⟨page, hpage, h⟩ := bind_eq_ok.mp h
  obtain ⟨_, -, h⟩ := bind_eq_ok.mp h
  obtain rfl := pure_eq_ok.mp h
  obtain ⟨rows, cause, hrows, hpage⟩ := page_of_reads hpage
  refine ⟨?_, page_points hrows hpage⟩
  cases hvalid : datasetRequest parse command answers.now with
  | error error =>
    rw [hvalid] at hrequest
    cases hrequest
  | ok valid =>
    rw [hvalid] at hrequest
    obtain rfl := Except.ok.inj hrequest
    rfl

/-- Metadata that tell of a page what its own would tell. -/
structure DatasetSnapshotRef.Describes (hash : String → String) (ref : DatasetSnapshotRef)
    (arguments : SnapshotArguments) : Prop where
  pair_eq : ref.pair = arguments.pair
  timeframe_eq : ref.timeframe = arguments.timeframe
  range_eq : ref.range.toRange = arguments.range.toRange
  count_eq : ref.candleCount = arguments.candles.length
  sha256_eq : ref.sha256 = hash arguments.serialization

theorem isSealed_of_describes {ref : DatasetSnapshotRef} {arguments : SnapshotArguments}
    (h : ref.Describes hash arguments) (hfirst : arguments.IsFirstPage)
    (hwhole : durable = true → arguments.IsWhole) :
    (⟨ref, arguments.candles⟩ : SealedDataset).IsSealed hash durable ∧
      (⟨ref, arguments.candles⟩ : SealedDataset).arguments.serialization =
        arguments.serialization := by
  obtain ⟨pair, timeframe, range, candles⟩ := arguments
  obtain ⟨rfl, rfl, hrange, hcount, hsha⟩ := h
  simp only at hrange
  have hserial : (⟨ref, candles⟩ : SealedDataset).arguments.serialization =
      (⟨ref.pair, ref.timeframe, range, candles⟩ : SnapshotArguments).serialization := by
    simp only [SnapshotArguments.serialization, SealedDataset.arguments, hrange]
  refine ⟨⟨⟨hfirst.1, hcount, hsha.trans (congrArg hash hserial.symm)⟩,
    ⟨hfirst.1, ?_⟩, fun hdurable => ?_⟩, hserial⟩
  · simp only [SealedDataset.arguments, hrange]
    exact hfirst.2
  · simp only [SealedDataset.arguments, SnapshotArguments.IsWhole, hrange]
    exact hwhole hdurable

theorem isWhole_of_describes {ref : DatasetSnapshotRef} {arguments : SnapshotArguments}
    (h : ref.Describes hash arguments)
    (hwhole : (⟨ref, arguments.candles⟩ : SealedDataset).arguments.IsWhole) :
    arguments.IsWhole := by
  obtain ⟨pair, timeframe, range, candles⟩ := arguments
  obtain ⟨rfl, rfl, hrange, -, -⟩ := h
  simp only [SnapshotArguments.IsWhole, SealedDataset.arguments, hrange] at hwhole
  exact hwhole

/-- A stored row with the serialization of the page describes it as well. -/
theorem describes_of_row {row : SealedDataset} {arguments : SnapshotArguments}
    (hrow : row.IsDescribed hash)
    (hserial : row.arguments.serialization = arguments.serialization) :
    row.snapshot.Describes hash arguments := by
  obtain ⟨hpair, htimeframe, hrange, hcandles⟩ := serialization_eq_iff.mp hserial
  exact ⟨hpair, htimeframe, hrange, hrow.counted.trans hcandles.length_eq,
    hrow.hashed.trans (congrArg hash hserial)⟩

/-- The row that the repository answers with tells what was to be stored. -/
theorem createRow_eq_ok {rows after : Table SealedDataset.key} {dataset : SealedDataset}
    {failure : Option String} {persisted : DatasetSnapshotRef}
    (h : createRow hash rows dataset failure = .ok (persisted, after)) :
    validateContent hash dataset = .ok () ∧
      ((∃ row ∈ rows.rows, row.snapshot.sha256 = dataset.snapshot.sha256 ∧
          persisted = row.snapshot ∧ after = rows) ∨
        (persisted = dataset.snapshot ∧ after = rows.put dataset)) := by
  obtain ⟨_, hvalid, h⟩ := bind_eq_ok.mp h
  have hvalid : validateContent hash dataset = .ok () := by
    cases hcontent : validateContent hash dataset with
    | error error =>
      rw [hcontent] at hvalid
      cases hvalid
    | ok => rfl
  refine ⟨hvalid, ?_⟩
  cases failure with
  | some cause => cases h
  | none =>
    simp only at h
    split at h
    · rename_i row hrow
      have hanswer := pure_eq_ok.mp h
      simp only [Prod.mk.injEq] at hanswer
      exact Or.inl ⟨row, List.mem_of_find?_eq_some hrow,
        by simpa using List.find?_some hrow, hanswer.1.symm, hanswer.2.symm⟩
    · obtain ⟨_, -, h⟩ := bind_eq_ok.mp h
      have hanswer := pure_eq_ok.mp h
      simp only [Prod.mk.injEq] at hanswer
      exact Or.inr ⟨hanswer.1.symm, hanswer.2.symm⟩

/-- What a call that returns has done. -/
theorem createDatasetSnapshot_eq_ok {checked stored next : DatasetService}
    {command : DatasetSnapshotCreateCommand} {answers : DatasetAnswers} {ref : DatasetSnapshotRef}
    {arguments : SnapshotArguments} (hread : readDataset parse command answers = .ok arguments)
    (h : createDatasetSnapshot parse hash checked stored command answers = .ok (ref, next)) :
    (∃ entry ∈ checked.snapshots.rows, entry.snapshot.sha256 = hash arguments.serialization ∧
      ref = entry.snapshot ∧ next = checked) ∨
    ∃ drafted : DatasetSnapshotRef, drafted.Describes hash arguments ∧
      ((stored.repository = none ∧ ref = drafted ∧
          next = { stored with snapshots := stored.snapshots.put ⟨ref, arguments.candles⟩ }) ∨
        ∃ rows after, stored.repository = some rows ∧
          createRow hash rows ⟨drafted, arguments.candles⟩ answers.failure = .ok (ref, after) ∧
          next = { snapshots := stored.snapshots.put ⟨ref, arguments.candles⟩
                   repository := some after }) := by
  rw [createDatasetSnapshot, hread, ok_bind] at h
  simp only at h
  cases hfind : checked.snapshots.rows.find? fun entry =>
      entry.snapshot.sha256 = hash arguments.serialization with
  | some entry =>
    rw [hfind] at h
    have hanswer := Prod.mk.injEq _ _ _ _ ▸ pure_eq_ok.mp h
    exact Or.inl ⟨entry, List.mem_of_find?_eq_some hfind, by simpa using List.find?_some hfind,
      hanswer.1.symm, hanswer.2.symm⟩
  | none =>
    rw [hfind] at h
    obtain ⟨metadata, -, h⟩ := bind_eq_ok.mp h
    refine Or.inr ⟨⟨answers.id, arguments.pair, metadata, arguments.timeframe, arguments.range,
      arguments.candles.length, hash arguments.serialization, answers.createdAt⟩,
      ⟨rfl, rfl, rfl, rfl, rfl⟩, ?_⟩
    cases hrepository : stored.repository with
    | none =>
      simp only [hrepository] at h
      have hanswer := Prod.mk.injEq _ _ _ _ ▸ pure_eq_ok.mp h
      obtain ⟨rfl, rfl⟩ := hanswer
      exact Or.inl ⟨rfl, rfl, by rw [← hrepository]⟩
    | some rows =>
      simp only [hrepository] at h
      obtain ⟨⟨persisted, after⟩, hrow, h⟩ := bind_eq_ok.mp h
      have hanswer := Prod.mk.injEq _ _ _ _ ▸ pure_eq_ok.mp h
      obtain ⟨rfl, rfl⟩ := hanswer
      exact Or.inr ⟨rows, after, rfl, hrow, rfl⟩

theorem sealed_put {service : DatasetService} {entry : SealedDataset}
    (h : service.Sealed hash durable) (hentry : entry.IsSealed hash durable) :
    ∀ kept ∈ (service.snapshots.put entry).rows, kept.IsSealed hash durable := by
  intro kept hkept
  rcases Table.mem_rows_put hkept with rfl | hold
  · exact hentry
  · exact h.snapshots kept hold

/-- A snapshot that is returned is sealed with the serialization of its page, and what the service
and its repository hold stays sealed. -/
theorem sealed_create {checked stored next : DatasetService}
    {command : DatasetSnapshotCreateCommand} {answers : DatasetAnswers} {ref : DatasetSnapshotRef}
    {arguments : SnapshotArguments} (hchecked : checked.Sealed hash durable)
    (hstored : stored.Sealed hash durable)
    (hread : readDataset parse command answers = .ok arguments)
    (hfree : CollisionFree hash checked stored arguments)
    (h : createDatasetSnapshot parse hash checked stored command answers = .ok (ref, next)) :
    (∃ candles, next.snapshots.get? ref.id = some ⟨ref, candles⟩ ∧
      (⟨ref, candles⟩ : SealedDataset).IsSealed hash durable ∧
      (⟨ref, candles⟩ : SealedDataset).arguments.serialization = arguments.serialization) ∧
    next.Sealed hash durable := by
  have hfirst := (readDataset_eq_ok hread).2
  rcases createDatasetSnapshot_eq_ok hread h with
    ⟨entry, hmem, hsha, rfl, rfl⟩ | ⟨drafted, hdrafted, ⟨hnone, rfl, rfl⟩ |
      ⟨rows, after, hrows, hcreate, rfl⟩⟩
  · have hsealed := hchecked.snapshots entry hmem
    exact ⟨⟨entry.candles, Table.get?_of_mem_rows hmem, hsealed,
      hfree.1 entry hmem (hsealed.described.hashed.symm.trans hsha)⟩, hchecked⟩
  · have hdurable : durable = false := by
      rw [← hstored.configured, hnone]
      rfl
    have hwhole : durable = true → arguments.IsWhole := fun htrue => by
      rw [hdurable] at htrue
      cases htrue
    have hsealed := isSealed_of_describes hdrafted hfirst hwhole
    exact ⟨⟨arguments.candles, Table.get?_put_of_eq _ rfl, hsealed⟩, hstored.configured,
      sealed_put hstored hsealed.1, hstored.valid⟩
  · obtain ⟨hcontent, hcases⟩ := createRow_eq_ok hcreate
    have hwhole := isWhole_of_describes hdrafted (validateContent_eq_ok hcontent).2
    have href : ref.Describes hash arguments := by
      rcases hcases with ⟨row, hrow, hsha, rfl, -⟩ | ⟨rfl, -⟩
      · have hdescribed := (validateContent_eq_ok (hstored.valid rows hrows row hrow)).1
        rw [hdrafted.sha256_eq, hdescribed.hashed] at hsha
        exact describes_of_row hdescribed (hfree.2 rows hrows row hrow hsha)
      · exact hdrafted
    have hsealed := isSealed_of_describes href hfirst fun _ : durable = true => hwhole
    refine ⟨⟨arguments.candles, Table.get?_put_of_eq _ rfl, hsealed⟩, ?_,
      sealed_put hstored hsealed.1, ?_⟩
    · rw [← hstored.configured, hrows]
      rfl
    · rintro _ ⟨⟩ row hrow
      rcases hcases with ⟨-, -, -, -, rfl⟩ | ⟨rfl, rfl⟩
      · exact hstored.valid after hrows row hrow
      · rcases Table.mem_rows_put hrow with rfl | hold
        · exact hcontent
        · exact hstored.valid rows hrows row hold

/-- What a reachable service holds is sealed. -/
theorem Reachable.sealed {service : DatasetService}
    (h : Reachable parse hash durable service) : service.Sealed hash durable := by
  induction h with
  | start configured valid =>
    exact ⟨configured, fun entry hentry => absurd hentry List.not_mem_nil, valid⟩
  | @create checked stored next command answers ref _ _ free created hchecked hstored =>
    obtain ⟨arguments, hread, -⟩ := bind_eq_ok.mp created
    exact (sealed_create hchecked hstored hread (free arguments hread) created).2
  | elsewhere _ configured valid hbefore =>
    refine ⟨configured.symm, hbefore.snapshots, ?_⟩
    rintro _ ⟨⟩
    exact valid

/-- The lists that a service or its repository hold for a reference. -/
def DatasetService.Holds (service : DatasetService) (ref : DatasetSnapshotRef)
    (candles : List Candle) : Prop :=
  service.snapshots.get? ref.id = some ⟨ref, candles⟩ ∨
    ∃ rows, service.repository = some rows ∧ ⟨ref, candles⟩ ∈ rows.rows

/-- A returned reference tells what was asked for, and its page is kept under its id. -/
theorem sealed_of_created {checked stored next : DatasetService}
    {command : DatasetSnapshotCreateCommand} {answers : DatasetAnswers} {request : DatasetRequest}
    {ref : DatasetSnapshotRef} (hchecked : Reachable parse hash durable checked)
    (hstored : Reachable parse hash durable stored)
    (hfree : ∀ arguments, readDataset parse command answers = .ok arguments →
      CollisionFree hash checked stored arguments)
    (hvalid : datasetRequest parse command answers.now = .ok request)
    (h : createDatasetSnapshot parse hash checked stored command answers = .ok (ref, next)) :
    (ref.pair = request.pair ∧ ref.timeframe = request.timeframe ∧
      ref.range.toRange = request.range.toRange) ∧
    next.Sealed hash durable ∧
    ∃ candles, next.snapshots.get? ref.id = some ⟨ref, candles⟩ ∧
      (⟨ref, candles⟩ : SealedDataset).IsSealed hash durable := by
  obtain ⟨arguments, hread, -⟩ := bind_eq_ok.mp h
  obtain ⟨hrequest, -⟩ := readDataset_eq_ok hread
  obtain ⟨⟨candles, hget, hsealed, hserial⟩, hnext⟩ :=
    sealed_create hchecked.sealed hstored.sealed hread (hfree arguments hread) h
  obtain rfl := Except.ok.inj (hvalid.symm.trans hrequest)
  obtain ⟨hpair, htimeframe, hrange, -⟩ := serialization_eq_iff.mp hserial
  exact ⟨⟨hpair, htimeframe, hrange⟩, hnext, candles, hget, hsealed⟩

/-- What is kept of a page is complete where the range fits it. -/
theorem completes_iff_fits {request : DatasetRequest} {dataset : SealedDataset}
    (h : dataset.IsSealed hash durable)
    (htold : dataset.snapshot.pair = request.pair ∧
      dataset.snapshot.timeframe = request.timeframe ∧
      dataset.snapshot.range.toRange = request.range.toRange) :
    dataset.Completes hash request ↔
      gridSize request.range.toRange request.timeframe ≤ maxPageLimit := by
  have hsize : gridSize dataset.arguments.range.toRange dataset.arguments.timeframe =
      gridSize request.range.toRange request.timeframe :=
    congrArg₂ gridSize htold.2.2 htold.2.1
  rw [completes_iff request h.described htold.1 htold.2.1 htold.2.2, whole_iff h.firstPage, hsize]

/-- A returned reference stands for a complete dataset just where the service stores what it seals
in a repository or the range fits a page. -/
theorem snapshot_complete_iff {checked stored next : DatasetService}
    {command : DatasetSnapshotCreateCommand} {answers : DatasetAnswers} {request : DatasetRequest}
    {ref : DatasetSnapshotRef} (hchecked : Reachable parse hash durable checked)
    (hstored : Reachable parse hash durable stored)
    (hfree : ∀ arguments, readDataset parse command answers = .ok arguments →
      CollisionFree hash checked stored arguments)
    (hvalid : datasetRequest parse command answers.now = .ok request)
    (h : createDatasetSnapshot parse hash checked stored command answers = .ok (ref, next)) :
    ((∃ candles, next.Holds ref candles) ∧ ∀ candles, next.Holds ref candles →
      (⟨ref, candles⟩ : SealedDataset).Completes hash request) ↔
    durable = true ∨ gridSize request.range.toRange request.timeframe ≤ maxPageLimit := by
  obtain ⟨htold, hnext, candles, hget, hsealed⟩ :=
    sealed_of_created hchecked hstored hfree hvalid h
  constructor
  · rintro ⟨-, hall⟩
    exact Or.inr ((completes_iff_fits hsealed htold).mp (hall candles (Or.inl hget)))
  · intro hcondition
    refine ⟨⟨candles, Or.inl hget⟩, fun held hheld => ?_⟩
    rcases hheld with hmap | ⟨rows, hrows, hrow⟩
    · have hsame := Option.some.inj (hmap.symm.trans hget)
      obtain rfl : held = candles := congrArg SealedDataset.candles hsame
      rcases hcondition with hdurable | hsize
      · exact (completes_iff request hsealed.described htold.1 htold.2.1 htold.2.2).mpr
          (hsealed.whole hdurable)
      · exact (completes_iff_fits hsealed htold).mpr hsize
    · obtain ⟨hdescribed, hwhole⟩ := validateContent_eq_ok (hnext.valid rows hrows _ hrow)
      exact (completes_iff request hdescribed htold.1 htold.2.1 htold.2.2).mpr hwhole

end Runs

/-! A service without a repository and a store of consecutive minutes. -/
section Example

def memoryService : DatasetService := ⟨.empty, none⟩

theorem reachable_memoryService (parse : String → Option TimeValue) (hash : String → String) :
    Reachable parse hash false memoryService :=
  .start rfl fun _ h => nomatch h

theorem collisionFree_memoryService {hash : String → String} {arguments : SnapshotArguments} :
    CollisionFree hash memoryService memoryService arguments :=
  ⟨fun _ hmem => absurd hmem List.not_mem_nil, fun _ hnone => nomatch hnone⟩

def sampleCandle (minute : Fin 10001) : Candle where
  pair := btcUsdt
  timeframe := .m1
  timestamp := minute.val * 60000
  onGrid := ⟨Int.mul_emod_left _ _, by simp only [maxTimeValue]; omega⟩
  values := unitValues
  isClosed := true
  source := none

theorem sampleCandle_key_injective :
    Function.Injective fun minute => (sampleCandle minute).key := by
  intro left right h
  have htime : (left.val : Int) * 60000 = right.val * 60000 := congrArg (fun key => key.2.2) h
  exact Fin.ext (by omega)

def sampleStore (minutes : List (Fin 10001)) (h : minutes.Nodup) : Store where
  rows := ⟨minutes.map sampleCandle, by
    rw [List.map_map]
    exact h.map sampleCandle_key_injective⟩
  cache := fun _ _ => none

def sampleStart : String := "1970-01-01T00:00:00.000Z"

def sampleEnd : Nat → String
  | 3 => "1970-01-01T00:03:00.000Z"
  | _ => "1970-01-07T22:41:00.000Z"

def sampleParse (text : String) : Option TimeValue :=
  if text = sampleStart then some ⟨0, by decide⟩
  else if text = sampleEnd 3 then some ⟨180000, by decide⟩
  else if text = sampleEnd 10001 then some ⟨600060000, by decide⟩
  else none

def sampleCommand (minutes : Nat) : DatasetSnapshotCreateCommand where
  pair := "BTCUSDT"
  timeframe := "1m"
  range := ⟨sampleStart, sampleEnd minutes⟩

def sampleAnswers (store : Store) : DatasetAnswers where
  now := 600060000
  readNow := 600060000
  reads := List.replicate 5 (store, ⟨600060000, none, none⟩)
  metadata := .ok none
  id := "snapshot"
  createdAt := 600060000
  failure := none

/-- A read that finds no window in the cache answers with the rows of the repository. -/
theorem after_sampleAnswers (parse : String → Option TimeValue) (request : DatasetRequest)
    (minutes : List (Fin 10001)) (h : minutes.Nodup) :
    (Phase.providing (request.query 600060000)).after parse
        (sampleAnswers (sampleStore minutes h)).reads =
      .answered (((request.query 600060000).page (some request.range.toRange)
        (readRows (sampleStore minutes h).rows request.pair request.timeframe) none).mapError
          .exception) := rfl

/-- Rows that leave no gap make a page. -/
theorem page_of_covered {request : DatasetRequest} {now : Int} {rows : List Candle}
    (h : ∀ point ∈ gridPoints request.range.toRange request.timeframe,
      ∃ candle ∈ rows, candle.isClosed = true ∧ candle.timestamp = point) :
    ∃ page, (request.query now).page (some request.range.toRange) rows none = .ok page := by
  have hgaps : missingRanges (ReadRequest.closedIn (some request.range.toRange) rows)
      request.range.toRange request.timeframe = [] := by
    refine missingRanges_eq_nil.mpr fun point hpoint => ?_
    obtain ⟨candle, hmem, hclosed, rfl⟩ := h point hpoint
    obtain ⟨hfrom, hto, -⟩ := mem_gridPoints.mp hpoint
    refine ⟨candle, List.mem_filter.mpr ⟨hmem, ?_⟩, hclosed, rfl⟩
    simp [hclosed, hfrom, hto]
  simp only [ReadRequest.page, DatasetRequest.query, Option.getD_some, hgaps]
  exact ⟨_, rfl⟩

/-- A service without a repository seals what it reads without a gap. -/
theorem created_of_covered {request : DatasetRequest} {command : DatasetSnapshotCreateCommand}
    (parse : String → Option TimeValue) (hash : String → String)
    (minutes : List (Fin 10001)) (h : minutes.Nodup)
    (hvalid : datasetRequest parse command (sampleAnswers (sampleStore minutes h)).now =
      .ok request)
    (hstart : request.range.fromTime ≤ 600060000)
    (hcovered : ∀ point ∈ gridPoints request.range.toRange request.timeframe,
      ∃ minute ∈ minutes, isOf request.pair request.timeframe (sampleCandle minute) = true ∧
        (sampleCandle minute).timestamp = point) :
    ∃ ref next, createDatasetSnapshot parse hash memoryService memoryService command
      (sampleAnswers (sampleStore minutes h)) = .ok (ref, next) := by
  let rows := readRows (sampleStore minutes h).rows request.pair request.timeframe
  have hrows : Readable request.pair request.timeframe rows := readable_readRows _ _ _
  obtain ⟨page, hpage⟩ : ∃ page,
      (request.query 600060000).page (some request.range.toRange) rows none = .ok page := by
    refine page_of_covered fun point hpoint => ?_
    obtain ⟨minute, hminute, hof, htime⟩ := hcovered point hpoint
    exact ⟨sampleCandle minute, mem_readRows.mpr ⟨List.mem_map_of_mem hminute, hof⟩, rfl, htime⟩
  have hsome : page.candles.isEmpty = false := by
    have hfirst : request.range.fromTime ∈ gridPoints request.range.toRange request.timeframe :=
      mem_gridPoints.mpr ⟨le_rfl, request.range.nonempty, by simp⟩
    have hpoints := (page_points hrows hpage).2
    cases hcandles : page.candles with
    | cons candle candles => rfl
    | nil =>
      rw [hcandles, List.map_nil, eq_comm, List.take_eq_nil_iff] at hpoints
      rcases hpoints with hzero | hnil
      · cases hzero
      · rw [hnil] at hfirst
        cases hfirst
  have hread : readDataset parse command (sampleAnswers (sampleStore minutes h)) =
      .ok ⟨request.pair, request.timeframe, request.range, page.candles⟩ := by
    have hstarted : decide (600060000 < request.range.fromTime) = false :=
      decide_eq_false hstart.not_gt
    have hanswered : ((Phase.providing (request.query
        (sampleAnswers (sampleStore minutes h)).readNow)).after parse
          (sampleAnswers (sampleStore minutes h)).reads).page = .ok page := by
      refine (congrArg Phase.page (after_sampleAnswers parse request minutes h)).trans ?_
      rw [hpage]
      rfl
    have hnow : decide ((sampleAnswers (sampleStore minutes h)).readNow < request.range.fromTime) =
        false := hstarted
    rw [readDataset, hvalid, Except.mapError, ok_bind, hnow, throwIf_false, ok_bind, hanswered,
      ok_bind, hsome, throwIf_false, ok_bind]
    rfl
  rw [createDatasetSnapshot, hread, ok_bind]
  exact ⟨_, _, rfl⟩

def sampleRequest (minutes : Nat) (h : 0 < minutes ∧ minutes < 10002) : DatasetRequest where
  pair := btcUsdt
  timeframe := .m1
  range :=
    { fromTime := 0
      toTime := minutes * 60000
      fromOnGrid := isGridTime_zero .m1
      toOnGrid := ⟨Int.mul_emod_left _ _, by simp only [maxTimeValue]; omega⟩
      nonempty := by omega }

/-- The store holds a candle for every minute of the range. -/
theorem sampleStore_covers {minutes : List (Fin 10001)} {count : Nat}
    {hcount : 0 < count ∧ count < 10002}
    (h : ∀ minute : Fin 10001, minute.val < count → minute ∈ minutes) :
    ∀ point ∈ gridPoints (sampleRequest count hcount).range.toRange .m1,
      ∃ minute ∈ minutes, isOf (sampleRequest count hcount).pair .m1 (sampleCandle minute) = true ∧
        (sampleCandle minute).timestamp = point := by
  intro point hpoint
  obtain ⟨hfrom, hto, ⟨k, hk⟩⟩ := mem_gridPoints.mp hpoint
  simp only [sampleRequest, Timeframe.ms] at hfrom hto hk
  obtain ⟨minute, rfl⟩ := Int.eq_ofNat_of_zero_le (show 0 ≤ k by omega)
  refine ⟨⟨minute, by omega⟩, h _ (by simp only; omega), rfl, ?_⟩
  simp only [sampleCandle]
  omega

/-- Three minutes that are stored out of order. -/
def threeMinutes : List (Fin 10001) := [2, 0, 1]

theorem threeMinutes_nodup : threeMinutes.Nodup := by decide

theorem mem_threeMinutes {minute : Fin 10001} (h : minute.val < 3) : minute ∈ threeMinutes := by
  have hcases : minute = 0 ∨ minute = 1 ∨ minute = 2 := by omega
  rcases hcases with rfl | rfl | rfl <;> decide

/-- The snapshot has a candle at every point of the range, in order. -/
theorem three_minutes_complete :
    ∃ ref next, createDatasetSnapshot sampleParse id memoryService memoryService (sampleCommand 3)
        (sampleAnswers (sampleStore threeMinutes threeMinutes_nodup)) = .ok (ref, next) ∧
      gridPoints (sampleRequest 3 (by decide)).range.toRange .m1 = [0, 60000, 120000] ∧
      (∃ candles, next.Holds ref candles) ∧ ∀ candles, next.Holds ref candles →
        (⟨ref, candles⟩ : SealedDataset).Completes id (sampleRequest 3 (by decide)) := by
  have hvalid : datasetRequest sampleParse (sampleCommand 3)
      (sampleAnswers (sampleStore threeMinutes threeMinutes_nodup)).now =
        .ok (sampleRequest 3 (by decide)) := by decide +kernel
  obtain ⟨ref, next, h⟩ := created_of_covered sampleParse id threeMinutes threeMinutes_nodup hvalid
    (by decide) (sampleStore_covers fun minute hminute => mem_threeMinutes hminute)
  have hservice := reachable_memoryService sampleParse id
  have hfree : ∀ arguments, readDataset sampleParse (sampleCommand 3)
      (sampleAnswers (sampleStore threeMinutes threeMinutes_nodup)) = .ok arguments →
        CollisionFree id memoryService memoryService arguments :=
    fun _ _ => collisionFree_memoryService
  have hfits : gridSize (sampleRequest 3 (by decide)).range.toRange .m1 ≤ maxPageLimit := by
    decide
  have hcomplete := snapshot_complete_iff hservice hservice hfree hvalid h
  exact ⟨ref, next, h, by decide, hcomplete.mpr (Or.inr hfits)⟩

/-- The first ten thousand minutes are sealed as the whole of a longer range. -/
theorem long_range_incomplete :
    ¬ ∀ (parse : String → Option TimeValue) (hash : String → String) (durable : Bool)
      (checked stored next : DatasetService) (command : DatasetSnapshotCreateCommand)
      (answers : DatasetAnswers) (request : DatasetRequest) (ref : DatasetSnapshotRef),
      Reachable parse hash durable checked → Reachable parse hash durable stored →
      (∀ arguments, readDataset parse command answers = .ok arguments →
        CollisionFree hash checked stored arguments) →
      datasetRequest parse command answers.now = .ok request →
      createDatasetSnapshot parse hash checked stored command answers = .ok (ref, next) →
      (∃ candles, next.Holds ref candles) ∧ ∀ candles, next.Holds ref candles →
        (⟨ref, candles⟩ : SealedDataset).Completes hash request := by
  intro hclaim
  obtain ⟨minutes, hminutes, hall⟩ :
      ∃ minutes : List (Fin 10001), minutes.Nodup ∧ ∀ minute, minute ∈ minutes :=
    ⟨List.finRange 10001, List.nodup_finRange _, List.mem_finRange⟩
  have hvalid : datasetRequest sampleParse (sampleCommand 10001)
      (sampleAnswers (sampleStore minutes hminutes)).now =
        .ok (sampleRequest 10001 (by decide)) := by
    change datasetRequest sampleParse (sampleCommand 10001) 600060000 = _
    decide +kernel
  obtain ⟨ref, next, h⟩ := created_of_covered sampleParse id minutes hminutes hvalid
    (by decide) (sampleStore_covers fun minute _ => hall minute)
  have hservice := reachable_memoryService sampleParse id
  have hfree : ∀ arguments, readDataset sampleParse (sampleCommand 10001)
      (sampleAnswers (sampleStore minutes hminutes)) = .ok arguments →
        CollisionFree id memoryService memoryService arguments :=
    fun _ _ => collisionFree_memoryService
  obtain ⟨htold, -, candles, hget, hsealed⟩ :=
    sealed_of_created hservice hservice hfree hvalid h
  obtain ⟨-, hwhole⟩ := hclaim sampleParse id false memoryService memoryService next
    (sampleCommand 10001) (sampleAnswers (sampleStore minutes hminutes))
    (sampleRequest 10001 (by decide)) ref hservice hservice hfree hvalid h
  have hfits : gridSize (sampleRequest 10001 (by decide)).range.toRange .m1 ≤ maxPageLimit :=
    (completes_iff_fits hsealed htold).mp (hwhole candles (Or.inl hget))
  revert hfits
  decide

end Example

end Cryptox.MarketData
