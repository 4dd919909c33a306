import Cryptox.Sentiment.AsOf

/-!
# No look-ahead through a snapshot

What a simulation reads at a close depends on the results published up to it. A snapshot may be one
that an earlier call has sealed with the same hash.
-/
namespace Cryptox.Sentiment

open Cryptox.Backtesting (Calendar Candle JsNumber SimulationInput candleCloseTime
  Simulation.sentimentRead sentimentReadAt)
open Cryptox.Library

section Runs

variable (parse : String → Option Instant)
  (hash : SnapshotCommand → List SentimentSnapshotPoint → String) (durable : Bool)

/-- The hash of what is sealed is not that of another command or of other points. -/
def CollisionFree (snapshots : SnapshotTable) (command : SnapshotCommand)
    (points : List SentimentSnapshotPoint) : Prop :=
  ∀ row ∈ snapshots.rows, hash row.ref.command row.points = hash command points →
    row.ref.command = command ∧ row.points = points

/-- A call that returns a reference, of a service whose hashes do not collide. -/
structure Creates (results : List StoredResult) (snapshots : SnapshotTable)
    (command : CreateSentimentSnapshotCommand) (ref : SentimentDatasetSnapshotRef)
    (next : SnapshotTable) : Prop where
  created : ∃ id createdAt,
    createSnapshot parse hash durable results snapshots command id createdAt = .ok (ref, next)
  free : ∀ normalized points, validateSnapshotCommand parse command = .ok normalized →
    aggregateSnapshotPoints normalized (readForSnapshot normalized durable results) = .ok points →
      CollisionFree hash snapshots normalized points

/-- The snapshots that calls have left, each with the results of its own time. -/
inductive Reachable : SnapshotTable → Prop where
  | start : Reachable .empty
  | create {results : List StoredResult} {snapshots next : SnapshotTable}
      {command : CreateSentimentSnapshotCommand} {ref : SentimentDatasetSnapshotRef}
      (before : Reachable snapshots)
      (call : Creates parse hash durable results snapshots command ref next) : Reachable next

/-- A snapshot that a call returns and a reader then reads. -/
def Created (command : CreateSentimentSnapshotCommand) (results : List StoredResult)
    (snapshot : SealedSentimentSnapshot) : Prop :=
  ∃ snapshots next, Reachable parse hash durable snapshots ∧
    Creates parse hash durable results snapshots command snapshot.ref next ∧
      readSnapshot next snapshot.ref.id = .ok snapshot

variable {parse hash durable}

/-- What is stored is sealed: the points of its command, counted and hashed. -/
structure SealedSentimentSnapshot.IsSealed
    (hash : SnapshotCommand → List SentimentSnapshotPoint → String)
    (snapshot : SealedSentimentSnapshot) : Prop where
  aggregated : ∃ rows, Aggregates snapshot.ref.command rows snapshot.points
  counted : snapshot.ref.pointCount = snapshot.points.length
  hashed : snapshot.ref.sha256 = hash snapshot.ref.command snapshot.points

/-- A sealed snapshot is read as it is. -/
theorem readSnapshot_of_sealed {snapshots : SnapshotTable} {snapshot : SealedSentimentSnapshot}
    (hget : snapshots.get? snapshot.ref.id = some snapshot) (h : snapshot.IsSealed hash) :
    readSnapshot snapshots snapshot.ref.id = .ok snapshot := by
  obtain ⟨rows, haggregates⟩ := h.aggregated
  have hpoints : snapshot.points.mapM validateSnapshotPoint = .ok snapshot.points := by
    have hvalid : ∀ point ∈ snapshot.points,
        ∃ checked, validateSnapshotPoint point = .ok checked ∧ id checked = id point := by
      intro point hpoint
      obtain ⟨hlow, hhigh⟩ := abs_le.mp (haggregates.bounded point hpoint)
      refine ⟨point, ?_, rfl⟩
      have hrange : (decide (point.averageScore < -1) || decide (1 < point.averageScore)) =
          false := by simp [hlow, hhigh]
      rw [validateSnapshotPoint, hrange]
      rfl
    obtain ⟨checked, hchecked, hsame⟩ := mapM_eq_ok_of_forall _ id id hvalid
    rw [List.map_id, List.map_id] at hsame
    rw [hchecked, hsame]
  have hnodup : (snapshot.points.map (·.timestamp)).Nodup :=
    haggregates.increasing.imp fun h => h.ne
  have hcheck : (decide (snapshot.points.length ≠ snapshot.ref.pointCount) ||
      !decide (snapshot.points.map (·.timestamp)).Nodup) = false := by simp [h.counted, hnodup]
  rw [readSnapshot, hget]
  simp only [hpoints, ok_bind]
  rw [hcheck]
  rfl

/-- A call returns the reference of its own points, and leaves what is stored sealed. -/
theorem sealed_create {results : List StoredResult} {snapshots next : SnapshotTable}
    {command : CreateSentimentSnapshotCommand} {ref : SentimentDatasetSnapshotRef}
    (hsealed : ∀ row ∈ snapshots.rows, row.IsSealed hash)
    (h : Creates parse hash durable results snapshots command ref next) :
    (∀ row ∈ next.rows, row.IsSealed hash) ∧
      validateSnapshotCommand parse command = .ok ref.command ∧
      ∃ points, aggregateSnapshotPoints ref.command (readForSnapshot ref.command durable results) =
        .ok points ∧ next.get? ref.id = some ⟨ref, points⟩ := by
  obtain ⟨⟨id, createdAt, hcreated⟩, hfree⟩ := h
  obtain ⟨normalized, hvalid, hcreated⟩ := bind_eq_ok.mp hcreated
  obtain ⟨points, hpoints, hcreated⟩ := bind_eq_ok.mp hcreated
  obtain ⟨_, -, hcreated⟩ := bind_eq_ok.mp hcreated
  have hinserted := pure_eq_ok.mp hcreated
  rw [insertSealed] at hinserted
  cases hfind : snapshots.rows.find? fun row => row.ref.sha256 = hash normalized points with
  | some existing =>
    rw [hfind] at hinserted
    simp only [Prod.mk.injEq] at hinserted
    obtain ⟨rfl, rfl⟩ := hinserted
    have hmem := List.mem_of_find?_eq_some hfind
    have hsha : existing.ref.sha256 = hash normalized points := by
      simpa using List.find?_some hfind
    obtain ⟨rfl, rfl⟩ := hfree normalized points hvalid hpoints existing hmem
      ((hsealed existing hmem).hashed.symm.trans hsha)
    exact ⟨hsealed, hvalid, existing.points, hpoints, Table.get?_of_mem_rows hmem⟩
  | none =>
    rw [hfind] at hinserted
    simp only [Prod.mk.injEq] at hinserted
    obtain ⟨rfl, rfl⟩ := hinserted
    refine ⟨fun row hrow => ?_, hvalid, points, hpoints, Table.get?_put_of_eq _ rfl⟩
    rcases Table.mem_rows_put hrow with rfl | hold
    · exact ⟨⟨_, aggregates_of_ok hpoints⟩, rfl, rfl⟩
    · exact hsealed row hold

theorem Reachable.sealed {snapshots : SnapshotTable}
    (h : Reachable parse hash durable snapshots) : ∀ row ∈ snapshots.rows, row.IsSealed hash := by
  induction h with
  | start => exact fun row hrow => absurd hrow List.not_mem_nil
  | create _ call hbefore => exact (sealed_create hbefore call).1

/-- What a call returns is read back. -/
theorem exists_created {results : List StoredResult} {snapshots next : SnapshotTable}
    {command : CreateSentimentSnapshotCommand} {ref : SentimentDatasetSnapshotRef}
    (hreachable : Reachable parse hash durable snapshots)
    (h : Creates parse hash durable results snapshots command ref next) :
    ∃ snapshot, snapshot.ref = ref ∧ Created parse hash durable command results snapshot := by
  obtain ⟨hsealed, -, points, -, hget⟩ := sealed_create hreachable.sealed h
  exact ⟨⟨ref, points⟩, rfl, snapshots, next, hreachable, h,
    readSnapshot_of_sealed hget (hsealed _ (Table.mem_rows_of_get? hget))⟩

/-- What is read tells the results of the call. -/
theorem Created.spec {command : CreateSentimentSnapshotCommand} {results : List StoredResult}
    {snapshot : SealedSentimentSnapshot}
    (h : Created parse hash durable command results snapshot) :
    validateSnapshotCommand parse command = .ok snapshot.ref.command ∧
      Aggregates snapshot.ref.command (readForSnapshot snapshot.ref.command durable results)
        snapshot.points := by
  obtain ⟨snapshots, next, hreachable, hcreates, hread⟩ := h
  obtain ⟨hsealed, hvalid, points, hpoints, hget⟩ := sealed_create hreachable.sealed hcreates
  have hstored := readSnapshot_of_sealed hget (hsealed _ (Table.mem_rows_of_get? hget))
  rw [hread] at hstored
  have hsame : snapshot = ⟨snapshot.ref, points⟩ := Except.ok.inj hstored
  have hpoints' : snapshot.points = points := congrArg SealedSentimentSnapshot.points hsame
  rw [hpoints']
  exact ⟨hvalid, aggregates_of_ok hpoints⟩

end Runs

section Order

variable {command : SnapshotCommand} {left right : List StoredResult}

theorem readForSnapshot_perm (durable : Bool) (h : left.Perm right) :
    (readForSnapshot command durable left).Perm (readForSnapshot command durable right) := by
  have hfiltered := h.filter fun row => row.isFor command && row.isPublishedIn command
  cases durable with
  | false => exact hfiltered
  | true =>
    have hleft := List.perm_insertionSort StoredResult.Before
      (left.filter fun row => row.isFor command && row.isPublishedIn command)
    have hright := List.perm_insertionSort StoredResult.Before
      (right.filter fun row => row.isFor command && row.isPublishedIn command)
    exact (hleft.trans hfiltered).trans hright.symm

variable (command) in
theorem scoresAt_perm (h : left.Perm right) (timestamp : Int) :
    (scoresAt command left timestamp).Perm (scoresAt command right timestamp) :=
  (h.filter _).map _

/-- A result counts at one point. -/
theorem eq_of_countsAt {rows : List StoredResult} {points : List SentimentSnapshotPoint}
    (h : Aggregates command rows points) {row : StoredResult} {p q : SentimentSnapshotPoint}
    (hp : p ∈ points) (hq : q ∈ points) (hcp : countsAt command p.timestamp row = true)
    (hcq : countsAt command q.timestamp row = true) : p = q := by
  obtain ⟨hpend, -, hpoint⟩ := (h.mem_iff p).mp hp
  obtain ⟨hqend, -, hqpoint⟩ := (h.mem_iff q).mp hq
  have htime : p.timestamp = q.timestamp := by
    simp only [countsAt, StoredResult.isPublishedIn, Bool.and_eq_true, decide_eq_true_eq]
      at hcp hcq
    obtain ⟨⟨-, hfrom, hto⟩, hpin⟩ := hcp
    have hpcomputed := (command.windowEnd_eq_iff _ hfrom hto.le).mpr ⟨hpend, hpin⟩
    have hqcomputed := (command.windowEnd_eq_iff _ hfrom hto.le).mpr ⟨hqend, hcq.2⟩
    exact_mod_cast hpcomputed.2.symm.trans hqcomputed.2
  rw [hpoint, hqpoint, htime]

/-- Two strictly increasing lists of the same members are one. -/
theorem eq_of_increasing {xs ys : List Int} (hx : xs.Pairwise (· < ·)) (hy : ys.Pairwise (· < ·))
    (h : ∀ t, t ∈ xs ↔ t ∈ ys) : xs = ys :=
  ((List.perm_ext_iff_of_nodup (hx.imp ne_of_lt) (hy.imp ne_of_lt)).mpr h).eq_of_pairwise
    (fun _ _ _ _ hab hba => absurd hab hba.not_gt) hx hy

theorem mem_timestamps {rows : List StoredResult} {points : List SentimentSnapshotPoint}
    (h : Aggregates command rows points) (timestamp : Int) :
    timestamp ∈ points.map (·.timestamp) ↔
      command.IsWindowEnd timestamp ∧ scoresAt command rows timestamp ≠ [] := by
  constructor
  · intro hmem
    obtain ⟨point, hpoint, rfl⟩ := List.mem_map.mp hmem
    obtain ⟨hend, hne, -⟩ := (h.mem_iff point).mp hpoint
    exact ⟨hend, hne⟩
  · rintro ⟨hend, hne⟩
    exact List.mem_map.mpr
      ⟨pointAt command rows timestamp, (h.mem_iff _).mpr ⟨hend, hne, rfl⟩, rfl⟩

/-- Another order of the rows keeps the points but for a rounding of their averages. -/
theorem aggregates_perm {lpoints rpoints : List SentimentSnapshotPoint} (h : left.Perm right)
    (hleft : Aggregates command left lpoints) (hright : Aggregates command right rpoints) :
    lpoints.map (·.timestamp) = rpoints.map (·.timestamp) ∧
      ∀ p ∈ lpoints, ∀ q ∈ rpoints, p.timestamp = q.timestamp →
        |p.averageScore - q.averageScore| ≤
          2 * roundingBound (scoresAt command left p.timestamp).length := by
  constructor
  · refine eq_of_increasing hleft.increasing hright.increasing fun t => ?_
    rw [mem_timestamps hleft, mem_timestamps hright]
    have hnil : scoresAt command left t = [] ↔ scoresAt command right t = [] := by
      rw [← List.length_eq_zero_iff, (scoresAt_perm command h t).length_eq, List.length_eq_zero_iff]
    exact and_congr_right fun _ => not_congr hnil
  · intro p hp q hq htime
    obtain ⟨-, hpne, hpoint⟩ := (hleft.mem_iff p).mp hp
    obtain ⟨-, hqne, hqpoint⟩ := (hright.mem_iff q).mp hq
    have hscores := scoresAt_perm command h p.timestamp
    rw [← htime] at hqne hqpoint
    have hpaverage : p.averageScore = averageScore (scoresAt command left p.timestamp) :=
      congrArg SentimentSnapshotPoint.averageScore hpoint
    have hqaverage : q.averageScore = averageScore (scoresAt command right p.timestamp) :=
      congrArg SentimentSnapshotPoint.averageScore hqpoint
    have hpnear := averageScore_near hpne abs_scoresAt_le (hpaverage ▸ hleft.bounded p hp)
    have hqnear := averageScore_near hqne abs_scoresAt_le (hqaverage ▸ hright.bounded q hq)
    have hmean : mean (scoresAt command right p.timestamp) =
        mean (scoresAt command left p.timestamp) := by
      rw [mean, mean, hscores.sum_eq, hscores.length_eq]
    rw [hmean, ← hscores.length_eq] at hqnear
    rw [hpaverage, hqaverage]
    have htriangle := abs_sub_le (averageScore (scoresAt command left p.timestamp))
      (mean (scoresAt command left p.timestamp))
      (averageScore (scoresAt command right p.timestamp))
    rw [abs_sub_comm (mean _)] at htriangle
    linarith

end Order

section AsOf

variable {command : SnapshotCommand} {rows : List StoredResult} {timestamp close : Int}

/-- The results that were published by then. -/
def publishedBy (close : Int) (results : List StoredResult) : List StoredResult :=
  results.filter fun row => row.news.publishedAt.val ≤ close

theorem readForSnapshot_publishedBy (durable : Bool) (results : List StoredResult) :
    publishedBy close (readForSnapshot command durable results) =
      readForSnapshot command durable (publishedBy close results) := by
  cases durable with
  | false =>
    simp only [readForSnapshot, publishedBy, Bool.false_eq_true, if_false, List.filter_filter,
      Bool.and_comm]
  | true =>
    simp only [readForSnapshot, publishedBy, if_true, filter_insertionSort, List.filter_filter,
      Bool.and_comm]

/-- The scores of a window were published by its end. -/
theorem scoresAt_publishedBy (hclose : timestamp ≤ close) :
    scoresAt command (publishedBy close rows) timestamp = scoresAt command rows timestamp := by
  have hpos := command.window_pos
  rw [scoresAt, scoresAt, publishedBy, List.filter_filter]
  congr 1
  refine List.filter_congr fun row _ => ?_
  cases hcounts : countsAt command timestamp row with
  | false => rfl
  | true =>
    simp only [countsAt, Bool.and_eq_true, decide_eq_true_eq] at hcounts
    have hby : row.news.publishedAt.val ≤ close := by
      rcases hcounts.2 with ⟨-, hle⟩ | ⟨hstart, hend⟩ <;> omega
    simp [hby]

/-- Snapshots of one command whose results agree up to a close tell the same at it. -/
theorem pointForCandle_congr {left right : SealedSentimentSnapshot}
    {lrows rrows : List StoredResult} (hcommand : left.ref.command = right.ref.command)
    (hleft : Aggregates left.ref.command lrows left.points)
    (hright : Aggregates right.ref.command rrows right.points)
    (h : publishedBy close lrows = publishedBy close rrows) :
    pointForCandle left left.ref.id (some close) =
      pointForCandle right right.ref.id (some close) := by
  have hscores : ∀ t, t ≤ close →
      scoresAt left.ref.command lrows t = scoresAt left.ref.command rrows t := by
    intro t hle
    rw [← scoresAt_publishedBy hle, h, scoresAt_publishedBy hle]
  refine Option.ext fun point => ?_
  rw [pointForCandle_eq_some_iff hleft, pointForCandle_eq_some_iff hright, hleft.mem_iff,
    hright.mem_iff, ← hcommand]
  constructor
  · rintro ⟨-, ⟨hend, hne, hpoint⟩, hclose⟩
    have hle := (Option.some.inj hclose).ge
    rw [pointAt, hscores _ hle] at hpoint
    exact ⟨rfl, ⟨hend, hscores _ hle ▸ hne, hpoint⟩, hclose⟩
  · rintro ⟨-, ⟨hend, hne, hpoint⟩, hclose⟩
    have hle := (Option.some.inj hclose).ge
    rw [pointAt, ← hscores _ hle] at hpoint
    exact ⟨rfl, ⟨hend, hscores _ hle ▸ hne, hpoint⟩, hclose⟩

theorem pointForCandle_none (snapshot : SealedSentimentSnapshot) (snapshotId : String) :
    pointForCandle snapshot snapshotId none = none := by
  rw [pointForCandle]
  by_cases hid : snapshot.ref.id = snapshotId <;> simp [hid]

/-- Of the results only those published up to the close reach a simulation at it. -/
theorem sentimentRead_congr {left right : SealedSentimentSnapshot}
    {lrows rrows : List StoredResult} (calendar : Calendar) (input : SimulationInput)
    (candle : Candle) (parseDate : String → Option Int) (shown : ℚ → JsNumber)
    (hcommand : left.ref.command = right.ref.command)
    (hleft : Aggregates left.ref.command lrows left.points)
    (hright : Aggregates right.ref.command rrows right.points)
    (h : ∀ text close, candleCloseTime calendar candle.timestamp input.timeframe = .ok text →
      parseDate text = some close → publishedBy close lrows = publishedBy close rrows) :
    Simulation.sentimentRead calendar
        { input with sentimentAt := some (simulatedSentiment parseDate shown left) } candle =
      Simulation.sentimentRead calendar
        { input with sentimentAt := some (simulatedSentiment parseDate shown right) } candle := by
  simp only [Simulation.sentimentRead]
  cases htext : candleCloseTime calendar candle.timestamp input.timeframe with
  | error error => simp only [error_bind]
  | ok text =>
    have hpoint : pointForCandle left left.ref.id (parseDate text) =
        pointForCandle right right.ref.id (parseDate text) := by
      cases hclose : parseDate text with
      | none => rw [pointForCandle_none, pointForCandle_none]
      | some close => exact pointForCandle_congr hcommand hleft hright (h text close htext hclose)
    simp only [ok_bind, simulatedSentiment, sentimentReadAt, hpoint]

end AsOf

section AsOfClose

variable (parse : String → Option Instant)
  (hash : SnapshotCommand → List SentimentSnapshotPoint → String) (durable : Bool)
  (command : CreateSentimentSnapshotCommand)

/-- The points of a snapshot are the averages of the windows, each result in one of them; they are
found at their own closes. The order of the rows shows in the rounding of an average only, and what
a simulation reads at a close comes from results published up to it. -/
theorem sentiment_as_of :
    (∀ results snapshots ref next, Reachable parse hash durable snapshots →
      Creates parse hash durable results snapshots command ref next →
        ∃ snapshot, snapshot.ref = ref ∧ Created parse hash durable command results snapshot) ∧
    (∀ results snapshot, Created parse hash durable command results snapshot →
      Aggregates snapshot.ref.command (readForSnapshot snapshot.ref.command durable results)
        snapshot.points ∧
      (∀ point ∈ snapshot.points, |point.averageScore - mean (scoresAt snapshot.ref.command
        (readForSnapshot snapshot.ref.command durable results) point.timestamp)| ≤
          roundingBound (scoresAt snapshot.ref.command
            (readForSnapshot snapshot.ref.command durable results) point.timestamp).length) ∧
      (∀ row ∈ results, ∀ p ∈ snapshot.points, ∀ q ∈ snapshot.points,
        countsAt snapshot.ref.command p.timestamp row = true →
        countsAt snapshot.ref.command q.timestamp row = true → p = q) ∧
      ∀ snapshotId close point, pointForCandle snapshot snapshotId close = some point ↔
        snapshot.ref.id = snapshotId ∧ point ∈ snapshot.points ∧
          close = some point.timestamp) ∧
    (∀ left right lsnapshot rsnapshot, Created parse hash durable command left lsnapshot →
      Created parse hash durable command right rsnapshot → left.Perm right →
        lsnapshot.points.map (·.timestamp) = rsnapshot.points.map (·.timestamp) ∧
        ∀ p ∈ lsnapshot.points, ∀ q ∈ rsnapshot.points, p.timestamp = q.timestamp →
          |p.averageScore - q.averageScore| ≤ 2 * roundingBound (scoresAt lsnapshot.ref.command
            (readForSnapshot lsnapshot.ref.command durable left) p.timestamp).length) ∧
    ∀ left right lsnapshot rsnapshot, Created parse hash durable command left lsnapshot →
      Created parse hash durable command right rsnapshot →
      ∀ (calendar : Calendar) (input : SimulationInput) (candle : Candle)
        (parseDate : String → Option Int) (shown : ℚ → JsNumber),
        (∀ text close, candleCloseTime calendar candle.timestamp input.timeframe = .ok text →
          parseDate text = some close → publishedBy close left = publishedBy close right) →
        Simulation.sentimentRead calendar
            { input with sentimentAt := some (simulatedSentiment parseDate shown lsnapshot) }
            candle =
          Simulation.sentimentRead calendar
            { input with sentimentAt := some (simulatedSentiment parseDate shown rsnapshot) }
            candle := by
  refine ⟨fun results snapshots ref next hreachable hcreates =>
    exists_created hreachable hcreates, ?_, ?_, ?_⟩
  · intro results snapshot hcreated
    obtain ⟨-, haggregates⟩ := hcreated.spec
    refine ⟨haggregates, fun point hpoint => ?_, fun row _ p hp q hq hcp hcq => ?_,
      fun snapshotId close point => pointForCandle_eq_some_iff haggregates⟩
    · obtain ⟨-, hne, heq⟩ := (haggregates.mem_iff point).mp hpoint
      have haverage := congrArg SentimentSnapshotPoint.averageScore heq
      have hbound := haggregates.bounded point hpoint
      rw [haverage] at hbound ⊢
      exact averageScore_near hne abs_scoresAt_le hbound
    · exact eq_of_countsAt haggregates hp hq hcp hcq
  · intro left right lsnapshot rsnapshot hleft hright hperm
    obtain ⟨hlvalid, hlaggregates⟩ := hleft.spec
    obtain ⟨hrvalid, hraggregates⟩ := hright.spec
    have hcommand := Except.ok.inj (hrvalid.symm.trans hlvalid)
    rw [hcommand] at hraggregates
    exact aggregates_perm (readForSnapshot_perm durable hperm) hlaggregates hraggregates
  · intro left right lsnapshot rsnapshot hleft hright calendar input candle parseDate shown hagree
    obtain ⟨hlvalid, hlaggregates⟩ := hleft.spec
    obtain ⟨hrvalid, hraggregates⟩ := hright.spec
    have hcommand := Except.ok.inj (hlvalid.symm.trans hrvalid)
    refine sentimentRead_congr calendar input candle parseDate shown hcommand hlaggregates
      hraggregates fun text close htext hclose => ?_
    rw [readForSnapshot_publishedBy, readForSnapshot_publishedBy, hagree text close htext hclose,
      hcommand]

end AsOfClose

/-! Three results in the first of three windows, the last score so small that it is rounded when it
is added to one. -/
section Example

def exampleParse (text : String) : Option Instant :=
  if text = "1970-01-01T00:00:00.000Z" then some ⟨0, by decide⟩
  else if text = "1970-01-01T00:15:00.000Z" then some ⟨900000, by decide⟩
  else none

def exampleSnapshotCommand : CreateSentimentSnapshotCommand where
  relatedCoin := "BTC"
  fromTime := "1970-01-01T00:00:00.000Z"
  toTime := "1970-01-01T00:15:00.000Z"
  aggregationWindowSeconds := .finite (.ofInt 300 (by norm_num))
  modelName := "demo-model"
  modelVersion := "1"
  modelSha256 := "aaaaaaaaaaaaaaaaaaaaaaaaaaaaaaaaaaaaaaaaaaaaaaaaaaaaaaaaaaaaaaaa"

def tinyScore : Binary64 :=
  ⟨1729383 / 2 ^ 60, 1729383, -60, by norm_num, by norm_num, by norm_num, by norm_num⟩

def exampleResult (newsId : String) (score : Binary64) (inRange : |score.toRat| ≤ 1) :
    StoredResult where
  news := { newsId, publishedAt := ⟨60000, by decide⟩, relatedCoins := ["BTC"] }
  label := .neutral
  score
  inRange
  modelName := "demo-model"
  modelVersion := "1"
  analyzedAt := ⟨120000, by decide⟩

def praise : StoredResult :=
  exampleResult "one" (.ofInt 1 abs_one_lt) (by norm_num [Binary64.ofInt])

def blame : StoredResult :=
  exampleResult "two" (.ofInt (-1) (by norm_num)) (by norm_num [Binary64.ofInt])

def remark : StoredResult := exampleResult "three" tinyScore (by norm_num [tinyScore])

theorem exists_created_example (results : List StoredResult)
    (h : (createSnapshot exampleParse (fun _ _ => "") false results .empty exampleSnapshotCommand
      "snapshot" 0).toBool = true) :
    ∃ snapshot, Created exampleParse (fun _ _ => "") false exampleSnapshotCommand results
      snapshot := by
  obtain ⟨⟨ref, next⟩, hcreated⟩ := exists_ok h
  have hcreates : Creates exampleParse (fun _ _ => "") false results .empty
      exampleSnapshotCommand ref next :=
    ⟨⟨"snapshot", 0, hcreated⟩, fun _ _ _ _ row hrow => absurd hrow List.not_mem_nil⟩
  obtain ⟨snapshot, -, hsnapshot⟩ := exists_created Reachable.start hcreates
  exact ⟨snapshot, hsnapshot⟩

/-- The command as it is read. -/
def exampleNormalized : SnapshotCommand where
  relatedCoin := "BTC"
  fromTime := ⟨0, by decide⟩
  toTime := ⟨900000, by decide⟩
  nonempty := by decide
  windowSeconds := 300
  positive := by decide
  isDouble := isDouble_intCast (by norm_num)
  modelName := "demo-model"
  modelVersion := "1"
  modelSha256 := "aaaaaaaaaaaaaaaaaaaaaaaaaaaaaaaaaaaaaaaaaaaaaaaaaaaaaaaaaaaaaaaa"

theorem validate_example :
    validateSnapshotCommand exampleParse exampleSnapshotCommand = .ok exampleNormalized := by
  decide +kernel

theorem isWindowEnd_example : exampleNormalized.IsWindowEnd 300000 :=
  ⟨1, le_rfl, rfl, by decide⟩

/-- The in-memory reader keeps the order of the results it does not filter out. -/
theorem readForSnapshot_example (results : List StoredResult)
    (h : ∀ row ∈ results, (row.isFor exampleNormalized && row.isPublishedIn exampleNormalized) = true) :
    readForSnapshot exampleNormalized false results = results :=
  List.filter_eq_self.mpr h

theorem points_differ : pointAt exampleNormalized [praise, blame, remark] 300000 ≠
    pointAt exampleNormalized [praise, remark, blame] 300000 := by
  decide +kernel

theorem first_close_found :
    ∃ snapshot, Created exampleParse (fun _ _ => "") false exampleSnapshotCommand [praise, blame]
        snapshot ∧
      pointForCandle snapshot snapshot.ref.id (some 300000) = some ⟨300000, .neutral, 0⟩ := by
  obtain ⟨snapshot, hsnapshot⟩ := exists_created_example [praise, blame] (by decide +kernel)
  have hcommand := Except.ok.inj (hsnapshot.spec.1.symm.trans validate_example)
  obtain ⟨haggregates, -, -, hfound⟩ := (sentiment_as_of exampleParse (fun _ _ => "") false
    exampleSnapshotCommand).2.1 _ _ hsnapshot
  refine ⟨snapshot, hsnapshot, (hfound _ _ _).mpr ⟨rfl, (haggregates.mem_iff _).mpr ?_, rfl⟩⟩
  have hscores : scoresAt exampleNormalized [praise, blame] 300000 ≠ [] := by decide
  have hpoint : (⟨300000, .neutral, 0⟩ : SentimentSnapshotPoint) =
      pointAt exampleNormalized [praise, blame] 300000 := by decide +kernel
  rw [hcommand, readForSnapshot_example [praise, blame] (by decide)]
  exact ⟨isWindowEnd_example, hscores, hpoint⟩

/-- The same three results average to a positive score or to zero. -/
theorem average_depends_on_order :
    ¬ ∀ (parse : String → Option Instant)
      (hash : SnapshotCommand → List SentimentSnapshotPoint → String) (durable : Bool)
      (command : CreateSentimentSnapshotCommand) (left right : List StoredResult)
      (lsnapshot rsnapshot : SealedSentimentSnapshot),
      Created parse hash durable command left lsnapshot →
      Created parse hash durable command right rsnapshot → left.Perm right →
        lsnapshot.points = rsnapshot.points := by
  intro hclaim
  obtain ⟨left, hleft⟩ := exists_created_example [praise, blame, remark] (by decide +kernel)
  obtain ⟨right, hright⟩ := exists_created_example [praise, remark, blame] (by decide +kernel)
  have hpoints := hclaim _ _ _ _ _ _ left right hleft hright
    (List.Perm.cons praise (List.Perm.swap remark blame []))
  have hlcommand := Except.ok.inj (hleft.spec.1.symm.trans validate_example)
  have hrcommand := Except.ok.inj (hright.spec.1.symm.trans validate_example)
  have hlaggregates := hleft.spec.2
  have hraggregates := hright.spec.2
  rw [hlcommand, readForSnapshot_example [praise, blame, remark] (by decide)] at hlaggregates
  rw [hrcommand, readForSnapshot_example [praise, remark, blame] (by decide)] at hraggregates
  have hscores : scoresAt exampleNormalized [praise, blame, remark] 300000 ≠ [] := by
    decide
  have hpoint : pointAt exampleNormalized [praise, blame, remark] 300000 ∈ left.points :=
    (hlaggregates.mem_iff _).mpr ⟨isWindowEnd_example, hscores, rfl⟩
  rw [hpoints] at hpoint
  obtain ⟨-, -, hsame⟩ := (hraggregates.mem_iff _).mp hpoint
  exact points_differ hsame

end Example

end Cryptox.Sentiment
