import Cryptox.Library.StableSort
import Cryptox.Library.Table
import Cryptox.Sentiment.Rules

/-!
# Sentiment snapshots

The results that match a command are gathered by the window they were published in, averaged, and
sealed. The repository of the results answers in the order of their insertion, that of the database
in the order of their publication. `hash` stands for the SHA-256 of the text that tells a command
and its points.
-/
namespace Cryptox.Sentiment

open Cryptox.Backtesting (JsNumber Sentiment SentimentLabel SentimentPoint sentimentReadAt)
open Cryptox.Library

section Aggregation

variable (command : SnapshotCommand)

def StoredResult.isFor (row : StoredResult) : Bool :=
  row.modelName == command.modelName && row.modelVersion == command.modelVersion
    && row.news.relatedCoins.contains command.relatedCoin

def StoredResult.isPublishedIn (row : StoredResult) : Bool :=
  command.fromTime.val ≤ row.news.publishedAt.val && row.news.publishedAt.val < command.toTime.val

/-- The order of publication. -/
abbrev StoredResult.Before (left right : StoredResult) : Prop :=
  left.news.publishedAt.val ≤ right.news.publishedAt.val

def readForSnapshot (durable : Bool) (results : List StoredResult) : List StoredResult :=
  let rows := results.filter fun row => row.isFor command && row.isPublishedIn command
  if durable then rows.insertionSort StoredResult.Before else rows

/-- The scores of the results that fell into one window. -/
structure Window where
  endsAt : ℚ
  scores : List ℚ
deriving DecidableEq

abbrev Windows : Type := Table Window.endsAt

def Windows.scoresAt (windows : Windows) (endsAt : ℚ) : List ℚ :=
  ((windows.get? endsAt).map (·.scores)).getD []

def addRow (windows : Windows) (row : StoredResult) : Windows :=
  if !row.isFor command then windows
  else if !row.isPublishedIn command then windows
  else if command.toTime.val < command.windowEnd row.news.publishedAt.val then windows
  else
    let endsAt := command.windowEnd row.news.publishedAt.val
    windows.put ⟨endsAt, windows.scoresAt endsAt ++ [row.score.toRat]⟩

def pointOf (window : Window) : Except SentimentException SentimentSnapshotPoint :=
  let average := averageScore window.scores
  validateSnapshotPoint
    { timestamp := ⌊window.endsAt⌋, label := sentimentLabelFor average, averageScore := average }

abbrev Window.Earlier (left right : Window) : Prop := left.endsAt ≤ right.endsAt

def aggregateSnapshotPoints (rows : List StoredResult) :
    Except SentimentException (List SentimentSnapshotPoint) :=
  ((rows.foldl (addRow command) .empty).rows.insertionSort Window.Earlier).mapM pointOf

end Aggregation

/-- Of its command a reference repeats every field. -/
structure SentimentDatasetSnapshotRef where
  id : String
  command : SnapshotCommand
  pointCount : Nat
  sha256 : String
  createdAt : Int
deriving DecidableEq

structure SealedSentimentSnapshot where
  ref : SentimentDatasetSnapshotRef
  points : List SentimentSnapshotPoint
deriving DecidableEq

def SealedSentimentSnapshot.key (snapshot : SealedSentimentSnapshot) : String := snapshot.ref.id

abbrev SnapshotTable : Type := Table SealedSentimentSnapshot.key

/-- A snapshot of the same hash is kept as it is. -/
def insertSealed (snapshots : SnapshotTable) (snapshot : SealedSentimentSnapshot) :
    SentimentDatasetSnapshotRef × SnapshotTable :=
  match snapshots.rows.find? fun row => row.ref.sha256 = snapshot.ref.sha256 with
  | some existing => (existing.ref, snapshots)
  | none => (snapshot.ref, snapshots.put snapshot)

/-- What a call returns, and the snapshots it leaves. The results are read before the snapshots are
looked at, so neither has to be of the same moment. -/
def createSnapshot (parse : String → Option Instant)
    (hash : SnapshotCommand → List SentimentSnapshotPoint → String) (durable : Bool)
    (results : List StoredResult) (snapshots : SnapshotTable)
    (command : CreateSentimentSnapshotCommand) (id : String) (createdAt : Int) :
    Except SentimentException (SentimentDatasetSnapshotRef × SnapshotTable) := do
  let normalized ← validateSnapshotCommand parse command
  let points ← aggregateSnapshotPoints normalized (readForSnapshot normalized durable results)
  throwIf points.isEmpty
    { code := .invalidSnapshot, message := "Cannot create an empty Sentiment snapshot." }
  return insertSealed snapshots
    { ref := { id, command := normalized, pointCount := points.length,
               sha256 := hash normalized points, createdAt }
      points }

def readSnapshot (snapshots : SnapshotTable) (snapshotId : String) :
    Except SentimentException SealedSentimentSnapshot :=
  match snapshots.get? snapshotId with
  | none => .error { code := .snapshotNotFound, message := "Sentiment snapshot was not found." }
  | some snapshot => do
    let points ← snapshot.points.mapM validateSnapshotPoint
    throwIf (points.length ≠ snapshot.ref.pointCount
        || !decide (points.map (·.timestamp)).Nodup)
      { code := .invalidSnapshot, message := "Sealed snapshot points are invalid." }
    return { ref := snapshot.ref, points }

section Lookup

/-- The point at the close of a candle, `none` being a close that is no date. -/
def pointForCandle (snapshot : SealedSentimentSnapshot) (snapshotId : String)
    (candleCloseTime : Option Int) : Option SentimentSnapshotPoint := do
  let command := snapshot.ref.command
  guard (snapshot.ref.id = snapshotId)
  let close ← candleCloseTime
  guard (command.fromTime.val < close ∧ close ≤ command.toTime.val)
  guard (command.windowEnd close ≤ command.toTime.val ∧ command.windowEnd close = close)
  snapshot.points.find? fun candidate => candidate.timestamp = ⌊command.windowEnd close⌋

def labelText : SentimentLabel → String
  | .positive => "POSITIVE"
  | .neutral => "NEUTRAL"
  | .negative => "NEGATIVE"

/-- The lookup that a simulation is given: `parseDate` stands for `Date.parse`, `shown` for the
decimal that a number is printed as. -/
def simulatedSentiment (parseDate : String → Option Int) (shown : ℚ → JsNumber)
    (snapshot : SealedSentimentSnapshot) : String → Except String (Option Sentiment) :=
  sentimentReadAt (fun snapshotId close =>
    (pointForCandle snapshot snapshotId (parseDate close)).map fun point =>
      { label := labelText point.label, averageScore := shown point.averageScore })
    snapshot.ref.id

end Lookup

end Cryptox.Sentiment
