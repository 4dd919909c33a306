import Cryptox.Backtesting.Service.Inputs
import Cryptox.Library.RoundingBounds
import Cryptox.MarketData.Rules

/-!
# Analysis results and snapshot commands

A canonical timestamp is kept as its instant. Its year is one of 0000 to 9999: the texts of these
years, which the source compares, are ordered as their instants are. `parse` stands for the reading
of such a text, where `none` says that a text is not canonical.
-/
namespace Cryptox.Sentiment

open Cryptox.Backtesting (SentimentLabel isJsSpace isSha256 sentimentLabel)
open Cryptox.Library
open Cryptox.MarketData (JsDouble)

inductive SentimentErrorCode where
  | duplicateResult | invalidInput | invalidResult | invalidSnapshot | snapshotNotFound
deriving DecidableEq, Repr

structure SentimentException where
  code : SentimentErrorCode
  message : String
deriving DecidableEq, Repr

/-- The milliseconds of the years 0000 to 9999. -/
def IsInstant (milliseconds : Int) : Prop :=
  -62167219200000 ≤ milliseconds ∧ milliseconds ≤ 253402300799999

instance (milliseconds : Int) : Decidable (IsInstant milliseconds) := by
  unfold IsInstant
  infer_instance

abbrev Instant : Type := { milliseconds : Int // IsInstant milliseconds }

section Texts

def requiredText (value : String) : Bool := value.toList.any fun c => !isJsSpace c

/-- Upper-case letters and digits, two to twelve, that do not end in a quote currency. -/
def isBaseAsset (coin : String) : Bool :=
  coin.toList.all (fun c => c.isUpper || c.isDigit) && 2 ≤ coin.length && coin.length ≤ 12
    && ["USDT", "USDC", "BUSD", "FDUSD", "USD"].all fun quote => !coin.endsWith quote

end Texts

structure SentimentInput where
  newsId : String
  title : String
  content : String
  source : String
  publishedAt : String
  relatedCoins : List String

structure SentimentResult where
  newsId : String
  label : String
  score : JsDouble
  modelName : String
  modelVersion : String
  analyzedAt : String

structure CreateSentimentSnapshotCommand where
  relatedCoin : String
  fromTime : String
  toTime : String
  aggregationWindowSeconds : JsDouble
  modelName : String
  modelVersion : String
  modelSha256 : String

/-- A news item that has passed its checks. -/
structure NewsItem where
  newsId : String
  publishedAt : Instant
  relatedCoins : List String
deriving DecidableEq

/-- A result that has passed its checks, with the news item it belongs to. -/
structure StoredResult where
  news : NewsItem
  label : SentimentLabel
  score : Binary64
  inRange : |score.toRat| ≤ 1
  modelName : String
  modelVersion : String
  analyzedAt : Instant
deriving DecidableEq

/-- A command that has passed its checks. -/
structure SnapshotCommand where
  relatedCoin : String
  fromTime : Instant
  toTime : Instant
  nonempty : fromTime.val < toTime.val
  windowSeconds : Int
  positive : 0 < windowSeconds
  isDouble : IsDouble windowSeconds
  modelName : String
  modelVersion : String
  modelSha256 : String
deriving DecidableEq

structure SentimentSnapshotPoint where
  timestamp : Int
  label : SentimentLabel
  averageScore : ℚ
deriving DecidableEq

section Validation

variable (parse : String → Option Instant)

def newsError : SentimentException :=
  { code := .invalidInput
    message := "Sentiment input timestamps and related coins must be normalized." }

def validateSentimentInput (input : SentimentInput) : Except SentimentException NewsItem := do
  throwIf (!([input.newsId, input.title, input.content, input.source].all requiredText))
    { code := .invalidInput
      message := "Sentiment input must contain News provenance and content." }
  match parse input.publishedAt, input.relatedCoins.all requiredText with
  | some publishedAt, true =>
    return { newsId := input.newsId, publishedAt, relatedCoins := input.relatedCoins }
  | _, _ => .error newsError

def scoreError : SentimentException :=
  { code := .invalidResult, message := "Sentiment result label and score are invalid." }

def provenanceError : SentimentException :=
  { code := .invalidResult, message := "Sentiment result provenance is invalid." }

def validateSentimentResult (result : SentimentResult) (news : NewsItem) :
    Except SentimentException StoredResult := do
  throwIf (!requiredText result.newsId) scoreError
  match sentimentLabel result.label, result.score with
  | some label, .finite score =>
    if inRange : |score.toRat| ≤ 1 then do
      match [result.modelName, result.modelVersion].all requiredText, parse result.analyzedAt with
      | true, some analyzedAt =>
        throwIf (result.newsId ≠ news.newsId)
          { code := .invalidResult
            message := "Sentiment result must belong to the analyzed News item." }
        return { news, label, score, inRange, modelName := result.modelName,
                 modelVersion := result.modelVersion, analyzedAt }
      | _, _ => .error provenanceError
    else .error scoreError
  | _, _ => .error scoreError

def rangeError : SentimentException :=
  { code := .invalidSnapshot, message := "Snapshot range must be a valid half-open interval." }

def windowError : SentimentException :=
  { code := .invalidSnapshot, message := "Snapshot aggregation or model provenance is invalid." }

def validateSnapshotCommand (command : CreateSentimentSnapshotCommand) :
    Except SentimentException SnapshotCommand := do
  throwIf (!isBaseAsset command.relatedCoin)
    { code := .invalidSnapshot, message := "Snapshot relatedCoin must be a canonical base asset." }
  match parse command.fromTime, parse command.toTime with
  | some fromTime, some toTime =>
    if nonempty : fromTime.val < toTime.val then
      match command.aggregationWindowSeconds with
      | .finite seconds =>
        if hinteger : seconds.toRat = (seconds.toRat.num : ℚ) ∧ 0 < seconds.toRat.num then do
          throwIf (!([command.modelName, command.modelVersion].all requiredText)
            || !isSha256 command.modelSha256) windowError
          return {
            relatedCoin := command.relatedCoin
            fromTime, toTime, nonempty
            windowSeconds := seconds.toRat.num
            positive := hinteger.2
            isDouble := hinteger.1 ▸ seconds.isDouble
            modelName := command.modelName
            modelVersion := command.modelVersion
            modelSha256 := command.modelSha256.toLower }
        else .error windowError
      | _ => .error windowError
    else .error rangeError
  | _, _ => .error rangeError

end Validation

def sentimentLabelFor (score : ℚ) : SentimentLabel :=
  if 0 < score then .positive else if score < 0 then .negative else .neutral

/-- The date and the label of a point are valid as they are made. -/
def validateSnapshotPoint (point : SentimentSnapshotPoint) :
    Except SentimentException SentimentSnapshotPoint := do
  throwIf (point.averageScore < -1 || 1 < point.averageScore)
    { code := .invalidSnapshot, message := "Snapshot point is invalid." }
  return point

section Windows

def SnapshotCommand.windowMs (command : SnapshotCommand) : ℚ :=
  roundDouble (command.windowSeconds * 1000)

/-- The end of the window that an instant falls into, in the arithmetic of doubles. -/
def SnapshotCommand.windowEnd (command : SnapshotCommand) (instant : Int) : ℚ :=
  let elapsed := roundDouble ((instant : ℚ) - command.fromTime.val)
  let windows := max 1 ⌈roundDouble (elapsed / command.windowMs)⌉
  roundDouble (command.fromTime.val + roundDouble (windows * command.windowMs))

/-- The scores added in their order, divided by their number and rounded to twelve decimals. -/
def averageScore (scores : List ℚ) : ℚ :=
  fixedValue 12 (roundDouble (roundedSum scores / scores.length))

end Windows

end Cryptox.Sentiment
