import Cryptox.Library.Comparators
import Cryptox.Library.GuardedSystem
import Cryptox.Library.PortAnswer
import Cryptox.Library.Table
import Cryptox.Sentiment.Rules
import Cryptox.Strategy.Contracts

/-!
# Collecting news

`persistAndAnalyze` checks an item, inserts it, has it analyzed and records the analysis. Calls run
beside each other and wait at each await. Whatever fails after the insertion is only observed.
-/
namespace Cryptox.News

open Cryptox.Backtesting (SentimentLabel)
open Cryptox.Library
open Cryptox.Sentiment (Instant SentimentInput SentimentResult StoredResult requiredText
  validateSentimentInput validateSentimentResult)
open Cryptox.Strategy (trim)

structure NewsItem where
  id : String
  title : String
  content : String
  source : String
  publishedAt : String
  crawledAt : String
  relatedCoins : List String
  url : String
deriving DecidableEq, Repr

inductive NewsErrorCode where
  | invalidNewsItem | providerUnavailable | persistenceFailed
deriving DecidableEq, Repr

structure NewsException where
  code : NewsErrorCode
  message : String
deriving DecidableEq, Repr

/-- `parse` reads canonical timestamps, `isHttpUrl` tells absolute HTTP(S) URLs, and `localeCompare`
compares texts. -/
structure NewsPorts where
  parse : String → Option Instant
  isHttpUrl : String → Bool
  localeCompare : String → String → Ordering

def provenanceMissing : NewsException :=
  ⟨.invalidNewsItem, "News item must contain its normalized identity, content, and provenance."⟩

def urlInvalid : NewsException :=
  ⟨.invalidNewsItem, "News item URL must be an absolute HTTP(S) URL."⟩

def notNormalized : NewsException :=
  ⟨.invalidNewsItem, "News item timestamps and related coins must be normalized."⟩

def persistenceFailed : NewsException :=
  ⟨.persistenceFailed, "News item could not be persisted."⟩

def validateNewsItem (ports : NewsPorts) (item : NewsItem) : Except NewsException NewsItem := do
  throwIf (!([item.id, item.title, item.content, item.source, item.url].all requiredText))
    provenanceMissing
  throwIf (!ports.isHttpUrl item.url) urlInvalid
  throwIf ((ports.parse item.publishedAt).isNone || (ports.parse item.crawledAt).isNone
    || !item.relatedCoins.all requiredText) notNormalized
  return item

def toSentimentInput (item : NewsItem) : SentimentInput :=
  { newsId := item.id
    title := item.title
    content := item.content
    source := item.source
    publishedAt := item.publishedAt
    relatedCoins := item.relatedCoins }

/-! The news. -/

structure NewsRow where
  item : NewsItem
  userId : Option String
deriving DecidableEq, Repr

def NewsRow.key (row : NewsRow) : String := row.userId.getD "" ++ "|" ++ row.item.url

def NewsRow.id (row : NewsRow) : String := row.item.id

abbrev MemoryNews := Table NewsRow.key

/-- The first item of a user and a URL stays. -/
def MemoryNews.insert (rows : MemoryNews) (item : NewsItem) (userId : Option String) :
    MemoryNews × NewsItem :=
  match rows.get? (NewsRow.key ⟨item, userId⟩) with
  | some existing => (rows, existing.item)
  | none => (rows.put ⟨item, userId⟩, item)

def MemoryNews.readAll (rows : MemoryNews) (userId : Option String) : List NewsItem :=
  (rows.rows.filter fun row =>
    match userId with
    | none => true
    | some user => user.isEmpty || row.userId == some user).map NewsRow.item

abbrev PostgresNews := Table NewsRow.id

/-- A user id that is blank is no user id. -/
def owner (userId : Option String) : Option String :=
  userId.bind fun user => if (trim user).isEmpty then none else some (trim user)

/-- What `ON CONFLICT (user_id, url) DO UPDATE` writes. -/
def NewsRow.refreshed (row : NewsRow) (item : NewsItem) : NewsRow :=
  { row with item := { row.item with
      title := item.title
      content := item.content
      crawledAt := item.crawledAt
      relatedCoins := item.relatedCoins } }

/-- Rows without a user never conflict on user and URL; any conflict on the id is an error. -/
def PostgresNews.insert (rows : PostgresNews) (item : NewsItem) (userId : Option String) :
    Except String (PostgresNews × NewsItem) :=
  let conflicting := rows.rows.find? fun row =>
    (owner userId).isSome && row.userId == owner userId && row.item.url == item.url
  match conflicting with
  | some row => .ok (rows.put (row.refreshed item), (row.refreshed item).item)
  | none =>
    if (rows.get? item.id).isSome then .error "23505"
    else .ok (rows.put ⟨item, owner userId⟩, item)

def PostgresNews.readAll (rows : PostgresNews) (userId : Option String) : List NewsItem :=
  (rows.rows.filter fun row =>
    match owner userId with
    | none => true
    | some user => row.userId == some user).map NewsRow.item

/-! The analyses. -/

structure Analysis where
  newsId : String
  label : SentimentLabel
  score : Binary64
  modelName : String
  modelVersion : String
  analyzedAt : Instant
deriving DecidableEq

def Analysis.of (result : StoredResult) : Analysis :=
  { newsId := result.news.newsId
    label := result.label
    score := result.score
    modelName := result.modelName
    modelVersion := result.modelVersion
    analyzedAt := result.analyzedAt }

/-- The news item and the model. -/
def Analysis.identity (analysis : Analysis) : String × String × String :=
  (analysis.newsId, analysis.modelName, analysis.modelVersion)

/-- The latest analysis first, among those of one instant the one recorded last. -/
def latestFirst : Analysis × Nat → Analysis × Nat → Ordering :=
  compareLex (fun left right => compare right.1.analyzedAt.val left.1.analyzedAt.val)
    fun left right => compare right.2 left.2

def readLatestForNews (results : List Analysis) (newsId : String) : Option Analysis :=
  (sortWith latestFirst (results.zipIdx.filter fun row => row.1.newsId = newsId)).head?.map Prod.fst

inductive NewsStorage where
  | inMemory | postgres
deriving DecidableEq, Repr

namespace NewsStorage

abbrev Held : NewsStorage → Type
  | inMemory => MemoryNews
  | postgres => PostgresNews

def noNews : (storage : NewsStorage) → storage.Held
  | inMemory => Table.empty
  | postgres => Table.empty

def rows : (storage : NewsStorage) → storage.Held → List NewsRow
  | inMemory => fun news => news.rows
  | postgres => fun news => news.rows

def insert : (storage : NewsStorage) → storage.Held → NewsItem → Option String →
    Except String (storage.Held × NewsItem)
  | inMemory => fun news item userId => .ok (news.insert item userId)
  | postgres => fun news item userId => PostgresNews.insert news item userId

def readAll : (storage : NewsStorage) → storage.Held → Option String → List NewsItem
  | inMemory => fun news userId => news.readAll userId
  | postgres => fun news userId => PostgresNews.readAll news userId

/-- One analysis for a news item and a model. The database also refuses one of an item it does not
hold. -/
def record : (storage : NewsStorage) → storage.Held → List Analysis → Analysis →
    Except String (List Analysis)
  | inMemory => fun _ results analysis =>
    if results.any (·.identity == analysis.identity) then .error "DUPLICATE_RESULT"
    else .ok (results ++ [analysis])
  | postgres => fun news results analysis =>
    if (Table.get? news analysis.newsId).isNone then .error "23503"
    else if results.any (·.identity == analysis.identity) then .ok results
    else .ok (results ++ [analysis])

end NewsStorage

/-! Calls. -/

inductive CollectPhase where
  | inserting (item : NewsItem)
  | analyzing (news : Sentiment.NewsItem)
  | recording (analysis : Analysis)
  | ended (answer : Except NewsException Unit)
  | stopped

structure CollectCall where
  callId : Nat
  item : NewsItem
  userId : Option String
  phase : CollectPhase

structure NewsWorld (storage : NewsStorage) where
  news : storage.Held
  results : List Analysis
  calls : Table CollectCall.callId

inductive CollectStep where
  | collect (callId : Nat) (item : NewsItem) (userId : Option String)
  | insert (callId : Nat) (answer : PortAnswer)
  | analyzed (callId : Nat) (answer : Except String SentimentResult)
  | record (callId : Nat) (answer : PortAnswer)
  | stop (callId : Nat)

/-- User ids are UUIDs. -/
def isUserId (user : String) : Bool :=
  !user.isEmpty && user.toList.all fun c => c.isAlphanum || c == '-'

namespace NewsWorld

variable {storage : NewsStorage}

def start (storage : NewsStorage) : NewsWorld storage := ⟨storage.noNews, [], Table.empty⟩

def setPhase (w : NewsWorld storage) (call : CollectCall) (phase : CollectPhase) :
    NewsWorld storage :=
  { w with calls := w.calls.put { call with phase } }

section

variable (ports : NewsPorts)

def collectStep (w : NewsWorld storage) (callId : Nat) (item : NewsItem) (userId : Option String) :
    NewsWorld storage :=
  w.setPhase ⟨callId, item, userId, .stopped⟩ (match validateNewsItem ports item with
    | .ok item => .inserting item
    | .error exception => .ended (.error exception))

/-- Where a call goes on once its item is persisted. -/
def analysisOf (persisted : NewsItem) : CollectPhase :=
  match validateNewsItem ports persisted with
  | .error _ => .ended (.ok ())
  | .ok item =>
    match validateSentimentInput ports.parse (toSentimentInput item) with
    | .error _ => .ended (.ok ())
    | .ok news => .analyzing news

def insertStep (w : NewsWorld storage) (call : CollectCall) (item : NewsItem)
    (answer : PortAnswer) : NewsWorld storage :=
  match answer with
  | .failed _ => w.setPhase call (.ended (.error persistenceFailed))
  | .done | .lost _ =>
    match storage.insert w.news item call.userId with
    | .error _ => w.setPhase call (.ended (.error persistenceFailed))
    | .ok (news, persisted) =>
      { w with news }.setPhase call (match answer.error? with
        | some _ => .ended (.error persistenceFailed)
        | none => analysisOf ports persisted)

def analyzedStep (w : NewsWorld storage) (call : CollectCall) (news : Sentiment.NewsItem)
    (answer : Except String SentimentResult) : NewsWorld storage :=
  w.setPhase call (match answer with
    | .error _ => .ended (.ok ())
    | .ok result =>
      match validateSentimentResult ports.parse result news with
      | .error _ => .ended (.ok ())
      | .ok stored => .recording (.of stored))

def recordStep (w : NewsWorld storage) (call : CollectCall) (analysis : Analysis)
    (answer : PortAnswer) : NewsWorld storage :=
  match answer with
  | .failed _ => w.setPhase call (.ended (.ok ()))
  | .done | .lost _ =>
    match storage.record w.news w.results analysis with
    | .error _ => w.setPhase call (.ended (.ok ()))
    | .ok results => { w with results }.setPhase call (.ended (.ok ()))

def enabled (w : NewsWorld storage) : CollectStep → Prop
  | .collect callId _ userId => w.calls.get? callId = none ∧ ∀ user ∈ userId, isUserId user = true
  | .insert callId _ => ∃ call item, w.calls.get? callId = some call ∧ call.phase = .inserting item
  | .analyzed callId _ => ∃ call news, w.calls.get? callId = some call ∧ call.phase = .analyzing news
  | .record callId _ =>
    ∃ call analysis, w.calls.get? callId = some call ∧ call.phase = .recording analysis
  | .stop callId => ∃ call, w.calls.get? callId = some call ∧ ∀ answer, call.phase ≠ .ended answer

def next (w : NewsWorld storage) : CollectStep → NewsWorld storage
  | .collect callId item userId => w.collectStep ports callId item userId
  | .insert callId answer =>
    match w.calls.get? callId with
    | some call =>
      match call.phase with
      | .inserting item => w.insertStep ports call item answer
      | _ => w
    | none => w
  | .analyzed callId answer =>
    match w.calls.get? callId with
    | some call =>
      match call.phase with
      | .analyzing news => w.analyzedStep ports call news answer
      | _ => w
    | none => w
  | .record callId answer =>
    match w.calls.get? callId with
    | some call =>
      match call.phase with
      | .recording analysis => w.recordStep call analysis answer
      | _ => w
    | none => w
  | .stop callId =>
    match w.calls.get? callId with
    | some call => w.setPhase call .stopped
    | none => w

def system (storage : NewsStorage) : GuardedSystem (NewsWorld storage) CollectStep :=
  ⟨enabled, next ports⟩

end

end NewsWorld

/-! Reading. -/

structure NewsReadItem where
  item : NewsItem
  sentiment : Option Analysis
deriving DecidableEq

/-- On the timestamps that `parse` reads the collation is the order of the instants. -/
def NewsPorts.Chronological (ports : NewsPorts) : Prop :=
  ∀ left right, ∀ earlier ∈ ports.parse left, ∀ later ∈ ports.parse right,
    ports.localeCompare left right = compare earlier.val later.val

/-- The latest publication first, then by id. -/
def publishedFirst (ports : NewsPorts) : NewsItem → NewsItem → Ordering :=
  compareLex (fun left right => ports.localeCompare right.publishedAt left.publishedAt)
    fun left right => ports.localeCompare left.id right.id

/-- An item whose analysis cannot be read, as `unreadable` says, is shown without one. -/
def withSentiment (results : List Analysis) (unreadable : String → Bool) (item : NewsItem) :
    NewsReadItem :=
  ⟨item, if unreadable item.id then none else readLatestForNews results item.id⟩

/-- The rows are read; a `readAll` that throws is outside the model. -/
def readNews (ports : NewsPorts) {storage : NewsStorage} (w : NewsWorld storage)
    (userId : Option String) (unreadable : String → Bool) :
    Except NewsException (List NewsReadItem) := do
  let items ← (storage.readAll w.news userId).mapM (validateNewsItem ports)
  return (sortWith (publishedFirst ports) items).map (withSentiment w.results unreadable)

end Cryptox.News
